import Trixter.Laws.Caps

/-!
# A waiting task gets its token

`never_starves`. At a steady rate a bucket without tokens puts the poller to sleep for at most 100 ms at a
time. An update that finds less than one whole token leaves `last_update` where it is, so however often
the poller wakes too early, what has accrued is not lost, and the first poll after the whole token is
there is granted it. Of a bucket that several tasks share, and of a knob that goes on changing, nothing is
claimed.
-/

namespace Trixter

open Trixter.Lib Polling

namespace LeakyBucket

variable {R : Type} {env : World} {k born start want : Nat} {r : UInt64} {lb : LeakyBucket R}

/-- The longest sleep of `poll_acquire`, in nanoseconds. -/
def longestSleep : Nat := 100000000

/-- When the next whole token will have accrued at this rate: `ceil(10^9 / r)` ns after the last
update. -/
def nextToken (r : UInt64) (lb : LeakyBucket R) : Nat :=
  lb.lastUpdate + (1000000000 + r.toNat - 1) / r.toNat

theorem wakeUp_le : wakeUp r ≤ longestSleep := by
  unfold wakeUp longestSleep
  omega

theorem wakeUp_pos : 0 < wakeUp r := by
  unfold wakeUp
  omega

/-- A whole token has accrued exactly from `nextToken` on. -/
theorem accrued_pos_iff (pos : 0 < r) {now : Nat} (span : now - lb.lastUpdate < 2 ^ 64) :
    0 < accrued (now - lb.lastUpdate) r ↔ lb.nextToken r ≤ now := by
  have pos : 0 < r.toNat := pos
  have token : (1000000000 + r.toNat - 1) / r.toNat ≤ now - lb.lastUpdate ↔
      1000000000 ≤ (now - lb.lastUpdate) * r.toNat := by
    rw [← Nat.lt_succ_iff, Nat.div_lt_iff_lt_mul pos, Nat.succ_mul]
    omega
  have some : 0 < (1000000000 + r.toNat - 1) / r.toNat := Nat.div_pos (by omega) pos
  rw [accrued_eq span, Nat.div_pos_iff, and_iff_right (by decide), ← token, nextToken]
  omega

/-- A refill at a nonzero rate that leaves no token has changed nothing. -/
theorem updated_none (pos : 0 < r) {reading : Nat} (none : (lb.updated reading r).budget.toNat = 0) :
    accrued (reading - lb.lastUpdate) r = 0 ∧ lb.updated reading r = lb := by
  have pos : 0 < r.toNat := pos
  unfold updated at none ⊢
  split at none
  · next some =>
    rw [refilled_toNat] at none
    omega
  · next idle => exact ⟨by omega, if_neg idle⟩

/-- Only the last deadline counts. -/
theorem asleep_asleep {deadline deadline' : Nat} :
    (lb.asleep deadline).asleep deadline' = lb.asleep deadline' := rfl

theorem asleep_deadline (deadline : Nat) : (lb.asleep deadline).sleep.deadline = deadline := rfl

/-- What a poll that wants tokens at a steady rate comes to: it sits out an earlier sleep, is granted
some, or finds none on hand and arms a sleep. -/
inductive Answered (env : World) (r : UInt64) (k : Nat) (lb : LeakyBucket R) :
    Poll IoError Nat → LeakyBucket R → Nat → Prop
  | asleep (sleeping : lb.sleeping = true) (early : env.alarm lb.sleep.deadline k = false) :
    Answered env r k lb .pending lb (k + 1)
  | granted {n : Nat} {lb' : LeakyBucket R} {stop : Nat} (some : 0 < n) :
    Answered env r k lb (.ok n) lb' stop
  | armed {i m stop : Nat} (read : k ≤ i) (none : accrued (env.clock i - lb.lastUpdate) r = 0)
    (after : k ≤ m) (before : m < stop) :
    Answered env r k lb .pending (lb.asleep (env.clock m + wakeUp r)) stop

variable [Rate R]

/-- The knob stays at `r` from this moment on. -/
def SteadyFrom (env : World) (rate : R) (r : UInt64) (k : Nat) : Prop :=
  ∀ j, k ≤ j → Rate.rate env rate j = r

/-- **One turn at a steady rate.** It grants some, or finds no whole token and changes nothing but the
sleep. -/
theorem acquireTurn_answered (pos : 0 < r) (some : 0 < want) {i : Nat}
    (rate : Rate.rate env lb.rate (i + 1) = r) :
    (acquireTurn want r).wp env i lb fun a lb' stop =>
      match a with
      | .ok (.some grant) => 0 < grant.tokens
      | .ok .none => accrued (env.clock i - lb.lastUpdate) r = 0 ∧
          lb' = lb.asleep (env.clock (i + 2) + wakeUp r) ∧ stop = i + 3
      | _ => False := by
  have nonzero : r.toNat ≠ 0 := Nat.ne_of_gt pos
  rw [acquireTurn_wp, if_neg nonzero, LeakyBucket.turned, rate]
  split
  · assumption
  · have empty : (lb.updated (env.clock i) r).budget.toNat = 0 := by omega
    obtain ⟨none, same⟩ := updated_none pos empty
    rw [same]
    exact ⟨none, rfl, rfl⟩

/-- **The loop at a steady rate.** -/
theorem acquireLoop_answered (pos : 0 < r) (some : 0 < want) (turns : Nat) {i : Nat} (le : k ≤ i)
    (steady : SteadyFrom env lb.rate r k) :
    (acquireLoop want r turns).wp env i lb fun a lb' stop =>
      match a with
      | .ok grant => 0 < grant.tokens
      | .pending => accrued (env.clock i - lb.lastUpdate) r = 0 ∧
          ∃ m, k ≤ m ∧ m < stop ∧ lb' = lb.asleep (env.clock m + wakeUp r)
      | _ => False := by
  induction turns generalizing i lb with
  | zero =>
    rw [acquireLoop, wp_bind]
    refine wp_mono (acquireTurn_answered pos some (steady (i + 1) (by omega))) ?_
    rintro (_ | e | (_ | grant) | m) lb' stop h
    · exact False.elim h
    · exact False.elim h
    · obtain ⟨none, rfl, rfl⟩ := h
      exact ⟨none, i + 2, by omega, by omega, rfl⟩
    · exact h
    · exact False.elim h
  | succ turns ih =>
    rw [acquireLoop, wp_bind]
    refine wp_mono (acquireTurn_answered pos some (steady (i + 1) (by omega))) ?_
    rintro (_ | e | (_ | grant) | m) lb' stop h
    · exact False.elim h
    · exact False.elim h
    · obtain ⟨none, rfl, rfl⟩ := h
      dsimp only
      rw [wp_bind, pollSleep_wp]
      split
      · -- the sleep is over at once, and the next turn starts from the same bucket
        have steady' : SteadyFrom env (lb.asleep (env.clock (i + 2) + wakeUp r)).rate r k := by
          rw [asleep_rate]
          exact steady
        refine wp_mono (ih (by omega) steady') ?_
        rintro (_ | e | grant | m) lb' stop h
        · obtain ⟨-, m, after, before, same⟩ := h
          rw [asleep_asleep] at same
          exact ⟨none, m, after, before, same⟩
        · exact h
        · exact h
        · exact h
      · exact ⟨none, i + 2, by omega, by omega, rfl⟩
    · exact h
    · exact False.elim h

/-- **One poll at a steady rate.** -/
theorem pollAcquire_answered (pos : 0 < r) (some : 0 < want) (steady : SteadyFrom env lb.rate r k) :
    (pollAcquire want).wp env k lb (Answered env r k lb) := by
  have nonzero : r ≠ 0 := UInt64.pos_iff_ne_zero.mp pos
  rw [pollAcquire_wp, acquire_wp]
  cases at_ : awakeAt env k lb with
  | none =>
    unfold awakeAt at at_
    split at at_
    · next sleeping =>
      split at at_
      · cases at_
      · next early => exact .asleep sleeping (Bool.eq_false_iff.mpr early)
    · cases at_
  | some j =>
    have le := le_awakeAt at_
    dsimp only
    rw [if_neg (Nat.ne_of_gt some), steady j le, if_neg nonzero]
    have loop := @acquireLoop_answered R env k want r lb.awake _ pos some (env.coop (j + 1)) (j + 2)
      (by omega) steady
    refine wp_mono loop ?_
    rintro (_ | e | grant | m) lb' stop h
    · obtain ⟨none, m, after, before, rfl⟩ := h
      exact .armed (Nat.le_trans le (Nat.le_add_right j 2)) none after before
    · exact h.elim
    · exact .granted h
    · exact h.elim

/-! ## What every bucket has in common -/

/-- What is known of a bucket at a moment, whatever the knob did: it was last updated after it was
created, and does not sleep for more than 100 ms from now. -/
structure Rested (env : World) (rate : R) (born k : Nat) (lb : LeakyBucket R) : Prop where
  knob : lb.rate = rate
  started : env.clock (born + 1) ≤ lb.lastUpdate
  soon : lb.sleeping = true → lb.sleep.deadline ≤ env.clock k + longestSleep
  born_lt : born < k

variable {rate : R} {k' : Nat}

omit [Rate R] in
theorem Rested.later (mono : Monotone env.clock) (h : Rested env rate born k lb) (le : k ≤ k') :
    Rested env rate born k' lb where
  knob := h.knob
  started := h.started
  soon sleeping := Nat.le_trans (h.soon sleeping) (Nat.add_le_add_right (mono le) _)
  born_lt := Nat.lt_of_lt_of_le h.born_lt le

theorem Rested.turned (mono : Monotone env.clock) (h : Rested env rate born k lb) :
    Rested env rate born k (lb.turned env k) := by
  unfold LeakyBucket.turned updated
  split
  · exact { h with started := mono h.born_lt }
  · exact h

omit [Rate R] in
theorem Rested.asleep (h : Rested env rate born k lb) {deadline : Nat}
    (le : deadline ≤ env.clock k + longestSleep) : Rested env rate born k (lb.asleep deadline) where
  knob := h.knob
  started := h.started
  soon _ := le
  born_lt := h.born_lt

/-- **A poll of the bucket keeps this**, at any rates. -/
theorem Rested.acquire (mono : Monotone env.clock) (h : Rested env rate born k lb) (want : Nat) :
    (pollAcquire want).wp env k lb fun _ lb' stop => Rested env rate born stop lb' := by
  rw [pollAcquire_wp]
  have kept : (LeakyBucket.acquire want).wp env k lb fun _ lb' stop =>
      Rested env rate born stop lb' := by
    refine acquire_of (I := fun lb k => Rested env rate born k lb) ?_ h
    exact {
      later := fun k lb h => h.later mono (Nat.le_succ k)
      wakes := fun k lb h => { h with soon := nofun }
      starves := fun k lb value h _ _ => by
        have read : env.clock (k + 2) ≤ env.clock (k + 3) := mono (Nat.le_succ _)
        apply Rested.asleep
        · exact (h.turned mono).later mono (Nat.le_add_right k 3)
        · exact Nat.add_le_add read wakeUp_le
      grants := fun k lb h _ => (h.turned mono).later mono (Nat.le_add_right k 2)
      pends := fun k lb h => h
      unwanted := fun k lb h _ => h
      unlimited := fun k lb h _ => h.later mono (Nat.le_succ k) }
  refine wp_mono kept ?_
  rintro (_ | e | grant | m) lb' stop h <;> exact h

/-- So does a whole history. -/
theorem Rested.run (mono : Monotone env.clock) {s : Paced (LeakyBucket R)}
    (h : Rested env rate born s.moment s.state) (calls : List BucketCall) :
    Rested env rate born ((machine env BucketCall.poll).run s calls).2.moment
      ((machine env BucketCall.poll).run s calls).2.state := by
  refine Machine.run_invariant
    (P := fun _ (s : Paced (LeakyBucket R)) => Rested env rate born s.moment s.state) h ?_ calls
  intro past s call h
  cases call with
  | acquire want => exact acquire_step (h.acquire mono want)
  | consume used => exact ⟨h.knob, h.started, h.soon, h.born_lt⟩

/-- What the next poll comes to, once the knob is steady. -/
theorem Rested.answered {s : Paced (LeakyBucket R)} (h : Rested env rate born s.moment s.state)
    (pos : 0 < r) (some : 0 < want) (steady : SteadyFrom env rate r s.moment) :
    Answered env r s.moment s.state ((machine env BucketCall.poll).step s (.acquire want)).1
      ((machine env BucketCall.poll).step s (.acquire want)).2.state
      ((machine env BucketCall.poll).step s (.acquire want)).2.moment := by
  rw [← h.knob] at steady
  exact acquire_step (pollAcquire_answered pos some steady)

theorem rested_new (late : born + 3 ≤ start) :
    Rested env rate born start (new env born rate) where
  knob := rfl
  started := Nat.le_refl _
  soon := nofun
  born_lt := by omega

/-! ## A task that waits -/

/-- The task asks for this many tokens, and if it has to wait, asks again at the deadline: the poll
takes at most `slack` nanoseconds, and the next one is made at most `slack` after the deadline. -/
def Punctual (env : World) (slack : Nat) (s : Paced (LeakyBucket R)) : BucketCall → Prop
  | .acquire want =>
    let d := (machine env BucketCall.poll).step s (.acquire want)
    0 < want ∧ env.clock (d.2.moment - 1) ≤ env.clock s.moment + slack ∧
      (d.1 = .pending → d.2.state.sleep.deadline ≤ env.clock d.2.moment ∧
        env.clock d.2.moment ≤ d.2.state.sleep.deadline + slack)
  | .consume _ => False

instance {slack : Nat} {s : Paced (LeakyBucket R)} : (call : BucketCall) →
    Decidable (Punctual env slack s call)
  | .acquire _ => inferInstanceAs (Decidable (_ ∧ _ ∧ (_ → _)))
  | .consume _ => inferInstanceAs (Decidable False)

/-- A poll of such a task that is not told to wait is granted some. -/
theorem Rested.granted {s : Paced (LeakyBucket R)} (h : Rested env rate born s.moment s.state)
    (pos : 0 < r) (steady : SteadyFrom env rate r s.moment) {slack : Nat} {call : BucketCall}
    (punctual : Punctual env slack s call)
    (last : ((machine env BucketCall.poll).step s call).1 ≠ .pending) :
    ∃ n, ((machine env BucketCall.poll).step s call).1 = .ok n ∧ 0 < n := by
  cases call with
  | consume used => exact punctual.elim
  | acquire want =>
    have answered := h.answered pos punctual.1 steady
    generalize (machine env BucketCall.poll).step s (.acquire want) = d at *
    obtain ⟨a, stop, lb'⟩ := d
    dsimp only at answered last ⊢
    cases answered with
    | asleep sleeping early => exact absurd rfl last
    | granted some => exact ⟨_, rfl, some⟩
    | armed read none after before => exact absurd rfl last

/-- Until `due`, what holds of the bucket of a task that waits for the token it lacked at first. -/
structure Waiting (env : World) (rate : R) (born last due slack : Nat) (s : Paced (LeakyBucket R)) :
    Prop where
  rested : Rested env rate born s.moment s.state
  last : s.state.lastUpdate = last
  inTime : env.clock s.moment ≤ due
  wakes : s.state.sleeping = true → s.state.sleep.deadline + slack ≤ due

/-- **One wait.** A poll that is told to wait leaves the wait as it was, but later. -/
theorem Waiting.step (timely : Timely env born) (prompt : env.Prompt) (pos : 0 < r)
    {s : Paced (LeakyBucket R)} {due slack : Nat}
    (h : Waiting env rate born lb.lastUpdate due slack s) (steady : SteadyFrom env rate r s.moment)
    (far : lb.nextToken r + longestSleep + 2 * slack ≤ due) {call : BucketCall}
    (punctual : Punctual env slack s call)
    (waits : ((machine env BucketCall.poll).step s call).1 = .pending) :
    Waiting env rate born lb.lastUpdate due slack ((machine env BucketCall.poll).step s call).2 ∧
      env.clock s.moment < env.clock ((machine env BucketCall.poll).step s call).2.moment := by
  cases call with
  | consume used => exact punctual.elim
  | acquire want =>
    obtain ⟨some, quick, next⟩ := punctual
    have kept := acquire_step (h.rested.acquire timely.mono want)
    have answered := h.rested.answered pos some steady
    generalize (machine env BucketCall.poll).step s (.acquire want) = d at *
    obtain ⟨a, stop, lb'⟩ := d
    obtain rfl : a = .pending := waits
    obtain ⟨due', late⟩ := next rfl
    dsimp only at kept answered quick due' late ⊢
    cases answered with
    | asleep sleeping early =>
      have ahead : env.clock s.moment < s.state.sleep.deadline := by
        by_contra passed
        rw [prompt _ _ (Nat.le_of_not_lt passed)] at early
        cases early
      have wakes := h.wakes sleeping
      have inTime : env.clock (s.moment + 1) ≤ due := by omega
      exact ⟨⟨kept, h.last, inTime, h.wakes⟩, Nat.lt_of_lt_of_le ahead due'⟩
    | @armed i m _ read none after before =>
      have started := h.rested.started
      have span := timely.span i
      have early : env.clock i < s.state.nextToken r := by
        rw [← Nat.not_le, ← accrued_pos_iff pos (by omega), none]
        exact Nat.lt_irrefl 0
      have same : s.state.nextToken r = lb.nextToken r := by
        rw [nextToken, nextToken, h.last]
      have arming : env.clock m ≤ env.clock (stop - 1) := timely.mono (by omega)
      have reading : env.clock s.moment ≤ env.clock i := timely.mono read
      have onwards : env.clock s.moment ≤ env.clock m := timely.mono after
      have short := @wakeUp_le r
      have long := @wakeUp_pos r
      rw [asleep_deadline] at due' late
      have inTime : env.clock stop ≤ due := by omega
      refine ⟨⟨kept, ?_, inTime, fun _ => ?_⟩, by omega⟩
      · rw [asleep_lastUpdate]
        exact h.last
      · rw [asleep_deadline]
        omega

/-! ## The three promises -/

section Promises

variable {s : Paced (LeakyBucket R)}

/-- A poll that is told to wait leaves a sleep that is over soon. -/
theorem Rested.wakes_soon (timely : Timely env born) (h : Rested env rate born s.moment s.state)
    (pos : 0 < r) (steady : SteadyFrom env rate r s.moment) (some : 0 < want)
    (waits : ((machine env BucketCall.poll).step s (.acquire want)).1 = .pending) :
    let after := ((machine env BucketCall.poll).step s (.acquire want)).2
    after.state.sleeping = true ∧
      after.state.sleep.deadline ≤ env.clock (after.moment - 1) + longestSleep := by
  have answered := h.answered pos some steady
  generalize (machine env BucketCall.poll).step s (.acquire want) = d at *
  obtain ⟨a, stop, lb'⟩ := d
  obtain rfl : a = .pending := waits
  dsimp only at answered ⊢
  cases answered with
  | asleep sleeping early => exact ⟨sleeping, h.soon sleeping⟩
  | @armed i m _ read none after before =>
    have arming : env.clock m ≤ env.clock (stop - 1) := timely.mono (by omega)
    exact ⟨rfl, Nat.add_le_add arming wakeUp_le⟩

/-- A poll that is made when the sleep is over and the token is there is granted some. -/
theorem Rested.gets_token (timely : Timely env born) (prompt : env.Prompt)
    (h : Rested env rate born s.moment s.state) (pos : 0 < r)
    (steady : SteadyFrom env rate r s.moment) (some : 0 < want)
    (awake : s.state.sleeping = true → s.state.sleep.deadline ≤ env.clock s.moment)
    (there : s.state.nextToken r ≤ env.clock s.moment) :
    ∃ n, ((machine env BucketCall.poll).step s (.acquire want)).1 = .ok n ∧ 0 < n := by
  have answered := h.answered pos some steady
  generalize (machine env BucketCall.poll).step s (.acquire want) = d at *
  obtain ⟨a, stop, lb'⟩ := d
  dsimp only at answered ⊢
  cases answered with
  | asleep sleeping early =>
    rw [prompt _ _ (awake sleeping)] at early
    cases early
  | granted some => exact ⟨_, rfl, some⟩
  | @armed i m _ read none after before =>
    have started := h.started
    have span := timely.span i
    have reading : env.clock s.moment ≤ env.clock i := timely.mono read
    have token := (accrued_pos_iff pos (by omega)).mpr (Nat.le_trans there reading)
    omega

/-- A task that asks again at each deadline is granted some in time. -/
theorem Rested.gets_token_in_time (timely : Timely env born) (prompt : env.Prompt)
    (h : Rested env rate born s.moment s.state) (pos : 0 < r)
    (steady : SteadyFrom env rate r s.moment) {slack : Nat} {calls : Nat → BucketCall}
    (punctual : ∀ n, (∀ i < n, (machine env BucketCall.poll).answer s calls i = .pending) →
      Punctual env slack ((machine env BucketCall.poll).visit s calls n) (calls n)) :
    ∃ n g, (∀ i < n, (machine env BucketCall.poll).answer s calls i = .pending) ∧
      (machine env BucketCall.poll).answer s calls n = .ok g ∧ 0 < g ∧
      env.clock ((machine env BucketCall.poll).visit s calls n).moment ≤
        max (env.clock s.moment) (s.state.nextToken r) + longestSleep + 2 * slack := by
  let bucket : Machine (Paced (LeakyBucket R)) BucketCall (Poll IoError Nat) :=
    machine env BucketCall.poll
  let due := max (env.clock s.moment) (s.state.nextToken r) + longestSleep + 2 * slack
  have first : Waiting env rate born s.state.lastUpdate due slack s := by
    refine ⟨h, rfl, by omega, fun sleeping => ?_⟩
    have soon := h.soon sleeping
    omega
  -- each wait keeps the moment it was due, and brings it closer
  have keep : ∀ (s' : Paced (LeakyBucket R)) (call : BucketCall),
      s.moment ≤ s'.moment ∧ Waiting env rate born s.state.lastUpdate due slack s' →
      Punctual env slack s' call → (bucket.step s' call).1 = .pending →
      (s.moment ≤ (bucket.step s' call).2.moment ∧
        Waiting env rate born s.state.lastUpdate due slack (bucket.step s' call).2) ∧
        due - env.clock (bucket.step s' call).2.moment < due - env.clock s'.moment := by
    rintro s' call ⟨later, wait⟩ punctual pending
    have steady' : SteadyFrom env rate r s'.moment := fun j le => steady j (Nat.le_trans later le)
    obtain ⟨next, passed⟩ := wait.step timely prompt pos steady' (by omega) punctual pending
    have more : s'.moment ≤ (bucket.step s' call).2.moment := Nat.le_add_right _ _
    have passed : env.clock s'.moment < env.clock (bucket.step s' call).2.moment := passed
    have inTime : env.clock (bucket.step s' call).2.moment ≤ due := next.inTime
    exact ⟨⟨Nat.le_trans later more, next⟩, by omega⟩
  obtain ⟨n, waited, last, ⟨later, there⟩, punctual⟩ := Machine.waits_until
    (fun a : Poll IoError Nat => a = .pending)
    (fun s' : Paced (LeakyBucket R) => due - env.clock s'.moment) keep ⟨Nat.le_refl _, first⟩ punctual
  have steady' : SteadyFrom env rate r (bucket.visit s calls n).moment :=
    fun j le => steady j (Nat.le_trans later le)
  obtain ⟨g, ok, some⟩ := there.rested.granted pos steady' punctual last
  exact ⟨n, g, waited, ok, some, there.inTime⟩

end Promises

/-- **The throttler never starves a task.** Whatever the knob did before, from a moment on it stays at
`r > 0`. A poll that is told to wait leaves a sleep that ends within 100 ms. A poll that is made
when the sleep is over and a whole token has accrued is granted some. And a task that asks again at
each deadline is granted some no later than 100 ms after it first asked or the token was there, but
for what its polls and its wake-ups are late. -/
theorem never_starves (timely : Timely env born) (prompt : env.Prompt) (late : born + 3 ≤ start)
    (past : List BucketCall) (pos : 0 < r)
    (steady : SteadyFrom env rate r
      ((machine env BucketCall.poll).run ⟨start, new env born rate⟩ past).2.moment) :
    let bucket : Machine (Paced (LeakyBucket R)) BucketCall (Poll IoError Nat) :=
      machine env BucketCall.poll
    let s := (bucket.run ⟨start, new env born rate⟩ past).2
    (∀ want, 0 < want → (bucket.step s (.acquire want)).1 = .pending →
      let after := (bucket.step s (.acquire want)).2
      after.state.sleeping = true ∧
        after.state.sleep.deadline ≤ env.clock (after.moment - 1) + 100000000) ∧
    (∀ want, 0 < want →
      (s.state.sleeping = true → s.state.sleep.deadline ≤ env.clock s.moment) →
      s.state.nextToken r ≤ env.clock s.moment →
      ∃ n, (bucket.step s (.acquire want)).1 = .ok n ∧ 0 < n) ∧
    (∀ (slack : Nat) (calls : Nat → BucketCall),
      (∀ n, (∀ i < n, bucket.answer s calls i = .pending) →
        Punctual env slack (bucket.visit s calls n) (calls n)) →
      ∃ n g, (∀ i < n, bucket.answer s calls i = .pending) ∧
        bucket.answer s calls n = .ok g ∧ 0 < g ∧
        env.clock (bucket.visit s calls n).moment ≤
          max (env.clock s.moment) (s.state.nextToken r) + 100000000 + 2 * slack) := by
  intro bucket s
  have rested : Rested env rate born s.moment s.state := (rested_new late).run timely.mono past
  refine ⟨?_, ?_, ?_⟩
  · intro want some waits
    exact rested.wakes_soon timely pos steady some waits
  · intro want some awake there
    exact rested.gets_token timely prompt pos steady some awake there
  · intro slack calls punctual
    exact rested.gets_token_in_time timely prompt pos steady punctual

/-- A clock that shows 100 ms more with each poll of a task that waits, for a while. -/
def lulls : World :=
  let clock k := (min k 100 - 6) / 6 * 100000000
  { World.still with clock, alarm := fun deadline k => decide (deadline ≤ clock k) }

theorem lulls_timely : Timely lulls 0 where
  mono k k' le := by
    have later : (min k 100 - 6) / 6 ≤ (min k' 100 - 6) / 6 := Nat.div_le_div_right (by omega)
    exact Nat.mul_le_mul_right _ later
  span k := by
    simp only [lulls]
    omega

/-- A bucket of four bytes a second, emptied: three polls wait, and the fourth is granted a token,
50 ms after it had accrued. -/
theorem never_starves_four :
    let bucket : Machine (Paced (LeakyBucket UInt64)) BucketCall (Poll IoError Nat) :=
      machine lulls BucketCall.poll
    let s := (bucket.run ⟨3, new lulls 0 4⟩ [.acquire 4, .consume 4]).2
    ∃ n g, (∀ i < n, bucket.answer s (fun _ => .acquire 2) i = .pending) ∧
      bucket.answer s (fun _ => .acquire 2) n = .ok g ∧ 0 < g ∧
      lulls.clock (bucket.visit s (fun _ => .acquire 2) n).moment ≤
        max 0 250000000 + 100000000 + 2 * 0 := by
  have prompt : lulls.Prompt := fun deadline k le => decide_eq_true le
  have laws := @never_starves UInt64 lulls 0 3 4 _ 4 lulls_timely prompt (by decide)
    [.acquire 4, .consume 4] (by decide) fun j le => rfl
  refine laws.2.2 0 (fun _ => .acquire 2) fun n before => ?_
  match n with
  | 0 => decide
  | 1 => decide
  | 2 => decide
  | 3 => decide
  | n + 4 => exact absurd (before 3 (by omega)) (by decide)

end LeakyBucket

end Trixter
