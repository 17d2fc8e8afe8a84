import Trixter.Laws.Accrual
import Trixter.Script

/-!
# The one-second cap after a change of rate

`update_budget` caps the budget at one second of tokens, but only where it adds a token. A bucket that
was filled at a higher rate keeps what it holds until a whole token has accrued at the lower one, and
a poll before that is granted more than one second of the current rate. `caps_iff_trimmed` says that no
poll is in the runs in which each is trimmed, and only there. Of a poll in which the knob turns nothing is
claimed.
-/

namespace Trixter

open Trixter.Lib Polling

namespace LeakyBucket

variable {R : Type} [Rate R] {env : World} {k k' start want : Nat} {r : UInt64}
  {lb : LeakyBucket R}

/-- What an adapter does with its bucket: it asks for tokens, or takes bytes off after its I/O. -/
inductive BucketCall where
  | acquire (want : Nat)
  | consume (used : Nat)
  deriving DecidableEq, Repr

/-- One call. Taking bytes off grants nothing. -/
def BucketCall.poll : BucketCall → Io (LeakyBucket R) Nat
  | .acquire want => pollAcquire want
  | .consume used => do
    Polling.modify fun lb => lb.consume used
    return 0

/-- The knob is at `r` from one moment until another. -/
def KnobAt (env : World) (rate : R) (r : UInt64) (start stop : Nat) : Prop :=
  ∀ j, start ≤ j → j < stop → Rate.rate env rate j = r

/-- If the knob is at one rate for the whole call, the call grants at most one second of it. -/
def Capped (env : World) (s : Paced (LeakyBucket R)) (call : BucketCall) : Prop :=
  let d := (machine env BucketCall.poll).step s call
  ∀ r, 0 < r → KnobAt env s.state.rate r s.moment d.2.moment → ∀ n, d.1 = .ok n → n ≤ r.toNat

/-- The moment at which a poll is past the sleep that an earlier one armed, if it gets there. -/
def awakeAt (env : World) (k : Nat) (lb : LeakyBucket R) : Option Nat :=
  if lb.sleeping then
    if env.alarm lb.sleep.deadline k then some (k + 1) else none
  else some k

/-- A poll that gets past its sleep with the knob at one rate: no more than one second of it is
wanted, or held, or a token has accrued at it since the last update. -/
def Trimmed (env : World) (s : Paced (LeakyBucket R)) : BucketCall → Prop
  | .acquire want => ∀ j, awakeAt env s.moment s.state = some j →
    ∀ r, 0 < r → KnobAt env s.state.rate r s.moment (j + 4) →
      want ≤ r.toNat ∨ s.state.budget.toNat ≤ r.toNat ∨
        0 < accrued (env.clock (j + 2) - s.state.lastUpdate) r
  | .consume _ => True

theorem KnobAt.mono {rate : R} {start' stop stop' : Nat} (h : KnobAt env rate r start stop)
    (before : start ≤ start') (after : stop' ≤ stop) : KnobAt env rate r start' stop' :=
  fun j ge lt => h j (Nat.le_trans before ge) (Nat.lt_of_lt_of_le lt after)

/-! ## One call -/

omit [Rate R] in
/-- A refill of a bucket that holds no more than a second, or that adds a token, leaves no more than
a second. -/
theorem updated_le {reading : Nat}
    (h : lb.budget.toNat ≤ r.toNat ∨ 0 < accrued (reading - lb.lastUpdate) r) :
    (lb.updated reading r).budget.toNat ≤ r.toNat := by
  unfold updated
  split
  · rw [refilled_toNat]
    exact Nat.min_le_right _ _
  · next none => exact h.resolve_right none

/-- The bucket once a poll is past its sleep. -/
def awake (lb : LeakyBucket R) : LeakyBucket R := { lb with sleeping := false }

omit [Rate R] in
@[simp] theorem awake_rate : lb.awake.rate = lb.rate := rfl

omit [Rate R] in
@[simp] theorem awake_budget : lb.awake.budget = lb.budget := rfl

omit [Rate R] in
@[simp] theorem awake_lastUpdate : lb.awake.lastUpdate = lb.lastUpdate := rfl

omit [Rate R] in
/-- A poll sits out the armed sleep or is pending. -/
theorem wake_awake {Q : Poll IoError Unit → LeakyBucket R → Nat → Prop} :
    (wake : Io (LeakyBucket R) Unit).wp env k lb Q ↔
      match awakeAt env k lb with
      | some j => Q (.ok ()) lb.awake j
      | none => Q .pending lb (k + 1) := by
  obtain ⟨rate, budget, lastUpdate, sleep, sleeping⟩ := lb
  rw [wake_wp, awakeAt, awake]
  cases sleeping with
  | true =>
    rw [if_pos rfl, if_pos rfl]
    dsimp only
    cases env.alarm sleep.deadline k <;> rfl
  | false => rfl

/-- `poll_acquire` by cases: asleep, nothing wanted, no limit, or the loop. -/
theorem acquire_wp {Q : Poll IoError Grant → LeakyBucket R → Nat → Prop} :
    (acquire want).wp env k lb Q ↔
      match awakeAt env k lb with
      | none => Q .pending lb (k + 1)
      | some j =>
        if want = 0 then Q (.ok ⟨0, none⟩) lb.awake j
        else if Rate.rate env lb.rate j = 0 then Q (.ok ⟨want, none⟩) lb.awake (j + 1)
        else (acquireLoop want (Rate.rate env lb.rate j) (env.coop (j + 1))).wp env (j + 2)
          lb.awake Q := by
  rw [acquire, wp_bind, wake_awake]
  cases awakeAt env k lb with
  | none => rfl
  | some j =>
    simp only [wp_ite, wp_pure, wp_bind, readRate, wp_observe, awake_rate, Nat.add_assoc,
      Nat.reduceAdd]

theorem KnobAt.turned_eq {i : Nat} (h : KnobAt env lb.rate r start (i + 2)) (le : start ≤ i) :
    lb.turned env i = lb.updated (env.clock i) r := by
  rw [turned, h (i + 1) (by omega) (by omega)]

/-- The loop grants at most a second of a steady rate, if its first refill leaves no more. -/
theorem acquireLoop_capped {rate : UInt64} (nonzero : rate ≠ 0) (turns : Nat) {i : Nat}
    (le : start ≤ i) (first : KnobAt env lb.rate r start (i + 2) →
      lb.budget.toNat ≤ r.toNat ∨ 0 < accrued (env.clock i - lb.lastUpdate) r) :
    (acquireLoop want rate turns).wp env i lb fun a _ stop =>
      ∀ grant, a = .ok grant → KnobAt env lb.rate r start stop → grant.tokens ≤ r.toNat := by
  have pos : rate.toNat ≠ 0 := fun zero => nonzero (UInt64.toNat_inj.mp zero)
  have refill : KnobAt env lb.rate r start (i + 2) → (lb.turned env i).budget.toNat ≤ r.toNat := by
    intro knob
    rw [knob.turned_eq le]
    exact updated_le (first knob)
  induction turns generalizing i lb with
  | zero =>
    rw [acquireLoop, wp_bind, acquireTurn_wp, if_neg pos]
    split
    · rintro grant ⟨⟩ knob
      exact Nat.le_trans (Nat.min_le_right _ _) (refill knob)
    · rintro grant ⟨⟩
  | succ turns ih =>
    rw [acquireLoop, wp_bind, acquireTurn_wp, if_neg pos]
    split
    · rintro grant ⟨⟩ knob
      exact Nat.le_trans (Nat.min_le_right _ _) (refill knob)
    · dsimp only
      rw [wp_bind, pollSleep_wp]
      split
      · have same : ((lb.turned env i).asleep (env.clock (i + 2) + wakeUp rate)).rate = lb.rate :=
          (asleep_rate _).trans turned_rate
        have armed : KnobAt env lb.rate r start (i + 3 + 1 + 2) →
            ((lb.turned env i).asleep (env.clock (i + 2) + wakeUp rate)).budget.toNat ≤ r.toNat := by
          intro knob
          rw [asleep_budget]
          exact refill (knob.mono (Nat.le_refl _) (by omega))
        rw [← same] at armed ⊢
        refine ih (by omega) (fun knob => .inl (armed knob)) fun knob => ?_
        rw [knob.turned_eq (by omega)]
        exact updated_le (.inl (armed knob))
      · rintro grant ⟨⟩

omit [Rate R] in
theorem le_awakeAt {j : Nat} (h : awakeAt env k lb = some j) : k ≤ j := by
  unfold awakeAt at h
  split at h
  · split at h
    · cases h
      exact Nat.le_succ k
    · cases h
  · cases h
    exact Nat.le_refl k

/-- A call that is trimmed is capped. -/
theorem acquire_capped (pos : 0 < r) (trimmed : ∀ j, awakeAt env k lb = some j →
      KnobAt env lb.rate r k (j + 4) → want ≤ r.toNat ∨ lb.budget.toNat ≤ r.toNat ∨
        0 < accrued (env.clock (j + 2) - lb.lastUpdate) r) :
    (acquire want).wp env k lb fun a _ stop =>
      ∀ grant, a = .ok grant → KnobAt env lb.rate r k stop → grant.tokens ≤ r.toNat := by
  by_cases few : want ≤ r.toNat
  · refine wp_mono (acquire_le want) ?_
    rintro a lb' stop (rfl | ⟨grant, rfl, le⟩) grant' eq -
    · cases eq
    · cases eq
      exact Nat.le_trans le few
  · rw [acquire_wp]
    cases at_ : awakeAt env k lb with
    | none => rintro grant ⟨⟩
    | some j =>
      have le := le_awakeAt at_
      dsimp only
      split
      · rintro grant ⟨⟩ -
        exact Nat.zero_le _
      · split
        · next off =>
          rintro grant - knob
          rw [knob j le (Nat.lt_succ_self j)] at off
          exact absurd off (UInt64.pos_iff_ne_zero.mp pos)
        · refine acquireLoop_capped ‹_› _ (by omega) fun knob => ?_
          exact (trimmed j at_ knob).resolve_left few

/-- A call that is not trimmed is granted more than a second of the rate. -/
theorem acquire_uncapped {j : Nat} (at_ : awakeAt env k lb = some j) (pos : 0 < r)
    (knob : KnobAt env lb.rate r k (j + 4)) (many : r.toNat < want)
    (held : r.toNat < lb.budget.toNat)
    (none : accrued (env.clock (j + 2) - lb.lastUpdate) r = 0) :
    (acquire want).wp env k lb fun a _ stop =>
      ∃ grant, a = .ok grant ∧ stop = j + 4 ∧ r.toNat < grant.tokens := by
  have le := le_awakeAt at_
  have nonzero : r ≠ 0 := UInt64.pos_iff_ne_zero.mp pos
  have same : (lb.awake.turned env (j + 2)).budget = lb.budget := by
    have turned : lb.awake.turned env (j + 2) = lb.awake.updated (env.clock (j + 2)) r :=
      KnobAt.turned_eq knob (by omega)
    rw [turned, updated, awake_lastUpdate, none]
    rfl
  have grants : r.toNat < min want lb.budget.toNat := Nat.lt_min.mpr ⟨many, held⟩
  rw [acquire_wp, at_]
  dsimp only
  rw [knob j le (by omega), if_neg (by omega), if_neg nonzero]
  cases env.coop (j + 1) with
  | zero =>
    rw [acquireLoop, wp_bind, acquireTurn_wp, same, if_pos (by omega)]
    exact ⟨_, rfl, rfl, grants⟩
  | succ turns =>
    rw [acquireLoop, wp_bind, acquireTurn_wp, same, if_pos (by omega)]
    exact ⟨_, rfl, rfl, grants⟩

/-- What is known of `poll_acquire` is known of the machine's step. -/
theorem acquire_step {s : Paced (LeakyBucket R)}
    {Q : Poll IoError Nat → LeakyBucket R → Nat → Prop}
    (h : (pollAcquire want).wp env s.moment s.state Q) :
    Q ((machine env BucketCall.poll).step s (.acquire want)).1
      ((machine env BucketCall.poll).step s (.acquire want)).2.state
      ((machine env BucketCall.poll).step s (.acquire want)).2.moment := h

/-- One call is capped exactly if it is trimmed. -/
theorem capped_iff (s : Paced (LeakyBucket R)) (call : BucketCall) :
    Capped env s call ↔ Trimmed env s call := by
  cases call with
  | consume used =>
    refine iff_of_true (fun r pos knob n ok => ?_) trivial
    cases ok
    exact Nat.zero_le _
  | acquire want =>
    constructor
    · intro capped j at_ r pos knob
      by_contra failed
      simp only [not_or, Nat.not_le, Nat.not_lt, Nat.le_zero] at failed
      obtain ⟨many, held, none⟩ := failed
      have granted : (pollAcquire want).wp env s.moment s.state fun a _ stop =>
          ∃ n, a = .ok n ∧ stop = j + 4 ∧ r.toNat < n := by
        rw [pollAcquire_wp]
        refine wp_mono (acquire_uncapped at_ pos knob many held none) ?_
        rintro a lb' stop ⟨grant, rfl, rfl, more⟩
        exact ⟨_, rfl, rfl, more⟩
      obtain ⟨n, ok, stop, more⟩ := acquire_step granted
      rw [← stop] at knob
      exact Nat.not_lt.mpr (capped r pos knob n ok) more
    · intro trimmed r pos knob n ok
      have granted : (pollAcquire want).wp env s.moment s.state fun a _ stop =>
          ∀ n, a = .ok n → KnobAt env s.state.rate r s.moment stop → n ≤ r.toNat := by
        rw [pollAcquire_wp]
        refine wp_mono (acquire_capped pos fun j at_ => trimmed j at_ r pos) ?_
        rintro (_ | e | grant | m) lb' stop capped n ⟨⟩ knob
        exact capped grant rfl knob
      exact acquire_step granted n ok knob

/-! ## Every history -/

/-- **When no burst exceeds one second of the current rate.** In any history of polls and consumed
bytes, over any clock and any knob, every call that runs with the knob at one rate is granted at most
one second of it exactly if each is trimmed: a poll past its sleep wants no more than that, or finds
no more than that in the budget, or a token has accrued at that rate since the last update. -/
theorem caps_iff_trimmed (env : World) (start : Paced (LeakyBucket R)) (calls : List BucketCall) :
    (machine env BucketCall.poll).Allowed (fun _ s call => Capped env s call) start calls ↔
      (machine env BucketCall.poll).Allowed (fun _ s call => Trimmed env s call) start calls :=
  Machine.AllowedFrom.congr (P := fun _ _ => True) (fun _ _ _ _ _ => trivial)
    (fun _ s call _ => capped_iff s call) trivial

/-- A knob that is turned down from ten to one. -/
def lowered : World := { World.still with atomics := fun _ k => if k = 0 then 10 else 1 }

/-- The failing run: a bucket filled at ten bytes a second, asked for ten right after the knob went
down to one. -/
theorem lowered_rate_grants_ten :
    ¬ (machine lowered BucketCall.poll).Allowed (fun _ s call => Capped lowered s call)
        ⟨3, LeakyBucket.new lowered 0 (DynamicRate.mk 0)⟩ [.acquire 10] := by
  intro capped
  let s : Paced (LeakyBucket DynamicRate) := ⟨3, LeakyBucket.new lowered 0 (DynamicRate.mk 0)⟩
  have answer : ((machine lowered BucketCall.poll).step s (.acquire 10)).1 = .ok 10 := by decide
  have stop : ((machine lowered BucketCall.poll).step s (.acquire 10)).2.moment = 7 := by decide
  have steady : KnobAt lowered (DynamicRate.mk 0) 1 3 7 := by
    intro j ge lt
    show (if j = 0 then 10 else 1 : UInt64) = 1
    rw [if_neg (by omega)]
  rw [← stop] at steady
  exact absurd (capped.1 1 (by decide) steady 10 answer) (by decide)

end LeakyBucket

end Trixter
