import Trixter.Throttler
import Trixter.Lib.Fixes
import Trixter.Laws.Contract

/-!
# What one poll of a throttler does

The bucket first: one refill, one turn of the acquire loop, and the grant that comes out of it
(`pollAcquire_wp`). The write contract of `ThrottledWriter` (`contract`) needs only that a grant is never
more than was wanted.
-/

namespace Trixter

open Trixter.Lib Polling

variable {R : Type} {env : World} {k : Nat}

namespace LeakyBucket

/-- The bucket after `update_budget` with these two readings. -/
def updated (lb : LeakyBucket R) (reading : Nat) (rate : UInt64) : LeakyBucket R :=
  if 0 < accrued (reading - lb.lastUpdate) rate then
    { lb with
      lastUpdate := reading
      budget := refilled lb.budget (accrued (reading - lb.lastUpdate) rate) rate }
  else lb

/-- The bucket with its sleep armed. -/
def asleep (lb : LeakyBucket R) (deadline : Nat) : LeakyBucket R :=
  { lb with sleep := ⟨deadline⟩, sleeping := true }

/-- How long `poll_acquire` sleeps at a rate: the time of 1 KiB, within 1 to 100 ms. -/
def wakeUp (rate : UInt64) : Nat := min 100 (max (1024 * 1000 / rate.toNat) 1) * 1000000

variable {lb : LeakyBucket R}

theorem pollSleep_wp {Q : Poll IoError Unit → LeakyBucket R → Nat → Prop} :
    (pollSleep : Io (LeakyBucket R) Unit).wp env k lb Q ↔
      if env.alarm lb.sleep.deadline k then Q (.ok ()) lb (k + 1) else Q .pending lb (k + 1) := by
  simp only [pollSleep, wp_zoom, wp_bind, Sleep.poll, wp_observe, wp_ite, wp_pure, wp_pend]

theorem wake_wp {Q : Poll IoError Unit → LeakyBucket R → Nat → Prop} :
    (wake : Io (LeakyBucket R) Unit).wp env k lb Q ↔
      if lb.sleeping then
        if env.alarm lb.sleep.deadline k then Q (.ok ()) { lb with sleeping := false } (k + 1)
        else Q .pending lb (k + 1)
      else Q (.ok ()) lb k := by
  obtain ⟨rate, budget, lastUpdate, sleep, sleeping⟩ := lb
  cases sleeping <;>
    simp only [wake, wp_bind, wp_get, wp_ite, wp_pure, pollSleep_wp, wp_modify, if_true, if_false,
      Bool.false_eq_true]

variable [Rate R]

/-- The bucket after the refill of a turn that starts at moment `k`. -/
def turned (env : World) (k : Nat) (lb : LeakyBucket R) : LeakyBucket R :=
  lb.updated (env.clock k) (Rate.rate env lb.rate (k + 1))

theorem updateBudget_wp {Q : Poll IoError Nat → LeakyBucket R → Nat → Prop} :
    updateBudget.wp env k lb Q ↔ Q (.ok (env.clock k)) (lb.turned env k) (k + 2) := by
  simp only [updateBudget, now, readRate, wp_bind, wp_observe, wp_get, wp_ite, wp_modify, wp_pure,
    turned, updated]
  split <;> rfl

/-- **One turn of the loop**: refill, then either tokens or an armed sleep. -/
theorem acquireTurn_wp {want : Nat} {rate : UInt64}
    {Q : Poll IoError (Option Grant) → LeakyBucket R → Nat → Prop} :
    (acquireTurn want rate).wp env k lb Q ↔
      if 0 < min want (lb.turned env k).budget.toNat then
        Q (.ok (some ⟨min want (lb.turned env k).budget.toNat, some (env.clock k)⟩))
          (lb.turned env k) (k + 2)
      else if rate.toNat = 0 then
        Q (.panicked "attempt to divide by zero") (lb.turned env k) (k + 2)
      else
        Q (.ok none) ((lb.turned env k).asleep (env.clock (k + 2) + wakeUp rate)) (k + 3) := by
  simp only [acquireTurn, wp_bind, updateBudget_wp, wp_get, wp_ite, wp_pure, checkedDiv, wp_panic,
    now, wp_observe, wp_modify, asleep, wakeUp, Sleep.reset]

/-- What a poll of the bucket has to keep, move by move, for `I` to hold of the bucket throughout
and for `Q` to hold of what comes out. -/
structure Keeps (env : World) (want : Nat) (I : LeakyBucket R → Nat → Prop)
    (Q : Poll IoError Grant → LeakyBucket R → Nat → Prop) : Prop where
  later : ∀ k lb, I lb k → I lb (k + 1)
  wakes : ∀ k lb, I lb k → I { lb with sleeping := false } k
  starves : ∀ k lb rate, I lb k → rate ≠ 0 → min want (lb.turned env k).budget.toNat = 0 →
    I ((lb.turned env k).asleep (env.clock (k + 2) + wakeUp rate)) (k + 3)
  grants : ∀ k lb, I lb k → 0 < min want (lb.turned env k).budget.toNat →
    Q (.ok ⟨min want (lb.turned env k).budget.toNat, some (env.clock k)⟩) (lb.turned env k) (k + 2)
  pends : ∀ k lb, I lb k → Q .pending lb k
  unwanted : ∀ k lb, I lb k → want = 0 → Q (.ok ⟨0, none⟩) lb k
  unlimited : ∀ k lb, I lb k → Rate.rate env lb.rate k = 0 → Q (.ok ⟨want, none⟩) lb (k + 1)

variable {want : Nat} {I : LeakyBucket R → Nat → Prop}
  {Q : Poll IoError Grant → LeakyBucket R → Nat → Prop}

/-- The loop rule. The rate was read nonzero before the loop, so its division is safe. -/
theorem acquireLoop_of (h : Keeps env want I Q) {rate : UInt64} (nonzero : rate ≠ 0) :
    ∀ turns k lb, I lb k → (acquireLoop want rate turns).wp env k lb Q := by
  have pos : rate.toNat ≠ 0 := fun h0 => nonzero (UInt64.toNat_inj.mp h0)
  intro turns
  induction turns with
  | zero =>
    intro k lb hI
    rw [acquireLoop, wp_bind, acquireTurn_wp, if_neg pos]
    split
    · exact h.grants k lb hI ‹_›
    · exact h.pends _ _ (h.starves k lb rate hI nonzero (by omega))
  | succ turns ih =>
    intro k lb hI
    rw [acquireLoop, wp_bind, acquireTurn_wp, if_neg pos]
    split
    · exact h.grants k lb hI ‹_›
    · have armed := h.later _ _ (h.starves k lb rate hI nonzero (by omega))
      dsimp only
      rw [wp_bind, pollSleep_wp]
      split
      · exact ih _ _ armed
      · exact h.pends _ _ armed

/-- **The rule of `poll_acquire`.** -/
theorem acquire_of (h : Keeps env want I Q) (hI : I lb k) : (acquire want).wp env k lb Q := by
  have awake : ∀ k lb, I lb k →
      (if want = 0 then pure ⟨0, none⟩ else do
        let rate ← readRate
        if rate = 0 then pure ⟨want, none⟩ else do
          let turns ← Polling.observe fun env k _ => env.coop k
          acquireLoop want rate turns : Io (LeakyBucket R) Grant).wp env k lb Q := by
    intro k lb hI
    rw [wp_ite]
    split
    · exact h.unwanted k lb hI ‹_›
    · rw [wp_bind, readRate, wp_observe]
      dsimp only
      rw [wp_ite]
      split
      · exact h.unlimited k lb hI ‹_›
      · rw [wp_bind, wp_observe]
        exact acquireLoop_of h ‹_› _ _ _ (h.later _ _ (h.later _ _ hI))
  rw [acquire, wp_bind, wake_wp]
  split
  · split
    · exact awake _ _ (h.wakes _ _ (h.later _ _ hI))
    · exact h.pends _ _ (h.later _ _ hI)
  · exact awake _ _ hI

/-- A grant is never more than was wanted, and the bucket never panics. -/
theorem acquire_le (want : Nat) : (acquire want).wp env k lb fun r _ _ =>
    r = .pending ∨ ∃ grant, r = .ok grant ∧ grant.tokens ≤ want :=
  acquire_of (I := fun _ _ => True)
    { later := fun _ _ _ => trivial
      wakes := fun _ _ _ => trivial
      starves := fun _ _ _ _ _ _ => trivial
      grants := fun _ _ _ _ => .inr ⟨_, rfl, Nat.min_le_left _ _⟩
      pends := fun _ _ _ => .inl rfl
      unwanted := fun _ _ _ _ => .inr ⟨_, rfl, Nat.zero_le _⟩
      unlimited := fun _ _ _ _ => .inr ⟨_, rfl, Nat.le_refl _⟩ } trivial

/-- `poll_acquire` is `acquire` without the reading. -/
theorem pollAcquire_wp {Q : Poll IoError Nat → LeakyBucket R → Nat → Prop} :
    (pollAcquire want).wp env k lb Q ↔
      (acquire want).wp env k lb fun r lb' k' =>
        match r with
        | .ok grant => Q (.ok grant.tokens) lb' k'
        | .pending => Q .pending lb' k'
        | .err e => Q (.err e) lb' k'
        | .panicked m => Q (.panicked m) lb' k' := by
  rw [pollAcquire, wp_bind]
  unfold wp
  cases (acquire want env k lb).result <;> rfl

end LeakyBucket

namespace ThrottledWriter

variable {T : Type} [Rate R]

/-- The trimmed buffers hold the first bytes of the caller's buffers, up to the grant. -/
theorem limitSlices_flatten (bufs : List (List UInt8)) :
    ∀ remaining, (limitSlices remaining bufs).flatten = bufs.flatten.take remaining := by
  induction bufs with
  | nil => intro remaining; simp [limitSlices]
  | cons s bufs ih =>
    intro remaining
    unfold limitSlices
    split
    · next h => subst h; simp
    · rw [List.flatten_cons, List.flatten_cons, ih, List.take_append]
      congr 1
      · rw [List.take_eq_take_iff]; omega
      · congr 1; omega

variable {inv : T → Prop} {received : T → List UInt8}

/-- A call on a granted prefix, and its bytes off the budget: the claim is a claim on the whole. -/
theorem forward_wrote {call : Io T Nat} {s : ThrottledWriter T R} {chunk buf : List UInt8}
    (sub : chunk <+: buf)
    (h : call.wp env k s.inner fun r t _ => inv t ∧ Wrote (received s.inner) chunk r (received t)) :
    (forward call).wp env k s fun r s' _ =>
      inv s'.inner ∧ Wrote (received s.inner) buf r (received s'.inner) := by
  unfold forward
  rw [wp_bind, onInner, wp_zoom]
  refine wp_mono h fun r t k' ⟨hinv, wrote⟩ => ?_
  have wrote := wrote.of_prefix sub
  cases r with
  | ok n =>
    simp only [wp_bind, onLb, wp_zoom, wp_modify, wp_pure]
    exact ⟨hinv, wrote⟩
  | pending => exact ⟨hinv, wrote⟩
  | err e => exact ⟨hinv, wrote⟩
  | panicked m => exact ⟨hinv, wrote⟩

variable [AsyncWrite T]

/-- **A throttled writer keeps the write contract** of the writer it limits. -/
theorem contract (h : Contract T inv received) :
    Contract (ThrottledWriter T R) (fun s => inv s.inner) (fun s => received s.inner) where
  write env k s buf hs := by
    simp only [AsyncWrite.pollWrite, wp_bind, isUnlimited, wp_observe, wp_ite]
    split
    · exact h.write env _ s.inner buf hs
    · rw [onLb, wp_zoom, LeakyBucket.pollAcquire_wp]
      refine wp_mono (LeakyBucket.acquire_le buf.length) fun r lb k' hr => ?_
      obtain rfl | ⟨grant, rfl, le⟩ := hr
      · exact ⟨hs, .pending⟩
      · dsimp only
        split
        · exact ⟨hs, .zero⟩
        · exact forward_wrote (List.take_prefix _ _) (h.write env _ s.inner _ hs)
  vectored env k s bufs hs := by
    simp only [AsyncWrite.pollWriteVectored, wp_bind, isUnlimited, wp_observe, wp_ite]
    split
    · exact h.vectored env _ s.inner bufs hs
    · rw [onLb, wp_zoom, LeakyBucket.pollAcquire_wp]
      refine wp_mono (LeakyBucket.acquire_le _) fun r lb k' hr => ?_
      obtain rfl | ⟨grant, rfl, le⟩ := hr
      · exact ⟨hs, .pending⟩
      · dsimp only
        split
        · exact ⟨hs, .zero⟩
        · refine forward_wrote ?_ (h.vectored env _ s.inner _ hs)
          rw [limitSlices_flatten]
          exact List.take_prefix _ _
  flush env k s hs := h.flush env k s.inner hs
  shutdown env k s hs := h.shutdown env k s.inner hs

/-- A flush passes through. -/
theorem flushReady (h : FlushReady T inv) :
    FlushReady (ThrottledWriter T R) (fun s => inv s.inner) :=
  fun env k s hs => h env k s.inner hs

end ThrottledWriter

/-! ## No poll of the bucket changes its knob -/

namespace LeakyBucket

variable [Rate R]

omit [Rate R] in
theorem wake_fixes : Fixes rate (wake : Io (LeakyBucket R) Unit) := by
  refine fixes_bind fixes_get fun lb => fixes_ite ?_ (fixes_pure _)
  exact fixes_bind (fixes_zoom_away fun _ _ => rfl) fun _ => fixes_modify fun _ => rfl

theorem updateBudget_fixes : Fixes rate (updateBudget : Io (LeakyBucket R) Nat) := by
  refine fixes_bind (fixes_observe _) fun reading => fixes_bind (fixes_observe _) fun rate => ?_
  refine fixes_bind fixes_get fun lb => fixes_ite ?_ (fixes_pure _)
  exact fixes_bind (fixes_modify fun _ => rfl) fun _ => fixes_pure _

theorem acquireTurn_fixes (want : Nat) (limit : UInt64) :
    Fixes rate (acquireTurn want limit : Io (LeakyBucket R) (Option Grant)) := by
  refine fixes_bind updateBudget_fixes fun reading => fixes_bind fixes_get fun lb => ?_
  refine fixes_ite (fixes_pure _) ?_
  refine fixes_bind (fixes_ite (fixes_panic _) (fixes_pure _)) fun ms => ?_
  refine fixes_bind (fixes_observe _) fun start => ?_
  exact fixes_bind (fixes_modify fun _ => rfl) fun _ => fixes_pure _

theorem acquireLoop_fixes (want : Nat) (limit : UInt64) (turns : Nat) :
    Fixes rate (acquireLoop want limit turns : Io (LeakyBucket R) Grant) := by
  induction turns with
  | zero =>
    refine fixes_bind (acquireTurn_fixes want limit) fun grant => ?_
    cases grant with
    | none => exact fixes_pend
    | some grant => exact fixes_pure _
  | succ turns ih =>
    refine fixes_bind (acquireTurn_fixes want limit) fun grant => ?_
    cases grant with
    | none => exact fixes_bind (fixes_zoom_away fun _ _ => rfl) fun _ => ih
    | some grant => exact fixes_pure _

theorem pollAcquire_fixes (want : Nat) : Fixes rate (pollAcquire want : Io (LeakyBucket R) Nat) := by
  have acquires : Fixes rate (acquire want : Io (LeakyBucket R) Grant) := by
    refine fixes_bind wake_fixes fun _ => fixes_ite (fixes_pure _) ?_
    refine fixes_bind (fixes_observe _) fun limit => fixes_ite (fixes_pure _) ?_
    exact fixes_bind (fixes_observe _) fun turns => acquireLoop_fixes want limit turns
  exact fixes_bind acquires fun _ => fixes_pure _

end LeakyBucket

end Trixter
