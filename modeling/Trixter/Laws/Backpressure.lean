import Trixter.Laws.DelayedWrites

/-!
# Back-pressure and the delay of one operation

A caller polls one operation until it completes. The timer goes idle when it fires, before the inner
writer has answered, so it does not remember whether the operation went through: if the inner writer
answers `Pending`, the next poll of the same operation arms it again.

`oneDelay_iff` says that this is the only way an operation is delayed twice. A delay that cannot be added
to the clock is no exception: a poll that panics for it ends the operation.
-/

namespace Trixter

open Trixter.Lib Polling

namespace DelayedWriter

/-- The timers armed since the operation was first polled, and whether the inner writer was offered
it. -/
structure Operation where
  arms : Nat
  offered : Bool
  deriving DecidableEq, Repr

section Watch

variable {T : Type} [AsyncWrite T]

/-- The operation after one more poll. -/
def progress (env : World) (w : Operation) (s : Paced (Recorded T)) (op : WriteOp) : Operation :=
  let o := (writes (Recorded T) env).step s op
  { arms := w.arms + s.state.delay.armings o.2.state.delay
    offered := w.offered || !(s.state.inner.since o.2.state.inner).isEmpty }

/-- A caller's polls of one operation. -/
abbrev operation (T : Type) [AsyncWrite T] (env : World) :
    Machine (Paced (Recorded T) × Operation) WriteOp (Poll IoError Nat) :=
  (writes (Recorded T) env).watched (progress env)

/-- The delay of the operation is over: it was offered already, or its timer has elapsed. -/
def Over (env : World) (w : Operation) (s : Paced (Recorded T)) : Prop :=
  w.offered = true ∨
    s.state.delay.state = .delayed ∧ env.alarm s.state.delay.sleep.deadline s.moment = true

/-- With this poll the timer has been armed once at most, and if the delay is over the operation is
offered to the inner writer at once. -/
def OneDelay (env : World) (w : Operation) (s : Paced (Recorded T)) (op : WriteOp) : Prop :=
  let o := (writes (Recorded T) env).step s op
  (progress env w s op).arms ≤ 1 ∧
    (Over env w s →
      s.state.delay.armings o.2.state.delay = 0 ∧ s.state.inner.since o.2.state.inner ≠ [])

instance (env : World) (w : Operation) (s : Paced (Recorded T)) : Decidable (Over env w s) :=
  inferInstanceAs (Decidable (_ ∨ _))

instance (env : World) (w : Operation) (s : Paced (Recorded T)) (op : WriteOp) :
    Decidable (OneDelay env w s op) :=
  inferInstanceAs (Decidable (_ ∧ (_ → _ ∧ _)))

/-- The inner writer has not answered `Pending` since. -/
def Unrefused (since : Recorded T) (s : Recorded T) : Prop :=
  ∀ e ∈ since.inner.since s.inner, e.answer ≠ .pending

instance (since s : Recorded T) : Decidable (Unrefused since s) :=
  inferInstanceAs (Decidable (∀ _ ∈ _, _))

end Watch

variable {T : Type} {env : World} {d k k' : Nat} {s s' : Recorded T} {op : WriteOp}
  {r : Poll IoError Nat}

/-- An idle timer's deadline has passed. -/
structure Settled (env : World) (d k : Nat) (s : Recorded T) : Prop where
  delay : s.delay.delayDuration = d
  past : s.delay.state = .idle → s.delay.sleep.deadline ≤ env.clock k

/-- A delayed poll settles the timer. -/
theorem Polled.settled (clockwork : Clockwork env) (poll : Polled env k s op r s' k')
    (delay : s.delay.delayDuration = d) : Settled env d k' s' := by
  cases poll with
  | waits => exact ⟨delay, fun idle => by cases idle⟩
  | calls _ value j _ passed after until_ =>
    exact ⟨delay, fun _ => Nat.le_trans passed (clockwork.mono until_)⟩
  | overflows => exact ⟨delay, fun idle => by cases idle⟩

/-- An idle timer is armed by the next delayed poll, if that makes a call. -/
theorem Polled.arms (clockwork : Clockwork env) (poll : Polled env k s op r s' k') (pos : 0 < d)
    (h : Settled env d k s) (idle : s.delay.state = .idle) : s.delay.armings s'.delay ≤ 1 ∧
      (s.inner.since s'.inner ≠ [] → s.delay.armings s'.delay = 1) := by
  have once : s.delay.armings s'.delay ≤ 1 := by
    unfold Delay.armings
    split <;> decide
  refine ⟨once, fun called => ?_⟩
  have later : s.delay.sleep.deadline < due env k s := by
    have past := h.past idle
    have soon : env.clock k ≤ env.clock (k + 1) := clockwork.mono (Nat.le_succ k)
    have delay := h.delay
    unfold due
    rw [idle]
    dsimp only
    omega
  cases poll with
  | calls =>
    unfold Delay.armings
    refine if_neg fun same => ?_
    have same : due env k s = s.delay.sleep.deadline := congrArg Sleep.deadline same
    rw [same] at later
    exact Nat.lt_irrefl _ later
  | waits => exact absurd (Trail.since_append (List.append_nil _).symm) called
  | overflows => exact absurd (Trail.since_append (List.append_nil _).symm) called

/-- A running timer is not armed again. -/
theorem Polled.keeps (poll : Polled env k s op r s' k') (delayed : s.delay.state = .delayed) :
    s.delay.armings s'.delay = 0 := by
  have due_eq : due env k s = s.delay.sleep.deadline := by
    unfold due
    rw [delayed]
  cases poll with
  | waits => exact if_pos (congrArg Sleep.mk due_eq)
  | calls => exact if_pos (congrArg Sleep.mk due_eq)
  | overflows _ idle => exact if_pos rfl

/-- **The timer is settled at every moment.** -/
theorem settled_step [AsyncWrite T] (clockwork : Clockwork env) (pos : 0 < d) {s : Paced (Recorded T)}
    (h : Settled env d s.moment s.state) (op : WriteOp) :
    Settled env d ((writes (Recorded T) env).step s op).2.moment
      ((writes (Recorded T) env).step s op).2.state := by
  by_cases flush : op = .flush
  · refine writes_step env s op (Q := fun _ s' k' => Settled env d k' s') ?_
    rw [flush, flush_wp]
    refine wp_mono (wp_later _) fun _ _ k' later => ⟨h.delay, fun idle => ?_⟩
    exact Nat.le_trans (h.past idle) (clockwork.mono later)
  · have some : s.state.delay.delayDuration ≠ 0 := by
      rw [h.delay]
      omega
    exact (writes_step env s op (poll_polled clockwork some flush)).settled clockwork h.delay

/-- Where a caller is with its operation: `s₀` is the writer before the first poll of it. -/
structure InOperation (env : World) (d : Nat) (s₀ : Recorded T) (past : Writes)
    (s : Paced (Recorded T)) (w : Operation) : Prop where
  settled : Settled env d s.moment s.state
  calls : ∃ calls, s.state.inner.entries = s₀.inner.entries ++ calls ∧
    (w.offered = false ↔ calls = []) ∧
    ((∀ e ∈ past, e.2 = .pending) → ∀ e ∈ calls, e.answer = .pending)
  idle : w.offered = true → s.state.delay.state = .idle
  waits : w.offered = false → w.arms ≤ 1 ∧ (s.state.delay.state = .idle → w.arms = 0)

/-- With every answer so far pending, the operation was not refused exactly if it was not offered. -/
theorem InOperation.unrefused_iff {s₀ : Recorded T} {past : Writes} {s : Paced (Recorded T)}
    {w : Operation} (h : InOperation env d s₀ past s w) (pends : ∀ e ∈ past, e.2 = .pending) :
    Unrefused s₀ s.state ↔ w.offered = false := by
  obtain ⟨calls, entries, offered, refused⟩ := h.calls
  rw [Unrefused, Trail.since_append entries, offered]
  constructor
  · intro unrefused
    cases calls with
    | nil => rfl
    | cons e calls =>
      exact absurd (refused pends e List.mem_cons_self) (unrefused e List.mem_cons_self)
  · rintro rfl e mem
    cases mem

/-- A poll that finds its timer elapsed makes its call. -/
theorem Polled.forwards (poll : Polled env k s op r s' k') (delayed : s.delay.state = .delayed)
    (elapsed : env.alarm s.delay.sleep.deadline k = true) : s.inner.since s'.inner ≠ [] := by
  cases poll with
  | waits _ runs =>
    rw [runs delayed] at elapsed
    cases elapsed
  | calls =>
    rw [Trail.since_append rfl]
    exact List.cons_ne_nil _ _
  | overflows _ idle =>
    rw [delayed] at idle
    cases idle

/-- The timers armed for an operation that was not offered yet, this poll included. -/
theorem InOperation.arms_le {s₀ : Recorded T} {past : Writes} {w : Operation}
    (clockwork : Clockwork env) (pos : 0 < d) (h : InOperation env d s₀ past ⟨k, s⟩ w)
    (fresh : w.offered = false) (poll : Polled env k s op r s' k') :
    w.arms + s.delay.armings s'.delay ≤ 1 := by
  obtain ⟨few, none⟩ := h.waits fresh
  cases state : s.delay.state with
  | idle =>
    rw [none state, Nat.zero_add]
    exact (poll.arms clockwork pos h.settled state).1
  | delayed => rwa [poll.keeps state]

/-- **One poll** of an operation that was not offered yet. -/
theorem InOperation.polled {s₀ : Recorded T} {past : Writes} {w : Operation}
    (clockwork : Clockwork env) (pos : 0 < d) (h : InOperation env d s₀ past ⟨k, s⟩ w)
    (fresh : w.offered = false) (poll : Polled env k s op r s' k') :
    InOperation env d s₀ (past ++ [(op, r)]) ⟨k', s'⟩
      ⟨w.arms + s.delay.armings s'.delay, w.offered || !(s.inner.since s'.inner).isEmpty⟩ := by
  have settled := poll.settled clockwork h.settled.delay
  have few := h.arms_le clockwork pos fresh poll
  obtain ⟨calls, entries, offered, -⟩ := h.calls
  obtain rfl := offered.mp fresh
  rw [List.append_nil] at entries
  rw [fresh, Bool.false_or]
  -- a poll that makes no call leaves the timer running
  have quiet (inner : s'.inner = s.inner) (running : s'.delay.state = .delayed) :
      InOperation env d s₀ (past ++ [(op, r)]) ⟨k', s'⟩
        ⟨w.arms + s.delay.armings s'.delay, !(s.inner.since s'.inner).isEmpty⟩ := by
    rw [inner, Trail.since_append (List.append_nil _).symm]
    refine ⟨settled, ⟨[], ?_, iff_of_true rfl rfl, fun _ e mem => (by cases mem)⟩, fun on => ?_,
      fun _ => ⟨few, fun idle => ?_⟩⟩
    · rw [List.append_nil, inner]
      exact entries
    · cases on
    · rw [running] at idle
      cases idle
  cases poll with
  | waits => exact quiet rfl rfl
  | overflows => exact quiet rfl rfl
  | calls _ value j =>
    rw [Trail.since_append rfl]
    refine ⟨settled, ⟨[⟨op, j, r⟩], ?_, iff_of_false (fun off => ?_) (List.cons_ne_nil _ _), ?_⟩,
      fun _ => rfl, fun off => ?_⟩
    · exact congrArg (· ++ [_]) entries
    · cases off
    · intro pends e mem
      rw [List.mem_singleton.mp mem]
      exact pends (op, r) (List.mem_append_right _ (List.mem_singleton_self _))
    · cases off

variable [AsyncWrite T] {s₀ : Recorded T} {past : Writes} {w : Operation}

/-- **An operation that was not offered yet has one delay**, and one that was gets another. -/
theorem InOperation.once_iff {s : Paced (Recorded T)} (clockwork : Clockwork env) (pos : 0 < d)
    (delayed : op ≠ .flush) (h : InOperation env d s₀ past s w) :
    OneDelay env w s op ↔ w.offered = false := by
  have some : s.state.delay.delayDuration ≠ 0 := by
    rw [h.settled.delay]
    omega
  have poll := writes_step env s op (poll_polled clockwork some delayed)
  cases offered : w.offered with
  | false =>
    refine iff_of_true ⟨h.arms_le clockwork pos offered poll, ?_⟩ rfl
    rintro (on | ⟨running, elapsed⟩)
    · rw [offered] at on
      cases on
    · exact ⟨poll.keeps running, poll.forwards running elapsed⟩
  | true =>
    refine iff_of_false (fun one => ?_) Bool.true_eq_false.mp
    obtain ⟨none, called⟩ := one.2 (.inl offered)
    have again := (poll.arms clockwork pos h.settled (h.idle offered)).2 called
    rw [none] at again
    cases again

/-- A poll of an operation that was not offered yet leaves the caller in it. -/
theorem InOperation.step {s : Paced (Recorded T)} (clockwork : Clockwork env) (pos : 0 < d)
    (delayed : op ≠ .flush) (h : InOperation env d s₀ past s w) (fresh : w.offered = false) :
    InOperation env d s₀ (past ++ [(op, ((writes (Recorded T) env).step s op).1)])
      ((writes (Recorded T) env).step s op).2 (progress env w s op) := by
  have some : s.state.delay.delayDuration ≠ 0 := by
    rw [h.settled.delay]
    omega
  exact h.polled clockwork pos fresh
    (writes_step env s op (poll_polled clockwork some delayed))

/-- **One delay for an operation, if it is not refused.** With a constant delay and from every state a
delayed writer can be in, polls of one write, vectored write or shutdown until it completes arm the timer
once at most, and offer the operation to the inner writer once its delay is over, exactly if none of
them follows a `Pending` of the inner writer. -/
theorem oneDelay_iff {T : Type} [AsyncWrite T] {env : World} {d : Nat} (clockwork : Clockwork env)
    (pos : 0 < d) (born start : Nat) (late : born ≤ start) (inner : T) (before : List WriteOp)
    (op : WriteOp) (delayed : op ≠ .flush) (polls : Nat) :
    let s := ((writes (Recorded T) env).run ⟨start, new (env.clock born) (.start inner) d⟩ before).2
    (operation T env).Allowed (fun past _ _ => ∀ e ∈ past, e.2 = .pending) (s, ⟨0, false⟩)
        (List.replicate polls op) →
      ((operation T env).Allowed (fun _ s op => OneDelay env s.2 s.1 op) (s, ⟨0, false⟩)
          (List.replicate polls op) ↔
        (operation T env).Allowed (fun _ t _ => Unrefused s.state t.1.state) (s, ⟨0, false⟩)
          (List.replicate polls op)) := by
  intro s pends
  have settled : Settled env d s.moment s.state := by
    refine Machine.run_invariant
      (P := fun _ (s : Paced (Recorded T)) => Settled env d s.moment s.state) ?_ ?_ before
    · exact ⟨rfl, fun _ => clockwork.mono late⟩
    · exact fun _ s op h => settled_step clockwork pos h op
  have start : InOperation env d s.state [] s ⟨0, false⟩ :=
    ⟨settled, ⟨[], (List.append_nil _).symm, iff_of_true rfl rfl, fun _ e mem => (by cases mem)⟩,
      fun on => (by cases on), fun _ => ⟨Nat.zero_le 1, fun _ => rfl⟩⟩
  have only : (operation T env).Allowed (fun _ _ i => i = op) (s, ⟨0, false⟩)
      (List.replicate polls op) :=
    Machine.allowedFrom_of_mem fun i mem => List.eq_of_mem_replicate mem
  refine Machine.AllowedFrom.congr_on (P := fun past (t : Paced (Recorded T) × Operation) =>
    InOperation env d s.state past t.1 t.2) ?_ ?_ start (Machine.allowedFrom_and.mpr ⟨only, pends⟩)
  · rintro past t _ h ⟨rfl, -⟩ one
    exact h.step clockwork pos delayed ((h.once_iff clockwork pos delayed).mp one)
  · rintro past t _ h ⟨rfl, pending⟩
    exact (h.once_iff clockwork pos delayed).trans (h.unrefused_iff pending).symm

/-- Five nanoseconds before each write to a socket. -/
def slow (writes : List Turn) : Recorded Socket := new 0 (.start ⟨[], writes⟩) 5

/-- A write that the socket takes at once, after one that was abandoned. -/
theorem oneDelay_taken :
    let s := ((writes (Recorded Socket) metronome).run ⟨0, slow []⟩ [.write (.scalar [1])]).2
    (operation Socket metronome).Allowed (fun _ s op => OneDelay metronome s.2 s.1 op)
      (s, ⟨0, false⟩) (List.replicate 4 (.write (.scalar [2]))) :=
  (oneDelay_iff metronome_clockwork (by decide) 0 0 (Nat.le_refl 0) _ _ _ (by decide) 4
    (by decide)).mpr (by decide)

/-- The failing run. A write meets a socket that is full for one poll: the timer is armed again for it,
and it waits a second time although the socket would take it. -/
theorem armed_twice :
    let polls := List.replicate 10 (WriteOp.write (.scalar [7]))
    let o := (operation Socket metronome).run (⟨0, slow [.later]⟩, ⟨0, false⟩) polls
    o.1.map Prod.snd = List.replicate 9 .pending ++ [.ok 1] ∧ o.2.2.arms = 2 ∧
      ¬(operation Socket metronome).Allowed (fun _ s op => OneDelay metronome s.2 s.1 op)
        (⟨0, slow [.later]⟩, ⟨0, false⟩) polls := by
  decide

end DelayedWriter

end Trixter
