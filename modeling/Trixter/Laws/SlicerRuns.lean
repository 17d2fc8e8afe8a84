import Trixter.Laws.Slicer
import Trixter.Ledger
import Trixter.Script

/-!
# Whole runs of a sliced writer

Two laws of runs. A caller that offers again what was not accepted is served exactly once, unless
the knob is turned to zero while a slice waits for its flush (`exact_iff_undiverted`). A caller that gives
up on a write and starts another is served correctly, unless the write it gave up on, or one that failed,
left a slice behind (`keepsContract_of_settled`; there it is not claimed that something goes wrong).
-/

namespace Trixter

open Trixter.Lib Polling

namespace SlicedWriter

variable {T S : Type} [Sink T] [Size S] {env : World} {k : Nat} {s : SlicedWriter T S}
  {base : List UInt8} {past : Writes}

/-! ## Offering again -/

/-- The inner writer has received what was reported accepted and what the slicer still owes, and
what it owes begins the outstanding write. -/
def Accounted (base : List UInt8) (past : Writes) (s : SlicedWriter T S) : Prop :=
  ∃ b, (s.owes = 0 ∨ outstanding past = some b) ∧ s.owes ≤ b.length ∧
    received s.inner = base ++ acceptedBytes past ++ b.take s.owes

/-- With no write outstanding, the inner writer has received what was reported accepted. -/
def Exact (base : List UInt8) (past : Writes) (s : SlicedWriter T S) : Prop :=
  outstanding past = none → received s.inner = base ++ acceptedBytes past

instance : Decidable (Exact base past s) :=
  inferInstanceAs (Decidable (_ = none → _ = _))

/-- The write finds the size knob at zero while a slice waits for its flush, and is taken by the
inner writer. -/
def Diverted (env : World) (k : Nat) (s : SlicedWriter T S) : WriteOp → Prop
  | .write c =>
    s.owes ≠ 0 ∧ Size.isZero env s.size k = true ∧
      (c.poll env (k + 1) s.inner).result.isOk = true
  | .flush => False
  | .shutdown => False

instance : (op : WriteOp) → Decidable (Diverted env k s op)
  | .write _ => inferInstanceAs (Decidable (_ ∧ _ ∧ _))
  | .flush => inferInstanceAs (Decidable False)
  | .shutdown => inferInstanceAs (Decidable False)

omit [Size S] in
theorem Accounted.exact (h : Accounted base past s) : Exact base past s := by
  obtain ⟨b, owed, -, received⟩ := h
  intro none
  obtain zero | out := owed
  · rw [received, zero, List.take_zero, List.append_nil]
  · rw [none] at out
    cases out

/-- A write with slicing on keeps the books. -/
theorem accounted_on (h : Accounted base past s) {c : WriteCall}
    (again : ∀ b ∈ outstanding past, b <+: c.content) (on : Size.isZero env s.size k = false) :
    c.poll.wp env k s fun r s' _ => Accounted base (past ++ [(.write c, r)]) s' := by
  obtain ⟨b, owed, le, moved⟩ := h
  -- what is owed begins the buffer offered now
  have begins : s.owes ≤ c.content.length ∧ b.take s.owes = c.content.take s.owes := by
    obtain zero | out := owed
    · simp only [zero, Nat.zero_le, List.take_zero, and_self]
    · obtain ⟨rest, eq⟩ := again b out
      rw [← eq, List.length_append, List.take_append_of_le_length le]
      exact ⟨Nat.le_add_right_of_le le, rfl⟩
  rw [begins.2] at moved
  refine wp_mono (poll_offered Sink.contract trivial c on begins.1 moved) ?_
  rintro r s' k' ⟨-, -, -, n, le, moved, ⟨rfl, owes⟩ | ⟨refused, owes⟩⟩
  · refine ⟨[], .inl owes, by rw [owes]; exact Nat.zero_le _, ?_⟩
    rw [moved, acceptedBytes_snoc, accepted_ok, owes, List.take_zero, List.append_nil,
      ← List.append_assoc]
    rfl
  · refine ⟨c.content, .inr ?_, by rw [owes]; exact le, ?_⟩
    · rw [outstanding_snoc, settle_of_not_ok refused]
    · rw [moved, acceptedBytes_snoc, accepted_of_not_ok refused, List.append_nil, owes]

/-- A write with slicing off keeps the books unless it is diverted, and loses count if it is. -/
theorem accounted_off (h : Accounted base past s) {c : WriteCall}
    (again : ∀ b ∈ outstanding past, b <+: c.content) (off : Size.isZero env s.size k = true) :
    c.poll.wp env k s fun r s' _ =>
      (¬Diverted env k s (.write c) → Accounted base (past ++ [(.write c, r)]) s') ∧
        (Diverted env k s (.write c) → ¬Exact base (past ++ [(.write c, r)]) s') := by
  rw [poll_off c off, wp_iff]
  have wrote : Wrote (received s.inner) c.content (c.poll env (k + 1) s.inner).result
      (received (c.poll env (k + 1) s.inner).state) := (Sink.contract.call c trivial).2
  have diverted : Diverted env k s (.write c) ↔ s.owes ≠ 0 ∧
      (c.poll env (k + 1) s.inner).result.isOk = true :=
    and_congr_right fun _ => and_iff_right off
  rw [diverted]
  generalize c.poll env (k + 1) s.inner = o at wrote ⊢
  obtain ⟨b, owed, le, moved⟩ := h
  obtain ⟨n, eq⟩ | refused := o.result.ok_or
  · rw [eq] at wrote ⊢
    obtain ⟨fits, grown⟩ := Wrote.ok_iff.mp wrote
    constructor
    · intro safe
      have zero : s.owes = 0 := by
        by_contra some
        exact safe ⟨some, rfl⟩
      refine ⟨[], .inl zero, Nat.le_of_eq zero, ?_⟩
      rw [zero, List.take_zero, List.append_nil] at moved
      simp only [grown, moved, acceptedBytes_snoc, accepted_ok, WriteOp.offer, List.take_nil,
        List.append_nil, List.append_assoc]
    · rintro ⟨some, -⟩ exact
      have same := exact (by rw [outstanding_snoc, settle_ok])
      simp only [grown, moved, acceptedBytes_snoc, accepted_ok, WriteOp.offer] at same
      have count := congrArg List.length same
      simp only [List.length_append, List.length_take] at count
      omega
  · have silent : o.result.isOk = true → False := fun ok =>
      have ⟨n, eq⟩ := Poll.isOk_iff.mp ok
      refused n eq
    refine ⟨fun _ => ?_, fun h => (silent h.2).elim⟩
    -- nothing moved, and what is owed begins the larger buffer
    refine ⟨c.content, ?_, ?_, ?_⟩
    · exact .inr (by rw [outstanding_snoc, settle_of_not_ok refused])
    · obtain zero | out := owed
      · exact Nat.le_trans (Nat.le_of_eq zero) (Nat.zero_le _)
      · exact Nat.le_trans le (again b out).length_le
    · rw [acceptedBytes_snoc, accepted_of_not_ok refused, List.append_nil, wrote.unmoved refused, moved]
      congr 1
      obtain zero | out := owed
      · show b.take s.owes = c.content.take s.owes
        simp only [zero, List.take_zero]
      · obtain ⟨rest, eq⟩ := again b out
        rw [← eq]
        exact (List.take_append_of_le_length le).symm

/-- **One poll of a caller that offers again.** The books are kept unless the poll is diverted, and
a diverted poll loses count. -/
theorem accounted_step (h : Accounted base past s) {op : WriteOp} (again : Reoffers past op) :
    op.poll.wp env k s fun r s' _ =>
      (¬Diverted env k s op → Accounted base (past ++ [(op, r)]) s') ∧
        (Diverted env k s op → ¬Exact base (past ++ [(op, r)]) s') := by
  -- a flush or a shutdown goes to the inner writer and moves nothing
  have quiet : ∀ {op : WriteOp} {call : Io T Unit}, op.offer = [] →
      (∀ out r, settle out (op, r) = out) →
      (call.wp env k s.inner fun _ t _ => received t = received s.inner) →
      (do call; return 0 : Io T Nat).wp env k s.inner fun r t _ =>
        Accounted base (past ++ [(op, r)]) { s with inner := t } := by
    intro op call offer stays same
    rw [wp_map]
    refine wp_mono same fun r t k' same => ?_
    obtain ⟨b, owed, le, moved⟩ := h
    refine ⟨b, ?_, le, ?_⟩
    · rw [outstanding_snoc, stays]
      exact owed
    · rw [acceptedBytes_snoc, offer, accepted_nil, List.append_nil]
      exact same.trans moved
  cases op with
  | write c =>
    cases off : Size.isZero env s.size k with
    | true => exact accounted_off h again off
    | false =>
      have on : ¬Diverted env k s (.write c) := fun ⟨_, zero, _⟩ => by
        rw [off] at zero
        cases zero
      exact wp_mono (accounted_on h again off) fun _ _ _ kept => ⟨fun _ => kept, fun d => (on d).elim⟩
  | flush =>
    have kept := @quiet .flush _ rfl (fun out r => by cases r <;> rfl)
      (wp_mono (Sink.contract.flush env k s.inner trivial) fun _ _ _ h => h.2.1)
    simp only [WriteOp.poll, wp_map] at kept ⊢
    exact ⟨fun _ => kept, False.elim⟩
  | shutdown =>
    have kept := @quiet .shutdown _ rfl (fun out r => by cases r <;> rfl)
      (wp_mono (Sink.contract.shutdown env k s.inner trivial) fun _ _ _ h => h.2.1)
    simp only [WriteOp.poll, wp_map] at kept ⊢
    exact ⟨fun _ => kept, False.elim⟩

/-- **Exactly once.** In a run of a caller that offers again what was not accepted, the inner writer
has received what was reported accepted whenever no write is outstanding, exactly if no write of
the run is diverted. -/
theorem exact_iff_undiverted (env : World) (k : Nat) (inner : T) (size : S) (ops : List WriteOp)
    (caller : (writes (SlicedWriter T S) env).Allowed (fun past _ op => Reoffers past op)
      ⟨k, new inner size⟩ ops) :
    (writes (SlicedWriter T S) env).Throughout
        (fun past s => Exact (received inner) past s.state) ⟨k, new inner size⟩ ops ↔
      (writes (SlicedWriter T S) env).Allowed
        (fun _ s op => ¬Diverted env s.moment s.state op) ⟨k, new inner size⟩ ops := by
  let m := writes (SlicedWriter T S) env
  let Counts : Writes → Paced (SlicedWriter T S) → WriteOp → Prop := fun past s op =>
    Exact (received inner) (past ++ [(op, (m.step s op).1)]) (m.step s op).2.state
  have step : ∀ past s op, Accounted (received inner) past s.state → Reoffers past op →
      (¬Diverted env s.moment s.state op →
        Accounted (received inner) (past ++ [(op, (m.step s op).1)]) (m.step s op).2.state) ∧
      (Diverted env s.moment s.state op → ¬Counts past s op) :=
    fun _ _ _ h again => machine_step (accounted_step h again)
  refine Machine.AllowedFrom.congr_on (P := fun past s => Accounted (received inner) past s.state)
    ?_ ?_ ?_ caller
  · intro past s op h again counts
    exact (step past s op h again).1 fun diverted => (step past s op h again).2 diverted counts
  · intro past s op h again
    refine ⟨fun counts diverted => ?_, fun safe => ?_⟩
    · exact (step past s op h again).2 diverted counts
    · exact ((step past s op h again).1 safe).exact
  · exact ⟨[], .inl rfl, Nat.zero_le _, by simp [new, acceptedBytes]⟩

/-- A knob that holds these values at the first moments, and the last of them ever after. -/
def knob (values : List UInt64) : World :=
  { World.still with atomics := fun _ k => values.getD k (values.getLastD 0) }

/-- A connection whose first flush is not ready. -/
def slow : Pipe := ⟨⟨[], []⟩, [.later]⟩

/-- The polls of a steady run. -/
def steady : List WriteOp :=
  [.write (.scalar [1, 2, 3]), .flush, .write (.vectored [[1, 2], [3, 4]]),
    .write (.scalar [3, 4])]

/-- A run in which the knob never reads zero. -/
theorem exact_steady_knob :
    (writes (SlicedWriter Pipe DynamicSize) (knob [2, 2, 3])).Throughout
      (fun past s => Exact [] past s.state) ⟨0, new slow ⟨0⟩⟩ steady :=
  (exact_iff_undiverted (knob [2, 2, 3]) 0 slow (DynamicSize.mk 0) steady (by decide)).mpr
    (by decide)

/-- The polls of the failing run: a write, its retry, and the next write. -/
def retries : List WriteOp :=
  [.write (.scalar [1, 2, 3]), .write (.scalar [1, 2, 3]), .write (.scalar [4, 5])]

/-- The failing run. A slice of two bytes waits for its flush when the knob turns to zero, and the
retry sends them again; when the knob turns back, two bytes are reported that were never written. -/
theorem exact_fails_diverted :
    let m := writes (SlicedWriter Pipe DynamicSize) (knob [2, 2, 0, 2])
    let start : Paced (SlicedWriter Pipe DynamicSize) := ⟨0, new slow ⟨0⟩⟩
    m.Allowed (fun past _ op => Reoffers past op) start retries ∧
      (m.run start retries).1.map Prod.snd = [.pending, .ok 3, .ok 2] ∧
      (m.run start retries).2.state.inner.socket.log = [1, 2, 1, 2, 3] ∧
      ¬m.Throughout (fun past s => Exact [] past s.state) start retries := by
  decide

/-! ## Giving up -/

/-- A caller that may give up: the writer, and the call that is pending with what the inner writer
had received when it started. -/
structure Session (T S : Type) where
  writer : SlicedWriter T S
  pending : Option (WriteCall × List UInt8)

/-- Start a call, giving up on the pending one, or poll the pending one again. -/
inductive Move where
  | start (call : WriteCall)
  | again
  deriving DecidableEq, Repr

/-- One poll of a call that started when the inner writer had received `base`. -/
def pollCall (call : WriteCall) (base : List UInt8) : Io (Session T S) Nat := fun env k s =>
  let o := call.poll env k s.writer
  ⟨o.result, ⟨o.state, if o.result = .pending then some (call, base) else none⟩, o.took⟩

/-- One move. With no call pending there is nothing to poll again. -/
def Move.poll : Move → Io (Session T S) Nat
  | .start call => do pollCall call (received (← Polling.get).writer.inner)
  | .again => do
    match (← Polling.get).pending with
    | none => Polling.pend
    | some (call, base) => pollCall call base

/-- A success stands for the first bytes of its own call's buffer. -/
def Serves (base : List UInt8) (call : WriteCall) (r : Poll IoError Nat)
    (after : List UInt8) : Prop :=
  ∀ n ∈ r.value?, n ≤ call.content.length ∧ after = base ++ call.content.take n

/-- What the contract says of one move: a call that is given up has moved no byte, and a call that
succeeds has moved what it reports. -/
def Honoured (s : Session T S) (r : Poll IoError Nat) (s' : Session T S) : Move → Prop
  | .start call =>
    (∀ p ∈ s.pending, received s.writer.inner = p.2) ∧
      Serves (received s.writer.inner) call r (received s'.writer.inner)
  | .again => ∀ p ∈ s.pending, Serves p.2 p.1 r (received s'.writer.inner)

/-- A call starts only when no slice is left behind. -/
def Settled (s : Session T S) : Move → Prop
  | .start _ => s.writer.owes = 0
  | .again => True

instance (s : Session T S) (r : Poll IoError Nat) (s' : Session T S) :
    (move : Move) → Decidable (Honoured s r s' move)
  | .start _ => inferInstanceAs (Decidable ((∀ _ ∈ _, _) ∧ ∀ _ ∈ _, _ ∧ _))
  | .again => inferInstanceAs (Decidable (∀ _ ∈ _, ∀ _ ∈ _, _ ∧ _))

instance (s : Session T S) : (move : Move) → Decidable (Settled s move)
  | .start _ => inferInstanceAs (Decidable (_ = 0))
  | .again => inferInstanceAs (Decidable True)

/-- What the inner writer has received of the pending call is what the slicer owes. -/
def Waiting (s : Session T S) : Prop :=
  ∀ p ∈ s.pending, s.writer.owes ≤ p.1.content.length ∧
    received s.writer.inner = p.2 ++ p.1.content.take s.writer.owes

/-- One poll of a call whose buffer begins with what the slicer owes. -/
theorem pollCall_wp {s : Session T S} {call : WriteCall}
    (on : Size.isZero env s.writer.size k = false) (le : s.writer.owes ≤ call.content.length)
    (moved : received s.writer.inner = base ++ call.content.take s.writer.owes) :
    (pollCall call base).wp env k s fun r s' _ =>
      s'.writer.size = s.writer.size ∧ Serves base call r (received s'.writer.inner) ∧
        Waiting s' := by
  have offered := poll_offered Sink.contract trivial call on le moved
  rw [wp_iff] at offered ⊢
  obtain ⟨-, size, -, n, le, moved, how⟩ := offered
  refine ⟨size, ?_, ?_⟩
  · rintro m ok
    obtain ⟨eq, -⟩ | ⟨refused, -⟩ := how
    · obtain rfl := Poll.ok.inj (eq.symm.trans (Poll.mem_value?.mp ok))
      exact ⟨le, moved⟩
    · exact absurd (Poll.mem_value?.mp ok) (refused m)
  · rintro p mem
    simp only [pollCall] at mem
    split at mem
    · next pending =>
      obtain rfl := Option.some.inj mem
      obtain ⟨eq, -⟩ | ⟨-, owes⟩ := how
      · rw [eq] at pending
        cases pending
      · rw [← owes] at le moved
        exact ⟨le, moved⟩
    · cases mem

/-- One allowed move keeps the contract, and the books of the pending call. -/
theorem honoured_step {s : Session T S} (on : ∀ k, Size.isZero env s.writer.size k = false)
    (waiting : Waiting s) (move : Move) (settled : Settled s move) :
    move.poll.wp env k s fun r s' _ =>
      s'.writer.size = s.writer.size ∧ Honoured s r s' move ∧ Waiting s' := by
  cases move with
  | start call =>
    have zero : s.writer.owes = 0 := settled
    rw [Move.poll, wp_bind, wp_get]
    refine wp_mono (pollCall_wp (on k) ?_ ?_) fun r s' k' ⟨size, serves, waits⟩ => ?_
    · rw [zero]
      exact Nat.zero_le _
    · rw [zero, List.take_zero, List.append_nil]
    · refine ⟨size, ⟨fun p mem => ?_, serves⟩, waits⟩
      rw [(waiting p mem).2, zero, List.take_zero, List.append_nil]
  | again =>
    rw [Move.poll, wp_bind, wp_get]
    cases eq : s.pending with
    | none =>
      simp only [eq]
      refine ⟨rfl, fun p mem => ?_, waiting⟩
      rw [eq] at mem
      cases mem
    | some p =>
      obtain ⟨call, base⟩ := p
      obtain ⟨le, moved⟩ := waiting _ eq
      simp only [eq]
      refine wp_mono (pollCall_wp (on k) le moved) fun r s' k' ⟨size, serves, waits⟩ => ?_
      refine ⟨size, fun p mem => ?_, waits⟩
      obtain rfl := Option.some.inj (eq.symm.trans mem)
      exact serves

/-- The moves of a session as a machine. -/
def moves (T : Type) [Sink T] (S : Type) [Size S] (env : World) :
    Machine (Paced (Session T S)) Move (Poll IoError Nat) :=
  Polling.machine env Move.poll

/-- Every move of the run keeps the contract. -/
def KeepsContract (env : World) (s : Paced (Session T S)) (run : List Move) : Prop :=
  (moves T S env).Allowed (fun _ s move =>
    Honoured s.state ((moves T S env).step s move).1 ((moves T S env).step s move).2.state move)
    s run

instance (s : Paced (Session T S)) (run : List Move) : Decidable (KeepsContract env s run) :=
  inferInstanceAs (Decidable (Machine.Allowed _ _ _ _))

/-- **Any caller.** With a constant slice size the contract is kept by every move of a run in which
no write starts while a slice is left behind. -/
theorem keepsContract_of_settled (env : World) (k : Nat) (inner : T) (size : UInt64)
    (pos : 0 < size) (run : List Move)
    (settled : (moves T UInt64 env).Allowed (fun _ s move => Settled s.state move)
      ⟨k, ⟨new inner size, none⟩⟩ run) :
    KeepsContract env ⟨k, ⟨new inner size, none⟩⟩ run := by
  have on : ∀ k, Size.isZero env size k = false := fun _ =>
    beq_eq_false_iff_ne.mpr fun zero => by rw [zero] at pos; exact absurd pos (by decide)
  let m := moves T UInt64 env
  have step : ∀ (s : Paced (Session T UInt64)) move,
      s.state.writer.size = size ∧ Waiting s.state → Settled s.state move →
      (m.step s move).2.state.writer.size = s.state.writer.size ∧
        Honoured s.state (m.step s move).1 (m.step s move).2.state move ∧
        Waiting (m.step s move).2.state := by
    intro s move ⟨same, waiting⟩ settled
    exact machine_step (honoured_step (by rw [same]; exact on) waiting move settled)
  refine Machine.AllowedFrom.imp
    (P := fun _ s => s.state.writer.size = size ∧ Waiting s.state) ?_ ?_ ?_ settled
  · intro _ s move h settled
    obtain ⟨same, -, waits⟩ := step s move h settled
    exact ⟨same.trans h.1, waits⟩
  · intro _ s move h settled
    exact (step s move h settled).2.1
  · exact ⟨rfl, fun p mem => by cases mem⟩

/-- A session over a connection whose first flush is not ready, with slices of four bytes. -/
def impatient : Paced (Session Pipe UInt64) := ⟨0, ⟨new slow 4, none⟩⟩

/-- A run in which the caller waits for its write. -/
theorem keepsContract_patient :
    KeepsContract .still impatient
      [.start (.scalar [1, 2, 3, 4, 5]), .again, .start (.vectored [[6], [7]])] :=
  keepsContract_of_settled .still 0 slow 4 (by decide) _ (by decide)

/-- The failing run. The caller gives up on a write of four bytes while their flush is not ready,
and its next write, of one byte, is answered with a count of four. -/
theorem keepsContract_fails_given_up :
    ((moves Pipe UInt64 .still).run impatient
        [.start (.scalar [1, 2, 3, 4]), .start (.scalar [9])]).1.map Prod.snd =
        [.pending, .ok 4] ∧
      ((moves Pipe UInt64 .still).run impatient
        [.start (.scalar [1, 2, 3, 4]), .start (.scalar [9])]).2.state.writer.inner.socket.log =
        [1, 2, 3, 4] ∧
      ¬KeepsContract .still impatient [.start (.scalar [1, 2, 3, 4]), .start (.scalar [9])] := by
  decide

end SlicedWriter

end Trixter
