import Trixter.Laws.Synthetic

/-!
# Runs of a write injector

A write injector directly over a writer that keeps the write contract. As long as nobody writes
vectored, the inner writer receives a weave: each message in one piece, in the order of arrival, and
between them the bytes that the caller was told were accepted (`splices_scalar`). A message that nobody
polls for stays in the channel.
-/

namespace Trixter

open Trixter.Lib Polling

/-- The block bytes that an operation writes are the next ones, and come before the caller's. -/
def Ordered {T : Type} [Sink T] (before after : Backlog T) (drawn : List (List UInt8))
    (mine : List UInt8) : Prop :=
  ∃ synthetic, received after.inner = received before.inner ++ synthetic ++ mine ∧
    synthetic ++ after.stored = before.stored ++ drawn.flatten

namespace WriteInjector

/-- Anything but a vectored write. -/
def Scalar : InjectMove WriteOp → Prop
  | .caller op => op.Scalar
  | _ => True

instance : (move : InjectMove WriteOp) → Decidable (Scalar move)
  | .caller op => inferInstanceAs (Decidable op.Scalar)
  | .arrive _ => inferInstanceAs (Decidable True)
  | .close => inferInstanceAs (Decidable True)

variable {T : Type} [Sink T] {env : World} {base : List UInt8} {rx : InjectRx}
  {past : History (InjectMove WriteOp) (Poll IoError Nat)}

/-- The inner writer has received a weave of the messages received with the bytes reported accepted.
What is missing of the last message is stored, and what has arrived and is not received is queued. -/
def Splices (base : List UInt8) (rx : InjectRx) (past : History (InjectMove WriteOp) (Poll IoError Nat))
    (s : Paced (WriteInjector T) × List (List UInt8)) : Prop :=
  ∃ w : Weave UInt8, received s.1.state.inner = base ++ w.bytes ∧
    w.callers = acceptedBytes (writesOf past) ∧ w.blocks = s.2 ∧ w.rest = s.1.state.buffer ∧
    s.2 ++ s.1.state.injectRx.queue = rx.queue ++ InjectMove.arrived past

/-- A poll comes back; it writes the next bytes of the messages, and after them the caller's bytes
that it reports, of which there are none while a message is incomplete. -/
def InTurn (env : World) (s : Paced (WriteInjector T) × List (List UInt8)) : InjectMove WriteOp → Prop
  | .caller op =>
    let d := (splicing T env).step s (.caller op)
    Calm d.1 ∧
      Ordered s.1.state.backlog d.2.1.state.backlog (received? env s.1 (.caller op))
        (accepted d.1 op.offer) ∧
      (accepted d.1 op.offer ≠ [] → d.2.1.state.buffer = none)
  | _ => True

/-- A writer that keeps the contract may be offered anything at any time. -/
def Offered (log _buf : List UInt8) (w : T) : Prop := True ∧ received w = log

theorem retried_offered : Retried T Offered := Sink.contract.retried

/-- After a write poll that reaches the caller's buffer nothing is stored. -/
theorem pollWrite_idle {k : Nat} {s : WriteInjector T} {buf : List UInt8} {w : Weave UInt8}
    (rest : w.rest = s.buffer) (holds : received s.inner = base ++ w.bytes) :
    (pollWrite buf).wp env k s fun r s' _ => (∃ n, r = .ok n) → s'.buffer = none := by
  have woven : Backlog.Woven Offered base w buf s.backlog := ⟨rest, trivial, holds⟩
  have clear : Clear Offered (base ++ w.bytes) s := fun _ _ _ => ⟨trivial, holds⟩
  simp only [AsyncWrite.pollWrite]
  rw [wp_bind, wp_get]
  dsimp only
  rw [wp_bind]
  refine wp_mono (injectLoop_woven retried_offered _ k s w (Nat.lt_succ_self _) woven clear) ?_
  rintro r s' k' ⟨calm, w', messages, split, grew, woven', idle⟩
  cases r with
  | ok u => exact fun _ => idle rfl
  | pending =>
    rintro ⟨n, eq⟩
    cases eq
  | err e =>
    rintro ⟨n, eq⟩
    cases eq
  | panicked m => exact absurd rfl (calm m)

/-- **One scalar operation**, from any weave. -/
theorem op_spliced {k : Nat} {s : WriteInjector T} {w : Weave UInt8} {op : WriteOp}
    (scalar : op.Scalar) (rest : w.rest = s.buffer) (holds : received s.inner = base ++ w.bytes) :
    op.poll.wp env k s fun r s' _ =>
      Calm r ∧ ∃ messages w', s.injectRx.queue = messages ++ s'.injectRx.queue ∧
        Weave.Grew w messages (accepted r op.offer) w' ∧ w'.rest = s'.buffer ∧
        received s'.inner = base ++ w'.bytes ∧
        (accepted r op.offer ≠ [] → s'.buffer = none) := by
  have woven : ∀ buf, True → Backlog.Woven Offered base w buf s.backlog :=
    fun _ _ => ⟨rest, trivial, holds⟩
  have operated := op_woven env k (fun _ => True) retried_offered scalar ⟨[], trivial⟩
    (fun _ _ => trivial) woven (fun _ _ _ _ _ => ⟨trivial, holds⟩)
  have idle : op.poll.wp env k s fun r s' _ => accepted r op.offer ≠ [] → s'.buffer = none := by
    cases op with
    | write c =>
      cases c with
      | scalar buf =>
        refine wp_mono (pollWrite_idle rest holds) ?_
        intro r s' k' idle some
        rcases r.ok_or with ok | refused
        · exact idle ok
        · exact absurd (accepted_of_not_ok refused) some
      | vectored bufs => exact absurd scalar id
    | flush => exact fun some => absurd accepted_nil some
    | shutdown => exact fun some => absurd accepted_nil some
  refine wp_mono (wp_and operated idle) ?_
  rintro r s' k' ⟨⟨messages, split, calm, -, w', grew, onward⟩, idle⟩
  have again : Backlog.Onward (fun _ => True) op r op.offer := by
    cases op with
    | write c => exact .inr rfl
    | flush => trivial
    | shutdown => trivial
  obtain ⟨rest', -, holds'⟩ := onward op.offer again
  exact ⟨calm, messages, w', split, grew, rest', holds', idle⟩

/-- The bytes between two weaves of one growth, as the inner writer receives them. -/
theorem ordered_of_grew {before after : Backlog T} {w w' : Weave UInt8}
    {drawn : List (List UInt8)} {mine : List UInt8} (grew : Weave.Grew w drawn mine w')
    (rest : w.rest = before.buffer) (rest' : w'.rest = after.buffer)
    (holds : received before.inner = base ++ w.bytes)
    (holds' : received after.inner = base ++ w'.bytes) : Ordered before after drawn mine := by
  obtain ⟨synthetic, bytes, left⟩ := grew.bytes
  refine ⟨synthetic, ?_, ?_⟩
  · rw [holds', bytes, holds]
    simp only [List.append_assoc]
  · rw [Backlog.stored, Backlog.stored, ← rest, ← rest']
    exact left

/-- A move carries the weave on, and is in turn. -/
theorem splicing_step {s : Paced (WriteInjector T) × List (List UInt8)}
    (h : Splices base rx past s) {move : InjectMove WriteOp} (scalar : Scalar move) :
    Splices base rx (past ++ [(move, ((splicing T env).step s move).1)])
        ((splicing T env).step s move).2 ∧
      InTurn env s move := by
  obtain ⟨w, holds, callers, blocks, rest, queue⟩ := h
  cases move with
  | arrive bytes =>
    refine ⟨⟨w, holds, ?_, ?_, rest, ?_⟩, trivial⟩
    · rw [writesOf_quiet fun op eq => by cases eq]
      exact callers
    · exact blocks.trans (List.append_nil _).symm
    · show (s.2 ++ []) ++ (s.1.state.injectRx.queue ++ [bytes]) = _
      rw [List.append_nil, ← List.append_assoc, queue]
      simp [InjectMove.arrived_snoc, InjectMove.message?]
  | close =>
    refine ⟨⟨w, holds, ?_, ?_, rest, ?_⟩, trivial⟩
    · rw [writesOf_quiet fun op eq => by cases eq]
      exact callers
    · exact blocks.trans (List.append_nil _).symm
    · show (s.2 ++ []) ++ s.1.state.injectRx.queue = _
      rw [List.append_nil, queue]
      simp [InjectMove.arrived_snoc, InjectMove.message?]
  | caller op =>
    obtain ⟨calm, messages, w', split, grew, rest', holds', idle⟩ :=
      machine_step (s := s.1) (@op_spliced _ _ env _ _ _ _ _ scalar rest holds)
    have received : received? env s.1 (.caller op) = messages := take_of_append split
    constructor
    · refine ⟨w', holds', ?_, ?_, rest', ?_⟩
      · rw [grew.callers, callers, writesOf_caller, acceptedBytes_snoc]
        rfl
      · rw [grew.blocks, blocks, ← received]
        rfl
      · show s.2 ++ received? env s.1 (.caller op) ++
          ((machine env WriteOp.poll).step s.1 op).2.state.injectRx.queue = _
        rw [received, List.append_assoc, ← split, queue]
        simp [InjectMove.arrived_snoc, InjectMove.message?]
    · refine ⟨calm, ?_, idle⟩
      rw [received]
      exact ordered_of_grew grew rest rest' holds holds'

/-- **A write injector's scalar path keeps both streams**, whatever arrives and whatever the inner
writer answers. -/
theorem splices_scalar (env : World) (k : Nat) (inner : T) (rx : InjectRx)
    (moves : List (InjectMove WriteOp))
    (scalar : ∀ move ∈ moves, Scalar move) :
    (splicing T env).Throughout (fun past s => Splices (received inner) rx past s)
        (⟨k, .new inner rx⟩, []) moves ∧
      (splicing T env).Allowed (fun _ => InTurn env) (⟨k, .new inner rx⟩, []) moves := by
  have start : Splices (received inner) rx [] (⟨k, new inner rx⟩, []) :=
    ⟨.empty, (List.append_nil _).symm, rfl, rfl, rfl, (List.append_nil _).symm⟩
  have allowed : (splicing T env).AllowedFrom (fun _ _ move => Scalar move) []
      (⟨k, .new inner rx⟩, []) moves := Machine.allowedFrom_of_mem scalar
  constructor
  · exact Machine.AllowedFrom.imp (P := fun past s => Splices (received inner) rx past s)
      (fun _ _ _ h scalar => (splicing_step h scalar).1)
      (fun _ _ _ h scalar => (splicing_step h scalar).1) start allowed
  · exact Machine.AllowedFrom.imp (P := fun past s => Splices (received inner) rx past s)
      (fun _ _ _ h scalar => (splicing_step h scalar).1)
      (fun _ _ _ h scalar => (splicing_step h scalar).2) start allowed

/-- A message that is taken one byte at a time, with a caller that changes its mind in between. -/
def nibbled : List (InjectMove WriteOp) :=
  [.arrive [1, 2], .caller (.write (.scalar [9])), .caller (.write (.scalar [8, 8])),
    .caller (.write (.scalar [7]))]

theorem splices_nibbled :
    (splicing Socket .still).Throughout (fun past s => Splices [] ⟨[], false⟩ past s)
        (⟨0, .new ⟨[], [.ready 1, .later, .ready 1, .later]⟩ ⟨[], false⟩⟩, []) nibbled ∧
      (splicing Socket .still).Allowed (fun _ => InTurn .still)
        (⟨0, .new ⟨[], [.ready 1, .later, .ready 1, .later]⟩ ⟨[], false⟩⟩, []) nibbled :=
  splices_scalar .still 0 _ _ nibbled (by decide)

end WriteInjector

end Trixter
