import Trixter.Lib.Twin
import Trixter.Laws.InjectorRuns

/-!
# What only one entry point knows

A block that is begun lives in the adapter until it is written. `poll_write` finishes it before it
touches the caller's bytes; vectored writes, flushes and shutdowns go straight to the inner writer.
So a block is finished before anything else exactly in the runs in which none of those three gets
through while part of a begun block is stored: `finishes_iff_notOvertaken`. What is stored when the caller
never polls again stays there, and no claim is made about it.
-/

namespace Trixter

open Trixter.Lib Polling Synthetic

section Blocks

variable {T : Type}

/-- Part of the last block taken up has been written, and part of it is stored. -/
def HalfWritten (blocks : List (List UInt8)) (s : Backlog T) : Prop :=
  ∃ block, blocks.getLast? = some block ∧ s.stored ≠ [] ∧ s.stored.length < block.length

/-- The operation got through: a write had a byte accepted, a flush or a shutdown succeeded. -/
def Passes (op : WriteOp) (r : Poll IoError Nat) : Prop :=
  match op with
  | .write call => accepted r call.content ≠ []
  | _ => ∃ n, r = .ok n

variable [Sink T]

/-- The operation writes block bytes before the caller's, and if it gets through, no block is left
begun. -/
def Finishes (before after : Backlog T) (drawn blocks : List (List UInt8)) (op : WriteOp)
    (r : Poll IoError Nat) : Prop :=
  Ordered before after drawn (accepted r op.offer) ∧ (Passes op r → ¬HalfWritten blocks after)

/-- While part of a begun block is stored, the operation is `poll_write` or the inner writer does not
let it through. -/
def NotOvertaken (env : World) (k : Nat) (blocks : List (List UInt8)) (before : Backlog T)
    (op : WriteOp) : Prop :=
  HalfWritten blocks before →
    (∃ buf, op = .write (.scalar buf)) ∨ ¬Passes op (op.poll env k before.inner).result

variable {env : World} {k : Nat} {before after : Backlog T} {drawn blocks : List (List UInt8)}
  {op : WriteOp} {r : Poll IoError Nat}

omit [Sink T] in
/-- Nothing is begun where nothing is stored. -/
theorem not_halfWritten (idle : after.buffer = none) : ¬HalfWritten blocks after := by
  rintro ⟨block, -, some, -⟩
  apply some
  rw [Backlog.stored, idle]
  rfl

/-- A `poll_write` that reports a byte has nothing stored, so it finishes what was begun. -/
theorem finishes_scalar {buf : List UInt8} {blocks' : List (List UInt8)}
    (ordered : Ordered before after drawn (accepted r buf))
    (idle : accepted r buf ≠ [] → after.buffer = none) :
    Finishes before after drawn blocks' (.write (.scalar buf)) r ↔
      NotOvertaken env k blocks before (.write (.scalar buf)) := by
  refine iff_of_true ⟨ordered, ?_⟩ fun _ => .inl ⟨buf, rfl⟩
  intro passes
  exact not_halfWritten (idle passes)

omit [Sink T] in
/-- Where vectored writes, flushes and shutdowns are forwarded, so is anything but a scalar write. -/
theorem forwards_unless_scalar {S : Type} [AsyncWrite S] [AsyncWrite T] {s : S} {t : T}
    {put : T → S} (scalar : ∀ buf, op ≠ .write (.scalar buf))
    (vectored : ∀ bufs, Forwards (pollWriteVectored bufs : Io S Nat) (pollWriteVectored bufs) env k
      s k t put)
    (flush : Forwards (pollFlush : Io S Unit) pollFlush env k s k t put)
    (shutdown : Forwards (pollShutdown : Io S Unit) pollShutdown env k s k t put) :
    Forwards op.poll op.poll env k s k t put := by
  cases op with
  | write call =>
    cases call with
    | scalar buf => exact absurd rfl (scalar buf)
    | vectored bufs => exact vectored bufs
  | flush => exact flush.map
  | shutdown => exact shutdown.map

/-- An operation that goes straight to the inner writer. -/
theorem finishes_forwarded (scalar : ∀ buf, op ≠ .write (.scalar buf))
    (result : (op.poll env k before.inner).result = r)
    (state : (op.poll env k before.inner).state = after.inner)
    (buffer : after.buffer = before.buffer) :
    Finishes before after [] blocks op r ↔ NotOvertaken env k blocks before op := by
  have ordered : Ordered before after [] (accepted r op.offer) := by
    have wrote := wp_iff.mp
      (@Contract.op _ _ _ _ Sink.contract env k before.inner op trivial)
    refine ⟨[], ?_, ?_⟩
    · rw [← result, ← state, wrote.2.moved, List.append_nil]
    · rw [Backlog.stored, Backlog.stored, buffer, List.flatten_nil, List.append_nil, List.nil_append]
  have same : HalfWritten blocks after ↔ HalfWritten blocks before := by
    unfold HalfWritten Backlog.stored
    rw [buffer]
  unfold Finishes NotOvertaken
  rw [and_iff_right ordered, same, result]
  constructor
  · intro finishes begun
    exact .inr fun passes => finishes passes begun
  · intro behind passes begun
    rcases behind begun with ⟨buf, eq⟩ | refused
    · exact scalar buf eq
    · exact refused passes

/-- The weave of a state: nothing complete, and what is stored under way. -/
def Backlog.weave (s : Backlog T) : Weave UInt8 := ⟨[], s.buffer.map fun rest => ⟨[], rest⟩⟩

omit [Sink T] in
theorem Backlog.weave_rest (s : Backlog T) : s.weave.rest = s.buffer := by
  obtain ⟨inner, _ | rest⟩ := s <;> rfl

theorem Backlog.weave_bytes (s : Backlog T) : received s.inner = received s.inner ++ s.weave.bytes := by
  obtain ⟨inner, _ | rest⟩ := s <;> exact (List.append_nil _).symm

end Blocks

/-! ## The write injector -/

namespace WriteInjector

variable {T : Type} [Sink T] {env : World}

/-- A move finishes what was begun. What happens to the channel begins nothing. -/
def FinishesMove (env : World) (s : Paced (WriteInjector T) × List (List UInt8)) :
    InjectMove WriteOp → Prop
  | .caller op =>
    let d := (splicing T env).step s (.caller op)
    Finishes s.1.state.backlog d.2.1.state.backlog (received? env s.1 (.caller op)) d.2.2 op d.1
  | _ => True

/-- A move does not overtake the block that is begun. -/
def NotOvertakenMove (env : World) (s : Paced (WriteInjector T) × List (List UInt8)) :
    InjectMove WriteOp → Prop
  | .caller op => NotOvertaken env s.1.moment s.2 s.1.state.backlog op
  | _ => True

/-- Anything but a scalar write goes straight to the inner writer. -/
theorem forwards {k : Nat} {s : WriteInjector T} {op : WriteOp}
    (scalar : ∀ buf, op ≠ .write (.scalar buf)) :
    Forwards op.poll op.poll env k s k s.inner fun inner => { s with inner } := by
  refine forwards_unless_scalar scalar (fun bufs => ?_) ?_ ?_ <;>
    exact ⟨Nat.le_refl k, rfl, rfl, rfl⟩

theorem finishes_step (s : Paced (WriteInjector T) × List (List UInt8)) (move : InjectMove WriteOp) :
    FinishesMove env s move ↔ NotOvertakenMove env s move := by
  cases move with
  | arrive bytes => exact Iff.rfl
  | close => exact Iff.rfl
  | caller op =>
    by_cases scalar : ∃ buf, op = .write (.scalar buf)
    · obtain ⟨buf, rfl⟩ := scalar
      obtain ⟨calm, messages, w', split, grew, rest', holds', idle⟩ :=
        machine_step (s := s.1) (@op_spliced T _ env (received s.1.state.inner) _ s.1.state
          s.1.state.backlog.weave (.write (.scalar buf)) trivial
          s.1.state.backlog.weave_rest s.1.state.backlog.weave_bytes)
      have drawn : received? env s.1 (.caller (.write (.scalar buf))) = messages :=
        take_of_append split
      unfold FinishesMove NotOvertakenMove
      dsimp only
      refine finishes_scalar ?_ idle
      rw [drawn]
      exact ordered_of_grew grew s.1.state.backlog.weave_rest rest'
        s.1.state.backlog.weave_bytes holds'
    · have scalar : ∀ buf, op ≠ .write (.scalar buf) := fun buf eq => scalar ⟨buf, eq⟩
      obtain ⟨-, result, state, -⟩ := @forwards T _ env s.1.moment s.1.state op scalar
      have drawn : received? env s.1 (.caller op) = [] := by
        show List.take (_ - (op.poll env s.1.moment s.1.state).state.injectRx.queue.length) _ = []
        rw [state, Nat.sub_self, List.take_zero]
      have blocks : ((splicing T env).step s (.caller op)).2.2 = s.2 := by
        show s.2 ++ received? env s.1 (.caller op) = s.2
        rw [drawn, List.append_nil]
      unfold FinishesMove NotOvertakenMove
      dsimp only
      rw [drawn, blocks]
      refine finishes_forwarded scalar result.symm ?_ ?_
      · show _ = (op.poll env s.1.moment s.1.state).state.inner
        rw [state]
        rfl
      · show (op.poll env s.1.moment s.1.state).state.buffer = _
        rw [state]
        rfl

end WriteInjector

/-! ## The corrupter -/

namespace Corrupter

variable {T P G : Type} [Sink T] [SmallRng G] [Probability P] {env : World}

/-- A corrupter's operations, with the blocks drawn so far beside the state. -/
def synthesizing (T P G : Type) [Sink T] [SmallRng G] [Probability P] (env : World) :
    Machine (Paced (Corrupter T P G) × List (List UInt8)) WriteOp (Poll IoError Nat) :=
  (writes (Corrupter T P G) env).traced fun s op => drawnBy env s.moment s.state op

/-- An operation finishes what was begun. -/
def FinishesOp (env : World) (s : Paced (Corrupter T P G) × List (List UInt8)) (op : WriteOp) :
    Prop :=
  let d := (synthesizing T P G env).step s op
  Finishes s.1.state.backlog d.2.1.state.backlog (drawnBy env s.1.moment s.1.state op) d.2.2 op d.1

/-- An operation does not overtake the block that is begun. -/
def NotOvertakenOp (env : World) (s : Paced (Corrupter T P G) × List (List UInt8)) (op : WriteOp) : Prop :=
  NotOvertaken env s.1.moment s.2 s.1.state.backlog op

/-- Anything but a scalar write goes straight to the inner writer. -/
theorem forwards {k : Nat} {s : Corrupter T P G} {op : WriteOp}
    (scalar : ∀ buf, op ≠ .write (.scalar buf)) :
    Forwards op.poll op.poll env k s k s.inner fun inner => { s with inner } := by
  refine forwards_unless_scalar scalar (fun bufs => ?_) ?_ ?_ <;>
    exact ⟨Nat.le_refl k, rfl, rfl, rfl⟩

/-- One write poll: the block bytes come first, and once it reports a byte nothing is stored. -/
theorem pollWrite_ordered {k : Nat} {s : Corrupter T P G} {buf : List UInt8} :
    (pollWrite buf).wp env k s fun r s' _ =>
      Ordered s.backlog s'.backlog (drawn env k s) (accepted r buf) ∧
        (accepted r buf ≠ [] → s'.writeBuffer = none) := by
  have holds := s.backlog.weave_bytes
  have woven : Backlog.Woven WriteInjector.Offered (received s.inner) s.backlog.weave buf s.backlog :=
    ⟨s.backlog.weave_rest, trivial, holds⟩
  have free : drawn env k s ≠ [] → ∀ next,
      WriteInjector.Offered (received s.inner ++ s.backlog.weave.bytes) next s.inner :=
    fun _ _ => ⟨trivial, holds⟩
  have idle : (pollWrite buf).wp env k s fun r s' _ => (∃ n, r = .ok n) → s'.writeBuffer = none := by
    simp only [AsyncWrite.pollWrite]
    rw [wp_bind]
    refine wp_mono (synthesize_woven WriteInjector.retried_offered woven free) ?_
    rintro r s' k' ⟨calm, w', grew, woven', idle⟩
    cases r with
    | ok u => exact fun _ => idle rfl
    | pending =>
      rintro ⟨n, eq⟩
      cases eq
    | err e =>
      rintro ⟨n, eq⟩
      cases eq
    | panicked m => exact absurd rfl (calm m)
  refine wp_mono (wp_and (pollWrite_woven WriteInjector.retried_offered woven free) idle) ?_
  rintro r s' k' ⟨⟨calm, -, w', grew, onward⟩, idle⟩
  obtain ⟨rest', -, holds'⟩ := onward buf (.inr rfl)
  refine ⟨WriteInjector.ordered_of_grew grew s.backlog.weave_rest rest' holds holds', ?_⟩
  intro some
  rcases r.ok_or with ok | refused
  · exact idle ok
  · exact absurd (accepted_of_not_ok refused) some

theorem finishes_step (s : Paced (Corrupter T P G) × List (List UInt8)) (op : WriteOp) :
    FinishesOp env s op ↔ NotOvertakenOp env s op := by
  by_cases scalar : ∃ buf, op = .write (.scalar buf)
  · obtain ⟨buf, rfl⟩ := scalar
    obtain ⟨ordered, idle⟩ := machine_step (s := s.1)
      (@pollWrite_ordered T P G _ _ _ env s.1.moment s.1.state buf)
    unfold FinishesOp NotOvertakenOp
    dsimp only
    exact finishes_scalar ordered idle
  · have scalar : ∀ buf, op ≠ .write (.scalar buf) := fun buf eq => scalar ⟨buf, eq⟩
    obtain ⟨-, result, state, -⟩ := @forwards T P G _ _ _ env s.1.moment s.1.state op scalar
    have drawn : drawnBy env s.1.moment s.1.state op = [] := by
      cases op with
      | write call =>
        cases call with
        | scalar buf => exact absurd rfl (scalar buf)
        | vectored bufs => rfl
      | flush => rfl
      | shutdown => rfl
    have blocks : ((synthesizing T P G env).step s op).2.2 = s.2 := by
      show s.2 ++ drawnBy env s.1.moment s.1.state op = s.2
      rw [drawn, List.append_nil]
    unfold FinishesOp NotOvertakenOp
    dsimp only
    rw [drawn, blocks]
    refine finishes_forwarded scalar result.symm ?_ ?_
    · show _ = (op.poll env s.1.moment s.1.state).state.inner
      rw [state]
      rfl
    · show (op.poll env s.1.moment s.1.state).state.writeBuffer = _
      rw [state]
      rfl

end Corrupter

/-! ## Both -/

/-- **A begun block is finished before anything else** exactly in the runs in which nothing but
`poll_write` gets through while part of it is stored. -/
theorem finishes_iff_notOvertaken {T P G : Type} [Sink T] [SmallRng G] [Probability P] (env : World) (k : Nat)
    (inner : T) :
    (∀ (rx : InjectRx) (moves : List (InjectMove WriteOp)),
      (WriteInjector.splicing T env).Allowed (fun _ => WriteInjector.FinishesMove env)
          (⟨k, .new inner rx⟩, []) moves ↔
        (WriteInjector.splicing T env).Allowed (fun _ => WriteInjector.NotOvertakenMove env)
          (⟨k, .new inner rx⟩, []) moves) ∧
    ∀ (prob : P) (rng : G) (ops : List WriteOp),
      (Corrupter.synthesizing T P G env).Allowed (fun _ => Corrupter.FinishesOp env)
          (⟨k, ⟨inner, prob, rng, none⟩⟩, []) ops ↔
        (Corrupter.synthesizing T P G env).Allowed (fun _ => Corrupter.NotOvertakenOp env)
          (⟨k, ⟨inner, prob, rng, none⟩⟩, []) ops := by
  constructor
  · intro rx moves
    exact Machine.AllowedFrom.congr (P := fun _ _ => True) (fun _ _ _ _ _ => trivial)
      (fun _ s move _ => WriteInjector.finishes_step s move) trivial
  · intro prob rng ops
    exact Machine.AllowedFrom.congr (P := fun _ _ => True) (fun _ _ _ _ _ => trivial)
      (fun _ s op _ => Corrupter.finishes_step s op) trivial

/-- A connection that takes one byte, is not ready once, and then takes everything. -/
def halting : Socket := ⟨[], [.ready 1, .later]⟩

/-- A generator whose first draw is below one half, and whose block then has two bytes. -/
def pair : Xoshiro := ⟨0x65F0912EEF3F25B, 0x1645129A858A22C6, 0x82CEFD415F31539A, 0x8681AD3251C5E520⟩

/-- A write that leaves a block begun, and what comes next. -/
def tearing (next : WriteOp) : List WriteOp := [.write (.scalar [9]), next]

/-- The same with a message that has arrived before. -/
def tearingMoves (next : WriteOp) : List (InjectMove WriteOp) :=
  .arrive [1, 2] :: (tearing next).map .caller

/-- The failing runs. A vectored write puts its byte between the two bytes of a block, and a flush
and a shutdown succeed while the second one is stored. -/
theorem finishes_fails_tearing :
    (((WriteInjector.splicing Socket .still).run (⟨0, .new halting ⟨[], false⟩⟩, [])
          (tearingMoves (.write (.vectored [[7]])))).2.1.state.inner.log = [1, 7] ∧
        ∀ op ∈ [WriteOp.write (.vectored [[7]]), .flush, .shutdown],
          ¬(WriteInjector.splicing Socket .still).Allowed (fun _ => WriteInjector.FinishesMove .still)
            (⟨0, .new halting ⟨[], false⟩⟩, []) (tearingMoves op)) ∧
      ((Corrupter.synthesizing Socket ConstProb Xoshiro .still).run
          (⟨0, ⟨halting, half, pair, none⟩⟩, [])
          (tearing (.write (.vectored [[7]])))).2.1.state.inner.log = [91, 7] ∧
        ∀ op ∈ [WriteOp.write (.vectored [[7]]), .flush, .shutdown],
          ¬(Corrupter.synthesizing Socket ConstProb Xoshiro .still).Allowed
            (fun _ => Corrupter.FinishesOp .still) (⟨0, ⟨halting, half, pair, none⟩⟩, [])
            (tearing op) := by
  refine ⟨⟨by decide, ?_⟩, by decide, ?_⟩
  · simp only [List.forall_mem_cons]
    refine ⟨?_, ?_, ?_, by simp⟩
    · intro finishes
      exact finishes.2.2.1.2 (List.cons_ne_nil 7 []) ⟨[1, 2], rfl, by decide, by decide⟩
    · intro finishes
      exact finishes.2.2.1.2 ⟨0, rfl⟩ ⟨[1, 2], rfl, by decide, by decide⟩
    · intro finishes
      exact finishes.2.2.1.2 ⟨0, rfl⟩ ⟨[1, 2], rfl, by decide, by decide⟩
  · simp only [List.forall_mem_cons]
    refine ⟨?_, ?_, ?_, by simp⟩
    · intro finishes
      exact finishes.2.1.2 (List.cons_ne_nil 7 []) ⟨[91, 80], rfl, by decide, by decide⟩
    · intro finishes
      exact finishes.2.1.2 ⟨0, rfl⟩ ⟨[91, 80], rfl, by decide, by decide⟩
    · intro finishes
      exact finishes.2.1.2 ⟨0, rfl⟩ ⟨[91, 80], rfl, by decide, by decide⟩

end Trixter
