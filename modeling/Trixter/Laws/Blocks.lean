import Trixter.Laws.Delayer
import Trixter.Laws.Synthetic

/-!
# One block before a caller's write

`oneBlock_iff`: a write has one block at most exactly in the runs in which no write that had its block
draws again.

A write that the draw picks is preceded by one block, if its poll gets to the caller's buffer and that
is accepted. A poll that drains its block and then finds the inner writer not ready leaves no trace of
the block: the next poll of the same write draws again. An `Epoch` counts the blocks since the last
accepted write, and what each poll puts on the wire is read off the weave. Vectored writes are left out:
they know of no block.
-/

namespace Trixter

open Trixter.Lib Polling

namespace Corrupter

variable {T P G : Type} [SmallRng G] {env : World} {k : Nat} {s : Corrupter T P G}

/-- A block has 1 to 16384 bytes. -/
theorem block_length (g : G) : 1 ≤ (block g).length ∧ (block g).length ≤ 16384 := by
  have size := SmallRng.randomRange_mem minRandomCorruptBufferSize maxRandomCorruptBufferSize g
    (by decide)
  unfold block
  rw [SmallRng.fillBytes_length]
  exact size

variable [Probability P]

theorem drawn_mem {b : List UInt8} (mem : b ∈ drawn env k s) : 1 ≤ b.length ∧ b.length ≤ 16384 := by
  unfold drawn at mem
  split at mem
  · rw [List.mem_singleton.mp mem]
    exact block_length _
  · cases mem

theorem drawnBy_mem {op : WriteOp} {b : List UInt8} (mem : b ∈ drawnBy env k s op) :
    1 ≤ b.length ∧ b.length ≤ 16384 := by
  unfold drawnBy at mem
  split at mem
  · exact drawn_mem mem
  · cases mem

variable [Sink T]

/-- **What one write puts on the wire**: first bytes of the stored block, or of the one it draws, and
then what it accepts of the caller's. Once a write is accepted nothing is stored. -/
theorem pollWrite_wire (buf : List UInt8) :
    (pollWrite buf).wp env k s fun r s' _ =>
      ((∃ n, r = .ok n) → s'.writeBuffer = none) ∧
        ∃ random, received s'.inner = received s.inner ++ random ++ accepted r buf ∧
          random ++ s'.writeBuffer.getD [] = s.writeBuffer.getD [] ++ (drawn env k s).flatten := by
  have retried : Retried T _ := Sink.contract.retried
  -- the wire so far as one piece, and the stored block under way
  let w : Weave UInt8 := ⟨[.caller (received s.inner)], s.writeBuffer.map (⟨[], ·⟩)⟩
  have bytes : w.bytes = received s.inner := by
    cases stored : s.writeBuffer <;> simp [w, Weave.bytes, Piece.bytes, stored]
  have rest : w.rest = s.writeBuffer := by
    cases stored : s.writeBuffer <;> simp [w, Weave.rest, stored]
  have woven : Backlog.Woven (fun log _ (t : T) => True ∧ received t = log) [] w buf s.backlog :=
    ⟨rest, trivial, bytes.symm⟩
  simp only [AsyncWrite.pollWrite]
  rw [wp_bind]
  refine wp_mono (synthesize_woven retried woven fun _ _ => ⟨trivial, bytes.symm⟩) ?_
  rintro r s' k' ⟨calm, w', grew, hw', idle⟩
  obtain ⟨random, grown, left⟩ := grew.bytes
  have onWire : received s'.inner = received s.inner ++ random := by
    rw [← bytes, ← List.append_nil (w.bytes ++ random), ← grown]
    exact hw'.offered.2
  rw [hw'.rest, rest] at left
  have stopped : (∃ n, r = .ok n) → s'.writeBuffer = none := by
    rintro ⟨u, eq⟩
    exact idle eq
  cases r with
  | ok u =>
    dsimp only
    rw [onInner, wp_zoom]
    refine wp_mono (Sink.contract.write env k' s'.inner buf trivial) ?_
    rintro r t k'' ⟨-, wrote⟩
    refine ⟨fun _ => stopped ⟨u, rfl⟩, random, ?_, left⟩
    rw [← onWire]
    exact wrote.moved
  | pending =>
    refine ⟨?_, random, ?_, left⟩
    · rintro ⟨n, answer⟩
      cases answer
    · rw [onWire, accepted_pending, List.append_nil]
  | err e =>
    refine ⟨?_, random, ?_, left⟩
    · rintro ⟨n, answer⟩
      cases answer
    · rw [onWire, accepted_err, List.append_nil]
  | panicked m => exact absurd rfl (calm m)

/-- The time since the last accepted write: what the inner writer had received then, and the blocks
drawn in it. -/
structure Epoch where
  mark : List UInt8
  blocks : List (List UInt8)
  deriving DecidableEq, Repr

/-- The epoch after a poll that draws these blocks and leaves this on the wire. An accepted write
starts a new one. -/
def Epoch.after (epoch : Epoch) (drawn : List (List UInt8)) (wire : List UInt8) :
    WriteOp → Poll IoError Nat → Epoch
  | .write _, .ok _ => ⟨wire, []⟩
  | _, _ => ⟨epoch.mark, epoch.blocks ++ drawn⟩

/-- A poll accepts a write, or it accepts no byte and the epoch goes on. -/
theorem Epoch.after_cases (epoch : Epoch) (drawn : List (List UInt8)) (wire : List UInt8)
    (op : WriteOp) (r : Poll IoError Nat) :
    ((∃ c, op = .write c) ∧ r.isOk = true ∧ epoch.after drawn wire op r = ⟨wire, []⟩) ∨
      accepted r op.offer = [] ∧
        epoch.after drawn wire op r = ⟨epoch.mark, epoch.blocks ++ drawn⟩ := by
  cases op with
  | write c =>
    cases r with
    | ok n => exact .inl ⟨⟨c, rfl⟩, rfl, rfl⟩
    | _ => exact .inr ⟨rfl, rfl⟩
  | flush => cases r <;> exact .inr ⟨by simp [WriteOp.offer], rfl⟩
  | shutdown => cases r <;> exact .inr ⟨by simp [WriteOp.offer], rfl⟩

variable (T P G) in
/-- A corrupter's polls with the epoch beside the state. -/
def epochs (env : World) :
    Machine (Paced (Corrupter T P G) × Epoch) WriteOp (Poll IoError Nat) :=
  (writes (Corrupter T P G) env).watched fun epoch s op =>
    let d := (writes (Corrupter T P G) env).step s op
    epoch.after (drawnBy env s.moment s.state op) (received d.2.state.inner) op d.1

/-- No more than one block has been drawn since the last accepted write, whether or not its bytes got
through; the poll leaves at most that block on the wire, and if it accepts a write, the block comes whole
and before the accepted bytes. -/
def OneBlock (env : World) (s : Paced (Corrupter T P G) × Epoch) (op : WriteOp) : Prop :=
  let d := (epochs T P G env).step s op
  let blocks := s.2.blocks ++ drawnBy env s.1.moment s.1.state op
  blocks.length ≤ 1 ∧ ∃ random, random.length ≤ 16384 ∧ random <+: blocks.flatten ∧
    received d.2.1.state.inner = s.2.mark ++ random ++ accepted d.1 op.offer ∧
    ((∃ c, op = .write c) → d.1.isOk = true → random = blocks.flatten)

/-- A write that had its block finds nothing stored and draws below the threshold once more. -/
def DrawsAgain (env : World) (s : Paced (Corrupter T P G) × Epoch) : WriteOp → Prop
  | .write (.scalar _) =>
    s.2.blocks ≠ [] ∧ s.1.state.writeBuffer = none ∧ Corrupts env s.1.moment s.1.state
  | _ => False

instance (s : Paced (Corrupter T P G) × Epoch) : (op : WriteOp) → Decidable (DrawsAgain env s op)
  | .write (.scalar _) => inferInstanceAs (Decidable (_ ∧ _ ∧ _))
  | .write (.vectored _) => inferInstanceAs (Decidable False)
  | .flush => inferInstanceAs (Decidable False)
  | .shutdown => inferInstanceAs (Decidable False)

/-- What a run keeps: the wire holds the blocks of the epoch, up to what is stored of the last. -/
structure InEpoch (epoch : Epoch) (s : Corrupter T P G) : Prop where
  few : epoch.blocks.length ≤ 1
  sizes : ∀ b ∈ epoch.blocks, b.length ≤ 16384
  wire : ∃ random, received s.inner = epoch.mark ++ random ∧
    random ++ s.writeBuffer.getD [] = epoch.blocks.flatten

/-- What any operation but a vectored write puts on the wire. -/
theorem op_wire {op : WriteOp} (scalar : op.Scalar) :
    op.poll.wp env k s fun r s' _ =>
      ((∃ c, op = .write c) → (∃ n, r = .ok n) → s'.writeBuffer = none) ∧
        ∃ random, received s'.inner = received s.inner ++ random ++ accepted r op.offer ∧
          random ++ s'.writeBuffer.getD [] =
            s.writeBuffer.getD [] ++ (drawnBy env k s op).flatten := by
  -- a flush and a shutdown leave the wire as it is
  have quiet : ∀ {op : WriteOp} {r : Poll IoError Nat} {t : T}, op = .flush ∨ op = .shutdown →
      received t = received s.inner →
      ((∃ c, op = .write c) → (∃ n, r = .ok n) → s.writeBuffer = none) ∧
        ∃ random, received t = received s.inner ++ random ++ accepted r op.offer ∧
          random ++ s.writeBuffer.getD [] =
            s.writeBuffer.getD [] ++ (drawnBy env k s op).flatten := by
    rintro op r t (rfl | rfl) same
    · refine ⟨fun ⟨c, h⟩ => (by cases h), [], ?_, ?_⟩
      · simp [same, WriteOp.offer]
      · simp [drawnBy]
    · refine ⟨fun ⟨c, h⟩ => (by cases h), [], ?_, ?_⟩
      · simp [same, WriteOp.offer]
      · simp [drawnBy]
  cases op with
  | write c =>
    cases c with
    | scalar buf =>
      refine wp_mono (pollWrite_wire buf) ?_
      rintro r s' k' ⟨idle, wire⟩
      exact ⟨fun _ => idle, wire⟩
    | vectored bufs => exact absurd scalar id
  | flush =>
    rw [WriteOp.poll, wp_map, pollFlush_wp]
    exact wp_mono (Sink.contract.flush env k s.inner trivial) fun _ _ _ h => quiet (.inl rfl) h.2.1
  | shutdown =>
    rw [WriteOp.poll, wp_map, pollShutdown_wp]
    exact wp_mono (Sink.contract.shutdown env k s.inner trivial)
      fun _ _ _ h => quiet (.inr rfl) h.2.1

variable {epoch : Epoch} {op : WriteOp}

omit [SmallRng G] [Probability P] [Sink T] in
/-- A block of at most 16384 bytes, or none. -/
theorem flatten_length {blocks : List (List UInt8)} (few : blocks.length ≤ 1)
    (sizes : ∀ b ∈ blocks, b.length ≤ 16384) : blocks.flatten.length ≤ 16384 := by
  cases blocks with
  | nil => exact Nat.zero_le _
  | cons b rest =>
    obtain rfl : rest = [] := List.length_eq_zero_iff.mp (by rw [List.length_cons] at few; omega)
    simpa using sizes b List.mem_cons_self

omit [Sink T] in
/-- A poll goes over one block exactly if it draws again. -/
theorem few_iff {s : Paced (Corrupter T P G) × Epoch} (few : s.2.blocks.length ≤ 1)
    (scalar : op.Scalar) :
    (s.2.blocks ++ drawnBy env s.1.moment s.1.state op).length ≤ 1 ↔ ¬DrawsAgain env s op := by
  cases op with
  | write c =>
    cases c with
    | scalar buf =>
      rw [List.length_append, drawnBy, drawn, DrawsAgain]
      split
      · next draws =>
        rw [List.length_singleton, and_iff_left draws, not_not, ← List.length_eq_zero_iff]
        omega
      · next draws => simp only [draws, and_false, not_false_eq_true, List.length_nil, few,
          Nat.add_zero]
    | vectored bufs => exact absurd scalar id
  | flush => simpa [drawnBy, DrawsAgain] using few
  | shutdown => simpa [drawnBy, DrawsAgain] using few

/-- **One poll**, with the books of its epoch. -/
theorem epoch_step {s : Paced (Corrupter T P G) × Epoch} (h : InEpoch s.2 s.1.state)
    (scalar : op.Scalar) :
    (OneBlock env s op ↔ ¬DrawsAgain env s op) ∧
      (¬DrawsAgain env s op →
        InEpoch ((epochs T P G env).step s op).2.2 ((epochs T P G env).step s op).2.1.state) := by
  obtain ⟨few, sizes, random₀, wire₀, left₀⟩ := h
  obtain ⟨idle, random, wire, left⟩ := writes_step env s.1 op (op_wire scalar)
  let d := (epochs T P G env).step s op
  let blocks := s.2.blocks ++ drawnBy env s.1.moment s.1.state op
  have idle : (∃ c, op = .write c) → d.1.isOk = true → d.2.1.state.writeBuffer = none :=
    fun isWrite ok => idle isWrite (Poll.isOk_iff.mp ok)
  have whole : random₀ ++ random ++ d.2.1.state.writeBuffer.getD [] = blocks.flatten := by
    rw [List.append_assoc, List.flatten_append, ← left₀, List.append_assoc]
    exact congrArg (random₀ ++ ·) left
  have wire : received d.2.1.state.inner =
      s.2.mark ++ (random₀ ++ random) ++ accepted d.1 op.offer := by
    rw [wire₀, List.append_assoc s.2.mark] at wire
    exact wire
  have sizes' : ∀ b ∈ blocks, b.length ≤ 16384 := by
    intro b mem
    rcases List.mem_append.mp mem with mem | mem
    · exact sizes b mem
    · exact (drawnBy_mem mem).2
  refine ⟨⟨fun one => (few_iff few scalar).mp one.1, fun again => ?_⟩, fun again => ?_⟩
  · have few' := (few_iff few scalar).mpr again
    have sub : random₀ ++ random <+: blocks.flatten := ⟨_, whole⟩
    refine ⟨few', _, Nat.le_trans sub.length_le (flatten_length few' sizes'), sub, wire, ?_⟩
    intro isWrite ok
    rw [← whole, idle isWrite ok, Option.getD_none, List.append_nil]
  · have few' := (few_iff few scalar).mpr again
    show InEpoch (s.2.after _ (received d.2.1.state.inner) op d.1) d.2.1.state
    rcases s.2.after_cases (drawnBy env s.1.moment s.1.state op) (received d.2.1.state.inner) op d.1
      with ⟨isWrite, ok, eq⟩ | ⟨none, eq⟩
    · rw [eq]
      refine ⟨Nat.zero_le _, fun _ mem => absurd mem List.not_mem_nil, [], (List.append_nil _).symm, ?_⟩
      rw [idle isWrite ok]
      rfl
    · rw [eq]
      refine ⟨few', sizes', random₀ ++ random, ?_, whole⟩
      rw [wire, none, List.append_nil]

/-- A fresh corrupter, at the start of its first epoch. -/
def fresh (k : Nat) (inner : T) (prob : P) (rng : G) : Paced (Corrupter T P G) × Epoch :=
  (⟨k, ⟨inner, prob, rng, none⟩⟩, ⟨received inner, []⟩)

/-- **When a write has one block at most.** In any run of scalar writes, flushes and shutdowns, over
any generator, any knob and any honest inner writer, every poll leaves at most one block of at most
16384 bytes on the wire since the last accepted write and has drawn no second one, exactly if no write
that had its block draws again. -/
theorem oneBlock_iff (env : World) (k : Nat) (inner : T) (prob : P) (rng : G) (ops : List WriteOp)
    (scalar : ∀ op ∈ ops, op.Scalar) :
    (epochs T P G env).Allowed (fun _ s op => OneBlock env s op) (fresh k inner prob rng) ops ↔
      (epochs T P G env).Allowed (fun _ s op => ¬DrawsAgain env s op) (fresh k inner prob rng)
        ops := by
  have start : InEpoch (fresh k inner prob rng).2 (fresh k inner prob rng).1.state :=
    ⟨Nat.zero_le _, fun _ mem => absurd mem List.not_mem_nil, [], (List.append_nil _).symm, rfl⟩
  have all : (epochs T P G env).Allowed (fun _ _ op => op.Scalar) (fresh k inner prob rng) ops :=
    Machine.allowedFrom_of_mem scalar
  refine Machine.AllowedFrom.congr_on
    (P := fun _ (s : Paced (Corrupter T P G) × Epoch) => InEpoch s.2 s.1.state) ?_ ?_ start all
  · intro _ s op h scalar one
    exact (epoch_step h scalar).2 ((epoch_step h scalar).1.mp one)
  · exact fun _ s op h scalar => (epoch_step h scalar).1

/-! ## Over a delayed writer -/

/-- A delayed sink is a sink. -/
instance {T D : Type} [Sink T] [Duration D] [ShortDuration D] : Sink (DelayedWriter T D) where
  received s := received s.inner
  contract := DelayedWriter.contract Sink.contract

/-- A generator whose first two blocks have one byte each. -/
def ones : Xoshiro :=
  SmallRng.fromSeed (List.replicate 16 0 ++ List.replicate 8 85 ++ List.replicate 8 0)

/-- A run in which the only block is drawn by the first poll. -/
theorem oneBlock_quiet :
    (epochs Pipe ConstProb Xoshiro .still).Allowed (fun _ s op => OneBlock .still s op)
      (fresh 0 ⟨⟨[], [.later]⟩, []⟩ ⟨0x10⟩ ones) [.write (.scalar [1, 2]), .write (.scalar [1, 2])] :=
  (oneBlock_iff .still 0 (Pipe.mk ⟨[], [.later]⟩ []) (ConstProb.mk 0x10) ones _ (by decide)).mpr
    (by decide)

/-- The knobs hold a two, and each moment lasts a nanosecond. -/
def twos : World := { metronome with atomics := fun _ _ => 2 }

/-- A corrupter with a probability of one, over a socket that is delayed by two nanoseconds. -/
def relentless : Paced (Corrupter (DelayedWriter Socket DynamicDuration) ConstProb Xoshiro) × Epoch :=
  fresh 0 (.new 0 ⟨[], []⟩ ⟨0⟩) ⟨0xFFFFFFFFFFFFFFFF⟩ ones

/-- The failing run. The seven is offered three times. Once the first block is through, the delay of
the seven begins; the poll that finds it over draws a second block and sends that instead. -/
theorem two_blocks_before_seven :
    let m := epochs (DelayedWriter Socket DynamicDuration) ConstProb Xoshiro twos
    let sevens := List.replicate 3 (WriteOp.write (.scalar [7]))
    (m.run relentless sevens).1.map Prod.snd = [.pending, .pending, .pending] ∧
      (m.run relentless sevens).2.1.state.inner.inner.log = [85, 85] ∧
      ¬m.Allowed (fun _ s op => OneBlock twos s op) relentless sevens := by
  refine ⟨by decide, by decide, fun one => ?_⟩
  exact absurd one.2.2.1.1 (by decide)

end Corrupter

end Trixter
