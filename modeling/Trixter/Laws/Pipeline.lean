import Trixter.Laws.Corrupter
import Trixter.Laws.Delayer
import Trixter.Laws.Terminator
import Trixter.Laws.Throttler
import Trixter.Ledger
import Trixter.ApiState
import Trixter.Script
import Trixter.Xoshiro

/-!
# Byte integrity of the write pipeline

Each adapter keeps the write contract of the writer below it, so the stack under the corrupter
keeps the socket's. What the corrupter adds is a weave, poll by poll, and a run of polls is a weave
of the drawn blocks with the accepted bytes: `byte_integrity`. That accepted bytes arrive soon, or while
the caller does not poll, is not promised.
-/

namespace Trixter

open Trixter.Lib Polling

namespace Pipeline

variable {W G : Type} [ReadySink W] [SmallRng G]

/-- The stack below the corrupter. -/
abbrev Below (W G : Type) :=
  Terminator
    (SlicedWriter (ThrottledWriter (DelayedWriter W DynamicDuration) DynamicRate) DynamicSize)
    DynamicProbability G

/-- What the socket has received. -/
def wire (s : Pipeline W G) : List UInt8 := received s.socket

/-- **The stack below the corrupter keeps the write contract** while its slicer is in phase
`Writing`, and it stays there, the socket's flush being always ready. -/
theorem below_contract :
    Contract (Below W G) (fun t => t.inner.phase = .writing ∧ True)
      (fun t => received t.inner.inner.inner.inner) :=
  Terminator.contract
    (SlicedWriter.contract (ThrottledWriter.contract (DelayedWriter.contract Sink.contract))
      (ThrottledWriter.flushReady (DelayedWriter.flushReady ReadySink.flushReady)))

/-- What has to hold of the stack below for it to take any buffer. -/
def Offering (log _buf : List UInt8) (t : Below W G) : Prop :=
  (t.inner.phase = .writing ∧ True) ∧ received t.inner.inner.inner.inner = log

/-- One operation, as seen at the socket: part of the blocks waiting or drawn, and then the accepted
bytes, no more than were offered. -/
def Delivered (env : World) (k : Nat) (s : Pipeline W G) (op : WriteOp) (r : Poll IoError Nat)
    (s' : Pipeline W G) : Prop :=
  Calm r ∧ (∀ n, r = .ok n → n ≤ op.offer.length) ∧
    ∃ random, s'.wire = s.wire ++ random ++ accepted r op.offer ∧
      random ++ s'.writeBuffer.getD [] =
        s.writeBuffer.getD [] ++ (Corrupter.drawnBy env k s op).flatten

/-- The socket's bytes are a weave of the drawn blocks, the last one perhaps under way, and the
accepted bytes. -/
def Woven (base : List UInt8) (drawn : List (List UInt8)) (past : Writes) (s : Pipeline W G) :
    Prop :=
  ∃ w : Weave UInt8, s.wire = base ++ w.bytes ∧ w.callers = acceptedBytes past ∧
    w.blocks = drawn ∧ w.rest = s.writeBuffer

/-- The pipeline's polls, with the blocks drawn so far beside the state. -/
def polls (W G : Type) [ReadySink W] [SmallRng G] (env : World) :
    Machine (Paced (Pipeline W G) × List (List UInt8)) WriteOp (Poll IoError Nat) :=
  (writes (Pipeline W G) env).traced fun s op => Corrupter.drawnBy env s.moment s.state op

/-- What a run keeps: the weave, and that nothing is left to flush below. -/
def Sound (base : List UInt8) (past : Writes) (s : Paced (Pipeline W G) × List (List UInt8)) :
    Prop :=
  ∃ w : Weave UInt8, w.callers = acceptedBytes past ∧ w.blocks = s.2 ∧
    ∀ buf, Backlog.Woven Offering base w buf s.1.state.backlog

omit [SmallRng G] in
theorem Sound.woven {base : List UInt8} {past : Writes}
    {s : Paced (Pipeline W G) × List (List UInt8)} (h : Sound base past s) :
    Woven base s.2 past s.1.state := by
  obtain ⟨w, callers, blocks, hw⟩ := h
  exact ⟨w, (hw []).offered.2, callers, blocks, (hw []).rest⟩

/-- One operation of a run. -/
theorem sound_step {env : World} {base : List UInt8} {past : Writes}
    {s : Paced (Pipeline W G) × List (List UInt8)} (h : Sound base past s) {op : WriteOp}
    (scalar : op.Scalar) :
    Delivered env s.1.moment s.1.state op ((polls W G env).step s op).1
        ((polls W G env).step s op).2.1.state ∧
      Sound base (past ++ [(op, ((polls W G env).step s op).1)]) ((polls W G env).step s op).2 := by
  obtain ⟨w, callers, blocks, hw⟩ := h
  have retried : Retried (Below W G) Offering := below_contract.retried
  have step := machine_step (s := s.1) (Corrupter.op_woven env _ (fun _ => True) retried scalar
    ⟨[], trivial⟩ (fun _ _ => trivial) (fun buf _ => hw buf) fun _ _ => (hw []).offered)
  obtain ⟨calm, fits, w', grew, onward⟩ := step
  have hw' := onward op.offer (by cases op with
    | write c => exact .inr rfl
    | _ => exact trivial)
  obtain ⟨random, bytes, rest⟩ := grew.bytes
  refine ⟨⟨calm, fits, random, ?_, ?_⟩, w', ?_, ?_, fun _ => ⟨hw'.rest, hw'.offered⟩⟩
  · have before : s.1.state.wire = base ++ w.bytes := (hw []).offered.2
    have after : ((polls W G env).step s op).2.1.state.wire = base ++ w'.bytes := hw'.offered.2
    rw [before, after, bytes, List.append_assoc, List.append_assoc, List.append_assoc]
    rfl
  · rw [hw'.rest, (hw []).rest] at rest
    exact rest
  · rw [grew.callers, callers, acceptedBytes_snoc]
    rfl
  · rw [grew.blocks, blocks]
    rfl

/-- **Byte integrity, end to end.** In a run of writes, flushes and shutdowns over a wrapped socket,
whatever the buffers, the world and the generator: each operation delivers what it reports and no
other byte of the caller's, and after each the socket has received the accepted bytes with the drawn
blocks woven in. -/
theorem byte_integrity (env : World) (k j : Nat) (socket : W) (knobs : Knobs) (baseRng : G)
    (ops : List WriteOp) (scalar : ∀ op ∈ ops, op.Scalar) :
    (polls W G env).Allowed
        (fun _ s op => Delivered env s.1.moment s.1.state op ((polls W G env).step s op).1
          ((polls W G env).step s op).2.1.state)
        (⟨j, (new env k socket knobs baseRng).1⟩, []) ops ∧
      (polls W G env).Throughout (fun past s => Woven (received socket) s.2 past s.1.state)
        (⟨j, (new env k socket knobs baseRng).1⟩, []) ops := by
  have start : Sound (received socket) []
      ((⟨j, (new env k socket knobs baseRng).1⟩, []) : Paced (Pipeline W G) × List (List UInt8)) :=
    ⟨.empty, rfl, rfl, fun _ =>
      ⟨rfl, ⟨rfl, trivial⟩, (List.append_nil _).symm⟩⟩
  have keep : ∀ past s op, Sound (received socket) past s → op.Scalar →
      Sound (received socket) (past ++ [(op, ((polls W G env).step s op).1)])
        ((polls W G env).step s op).2 := fun _ _ _ h scalar => (sound_step h scalar).2
  refine ⟨.imp keep ?_ start (Machine.allowedFrom_of_mem scalar),
    .imp keep ?_ start (Machine.allowedFrom_of_mem scalar)⟩
  · exact fun _ _ _ h scalar => (sound_step h scalar).1
  · exact fun _ _ _ h scalar => (keep _ _ _ h scalar).woven

/-- A world in which slices are of two bytes and every second write is corrupted. -/
def rough : World :=
  { World.still with atomics := fun cell _ => [0, 0, 2, 0, 0x8000000000000000].getD cell 0 }

/-- A socket that is not ready for the second write that reaches it. -/
def moody : Socket := ⟨[], [.ready 2, .later]⟩

def knobs : Knobs := ⟨⟨0⟩, ⟨1⟩, ⟨2⟩, ⟨3⟩, ⟨4⟩⟩

def sevens : Xoshiro := SmallRng.fromSeed (List.replicate 32 7)

/-- A write that has to be polled again, between a flush and a shutdown. -/
def polled : List WriteOp :=
  [.write (.scalar [1, 2, 3]), .flush, .write (.scalar [3, 4]), .write (.scalar [3, 4]), .shutdown]

/-- A run through the whole stack. -/
theorem byte_integrity_moody :
    (polls Socket Xoshiro rough).Throughout (fun past s => Woven [] s.2 past s.1.state)
      (⟨5, (new rough 0 moody knobs sevens).1⟩, []) polled :=
  (byte_integrity rough 0 5 moody knobs sevens polled (by decide)).2

end Pipeline

end Trixter
