import Trixter.Lib.Runs
import Trixter.Io

/-!
# Histories of polls

Writers and readers as machines, and a caller's books: the bytes its writes reported accepted, and
the write that is still outstanding.
-/

namespace Trixter

open Trixter.Lib

/-- The polls of a writer, with their answers. -/
abbrev Writes := History WriteOp (Poll IoError Nat)

/-- A writer's polls as a machine. -/
def writes (W : Type) [AsyncWrite W] (env : World) :
    Machine (Paced W) WriteOp (Poll IoError Nat) :=
  Polling.machine env WriteOp.poll

/-- What is known of a poll of the operation is known of the machine's step. -/
theorem writes_step {W : Type} [AsyncWrite W] (env : World) (s : Paced W) (op : WriteOp)
    {Q : Poll IoError Nat → W → Nat → Prop} (h : op.poll.wp env s.moment s.state Q) :
    Q ((writes W env).step s op).1 ((writes W env).step s op).2.state
      ((writes W env).step s op).2.moment := h

/-- A reader's polls as a machine. -/
def reads (T : Type) [AsyncBufRead T] (env : World) :
    Machine (Paced T) ReadCall (Poll IoError (List UInt8)) :=
  Polling.machine env ReadCall.poll

/-- No poll of the run unwinds. -/
abbrev AllCalm {σ ι α : Type} (m : Machine σ ι (Poll IoError α)) (s : σ) (is : List ι) : Prop :=
  m.Allowed (fun _ s i => Calm (m.step s i).1) s is

/-- The prefixes reported accepted, in order. -/
def acceptedBytes (past : Writes) : List UInt8 := past.flatMap fun e => accepted e.2 e.1.offer

/-- The outstanding write after one more poll: what an unsuccessful write offered, until a write
succeeds. -/
def settle (out : Option (List UInt8)) (e : WriteOp × Poll IoError Nat) : Option (List UInt8) :=
  match e.1, e.2 with
  | .write _, .ok _ => none
  | .write call, _ => some call.content
  | _, _ => out

/-- What the last write offered, if it was not accepted yet. -/
def outstanding (past : Writes) : Option (List UInt8) := past.foldl settle none

/-- After a write that was not accepted the caller offers the same buffer again, or that buffer with
more bytes appended. -/
def Reoffers (past : Writes) : WriteOp → Prop
  | .write call => ∀ b ∈ outstanding past, b <+: call.content
  | .flush => True
  | .shutdown => True

instance (past : Writes) : (op : WriteOp) → Decidable (Reoffers past op)
  | .write call => inferInstanceAs (Decidable (∀ b ∈ outstanding past, b <+: call.content))
  | .flush => inferInstanceAs (Decidable True)
  | .shutdown => inferInstanceAs (Decidable True)

variable {past : Writes} {call : WriteCall} {r : Poll IoError Nat}

@[simp] theorem acceptedBytes_snoc {op : WriteOp} :
    acceptedBytes (past ++ [(op, r)]) = acceptedBytes past ++ accepted r op.offer := by
  simp only [acceptedBytes, List.flatMap_append, List.flatMap_singleton]

@[simp] theorem outstanding_snoc {op : WriteOp} :
    outstanding (past ++ [(op, r)]) = settle (outstanding past) (op, r) := by
  simp only [outstanding, List.foldl_append, List.foldl_cons, List.foldl_nil]

@[simp] theorem settle_ok {out : Option (List UInt8)} {n : Nat} :
    settle out (.write call, .ok n) = none := rfl

theorem settle_of_not_ok {out : Option (List UInt8)} (h : ∀ n, r ≠ .ok n) :
    settle out (.write call, r) = some call.content := by
  cases r with
  | ok n => exact absurd rfl (h n)
  | _ => rfl

end Trixter
