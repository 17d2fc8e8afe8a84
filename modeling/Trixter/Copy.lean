import Trixter.Io

/-!
# The copy between two streams

`handle_connection` gives both wrapped sockets to tokio's `copy_bidirectional`, whose code is not in
the repository. One direction of it is a parameter here: a `Transfer`, with the stage its state is at
between two polls. `Transfer.Lawful` is what the repository relies on of it: it reads while its buffer
has room, then writes what it holds, and when nothing is left to read it flushes the writer, shuts it
down and is never polled again.
-/

namespace Trixter

open Trixter.Lib

/-- Where a direction stands between two polls. `due` is whether something is left to flush. -/
inductive Stage where
  /-- The buffer has room, and the reader has not ended. -/
  | reading (unsent : List UInt8) (due : Bool)
  | full (unsent : List UInt8)
  /-- The reader has ended. -/
  | draining (unsent : List UInt8)
  /-- All is written and flushed, and the writer is being shut down. -/
  | closing
  | finished
  deriving DecidableEq, Repr

/-- The failure of a copy whose writer takes no byte. -/
def writeZeroError : IoError := .writeZero "write zero byte into writer"

/-- Write until nothing is left. Every turn moves a byte, so as many turns as bytes are enough. -/
def pushAll {W : Type} [AsyncWrite W] : Nat → List UInt8 → Io W Unit
  | 0, _ => return ()
  | turns + 1, unsent =>
    if unsent = [] then
      return ()
    else do
      let n ← pollWrite unsent
      if n = 0 then
        Polling.fail writeZeroError
      else
        pushAll turns (unsent.drop n)

namespace Stage

/-- Nothing is read before what is held has been written. -/
def Writing (p : Stage) : Prop := ∀ unsent due, p ≠ .reading unsent due

/-- There is no room to read into. -/
def Full (p : Stage) : Prop := ∃ unsent, p = .full unsent

/-- The polls of the writer that come before the next read, or that end the direction. -/
def writeOut {W : Type} [AsyncWrite W] : Stage → Io W Unit
  | .reading _ _ => return ()
  | .full unsent => pushAll unsent.length unsent
  | .draining unsent => do
    pushAll unsent.length unsent
    pollFlush
    pollShutdown
  | .closing => pollShutdown
  | .finished => return ()

end Stage

/-- One direction of the copy: `poll` is one poll of it, and `window` is the part of its buffer that
the next read is given. -/
structure Transfer (S R W : Type) where
  start : S
  poll : Io (S × R × W) Unit
  stage : S → Stage
  window : S → ReadBuf

namespace Transfer

variable {S R W : Type}

/-- What the reader answers to the direction's next read. -/
def reads [AsyncRead R] (d : Transfer S R W) (env : World) (k : Nat) (s : S) (r : R) :
    Poll IoError Unit :=
  (pollRead env k (r, d.window s)).result

/-- Nothing to read, to write or to flush. -/
def Idle [AsyncRead R] (d : Transfer S R W) (env : World) (k : Nat) (s : S) (r : R) : Prop :=
  d.stage s = .reading [] false ∧ d.reads env k s r = .pending

instance [AsyncRead R] (d : Transfer S R W) (env : World) (k : Nat) (s : S) (r : R) :
    Decidable (d.Idle env k s r) :=
  inferInstanceAs (Decidable (_ ∧ _))

end Transfer

/-- Every poll of the writer fails with `e`. -/
structure Refuses {W : Type} [AsyncWrite W] (env : World) (e : IoError) (w : W) : Prop where
  write : ∀ k buf, (pollWrite buf env k w).result = .err e
  flush : ∀ k, (pollFlush env k w).result = .err e
  shutdown : ∀ k, (pollShutdown env k w).result = .err e

/-- Every read fails with `e`. -/
def RefusesReads {R : Type} [AsyncRead R] (env : World) (e : IoError) (r : R) : Prop :=
  ∀ k buf, (pollRead env k (r, buf)).result = .err e

/-- How a direction goes about its work. -/
structure Transfer.Lawful {S R W : Type} [AsyncRead R] [AsyncWrite W] (d : Transfer S R W) :
    Prop where
  /-- A full buffer holds something. -/
  full_ne : ∀ s, d.stage s ≠ .full []
  /-- With room in the buffer it reads first, and a read that fails ends the poll. -/
  stops : ∀ env k s r w unsent due, d.stage s = .reading unsent due →
    d.reads env k s r ≠ .pending → d.reads env k s r ≠ .ok () →
    (d.poll env k (s, r, w)).result = d.reads env k s r
  /-- With nothing to read, to write or to flush it waits. -/
  idles : ∀ env k s r w, d.Idle env k s r → (d.poll env k (s, r, w)).result = .pending
  /-- After a read that found something or its end, and with something held or left to flush, it
  turns to the writer. -/
  speaks : ∀ env k s r w e unsent due, d.stage s = .reading unsent due → Refuses env e w →
    d.reads env k s r = .ok () ∨ d.reads env k s r = .pending ∧ (unsent ≠ [] ∨ due = true) →
    (d.poll env k (s, r, w)).result = .err e
  /-- Otherwise it turns to the writer at once, and leaves the reader alone unless a full buffer has
  been written. -/
  writes : ∀ env k s r w (Q : Poll IoError Unit → R × W → Nat → Prop), (d.stage s).Writing →
    ((d.stage s).writeOut.wp env k w fun a w' k' =>
      (a = .ok () → ¬(d.stage s).Full) ∧ Q a (r, w') k') →
    d.poll.wp env k (s, r, w) fun a t k' => Q a t.2 k'
  /-- A full buffer that has been written is filled again. -/
  refills : ∀ env k s r w e, (d.stage s).Full → RefusesReads env e r →
    ((d.stage s).writeOut env k w).result = .ok () → (d.poll env k (s, r, w)).result = .err e

/-- Both directions of a copy under way, and the streams between which they copy. -/
structure Copying (A B D U : Type) where
  aToB : A
  bToA : B
  downstream : D
  upstream : U
  deriving DecidableEq, Repr

namespace Copying

variable {A B D U : Type}

/-- A poll of the direction from `downstream` to `upstream`. -/
def onThere (m : Io (A × D × U) Unit) : Io (Copying A B D U) Unit :=
  m.zoom (fun c => (c.aToB, c.downstream, c.upstream)) fun c t =>
    { c with aToB := t.1, downstream := t.2.1, upstream := t.2.2 }

/-- A poll of the direction from `upstream` to `downstream`. -/
def onBack (m : Io (B × U × D) Unit) : Io (Copying A B D U) Unit :=
  m.zoom (fun c => (c.bToA, c.upstream, c.downstream)) fun c t =>
    { c with bToA := t.1, upstream := t.2.1, downstream := t.2.2 }

end Copying

/-- One poll of `copy_bidirectional`: each direction in turn, and ready once both are. -/
def copyBidirectional {A B D U : Type} (there : Transfer A D U) (back : Transfer B U D) :
    Io (Copying A B D U) Unit := do
  let aToB ← (Copying.onThere there.poll).orPending
  let bToA ← (Copying.onBack back.poll).orPending
  match aToB, bToA with
  | some _, some _ => return ()
  | _, _ => Polling.pend

end Trixter
