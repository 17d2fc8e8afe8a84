import Trixter.Io

/-!
# Stored blocks

`Corrupter` and `WriteInjector` both store a block of bytes that has to reach the inner writer
before the caller's next byte, and both drain it with the same loop over `Bytes::advance`.
-/

namespace Trixter

open Trixter.Lib

/-- An inner writer with the block stored for it, if any. -/
structure Backlog (T : Type) where
  inner : T
  buffer : Option (List UInt8)
  deriving DecidableEq, Repr

namespace Backlog

variable {T : Type}

/-- A call on `this.inner`. -/
def onInner {α : Type} (m : Io T α) : Io (Backlog T) α :=
  m.zoom (·.inner) fun s inner => { s with inner }

/-- The bytes stored. -/
def stored (s : Backlog T) : List UInt8 := s.buffer.getD []

/-- `Bytes::advance`: dropping more bytes than there are panics. -/
def advance (size : Nat) : Io (Backlog T) Unit := do
  let s ← Polling.get
  if size ≤ s.stored.length then
    Polling.modify fun s => { s with buffer := some (s.stored.drop size) }
  else
    Polling.panic "cannot advance past `remaining`"

/-- `while !buffer.is_empty()`. Each round takes at least one byte off, so as many rounds as there
are bytes empty the block. -/
def drainLoop [AsyncWrite T] : Nat → Io (Backlog T) Unit
  | 0 => return ()
  | rounds + 1 => do
    let block := (← Polling.get).stored
    if block.isEmpty then
      return ()
    else
      let size ← onInner (pollWrite block)
      if size = 0 then
        Polling.fail (.writeZero "write zero bytes")
      else
        advance size
        drainLoop rounds

/-- Write the stored block out and clear the store; with no block stored, nothing. -/
def drain [AsyncWrite T] : Io (Backlog T) Unit := do
  match (← Polling.get).buffer with
  | none => return ()
  | some block =>
    drainLoop block.length
    Polling.modify fun s => { s with buffer := none } -- clear buffer

end Backlog

end Trixter
