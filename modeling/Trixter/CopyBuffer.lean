import Trixter.Copy
import Trixter.Lib.Poll

/-!
# A direction of a copy

One `Transfer`, for any reader and writer: a buffer of 8 KiB that is filled while it has room and
written out, and a writer that is shut down once the reader has ended.
-/

namespace Trixter

open Trixter.Lib

/-- What is left to do: copy, shut the writer down, or nothing. -/
inductive TransferState where
  | running
  | shuttingDown
  | done
  deriving DecidableEq, Repr

/-- The buffer: its front has been written, and what follows has not. Once all of it has been written
it is empty. -/
structure CopyBuffer where
  written : List UInt8
  unsent : List UInt8
  readDone : Bool
  needFlush : Bool
  state : TransferState
  reset : unsent = [] → written = []
  deriving DecidableEq

namespace CopyBuffer

variable {R W α : Type}

/-- The size of the buffer. -/
def capacity : Nat := 8 * 1024

/-- An empty buffer. -/
def start : CopyBuffer where
  written := []
  unsent := []
  readDone := false
  needFlush := false
  state := .running
  reset _ := rfl

/-- The buffer as a reader is given it. -/
def window (b : CopyBuffer) : ReadBuf := ⟨b.written ++ b.unsent, capacity⟩

/-- There is room to read into. -/
def hasRoom (b : CopyBuffer) : Bool := decide (b.written.length + b.unsent.length < capacity)

/-- A read has ended with `buf`: nothing new in it is the end of the stream. -/
def refill (buf : ReadBuf) (b : CopyBuffer) : CopyBuffer where
  written := b.written
  unsent := b.unsent ++ buf.filled.drop (b.written.length + b.unsent.length)
  readDone := (buf.filled.drop (b.written.length + b.unsent.length)).isEmpty
  needFlush := b.needFlush
  state := b.state
  reset none := b.reset (List.append_eq_nil_iff.mp none).1

/-- `n` more bytes have been written. -/
def advance (n : Nat) (b : CopyBuffer) : CopyBuffer where
  written := if b.unsent.drop n = [] then [] else b.written ++ b.unsent.take n
  unsent := b.unsent.drop n
  readDone := b.readDone
  needFlush := true
  state := b.state
  reset none := if_pos none

/-- Where the direction stands. -/
def stage (b : CopyBuffer) : Stage :=
  match b.state with
  | .done => .finished
  | .shuttingDown => .closing
  | .running =>
    if b.readDone then .draining b.unsent
    else if b.hasRoom then .reading b.unsent b.needFlush
    else .full b.unsent

/-- A call on the writer. -/
def onWriter (m : Io W α) : Io (CopyBuffer × R × W) α :=
  m.zoom (·.2.2) fun s w => (s.1, s.2.1, w)

/-- Read into the room there is. -/
def fill [AsyncRead R] : Io (CopyBuffer × R × W) Unit := do
  let b := (← Polling.get).1
  let buf ← (Polling.lend b.window pollRead).zoom (·.2.1) fun s r => (s.1, r, s.2.2)
  Polling.modify fun s => (s.1.refill buf, s.2)

/-- With nothing to read and nothing to write, flush what was written, and wait. -/
def rest [AsyncWrite W] : Io (CopyBuffer × R × W) Unit := do
  let b := (← Polling.get).1
  if b.unsent = [] then
    if b.needFlush then
      onWriter pollFlush
      Polling.modify fun s => ({ s.1 with needFlush := false }, s.2)
      Polling.pend
    else
      Polling.pend
  else
    return ()

/-- Read, as long as there is room and the reader has not ended. -/
def readFirst [AsyncRead R] [AsyncWrite W] : Io (CopyBuffer × R × W) Unit := do
  let b := (← Polling.get).1
  if b.hasRoom && !b.readDone then
    match ← fill.orPending with
    | some _ => return ()
    | none => rest
  else
    return ()

/-- Write out what the buffer holds, in at most so many writes. -/
def drain [AsyncWrite W] : Nat → Io (CopyBuffer × R × W) Unit
  | 0 => return ()
  | turns + 1 => do
    let b := (← Polling.get).1
    if b.unsent = [] then
      return ()
    else do
      let n ← onWriter (pollWrite b.unsent)
      if n = 0 then
        Polling.fail writeZeroError
      else do
        Polling.modify fun s => (s.1.advance n, s.2)
        drain turns

/-- Write all that is held, and flush it if the reader has ended. -/
def writeTurn [AsyncWrite W] (onwards : Io (CopyBuffer × R × W) Unit) :
    Io (CopyBuffer × R × W) Unit := do
  drain (← Polling.get).1.unsent.length
  if (← Polling.get).1.readDone then onWriter pollFlush else onwards

/-- Read and write in turns, until the reader has ended and all is flushed. -/
def copy [AsyncRead R] [AsyncWrite W] : Nat → Io (CopyBuffer × R × W) Unit
  | 0 => Polling.pend
  | turns + 1 => do
    readFirst
    writeTurn (copy turns)

/-- The last step: shut the writer down. -/
def close [AsyncWrite W] : Io (CopyBuffer × R × W) Unit := do
  onWriter pollShutdown
  Polling.modify fun s => ({ s.1 with state := .done }, s.2)

/-- One poll of the direction. The runtime lets a task go round a limited number of times. -/
def poll [AsyncRead R] [AsyncWrite W] : Io (CopyBuffer × R × W) Unit := do
  match (← Polling.get).1.state with
  | .running => do
    copy 128
    Polling.modify fun s => ({ s.1 with state := .shuttingDown }, s.2)
    close
  | .shuttingDown => close
  | .done => return ()

/-- The direction between two streams. -/
def transfer (R W : Type) [AsyncRead R] [AsyncWrite W] : Transfer CopyBuffer R W where
  start := start
  poll := poll
  stage := stage
  window := window

end CopyBuffer

end Trixter
