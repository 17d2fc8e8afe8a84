import Trixter.Backlog

/-!
# The injectors

`injector.rs`. Messages queued on a channel are spliced into the stream: `ReadInjector` delivers
them before it polls the inner reader, `WriteInjector` writes them out before the caller's buffer.

The receiving end of the channel holds what has arrived and not been received. A message that
another task sends during a poll is one that had arrived before it, or one that arrives after it:
the adapter looks at the channel only through `pollRecv`, and a channel that is held back for want
of budget looks empty to it.
-/

namespace Trixter

open Trixter.Lib

/-- `mpsc::Receiver<Bytes>`. -/
structure InjectRx where
  queue : List (List UInt8)
  closed : Bool
  deriving DecidableEq, Repr

/-- What `poll_recv` answers. -/
inductive Recv where
  | pending
  | closed
  | message (bytes : List UInt8)
  deriving DecidableEq, Repr

namespace InjectRx

/-- `poll_recv`: the oldest message that has arrived. A closed channel still delivers what is
queued; a task without budget gets nothing. -/
def pollRecv : Io InjectRx Recv := do
  if ← proceeds then
    Polling.modifyGet fun rx =>
      match rx.queue with
      | [] => (if rx.closed then .closed else .pending, rx)
      | bytes :: queue => (.message bytes, { rx with queue })
  else
    return .pending

/-- A message arrives. -/
def arrive (rx : InjectRx) (bytes : List UInt8) : InjectRx :=
  { rx with queue := rx.queue ++ [bytes] }

end InjectRx

structure ReadInjector (T : Type) where
  inner : T
  buffer : Option (List UInt8)
  injectRx : InjectRx
  deriving DecidableEq, Repr

namespace ReadInjector

variable {T α : Type}

def new (inner : T) (injectRx : InjectRx) : ReadInjector T := { inner, buffer := none, injectRx }

/-- A call on `this.inject_rx`. -/
def onRx (m : Io InjectRx α) : Io (ReadInjector T × ReadBuf) α :=
  m.zoom (·.1.injectRx) fun s injectRx => ({ s.1 with injectRx }, s.2)

/-- A call on the caller's buffer. -/
def onBuf (m : Io ReadBuf α) : Io (ReadInjector T × ReadBuf) α :=
  m.zoom (·.2) fun s buf => (s.1, buf)

/-- Hand over what fits of the stored message, and clear it once it is all delivered. -/
def replay (buffer : List UInt8) : Io (ReadInjector T × ReadBuf) Unit := do
  let n := min (← Polling.get).2.remaining buffer.length
  onBuf (ReadBuf.putSlice (buffer.take n))
  let rest := buffer.drop n
  Polling.modify fun s =>
    ({ s.1 with buffer := if rest.isEmpty then none else some rest }, s.2)

/-- The second round of the loop always finds a stored message, so the loop is these two. -/
instance [AsyncRead T] : AsyncRead (ReadInjector T) where
  pollRead := do
    match (← Polling.get).1.buffer with
    | some buffer => replay buffer
    | none =>
      match ← onRx InjectRx.pollRecv with
      | .message buffer => replay buffer
      | .closed => -- ignore closed or pending channel
        passRead (·.inner) fun s inner => { s with inner }
      | .pending =>
        passRead (·.inner) fun s inner => { s with inner }

instance [AsyncBufRead T] : AsyncBufRead (ReadInjector T) where
  pollFillBuf := pollFillBuf.zoom (·.inner) fun s inner => { s with inner }
  consume amt s := { s with inner := AsyncBufRead.consume amt s.inner }

/-- Writes go to the inner stream untouched. -/
instance [AsyncWrite T] : AsyncWrite (ReadInjector T) where
  pollWrite buf := (pollWrite buf).zoom (·.inner) fun s inner => { s with inner }
  pollWriteVectored bufs := (pollWriteVectored bufs).zoom (·.inner) fun s inner => { s with inner }
  pollFlush := pollFlush.zoom (·.inner) fun s inner => { s with inner }
  pollShutdown := pollShutdown.zoom (·.inner) fun s inner => { s with inner }

end ReadInjector

structure WriteInjector (T : Type) where
  inner : T
  buffer : Option (List UInt8)
  injectRx : InjectRx
  deriving DecidableEq, Repr

namespace WriteInjector

variable {T α : Type}

def new (inner : T) (injectRx : InjectRx) : WriteInjector T := { inner, buffer := none, injectRx }

/-- A call on `this.inner`. -/
def onInner (m : Io T α) : Io (WriteInjector T) α :=
  m.zoom (·.inner) fun s inner => { s with inner }

/-- A call on `this.inject_rx`. -/
def onRx (m : Io InjectRx α) : Io (WriteInjector T) α :=
  m.zoom (·.injectRx) fun s injectRx => { s with injectRx }

/-- A call on the inner writer and the block stored for it. -/
def onBacklog (m : Io (Backlog T) α) : Io (WriteInjector T) α :=
  m.zoom (fun s => ⟨s.inner, s.buffer⟩) fun s t => { s with inner := t.inner, buffer := t.buffer }

/-- The loop of `poll_write`, up to the caller's buffer. Each round but the last receives one
queued message. -/
def injectLoop [AsyncWrite T] : Nat → Io (WriteInjector T) Unit
  | 0 => return ()
  | rounds + 1 => do
    onBacklog Backlog.drain
    match ← onRx InjectRx.pollRecv with
    | .message buffer =>
      Polling.modify fun s => { s with buffer := some buffer }
      injectLoop rounds
    | .closed => return () -- ignore closed or not ready channel
    | .pending => return ()

instance [AsyncWrite T] : AsyncWrite (WriteInjector T) where
  pollWrite buf := do
    injectLoop ((← Polling.get).injectRx.queue.length + 1)
    onInner (pollWrite buf)
  pollWriteVectored bufs := onInner (pollWriteVectored bufs)
  pollFlush := onInner pollFlush
  pollShutdown := onInner pollShutdown

instance [AsyncRead T] : AsyncRead (WriteInjector T) where
  pollRead := passRead (·.inner) fun s inner => { s with inner }

instance [AsyncBufRead T] : AsyncBufRead (WriteInjector T) where
  pollFillBuf := onInner pollFillBuf
  consume amt s := { s with inner := AsyncBufRead.consume amt s.inner }

end WriteInjector

end Trixter
