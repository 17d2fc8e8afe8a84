import Trixter.Io

/-!
# The shutdowner

`shutdowner.rs`. Every poll of the wrapper first asks a oneshot channel whether it has been told to
stop, and then fails without touching the inner stream.
-/

namespace Trixter

open Trixter.Lib

/-- `oneshot::Receiver<BError>`: what it would find, which is nothing yet, the error that was sent,
or that the sender was dropped; or that it has completed. -/
inductive Oneshot where
  | waiting
  | sent (err : BError)
  | dropped
  | complete
  deriving DecidableEq, Repr

namespace Oneshot

/-- Polling the receiver. The answer is the error that was sent, or `none` for a dropped sender; a
receiver that has answered must not be polled again. A task without budget learns nothing. -/
def poll : Io Oneshot (Option BError) := do
  if (← Polling.get) = .complete then
    Polling.panic "called after complete"
  else if ← proceeds then
    match ← Polling.get with
    | .sent err => do
      Polling.modify fun _ => .complete
      return some err
    | .dropped => do
      Polling.modify fun _ => .complete
      return none
    | _ => Polling.pend
  else
    Polling.pend

/-- The sender sends, if it is still there. -/
def send (err : BError) : Oneshot → Oneshot
  | .waiting => .sent err
  | rx => rx

/-- The sender goes away. What it sent before stays in the channel. -/
def hangUp : Oneshot → Oneshot
  | .waiting => .dropped
  | rx => rx

end Oneshot

/-- `errRx` is `none` once the channel has answered. -/
structure Shutdowner (T : Type) where
  inner : T
  errRx : Option Oneshot
  deriving DecidableEq, Repr

namespace Shutdowner

variable {T α : Type}

/-- `Shutdowner::new`, with a channel nobody has used. -/
def new (inner : T) : Shutdowner T := { inner, errRx := some .waiting }

/-- A call on `self.inner`. -/
def onInner (m : Io T α) : Io (Shutdowner T) α :=
  m.zoom (·.inner) fun s inner => { s with inner }

/-- `poll_error`: not ready while the channel is, else the error. -/
def pollError : Io (Shutdowner T) Unit := do
  match (← Polling.get).errRx with
  | none => Polling.fail (.other .shutdown)
  | some rx => do
    let (ret, rx) ← Polling.inside rx Oneshot.poll
    Polling.modify fun s => { s with errRx := some rx }
    match ret with
    | .ok ret => do
      Polling.modify fun s => { s with errRx := none }
      match ret with
      | some err => Polling.fail (.other err)
      | none => Polling.fail (.other .shutdown) -- dropped
    | .pending => Polling.pend -- no error, continue
    | .err e => Polling.fail e
    | .panicked message => Polling.panic message

/-- The shape of every guarded entry point: `_ = self.poll_error(cx)?`, then the inner call. -/
def guarded (call : Io T α) : Io (Shutdowner T) α := do
  let _ ← pollError.orPending
  onInner call

instance [AsyncWrite T] : AsyncWrite (Shutdowner T) where
  pollWrite buf := guarded (pollWrite buf)
  pollWriteVectored bufs := guarded (pollWriteVectored bufs)
  pollFlush := guarded pollFlush
  pollShutdown := guarded pollShutdown

instance [AsyncRead T] : AsyncRead (Shutdowner T) where
  pollRead := do
    let _ ← (pollError.zoom (·.1) fun s t => (t, s.2)).orPending
    passRead (·.inner) fun s inner => { s with inner }

/-- Consuming is not guarded. -/
instance [AsyncBufRead T] : AsyncBufRead (Shutdowner T) where
  pollFillBuf := guarded pollFillBuf
  consume amt s := { s with inner := AsyncBufRead.consume amt s.inner }

end Shutdowner

end Trixter
