import Trixter.Io

/-!
# Delay adapters

`delayer.rs`. A `Delay` is the timer state machine both adapters share: `Idle` until it is armed,
`Delayed` until its sleep fires. `DelayedWriter` passes each write, vectored write and shutdown
through it; `DelayedReader` the first read of each buffered burst.
-/

namespace Trixter

open Trixter.Lib

/-- `trait Duration`: a provider of delay values, in nanoseconds. Zero means disabled. -/
class Duration (D : Type) where
  duration : World → D → Nat → Nat

/-- A plain `std::time::Duration`, which may be longer than any clock runs. -/
instance : Duration Nat where
  duration _ d _ := d

/-- A shared delay knob: the address of its atomic number of nanoseconds. -/
structure DynamicDuration where
  cell : Nat
  deriving DecidableEq, Repr

instance : Duration DynamicDuration where
  duration env d k := (env.atomics d.cell k).toNat

/-- What a polled `Delay` asks of its adapter. -/
inductive Action where
  | beforeDelay
  | afterDelay
  deriving DecidableEq, Repr

/-- Whether the timer is armed. -/
inductive State where
  | idle
  | delayed
  deriving DecidableEq, Repr

structure Delay (D : Type) where
  state : State
  sleep : Sleep
  delayDuration : D
  deriving DecidableEq, Repr

namespace Delay

variable {D : Type}

/-- A fresh timer; its sleep was created already elapsed. -/
def new (created : Nat) (delayDuration : D) : Delay D :=
  { state := .idle, sleep := ⟨created⟩, delayDuration }

/-- If a delay is configured, arm the timer and answer `true`. The state changes first: where the delay
leads past the last `Instant`, it is `Delayed` behind a sleep that was not reset. -/
def maybeDelay [Duration D] : Io (Delay D) Bool := do
  match (← Polling.get).state with
  | .idle =>
    let duration ← Polling.observe fun env k (d : Delay D) => Duration.duration env d.delayDuration k
    if duration = 0 then
      return false -- shortcut for no delay
    else
      Polling.modify fun d => { d with state := .delayed }
      let deadline ← fromNow duration
      Polling.modify fun d => { d with sleep := d.sleep.reset deadline }
      return true
  | .delayed =>
    Polling.panic
      "internal error: entered unreachable code: trying to delay when state is already Delayed"

/-- `Future::poll`: ready before a delay, pending during it, ready once after it. -/
def poll : Io (Delay D) Action := do
  match (← Polling.get).state with
  | .idle => return .beforeDelay
  | .delayed =>
    Sleep.poll.zoom (fun d : Delay D => d.sleep) fun d sleep => { d with sleep }
    Polling.modify fun d => { d with state := .idle }
    return .afterDelay

end Delay

/-- Delays every write, vectored write and shutdown. -/
structure DelayedWriter (T D : Type) where
  inner : T
  delay : Delay D
  deriving DecidableEq, Repr

namespace DelayedWriter

variable {T D α : Type}

def new (created : Nat) (inner : T) (delayDuration : D) : DelayedWriter T D :=
  { inner, delay := Delay.new created delayDuration }

/-- A call on `this.inner`. -/
def onInner (m : Io T α) : Io (DelayedWriter T D) α :=
  m.zoom (·.inner) fun s inner => { s with inner }

/-- A call on `this.delay`. -/
def onDelay (m : Io (Delay D) α) : Io (DelayedWriter T D) α :=
  m.zoom (·.delay) fun s delay => { s with delay }

/-- The loop of `poll_with_write_delay`, cut off after a number of turns. -/
def delayLoop [Duration D] (f : Io T α) : Nat → Io (DelayedWriter T D) α
  | 0 => Polling.pend
  | turns + 1 => do
    match ← onDelay Delay.poll with
    | .beforeDelay =>
      if ← onDelay Delay.maybeDelay then
        delayLoop f turns -- poll the sleep
      else
        onInner f
    | .afterDelay => onInner f

/-- Run `f` on the inner writer once the delay is over. A second turn only comes with the timer
armed, and then the delay is pending or over: no third turn exists (`delayLoop_two`). -/
def pollWithWriteDelay [Duration D] (f : Io T α) : Io (DelayedWriter T D) α := delayLoop f 2

instance [Duration D] [AsyncWrite T] : AsyncWrite (DelayedWriter T D) where
  pollWrite buf := pollWithWriteDelay (pollWrite buf)
  pollWriteVectored bufs := pollWithWriteDelay (pollWriteVectored bufs)
  pollFlush := onInner pollFlush
  pollShutdown := pollWithWriteDelay pollShutdown

instance [AsyncRead T] : AsyncRead (DelayedWriter T D) where
  pollRead := passRead (·.inner) fun s inner => { s with inner }

instance [AsyncBufRead T] : AsyncBufRead (DelayedWriter T D) where
  pollFillBuf := onInner pollFillBuf
  consume amt s := { s with inner := AsyncBufRead.consume amt s.inner }

end DelayedWriter

/-- Delays the first read of each buffered burst. -/
structure DelayedReader (T D : Type) where
  inner : T
  delay : Delay D
  bufEmpty : Bool
  deriving DecidableEq, Repr

namespace DelayedReader

variable {T D α : Type}

def new (created : Nat) (inner : T) (delayDuration : D) : DelayedReader T D :=
  { inner, delay := Delay.new created delayDuration, bufEmpty := true }

/-- A call on `this.inner`. -/
def onInner (m : Io T α) : Io (DelayedReader T D × ReadBuf) α :=
  m.zoom (·.1.inner) fun s inner => ({ s.1 with inner }, s.2)

/-- A call on `this.delay`. -/
def onDelay (m : Io (Delay D) α) : Io (DelayedReader T D × ReadBuf) α :=
  m.zoom (·.1.delay) fun s delay => ({ s.1 with delay }, s.2)

/-- A call on the caller's buffer. -/
def onBuf (m : Io ReadBuf α) : Io (DelayedReader T D × ReadBuf) α :=
  m.zoom (·.2) fun s buf => (s.1, buf)

/-- The end of both arms: hand over what fits, consume it, and remember whether that was all. -/
def deliver [AsyncBufRead T] (rem : List UInt8) : Io (DelayedReader T D × ReadBuf) Unit := do
  let amt := min rem.length (← Polling.get).2.remaining
  onBuf (ReadBuf.putSlice (rem.take amt))
  Polling.modify fun s =>
    ({ s.1 with inner := AsyncBufRead.consume amt s.1.inner, bufEmpty := rem.length == amt }, s.2)

/-- The loop of `poll_read`, cut off after a number of turns. -/
def readLoop [Duration D] [AsyncBufRead T] : Nat → Io (DelayedReader T D × ReadBuf) Unit
  | 0 => Polling.pend
  | turns + 1 => do
    match ← onDelay Delay.poll with
    | .beforeDelay =>
      let rem ← onInner pollFillBuf -- waiting for new data to arrive
      let armed ← if (← Polling.get).1.bufEmpty then onDelay Delay.maybeDelay else pure false
      if armed then
        readLoop turns -- sleep in delay.poll()
      else
        deliver rem
    | .afterDelay =>
      match ← (onInner pollFillBuf).orPending with
      | some rem => deliver rem
      | none => Polling.panic "internal error: entered unreachable code: buffer can't be empty"

/-- As for the writer, a second turn comes with the timer armed and ends the loop. -/
instance [Duration D] [AsyncBufRead T] : AsyncRead (DelayedReader T D) where
  pollRead := readLoop 2

/-- The buffered interface goes to the inner reader untouched. -/
instance [Duration D] [AsyncBufRead T] : AsyncBufRead (DelayedReader T D) where
  pollFillBuf := pollFillBuf.zoom (·.inner) fun s inner => { s with inner }
  consume amt s := { s with inner := AsyncBufRead.consume amt s.inner }

/-- Writes go to the inner stream untouched. -/
instance [AsyncWrite T] : AsyncWrite (DelayedReader T D) where
  pollWrite buf := (pollWrite buf).zoom (·.inner) fun s inner => { s with inner }
  pollWriteVectored bufs := (pollWriteVectored bufs).zoom (·.inner) fun s inner => { s with inner }
  pollFlush := pollFlush.zoom (·.inner) fun s inner => { s with inner }
  pollShutdown := pollShutdown.zoom (·.inner) fun s inner => { s with inner }

end DelayedReader

end Trixter
