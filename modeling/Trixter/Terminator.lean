import Trixter.Probability

/-!
# The terminator

`terminator.rs`. Each read, write, vectored write, flush and shutdown first asks `tryTrigger`; once
it has answered `true` the fuse stays blown.
-/

namespace Trixter

open Trixter.Lib

/-- `io::Error::other(TERMINATED_ERROR)`. -/
def terminatedError : IoError := .other .terminated

structure Terminator (T P G : Type) where
  inner : T
  prob : P
  rng : G
  triggered : Bool
  deriving DecidableEq, Repr

namespace Terminator

variable {T P G α : Type}

/-- `Terminator::from_seed`. -/
def fromSeed [SmallRng G] (inner : T) (prob : P) (seed : List UInt8) : Terminator T P G :=
  { inner, prob, rng := SmallRng.fromSeed seed, triggered := false }

/-- `Terminator::from_rng`, with the generator it was seeded from moved on. -/
def fromRng [SmallRng G] (inner : T) (prob : P) (rng : G) : Terminator T P G × G :=
  ({ inner, prob, rng := (SmallRng.fromRng rng).1, triggered := false }, (SmallRng.fromRng rng).2)

/-- A call on `this.inner`. -/
def onInner (m : Io T α) : Io (Terminator T P G) α :=
  m.zoom (·.inner) fun s inner => { s with inner }

/-- `try_trigger(this.triggered, this.rng, this.prob)`. -/
def trigger [SmallRng G] [Probability P] : Io (Terminator T P G) Bool :=
  tryTrigger.zoom (fun s => (s.triggered, s.rng, s.prob)) fun s t =>
    { s with triggered := t.1, rng := t.2.1, prob := t.2.2 }

/-- The shape of every guarded entry point: fail if the fuse blows, else the inner call. -/
def guarded [SmallRng G] [Probability P] (call : Io T α) : Io (Terminator T P G) α := do
  if ← trigger then
    Polling.fail terminatedError
  else
    onInner call

instance [SmallRng G] [Probability P] [AsyncWrite T] : AsyncWrite (Terminator T P G) where
  pollWrite buf := guarded (pollWrite buf)
  pollWriteVectored bufs := guarded (pollWriteVectored bufs)
  pollFlush := guarded pollFlush
  pollShutdown := guarded pollShutdown

instance [SmallRng G] [Probability P] [AsyncRead T] : AsyncRead (Terminator T P G) where
  pollRead := do
    if ← trigger.zoom (·.1) fun s t => (t, s.2) then
      Polling.fail terminatedError
    else
      passRead (·.inner) fun s inner => { s with inner }

/-- The buffered interface goes to the inner reader untouched, the fuse included. -/
instance [SmallRng G] [Probability P] [AsyncBufRead T] : AsyncBufRead (Terminator T P G) where
  pollFillBuf := onInner pollFillBuf
  consume amt s := { s with inner := AsyncBufRead.consume amt s.inner }

end Terminator

end Trixter
