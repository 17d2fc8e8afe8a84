import Trixter.Io

/-!
# The counting reader

`rate_counting_reader.rs`. It counts the bytes that its reads hand over, up to the largest `u64`, and
takes the time of the first of them. `rate_bps`, the quotient of the two as a float, is left out but for
when there is one.
-/

namespace Trixter

open Trixter.Lib

structure RateCountingReader (T : Type) where
  inner : T
  totalBytes : UInt64
  start : Option Nat
  deriving DecidableEq, Repr

namespace RateCountingReader

variable {T α : Type}

def new (inner : T) : RateCountingReader T := { inner, totalBytes := 0, start := none }

/-- `total`. -/
def total (s : RateCountingReader T) : UInt64 := s.totalBytes

/-- `start_instant`. -/
def startInstant (s : RateCountingReader T) : Option Nat := s.start

/-- Whether `rate_bps` answers with a rate. -/
def hasRate (s : RateCountingReader T) : Bool := s.start.isSome

/-- `reset`. -/
def reset (s : RateCountingReader T) : RateCountingReader T := { s with totalBytes := 0, start := none }

/-- A call on `this.inner`. -/
def onInner (m : Io T α) : Io (RateCountingReader T) α :=
  m.zoom (·.inner) fun s inner => { s with inner }

/-- The part of `poll_read` after a success. -/
def count (diff : Nat) : Io (RateCountingReader T) Unit := do
  if 0 < diff then
    Polling.modify fun s =>
      { s with totalBytes := UInt64.ofNat (min (s.totalBytes.toNat + diff) (2 ^ 64 - 1)) }
    if (← Polling.get).start.isNone then
      let start ← now
      Polling.modify fun s => { s with start := some start }
    else
      return ()
  else
    return ()

instance [AsyncRead T] : AsyncRead (RateCountingReader T) where
  pollRead := do
    let before := (← Polling.get).2.filled.length
    passRead (·.inner) fun s inner => { s with inner }
    let after := (← Polling.get).2.filled.length
    (count (after - before)).zoom (·.1) fun s t => (t, s.2)

instance [AsyncWrite T] : AsyncWrite (RateCountingReader T) where
  pollWrite buf := onInner (pollWrite buf)
  pollWriteVectored bufs := onInner (pollWriteVectored bufs)
  pollFlush := onInner pollFlush
  pollShutdown := onInner pollShutdown

end RateCountingReader

end Trixter
