import Trixter.Io

/-!
# The slicing writer

`slicer.rs`. Each write forwards at most one slice and then flushes the inner writer before it
reports the slice written. While that flush is pending the writer is in phase `Flushing`, with
the count it will report. A size of zero switches slicing off.
-/

namespace Trixter

open Trixter.Lib

/-- `trait Size`: the slice budget in bytes, zero for off. The two methods are two reads. -/
class Size (S : Type) where
  size : World → S → Nat → UInt64
  isZero : World → S → Nat → Bool

/-- A plain `usize`. -/
instance : Size UInt64 where
  size _ s _ := s
  isZero _ s _ := s == 0

/-- A shared size knob: the address of its atomic. -/
structure DynamicSize where
  cell : Nat
  deriving DecidableEq, Repr

instance : Size DynamicSize where
  size env s k := env.atomics s.cell k
  isZero env s k := env.atomics s.cell k == 0

inductive Phase where
  /-- Issue a (possibly limited) write to the inner writer. -/
  | writing
  /-- A write just completed; its count is reported once the flush completes. -/
  | flushing (written : Nat)
  deriving DecidableEq, Repr

structure SlicedWriter (T S : Type) where
  inner : T
  size : S
  phase : Phase
  deriving DecidableEq, Repr

namespace SlicedWriter

variable {T S α : Type}

def new (inner : T) (size : S) : SlicedWriter T S := { inner, size, phase := .writing }

/-- A call on `this.inner`. -/
def onInner (m : Io T α) : Io (SlicedWriter T S) α :=
  m.zoom (·.inner) fun s inner => { s with inner }

/-- `this.size.is_zero()`. -/
def isZero [Size S] : Io (SlicedWriter T S) Bool :=
  Polling.observe fun env k s => Size.isZero env s.size k

/-- `this.size.size()`. -/
def readSize [Size S] : Io (SlicedWriter T S) UInt64 :=
  Polling.observe fun env k s => Size.size env s.size k

/-- The `Phase::Flushing(size)` arm of both loops. -/
def flushSlice [AsyncWrite T] (size : Nat) : Io (SlicedWriter T S) Nat := do
  onInner pollFlush
  Polling.modify fun s => { s with phase := .writing }
  return size

/-- The end of the `Phase::Writing` arm of both loops: one inner write, then the other arm. -/
def writeSlice [AsyncWrite T] (call : Io T Nat) : Io (SlicedWriter T S) Nat := do
  let written ← onInner call
  Polling.modify fun s => { s with phase := .flushing written }
  flushSlice written

/-- The loop that trims the caller's buffers to the slice. -/
def limitSlices : Nat → List (List UInt8) → List (List UInt8)
  | _, [] => []
  | remaining, s :: bufs =>
    if remaining = 0 then []
    else if s.length ≤ remaining then s :: limitSlices (remaining - s.length) bufs
    else s.take remaining :: limitSlices 0 bufs

instance [Size S] [AsyncWrite T] : AsyncWrite (SlicedWriter T S) where
  pollWrite buf := do
    if (← isZero) || buf.isEmpty then
      onInner (pollWrite buf)
    else
      let size ← readSize
      match (← Polling.get).phase with
      | .writing =>
        let chunkLen := min buf.length size.toNat
        if chunkLen = 0 then
          return 0
        else
          writeSlice (pollWrite (buf.take chunkLen))
      | .flushing size => flushSlice size
  pollWriteVectored bufs := do
    if (← isZero) || bufs.isEmpty then
      onInner (pollWriteVectored bufs)
    else
      match (← Polling.get).phase with
      | .writing =>
        let remaining ← readSize
        writeSlice (pollWriteVectored (limitSlices remaining.toNat bufs))
      | .flushing size => flushSlice size
  pollFlush := onInner pollFlush
  pollShutdown := onInner pollShutdown

instance [AsyncRead T] : AsyncRead (SlicedWriter T S) where
  pollRead := passRead (·.inner) fun s inner => { s with inner }

instance [AsyncBufRead T] : AsyncBufRead (SlicedWriter T S) where
  pollFillBuf := onInner pollFillBuf
  consume amt s := { s with inner := AsyncBufRead.consume amt s.inner }

end SlicedWriter

end Trixter
