import Trixter.Backlog
import Trixter.Probability

/-!
# The corrupter

`corrupter.rs`. A write that the draw picks is preceded by a block of random bytes; a read that it
picks is answered with random bytes alone.
-/

namespace Trixter

open Trixter.Lib

def minRandomCorruptBufferSize : Nat := 1
def maxRandomCorruptBufferSize : Nat := 16 * 1024

structure Corrupter (T P G : Type) where
  inner : T
  prob : P
  rng : G
  writeBuffer : Option (List UInt8)
  deriving DecidableEq, Repr

namespace Corrupter

variable {T P G α : Type}

/-- `Corrupter::from_seed`. -/
def fromSeed [SmallRng G] (inner : T) (prob : P) (seed : List UInt8) : Corrupter T P G :=
  { inner, prob, rng := SmallRng.fromSeed seed, writeBuffer := none }

/-- `Corrupter::from_rng`, with the generator it was seeded from moved on. -/
def fromRng [SmallRng G] (inner : T) (prob : P) (rng : G) : Corrupter T P G × G :=
  ({ inner, prob, rng := (SmallRng.fromRng rng).1, writeBuffer := none }, (SmallRng.fromRng rng).2)

/-- A call on `this.inner`. -/
def onInner (m : Io T α) : Io (Corrupter T P G) α :=
  m.zoom (·.inner) fun s inner => { s with inner }

/-- A call on `this.rng`. -/
def onRng (m : Io G α) : Io (Corrupter T P G) α :=
  m.zoom (·.rng) fun s rng => { s with rng }

/-- A call on the inner writer and the block stored for it. -/
def onBacklog (m : Io (Backlog T) α) : Io (Corrupter T P G) α :=
  m.zoom (fun s => ⟨s.inner, s.writeBuffer⟩) fun s t =>
    { s with inner := t.inner, writeBuffer := t.buffer }

/-- `random_data_size`. -/
def randomDataSize [SmallRng G] (len : Nat) : Io G (List UInt8) :=
  Polling.modifyGet (SmallRng.fillBytes len)

/-- `random_data`: 1 to 16384 bytes. -/
def randomData [SmallRng G] : Io G (List UInt8) := do
  let size ← Polling.modifyGet
    (SmallRng.randomRange minRandomCorruptBufferSize maxRandomCorruptBufferSize)
  randomDataSize size

/-- `should_corrupt`: a zero threshold draws nothing. -/
def shouldCorrupt [SmallRng G] [Probability P] : Io (Corrupter T P G) Bool := do
  let threshold ← Polling.observe fun env k s => Probability.threshold env s.prob k
  if threshold = 0 then
    return false
  else
    let draw ← onRng nextU64
    return decide (draw < threshold)

/-- The loop of `poll_write`, up to the caller's buffer: drain the block that is stored, or the one
that this poll draws. -/
def synthesize [SmallRng G] [Probability P] [AsyncWrite T] : Io (Corrupter T P G) Unit := do
  match (← Polling.get).writeBuffer with
  | some _ => onBacklog Backlog.drain
  | none =>
    if ← shouldCorrupt then
      let data ← onRng randomData
      Polling.modify fun s => { s with writeBuffer := some data }
      onBacklog Backlog.drain
    else
      return () -- not triggered, write a real buffer

instance [SmallRng G] [Probability P] [AsyncWrite T] : AsyncWrite (Corrupter T P G) where
  pollWrite buf := do
    synthesize
    onInner (pollWrite buf)
  pollWriteVectored bufs := onInner (pollWriteVectored bufs)
  pollFlush := onInner pollFlush
  pollShutdown := onInner pollShutdown

instance [SmallRng G] [Probability P] [AsyncRead T] : AsyncRead (Corrupter T P G) where
  pollRead := do
    if ← shouldCorrupt.zoom (·.1) fun s t => (t, s.2) then
      let len := (← Polling.get).2.remaining
      if 0 < len then
        let data ← (onRng (randomDataSize len)).zoom (·.1) fun s t => (t, s.2)
        (ReadBuf.putSlice data).zoom (·.2) fun s buf => (s.1, buf)
      else
        return ()
    else
      passRead (·.inner) fun s inner => { s with inner }

instance [SmallRng G] [Probability P] [AsyncBufRead T] : AsyncBufRead (Corrupter T P G) where
  pollFillBuf := onInner pollFillBuf
  consume amt s := { s with inner := AsyncBufRead.consume amt s.inner }

end Corrupter

end Trixter
