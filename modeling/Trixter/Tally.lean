import Trixter.Probability

/-!
# Counting

A stream or a generator that counts how often it is asked. It answers as the one inside it, so an
adapter over it behaves as over the plain one, and the count tells whether it was reached.
-/

namespace Trixter

open Trixter.Lib

/-- A value with the number of calls made to it. -/
structure Tally (α : Type) where
  value : α
  calls : Nat
  deriving DecidableEq, Repr

namespace Tally

variable {T G α : Type}

/-- A fresh count. -/
def start (value : α) : Tally α := ⟨value, 0⟩

/-- A counted call. -/
def counted (m : Io T α) : Io (Tally T) α :=
  m.zoom (·.value) fun s value => ⟨value, s.calls + 1⟩

instance [AsyncRead T] : AsyncRead (Tally T) where
  pollRead := AsyncRead.pollRead.zoom (fun s => (s.1.value, s.2)) fun s t =>
    (⟨t.1, s.1.calls + 1⟩, t.2)

instance [AsyncBufRead T] : AsyncBufRead (Tally T) where
  pollFillBuf := counted pollFillBuf
  consume amt s := { s with value := AsyncBufRead.consume amt s.value }

instance [AsyncWrite T] : AsyncWrite (Tally T) where
  pollWrite buf := counted (pollWrite buf)
  pollWriteVectored bufs := counted (pollWriteVectored bufs)
  pollFlush := counted pollFlush
  pollShutdown := counted pollShutdown

/-- Every poll is counted, whatever it answers. -/
theorem poll_wp [AsyncBufRead T] [AsyncWrite T] {env : World} {k : Nat} {s : Tally T}
    {call : IoCall} {Q : Poll IoError Reply → Tally T → Nat → Prop} :
    call.poll.wp env k s Q ↔
      call.poll.wp env k s.value fun r value k' => Q r ⟨value, s.calls + 1⟩ k' := by
  cases call with
  | read buf =>
    simp only [IoCall.poll, Polling.wp_map, Polling.wp_lend]
    rfl
  | fillBuf =>
    simp only [IoCall.poll, Polling.wp_map]
    rfl
  | write op =>
    cases op with
    | write c =>
      cases c with
      | scalar buf =>
        simp only [IoCall.poll, WriteOp.poll, WriteCall.poll, Polling.wp_map]
        rfl
      | vectored bufs =>
        simp only [IoCall.poll, WriteOp.poll, WriteCall.poll, Polling.wp_map]
        rfl
    | flush =>
      simp only [IoCall.poll, WriteOp.poll, Polling.wp_map]
      rfl
    | shutdown =>
      simp only [IoCall.poll, WriteOp.poll, Polling.wp_map]
      rfl

/-- The result of a counted draw. -/
def drew (s : Tally G) (r : α × G) : α × Tally G := (r.1, ⟨r.2, s.calls + 1⟩)

instance [SmallRng G] : SmallRng (Tally G) where
  fromSeed seed := start (SmallRng.fromSeed seed)
  fromRng s := (start (SmallRng.fromRng s.value).1, ⟨(SmallRng.fromRng s.value).2, s.calls + 1⟩)
  nextU64 s := s.drew (SmallRng.nextU64 s.value)
  randomRange lo hi s := s.drew (SmallRng.randomRange lo hi s.value)
  fillBytes n s := s.drew (SmallRng.fillBytes n s.value)
  randomRange_mem lo hi s le := SmallRng.randomRange_mem lo hi s.value le
  fillBytes_length n s := SmallRng.fillBytes_length n s.value

end Tally

/-- A reader with what it has put into its callers' buffers, and how often it was polled. -/
structure Tap (R : Type) where
  value : R
  supplied : List UInt8
  polls : Nat
  deriving DecidableEq, Repr

namespace Tap

variable {R : Type}

/-- A reader that nobody has polled. -/
def start (value : R) : Tap R := ⟨value, [], 0⟩

instance [AsyncRead R] : AsyncRead (Tap R) where
  pollRead := AsyncRead.pollRead.zoom (fun s => (s.1.value, s.2)) fun s t =>
    (⟨t.1, s.1.supplied ++ t.2.filled.drop s.2.filled.length, s.1.polls + 1⟩, t.2)

end Tap

end Trixter
