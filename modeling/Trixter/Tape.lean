import Trixter.Ledger

/-!
# Recording what an inner reader shows

A buffered reader with a record of every look at it, and of the stream it has shown so far: each byte
once, in the order of the looks. It answers as the one inside it, so an adapter over it behaves as over
the plain one, and laws about what an adapter delivers are laws about the stream.
-/

namespace Trixter

open Trixter.Lib Polling

/-- A reader with the answers of its `poll_fill_buf`, oldest first, and the bytes it has held. -/
structure Tape (T : Type) where
  value : T
  looks : List (Poll IoError (List UInt8))
  stream : List UInt8
  deriving DecidableEq, Repr

namespace Tape

variable {T : Type} [Source T]

/-- Nothing looked at yet. Bytes that have arrived already are part of the stream. -/
def start (value : T) : Tape T := ⟨value, [], buffered value⟩

/-- A recorded look. What was unread before is part of the stream already. -/
def look : Io (Tape T) (List UInt8) := fun env k s =>
  let o := pollFillBuf env k s.value
  ⟨o.result, ⟨o.state, s.looks ++ [o.result],
    s.stream ++ (buffered o.state).drop (buffered s.value).length⟩, o.took⟩

/-- A `poll_read` of the inner reader is passed through: no adapter over a buffered reader makes one. -/
instance : AsyncBufRead (Tape T) where
  pollRead := passRead (·.value) fun s value => { s with value }
  pollFillBuf := look
  consume amt s := { s with value := AsyncBufRead.consume amt s.value }

variable {env : World} {k : Nat} {s : Tape T}

theorem look_wp {Q : Poll IoError (List UInt8) → Tape T → Nat → Prop} :
    (pollFillBuf : Io (Tape T) _).wp env k s Q ↔
      pollFillBuf.wp env k s.value fun r value k' =>
        Q r ⟨value, s.looks ++ [r],
          s.stream ++ (buffered value).drop (buffered s.value).length⟩ k' := Iff.rfl

instance : Source (Tape T) where
  buffered s := buffered s.value
  contract :=
    { calm := fun env k s => look_wp.mpr (Source.contract.calm env k s.value)
      shows := fun env k s => look_wp.mpr (Source.contract.shows env k s.value)
      stays := fun env k s => look_wp.mpr ∘ Source.contract.stays env k s.value
      consumes := fun n s => Source.contract.consumes n s.value }

/-- These bytes and the unread ones are the stream. -/
def Splits (taken : List UInt8) (s : Tape T) : Prop := taken ++ buffered s = s.stream

/-- **A look keeps the bytes that were taken**, and shows what follows them. -/
theorem Splits.look {taken : List UInt8} (h : Splits taken s) :
    (pollFillBuf : Io (Tape T) _).wp env k s fun _ s' _ => Splits taken s' := by
  have shows := wp_iff.mp (Source.contract.shows env k s.value)
  have stays := Source.contract.stays env k s.value
  rw [look_wp]
  rw [wp_iff] at stays ⊢
  show taken ++ buffered (pollFillBuf env k s.value).state = s.stream ++ _
  rw [← h]
  by_cases some : buffered s.value = []
  · show _ = taken ++ buffered s.value ++ _
    rw [some, List.append_nil, List.length_nil, List.drop_zero]
  · rw [stays some] at shows
    have same : buffered (pollFillBuf env k s.value).state = buffered s.value := shows
    rw [same, List.drop_length, List.append_nil]
    rfl

/-- A consume takes the next bytes. -/
theorem Splits.consume {taken : List UInt8} (h : Splits taken s) (n : Nat) :
    Splits (taken ++ (buffered s).take n) (AsyncBufRead.consume n s) := by
  have left : buffered (AsyncBufRead.consume n s) = (buffered s).drop n := Source.contract.consumes n s
  show _ ++ buffered (AsyncBufRead.consume n s) = s.stream
  rw [left, List.append_assoc, List.take_append_drop]
  exact h

end Tape

end Trixter
