import Trixter.Ledger
import Trixter.Script

/-!
# One stream, read in two ways

A buffered reader can be read into a buffer, or looked at and consumed. Both take the next bytes of
one stream. The recorder below keeps that stream, each byte once and in the order in which it was first
shown, whichever way it was taken later.
-/

namespace Trixter

open Trixter.Lib Polling

/-- A buffered reader whose `poll_read` reads the stream that `poll_fill_buf` shows: what is buffered
comes first, and an answer that is not a success has handed nothing over. -/
class OneStream (T : Type) extends Source T where
  reads : ∀ env k (t : T) (buf : ReadBuf), (pollRead : Io (T × ReadBuf) Unit).wp env k (t, buf)
    fun r s _ => ∃ bytes, s.2 = { buf with filled := buf.filled ++ bytes } ∧
      (r ≠ .ok () → bytes = []) ∧ buffered t <+: bytes ++ buffered s.1

/-- A look drops nothing, and a success shows what is buffered then. -/
theorem look_first {T : Type} [Source T] (env : World) (k : Nat) (t : T) :
    (pollFillBuf : Io T _).wp env k t fun r t' _ =>
      buffered t <+: buffered t' ∧ ∀ rem, r = .ok rem → buffered t' = rem := by
  have shows := wp_iff.mp (Source.contract.shows env k t)
  have stays := Source.contract.stays env k t
  rw [wp_iff] at stays ⊢
  refine ⟨?_, fun rem ok => ?_⟩
  · by_cases some : buffered t = []
    · rw [some]
      exact List.nil_prefix
    · rw [stays some] at shows
      rw [shows]
      exact List.prefix_rfl
  · rw [ok] at shows
    exact shows

/-- A reader with all that it has shown. -/
structure Reel (T : Type) where
  value : T
  stream : List UInt8
  deriving DecidableEq, Repr

namespace Reel

variable {T : Type} [OneStream T]

/-- Nothing shown yet. Bytes that have arrived already are part of the stream. -/
def start (value : T) : Reel T := ⟨value, buffered value⟩

/-- The record after `got` was handed over. What was unread before is part of the stream already. -/
def after (s : Reel T) (got : List UInt8) (value : T) : Reel T :=
  ⟨value, s.stream ++ (got ++ buffered value).drop (buffered s.value).length⟩

/-- It answers as the reader inside it. -/
instance : AsyncBufRead (Reel T) where
  pollRead := fun env k s =>
    let o := pollRead env k (s.1.value, s.2)
    ⟨o.result, (s.1.after (o.state.2.filled.drop s.2.filled.length) o.state.1, o.state.2), o.took⟩
  pollFillBuf := fun env k s =>
    let o := pollFillBuf env k s.value
    ⟨o.result, s.after [] o.state, o.took⟩
  consume amt s := { s with value := AsyncBufRead.consume amt s.value }

/-- These bytes and the unread ones are the stream. -/
def Splits (taken : List UInt8) (s : Reel T) : Prop := taken ++ buffered s.value = s.stream

variable {env : World} {k : Nat} {s : Reel T} {taken : List UInt8}

theorem splits_start (value : T) : Splits [] (start value) := rfl

/-- What is handed over has been unread, or is shown for the first time. -/
theorem Splits.after (h : Splits taken s) {got : List UInt8} {value : T}
    (first : buffered s.value <+: got ++ buffered value) :
    Splits (taken ++ got) (s.after got value) := by
  obtain ⟨more, same⟩ := first
  unfold Splits Reel.after
  rw [← same, List.drop_left, ← h, List.append_assoc, List.append_assoc, same]

/-- **A look keeps the bytes that were taken.** A success shows what is unread. -/
theorem Splits.look (h : Splits taken s) :
    (pollFillBuf : Io (Reel T) _).wp env k s fun r s' _ =>
      Splits taken s' ∧ ∀ rem, r = .ok rem → buffered s'.value = rem := by
  obtain ⟨first, shows⟩ := wp_iff.mp (look_first env k s.value)
  have kept : Splits (taken ++ []) (s.after [] (pollFillBuf env k s.value).state) := h.after first
  rw [List.append_nil] at kept
  exact wp_iff.mpr ⟨kept, shows⟩

/-- A consume takes the next bytes. -/
theorem Splits.consume (h : Splits taken s) (n : Nat) :
    Splits (taken ++ (buffered s.value).take n) (AsyncBufRead.consume n s) := by
  have left : buffered (AsyncBufRead.consume n s.value) = (buffered s.value).drop n :=
    Source.contract.consumes n s.value
  show _ ++ buffered (AsyncBufRead.consume n s.value) = s.stream
  rw [left, List.append_assoc, List.take_append_drop]
  exact h

/-- **A read takes the next bytes**, if it is a success. -/
theorem Splits.read (h : Splits taken s) (buf : ReadBuf) :
    (pollRead : Io (Reel T × ReadBuf) Unit).wp env k (s, buf) fun r s' _ =>
      Splits (taken ++ s'.2.filled.drop buf.filled.length) s'.1 ∧
        (r ≠ .ok () → s'.2.filled.drop buf.filled.length = []) := by
  obtain ⟨bytes, filled, none, first⟩ := wp_iff.mp (OneStream.reads env k s.value buf)
  have got : (pollRead env k (s.value, buf)).state.2.filled.drop buf.filled.length = bytes := by
    rw [filled, List.drop_left]
  rw [← got] at first none
  exact wp_iff.mpr ⟨h.after first, none⟩

/-- The bytes that the owner of an adapter over the reader obtains with a call: those that a read hands
over, or the next ones, when they are consumed. -/
def obtains {S : Type} [AsyncBufRead S] (env : World) (inner : S → Reel T) (s : Paced S)
    (call : ReadCall) : List UInt8 :=
  match call with
  | .read _ => ((reads S env).step s call).1.value?.getD []
  | .fillBuf => []
  | .consume amt => (buffered (inner s.state).value).take amt

end Reel

/-- A `BufReader` hands over what fits of what it shows. -/
theorem Arrivals.deliver_wp {env : World} {k : Nat} {t : Arrivals} {buf : ReadBuf}
    {unread : List UInt8} {Q : Poll IoError Unit → Arrivals × ReadBuf → Nat → Prop} :
    (Arrivals.deliver unread).wp env k (t, buf) Q ↔
      Q (.ok ()) (t.consume (min unread.length buf.remaining),
        { buf with filled := buf.filled ++ unread.take (min unread.length buf.remaining) }) k := by
  simp only [Arrivals.deliver, wp_bind, wp_get, wp_zoom, wp_modify]
  rw [ReadBuf.putSlice_wp (Nat.le_trans (List.length_take_le _ _) (Nat.min_le_right _ _))]

/-- A `BufReader` reads one stream. -/
instance : OneStream Arrivals where
  reads env k t buf := by
    show Arrivals.read.wp env k (t, buf) _
    rw [Arrivals.read, wp_bind, wp_zoom]
    refine wp_mono (look_first env k t) ?_
    rintro (_ | e | rem | m) t' k' ⟨first, same⟩
    · exact ⟨[], by simp, fun _ => rfl, first⟩
    · exact ⟨[], by simp, fun _ => rfl, first⟩
    · obtain rfl : t'.unread = rem := same rem rfl
      dsimp only
      rw [Arrivals.deliver_wp]
      refine ⟨_, rfl, fun refused => absurd rfl refused, ?_⟩
      show t.unread <+: t'.unread.take _ ++ t'.unread.drop _
      rw [List.take_append_drop]
      exact first
    · exact ⟨[], by simp, fun _ => rfl, first⟩

end Trixter
