import Trixter.Laws.Slicer
import Trixter.Trail

/-!
# What a sliced writer asks of its inner writer

The laws of `Laws.Slicer` look at the bytes an honest inner writer has received. Here the inner writer
is any at all, and a poll is seen through the calls it makes: `Traced` lists the seven ways it can go,
each with the calls it adds to the record.
-/

namespace Trixter

open Trixter.Lib Polling

namespace WriteCall

/-- The test that sends a call straight on: an empty buffer, or no buffer at all. -/
def bare : WriteCall → Bool
  | .scalar buf => buf.isEmpty
  | .vectored bufs => bufs.isEmpty

/-- The call a sliced writer makes for this one when it reads this size. -/
def sliced (limit : Nat) : WriteCall → WriteCall
  | .scalar buf => .scalar (buf.take (min buf.length limit))
  | .vectored bufs => .vectored (SlicedWriter.limitSlices limit bufs)

/-- A slice is the first bytes of what the caller offers, through either entry point. -/
theorem sliced_content (limit : Nat) (c : WriteCall) :
    (c.sliced limit).content = c.content.take limit := by
  cases c with
  | scalar buf =>
    show buf.take (min buf.length limit) = buf.take limit
    rw [List.take_eq_take_iff]
    omega
  | vectored bufs => exact SlicedWriter.limitSlices_flatten bufs limit

theorem content_of_bare {c : WriteCall} (h : c.bare = true) : c.content = [] := by
  cases c with
  | scalar buf => exact List.isEmpty_iff.mp h
  | vectored bufs => rw [content, List.isEmpty_iff.mp h, List.flatten_nil]

end WriteCall

namespace SlicedWriter

variable {T S : Type} {env : World} {k : Nat}

/-- A poll of a write that reads this size, by the calls it makes. -/
inductive Traced (c : WriteCall) (limit : Nat) (off : Bool) (s : SlicedWriter (Trail T) S)
    (r : Poll IoError Nat) (s' : SlicedWriter (Trail T) S) : Prop where
  /-- Slicing is off, or there is nothing to slice: the caller's call as it is. -/
  | passed (started : Nat) (why : off = true ∨ c.bare = true) (phase : s'.phase = s.phase)
    (calls : s'.inner.entries = s.inner.entries ++ [⟨.write c, started, r⟩])
  /-- A scalar write whose second read of the size found it zero. No call is made. -/
  | raced (on : off = false) (full : c.bare = false) (writing : s.phase = .writing) (zero : limit = 0)
    (answer : r = .ok 0) (same : s' = s)
  /-- The inner writer did not take the slice. -/
  | refused (started : Nat) (on : off = false) (writing : s.phase = .writing)
    (still : s'.phase = .writing) (answer : ∀ n, r ≠ .ok n)
    (calls : s'.inner.entries = s.inner.entries ++ [⟨.write (c.sliced limit), started, r⟩])
  /-- The inner writer took the slice, and its flush did not complete. -/
  | took (n started waits : Nat) (on : off = false) (writing : s.phase = .writing)
    (flushing : s'.phase = .flushing n) (answer : ∀ m, r ≠ .ok m)
    (calls : s'.inner.entries = s.inner.entries ++
      [⟨.write (c.sliced limit), started, .ok n⟩, ⟨.flush, waits, r⟩])
  /-- The inner writer took the slice and flushed it. -/
  | sliced (n started waits : Nat) (on : off = false) (writing : s.phase = .writing)
    (still : s'.phase = .writing) (answer : r = .ok n)
    (calls : s'.inner.entries = s.inner.entries ++
      [⟨.write (c.sliced limit), started, .ok n⟩, ⟨.flush, waits, .ok 0⟩])
  /-- The flush of an earlier slice did not complete. -/
  | waited (n started : Nat) (on : off = false) (flushing : s.phase = .flushing n)
    (still : s'.phase = .flushing n) (answer : ∀ m, r ≠ .ok m)
    (calls : s'.inner.entries = s.inner.entries ++ [⟨.flush, started, r⟩])
  /-- The flush of an earlier slice completed. -/
  | flushed (n started : Nat) (on : off = false) (flushing : s.phase = .flushing n)
    (writing : s'.phase = .writing) (answer : r = .ok n)
    (calls : s'.inner.entries = s.inner.entries ++ [⟨.flush, started, .ok 0⟩])

section Arms

variable [AsyncWrite T] {s : SlicedWriter T S} {Q : Poll IoError Nat → SlicedWriter T S → Nat → Prop}

/-- The flushing arm, over any inner writer. -/
theorem flushSlice_iff {n : Nat} :
    (flushSlice n).wp env k s Q ↔
      pollFlush.wp env k s.inner fun r inner k' =>
        match r with
        | .ok _ => Q (.ok n) { s with inner, phase := .writing } k'
        | .pending => Q .pending { s with inner } k'
        | .err e => Q (.err e) { s with inner } k'
        | .panicked m => Q (.panicked m) { s with inner } k' := by
  simp only [flushSlice, wp_bind, onInner_wp, wp_modify, wp_pure]
  rw [wp_iff, wp_iff]
  cases (pollFlush env k s.inner : Outcome IoError T Unit).result <;> rfl

/-- The writing arm, over any inner writer. -/
theorem writeSlice_iff {call : Io T Nat} :
    (writeSlice call).wp env k s Q ↔
      call.wp env k s.inner fun r inner k' =>
        match r with
        | .ok n => (flushSlice n).wp env k' { s with inner, phase := .flushing n } Q
        | .pending => Q .pending { s with inner } k'
        | .err e => Q (.err e) { s with inner } k'
        | .panicked m => Q (.panicked m) { s with inner } k' := by
  simp only [writeSlice, wp_bind, onInner_wp, wp_modify]
  rw [wp_iff, wp_iff]
  cases (call env k s.inner).result <;> rfl

/-- The flushing arm, as a case of `Traced`. -/
theorem flushSlice_traced {s : SlicedWriter (Trail T) S} {c : WriteCall} {limit n : Nat}
    (flushing : s.phase = .flushing n) :
    (flushSlice n).wp env k s fun r s' _ => s'.size = s.size ∧ Traced c limit false s r s' := by
  rw [flushSlice_iff, Trail.flush_wp, wp_iff]
  cases (pollFlush env k s.inner.value : Outcome IoError T Unit).result with
  | ok u => exact ⟨rfl, .flushed n k rfl flushing rfl rfl rfl⟩
  | pending => exact ⟨rfl, .waited n k rfl flushing flushing (fun _ h => by cases h) rfl⟩
  | err e => exact ⟨rfl, .waited n k rfl flushing flushing (fun _ h => by cases h) rfl⟩
  | panicked m => exact ⟨rfl, .waited n k rfl flushing flushing (fun _ h => by cases h) rfl⟩

/-- The writing arm, as cases of `Traced`. -/
theorem writeSlice_traced {s : SlicedWriter (Trail T) S} {c : WriteCall} {limit : Nat}
    (writing : s.phase = .writing) :
    (writeSlice (c.sliced limit).poll).wp env k s fun r s' _ =>
      s'.size = s.size ∧ Traced c limit false s r s' := by
  rw [writeSlice_iff, Trail.write_wp, wp_iff]
  cases ((c.sliced limit).poll env k s.inner.value).result with
  | ok n =>
    dsimp only
    rw [flushSlice_iff, Trail.flush_wp, wp_iff]
    cases (pollFlush env _ _ : Outcome IoError T Unit).result with
    | ok u => exact ⟨rfl, .sliced n k _ rfl writing rfl rfl (List.append_assoc _ _ _)⟩
    | pending =>
      exact ⟨rfl, .took n k _ rfl writing rfl (fun _ h => by cases h) (List.append_assoc _ _ _)⟩
    | err e =>
      exact ⟨rfl, .took n k _ rfl writing rfl (fun _ h => by cases h) (List.append_assoc _ _ _)⟩
    | panicked m =>
      exact ⟨rfl, .took n k _ rfl writing rfl (fun _ h => by cases h) (List.append_assoc _ _ _)⟩
  | pending => exact ⟨rfl, .refused k rfl writing writing (fun _ h => by cases h) rfl⟩
  | err e => exact ⟨rfl, .refused k rfl writing writing (fun _ h => by cases h) rfl⟩
  | panicked m => exact ⟨rfl, .refused k rfl writing writing (fun _ h => by cases h) rfl⟩

end Arms

variable [AsyncWrite T] [Size S]

/-- **One write poll over any inner writer**, through either entry point. -/
theorem poll_traced (s : SlicedWriter (Trail T) S) (c : WriteCall) :
    c.poll.wp env k s fun r s' _ =>
      s'.size = s.size ∧
        Traced c (Size.size env s.size (k + 1)).toNat (Size.isZero env s.size k) s r s' := by
  cases c with
  | scalar buf =>
    simp only [WriteCall.poll, AsyncWrite.pollWrite, isZero, readSize, wp_bind, wp_observe, wp_ite,
      wp_get]
    split
    · next off =>
      rw [onInner_wp, Trail.recorded_wp, wp_iff]
      exact ⟨rfl, .passed _ (Bool.or_eq_true_iff.mp off) rfl rfl⟩
    · next on =>
      simp only [Bool.or_eq_true, not_or, Bool.not_eq_true] at on
      rw [on.1]
      cases phase : s.phase with
      | writing =>
        dsimp only
        split
        · next zero =>
          refine ⟨rfl, .raced rfl on.2 phase ?_ rfl rfl⟩
          have some : 0 < buf.length :=
            List.length_pos_iff.mpr (List.isEmpty_eq_false_iff.mp on.2)
          omega
        · exact writeSlice_traced (c := .scalar buf) phase
      | flushing n => exact flushSlice_traced phase
  | vectored bufs =>
    simp only [WriteCall.poll, AsyncWrite.pollWriteVectored, isZero, readSize, wp_bind, wp_observe,
      wp_ite, wp_get]
    split
    · next off =>
      rw [onInner_wp, Trail.recorded_wp, wp_iff]
      exact ⟨rfl, .passed _ (Bool.or_eq_true_iff.mp off) rfl rfl⟩
    · next on =>
      simp only [Bool.or_eq_true, not_or, Bool.not_eq_true] at on
      rw [on.1]
      cases phase : s.phase with
      | writing => exact writeSlice_traced (c := .vectored bufs) phase
      | flushing n => exact flushSlice_traced phase

end SlicedWriter

end Trixter
