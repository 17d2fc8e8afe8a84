import Trixter.Slicer
import Trixter.Laws.Contract

/-!
# What one poll of a sliced writer does

`Sliced` lists the seven ways a write poll can go, over the bytes the inner writer has received and
the phase; `poll_sliced` says that there are no others. Every law of the slicer is a case analysis
on it.
-/

namespace Trixter

open Trixter.Lib Polling

namespace SlicedWriter

variable {T S : Type}

/-- The limited buffers hold the first bytes of the caller's buffers, up to the slice size. -/
theorem limitSlices_flatten (bufs : List (List UInt8)) :
    ∀ remaining, (limitSlices remaining bufs).flatten = bufs.flatten.take remaining := by
  induction bufs with
  | nil => intro remaining; simp [limitSlices]
  | cons s bufs ih =>
    intro remaining
    unfold limitSlices
    split
    · next h => subst h; simp
    · split
      · next h =>
        rw [List.flatten_cons, List.flatten_cons, ih, List.take_append, List.take_of_length_le h]
      · next h =>
        rw [List.flatten_cons, List.flatten_cons, ih, List.take_zero, List.append_nil,
          List.take_append_of_le_length (by omega)]

/-- One write poll that offers `buf`, from `s` to `s'` with answer `r`, as seen from outside:
`limit` is the slice size it read, `off` whether it found slicing switched off. -/
inductive Sliced (received : T → List UInt8) (buf : List UInt8) (limit : Nat) (off : Bool)
    (s : SlicedWriter T S) (r : Poll IoError Nat) (s' : SlicedWriter T S) : Prop where
  /-- Slicing is off, or there is nothing to slice: the inner call, whatever the phase. -/
  | passed (why : off = true ∨ buf = []) (phase : s'.phase = s.phase)
    (wrote : Wrote (received s.inner) buf r (received s'.inner))
  /-- The second read of the size found it zero. -/
  | raced (writing : s.phase = .writing) (zero : limit = 0) (answer : r = .ok 0) (same : s' = s)
  /-- The inner writer took nothing. -/
  | refused (writing : s.phase = .writing) (still : s'.phase = .writing) (answer : ∀ n, r ≠ .ok n)
    (same : received s'.inner = received s.inner)
  /-- The inner writer took a slice, and its flush did not complete. -/
  | took (n : Nat) (writing : s.phase = .writing) (flushing : s'.phase = .flushing n)
    (answer : ∀ m, r ≠ .ok m) (le : n ≤ buf.length) (small : n ≤ limit)
    (moved : received s'.inner = received s.inner ++ buf.take n)
  /-- The inner writer took a slice and flushed it. -/
  | sliced (n : Nat) (writing : s.phase = .writing) (still : s'.phase = .writing)
    (answer : r = .ok n) (le : n ≤ buf.length) (small : n ≤ limit)
    (moved : received s'.inner = received s.inner ++ buf.take n)
  /-- The flush of an earlier slice did not complete. -/
  | waited (n : Nat) (flushing : s.phase = .flushing n) (still : s'.phase = .flushing n)
    (answer : ∀ m, r ≠ .ok m) (same : received s'.inner = received s.inner)
  /-- The flush of an earlier slice completed. -/
  | flushed (n : Nat) (flushing : s.phase = .flushing n) (writing : s'.phase = .writing)
    (answer : r = .ok n) (same : received s'.inner = received s.inner)

/-- The bytes written to the inner writer and not yet reported. -/
def owes (s : SlicedWriter T S) : Nat :=
  match s.phase with
  | .writing => 0
  | .flushing n => n

variable {env : World} {k : Nat} {s : SlicedWriter T S}

@[simp] theorem onInner_wp {α : Type} {m : Io T α}
    {Q : Poll IoError α → SlicedWriter T S → Nat → Prop} :
    (onInner m).wp env k s Q ↔ m.wp env k s.inner fun r inner k' => Q r { s with inner } k' :=
  Iff.rfl

variable [AsyncWrite T] {inv : T → Prop} {received : T → List UInt8}

/-- The flushing arm: the count comes back once the inner flush is ready. -/
theorem flushSlice_wp (h : Contract T inv received) (hs : inv s.inner) (n : Nat) :
    (flushSlice n).wp env k s fun r s' _ =>
      inv s'.inner ∧ s'.size = s.size ∧ Calm r ∧ received s'.inner = received s.inner ∧
        ((s'.phase = .writing ∧ r = .ok n) ∨ (s'.phase = s.phase ∧ ∀ m, r ≠ .ok m)) := by
  unfold flushSlice
  rw [wp_bind, onInner_wp]
  refine wp_mono (h.flush env k s.inner hs) fun r t k' ⟨hinv, same, calm⟩ => ?_
  cases r with
  | ok u =>
    rw [wp_bind, wp_modify]
    exact ⟨hinv, rfl, calm_ok n, same, .inl ⟨rfl, rfl⟩⟩
  | pending => exact ⟨hinv, rfl, calm_pending, same, .inr ⟨rfl, fun _ h => by cases h⟩⟩
  | err e => exact ⟨hinv, rfl, calm_err e, same, .inr ⟨rfl, fun _ h => by cases h⟩⟩
  | panicked m => exact absurd rfl (calm m)

/-- The writing arm, on a slice of the caller's bytes. -/
theorem writeSlice_wp (h : Contract T inv received) (writing : s.phase = .writing)
    {call : Io T Nat} {buf chunk : List UInt8} {limit : Nat} {off : Bool}
    (cut : chunk = buf.take limit)
    (wrote : call.wp env k s.inner fun r t _ =>
      inv t ∧ Wrote (received s.inner) chunk r (received t)) :
    (writeSlice call).wp env k s fun r s' _ =>
      inv s'.inner ∧ s'.size = s.size ∧ Calm r ∧ Sliced received buf limit off s r s' := by
  subst cut
  unfold writeSlice
  rw [wp_bind, onInner_wp]
  refine wp_mono wrote ?_
  rintro r t k' ⟨hinv, wrote⟩
  cases r with
  | ok n =>
    obtain ⟨le, moved⟩ := Wrote.ok_iff.mp wrote
    rw [List.length_take] at le
    have small : n ≤ limit := by omega
    have within : n ≤ buf.length := by omega
    rw [List.take_take, Nat.min_eq_left small] at moved
    simp only [wp_bind, wp_modify]
    refine wp_mono (flushSlice_wp h hinv n) ?_
    rintro r s' k'' ⟨hinv', size, calm, same, how⟩
    refine ⟨hinv', size, calm, ?_⟩
    obtain ⟨phase, answer⟩ | ⟨phase, answer⟩ := how
    · exact .sliced n writing phase answer within small (same.trans moved)
    · exact .took n writing phase answer within small (same.trans moved)
  | pending =>
    have answer : ∀ m, (Poll.pending : Poll IoError Nat) ≠ .ok m := fun _ h => by cases h
    exact ⟨hinv, rfl, wrote.calm, .refused writing writing answer (wrote.unmoved answer)⟩
  | err e =>
    have answer : ∀ m, (Poll.err e : Poll IoError Nat) ≠ .ok m := fun _ h => by cases h
    exact ⟨hinv, rfl, wrote.calm, .refused writing writing answer (wrote.unmoved answer)⟩
  | panicked m => exact absurd rfl (wrote.calm m)

/-- The flushing arm, as a case of `Sliced`. -/
theorem flushSlice_sliced (h : Contract T inv received) (hs : inv s.inner) {n : Nat}
    (flushing : s.phase = .flushing n) {buf : List UInt8} {limit : Nat} {off : Bool} :
    (flushSlice n).wp env k s fun r s' _ =>
      inv s'.inner ∧ s'.size = s.size ∧ Calm r ∧ Sliced received buf limit off s r s' := by
  refine wp_mono (flushSlice_wp h hs n) fun r s' k' ⟨hinv, size, calm, same, how⟩ => ?_
  refine ⟨hinv, size, calm, ?_⟩
  obtain ⟨phase, answer⟩ | ⟨phase, answer⟩ := how
  · exact .flushed n flushing phase answer same
  · exact .waited n flushing (phase.trans flushing) answer same

/-- Over an inner writer whose flush is always ready, a poll that starts in phase `Writing` ends
there: no count is left for a later poll. -/
theorem writeSlice_ready (h : Contract T inv received) (ready : FlushReady T inv)
    {call : Io T Nat} {chunk buf : List UInt8} (sub : chunk <+: buf)
    (writing : s.phase = .writing)
    (wrote : call.wp env k s.inner fun r t _ =>
      inv t ∧ Wrote (received s.inner) chunk r (received t)) :
    (writeSlice call).wp env k s fun r s' _ =>
      (s'.phase = .writing ∧ inv s'.inner) ∧ Wrote (received s.inner) buf r (received s'.inner) := by
  unfold writeSlice
  rw [wp_bind, onInner_wp]
  refine wp_mono wrote fun r t k' ⟨hinv, wrote⟩ => ?_
  have wrote := wrote.of_prefix sub
  cases r with
  | ok n =>
    simp only [wp_bind, wp_modify, flushSlice, onInner_wp]
    refine wp_mono (wp_and (h.flush env k' t hinv) (ready env k' t hinv)) ?_
    rintro r t' k'' ⟨⟨hinv', same, -⟩, rfl⟩
    rw [← same] at wrote
    exact ⟨⟨rfl, hinv'⟩, wrote⟩
  | pending => exact ⟨⟨writing, hinv⟩, wrote⟩
  | err e => exact ⟨⟨writing, hinv⟩, wrote⟩
  | panicked m => exact ⟨⟨writing, hinv⟩, wrote⟩

variable [Size S]

@[simp] theorem pollFlush_wp {Q : Poll IoError Unit → SlicedWriter T S → Nat → Prop} :
    (pollFlush : Io (SlicedWriter T S) Unit).wp env k s Q ↔
      pollFlush.wp env k s.inner fun r inner k' => Q r { s with inner } k' := Iff.rfl

@[simp] theorem pollShutdown_wp {Q : Poll IoError Unit → SlicedWriter T S → Nat → Prop} :
    (pollShutdown : Io (SlicedWriter T S) Unit).wp env k s Q ↔
      pollShutdown.wp env k s.inner fun r inner k' => Q r { s with inner } k' := Iff.rfl

/-- **One write poll of a sliced writer**, through either entry point. -/
theorem poll_sliced (h : Contract T inv received) (hs : inv s.inner) (c : WriteCall) :
    c.poll.wp env k s fun r s' _ =>
      inv s'.inner ∧ s'.size = s.size ∧ Calm r ∧
        Sliced received c.content (Size.size env s.size (k + 1)).toNat
          (Size.isZero env s.size k) s r s' := by
  cases c with
  | scalar buf =>
    simp only [WriteCall.poll, WriteCall.content, AsyncWrite.pollWrite, isZero, readSize, wp_bind,
      wp_observe, wp_ite, wp_get]
    split
    · next off =>
      rw [onInner_wp]
      refine wp_mono (h.write env _ s.inner buf hs) ?_
      rintro r t k' ⟨hinv, wrote⟩
      exact ⟨hinv, rfl, wrote.calm, .passed (by simpa using off) rfl wrote⟩
    · next on =>
      have some : buf ≠ [] := by
        simp only [Bool.or_eq_true, List.isEmpty_iff, not_or] at on
        exact on.2
      cases phase : s.phase with
      | writing =>
        dsimp only
        split
        · next zero =>
          refine ⟨hs, rfl, calm_ok 0, .raced phase ?_ rfl rfl⟩
          have := List.length_pos_iff.mpr some
          omega
        · exact writeSlice_wp h phase (by rw [List.take_eq_take_iff]; omega) (h.write env _ s.inner _ hs)
      | flushing n => exact flushSlice_sliced h hs phase
  | vectored bufs =>
    simp only [WriteCall.poll, WriteCall.content, AsyncWrite.pollWriteVectored, isZero, readSize,
      wp_bind, wp_observe, wp_ite, wp_get]
    split
    · next off =>
      rw [onInner_wp]
      refine wp_mono (h.vectored env _ s.inner bufs hs) ?_
      rintro r t k' ⟨hinv, wrote⟩
      refine ⟨hinv, rfl, wrote.calm, .passed ?_ rfl wrote⟩
      simp only [Bool.or_eq_true, List.isEmpty_iff] at off
      exact off.imp id fun none => by rw [none]; rfl
    · cases phase : s.phase with
      | writing =>
        exact writeSlice_wp h phase (limitSlices_flatten _ _) (h.vectored env _ s.inner _ hs)
      | flushing n => exact flushSlice_sliced h hs phase

/-- With slicing switched off a call goes straight through, whatever the phase. -/
theorem poll_off {Q : Poll IoError Nat → SlicedWriter T S → Nat → Prop} (c : WriteCall)
    (off : Size.isZero env s.size k = true) :
    c.poll.wp env k s Q ↔
      c.poll.wp env (k + 1) s.inner fun r inner k' => Q r { s with inner } k' := by
  cases c with
  | scalar buf =>
    simp only [WriteCall.poll, AsyncWrite.pollWrite, isZero, wp_bind, wp_observe, wp_ite, off,
      Bool.true_or, if_true, onInner_wp]
  | vectored bufs =>
    simp only [WriteCall.poll, AsyncWrite.pollWriteVectored, isZero, wp_bind, wp_observe, wp_ite,
      off, Bool.true_or, if_true, onInner_wp]

/-- **Offering a buffer again.** If the bytes written and not yet reported are the first bytes of
the buffer offered now, then so they are after the poll, or the poll reported them. -/
theorem poll_offered (h : Contract T inv received) (hs : inv s.inner) (c : WriteCall)
    (on : Size.isZero env s.size k = false) {base : List UInt8} (le : s.owes ≤ c.content.length)
    (moved : received s.inner = base ++ c.content.take s.owes) :
    c.poll.wp env k s fun r s' _ =>
      inv s'.inner ∧ s'.size = s.size ∧ Calm r ∧ ∃ n, n ≤ c.content.length ∧
        received s'.inner = base ++ c.content.take n ∧
        (r = .ok n ∧ s'.owes = 0 ∨ (∀ m, r ≠ .ok m) ∧ s'.owes = n) := by
  refine wp_mono (poll_sliced h hs c) fun r s' k' ⟨hinv, size, calm, how⟩ => ?_
  refine ⟨hinv, size, calm, ?_⟩
  -- a phase fixes what is owed
  have nothing : ∀ {t : SlicedWriter T S}, t.phase = .writing → t.owes = 0 := fun h => by
    rw [owes, h]
  have something : ∀ {t : SlicedWriter T S} {n}, t.phase = .flushing n → t.owes = n := fun h => by
    rw [owes, h]
  have clean : s.phase = .writing → received s.inner = base := fun h => by
    rw [moved, nothing h, List.take_zero, List.append_nil]
  cases how with
  | passed why phase wrote =>
    obtain empty : c.content = [] := why.resolve_left (by rw [on]; exact Bool.false_ne_true)
    have none : s.owes = 0 := by rw [empty] at le; exact Nat.le_zero.mp le
    have none' : s'.owes = 0 := by rw [owes, phase]; exact none
    refine ⟨0, Nat.zero_le _, ?_, ?_⟩
    · rw [wrote.moved, moved, empty, List.take_nil, List.take_nil, accepted_nil, List.append_nil]
    · obtain ⟨n, rfl⟩ | refused := r.ok_or
      · have le := (Wrote.ok_iff.mp wrote).1
        rw [empty] at le
        exact .inl ⟨by rw [Nat.le_zero.mp le], none'⟩
      · exact .inr ⟨refused, none'⟩
  | raced writing zero answer same =>
    subst same
    exact ⟨0, Nat.zero_le _, by rw [moved, nothing writing], .inl ⟨answer, nothing writing⟩⟩
  | refused writing still answer same =>
    exact ⟨0, Nat.zero_le _, by rw [same, moved, nothing writing], .inr ⟨answer, nothing still⟩⟩
  | took n writing flushing answer le small grown =>
    exact ⟨n, le, by rw [grown, clean writing], .inr ⟨answer, something flushing⟩⟩
  | sliced n writing still answer le small grown =>
    exact ⟨n, le, by rw [grown, clean writing], .inl ⟨answer, nothing still⟩⟩
  | waited n flushing still answer same =>
    rw [something flushing] at le moved
    exact ⟨n, le, same.trans moved, .inr ⟨answer, something still⟩⟩
  | flushed n flushing writing answer same =>
    rw [something flushing] at le moved
    exact ⟨n, le, same.trans moved, .inl ⟨answer, nothing writing⟩⟩

/-- **A sliced writer keeps the write contract** in phase `Writing`, over a writer that keeps it and
whose flush is always ready. -/
theorem contract (h : Contract T inv received) (ready : FlushReady T inv) :
    Contract (SlicedWriter T S) (fun s => s.phase = .writing ∧ inv s.inner)
      (fun s => received s.inner) where
  write env k s buf hs := by
    simp only [AsyncWrite.pollWrite, isZero, readSize, wp_bind, wp_observe, wp_ite, wp_get, hs.1]
    split
    · rw [onInner_wp]
      refine wp_mono (h.write env _ s.inner buf hs.2) ?_
      rintro r t k' ⟨hinv, wrote⟩
      exact ⟨⟨hs.1, hinv⟩, wrote⟩
    · split
      · exact ⟨hs, .zero⟩
      · exact writeSlice_ready h ready (List.take_prefix _ _) hs.1 (h.write env _ s.inner _ hs.2)
  vectored env k s bufs hs := by
    simp only [AsyncWrite.pollWriteVectored, isZero, readSize, wp_bind, wp_observe, wp_ite, wp_get,
      hs.1]
    split
    · rw [onInner_wp]
      refine wp_mono (h.vectored env _ s.inner bufs hs.2) ?_
      rintro r t k' ⟨hinv, wrote⟩
      exact ⟨⟨hs.1, hinv⟩, wrote⟩
    · refine writeSlice_ready h ready ?_ hs.1 (h.vectored env _ s.inner _ hs.2)
      rw [limitSlices_flatten]
      exact List.take_prefix _ _
  flush env k s hs := by
    rw [pollFlush_wp]
    refine wp_mono (h.flush env k s.inner hs.2) ?_
    rintro r t k' ⟨hinv, same⟩
    exact ⟨⟨hs.1, hinv⟩, same⟩
  shutdown env k s hs := by
    rw [pollShutdown_wp]
    refine wp_mono (h.shutdown env k s.inner hs.2) ?_
    rintro r t k' ⟨hinv, same⟩
    exact ⟨⟨hs.1, hinv⟩, same⟩

end SlicedWriter

end Trixter
