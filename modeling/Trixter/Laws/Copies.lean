import Trixter.Books
import Trixter.Laws.CopyBuffer

/-!
# A direction writes what it read

`copies`: `CopyBuffer.transfer` copies as `Transfer.Copies` says. Each part of its poll is walked once,
with the ways out it has: whatever is read joins what is unsent at the end, whatever is written leaves it
at the front, and the laws that the streams uphold go on holding.
-/

namespace Trixter

open Trixter.Lib Polling

namespace CopyBuffer

variable {R W : Type} {env : World} {k : Nat} {b b' b'' : CopyBuffer} {r : R} {w : W}
  {l : Between R W}

/-- From `b` to `b'`, within one stage. -/
def Along (b b' : CopyBuffer) (hold : List UInt8 → List UInt8 → Prop) : Prop :=
  b'.state = b.state ∧ Carried CopyBuffer.unsent b b' hold

/-- The ways out of a part of a poll that starts with `b`. `done` is what it has brought about when it
is ready. -/
def leaves (l : Between R W) (b : CopyBuffer) (done : CopyBuffer → Prop) :
    Exit IoError (CopyBuffer × R × W) Unit where
  ok _ k t := done t.1 ∧ Along b t.1 (l.holds k t.2)
  pending k t := Along b t.1 (l.holds k t.2)
  err e k t := Along b t.1 (l.fails e k t.2)

/-- Both laws hold, and no byte has moved. -/
theorem Along.kept (state : b'.state = b.state) (unsent : b'.unsent = b.unsent)
    (hr : l.reader.holds k l.read r) (hw : l.writer.holds k l.wrote w) :
    Along b b' (l.holds k (r, w)) :=
  ⟨state, .still unsent (Between.holds_nil.mpr ⟨hr, hw⟩)⟩

/-- The writer has failed, and no byte has moved. -/
theorem Along.cut {e : IoError} (state : b'.state = b.state) (unsent : b'.unsent = b.unsent)
    (hr : l.reader.holds k l.read r) (failed : l.writer.fails e k l.wrote w) :
    Along b b' (l.fails e k (r, w)) :=
  ⟨state, .still unsent (Between.fails_writer hr failed)⟩

/-- What a later part leaves is what is left since the start. -/
theorem leaves_since {m : Io (CopyBuffer × R × W) Unit} {s : CopyBuffer × R × W} {got put : List UInt8}
    {first done : CopyBuffer → Prop} (state : b'.state = b.state)
    (same : b.unsent ++ got = put ++ b'.unsent)
    (h : m.Ends env k s (leaves (l.since got put) b' first)) (imp : ∀ b, first b → done b) :
    m.Ends env k s (leaves l b done) := by
  simp only [leaves, Between.holds_since, Between.fails_since] at h
  refine ends_mono h ?_ ?_ ?_
  · rintro _ k' t - ⟨brought, state', along⟩
    exact ⟨imp _ brought, state'.trans state, along.trans same⟩
  · rintro k' t - ⟨state', along⟩
    exact ⟨state'.trans state, along.trans same⟩
  · rintro e k' t - ⟨state', along⟩
    exact ⟨state'.trans state, along.trans same⟩

/-- A part that leaves as it should, followed by one that does. -/
theorem leaves_bind {m f : Io (CopyBuffer × R × W) Unit} {mid done : CopyBuffer → Prop}
    (first : m.Ends env k (b, r, w) (leaves l b mid))
    (next : ∀ b' r' w' k' got put, mid b' → l.holds k' (r', w') got put →
      f.Ends env k' (b', r', w') (leaves (l.since got put) b' done)) :
    (m >>= fun _ => f).Ends env k (b, r, w) (leaves l b done) := by
  rw [ends_bind]
  refine ends_mono first ?_ (fun _ _ _ h => h) fun _ _ _ _ h => h
  rintro _ k' ⟨b', r', w'⟩ - ⟨brought, state, got, put, same, hold⟩
  exact leaves_since state same (next b' r' w' k' got put brought hold) fun _ h => h

section Parts

variable [AsyncWrite W] (writes : WritesUphold env l.writer) (hr : l.reader.holds k l.read r)
  (hw : l.writer.holds k l.wrote w)
include writes hr hw

/-- With nothing to read, a direction that holds something goes on, and one that does not waits. -/
theorem rest_leaves : rest.Ends env k (b, r, w) (leaves l b fun _ => True) := by
  rw [rest, ends_bind, ends_get]
  by_cases none : b.unsent = []
  · simp only [if_pos none]
    by_cases due : b.needFlush = true
    · simp only [if_pos due, ends_bind, onWriter, ends_zoom]
      refine ends_mono (writes.flush hw) ?_ ?_ ?_
      · exact fun _ k' w' later hw' => .kept rfl rfl (l.reader.holds_later later hr) hw'
      · exact fun k' w' later hw' => .kept rfl rfl (l.reader.holds_later later hr) hw'
      · exact fun e k' w' later failed => .cut rfl rfl (l.reader.holds_later later hr) failed
    · simp only [if_neg due]
      exact .kept rfl rfl hr hw
  · simp only [if_neg none]
    exact ⟨trivial, .kept rfl rfl hr hw⟩

/-- Writing out what is held. With a turn for each byte, nothing is left. -/
theorem drain_leaves (turns : Nat) :
    (drain turns).Ends env k (b, r, w) (leaves l b fun b' =>
      b'.readDone = b.readDone ∧ (b.unsent.length ≤ turns → b'.unsent = [])) := by
  induction turns generalizing b w k l with
  | zero =>
    refine ⟨⟨rfl, fun short => ?_⟩, .kept rfl rfl hr hw⟩
    exact List.length_eq_zero_iff.mp (Nat.le_zero.mp short)
  | succ turns ih =>
    rw [drain, ends_bind, ends_get]
    by_cases none : b.unsent = []
    · simp only [if_pos none]
      exact ⟨⟨rfl, fun _ => none⟩, .kept rfl rfl hr hw⟩
    · simp only [if_neg none, ends_bind, onWriter, ends_zoom]
      refine ends_mono (writes.write b.unsent hw) ?_ ?_ ?_
      · rintro n k' w' later ⟨fits, hw'⟩
        have hr' := l.reader.holds_later later hr
        by_cases zero : n = 0
        · subst zero
          rw [List.take_zero, Books.say_nil] at hw'
          exact ⟨rfl, .still rfl (.inr (.inr ⟨rfl, Between.holds_nil.mpr ⟨hr', hw'⟩⟩))⟩
        · simp only [if_neg zero, ends_bind, ends_modify]
          have moved : b.unsent ++ [] = b.unsent.take n ++ (b.advance n).unsent := by
            rw [List.append_nil]
            exact (List.take_append_drop n b.unsent).symm
          have onwards : (drain turns).Ends env k' (b.advance n, r, w')
              (leaves (l.since [] (b.unsent.take n)) (b.advance n) fun b' =>
                b'.readDone = b.readDone ∧ ((b.advance n).unsent.length ≤ turns → b'.unsent = [])) := by
            refine ih writes ?_ hw'
            show l.reader.holds k' (l.read.hear []) r
            rwa [Books.hear_nil]
          have state : (b.advance n).state = b.state := rfl
          refine leaves_since state moved onwards ?_
          rintro b' ⟨ended, empty⟩
          refine ⟨ended, fun short => empty ?_⟩
          show (b.unsent.drop n).length ≤ turns
          rw [List.length_drop]
          omega
      · exact fun k' w' later hw' => .kept rfl rfl (l.reader.holds_later later hr) hw'
      · exact fun e k' w' later failed => .cut rfl rfl (l.reader.holds_later later hr) failed

/-- Writing out, and then the flush that ends the copying, or what comes next. -/
theorem writeTurn_leaves {onwards : Io (CopyBuffer × R × W) Unit}
    (next : ∀ b' r' w' k' got put, l.holds k' (r', w') got put →
      onwards.Ends env k' (b', r', w') (leaves (l.since got put) b' fun b => b.unsent = [])) :
    (writeTurn onwards).Ends env k (b, r, w) (leaves l b fun b => b.unsent = []) := by
  rw [writeTurn, ends_bind, ends_get]
  refine leaves_bind (drain_leaves writes hr hw _) ?_
  rintro b' r' w' k' got put ⟨-, empty⟩ ⟨hr', hw'⟩
  rw [ends_bind, ends_get]
  dsimp only
  split
  · rw [onWriter, ends_zoom]
    refine ends_mono (writes.flush hw') ?_ ?_ ?_
    · intro _ k'' w'' later hw''
      exact ⟨empty (Nat.le_refl _), .kept rfl rfl (l.reader.holds_later later hr') hw''⟩
    · exact fun k'' w'' later hw'' => .kept rfl rfl (l.reader.holds_later later hr') hw''
    · exact fun e k'' w'' later failed => .cut rfl rfl (l.reader.holds_later later hr') failed
  · exact next b' r' w' k' got put ⟨hr', hw'⟩

end Parts

variable [AsyncRead R] [AsyncWrite W]

/-- Reading, while there is room. -/
theorem readFirst_leaves (reads : ReadsUphold env l.reader) (writes : WritesUphold env l.writer)
    (hr : l.reader.holds k l.read r) (hw : l.writer.holds k l.wrote w) :
    readFirst.Ends env k (b, r, w) (leaves l b fun _ => True) := by
  rw [readFirst, ends_bind, ends_get]
  by_cases room : (b.hasRoom && !b.readDone) = true
  · simp only [if_pos room, ends_bind, ends_orPending, fill, ends_get, ends_zoom, ends_lend]
    refine ends_mono (reads.read b.window hr) ?_ ?_ ?_
    · rintro _ k' ⟨r', buf⟩ later ⟨bytes, rfl, hr'⟩
      refine ⟨trivial, rfl, bytes, [], ?_, hr', ?_⟩
      · show b.unsent ++ bytes = [] ++ (b.unsent ++ _)
        simp only [window, List.nil_append, ← List.length_append, List.drop_left]
      · rw [Books.say_nil]
        exact l.writer.holds_later later hw
    · rintro k' ⟨r', buf⟩ later hr'
      exact rest_leaves writes hr' (l.writer.holds_later later hw)
    · rintro e k' ⟨r', buf⟩ later failed
      exact ⟨rfl, .still rfl (Between.fails_reader failed (l.writer.holds_later later hw))⟩
  · simp only [if_neg room]
    exact ⟨trivial, .kept rfl rfl hr hw⟩

/-- Going round: induction on the turns that the runtime allows. -/
theorem copy_leaves (reads : ReadsUphold env l.reader) (writes : WritesUphold env l.writer) (turns : Nat)
    (hr : l.reader.holds k l.read r) (hw : l.writer.holds k l.wrote w) :
    (copy turns).Ends env k (b, r, w) (leaves l b fun b => b.unsent = []) := by
  induction turns generalizing b r w k l with
  | zero => exact .kept rfl rfl hr hw
  | succ turns ih =>
    refine leaves_bind (readFirst_leaves reads writes hr hw) ?_
    rintro b' r' w' k' got put - ⟨hr', hw'⟩
    refine writeTurn_leaves (l := l.since got put) writes hr' hw' ?_
    rintro b'' r'' w'' k'' got' put' ⟨hr'', hw''⟩
    exact ih (l := (l.since got put).since got' put') reads writes hr'' hw''

/-- While it copies, a direction holds what is unsent. -/
theorem unsent_running (running : b.state = .running) : (transfer R W).unsent b = b.unsent := by
  show b.stage.unsent = b.unsent
  simp only [stage, running]
  split
  · rfl
  · split <;> rfl

/-- After that it holds nothing. -/
theorem unsent_left (left : b.state ≠ .running) : (transfer R W).unsent b = [] := by
  show b.stage.unsent = []
  cases state : b.state with
  | running => exact absurd state left
  | shuttingDown => simp only [stage, state, Stage.unsent]
  | done => simp only [stage, state, Stage.unsent]

variable {hold : List UInt8 → List UInt8 → Prop}

/-- What was said of the unsent bytes while the direction copies. -/
theorem Along.carried (running : b.state = .running) (h : Along b b' hold) :
    Carried (transfer R W).unsent b b' hold := by
  obtain ⟨state, got, put, same, h⟩ := h
  refine ⟨got, put, ?_, h⟩
  rw [unsent_running running, unsent_running (state.trans running)]
  exact same

/-- A direction that has stopped copying moves no byte. -/
theorem carried_still (left : b.state ≠ .running) (left' : b'.state ≠ .running) (h : hold [] []) :
    Carried (transfer R W).unsent b b' hold :=
  .still (by rw [unsent_left left, unsent_left left']) h

/-- The last step moves no byte. -/
theorem close_leaves (writes : WritesUphold env l.writer) (closing : b.state = .shuttingDown)
    (hr : l.reader.holds k l.read r) (hw : l.writer.holds k l.wrote w) :
    (close : Io (CopyBuffer × R × W) Unit).Ends env k (b, r, w) ((transfer R W).exit l b) := by
  have left : b.state ≠ .running := by
    rw [closing]
    exact fun h => by cases h
  rw [close, ends_bind, onWriter, ends_zoom]
  refine ends_mono (writes.shutdown hw) ?_ ?_ ?_
  · intro _ k' w' later hw'
    have done : TransferState.done ≠ .running := fun h => by cases h
    exact ⟨unsent_left done, carried_still left done
      (Between.holds_nil.mpr ⟨l.reader.holds_later later hr, hw'⟩)⟩
  · intro k' w' later hw'
    exact carried_still left left (Between.holds_nil.mpr ⟨l.reader.holds_later later hr, hw'⟩)
  · intro e k' w' later failed
    exact carried_still left left (Between.fails_writer (l.reader.holds_later later hr) failed)

/-- One poll of the direction. -/
theorem poll_leaves (reads : ReadsUphold env l.reader) (writes : WritesUphold env l.writer)
    (hr : l.reader.holds k l.read r) (hw : l.writer.holds k l.wrote w) :
    (poll : Io (CopyBuffer × R × W) Unit).Ends env k (b, r, w) ((transfer R W).exit l b) := by
  cases state : b.state with
  | running =>
    refine (poll_running state).mpr ?_
    show Ends _ env k (b, r, w) _
    rw [ends_bind]
    refine ends_mono (copy_leaves reads writes 128 hr hw) ?_ ?_ ?_
    · rintro _ k' ⟨b', r', w'⟩ - ⟨empty, -, got, put, same, hr', hw'⟩
      have closing : TransferState.shuttingDown ≠ .running := fun h => by cases h
      rw [empty, List.append_nil] at same
      have moved : (transfer R W).unsent b ++ got =
          put ++ (transfer R W).unsent { b' with state := .shuttingDown } := by
        rw [unsent_running state, unsent_left closing, same, List.append_nil]
      have closed : (close : Io (CopyBuffer × R × W) Unit).Ends env k'
          ({ b' with state := .shuttingDown }, r', w')
          ((transfer R W).exit (l.since got put) { b' with state := .shuttingDown }) :=
        close_leaves writes rfl hr' hw'
      refine Transfer.exit_since moved ?_
      rw [ends_bind, ends_modify]
      exact closed
    · exact fun k' t _ along => along.carried state
    · exact fun e k' t _ along => along.carried state
  | shuttingDown =>
    refine (poll_closing state).mpr ?_
    exact close_leaves writes state hr hw
  | done =>
    refine (poll_done state).mpr ?_
    have left : b.state ≠ .running := by
      rw [state]
      exact fun h => by cases h
    exact ⟨unsent_left left, carried_still left left (Between.holds_nil.mpr ⟨hr, hw⟩)⟩

/-- **The direction copies.** -/
theorem copies : (transfer R W).Copies where
  starts := rfl
  copies _ _ reads writes _ _ _ _ hr hw := poll_leaves reads writes hr hw

end CopyBuffer

end Trixter
