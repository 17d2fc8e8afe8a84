import Trixter.Laws.ReadInjector

/-!
# Ends of file that an injector makes up

A read that succeeds and adds no byte says that the stream has ended. A read injector says so for its
inner reader, and also for an injected message without bytes, which it hands over like any other: the
main theorem is `endsTruly_iff_no_blank`. What the callers make of such an answer is not modelled.
-/

namespace Trixter

open Trixter.Lib Polling

namespace ReadInjector

variable {R : Type} [AsyncRead R] {env : World} {s : Paced (ReadInjector (Tap R))}

/-- If a read with room succeeds and adds no byte, then it polled the inner reader, and that read
succeeded and added no byte. -/
def EndsTruly (env : World) (s : Paced (ReadInjector (Tap R))) : InjectMove ReadBuf → Prop
  | .caller buf =>
    let d := (delivering (Tap R) env).step s (.caller buf)
    let inner := pollRead env (s.moment + 1) (s.state.inner.value, buf)
    0 < buf.remaining → d.1.result = .ok () → d.1.bytes = [] →
      d.2.state.inner.polls = s.state.inner.polls + 1 ∧ inner.result = .ok () ∧
        inner.state.2.filled.drop buf.filled.length = []
  | _ => True

/-- A read with room that finds nothing stored and that `poll_recv` hands a message without bytes. -/
def FindsBlank (env : World) (s : Paced (ReadInjector R)) : InjectMove ReadBuf → Prop
  | .caller buf =>
    0 < buf.remaining ∧ s.state.buffer = none ∧ s.state.injectRx.next? env s.moment = some []
  | _ => False

instance {s : Paced (ReadInjector R)} : (move : InjectMove ReadBuf) → Decidable (FindsBlank env s move)
  | .caller _ => inferInstanceAs (Decidable (_ ∧ _ ∧ _))
  | .arrive _ => inferInstanceAs (Decidable False)
  | .close => inferInstanceAs (Decidable False)

/-- What is left of a message is not empty. -/
theorem left_ne_nil (buf : ReadBuf) (message : List UInt8) : left buf message ≠ some [] := by
  unfold left
  dsimp only
  split
  · exact nofun
  · next some =>
    intro nil
    rw [Option.some.inj nil] at some
    exact some rfl

/-- With room, a message with bytes adds some. -/
theorem taken_eq_nil {buf : ReadBuf} {message : List UInt8} (room : 0 < buf.remaining) :
    taken buf message = [] ↔ message = [] := by
  rw [taken, List.take_eq_nil_iff]
  constructor
  · rintro (none | empty)
    · exact List.length_eq_zero_iff.mp (by omega)
    · exact empty
  · exact .inr

/-- A read stores no message without bytes. -/
theorem read_stored {T : Type} [AsyncRead T] {k : Nat} {t : ReadInjector T}
    (stored : t.buffer ≠ some []) (buf : ReadBuf) :
    (pollRead : Io (ReadInjector T × ReadBuf) Unit).wp env k (t, buf) fun _ t' _ =>
      t'.1.buffer ≠ some [] := by
  refine wp_mono (pollRead_reads env k t buf) ?_
  intro r t' k' reads
  unfold Reads at reads
  cases message : t.message? env k with
  | some found =>
    rw [message] at reads
    rw [reads.2.2.1]
    exact left_ne_nil buf found
  | none =>
    rw [message] at reads
    obtain ⟨-, rfl⟩ := reads
    exact stored

/-- No move does. -/
theorem move_stored (stored : s.state.buffer ≠ some []) (move : InjectMove ReadBuf) :
    ((delivering (Tap R) env).step s move).2.state.buffer ≠ some [] := by
  cases move with
  | caller buf => exact wp_iff.mp (read_stored stored buf)
  | arrive bytes => exact stored
  | close => exact stored

omit [AsyncRead R] in
/-- The message that a read with room turns to is blank just when the read finds a blank one. -/
theorem findsBlank_iff (stored : s.state.buffer ≠ some []) {buf : ReadBuf} (room : 0 < buf.remaining) :
    FindsBlank env s (.caller buf) ↔ s.state.message? env s.moment = some [] := by
  unfold FindsBlank message?
  cases buffer : s.state.buffer with
  | some message =>
    refine iff_of_false (fun blank => nomatch blank.2.1) fun blank => stored ?_
    rw [buffer]
    exact blank
  | none => exact ⟨fun blank => blank.2.2, fun blank => ⟨room, rfl, blank⟩⟩

/-- A message with bytes is not mistaken for an end of file, and one without is. -/
theorem endsTruly_iff (stored : s.state.buffer ≠ some []) (move : InjectMove ReadBuf) :
    EndsTruly env s move ↔ ¬FindsBlank env s move := by
  cases move with
  | caller buf =>
    by_cases room : 0 < buf.remaining
    · let inner := pollRead env (s.moment + 1) (s.state.inner.value, buf)
      have outcome : (pollRead : Io (ReadInjector (Tap R) × ReadBuf) Unit).wp env s.moment
          (s.state, buf) fun r t _ =>
            (r = .ok () → t.2.filled.drop buf.filled.length = [] →
              t.1.inner.polls = s.state.inner.polls + 1 ∧ inner.result = .ok () ∧
                inner.state.2.filled.drop buf.filled.length = []) ↔
              ¬FindsBlank env s (.caller buf) := by
        refine wp_mono (pollRead_reads env s.moment s.state buf) ?_
        rintro r t k' reads
        rw [findsBlank_iff stored room]
        unfold Reads at reads
        cases message : s.state.message? env s.moment with
        | some found =>
          -- a message takes the place of the inner reader
          rw [message] at reads
          obtain ⟨rfl, same, -, filled⟩ := reads
          rw [filled, List.drop_left, taken_eq_nil room, same]
          constructor
          · intro truly blank
            exact absurd (truly rfl (Option.some.inj blank)).1 (Nat.succ_ne_self _).symm
          · intro solid _ blank
            exact absurd (congrArg some blank) solid
        | none =>
          rw [message] at reads
          obtain ⟨rfl, rfl⟩ := reads
          exact iff_of_true (fun ok none => ⟨rfl, ok, none⟩) nofun
      unfold EndsTruly
      dsimp only
      rw [forall_prop_of_true room]
      exact wp_iff.mp outcome
    · exact iff_of_true (fun space => absurd space room) fun blank => room blank.1
  | arrive bytes => exact iff_of_true trivial id
  | close => exact iff_of_true trivial id

/-- **When a read injector makes up no end of file.** Whatever is injected and whatever the inner
reader does, every read with room that succeeds with no byte is an end of file of the inner reader,
exactly if no read with room is handed a message without bytes. -/
theorem endsTruly_iff_no_blank (env : World) (k : Nat) (inner : R) (rx : InjectRx)
    (moves : List (InjectMove ReadBuf)) :
    (delivering (Tap R) env).Allowed (fun _ s move => EndsTruly env s move)
        ⟨k, .new (.start inner) rx⟩ moves ↔
      (delivering (Tap R) env).Allowed (fun _ s move => ¬FindsBlank env s move)
        ⟨k, .new (.start inner) rx⟩ moves := by
  have start : (new (Tap.start inner) rx).buffer ≠ some [] := nofun
  exact Machine.AllowedFrom.congr
    (P := fun _ (s : Paced (ReadInjector (Tap R))) => s.state.buffer ≠ some [])
    (fun _ _ move stored _ => move_stored stored move)
    (fun _ _ move stored => endsTruly_iff stored move) start

/-- The failing run: a message without bytes arrives, and a read with room for four answers as if the
stream had ended, with three bytes of it to come. -/
theorem blank_message_ends_stream :
    let s : Paced (ReadInjector (Tap Arrivals)) := ⟨0, .new (.start ⟨[1, 2, 3], []⟩) ⟨[], false⟩⟩
    let moves : List (InjectMove ReadBuf) := [.arrive [], .caller ⟨[], 4⟩]
    ((delivering (Tap Arrivals) .still).run s moves).1.map Prod.snd = [⟨.ok (), []⟩, ⟨.ok (), []⟩] ∧
      ((delivering (Tap Arrivals) .still).run s moves).2.state.inner = .start ⟨[1, 2, 3], []⟩ ∧
      ¬(delivering (Tap Arrivals) .still).Allowed (fun _ s move => EndsTruly .still s move) s
        moves := by
  refine ⟨by decide, by decide, fun truly => ?_⟩
  exact absurd (truly.2.1 (by decide) (by decide) (by decide)).1 (by decide)

end ReadInjector

end Trixter
