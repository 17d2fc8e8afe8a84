import Trixter.Laws.EndOfFile
import Trixter.Reel

/-!
# Past the injector

A read injector looks at its messages in `poll_read`. Its buffered interface goes to the inner reader
and does not look at them, so a caller that looks and consumes takes inner bytes while a message
waits, or from between two parts of one. A read that the runtime holds back from the channel does the
first of these too. While neither happens, what is obtained through the two interfaces together is a
weave of whole messages with the inner stream, and only then: `untorn_iff_unbypassed`.
-/

namespace Trixter

open Trixter.Lib Polling

namespace ReadInjector

variable {T : Type} [OneStream T]

/-- The injector as a machine, over a recorded inner reader. What happens to the channel answers
nothing. -/
def buffering (T : Type) [OneStream T] (env : World) :
    Machine (Paced (ReadInjector (Reel T))) (InjectMove ReadCall) (Poll IoError (List UInt8)) where
  step s
    | .caller c => (reads (ReadInjector (Reel T)) env).step s c
    | change => (.ok [], ⟨s.moment, s.state.onChannel change⟩)

/-- The bytes the caller obtains with a move. -/
def obtains (env : World) (s : Paced (ReadInjector (Reel T))) : InjectMove ReadCall → List UInt8
  | .caller c => Reel.obtains env ReadInjector.inner s c
  | _ => []

/-- Some message that is stored or waits in the channel has bytes that are not delivered. -/
def Undelivered (s : ReadInjector T) : Prop :=
  (∃ rest ∈ s.buffer, rest ≠ []) ∨ ∃ message ∈ s.injectRx.queue, message ≠ []

instance (s : ReadInjector T) : Decidable s.Undelivered := inferInstanceAs (Decidable (_ ∨ _))

/-- How many bytes of the inner stream have been taken. -/
def innerTaken (s : ReadInjector (Reel T)) : Nat :=
  s.inner.stream.length - (buffered s.inner.value).length

/-- If the move takes a byte of the inner stream, no message has undelivered bytes. -/
def KeepsTurn (env : World) (s : Paced (ReadInjector (Reel T))) (move : InjectMove ReadCall) : Prop :=
  innerTaken ((buffering T env).step s move).2.state ≠ innerTaken s.state → ¬s.state.Undelivered

/-- What the caller has obtained is a weave of whole messages and the inner stream: the last message
may be under way, and what is left of it is stored. -/
def Woven (arrived : List (List UInt8)) (obtained : List UInt8) (s : ReadInjector (Reel T)) : Prop :=
  ∃ w : Weave UInt8, w.bytes = obtained ∧ Reel.Splits w.callers s.inner ∧ Carries w arrived s

/-- The reader, polled at this moment, adds a byte to the buffer. -/
def HandsOver (env : World) (k : Nat) (t : Reel T) (buf : ReadBuf) : Prop :=
  (pollRead env k (t, buf)).state.2.filled.drop buf.filled.length ≠ []

/-- While a message has undelivered bytes, the move consumes bytes of the inner reader, or is a read
that finds nothing stored, is held back from the channel, and gets inner bytes. -/
def Bypasses (env : World) (s : Paced (ReadInjector (Reel T))) : InjectMove ReadCall → Prop
  | .caller (.consume amt) => 0 < amt ∧ buffered s.state.inner.value ≠ [] ∧ s.state.Undelivered
  | .caller (.read buf) =>
    s.state.buffer = none ∧ env.proceeds s.moment = false ∧ s.state.Undelivered ∧
      HandsOver env (s.moment + 1) s.state.inner buf
  | _ => False

instance {env : World} {s : Paced (ReadInjector (Reel T))} :
    (move : InjectMove ReadCall) → Decidable (Bypasses env s move)
  | .arrive _ => inferInstanceAs (Decidable False)
  | .close => inferInstanceAs (Decidable False)
  | .caller (.read _) => inferInstanceAs (Decidable (_ ∧ _ ∧ _ ∧ _ ≠ _))
  | .caller .fillBuf => inferInstanceAs (Decidable False)
  | .caller (.consume _) => inferInstanceAs (Decidable (_ ∧ _ ∧ _))

variable {env : World} {k : Nat} {s : ReadInjector (Reel T)} {taken got : List UInt8}
  {arrived : List (List UInt8)}

theorem innerTaken_eq (h : Reel.Splits taken s.inner) : innerTaken s = taken.length := by
  rw [innerTaken, ← h, List.length_append, Nat.add_sub_cancel]

/-! ## Which moves keep their turn -/

omit [OneStream T] in
/-- A read that turns to no message while one waits is held back from the channel. -/
theorem message?_none_iff (some : s.Undelivered) :
    s.message? env k = none ↔ s.buffer = none ∧ env.proceeds k = false := by
  rw [message?, Option.or_eq_none_iff, InjectRx.next?_eq]
  refine and_congr_right fun idle => ?_
  cases env.proceeds k
  · simp
  · rcases some with ⟨rest, mem, -⟩ | ⟨message, mem, -⟩
    · rw [idle] at mem
      exact nomatch mem
    · rw [if_pos rfl, List.head?_eq_none_iff]
      exact iff_of_false (List.ne_nil_of_mem mem) nofun

/-- **A read takes inner bytes** when it turns to no message and the inner reader has some. -/
theorem read_turn (h : Reel.Splits taken s.inner) (buf : ReadBuf) :
    ((ReadCall.read buf).poll : Io (ReadInjector (Reel T)) _).wp env k s fun _ s' _ =>
      (∃ taken', Reel.Splits taken' s'.inner) ∧
        (innerTaken s' ≠ innerTaken s ↔
          s.message? env k = none ∧ HandsOver env (k + 1) s.inner buf) := by
  simp only [ReadCall.poll, wp_map, wp_lend]
  refine wp_mono (pollRead_reads env k s buf) ?_
  rintro r t stop reads
  unfold Reads at reads
  cases message : s.message? env k with
  | some found =>
    rw [message] at reads
    rw [innerTaken, innerTaken, reads.2.1]
    exact ⟨⟨taken, h⟩, iff_of_false (fun ne => ne rfl) nofun⟩
  | none =>
    rw [message] at reads
    obtain ⟨-, rfl⟩ := reads
    obtain ⟨splits, -⟩ := wp_iff.mp (@Reel.Splits.read T _ env (k + 1) s.inner taken h buf)
    refine ⟨⟨_, splits⟩, ?_⟩
    have more := @innerTaken_eq T _ { s with inner := (pollRead env (k + 1) (s.inner, buf)).state.1 }
      _ splits
    rw [and_iff_right rfl, HandsOver, more, innerTaken_eq h, List.length_append, Ne,
      Nat.add_eq_left, List.length_eq_zero_iff]

/-- No move but a consume and a read needs to be watched. -/
theorem keepsTurn_iff {s : Paced (ReadInjector (Reel T))} (h : Reel.Splits taken s.state.inner)
    (move : InjectMove ReadCall) :
    (∃ taken', Reel.Splits taken' ((buffering T env).step s move).2.state.inner) ∧
      (KeepsTurn env s move ↔ ¬Bypasses env s move) := by
  cases move with
  | arrive bytes => exact ⟨⟨taken, h⟩, iff_of_true (fun ne => absurd rfl ne) id⟩
  | close => exact ⟨⟨taken, h⟩, iff_of_true (fun ne => absurd rfl ne) id⟩
  | caller c =>
    cases c with
    | read buf =>
      obtain ⟨splits, turn⟩ := wp_iff.mp (@read_turn T _ env s.moment s.state taken h buf)
      refine ⟨splits, ?_⟩
      have steps : innerTaken ((buffering T env).step s (.caller (.read buf))).2.state ≠
          innerTaken s.state ↔ _ := turn
      rw [KeepsTurn, steps, Bypasses]
      constructor
      · rintro keeps ⟨idle, held, some, hands⟩
        exact keeps ⟨(message?_none_iff some).mpr ⟨idle, held⟩, hands⟩ some
      · rintro behind ⟨none, hands⟩ some
        obtain ⟨idle, held⟩ := (message?_none_iff some).mp none
        exact behind ⟨idle, held, some, hands⟩
    | fillBuf =>
      have splits : Reel.Splits taken ((buffering T env).step s (.caller .fillBuf)).2.state.inner :=
        (wp_iff.mp (@Reel.Splits.look T _ env s.moment _ _ h)).1
      refine ⟨⟨taken, splits⟩, iff_of_true (fun ne => ?_) id⟩
      rw [innerTaken_eq splits, innerTaken_eq h] at ne
      exact absurd rfl ne
    | consume amt =>
      have splits := h.consume amt
      refine ⟨⟨_, splits⟩, ?_⟩
      have more : innerTaken ((buffering T env).step s (.caller (.consume amt))).2.state =
          innerTaken s.state + min amt (buffered s.state.inner.value).length := by
        rw [innerTaken_eq h]
        refine (innerTaken_eq splits).trans ?_
        rw [List.length_append, List.length_take]
      have takes : min amt (buffered s.state.inner.value).length ≠ 0 ↔
          0 < amt ∧ buffered s.state.inner.value ≠ [] := by
        rw [← List.length_pos_iff_ne_nil]
        omega
      rw [KeepsTurn, more, Bypasses, ← and_assoc, ← takes, not_and]
      refine imp_congr_left ?_
      omega

/-! ## The weave -/

/-- What is woven so far, with nothing stored that has no bytes. -/
structure Whole (arrived : List (List UInt8)) (got : List UInt8) (s : ReadInjector (Reel T)) :
    Prop where
  woven : Woven arrived got s
  stored : s.buffer ≠ some []

/-- **A read carries the weave on.** -/
theorem read_woven (h : Woven arrived got s) (buf : ReadBuf) :
    ((ReadCall.read buf).poll : Io (ReadInjector (Reel T)) _).wp env k s fun r s' _ =>
      Woven arrived (got ++ r.value?.getD []) s' := by
  obtain ⟨w, rfl, splits, carries⟩ := h
  simp only [ReadCall.poll, wp_map, wp_lend, Poll.map_map]
  refine wp_mono (wp_and (read_carries carries buf) (pollRead_reads env k s buf)) ?_
  rintro r t stop ⟨⟨w', bytes, callers, carries'⟩, reads⟩
  unfold Reads at reads
  cases message : s.message? env k with
  | some found =>
    rw [message] at callers reads
    obtain ⟨rfl, inner, -⟩ := reads
    refine ⟨w', bytes, ?_, carries'⟩
    rw [callers, if_neg nofun, List.append_nil, inner]
    exact splits
  | none =>
    rw [message] at callers reads
    obtain ⟨rfl, rfl⟩ := reads
    obtain ⟨splits', none⟩ := wp_iff.mp (@Reel.Splits.read T _ env (k + 1) s.inner w.callers splits buf)
    refine ⟨w', ?_, ?_, carries'⟩
    · rw [bytes]
      refine congrArg (w.bytes ++ ·) ?_
      -- a read that is not a success has added nothing
      cases answer : (pollRead env (k + 1) (s.inner, buf)).result with
      | ok u => rfl
      | pending => exact none (by rw [answer]; nofun)
      | err e => exact none (by rw [answer]; nofun)
      | panicked m => exact none (by rw [answer]; nofun)
    · rw [callers, if_pos rfl]
      exact splits'

/-- **A move that bypasses no message carries the weave on.** -/
theorem move_woven {s : Paced (ReadInjector (Reel T))} (h : Whole arrived got s.state)
    {move : InjectMove ReadCall} (behind : ¬Bypasses env s move) :
    Whole (arrived ++ move.message?.toList) (got ++ obtains env s move)
      ((buffering T env).step s move).2.state := by
  obtain ⟨⟨w, rfl, splits, carries⟩, stored⟩ := h
  -- what happens to the channel hands nothing over
  have quiet : ∀ change : InjectMove ReadCall, Whole (arrived ++ change.message?.toList)
      (w.bytes ++ []) (s.state.onChannel change) := fun change =>
    ⟨⟨w, (List.append_nil _).symm, splits, carries.onChannel change⟩, stored⟩
  cases move with
  | arrive bytes => exact quiet (.arrive bytes)
  | close => exact quiet .close
  | caller c =>
    have none : (InjectMove.caller c).message?.toList = [] := rfl
    rw [none, List.append_nil]
    cases c with
    | read buf =>
      refine ⟨wp_iff.mp (read_woven ⟨w, rfl, splits, carries⟩ buf), ?_⟩
      have kept : ((ReadCall.read buf).poll : Io (ReadInjector (Reel T)) _).wp env s.moment s.state
          fun _ s' _ => s'.buffer ≠ some [] := by
        simp only [ReadCall.poll, wp_map, wp_lend]
        exact read_stored stored buf
      exact wp_iff.mp kept
    | fillBuf =>
      have looked := (wp_iff.mp (@Reel.Splits.look T _ env s.moment _ _ splits)).1
      exact ⟨⟨w, (List.append_nil _).symm, looked, carries.blocks, carries.rest⟩, stored⟩
    | consume amt =>
      have splits := splits.consume amt
      by_cases takes : (buffered s.state.inner.value).take amt = []
      · rw [takes, List.append_nil] at splits
        refine ⟨⟨w, ?_, splits, carries.blocks, carries.rest⟩, stored⟩
        show w.bytes = w.bytes ++ (buffered s.state.inner.value).take amt
        rw [takes, List.append_nil]
      · -- something is taken, so no message is under way
        have idle : w.rest = Option.none := by
          rw [carries.rest]
          cases message : s.state.buffer with
          | none => rfl
          | some left =>
            refine absurd ⟨?_, ?_, .inl ⟨left, message, ?_⟩⟩ behind
            · exact Nat.pos_of_ne_zero fun zero => takes (by rw [zero, List.take_zero])
            · exact fun nil => takes (by rw [nil, List.take_nil])
            · exact fun nil => stored (by rw [message, nil])
        refine ⟨⟨w.call _, Weave.call_bytes idle, ?_, ?_, carries.rest⟩, stored⟩
        · rw [Weave.call_callers]
          exact splits
        · rw [Weave.call_blocks idle]
          exact carries.blocks

/-- **When nothing is bypassed and nothing torn.** Whatever arrives and however the caller reads, looks
and consumes: no byte of the inner stream is taken while a message has undelivered bytes, and what is
obtained is a weave of whole messages with the inner stream, exactly if, while a message has
undelivered bytes, no consume takes inner bytes and no read that is held back from the channel gets
any. -/
theorem untorn_iff_unbypassed (env : World) (k : Nat) (inner : T) (rx : InjectRx)
    (moves : List (InjectMove ReadCall)) :
    let injector := (buffering T env).traced (obtains env)
    let start : Paced (ReadInjector (Reel T)) × List UInt8 := (⟨k, .new (.start inner) rx⟩, [])
    (injector.Allowed (fun _ s move => KeepsTurn env s.1 move) start moves ∧
      injector.Throughout (fun past s => Woven (rx.queue ++ InjectMove.arrived past) s.2 s.1.state) start
        moves) ↔
      injector.Allowed (fun _ s move => ¬Bypasses env s.1 move) start moves := by
  intro injector start
  have turns : injector.Allowed (fun _ s move => KeepsTurn env s.1 move) start moves ↔
      injector.Allowed (fun _ s move => ¬Bypasses env s.1 move) start moves :=
    Machine.AllowedFrom.congr
      (P := fun _ (s : Paced (ReadInjector (Reel T)) × List UInt8) =>
        ∃ taken, Reel.Splits taken s.1.state.inner)
      (fun _ s move ⟨_, splits⟩ _ => (keepsTurn_iff splits move).1)
      (fun _ s move ⟨_, splits⟩ => (keepsTurn_iff splits move).2)
      ⟨[], Reel.splits_start inner⟩
  refine ⟨fun ⟨inTurn, _⟩ => turns.mp inTurn, fun behind => ⟨turns.mpr behind, ?_⟩⟩
  have first : Whole (rx.queue ++ InjectMove.arrived
      ([] : History (InjectMove ReadCall) (Poll IoError (List UInt8)))) [] start.1.state := by
    refine ⟨⟨.empty, rfl, Reel.splits_start inner, ?_, rfl⟩, nofun⟩
    exact (List.append_nil _).symm
  have keep : ∀ (past : History (InjectMove ReadCall) (Poll IoError (List UInt8)))
      (s : Paced (ReadInjector (Reel T)) × List UInt8) (move : InjectMove ReadCall),
      Whole (rx.queue ++ InjectMove.arrived past) s.2 s.1.state → ¬Bypasses env s.1 move →
      Whole (rx.queue ++ InjectMove.arrived (past ++ [(move, (injector.step s move).1)]))
        (injector.step s move).2.2 (injector.step s move).2.1.state := by
    intro past s move h behind
    rw [InjectMove.arrived_snoc, ← List.append_assoc]
    exact move_woven h behind
  exact Machine.AllowedFrom.imp keep (fun past s move h behind => (keep past s move h behind).woven)
    first behind

/-- The failing run: a read of one byte splits a message of three, the caller looks and takes two bytes
of the inner stream, and the rest of the message comes after them. -/
theorem buffered_read_tears_message :
    let injector := (buffering Arrivals .still).traced (obtains .still)
    let start : Paced (ReadInjector (Reel Arrivals)) × List UInt8 :=
      (⟨0, .new (.start ⟨[7, 8, 9], []⟩) ⟨[], false⟩⟩, [])
    let moves : List (InjectMove ReadCall) := [.arrive [1, 2, 3], .caller (.read ⟨[], 1⟩),
      .caller .fillBuf, .caller (.consume 2), .caller (.read ⟨[], 4⟩)]
    (injector.run start moves).2.2 = [1, 7, 8, 2, 3] ∧
      ¬(injector.Allowed (fun _ s move => KeepsTurn .still s.1 move) start moves ∧
        injector.Throughout (fun past s => Woven ([] ++ InjectMove.arrived past) s.2 s.1.state) start
          moves) := by
  refine ⟨by decide, fun ⟨turns, _⟩ => ?_⟩
  have consumed := turns.2.2.2.1
  exact consumed (by decide) (by decide)

end ReadInjector

end Trixter
