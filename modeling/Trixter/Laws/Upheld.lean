import Trixter.Books
import Trixter.Lib.Weave
import Trixter.Laws.Corrupter
import Trixter.Laws.Delayer
import Trixter.Laws.Shutdowner
import Trixter.Laws.Slicer
import Trixter.Laws.Terminator
import Trixter.Laws.ThrottlerRuns

/-!
# Laws under the adapters

A law of a stream is a law of every adapter over it. Delays, limits and slices leave the books as they
are. A terminator fails with its own error or as its stream does; a corrupter adds bytes of its own to
either book, and loses none; a shutdowner fails with what its channel brings.
-/

namespace Trixter

open Trixter.Lib Polling

variable {T : Type} {env : World} {law : Law T}

/-! ## Delays, limits and slices -/

section Delayed

variable {D α : Type} [Duration D] [ShortDuration D] {k : Nat} {s : DelayedWriter T D}

/-- A delayed call leaves as the call does, if waiting is as good as its pending answer. -/
theorem DelayedWriter.pollWithWriteDelay_ends {f : Io T α} {E : Exit IoError T α}
    (waits : ∀ k', k ≤ k' → E.pending k' s.inner) (calls : ∀ k', k ≤ k' → f.Ends env k' s.inner E) :
    (pollWithWriteDelay f).Ends env k s (E.of (·.inner)) := by
  have calls : ∀ delay k', k ≤ k' →
      f.wp env k' s.inner fun r t k'' => (E.of (·.inner)).post r (⟨t, delay⟩ : DelayedWriter T D) k'' := by
    intro delay k' later
    exact wp_mono (calls k' later) fun r t k'' left => by cases r <;> exact left
  refine pollWithWriteDelay_wp.mpr ?_
  cases s.delay.state with
  | idle =>
    dsimp only
    rw [if_neg s.delay.not_overflows]
    split
    · exact calls _ _ (by omega)
    · split
      · exact calls _ _ (by omega)
      · exact waits _ (by omega)
  | delayed =>
    dsimp only
    split
    · exact calls _ _ (by omega)
    · exact waits _ (by omega)

/-- A delayed writer upholds what its writer does. -/
theorem DelayedWriter.upholds [AsyncRead T] [AsyncWrite T] (h : Upholds env law) :
    Upholds env (law.of (DelayedWriter.inner (D := D))) where
  read buf hs := ends_zoom.mpr (h.read buf hs)
  write buf hs := pollWithWriteDelay_ends (fun _ later => law.holds_later later hs)
    fun _ later => h.write buf (law.holds_later later hs)
  flush hs := ends_zoom.mpr (h.flush hs)
  shutdown hs := pollWithWriteDelay_ends (fun _ later => law.holds_later later hs)
    fun _ later => h.shutdown (law.holds_later later hs)

end Delayed

/-- A prefix that was taken is a prefix of the whole. -/
theorem Law.writing_prefix {k : Nat} {b : Books} {t : T} {n m : Nat} {buf : List UInt8}
    (h : (law.writing b (buf.take m)).ok n k t) : (law.writing b buf).ok n k t := by
  obtain ⟨fits, hold⟩ := h
  rw [List.length_take] at fits
  rw [List.take_take, Nat.min_eq_left (Nat.le_trans fits (Nat.min_le_left _ _))] at hold
  exact ⟨Nat.le_trans fits (Nat.min_le_right _ _), hold⟩

/-- A throttled writer upholds what its writer does. -/
theorem ThrottledWriter.upholds {R : Type} [Rate R] [AsyncRead T] [AsyncWrite T]
    (h : Upholds env law) : Upholds env (law.of (ThrottledWriter.inner (R := R))) where
  read buf hs := ends_zoom.mpr (h.read buf hs)
  write {k b s} buf hs := by
    refine (ThrottledWriter.write_wp (.scalar buf)).mpr ?_
    split
    · refine wp_mono (h.write buf (law.holds_later (Nat.le_succ k) hs)) fun r t k' left => ?_
      cases r <;> exact left
    · refine wp_mono (wp_and (LeakyBucket.acquire_le _) (wp_later _)) ?_
      rintro r lb k' ⟨rfl | ⟨grant, rfl, -⟩, later⟩
      · exact law.holds_later (by omega) hs
      · have hs' : law.holds k' b s.inner := law.holds_later (by omega) hs
        dsimp only
        split
        · refine ⟨Nat.zero_le _, ?_⟩
          rwa [List.take_zero, Books.say_nil]
        · refine ThrottledWriter.forward_wp.mpr ?_
          refine wp_mono (h.write (buf.take _) hs') fun r t k'' left => ?_
          cases r with
          | ok n => exact law.writing_prefix left
          | _ => exact left
  flush hs := ends_zoom.mpr (h.flush hs)
  shutdown hs := ends_zoom.mpr (h.shutdown hs)

/-- Slices: nothing is left to flush between two polls. -/
def Law.sliced {S : Type} (law : Law T) : Law (SlicedWriter T S) where
  holds k b s := law.holds k b s.inner ∧ s.phase = .writing
  fails e k b s := law.fails e k b s.inner
  holds_later later h := ⟨law.holds_later later h.1, h.2⟩
  fails_later := law.fails_later

/-- The ways out of a flush that is not put off. If it fails, then with books of any kind. -/
def Law.prompt (law : Law T) (b : Books) : Exit IoError T Unit where
  ok _ k t := law.holds k b t
  pending _ _ := False
  err e k t := ∀ b', law.fails e k b' t

/-- A flush that is ready is not put off. -/
theorem Upholds.prompt [AsyncRead T] [AsyncWrite T] (h : Upholds env law)
    (ready : FlushReady T fun _ => True) {k : Nat} {b : Books} {t : T} (hold : law.holds k b t) :
    (pollFlush : Io T Unit).Ends env k t (law.prompt b) := by
  refine wp_mono (wp_and (h.flush hold) (ready env k t trivial)) ?_
  rintro _ t' k' ⟨left, rfl⟩
  exact left

/-- Over a writer whose flush is not put off, a slicing writer upholds what that writer does. -/
theorem SlicedWriter.upholds {S : Type} [Size S] [AsyncRead T] [AsyncWrite T] (h : Upholds env law)
    (prompt : ∀ {k b t}, law.holds k b t → (pollFlush : Io T Unit).Ends env k t (law.prompt b)) :
    Upholds env (law.sliced (S := S)) where
  read buf hs := by
    refine ends_zoom.mpr (ends_mono (h.read buf hs.1) ?_ ?_ fun _ _ _ _ failed => failed)
    · rintro _ k' t - ⟨bytes, filled, hold⟩
      exact ⟨bytes, filled, hold, hs.2⟩
    · exact fun _ _ _ hold => ⟨hold, hs.2⟩
  write {k b s} buf hs := by
    obtain ⟨hold, writing⟩ := hs
    -- one slice, and the flush after it
    have slice : ∀ k', k ≤ k' → ∀ m, (writeSlice (pollWrite (buf.take m))).Ends env k' s
        (law.sliced.writing b buf) := by
      intro k' later m
      rw [writeSlice, ends_bind, SlicedWriter.onInner, ends_zoom]
      refine ends_mono (h.write (buf.take m) (law.holds_later later hold)) ?_ ?_ ?_
      · rintro n j t - taken
        obtain ⟨fits, hold'⟩ := law.writing_prefix taken
        dsimp only
        rw [ends_bind, ends_modify]
        dsimp only
        rw [flushSlice, ends_bind, SlicedWriter.onInner, ends_zoom]
        refine ends_mono (prompt hold') ?_ (fun _ _ _ no => no.elim) fun _ _ _ _ failed => failed b
        exact fun _ j' t' _ left => ⟨fits, left, rfl⟩
      · exact fun j t _ left => ⟨left, writing⟩
      · exact fun e j t _ failed => failed
    show (pollWrite buf).Ends env k s _
    simp only [AsyncWrite.pollWrite, isZero, readSize, ends_bind, ends_observe]
    split
    · rw [SlicedWriter.onInner, ends_zoom]
      exact ends_mono (h.write buf (law.holds_later (Nat.le_succ k) hold))
        (fun _ _ _ _ taken => ⟨taken.1, taken.2, writing⟩) (fun _ _ _ left => ⟨left, writing⟩)
        fun _ _ _ _ failed => failed
    · rw [ends_bind, ends_observe]
      dsimp only
      rw [ends_bind, ends_get]
      simp only [writing]
      split
      · refine ⟨Nat.zero_le _, ?_, writing⟩
        rw [List.take_zero, Books.say_nil]
        exact law.holds_later (by omega) hold
      · exact slice _ (by omega) _
  flush hs := ends_zoom.mpr (ends_mono (h.flush hs.1) (fun _ _ _ _ hold => ⟨hold, hs.2⟩)
    (fun _ _ _ hold => ⟨hold, hs.2⟩) fun _ _ _ _ failed => failed)
  shutdown hs := ends_zoom.mpr (ends_mono (h.shutdown hs.1) (fun _ _ _ _ hold => ⟨hold, hs.2⟩)
    (fun _ _ _ hold => ⟨hold, hs.2⟩) fun _ _ _ _ failed => failed)

/-! ## The fuse -/

/-- A terminator whose fuse is whole until it fails with its own error. -/
def Law.fused {P G : Type} (law : Law T) : Law (Terminator T P G) where
  holds k b s := law.holds k b s.inner ∧ s.triggered = false
  fails e k b s := e = terminatedError ∧ law.holds k b s.inner ∧ s.triggered = true ∨
    law.fails e k b s.inner ∧ s.triggered = false
  holds_later later h := ⟨law.holds_later later h.1, h.2⟩
  fails_later later h := h.imp (fun ⟨own, hold, blown⟩ => ⟨own, law.holds_later later hold, blown⟩)
    fun ⟨failed, whole⟩ => ⟨law.fails_later later failed, whole⟩

section Fused

variable {P G α : Type} [SmallRng G] [Probability P] {k : Nat} {b : Books} {s : Terminator T P G}

/-- From a whole fuse a poll either blows it or makes its call over a whole one. -/
theorem Terminator.asked_whole {Q : Poll IoError α → Terminator T P G → Nat → Prop}
    {reach : Terminator T P G → Nat → Prop} (hs : law.fused.holds k b s)
    (blows : ∀ s' k', law.fused.fails terminatedError k' b s' → Q (.err terminatedError) s' k')
    (passes : ∀ s' k', law.fused.holds k' b s' → reach s' k') : asked env k s Q reach := by
  obtain ⟨hold, whole⟩ := hs
  have hold' := law.holds_later (Nat.le_succ k) hold
  rw [asked, whole, if_neg (by decide)]
  split
  · exact passes _ _ ⟨hold', whole⟩
  · split
    · exact blows _ _ (.inl ⟨rfl, hold', rfl⟩)
    · exact passes _ _ ⟨hold', whole⟩

/-- A guarded call leaves as the call does, or blows the fuse. -/
theorem Terminator.guarded_ends {call : Io T α} {E : Exit IoError T α}
    {F : Exit IoError (Terminator T P G) α} (hs : law.fused.holds k b s)
    (fails : F.err = fun e k' s' => law.fused.fails e k' b s')
    (calls : ∀ k' t, law.holds k' b t → call.Ends env k' t E)
    (ok : ∀ a k' s', E.ok a k' s'.inner → s'.triggered = false → F.ok a k' s')
    (pending : ∀ k' s', E.pending k' s'.inner → s'.triggered = false → F.pending k' s')
    (err : ∀ e k' t, E.err e k' t → law.fails e k' b t) :
    (guarded call).Ends env k s F := by
  refine guarded_wp.mpr (asked_whole hs (fun s' k' failed => ?_) fun s' k' ⟨hold, whole⟩ => ?_)
  · show F.err terminatedError k' s'
    rw [fails]
    exact failed
  · refine wp_mono (calls k' s'.inner hold) fun r t k'' left => ?_
    cases r with
    | ok a => exact ok a k'' { s' with inner := t } left whole
    | pending => exact pending k'' { s' with inner := t } left whole
    | err e =>
      show F.err e k'' { s' with inner := t }
      rw [fails]
      exact .inr ⟨err e k'' t left, whole⟩
    | panicked m => exact left

/-- A terminator upholds what its stream does, up to its own error. -/
theorem Terminator.upholds [AsyncRead T] [AsyncWrite T] (h : Upholds env law) :
    Upholds env (law.fused (P := P) (G := G)) where
  read {k b s} buf hs := by
    refine pollRead_wp.mpr (asked_whole hs (fun s' k' failed => failed) fun s' k' ⟨hold, whole⟩ => ?_)
    refine wp_mono (h.read buf hold) fun r t k'' left => ?_
    cases r with
    | ok a =>
      obtain ⟨bytes, filled, hold'⟩ := left
      exact ⟨bytes, filled, hold', whole⟩
    | pending => exact ⟨left, whole⟩
    | err e => exact .inr ⟨left, whole⟩
    | panicked m => exact left
  write buf hs := guarded_ends hs rfl (fun _ _ hold => h.write buf hold)
    (fun _ _ _ ⟨fits, hold⟩ whole => ⟨fits, hold, whole⟩) (fun _ _ hold whole => ⟨hold, whole⟩)
    fun _ _ _ failed => failed
  flush hs := guarded_ends hs rfl (fun _ _ hold => h.flush hold)
    (fun _ _ _ hold whole => ⟨hold, whole⟩) (fun _ _ hold whole => ⟨hold, whole⟩)
    fun _ _ _ failed => failed
  shutdown hs := guarded_ends hs rfl (fun _ _ hold => h.shutdown hold)
    (fun _ _ _ hold whole => ⟨hold, whole⟩) (fun _ _ hold whole => ⟨hold, whole⟩)
    fun _ _ _ failed => failed

end Fused

/-! ## Blocks of random bytes -/

/-- The knob is above zero at some moment. -/
def Loud {P : Type} [Probability P] (env : World) (prob : P) : Prop :=
  ∃ k, Probability.threshold env prob k ≠ 0

/-- A stored block that is being written out: it joins what the inner writer has accepted. -/
def Law.draining (law : Law T) (b : Books) : Exit IoError (Backlog T) Unit where
  ok _ k s := ∃ noise, law.holds k (b.say noise) s.inner
  pending k s := ∃ noise, law.holds k (b.say noise) s.inner
  err e k s := ∃ noise, law.fails e k (b.say noise) s.inner ∨
    (∃ text, e = .writeZero text) ∧ law.holds k (b.say noise) s.inner

section Drained

variable [AsyncWrite T] {k : Nat} {b : Books} {s : Backlog T}

/-- The loop, by induction on its rounds. -/
theorem Backlog.drainLoop_ends (h : WritesUphold env law) (rounds : Nat)
    (hold : law.holds k b s.inner) : (drainLoop rounds).Ends env k s (law.draining b) := by
  induction rounds generalizing k b s with
  | zero => exact ⟨[], by rwa [Books.say_nil]⟩
  | succ rounds ih =>
    rw [drainLoop, ends_bind, ends_get]
    dsimp only
    split
    · exact ⟨[], by rwa [Books.say_nil]⟩
    · rw [ends_bind, Backlog.onInner, ends_zoom]
      refine ends_mono (h.write s.stored hold) ?_ ?_ ?_
      · rintro n k' t - ⟨fits, hold'⟩
        dsimp only
        split
        · exact ⟨_, .inr ⟨⟨_, rfl⟩, hold'⟩⟩
        · have within : n ≤ (⟨t, s.buffer⟩ : Backlog T).stored.length := fits
          rw [ends_bind]
          refine (Backlog.advance_wp within).mpr ?_
          refine ends_mono (ih (s := ⟨t, some (s.stored.drop n)⟩) hold') ?_ ?_ ?_
          · rintro _ k'' s' - ⟨noise, left⟩
            exact ⟨_, by rwa [Books.say_say] at left⟩
          · rintro k'' s' - ⟨noise, left⟩
            exact ⟨_, by rwa [Books.say_say] at left⟩
          · rintro e k'' s' - ⟨noise, left⟩
            exact ⟨_, by rwa [Books.say_say] at left⟩
      · exact fun k' t _ hold' => ⟨[], by rwa [Books.say_nil]⟩
      · exact fun e k' t _ failed => ⟨[], .inl (by rwa [Books.say_nil])⟩

/-- A drain that is done has cleared the store. -/
theorem Backlog.drain_ends (h : WritesUphold env law) (hold : law.holds k b s.inner) :
    drain.Ends env k s { law.draining b with
      ok := fun _ k s' => s'.buffer = none ∧ ∃ noise, law.holds k (b.say noise) s'.inner } := by
  rw [drain, ends_bind, ends_get]
  dsimp only
  split
  · next none => exact ⟨none, [], by rwa [Books.say_nil]⟩
  · rw [ends_bind]
    refine ends_mono (Backlog.drainLoop_ends h _ hold) ?_ (fun _ _ _ left => left)
      fun _ _ _ _ left => left
    rintro _ k' s' - left
    exact ⟨rfl, left⟩

end Drained

section Corrupted

variable {P G : Type} [Probability P]

/-- A corrupter with this knob: the inner stream's books are the owner's, but for what was put in. -/
def Law.corrupted (law : Law T) (env : World) (prob : P) : Law (Corrupter T P G) where
  holds k b s := s.prob = prob ∧ (s.writeBuffer ≠ none → Loud env prob) ∧ ∃ inner : Books,
    Inlaid (Loud env prob) inner.heard b.heard ∧ Inlaid (Loud env prob) b.said inner.said ∧
      law.holds k inner s.inner
  fails e k b s := s.prob = prob ∧ ∃ inner : Books,
    Inlaid (Loud env prob) inner.heard b.heard ∧ Inlaid (Loud env prob) b.said inner.said ∧
      (law.fails e k inner s.inner ∨ (∃ text, e = .writeZero text) ∧ law.holds k inner s.inner)
  holds_later later := fun ⟨knob, stored, inner, heard, said, hold⟩ =>
    ⟨knob, stored, inner, heard, said, law.holds_later later hold⟩
  fails_later later := fun ⟨knob, inner, heard, said, failed⟩ => ⟨knob, inner, heard, said,
    failed.imp (law.fails_later later) fun ⟨zero, hold⟩ => ⟨zero, law.holds_later later hold⟩⟩

variable [SmallRng G] {prob : P} {k : Nat} {b : Books} {s : Corrupter T P G}

/-- The block that is stored, or drawn, is written out first. -/
theorem Corrupter.synthesize_ends [AsyncWrite T] (h : WritesUphold env law)
    (hs : (law.corrupted env prob).holds k b s) :
    synthesize.Ends env k s ((law.corrupted env prob).quiet b) := by
  obtain ⟨knob, stored, inner, heard, said, hold⟩ := hs
  have drains : ∀ k' (s' : Corrupter T P G), k ≤ k' → s'.prob = prob → s'.inner = s.inner →
      Loud env prob → (onBacklog Backlog.drain).Ends env k' s' ((law.corrupted env prob).quiet b) := by
    intro k' s' later knob' same loud
    rw [onBacklog, ends_zoom]
    have hold' : law.holds k' inner s'.inner := by
      rw [same]
      exact law.holds_later later hold
    refine ends_mono (Backlog.drain_ends (s := ⟨s'.inner, s'.writeBuffer⟩) h hold') ?_ ?_ ?_
    · rintro _ k'' t - ⟨none, noise, left⟩
      exact ⟨knob', fun some => absurd none some, inner.say noise, heard, said.insert loud, left⟩
    · rintro k'' t - ⟨noise, left⟩
      exact ⟨knob', fun _ => loud, inner.say noise, heard, said.insert loud, left⟩
    · rintro e k'' t - ⟨noise, left⟩
      exact ⟨knob', inner.say noise, heard, said.insert loud, left⟩
  refine synthesize_wp.mpr ?_
  split
  · next some => exact drains k s (Nat.le_refl k) knob rfl (stored some)
  · next idle =>
    split
    · exact ⟨knob, stored, inner, heard, said, law.holds_later (Nat.le_succ k) hold⟩
    · next above =>
      have loud : Loud env prob := ⟨k, knob ▸ above⟩
      split
      · exact drains _ _ (Nat.le_succ k) knob rfl loud
      · exact ⟨knob, fun _ => loud, inner, heard, said, law.holds_later (Nat.le_succ k) hold⟩

omit [SmallRng G] in
/-- A call that goes straight to the inner stream. -/
theorem Corrupter.onInner_ends {call : Io T Unit} (hs : (law.corrupted env prob).holds k b s)
    (h : ∀ inner, law.holds k inner s.inner → call.Ends env k s.inner (law.quiet inner)) :
    (onInner call).Ends env k s ((law.corrupted env prob).quiet b) := by
  obtain ⟨knob, stored, inner, heard, said, hold⟩ := hs
  rw [Corrupter.onInner, ends_zoom]
  refine ends_mono (h inner hold) ?_ ?_ ?_
  · exact fun _ k' t _ left => ⟨knob, stored, inner, heard, said, left⟩
  · exact fun k' t _ left => ⟨knob, stored, inner, heard, said, left⟩
  · exact fun e k' t _ left => ⟨knob, inner, heard, said, .inl left⟩

/-- A corrupter upholds what its stream does, with its own bytes put in. -/
theorem Corrupter.upholds [AsyncRead T] [AsyncWrite T] (h : Upholds env law) :
    Upholds env (law.corrupted (G := G) env prob) where
  read {k b s} buf hs := by
    obtain ⟨knob, stored, inner, heard, said, hold⟩ := hs
    have hold' := law.holds_later (Nat.le_succ k) hold
    -- a read that is passed on
    have passes : ∀ s' : Corrupter T P G, s'.prob = prob → s'.writeBuffer = s.writeBuffer →
        s'.inner = s.inner → (passRead (·.inner) (fun s inner => { s with inner }) :
          Io (Corrupter T P G × ReadBuf) Unit).Ends env (k + 1) (s', buf)
            ((law.corrupted env prob).reading b buf) := by
      intro s' knob' block same
      refine ends_zoom.mpr ?_
      refine ends_mono (h.read buf (same ▸ hold')) ?_ ?_ ?_
      · rintro _ k' t - ⟨bytes, filled, left⟩
        exact ⟨bytes, filled, knob', block ▸ stored, inner.hear bytes, heard.append bytes, said, left⟩
      · exact fun k' t _ left => ⟨knob', block ▸ stored, inner, heard, said, left⟩
      · exact fun e k' t _ left => ⟨knob', inner, heard, said, .inl left⟩
    show (pollRead : Io (Corrupter T P G × ReadBuf) Unit).Ends env k (s, buf) _
    simp only [AsyncRead.pollRead, ends_bind, ends_zoom]
    refine shouldCorrupt_wp.mpr ?_
    split
    · exact passes s knob rfl rfl
    · next above =>
      have loud : Loud env prob := ⟨k, knob ▸ above⟩
      by_cases hits : Corrupts env k s
      · simp only [hits, decide_true]
        refine ends_bind.mpr ?_
        rw [ends_get]
        dsimp only
        split
        · next room =>
          simp only [randomDataSize, onRng, ends_bind, ends_zoom, ends_modifyGet]
          have fits : (SmallRng.fillBytes buf.remaining s.drew.rng).1.length ≤ buf.remaining :=
            Nat.le_of_eq (SmallRng.fillBytes_length _ _)
          refine (ReadBuf.putSlice_wp fits).mpr ?_
          exact ⟨_, rfl, knob, fun _ => loud, inner, heard.insert loud, said, hold'⟩
        · refine ⟨[], by rw [List.append_nil]; rfl, knob, stored, inner, ?_, said, hold'⟩
          rwa [Books.hear_nil]
      · simp only [hits, decide_false]
        exact passes s.drew knob rfl rfl
  write {k b s} buf hs := by
    show (pollWrite buf).Ends env k s _
    simp only [AsyncWrite.pollWrite, ends_bind]
    refine ends_mono (Corrupter.synthesize_ends h.toWritesUphold hs) ?_ (fun _ _ _ left => left)
      fun _ _ _ _ left => left
    rintro _ k' s' - ⟨knob, stored, inner, heard, said, hold⟩
    refine ends_zoom.mpr ?_
    refine ends_mono (h.write buf hold) ?_ ?_ ?_
    · rintro n k'' t - ⟨fits, left⟩
      exact ⟨fits, knob, stored, inner.say (buf.take n), heard, said.append _, left⟩
    · exact fun k'' t _ left => ⟨knob, stored, inner, heard, said, left⟩
    · exact fun e k'' t _ left => ⟨knob, inner, heard, said, .inl left⟩
  flush hs := Corrupter.onInner_ends hs fun _ hold => h.flush hold
  shutdown hs := Corrupter.onInner_ends hs fun _ hold => h.shutdown hold

end Corrupted

/-! ## The kill switch -/

/-- What a receiver that has not completed brings: nothing yet, one of these errors, or the end of its
sender. -/
def Oneshot.Brings (sent : BError → Prop) : Oneshot → Prop
  | .waiting => True
  | .sent err => sent err
  | .dropped => True
  | .complete => False

/-- A channel that brings nothing but these errors, and that `waits` says of whether it is still open. -/
def Channel (sent : BError → Prop) (waits : Prop) (rx : Option Oneshot) : Prop :=
  (rx = some .waiting ↔ waits) ∧ ∀ r, rx = some r → r.Brings sent

/-- A shutdowner with such a channel. -/
def Law.signalled (law : Law T) (sent : BError → Prop) (waits : Prop) : Law (Shutdowner T) where
  holds k b s := law.holds k b s.inner ∧ Channel sent waits s.errRx
  fails e k b s := (law.fails e k b s.inner ∨
    (e = .other .shutdown ∨ ∃ err, sent err ∧ e = .other err) ∧ law.holds k b s.inner) ∧
      Channel sent waits s.errRx
  holds_later later h := ⟨law.holds_later later h.1, h.2⟩
  fails_later later h := ⟨h.1.imp (law.fails_later later) fun h => ⟨h.1, law.holds_later later h.2⟩, h.2⟩

section Signalled

variable {α : Type} {sent : BError → Prop} {waits : Prop} {k : Nat} {b : Books} {s : Shutdowner T}

/-- A channel that has answered, when it was not waiting. -/
theorem Channel.answered {rx : Option Oneshot} (h : Channel sent waits rx) (told : rx ≠ some .waiting) :
    Channel sent waits none := by
  refine ⟨⟨fun none => (by cases none), fun open_ => absurd (h.1.mpr open_) told⟩, ?_⟩
  intro r none
  cases none

/-- What every guarded entry point of a shutdowner comes to. -/
theorem Shutdowner.signalled_of {β σ : Type} (place : Option Oneshot → σ)
    {Q : Poll IoError β → σ → Nat → Prop} {through : Prop}
    (hs : (law.signalled sent waits).holds k b s) (passes : through)
    (refuses : ∀ e k' rx, (law.signalled sent waits).fails e k' b ⟨s.inner, rx⟩ →
      Q (.err e) (place rx) k') :
    Guarded env k s.errRx (place s.errRx) (place none) Q through := by
  obtain ⟨hold, channel⟩ := hs
  obtain ⟨inner, errRx⟩ := s
  have told : ∀ rx : Oneshot, rx ≠ .waiting → errRx = some rx → Channel sent waits none :=
    fun rx answers eq => channel.answered (by rw [eq]; exact fun same => answers (by cases same; rfl))
  refine .of (fun gone => refuses _ _ _ ⟨.inr ⟨.inl rfl, hold⟩, channel⟩) ?_
    (fun complete => absurd (channel.2 _ complete) id) fun _ => passes
  rintro err (here | ⟨rfl, here⟩)
  · exact refuses _ _ _ ⟨.inr ⟨.inr ⟨err, channel.2 _ here, rfl⟩,
      law.holds_later (Nat.le_succ k) hold⟩, told _ (fun h => by cases h) here⟩
  · exact refuses _ _ _ ⟨.inr ⟨.inl rfl, law.holds_later (Nat.le_succ k) hold⟩,
      told _ (fun h => by cases h) here⟩

/-- A guarded call leaves as the call does, or as its channel says. -/
theorem Shutdowner.guarded_ends {call : Io T α} {E : Exit IoError T α} {F : Exit IoError (Shutdowner T) α}
    (hs : (law.signalled sent waits).holds k b s)
    (fails : F.err = fun e k' s' => (law.signalled sent waits).fails e k' b s')
    (calls : law.holds (k + 1) b s.inner → call.Ends env (k + 1) s.inner E)
    (ok : ∀ a k' t, E.ok a k' t → F.ok a k' ⟨t, s.errRx⟩)
    (pending : ∀ k' t, E.pending k' t → F.pending k' ⟨t, s.errRx⟩)
    (err : ∀ e k' t, E.err e k' t → law.fails e k' b t) : (guarded call).Ends env k s F := by
  refine guarded_wp.mpr ?_
  refine signalled_of (fun rx => (⟨s.inner, rx⟩ : Shutdowner T)) hs ?_ ?_
  · refine wp_mono (calls (law.holds_later (Nat.le_succ k) hs.1)) fun r t k' left => ?_
    cases r with
    | ok a => exact ok a k' t left
    | pending => exact pending k' t left
    | err e =>
      show F.err e k' _
      rw [fails]
      exact ⟨.inl (err e k' t left), hs.2⟩
    | panicked m => exact left
  · intro e k' rx failed
    show F.err e k' _
    rw [fails]
    exact failed

/-- A shutdowner upholds what its stream does, up to what its channel brings. -/
theorem Shutdowner.upholds [AsyncRead T] [AsyncWrite T] (h : Upholds env law) :
    Upholds env (law.signalled sent waits) where
  read {k b s} buf hs := by
    refine read_wp.mpr ?_
    refine signalled_of (fun rx => ((⟨s.inner, rx⟩ : Shutdowner T), buf)) hs ?_
      fun e k' rx failed => failed
    refine wp_mono (h.read buf (law.holds_later (Nat.le_succ k) hs.1)) fun r t k' left => ?_
    cases r with
    | ok a =>
      obtain ⟨bytes, filled, left⟩ := left
      exact ⟨bytes, filled, left, hs.2⟩
    | pending => exact ⟨left, hs.2⟩
    | err e => exact ⟨.inl left, hs.2⟩
    | panicked m => exact left
  write buf hs := guarded_ends hs rfl (h.write buf) (fun _ _ _ left => ⟨left.1, left.2, hs.2⟩)
    (fun _ _ left => ⟨left, hs.2⟩) fun _ _ _ failed => failed
  flush hs := guarded_ends hs rfl h.flush (fun _ _ _ left => ⟨left, hs.2⟩)
    (fun _ _ left => ⟨left, hs.2⟩) fun _ _ _ failed => failed
  shutdown hs := guarded_ends hs rfl h.shutdown (fun _ _ _ left => ⟨left, hs.2⟩)
    (fun _ _ left => ⟨left, hs.2⟩) fun _ _ _ failed => failed

end Signalled

end Trixter
