import Trixter.Laws.Injector
import Trixter.Laws.Owner
import Trixter.Laws.ReadInjector
import Trixter.Laws.Upheld
import Trixter.Peer
import Trixter.Stack
import Trixter.Xoshiro

/-!
# Any stack of adapters

Every adapter upholds a law of its own over that of its stream, so a stack of them does, whatever their
order and number. What its owner has read is what the socket has given, and what the socket has received
is what the owner's writes were answered for; but for bytes of the adapters' own, which only injectors
and corrupters put in: `carries`, and `counts` for a counting reader around one. After the first call that
fails nothing is claimed any more.
-/

namespace Trixter

open Trixter.Lib Polling

variable {T : Type} {env : World} {law : Law T}

/-! ## Messages -/

/-- Bytes of its own may have been put into the one book, or into the other. -/
def Law.inserting {S : Type} (law : Law T) (reads writes : Prop) (part : S → T) : Law S where
  holds k b s := ∃ inner : Books, Inlaid reads inner.heard b.heard ∧ Inlaid writes b.said inner.said ∧
    law.holds k inner (part s)
  fails e k b s := ∃ inner : Books, Inlaid reads inner.heard b.heard ∧ Inlaid writes b.said inner.said ∧
    (law.fails e k inner (part s) ∨ (∃ text, e = .writeZero text) ∧ law.holds k inner (part s))
  holds_later later := fun ⟨inner, heard, said, hold⟩ => ⟨inner, heard, said, law.holds_later later hold⟩
  fails_later later := fun ⟨inner, heard, said, failed⟩ => ⟨inner, heard, said,
    failed.imp (law.fails_later later) fun ⟨zero, hold⟩ => ⟨zero, law.holds_later later hold⟩⟩

section Inserting

variable {S : Type} {reads writes : Prop} {part : S → T} {k : Nat} {b : Books} {s : S}

/-- A call that goes straight to the stream. -/
theorem Law.inserting_quiet {call : Io T Unit} (set : S → T → S) (frame : ∀ s t, part (set s t) = t)
    (hs : (law.inserting reads writes part).holds k b s)
    (h : ∀ inner, law.holds k inner (part s) → call.Ends env k (part s) (law.quiet inner)) :
    (call.zoom part set).Ends env k s ((law.inserting reads writes part).quiet b) := by
  obtain ⟨inner, heard, said, hold⟩ := hs
  refine ends_zoom.mpr (ends_mono (h inner hold) ?_ ?_ ?_)
  · exact fun _ _ t _ left => ⟨inner, heard, said, (frame s t).symm ▸ left⟩
  · exact fun _ t _ left => ⟨inner, heard, said, (frame s t).symm ▸ left⟩
  · exact fun _ _ t _ left => ⟨inner, heard, said, .inl ((frame s t).symm ▸ left)⟩

theorem Law.inserting_writing {call : Io T Nat} {buf : List UInt8} (set : S → T → S)
    (frame : ∀ s t, part (set s t) = t) (hs : (law.inserting reads writes part).holds k b s)
    (h : ∀ inner, law.holds k inner (part s) → call.Ends env k (part s) (law.writing inner buf)) :
    (call.zoom part set).Ends env k s ((law.inserting reads writes part).writing b buf) := by
  obtain ⟨inner, heard, said, hold⟩ := hs
  refine ends_zoom.mpr (ends_mono (h inner hold) ?_ ?_ ?_)
  · exact fun n _ t _ left => ⟨left.1, inner.say (buf.take n), heard, said.append _,
      (frame s t).symm ▸ left.2⟩
  · exact fun _ t _ left => ⟨inner, heard, said, (frame s t).symm ▸ left⟩
  · exact fun _ _ t _ left => ⟨inner, heard, said, .inl ((frame s t).symm ▸ left)⟩

theorem Law.inserting_reading [AsyncRead T] {buf : ReadBuf} (set : S → T → S)
    (frame : ∀ s t, part (set s t) = t) (hs : (law.inserting reads writes part).holds k b s)
    (h : ∀ inner, law.holds k inner (part s) →
      (pollRead : Io (T × ReadBuf) Unit).Ends env k (part s, buf) (law.reading inner buf)) :
    (passRead part set : Io (S × ReadBuf) Unit).Ends env k (s, buf)
      ((law.inserting reads writes part).reading b buf) := by
  obtain ⟨inner, heard, said, hold⟩ := hs
  refine ends_zoom.mpr (ends_mono (h inner hold) ?_ ?_ ?_)
  · rintro _ k' ⟨t, buf'⟩ - ⟨bytes, filled, left⟩
    exact ⟨bytes, filled, inner.hear bytes, heard.append bytes, said, (frame s t).symm ▸ left⟩
  · exact fun _ t _ left => ⟨inner, heard, said, (frame s t.1).symm ▸ left⟩
  · exact fun _ _ t _ left => ⟨inner, heard, said, .inl ((frame s t.1).symm ▸ left)⟩

end Inserting

/-- A read injector upholds what its stream does, with its messages put in. -/
theorem ReadInjector.upholds [AsyncRead T] [AsyncWrite T] (h : Upholds env law) :
    Upholds env (law.inserting True False ReadInjector.inner) where
  read {k b s} buf hs := by
    refine pollRead_wp.mpr ?_
    have replays : ∀ k' message (s' : ReadInjector T), k ≤ k' → s'.inner = s.inner →
        ((law.inserting True False ReadInjector.inner).reading b buf).ok () k'
          (s', { buf with filled := buf.filled ++ taken buf message }) := by
      intro k' message s' later same
      obtain ⟨inner, heard, said, hold⟩ := hs
      exact ⟨_, rfl, inner, heard.insert trivial, said, same ▸ law.holds_later later hold⟩
    split
    · exact replays _ _ _ (Nat.le_refl k) rfl
    · exact replays _ _ _ (Nat.le_succ k) rfl
    · exact Law.inserting_reading (fun s inner => { s with inner }) (fun _ _ => rfl)
        (Law.holds_later _ (Nat.le_succ k) hs) fun inner hold => h.read buf hold
  write buf hs := Law.inserting_writing _ (fun _ _ => rfl) hs fun inner hold => h.write buf hold
  flush hs := Law.inserting_quiet _ (fun _ _ => rfl) hs fun inner hold => h.flush hold
  shutdown hs := Law.inserting_quiet _ (fun _ _ => rfl) hs fun inner hold => h.shutdown hold

/-- The loop of a write injector, by induction on its rounds. -/
theorem WriteInjector.injectLoop_ends [AsyncWrite T] (h : WritesUphold env law) (rounds : Nat) {k : Nat}
    {b : Books} {s : WriteInjector T} (hs : (law.inserting False True WriteInjector.inner).holds k b s) :
    (injectLoop rounds).Ends env k s ((law.inserting False True WriteInjector.inner).quiet b) := by
  induction rounds generalizing k s with
  | zero => exact hs
  | succ rounds ih =>
    obtain ⟨inner, heard, said, hold⟩ := hs
    rw [injectLoop, ends_bind, onBacklog, ends_zoom]
    refine ends_mono (Backlog.drain_ends (s := s.backlog) h hold) ?_ ?_ ?_
    · rintro _ k' t - ⟨-, noise, left⟩
      refine ends_bind.mpr (onRx_pollRecv_wp.mpr ?_)
      have left' : ∀ s' : WriteInjector T, s'.inner = t.inner →
          (law.inserting False True WriteInjector.inner).holds (k' + 1) b s' := fun s' same =>
        ⟨inner.say noise, heard, said.insert trivial, same ▸ law.holds_later (Nat.le_succ k') left⟩
      split
      · exact ends_bind.mpr (ih (left' _ rfl))
      · cases env.proceeds k' && s.injectRx.closed
        · exact left' _ rfl
        · exact left' _ rfl
    · rintro k' t - ⟨noise, left⟩
      exact ⟨inner.say noise, heard, said.insert trivial, left⟩
    · rintro e k' t - ⟨noise, left⟩
      exact ⟨inner.say noise, heard, said.insert trivial, left⟩

/-- A write injector upholds what its stream does, with its messages put in. -/
theorem WriteInjector.upholds [AsyncRead T] [AsyncWrite T] (h : Upholds env law) :
    Upholds env (law.inserting False True WriteInjector.inner) where
  read buf hs := Law.inserting_reading (fun s inner => { s with inner }) (fun _ _ => rfl) hs
    fun inner hold => h.read buf hold
  write {k b s} buf hs := by
    show (pollWrite buf).Ends env k s _
    simp only [AsyncWrite.pollWrite, ends_bind, ends_get]
    refine ends_mono (injectLoop_ends h.toWritesUphold _ hs) ?_ (fun _ _ _ left => left)
      fun _ _ _ _ left => left
    exact fun _ _ s' _ hs' => Law.inserting_writing _ (fun _ _ => rfl) hs' fun inner hold => h.write buf hold
  flush hs := Law.inserting_quiet _ (fun _ _ => rfl) hs fun inner hold => h.flush hold
  shutdown hs := Law.inserting_quiet _ (fun _ _ => rfl) hs fun inner hold => h.shutdown hold

/-! ## Counting -/

/-- A reader that has counted every byte that was read from it since this many, and has a rate once there
is one. -/
def Law.counted (law : Law T) (since : Nat) : Law (RateCountingReader T) where
  holds k b s := law.holds k b s.inner ∧ since ≤ b.heard.length ∧
    s.total.toNat = min (b.heard.length - since) (2 ^ 64 - 1) ∧ (s.hasRate ↔ since < b.heard.length)
  fails e k b s := law.fails e k b s.inner
  holds_later later h := ⟨law.holds_later later h.1, h.2⟩
  fails_later := law.fails_later

namespace RateCountingReader

variable {k since : Nat} {b : Books} {s : RateCountingReader T}

/-- The count after a read that has put these bytes in. -/
theorem count_ends {bytes : List UInt8} {t : T} (hold : law.holds k (b.hear bytes) t)
    (hs : (law.counted since).holds k b s) :
    (count bytes.length).Ends env k { s with inner := t }
      ⟨fun _ k' s' => (law.counted since).holds k' (b.hear bytes) s', fun _ _ => False,
        fun _ _ _ => False⟩ := by
  obtain ⟨-, before, total, rate⟩ := hs
  have total : s.totalBytes.toNat = min (b.heard.length - since) (2 ^ 64 - 1) := total
  unfold count
  split
  · next some =>
    have longer : (b.hear bytes).heard.length = b.heard.length + bytes.length := by
      rw [Books.hear_heard, List.length_append]
    have more : (UInt64.ofNat (min (s.totalBytes.toNat + bytes.length) (2 ^ 64 - 1))).toNat =
        min ((b.hear bytes).heard.length - since) (2 ^ 64 - 1) := by
      rw [UInt64.toNat_ofNat', longer]
      omega
    have counts : since ≤ (b.hear bytes).heard.length ∧ since < (b.hear bytes).heard.length := by omega
    simp only [ends_bind, ends_modify, ends_get]
    split
    · refine ends_bind.mpr ?_
      rw [now, ends_observe]
      exact ⟨law.holds_later (Nat.le_succ k) hold, counts.1, more, iff_of_true rfl counts.2⟩
    · next started =>
      have started : s.start.isSome := by
        cases same : s.start with
        | none => exact absurd (congrArg Option.isNone same) started
        | some start => rfl
      exact ⟨hold, counts.1, more, iff_of_true started counts.2⟩
  · next none =>
    have empty : bytes = [] := List.eq_nil_of_length_eq_zero (by omega)
    subst empty
    rw [Books.hear_nil] at hold ⊢
    exact ⟨hold, before, total, rate⟩

/-- A counting reader upholds what its stream does. -/
theorem upholds [AsyncRead T] [AsyncWrite T] (h : Upholds env law) :
    Upholds env (law.counted since) where
  read {k b s} buf hs := by
    show (pollRead : Io (RateCountingReader T × ReadBuf) Unit).Ends env k (s, buf) _
    simp only [AsyncRead.pollRead, ends_bind, ends_get]
    refine ends_zoom.mpr (ends_mono (h.read buf hs.1) ?_ ?_ fun _ _ _ _ failed => failed)
    · rintro _ k' ⟨t, buf'⟩ later ⟨bytes, rfl, left⟩
      have diff : (buf.filled ++ bytes).length - buf.filled.length = bytes.length := by
        rw [List.length_append, Nat.add_sub_cancel_left]
      show (count ((buf.filled ++ bytes).length - buf.filled.length) |>.zoom _ _).Ends env k' _ _
      rw [diff]
      refine ends_zoom.mpr
        (ends_mono (count_ends left ((law.counted since).holds_later later hs)) ?_ ?_ ?_)
      · exact fun _ _ s' _ hs' => ⟨bytes, rfl, hs'⟩
      · exact fun _ _ _ no => no.elim
      · exact fun _ _ _ _ no => no.elim
    · exact fun _ t _ left => ⟨left, hs.2⟩
  write buf hs := ends_zoom.mpr (ends_mono (h.write buf hs.1)
    (fun _ _ _ _ left => ⟨left.1, left.2, hs.2⟩) (fun _ _ _ left => ⟨left, hs.2⟩)
    fun _ _ _ _ failed => failed)
  flush hs := ends_zoom.mpr (ends_mono (h.flush hs.1) (fun _ _ _ _ left => ⟨left, hs.2⟩)
    (fun _ _ _ left => ⟨left, hs.2⟩) fun _ _ _ _ failed => failed)
  shutdown hs := ends_zoom.mpr (ends_mono (h.shutdown hs.1) (fun _ _ _ _ left => ⟨left, hs.2⟩)
    (fun _ _ _ left => ⟨left, hs.2⟩) fun _ _ _ _ failed => failed)

end RateCountingReader

/-! ## Laws from laws -/

/-- The law, with nothing said of a failure. -/
def Law.mild (law : Law T) : Law T where
  holds := law.holds
  fails _ _ _ _ := True
  holds_later := law.holds_later
  fails_later _ _ := trivial

/-- One of a family of laws. -/
def Law.some {ι : Type} (law : ι → Law T) : Law T where
  holds k b t := ∃ i, (law i).holds k b t
  fails e k b t := ∃ i, (law i).fails e k b t
  holds_later later := fun ⟨i, hold⟩ => ⟨i, (law i).holds_later later hold⟩
  fails_later later := fun ⟨i, failed⟩ => ⟨i, (law i).fails_later later failed⟩

/-- One book after another. -/
def Books.after (before b : Books) : Books := ⟨before.heard ++ b.heard, before.said ++ b.said⟩

/-- The law, with books that are kept from a later time on. -/
def Law.after (law : Law T) (before : Books) : Law T where
  holds k b t := law.holds k (before.after b) t
  fails e k b t := law.fails e k (before.after b) t
  holds_later := law.holds_later
  fails_later := law.fails_later

section Less

variable [AsyncRead T] [AsyncWrite T]

theorem Upholds.mild (h : Upholds env law) : Upholds env law.mild where
  read buf hs := ends_mono (h.read buf hs) (fun _ _ _ _ left => left) (fun _ _ _ left => left)
    fun _ _ _ _ _ => trivial
  write buf hs := ends_mono (h.write buf hs) (fun _ _ _ _ left => left) (fun _ _ _ left => left)
    fun _ _ _ _ _ => trivial
  flush hs := ends_mono (h.flush hs) (fun _ _ _ _ left => left) (fun _ _ _ left => left)
    fun _ _ _ _ _ => trivial
  shutdown hs := ends_mono (h.shutdown hs) (fun _ _ _ _ left => left) (fun _ _ _ left => left)
    fun _ _ _ _ _ => trivial

theorem Upholds.some {ι : Type} {law : ι → Law T} (h : ∀ i, Upholds env (law i)) :
    Upholds env (Law.some law) where
  read buf hs := by
    obtain ⟨i, hs⟩ := hs
    refine ends_mono ((h i).read buf hs) ?_ (fun _ _ _ left => ⟨i, left⟩) fun _ _ _ _ left => ⟨i, left⟩
    rintro _ k' s' - ⟨bytes, filled, left⟩
    exact ⟨bytes, filled, i, left⟩
  write buf hs := by
    obtain ⟨i, hs⟩ := hs
    exact ends_mono ((h i).write buf hs) (fun _ _ _ _ left => ⟨left.1, i, left.2⟩)
      (fun _ _ _ left => ⟨i, left⟩) fun _ _ _ _ left => ⟨i, left⟩
  flush hs := by
    obtain ⟨i, hs⟩ := hs
    exact ends_mono ((h i).flush hs) (fun _ _ _ _ left => ⟨i, left⟩) (fun _ _ _ left => ⟨i, left⟩)
      fun _ _ _ _ left => ⟨i, left⟩
  shutdown hs := by
    obtain ⟨i, hs⟩ := hs
    exact ends_mono ((h i).shutdown hs) (fun _ _ _ _ left => ⟨i, left⟩) (fun _ _ _ left => ⟨i, left⟩)
      fun _ _ _ _ left => ⟨i, left⟩

theorem Upholds.after (h : Upholds env law) (before : Books) : Upholds env (law.after before) where
  read {k b t} buf hs := by
    refine ends_mono (h.read buf hs) ?_ (fun _ _ _ left => left) fun _ _ _ _ left => left
    rintro _ k' s' - ⟨bytes, filled, left⟩
    refine ⟨bytes, filled, ?_⟩
    show law.holds k' ⟨before.heard ++ (b.heard ++ bytes), _⟩ s'.1
    rw [← List.append_assoc]
    exact left
  write {k b t} buf hs := by
    refine ends_mono (h.write buf hs) ?_ (fun _ _ _ left => left) fun _ _ _ _ left => left
    intro n k' s' _ left
    refine ⟨left.1, ?_⟩
    show law.holds k' ⟨_, before.said ++ (b.said ++ buf.take n)⟩ s'
    rw [← List.append_assoc]
    exact left.2
  flush hs := h.flush hs
  shutdown hs := h.shutdown hs

end Less

theorem Oneshot.Brings.send {rx : Oneshot} (err : BError) (h : rx.Brings fun _ => True) :
    (rx.send err).Brings fun _ => True := by
  cases rx with
  | complete => exact h
  | _ => trivial

theorem Oneshot.Brings.hangUp {rx : Oneshot} (h : rx.Brings fun _ => True) :
    rx.hangUp.Brings fun _ => True := by
  cases rx with
  | complete => exact h
  | _ => trivial

/-- A word to a channel that may bring anything leaves it one. -/
theorem Channel.told {waits : Prop} {rx : Option Oneshot} {word : Oneshot → Oneshot}
    (h : Channel (fun _ => True) waits rx)
    (keeps : ∀ r, r.Brings (fun _ => True) → (word r).Brings fun _ => True) :
    Channel (fun _ => True) (rx.map word = some .waiting) (rx.map word) := by
  refine ⟨Iff.rfl, fun r came => ?_⟩
  obtain ⟨r', same, rfl⟩ := Option.map_eq_some_iff.mp came
  exact keeps r' (h.2 r' same)

/-- A flush of it is never put off. -/
def PromptFlush (T : Type) [AsyncWrite T] : Prop :=
  ∀ env k t, (pollFlush : Io T Unit).wp env k t fun r _ _ => r ≠ .pending

/-- A stream whose flushes are those of another. -/
theorem PromptFlush.through {S : Type} [AsyncWrite S] [AsyncWrite T] (h : PromptFlush T) (part : S → T)
    (set : S → T → S) (same : (pollFlush : Io S Unit) = pollFlush.zoom part set) : PromptFlush S := by
  intro env k s
  rw [same]
  exact wp_zoom.mpr (h env k (part s))

/-! ## One adapter -/

namespace Layer

variable {G : Type}

/-- It may put bytes of its own into what is read. -/
def NoisyReads (env : World) : Layer → Prop
  | .injectRead => True
  | .corrupt prob => Loud env prob
  | _ => False

/-- It may put bytes of its own into what is written. -/
def NoisyWrites (env : World) : Layer → Prop
  | .injectWrite => True
  | .corrupt prob => Loud env prob
  | _ => False

/-- The law of the adapter, from that of its stream. -/
def lawOver (G : Type) (env : World) (law : Law T) : (layer : Layer) → Law (layer.Over T G)
  | .delayWrites _ => law.of DelayedWriter.inner
  | .throttleWrites _ => law.of ThrottledWriter.inner
  | .sliceWrites _ => law.sliced
  | .injectWrite => law.inserting False True WriteInjector.inner
  | .injectRead => law.inserting True False ReadInjector.inner
  | .terminate _ => law.fused
  | .corrupt prob => law.corrupted env prob
  | .shutdown => Law.some fun waits => law.signalled (fun _ => True) waits
  | .countReads => Law.some law.counted

/-- The adapter upholds it, if its stream upholds a law that says nothing of failures and puts no flush
off. -/
theorem upholds [SmallRng G] [AsyncRead T] [AsyncWrite T] (h : Upholds env law) (prompt : PromptFlush T)
    (layer : Layer) : Upholds env (layer.lawOver G env law.mild) := by
  have h := h.mild
  cases layer with
  | delayWrites duration => exact DelayedWriter.upholds h
  | throttleWrites rate => exact ThrottledWriter.upholds h
  | sliceWrites size =>
    refine SlicedWriter.upholds h fun {k b t} hold => ?_
    refine wp_mono (wp_and (h.flush hold) (prompt env k t)) ?_
    rintro (_ | e | u | message) t' k' ⟨left, answered⟩
    · exact answered rfl
    · exact fun _ => trivial
    · exact left
    · exact left
  | injectWrite => exact WriteInjector.upholds h
  | injectRead => exact ReadInjector.upholds h
  | terminate prob => exact Terminator.upholds h
  | corrupt prob => exact Corrupter.upholds h
  | shutdown => exact .some fun waits => Shutdowner.upholds h
  | countReads => exact .some fun since => RateCountingReader.upholds h

/-- It keeps its flushes as prompt as they are. -/
theorem prompt [SmallRng G] [AsyncRead T] [AsyncWrite T] (h : PromptFlush T) (layer : Layer) :
    PromptFlush (layer.Over T G) := by
  cases layer with
  | delayWrites duration => exact h.through DelayedWriter.inner (fun s inner => { s with inner }) rfl
  | throttleWrites rate => exact h.through ThrottledWriter.inner (fun s inner => { s with inner }) rfl
  | sliceWrites size => exact h.through SlicedWriter.inner (fun s inner => { s with inner }) rfl
  | injectWrite => exact h.through WriteInjector.inner (fun s inner => { s with inner }) rfl
  | injectRead => exact h.through ReadInjector.inner (fun s inner => { s with inner }) rfl
  | terminate prob =>
    intro env k s
    refine Terminator.guarded_wp.mpr (Terminator.asked_of ?_ ?_)
    · intro s' k' _ pending
      cases pending
    · exact fun s' k' _ => h env k' s'.inner
  | corrupt prob => exact h.through Corrupter.inner (fun s inner => { s with inner }) rfl
  | shutdown =>
    intro env k s
    refine Shutdowner.guarded_wp.mpr (.of (fun _ pending => ?_) (fun _ _ pending => ?_)
      (fun _ pending => ?_) fun _ => h env (k + 1) s.inner)
    all_goals cases pending
  | countReads => exact h.through RateCountingReader.inner (fun s inner => { s with inner }) rfl

variable {env : World} {k : Nat} {b : Books}

/-- What its owner has heard is what its stream has given, and what its stream has received is what its
owner has said, but for what a noisy one puts in. -/
theorem lawOver_inner {layer : Layer} {s : layer.Over T G} (h : (layer.lawOver G env law).holds k b s) :
    ∃ inner : Books, Inlaid (layer.NoisyReads env) inner.heard b.heard ∧
      Inlaid (layer.NoisyWrites env) b.said inner.said ∧ law.holds k inner (layer.inner s) := by
  cases layer with
  | delayWrites duration => exact ⟨b, .refl, .refl, h⟩
  | throttleWrites rate => exact ⟨b, .refl, .refl, h⟩
  | sliceWrites size => exact ⟨b, .refl, .refl, h.1⟩
  | injectWrite => exact h
  | injectRead => exact h
  | terminate prob => exact ⟨b, .refl, .refl, h.1⟩
  | corrupt prob => exact h.2.2
  | shutdown =>
    obtain ⟨waits, hold, -⟩ := h
    exact ⟨b, .refl, .refl, hold⟩
  | countReads =>
    obtain ⟨since, hold, -⟩ := h
    exact ⟨b, .refl, .refl, hold⟩

/-- A new one. -/
theorem lawOver_makes [SmallRng G] {layer : Layer} {s : layer.Over T G} {t : T}
    (hold : law.holds k .blank t) (makes : layer.Makes env t s) :
    (layer.lawOver G env law).holds k .blank s := by
  cases layer with
  | delayWrites duration =>
    obtain ⟨created, rfl⟩ := makes
    exact hold
  | throttleWrites rate =>
    obtain ⟨made, rfl⟩ := makes
    exact hold
  | sliceWrites size =>
    cases makes
    exact ⟨hold, rfl⟩
  | injectWrite =>
    obtain ⟨injectRx, rfl⟩ := makes
    exact ⟨.blank, .refl, .refl, hold⟩
  | injectRead =>
    obtain ⟨injectRx, rfl⟩ := makes
    exact ⟨.blank, .refl, .refl, hold⟩
  | terminate prob =>
    obtain ⟨rng, rfl⟩ := makes
    exact ⟨hold, rfl⟩
  | corrupt prob =>
    obtain ⟨rng, rfl⟩ := makes
    exact ⟨rfl, fun some => absurd rfl some, .blank, .refl, .refl, hold⟩
  | shutdown =>
    cases makes
    refine ⟨True, hold, iff_of_true rfl trivial, ?_⟩
    rintro r ⟨⟩
    trivial
  | countReads =>
    cases makes
    exact ⟨0, hold, Nat.le_refl 0, rfl, iff_of_false (fun h => by cases h) (Nat.lt_irrefl 0)⟩

/-- What others do to its channel, or to its count, is within the law. -/
theorem lawOver_outsideStep {layer : Layer} {s s' : layer.Over T G} (h : (layer.lawOver G env law).holds k b s)
    (stirs : layer.OutsideStep s s') : (layer.lawOver G env law).holds k b s' := by
  cases stirs with
  | messageToWrite s injectRx => exact h
  | messageToRead s injectRx => exact h
  | stop s err =>
    obtain ⟨waits, hold, channel⟩ := h
    exact ⟨_, hold, channel.told fun _ => Oneshot.Brings.send err⟩
  | drop s =>
    obtain ⟨waits, hold, channel⟩ := h
    exact ⟨_, hold, channel.told fun _ => Oneshot.Brings.hangUp⟩
  | reset s =>
    obtain ⟨since, hold, -⟩ := h
    refine ⟨b.heard.length, hold, Nat.le_refl _, ?_, iff_of_false (fun h => by cases h) (Nat.lt_irrefl _)⟩
    rw [Nat.sub_self]
    rfl

/-- What becomes of its stream within the law of that is within its own. -/
theorem lawOver_withInner {layer : Layer} {s : layer.Over T G} {t : T}
    (h : (layer.lawOver G env law).holds k b s)
    (stays : ∀ b, law.holds k b (layer.inner s) → law.holds k b t) :
    (layer.lawOver G env law).holds k b (layer.withInner s t) := by
  cases layer with
  | delayWrites duration => exact stays b h
  | throttleWrites rate => exact stays b h
  | sliceWrites size => exact ⟨stays b h.1, h.2⟩
  | injectWrite =>
    obtain ⟨inner, heard, said, hold⟩ := h
    exact ⟨inner, heard, said, stays inner hold⟩
  | injectRead =>
    obtain ⟨inner, heard, said, hold⟩ := h
    exact ⟨inner, heard, said, stays inner hold⟩
  | terminate prob => exact ⟨stays b h.1, h.2⟩
  | corrupt prob =>
    obtain ⟨knob, stored, inner, heard, said, hold⟩ := h
    exact ⟨knob, stored, inner, heard, said, stays inner hold⟩
  | shutdown =>
    obtain ⟨waits, hold, channel⟩ := h
    exact ⟨waits, stays b hold, channel⟩
  | countReads =>
    obtain ⟨since, hold, counts⟩ := h
    exact ⟨since, stays b hold, counts⟩

end Layer

/-! ## The stack -/

namespace Stack

variable {W G : Type} {env : World} {k : Nat} {b : Books} {w : W}

/-- One of the adapters may put bytes of its own into what is read. -/
def NoisyReads (env : World) (layers : List Layer) : Prop := ∃ layer ∈ layers, layer.NoisyReads env

/-- One of the adapters may put bytes of its own into what is written. -/
def NoisyWrites (env : World) (layers : List Layer) : Prop := ∃ layer ∈ layers, layer.NoisyWrites env

/-- Each adapter's law over that of the next, down to the books of the socket. -/
def laws (G : Type) [Peer W] (env : World) : (layers : List Layer) → Law (Stack W G layers)
  | [] => (Law.ledger given received : Law W)
  | layer :: layers => layer.lawOver G env (laws G env layers).mild

theorem prompt [SmallRng G] [Peer W] : (layers : List Layer) → PromptFlush (Stack W G layers)
  | [] => by
    intro env k w
    have ready : (pollFlush : Io W Unit).wp env k w fun r _ _ => r = .ok () :=
      ReadySink.flushReady (W := W) env k w trivial
    refine wp_mono ready ?_
    rintro _ w' k' rfl pending
    cases pending
  | layer :: layers => layer.prompt (prompt layers)

/-- Any stack upholds its law. -/
theorem upholds [SmallRng G] [Peer W] : (layers : List Layer) → Upholds env (laws (W := W) G env layers)
  | [] => Peer.honest (W := W) env
  | layer :: layers => layer.upholds (upholds layers) (prompt layers)

/-- The owner's books are the socket's, but for what noisy adapters put in. -/
theorem laws_books [Peer W] {layers : List Layer} {s : Stack W G layers}
    (h : (laws G env layers).holds k b s) :
    Inlaid (NoisyReads env layers) (given (socket layers s)) b.heard ∧
      Inlaid (NoisyWrites env layers) b.said (received (socket layers s)) := by
  induction layers generalizing b with
  | nil =>
    obtain ⟨heard, said⟩ := h
    exact ⟨heard ▸ .refl, said ▸ .refl⟩
  | cons layer layers ih =>
    obtain ⟨inner, heard, said, hold⟩ := Layer.lawOver_inner h
    obtain ⟨heard', said'⟩ := ih hold
    have here : layer ∈ layer :: layers := List.mem_cons_self
    have below : ∀ {p : Layer → Prop}, (∃ l ∈ layers, p l) → ∃ l ∈ layer :: layers, p l :=
      fun ⟨l, mem, noisy⟩ => ⟨l, List.mem_cons_of_mem _ mem, noisy⟩
    exact ⟨(heard'.louder below).trans (heard.louder fun noisy => ⟨layer, here, noisy⟩),
      (said.louder fun noisy => ⟨layer, here, noisy⟩).trans (said'.louder below)⟩

/-- A new stack over a fresh socket. -/
theorem laws_made [SmallRng G] [Peer W] (fresh : Peer.Fresh w) {layers : List Layer}
    {s : Stack W G layers} (made : Made env w layers s) : (laws G env layers).holds k .blank s := by
  induction layers with
  | nil =>
    cases made
    exact fresh
  | cons layer layers ih =>
    obtain ⟨t, made, makes⟩ := made
    exact Layer.lawOver_makes (ih made) makes

/-- What others do to one adapter is within the law of the stack. -/
theorem laws_outsideStep [Peer W] {layers : List Layer} {s s' : Stack W G layers} (stirs : OutsideStep layers s s')
    (h : (laws G env layers).holds k b s) : (laws G env layers).holds k b s' := by
  induction layers generalizing b with
  | nil => exact stirs.elim
  | cons layer layers ih =>
    rcases stirs with stirs | ⟨t, stirs, rfl⟩
    · exact Layer.lawOver_outsideStep h stirs
    · exact Layer.lawOver_withInner h fun b hold => ih stirs hold

/-- **Any stack of adapters carries its owner's bytes.** In every run of an owner over a new stack around
a fresh socket, with messages, kills and resets coming for the adapters at any time, as long as no call
has failed: no call unwinds; what the owner has read is what the socket has given, and what the socket
has received is what the owner's writes were answered for, byte for byte and in order. Only injectors,
and corrupters whose knob is ever above zero, put bytes of their own in between, each on its own way. -/
theorem carries [SmallRng G] [Peer W] (layers : List Layer) {s : Stack W G layers} (fresh : Peer.Fresh w)
    (made : Made env w layers s) {turns : List (OwnerMove (Stack W G layers))}
    (stirred : (owned _ env).Allowed (fun _ s turn => ∀ t, turn = .become t → OutsideStep layers s.state t)
      ⟨k, s⟩ turns) :
    (owned _ env).Throughout (fun past s => Unfailed past → (∀ e ∈ past, Calm e.2) ∧
      Inlaid (NoisyReads env layers) (given (socket layers s.state)) (booksOf past).heard ∧
      Inlaid (NoisyWrites env layers) (booksOf past).said (received (socket layers s.state))) ⟨k, s⟩
      turns := by
  have kept := (upholds layers).throughout laws_outsideStep (laws_made fresh made) stirred
  refine kept.mono fun past s kept unfailed => ?_
  obtain ⟨calm, hold⟩ := kept unfailed
  exact ⟨calm, laws_books hold⟩

/-- Every adapter but the two that read through a buffer, with its knob at a zero cell. -/
def whole : List Layer :=
  [.countReads, .corrupt ⟨0⟩, .injectRead, .sliceWrites ⟨0⟩, .shutdown, .injectWrite, .terminate ⟨0⟩,
    .throttleWrites ⟨0⟩, .delayWrites ⟨0⟩]

/-- Their constructors, one around the other. -/
def wholeOf (w : Line) : Stack Line Xoshiro whole :=
  let rng : Xoshiro := SmallRng.fromSeed Xoshiro.seed
  let delayed := DelayedWriter.new 0 w (⟨0⟩ : DynamicDuration)
  let throttled := ThrottledWriter.new World.still 0 delayed (⟨0⟩ : DynamicRate)
  let terminated := (Terminator.fromRng throttled (⟨0⟩ : DynamicProbability) rng).1
  let wrote := WriteInjector.new terminated ⟨[[33]], false⟩
  let sliced := SlicedWriter.new (Shutdowner.new wrote) (⟨0⟩ : DynamicSize)
  let read := ReadInjector.new sliced ⟨[], false⟩
  RateCountingReader.new (Corrupter.fromRng read (⟨0⟩ : DynamicProbability) rng).1

/-- Two bytes each way, a flush, and a count that is reset first. -/
def exchange : List (OwnerMove (Stack Line Xoshiro whole)) :=
  [.become (RateCountingReader.reset (wholeOf ⟨[], [some [104, 105]], ⟨[], []⟩⟩)), .read ⟨[], 8⟩,
    .write [121, 111], .flush, .read ⟨[], 8⟩, .shutdown]

theorem exchange_carried :
    (owned (Stack Line Xoshiro whole) World.still).Throughout (fun past s => Unfailed past →
      (∀ e ∈ past, Calm e.2) ∧
      Inlaid (NoisyReads World.still whole) (given (socket whole s.state)) (booksOf past).heard ∧
      Inlaid (NoisyWrites World.still whole) (booksOf past).said (received (socket whole s.state)))
      ⟨0, wholeOf ⟨[], [some [104, 105]], ⟨[], []⟩⟩⟩ exchange := by
  refine carries whole (w := ⟨[], [some [104, 105]], ⟨[], []⟩⟩) ⟨rfl, rfl⟩ ?_ ?_
  · exact ⟨_, ⟨_, ⟨_, ⟨_, ⟨_, ⟨_, ⟨_, ⟨_, ⟨_, rfl, 0, rfl⟩, 0, rfl⟩, _, rfl⟩, _, rfl⟩, rfl⟩, rfl⟩, _, rfl⟩, _,
      rfl⟩, rfl⟩
  · refine ⟨fun t same => ?_, fun t same => ?_, fun t same => ?_, fun t same => ?_, fun t same => ?_,
      fun t same => ?_, trivial⟩
    · cases same
      exact .inl (.reset _)
    all_goals cases same

/-- What others do to the adapters below a counting reader. -/
def OutsideStepBelow (layers : List Layer) (s s' : RateCountingReader (Stack W G layers)) : Prop :=
  ∃ inner, OutsideStep layers s.inner inner ∧ s' = { s with inner }

/-- A counting reader around such a stack, in the hands of an owner. -/
abbrev counted (W G : Type) [SmallRng G] [Peer W] (env : World) (layers : List Layer) :
    Machine (Paced (RateCountingReader (Stack W G layers)))
      (OwnerMove (RateCountingReader (Stack W G layers))) (Poll IoError Reply) :=
  owned (RateCountingReader (Stack W G layers)) env

/-- **What a counting reader counts.** Around any stack, after any run without a failed call, and from a
reset on: as long as no call fails, the total is the number of bytes that reads have handed over since,
up to the largest `u64`, and there is a rate once there is one such byte. -/
theorem counts [SmallRng G] [Peer W] (layers : List Layer) {t : Stack W G layers} (fresh : Peer.Fresh w)
    (made : Made env w layers t) {before after : List (OwnerMove (RateCountingReader (Stack W G layers)))}
    {s : Paced (RateCountingReader (Stack W G layers))}
    (stirred : (counted W G env layers).Allowed (fun _ s turn => ∀ s', turn = .become s' →
      OutsideStep (.countReads :: layers) s.state s') ⟨k, .new t⟩ before)
    (unfailed : Unfailed ((counted W G env layers).run ⟨k, .new t⟩ before).1)
    (reached : s = ((counted W G env layers).run ⟨k, .new t⟩ before).2)
    (uncounted : (counted W G env layers).Allowed (fun _ s turn => ∀ s', turn = .become s' →
      OutsideStepBelow layers s.state s') ⟨s.moment, s.state.reset⟩ after) :
    (counted W G env layers).Throughout (fun past s => Unfailed past →
      s.state.total.toNat = min (booksOf past).heard.length (2 ^ 64 - 1) ∧
      (s.state.hasRate ↔ (booksOf past).heard ≠ [])) ⟨s.moment, s.state.reset⟩ after := by
  -- the law of the stack below holds at the reset, with some books
  obtain ⟨b, hold⟩ : ∃ b, (laws G env layers).holds s.moment b s.state.inner := by
    have made : Made env w (.countReads :: layers) (RateCountingReader.new t) := ⟨t, made, rfl⟩
    have kept := (upholds (.countReads :: layers)).at_end laws_outsideStep (laws_made fresh made) stirred
    obtain ⟨since, hold, -⟩ := (kept unfailed).2
    subst reached
    exact ⟨_, hold⟩
  -- a new count over it
  have upheld : Upholds env (((laws (W := W) G env layers).mild.after b).counted 0) :=
    RateCountingReader.upholds ((upholds layers).mild.after b)
  have stays : ∀ {k' b' s s'}, OutsideStepBelow layers s s' →
      (((laws (W := W) G env layers).mild.after b).counted 0).holds k' b' s →
      (((laws (W := W) G env layers).mild.after b).counted 0).holds k' b' s' := by
    rintro k' b' s _ ⟨inner, stirs, rfl⟩ ⟨hold, counts⟩
    exact ⟨laws_outsideStep stirs hold, counts⟩
  have starts : (((laws (W := W) G env layers).mild.after b).counted 0).holds s.moment .blank
      s.state.reset := by
    refine ⟨?_, Nat.le_refl 0, rfl, iff_of_false (fun h => by cases h) (Nat.lt_irrefl 0)⟩
    show (laws G env layers).holds _ ⟨b.heard ++ [], b.said ++ []⟩ _
    rw [List.append_nil, List.append_nil]
    exact hold
  refine (upheld.throughout stays starts uncounted).mono fun past s kept unfailed => ?_
  obtain ⟨-, -, total, rate⟩ := (kept unfailed).2
  rw [Nat.sub_zero] at total
  exact ⟨total, rate.trans List.length_pos_iff⟩

/-- A read injector with these messages, around a line with two bytes. -/
def greeted (messages : List (List UInt8)) : Stack Line Xoshiro [.injectRead] :=
  ReadInjector.new (⟨[], [some [104, 105]], ⟨[], []⟩⟩ : Line) ⟨messages, false⟩

/-- The message is read before the reset, and the two bytes after it. -/
theorem greeted_counted :
    (counted Line Xoshiro World.still [.injectRead]).Throughout
      (fun past s => Unfailed past →
        s.state.total.toNat = min (booksOf past).heard.length (2 ^ 64 - 1) ∧
        (s.state.hasRate ↔ (booksOf past).heard ≠ []))
      ⟨2, RateCountingReader.reset ⟨greeted [], 1, some 0⟩⟩
      [.read ⟨[], 1⟩, .write [121], .read ⟨[], 8⟩] := by
  have stirred : (counted Line Xoshiro World.still [.injectRead]).Allowed
      (fun _ s turn => ∀ s', turn = .become s' → OutsideStep [.countReads, .injectRead] s.state s')
      ⟨0, .new (greeted [[33]])⟩ [.read ⟨[], 8⟩] := by
    refine ⟨fun t same => ?_, trivial⟩
    cases same
  have answers : ((counted Line Xoshiro World.still [.injectRead]).run ⟨0, .new (greeted [[33]])⟩
      [.read ⟨[], 8⟩]).1 = [(.read ⟨[], 8⟩, .ok (.filled ⟨[33], 8⟩))] := rfl
  have unfailed : Unfailed ((counted Line Xoshiro World.still [.injectRead]).run
      ⟨0, .new (greeted [[33]])⟩ [.read ⟨[], 8⟩]).1 := by
    rw [answers]
    intro e mem err failed
    cases List.mem_singleton.mp mem
    cases failed
  refine counts [.injectRead] (s := ⟨2, greeted [], 1, some 0⟩) (w := ⟨[], [some [104, 105]], ⟨[], []⟩⟩)
    ⟨rfl, rfl⟩ ⟨_, rfl, _, rfl⟩ stirred unfailed rfl ?_
  refine ⟨fun t same => ?_, fun t same => ?_, fun t same => ?_, trivial⟩
  all_goals cases same

end Stack

end Trixter
