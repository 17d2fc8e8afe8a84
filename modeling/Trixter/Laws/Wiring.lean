import Trixter.Lib.Fixes
import Trixter.Laws.Relay

/-!
# What the adapters are wired to

No adapter changes its knob: a wrapped socket has for good the five knobs it was built with
(`Task.Wired`, a law of every task). That these are what the API shows is for `Laws.Settings`.
-/

namespace Trixter

open Trixter.Lib Polling

/-! ## The adapters -/

/-- What a `view` shows of a stream stays as it is in every poll that a copy makes. -/
structure Fixed {T κ : Type} [AsyncRead T] [AsyncWrite T] (view : T → κ) : Prop where
  read : Fixes (fun s => view s.1) (pollRead : Io (T × ReadBuf) Unit)
  write : ∀ buf, Fixes view (pollWrite buf : Io T Nat)
  flush : Fixes view (pollFlush : Io T Unit)
  shutdown : Fixes view (pollShutdown : Io T Unit)

variable {T κ : Type} [AsyncRead T] [AsyncWrite T] {view : T → κ}

/-- A read that is passed on. -/
theorem Fixed.passRead {R ι : Type} {inner : R → T} {set : R → T → R} {seen : R → ι} (h : Fixed view)
    (frame : ∀ s t, view t = view (inner s) → seen (set s t) = seen s) :
    Fixes (fun s => seen s.1) (passRead inner set : Io (R × ReadBuf) Unit) :=
  fixes_zoom h.read fun s t same => frame s.1 t.1 same

/-- What is seen of a view that stays. -/
theorem Fixed.comp {ι : Type} (h : Fixed view) (f : κ → ι) : Fixed fun t => f (view t) :=
  ⟨h.read.comp f, fun buf => (h.write buf).comp f, h.flush.comp f, h.shutdown.comp f⟩

theorem fromNow_fixes {σ : Type} {seen : σ → κ} {duration : Nat} : Fixes seen (fromNow duration) := by
  refine fixes_bind (fixes_observe _) ?_
  rintro ⟨start, horizon⟩
  exact fixes_ite (fixes_panic _) (fixes_pure _)

namespace Delay

variable {D : Type}

theorem poll_fixes : Fixes delayDuration (poll : Io (Delay D) Action) := by
  refine fixes_bind fixes_get fun d => ?_
  cases d.state with
  | idle => exact fixes_pure _
  | delayed =>
    refine fixes_bind (fixes_zoom_away fun _ _ => rfl) fun _ => ?_
    exact fixes_bind (fixes_modify fun _ => rfl) fun _ => fixes_pure _

theorem maybeDelay_fixes [Duration D] : Fixes delayDuration (maybeDelay : Io (Delay D) Bool) := by
  refine fixes_bind fixes_get fun d => ?_
  cases d.state with
  | idle =>
    refine fixes_bind (fixes_observe _) fun duration => fixes_ite (fixes_pure _) ?_
    refine fixes_bind (fixes_modify fun _ => rfl) fun _ => fixes_bind fromNow_fixes fun deadline => ?_
    exact fixes_bind (fixes_modify fun _ => rfl) fun _ => fixes_pure _
  | delayed => exact fixes_panic _

end Delay

namespace DelayedWriter

variable {D α : Type}

/-- The knob, and what is seen of the inner writer. -/
def seen (view : T → κ) (s : DelayedWriter T D) : D × κ := (s.delay.delayDuration, view s.inner)

omit [AsyncRead T] [AsyncWrite T] in
theorem onInner_fixes {m : Io T α} (h : Fixes view m) : Fixes (seen (D := D) view) (onInner m) :=
  fixes_zoom h fun _ _ same => Prod.ext rfl same

omit [AsyncRead T] [AsyncWrite T] in
theorem onDelay_fixes {m : Io (Delay D) α} (h : Fixes Delay.delayDuration m) :
    Fixes (seen view) (onDelay m : Io (DelayedWriter T D) α) :=
  fixes_zoom h fun _ _ same => Prod.ext same rfl

variable [Duration D]

omit [AsyncRead T] [AsyncWrite T] in
theorem pollWithWriteDelay_fixes {f : Io T α} (h : Fixes view f) :
    Fixes (seen (D := D) view) (pollWithWriteDelay f) := by
  have loop : ∀ turns, Fixes (seen (D := D) view) (delayLoop f turns) := by
    intro turns
    induction turns with
    | zero => exact fixes_pend
    | succ turns ih =>
      refine fixes_bind (onDelay_fixes Delay.poll_fixes) fun action => ?_
      cases action with
      | beforeDelay =>
        exact fixes_bind (onDelay_fixes Delay.maybeDelay_fixes) fun armed =>
          fixes_ite ih (onInner_fixes h)
      | afterDelay => exact onInner_fixes h
  exact loop 2

theorem fixed (h : Fixed view) : Fixed (seen (D := D) view) where
  read := h.passRead fun _ _ same => Prod.ext rfl same
  write buf := pollWithWriteDelay_fixes (h.write buf)
  flush := onInner_fixes h.flush
  shutdown := pollWithWriteDelay_fixes h.shutdown

end DelayedWriter

namespace ThrottledWriter

variable {R α : Type}

/-- The knob, and what is seen of the inner writer. -/
def seen (view : T → κ) (s : ThrottledWriter T R) : R × κ := (s.lb.rate, view s.inner)

omit [AsyncRead T] [AsyncWrite T] in
theorem onInner_fixes {m : Io T α} (h : Fixes view m) : Fixes (seen (R := R) view) (onInner m) :=
  fixes_zoom h fun _ _ same => Prod.ext rfl same

omit [AsyncRead T] [AsyncWrite T] in
theorem onLb_fixes {m : Io (LeakyBucket R) α} (h : Fixes LeakyBucket.rate m) :
    Fixes (seen view) (onLb m : Io (ThrottledWriter T R) α) :=
  fixes_zoom h fun _ _ same => Prod.ext same rfl

theorem fixed [Rate R] (h : Fixed view) : Fixed (seen (R := R) view) where
  read := h.passRead fun _ _ same => Prod.ext rfl same
  write buf := by
    refine fixes_bind (fixes_observe _) fun unlimited => fixes_ite (onInner_fixes (h.write buf)) ?_
    refine fixes_bind (onLb_fixes (LeakyBucket.pollAcquire_fixes _)) fun grant => ?_
    refine fixes_ite (fixes_pure _) (fixes_bind (onInner_fixes (h.write _)) fun n => ?_)
    exact fixes_bind (onLb_fixes (fixes_modify fun _ => rfl)) fun _ => fixes_pure _
  flush := onInner_fixes h.flush
  shutdown := onInner_fixes h.shutdown

end ThrottledWriter

namespace SlicedWriter

variable {S α : Type}

/-- The knob, and what is seen of the inner writer. -/
def seen (view : T → κ) (s : SlicedWriter T S) : S × κ := (s.size, view s.inner)

omit [AsyncRead T] [AsyncWrite T] in
theorem onInner_fixes {m : Io T α} (h : Fixes view m) : Fixes (seen (S := S) view) (onInner m) :=
  fixes_zoom h fun _ _ same => Prod.ext rfl same

theorem flushSlice_fixes (h : Fixed view) (n : Nat) : Fixes (seen (S := S) view) (flushSlice n) := by
  refine fixes_bind (onInner_fixes h.flush) fun _ => ?_
  exact fixes_bind (fixes_modify fun _ => rfl) fun _ => fixes_pure _

theorem fixed [Size S] (h : Fixed view) : Fixed (seen (S := S) view) where
  read := h.passRead fun _ _ same => Prod.ext rfl same
  write buf := by
    refine fixes_bind (fixes_observe _) fun off => fixes_ite (onInner_fixes (h.write buf)) ?_
    refine fixes_bind (fixes_observe _) fun size => fixes_bind fixes_get fun s => ?_
    cases s.phase with
    | writing =>
      refine fixes_ite (fixes_pure _) (fixes_bind (onInner_fixes (h.write _)) fun written => ?_)
      exact fixes_bind (fixes_modify fun _ => rfl) fun _ => flushSlice_fixes h written
    | flushing n => exact flushSlice_fixes h n
  flush := onInner_fixes h.flush
  shutdown := onInner_fixes h.shutdown

end SlicedWriter

namespace Terminator

variable {P G α : Type} [SmallRng G] [Probability P]

/-- The knob, and what is seen of the inner stream. -/
def seen (view : T → κ) (s : Terminator T P G) : P × κ := (s.prob, view s.inner)

omit [AsyncRead T] [AsyncWrite T] in
theorem trigger_fixes : Fixes (seen view) (trigger : Io (Terminator T P G) Bool) := by
  have draws : Fixes (fun s : Bool × G × P => s.2.2) (tryTrigger : Io (Bool × G × P) Bool) := by
    refine fixes_bind fixes_get fun s => fixes_ite (fixes_pure _) ?_
    refine fixes_bind (fixes_observe _) fun th => fixes_ite (fixes_pure _) ?_
    refine fixes_bind (fixes_zoom_away fun _ _ => rfl) fun draw => fixes_ite ?_ (fixes_pure _)
    exact fixes_bind (fixes_modify fun _ => rfl) fun _ => fixes_pure _
  exact fixes_zoom draws fun _ _ same => Prod.ext same rfl

omit [AsyncRead T] [AsyncWrite T] in
theorem guarded_fixes {call : Io T α} (h : Fixes view call) :
    Fixes (seen (P := P) (G := G) view) (guarded call) :=
  fixes_bind trigger_fixes fun _ =>
    fixes_ite (fixes_fail _) (fixes_zoom h fun _ _ same => Prod.ext rfl same)

theorem fixed (h : Fixed view) : Fixed (seen (P := P) (G := G) view) where
  read := by
    refine fixes_bind (fixes_zoom trigger_fixes fun _ _ same => same) fun blown => ?_
    exact fixes_ite (fixes_fail _) (h.passRead fun _ _ same => Prod.ext rfl same)
  write buf := guarded_fixes (h.write buf)
  flush := guarded_fixes h.flush
  shutdown := guarded_fixes h.shutdown

end Terminator

namespace Corrupter

variable {P G α : Type} [SmallRng G] [Probability P]

/-- The knob, and what is seen of the inner stream. -/
def seen (view : T → κ) (s : Corrupter T P G) : P × κ := (s.prob, view s.inner)

omit [AsyncRead T] [AsyncWrite T] [SmallRng G] [Probability P] in
theorem onInner_fixes {m : Io T α} (h : Fixes view m) : Fixes (seen (P := P) (G := G) view) (onInner m) :=
  fixes_zoom h fun _ _ same => Prod.ext rfl same

omit [AsyncRead T] [AsyncWrite T] in
theorem shouldCorrupt_fixes : Fixes (seen view) (shouldCorrupt : Io (Corrupter T P G) Bool) := by
  refine fixes_bind (fixes_observe _) fun threshold => fixes_ite (fixes_pure _) ?_
  exact fixes_bind (fixes_zoom_away fun _ _ => rfl) fun _ => fixes_pure _

omit [AsyncRead T] [SmallRng G] [Probability P] in
theorem drain_fixes (h : ∀ buf, Fixes view (pollWrite buf : Io T Nat)) :
    Fixes (seen (P := P) (G := G) view) (onBacklog Backlog.drain) := by
  have rounds : ∀ n, Fixes (fun s => view s.inner) (Backlog.drainLoop n : Io (Backlog T) Unit) := by
    intro n
    induction n with
    | zero => exact fixes_pure _
    | succ n ih =>
      refine fixes_bind fixes_get fun s => fixes_ite (fixes_pure _) ?_
      refine fixes_bind (fixes_zoom (h _) fun _ _ same => same) fun size => ?_
      refine fixes_ite (fixes_fail _) (fixes_bind ?_ fun _ => ih)
      exact fixes_bind fixes_get fun s => fixes_ite (fixes_modify fun _ => rfl) (fixes_panic _)
  have drains : Fixes (fun s => view s.inner) (Backlog.drain : Io (Backlog T) Unit) := by
    refine fixes_bind fixes_get fun s => ?_
    cases s.buffer with
    | none => exact fixes_pure _
    | some block => exact fixes_bind (rounds _) fun _ => fixes_modify fun _ => rfl
  exact fixes_zoom drains fun _ _ same => Prod.ext rfl same

omit [AsyncRead T] in
theorem synthesize_fixes (h : ∀ buf, Fixes view (pollWrite buf : Io T Nat)) :
    Fixes (seen view) (synthesize : Io (Corrupter T P G) Unit) := by
  refine fixes_bind fixes_get fun s => ?_
  cases s.writeBuffer with
  | some block => exact drain_fixes h
  | none =>
    refine fixes_bind shouldCorrupt_fixes fun hit => fixes_ite ?_ (fixes_pure _)
    refine fixes_bind (fixes_zoom_away fun _ _ => rfl) fun data => ?_
    exact fixes_bind (fixes_modify fun _ => rfl) fun _ => drain_fixes h

theorem fixed (h : Fixed view) : Fixed (seen (P := P) (G := G) view) where
  read := by
    refine fixes_bind (fixes_zoom shouldCorrupt_fixes fun _ _ same => same) fun hit => fixes_ite ?_ ?_
    · refine fixes_bind fixes_get fun s => fixes_ite ?_ (fixes_pure _)
      have filled : Fixes (seen view)
          (onRng (randomDataSize s.2.remaining) : Io (Corrupter T P G) (List UInt8)) :=
        fixes_zoom_away fun _ _ => rfl
      exact fixes_bind (fixes_zoom filled fun _ _ same => same) fun _ => fixes_zoom_away fun _ _ => rfl
    · exact h.passRead fun _ _ same => Prod.ext rfl same
  write buf := fixes_bind (synthesize_fixes h.write) fun _ => onInner_fixes (h.write buf)
  flush := onInner_fixes h.flush
  shutdown := onInner_fixes h.shutdown

end Corrupter

/-! ## The connection -/

/-- A law under which a view shows this for good. -/
def Law.fixing {T κ : Type} (law : Law T) (view : T → κ) (shown : κ) : Law T where
  holds k b t := law.holds k b t ∧ view t = shown
  fails e k b t := law.fails e k b t ∧ view t = shown
  holds_later later h := ⟨law.holds_later later h.1, h.2⟩
  fails_later later h := ⟨law.fails_later later h.1, h.2⟩

theorem Upholds.fixing {env : World} {law : Law T} (h : Upholds env law) (fixed : Fixed view)
    (shown : κ) : Upholds env (law.fixing view shown) where
  read buf hs := by
    refine ends_mono (ends_fixes (h.read buf hs.1) fixed.read) ?_ ?_ ?_
    · rintro _ k' t - ⟨⟨bytes, filled, hold⟩, same⟩
      exact ⟨bytes, filled, hold, same.trans hs.2⟩
    · exact fun _ _ _ left => ⟨left.1, left.2.trans hs.2⟩
    · exact fun _ _ _ _ left => ⟨left.1, left.2.trans hs.2⟩
  write buf hs := by
    refine ends_mono (ends_fixes (h.write buf hs.1) (fixed.write buf)) ?_ ?_ ?_
    · exact fun _ _ _ _ left => ⟨left.1.1, left.1.2, left.2.trans hs.2⟩
    · exact fun _ _ _ left => ⟨left.1, left.2.trans hs.2⟩
    · exact fun _ _ _ _ left => ⟨left.1, left.2.trans hs.2⟩
  flush hs := ends_mono (ends_fixes (h.flush hs.1) fixed.flush)
    (fun _ _ _ _ left => ⟨left.1, left.2.trans hs.2⟩) (fun _ _ _ left => ⟨left.1, left.2.trans hs.2⟩)
    fun _ _ _ _ left => ⟨left.1, left.2.trans hs.2⟩
  shutdown hs := ends_mono (ends_fixes (h.shutdown hs.1) fixed.shutdown)
    (fun _ _ _ _ left => ⟨left.1, left.2.trans hs.2⟩) (fun _ _ _ left => ⟨left.1, left.2.trans hs.2⟩)
    fun _ _ _ _ left => ⟨left.1, left.2.trans hs.2⟩

namespace Pipeline

variable {W G : Type} {env : World}

/-- The knobs of the five adapters. -/
def wired (s : Pipeline W G) : Knobs where
  delay := s.inner.inner.inner.inner.delay.delayDuration
  throttleRate := s.inner.inner.inner.lb.rate
  sliceSize := s.inner.inner.size
  terminateProbabilityRate := s.inner.prob
  corruptProbabilityRate := s.prob

/-- They stay. -/
theorem fixed [SmallRng G] [AsyncRead W] [AsyncWrite W] : Fixed (wired (W := W) (G := G)) := by
  have socket : Fixed fun _ : W => () :=
    ⟨fun _ _ _ => rfl, fun _ _ _ _ => rfl, fun _ _ _ => rfl, fun _ _ _ => rfl⟩
  have seen := Corrupter.fixed (P := DynamicProbability) (G := G)
    (Terminator.fixed (P := DynamicProbability) (G := G)
      (SlicedWriter.fixed (S := DynamicSize)
        (ThrottledWriter.fixed (R := DynamicRate) (DelayedWriter.fixed (D := DynamicDuration) socket))))
  exact seen.comp fun (v : _ × _ × _ × _ × _ × Unit) =>
    (⟨v.2.2.2.2.1, v.2.2.2.1, v.2.2.1, v.2.1, v.1⟩ : Knobs)

/-- The law of a wrapped socket's books, with these knobs for good. -/
def wiredLaw (W G : Type) [Peer W] (env : World) (knobs : Knobs) : Law (Pipeline W G) :=
  (law env knobs.corruptProbabilityRate (books W)).fixing wired knobs

theorem wiredLaw_upheld [SmallRng G] [Peer W] {knobs : Knobs} : Upholds env (wiredLaw W G env knobs) :=
  (upholds (books_upheld env)).fixing fixed knobs

end Pipeline

variable {A B W G : Type} [Peer W] {there : Transfer A (Shutdowner (Pipeline W G)) (Pipeline W G)}
  {back : Transfer B (Pipeline W G) (Shutdowner (Pipeline W G))} {env : World} {knobs : Knobs}
  {k : Nat} {t : Task A B W G}

variable (there back env) in
/-- A task whose two wrapped sockets keep these knobs. -/
def Task.Wired (knobs : Knobs) (k : Nat) (t : Task A B W G) : Prop :=
  Task.KeepsLaws there back (Pipeline.wiredLaw W G env knobs) (Pipeline.wiredLaw W G env knobs) k t

/-- Their adapters read them. -/
theorem Task.Wired.both (h : Task.Wired there back env knobs k t) :
    t.copying.downstream.inner.wired = knobs ∧ t.copying.upstream.wired = knobs := by
  obtain ⟨-, -, -, both⟩ := Task.KeepsLaws.sides h (fun _ _ hold => hold.2) (fun _ _ hold => hold.2)
    (fun _ _ _ failed => failed.2) fun _ _ _ failed => failed.2
  exact both

namespace Server

/-- Keeping its knobs is a law of tasks. -/
theorem TaskLaw.wired [SmallRng G] (copiesThere : there.Copies) (copiesBack : back.Copies) :
    TaskLaw there back env (Task.Wired there back env knobs) :=
  .keepsLaws copiesThere copiesBack Pipeline.wiredLaw_upheld Pipeline.wiredLaw_upheld

/-- A connection between fresh sockets keeps the knobs it is accepted with. -/
theorem wired_new [SmallRng G] {cfg : Config G} (copiesThere : there.Copies) (copiesBack : back.Copies)
    {id : ConnId} {downstream upstream : W} (down : Peer.Fresh downstream) (up : Peer.Fresh upstream) :
    Task.Wired there back env knobs (k + 9)
      (newTask cfg there back env k id downstream upstream knobs) :=
  keepsLaws_new copiesThere.starts copiesBack.starts ⟨Pipeline.new_holds env k knobs _ down, rfl⟩
    ⟨Pipeline.new_holds env (k + 4) knobs _ up, rfl⟩

end Server

end Trixter
