import Trixter.Lib.Twin
import Trixter.Laws.Pipeline
import Trixter.Laws.ThrottlerRuns

/-!
# A connection with its knobs at zero

With its knob at zero an adapter forwards each poll, unless something is left over from before: the
timer of a delay that was armed, the rest of a block that was drawn. A slice phase and a bucket that
sleeps are never looked at. A write that goes through uses up both leftovers, and from then on every
poll of the stack is one poll of the socket: `transparent_once_through`. A blown fuse stays blown.
-/

namespace Trixter

open Trixter.Lib Polling

section Bypassed

variable {S T : Type} [AsyncBufRead S] [AsyncWrite S] [AsyncBufRead T] [AsyncWrite T] {env : World}
  {k : Nat} {s : S} {t : T} {put : T → S}

/-- Each poll of the adapter is one poll of the same kind, with the same arguments, of what it wraps;
a write is if `writes` holds. -/
structure Bypassed (env : World) (k : Nat) (s : S) (t : T) (put : T → S) (writes : Prop) : Prop where
  read : ∀ buf, ∃ j, Forwards (pollRead : Io (S × ReadBuf) Unit) (pollRead : Io (T × ReadBuf) Unit)
    env k (s, buf) j (t, buf) fun t' => (put t'.1, t'.2)
  fillBuf : ∃ j, Forwards (pollFillBuf : Io S _) (pollFillBuf : Io T _) env k s j t put
  write : writes → ∀ buf, ∃ j,
    Forwards (pollWrite buf : Io S Nat) (pollWrite buf : Io T Nat) env k s j t put
  vectored : ∀ bufs, ∃ j, Forwards (pollWriteVectored bufs : Io S Nat)
    (pollWriteVectored bufs : Io T Nat) env k s j t put
  flush : ∃ j, Forwards (pollFlush : Io S Unit) (pollFlush : Io T Unit) env k s j t put
  shutdown : ∃ j, Forwards (pollShutdown : Io S Unit) (pollShutdown : Io T Unit) env k s j t put

variable {writes : Prop}

theorem Bypassed.call (h : Bypassed env k s t put writes) (call : IoCall)
    (may : (∃ buf, call = .write (.write (.scalar buf))) → writes) :
    ∃ j, Forwards (call.poll : Io S Reply) (call.poll : Io T Reply) env k s j t put := by
  cases call with
  | read buf =>
    obtain ⟨j, read⟩ := h.read buf
    exact ⟨j, read.lend.map⟩
  | fillBuf =>
    obtain ⟨j, fillBuf⟩ := h.fillBuf
    exact ⟨j, fillBuf.map⟩
  | write op =>
    cases op with
    | write c =>
      cases c with
      | scalar buf =>
        obtain ⟨j, write⟩ := h.write (may ⟨buf, rfl⟩) buf
        exact ⟨j, write.map⟩
      | vectored bufs =>
        obtain ⟨j, vectored⟩ := h.vectored bufs
        exact ⟨j, vectored.map⟩
    | flush =>
      obtain ⟨j, flush⟩ := h.flush
      exact ⟨j, flush.map.map⟩
    | shutdown =>
      obtain ⟨j, shutdown⟩ := h.shutdown
      exact ⟨j, shutdown.map.map⟩

/-- An adapter over an adapter. -/
theorem Bypassed.trans {U : Type} [AsyncBufRead U] [AsyncWrite U] {u : U} {put' : U → T}
    (h : Bypassed env k s t put writes) (h' : ∀ j, k ≤ j → Bypassed env j t u put' True) :
    Bypassed env k s u (put ∘ put') writes where
  read buf := by
    obtain ⟨j, outer⟩ := h.read buf
    obtain ⟨i, inner⟩ := (h' j outer.later).read buf
    exact ⟨i, outer.trans inner⟩
  fillBuf := by
    obtain ⟨j, outer⟩ := h.fillBuf
    obtain ⟨i, inner⟩ := (h' j outer.later).fillBuf
    exact ⟨i, outer.trans inner⟩
  write may buf := by
    obtain ⟨j, outer⟩ := h.write may buf
    obtain ⟨i, inner⟩ := (h' j outer.later).write trivial buf
    exact ⟨i, outer.trans inner⟩
  vectored bufs := by
    obtain ⟨j, outer⟩ := h.vectored bufs
    obtain ⟨i, inner⟩ := (h' j outer.later).vectored bufs
    exact ⟨i, outer.trans inner⟩
  flush := by
    obtain ⟨j, outer⟩ := h.flush
    obtain ⟨i, inner⟩ := (h' j outer.later).flush
    exact ⟨i, outer.trans inner⟩
  shutdown := by
    obtain ⟨j, outer⟩ := h.shutdown
    obtain ⟨i, inner⟩ := (h' j outer.later).shutdown
    exact ⟨i, outer.trans inner⟩

end Bypassed

/-! ## The five adapters -/

variable {T P S R D G : Type} [AsyncBufRead T] [AsyncWrite T] {env : World} {k : Nat}

/-- An idle delay at zero. -/
theorem DelayedWriter.bypassed [Duration D] {s : DelayedWriter T D} (idle : s.delay.state = .idle)
    (zero : Duration.duration env s.delay.delayDuration k = 0) :
    Bypassed env k s s.inner (fun inner => { s with inner }) True := by
  have call {α : Type} (f : Io T α) :
      Forwards (pollWithWriteDelay f) f env k s (k + 1) s.inner fun inner => { s with inner } := by
    refine forwards_of_wp (Nat.le_succ k) fun Q => ?_
    rw [pollWithWriteDelay_wp, idle]
    exact iff_of_eq (if_pos zero)
  exact {
    read := fun buf => ⟨k, Nat.le_refl k, rfl, rfl, rfl⟩
    fillBuf := ⟨k, Nat.le_refl k, rfl, rfl, rfl⟩
    write := fun _ buf => ⟨k + 1, call _⟩
    vectored := fun bufs => ⟨k + 1, call _⟩
    flush := ⟨k, Nat.le_refl k, rfl, rfl, rfl⟩
    shutdown := ⟨k + 1, call _⟩ }

/-- A bucket that is switched off, whatever it holds and whether or not it sleeps. -/
theorem ThrottledWriter.bypassed [Rate R] {s : ThrottledWriter T R}
    (zero : Rate.isUnlimited env s.lb.rate k = true) :
    Bypassed env k s s.inner (fun inner => { s with inner }) True := by
  have call (c : WriteCall) : Forwards (c.poll : Io (ThrottledWriter T R) Nat) c.poll env k s (k + 1)
      s.inner fun inner => { s with inner } := by
    refine forwards_of_wp (Nat.le_succ k) fun Q => ?_
    rw [write_wp, if_pos zero]
  exact {
    read := fun buf => ⟨k, Nat.le_refl k, rfl, rfl, rfl⟩
    fillBuf := ⟨k, Nat.le_refl k, rfl, rfl, rfl⟩
    write := fun _ buf => ⟨k + 1, call (.scalar buf)⟩
    vectored := fun bufs => ⟨k + 1, call (.vectored bufs)⟩
    flush := ⟨k, Nat.le_refl k, rfl, rfl, rfl⟩
    shutdown := ⟨k, Nat.le_refl k, rfl, rfl, rfl⟩ }

/-- A slicer that is switched off, in either phase. -/
theorem SlicedWriter.bypassed [Size S] {s : SlicedWriter T S} (zero : Size.isZero env s.size k = true) :
    Bypassed env k s s.inner (fun inner => { s with inner }) True := by
  have write (buf : List UInt8) : Forwards (pollWrite buf : Io (SlicedWriter T S) Nat)
      (pollWrite buf) env k s (k + 1) s.inner fun inner => { s with inner } := by
    refine forwards_of_wp (Nat.le_succ k) fun Q => ?_
    simp only [AsyncWrite.pollWrite, wp_bind, isZero, wp_observe, zero, Bool.true_or, if_true, onInner,
      wp_zoom]
  have vectored (bufs : List (List UInt8)) :
      Forwards (pollWriteVectored bufs : Io (SlicedWriter T S) Nat) (pollWriteVectored bufs) env k s
        (k + 1) s.inner fun inner => { s with inner } := by
    refine forwards_of_wp (Nat.le_succ k) fun Q => ?_
    simp only [AsyncWrite.pollWriteVectored, wp_bind, isZero, wp_observe, zero, Bool.true_or, if_true,
      onInner, wp_zoom]
  exact {
    read := fun buf => ⟨k, Nat.le_refl k, rfl, rfl, rfl⟩
    fillBuf := ⟨k, Nat.le_refl k, rfl, rfl, rfl⟩
    write := fun _ buf => ⟨k + 1, write buf⟩
    vectored := fun bufs => ⟨k + 1, vectored bufs⟩
    flush := ⟨k, Nat.le_refl k, rfl, rfl, rfl⟩
    shutdown := ⟨k, Nat.le_refl k, rfl, rfl, rfl⟩ }

/-- A fuse that holds, at a threshold of zero. -/
theorem Terminator.bypassed [SmallRng G] [Probability P] {s : Terminator T P G}
    (untripped : s.triggered = false) (zero : Probability.threshold env s.prob k = 0) :
    Bypassed env k s s.inner (fun inner => { s with inner }) True := by
  have guards {α : Type} (f : Io T α) :
      Forwards (guarded f) f env k s (k + 1) s.inner fun inner => { s with inner } := by
    refine forwards_of_wp (Nat.le_succ k) fun Q => ?_
    rw [guarded_wp, asked, untripped]
    exact iff_of_eq (if_pos zero)
  have read (buf : ReadBuf) : Forwards (pollRead : Io (Terminator T P G × ReadBuf) Unit)
      (pollRead : Io (T × ReadBuf) Unit) env k (s, buf) (k + 1) (s.inner, buf)
      fun t => ({ s with inner := t.1 }, t.2) := by
    refine forwards_of_wp (Nat.le_succ k) fun Q => ?_
    rw [pollRead_wp, asked, untripped]
    exact iff_of_eq (if_pos zero)
  exact {
    read := fun buf => ⟨k + 1, read buf⟩
    fillBuf := ⟨k, Nat.le_refl k, rfl, rfl, rfl⟩
    write := fun _ buf => ⟨k + 1, guards _⟩
    vectored := fun bufs => ⟨k + 1, guards _⟩
    flush := ⟨k + 1, guards _⟩
    shutdown := ⟨k + 1, guards _⟩ }

/-- A corrupter at a threshold of zero. Only a write looks at the block that is stored. -/
theorem Corrupter.bypassed [SmallRng G] [Probability P] {s : Corrupter T P G}
    (zero : Probability.threshold env s.prob k = 0) :
    Bypassed env k s s.inner (fun inner => { s with inner }) (s.writeBuffer = none) := by
  have read (buf : ReadBuf) : Forwards (pollRead : Io (Corrupter T P G × ReadBuf) Unit)
      (pollRead : Io (T × ReadBuf) Unit) env k (s, buf) (k + 1) (s.inner, buf)
      fun t => ({ s with inner := t.1 }, t.2) := by
    refine forwards_of_wp (Nat.le_succ k) fun Q => ?_
    simp only [AsyncRead.pollRead, wp_bind, wp_zoom]
    rw [shouldCorrupt_wp, if_pos zero]
    rfl
  have write (idle : s.writeBuffer = none) (buf : List UInt8) :
      Forwards (pollWrite buf : Io (Corrupter T P G) Nat) (pollWrite buf) env k s (k + 1) s.inner
        fun inner => { s with inner } := by
    refine forwards_of_wp (Nat.le_succ k) fun Q => ?_
    simp only [AsyncWrite.pollWrite]
    rw [wp_bind, synthesize_wp, if_neg (not_not.mpr idle), if_pos zero]
    rfl
  exact {
    read := fun buf => ⟨k + 1, read buf⟩
    fillBuf := ⟨k, Nat.le_refl k, rfl, rfl, rfl⟩
    write := fun idle buf => ⟨k + 1, write idle buf⟩
    vectored := fun bufs => ⟨k, Nat.le_refl k, rfl, rfl, rfl⟩
    flush := ⟨k, Nat.le_refl k, rfl, rfl, rfl⟩
    shutdown := ⟨k, Nat.le_refl k, rfl, rfl, rfl⟩ }

/-! ## What is left over -/

omit [AsyncBufRead T] [AsyncWrite T] in
/-- With the delay at zero, a call that goes through leaves the timer idle. -/
theorem DelayedWriter.call_settles [Duration D] {s : DelayedWriter T D} {α : Type} {f : Io T α}
    (zero : Duration.duration env s.delay.delayDuration k = 0) :
    (pollWithWriteDelay f).wp env k s fun r s' _ =>
      s'.delay.delayDuration = s.delay.delayDuration ∧ ((∃ a, r = .ok a) → s'.delay.state = .idle) := by
  rw [pollWithWriteDelay_wp]
  cases state : s.delay.state with
  | idle =>
    dsimp only
    rw [if_pos zero]
    exact ⟨rfl, fun _ => state⟩
  | delayed =>
    dsimp only
    split
    · exact ⟨rfl, fun _ => rfl⟩
    · refine ⟨rfl, ?_⟩
      rintro ⟨a, ok⟩
      cases ok

section Keeps

variable {I J : T → Prop} {j : Nat}

omit [AsyncBufRead T] in
/-- What every write of the inner writer keeps from moment `k` on is kept by the drain, and a drain
that is done leaves nothing stored. -/
theorem Backlog.drain_keeps
    (keep : ∀ i t buf, k ≤ i → I t → (pollWrite buf : Io T Nat).wp env i t fun _ t' _ => I t')
    {s : Backlog T} (hI : I s.inner) (le : k ≤ j) :
    drain.wp env j s fun r s' j' => k ≤ j' ∧ I s'.inner ∧ (r = .ok () → s'.buffer = none) := by
  have loop : ∀ rounds j (s : Backlog T), k ≤ j → I s.inner →
      (drainLoop rounds).wp env j s fun _ s' j' => k ≤ j' ∧ I s'.inner := by
    intro rounds
    induction rounds with
    | zero => exact fun j s le hI => ⟨le, hI⟩
    | succ rounds ih =>
      intro j s le hI
      rw [drainLoop, wp_bind, wp_get]
      dsimp only
      rw [wp_ite]
      split
      · exact ⟨le, hI⟩
      · rw [wp_bind, onInner, wp_zoom]
        refine wp_mono (wp_and (keep j s.inner _ le hI) (wp_later _)) ?_
        rintro r t j' ⟨hI', later⟩
        have le' := Nat.le_trans le later
        cases r with
        | ok n =>
          dsimp only
          rw [wp_ite]
          split
          · exact ⟨le', hI'⟩
          · rw [wp_bind, advance, wp_bind, wp_get]
            dsimp only
            rw [wp_ite]
            split
            · exact ih j' _ le' hI'
            · exact ⟨le', hI'⟩
        | pending => exact ⟨le', hI'⟩
        | err e => exact ⟨le', hI'⟩
        | panicked m => exact ⟨le', hI'⟩
  rw [drain, wp_bind, wp_get]
  dsimp only
  cases stored : s.buffer with
  | none => exact ⟨le, hI, fun _ => stored⟩
  | some block =>
    dsimp only
    rw [wp_bind]
    refine wp_mono (loop _ j s le hI) ?_
    rintro r s' j' ⟨le', hI'⟩
    cases r with
    | ok u => exact ⟨le', hI', fun _ => rfl⟩
    | pending => exact ⟨le', hI', fun ok => by cases ok⟩
    | err e => exact ⟨le', hI', fun ok => by cases ok⟩
    | panicked m => exact ⟨le', hI', fun ok => by cases ok⟩

variable [SmallRng G] [Probability P]

omit [AsyncBufRead T] in
/-- A write at a threshold of zero, with or without a block stored. What its inner writes keep it
keeps, and once it has gone through nothing is stored and its last inner write has gone through. -/
theorem Corrupter.write_keeps
    (keep : ∀ i t buf, k ≤ i → I t → (pollWrite buf : Io T Nat).wp env i t fun r t' _ =>
      I t' ∧ ((∃ n, r = .ok n) → J t'))
    {s : Corrupter T P G} (zero : Probability.threshold env s.prob k = 0) (hI : I s.inner)
    (buf : List UInt8) :
    (pollWrite buf : Io (Corrupter T P G) Nat).wp env k s fun r s' _ =>
      I s'.inner ∧ s'.prob = s.prob ∧ ((∃ n, r = .ok n) → s'.writeBuffer = none ∧ J s'.inner) := by
  have before : synthesize.wp env k s fun r s' k' =>
      k ≤ k' ∧ I s'.inner ∧ s'.prob = s.prob ∧ (r = .ok () → s'.writeBuffer = none) := by
    rw [synthesize_wp]
    split
    · rw [onBacklog_wp]
      refine wp_mono (Backlog.drain_keeps ?_ hI (Nat.le_refl k)) ?_
      · exact fun i t buf le hI => wp_mono (keep i t buf le hI) fun _ _ _ h => h.1
      · rintro r t j ⟨le, hI', empty⟩
        exact ⟨le, hI', rfl, empty⟩
    · next idle =>
      exact ⟨Nat.le_succ k, hI, rfl, fun _ => not_not.mp idle⟩
  simp only [AsyncWrite.pollWrite]
  rw [wp_bind]
  refine wp_mono before ?_
  rintro r s' k' ⟨le, hI', prob, empty⟩
  cases r with
  | ok u =>
    dsimp only
    rw [onInner, wp_zoom]
    refine wp_mono (keep k' s'.inner buf le hI') ?_
    rintro r t j ⟨hI'', settled⟩
    exact ⟨hI'', prob, fun ok => ⟨empty rfl, settled ok⟩⟩
  | pending => exact ⟨hI', prob, by rintro ⟨n, ok⟩; cases ok⟩
  | err e => exact ⟨hI', prob, by rintro ⟨n, ok⟩; cases ok⟩
  | panicked m => exact ⟨hI', prob, by rintro ⟨n, ok⟩; cases ok⟩

end Keeps

/-! ## The stack -/

/-- The atomics of a connection's knobs. -/
def Knobs.cells (knobs : Knobs) : List Nat :=
  [knobs.delay.cell, knobs.throttleRate.cell, knobs.sliceSize.cell,
    knobs.terminateProbabilityRate.cell, knobs.corruptProbabilityRate.cell]

/-- All five knobs hold zero from moment `k` on. -/
def Zeroed (env : World) (k : Nat) (knobs : Knobs) : Prop :=
  ∀ cell ∈ knobs.cells, ∀ j, k ≤ j → env.atomics cell j = 0

namespace Zeroed

variable {knobs : Knobs} {j : Nat}

theorem later (h : Zeroed env k knobs) (le : k ≤ j) : Zeroed env j knobs :=
  fun cell mem i after => h cell mem i (Nat.le_trans le after)

theorem delay (h : Zeroed env k knobs) : Duration.duration env knobs.delay k = 0 := by
  show (env.atomics knobs.delay.cell k).toNat = 0
  rw [h _ (by simp [Knobs.cells]) k (Nat.le_refl k)]
  rfl

theorem throttleRate (h : Zeroed env k knobs) : Rate.isUnlimited env knobs.throttleRate k = true :=
  beq_iff_eq.mpr (h _ (by simp [Knobs.cells]) k (Nat.le_refl k))

theorem sliceSize (h : Zeroed env k knobs) : Size.isZero env knobs.sliceSize k = true :=
  beq_iff_eq.mpr (h _ (by simp [Knobs.cells]) k (Nat.le_refl k))

theorem terminateProbabilityRate (h : Zeroed env k knobs) :
    Probability.threshold env knobs.terminateProbabilityRate k = 0 :=
  h _ (by simp [Knobs.cells]) k (Nat.le_refl k)

theorem corruptProbabilityRate (h : Zeroed env k knobs) :
    Probability.threshold env knobs.corruptProbabilityRate k = 0 :=
  h _ (by simp [Knobs.cells]) k (Nat.le_refl k)

end Zeroed

namespace Pipeline

variable {W : Type} [AsyncBufRead W] [AsyncWrite W] [SmallRng G]

/-- The delayed socket under the other adapters. -/
abbrev Delayed (W : Type) := DelayedWriter W DynamicDuration

/-- The knobs that the adapters of a stack hold. -/
def knobsOf (s : Pipeline W G) : Knobs where
  delay := s.inner.inner.inner.inner.delay.delayDuration
  throttleRate := s.inner.inner.inner.lb.rate
  sliceSize := s.inner.inner.size
  terminateProbabilityRate := s.inner.prob
  corruptProbabilityRate := s.prob

/-- The stack with another socket in it. -/
def withSocket (s : Pipeline W G) (socket : W) : Pipeline W G :=
  { s with inner := { s.inner with inner := { s.inner.inner with inner :=
    { s.inner.inner.inner with inner := { s.inner.inner.inner.inner with inner := socket } } } } }

/-- What no poll changes while the knobs are at zero: which they are, and a fuse that holds. -/
structure Untouched (knobs : Knobs) (t : Below W G) : Prop where
  delay : t.inner.inner.inner.delay.delayDuration = knobs.delay
  throttleRate : t.inner.inner.lb.rate = knobs.throttleRate
  sliceSize : t.inner.size = knobs.sliceSize
  terminateProbabilityRate : t.prob = knobs.terminateProbabilityRate
  untripped : t.triggered = false

/-- The stack below the corrupter with another delayed socket in it. -/
def withDelayed (t : Below W G) (d : Delayed W) : Below W G :=
  { t with inner := { t.inner with inner := { t.inner.inner with inner := d } } }

/-- **Three adapters get out of the way**, whatever state they are in. -/
theorem below_bypassed {knobs : Knobs} (zero : Zeroed env k knobs) {t : Below W G}
    (h : Untouched knobs t) :
    Bypassed env k t t.inner.inner.inner (withDelayed t) True := by
  have terminator : Bypassed env k t t.inner _ True :=
    Terminator.bypassed h.untripped (h.terminateProbabilityRate ▸ zero.terminateProbabilityRate)
  refine terminator.trans fun j le => ?_
  have slicer : Bypassed env j t.inner t.inner.inner _ True :=
    SlicedWriter.bypassed (h.sliceSize ▸ (zero.later le).sliceSize)
  refine slicer.trans fun i le' => ?_
  exact ThrottledWriter.bypassed (h.throttleRate ▸ ((zero.later le).later le').throttleRate)

/-- The knob of a delay stays. -/
theorem delayed_keeps {d : Delayed W} (zero : Duration.duration env d.delay.delayDuration k = 0)
    (call : IoCall) :
    (call.poll : Io (Delayed W) Reply).wp env k d fun _ d' _ =>
      d'.delay.delayDuration = d.delay.delayDuration := by
  have settles {α : Type} (f : Io W α) := wp_mono (DelayedWriter.call_settles (f := f) zero)
    fun _ _ _ h => h.1
  cases call with
  | read buf =>
    simp only [IoCall.poll, wp_map, wp_lend]
    rfl
  | fillBuf =>
    simp only [IoCall.poll, wp_map]
    rfl
  | write op =>
    cases op with
    | write c =>
      cases c with
      | scalar buf =>
        simp only [IoCall.poll, WriteOp.poll, WriteCall.poll, wp_map]
        exact settles _
      | vectored bufs =>
        simp only [IoCall.poll, WriteOp.poll, WriteCall.poll, wp_map]
        exact settles _
    | flush =>
      simp only [IoCall.poll, WriteOp.poll, wp_map]
      rfl
    | shutdown =>
      simp only [IoCall.poll, WriteOp.poll, wp_map]
      exact settles _

variable {knobs : Knobs}

omit [AsyncBufRead W] [AsyncWrite W] [SmallRng G] in
/-- The delayed socket may change, but not its knob. -/
theorem Untouched.withDelayed {t : Below W G} (h : Untouched knobs t) {d : Delayed W}
    (same : d.delay.delayDuration = t.inner.inner.inner.delay.delayDuration) :
    Untouched knobs (withDelayed t d) where
  delay := same.trans h.delay
  throttleRate := h.throttleRate
  sliceSize := h.sliceSize
  terminateProbabilityRate := h.terminateProbabilityRate
  untripped := h.untripped

theorem below_keeps (zero : Zeroed env k knobs) {t : Below W G} (h : Untouched knobs t)
    (call : IoCall) :
    (call.poll : Io (Below W G) Reply).wp env k t fun _ t' _ => Untouched knobs t' := by
  obtain ⟨j, forwards⟩ := (below_bypassed zero h).call call fun _ => trivial
  rw [forwards.wp_iff]
  have off : Duration.duration env t.inner.inner.inner.delay.delayDuration j = 0 :=
    h.delay ▸ (zero.later forwards.later).delay
  exact wp_mono (delayed_keeps off call) fun _ _ _ same => h.withDelayed same

/-- A write that goes through leaves no timer armed. -/
theorem below_settles (zero : Zeroed env k knobs) {t : Below W G} (h : Untouched knobs t)
    (buf : List UInt8) :
    (pollWrite buf : Io (Below W G) Nat).wp env k t fun r t' _ => Untouched knobs t' ∧
      ((∃ n, r = .ok n) → t'.inner.inner.inner.delay.state = .idle) := by
  obtain ⟨j, forwards⟩ := (below_bypassed zero h).write trivial buf
  rw [forwards.wp_iff]
  have off : Duration.duration env t.inner.inner.inner.delay.delayDuration j = 0 :=
    h.delay ▸ (zero.later forwards.later).delay
  refine wp_mono (DelayedWriter.call_settles (f := pollWrite buf) off) fun r d _ ⟨same, settled⟩ => ?_
  exact ⟨h.withDelayed same, settled⟩

/-- What no poll of the whole stack changes. -/
structure Intact (knobs : Knobs) (s : Pipeline W G) : Prop where
  below : Untouched knobs s.inner
  corruptProbabilityRate : s.prob = knobs.corruptProbabilityRate

omit [AsyncBufRead W] [AsyncWrite W] [SmallRng G] in
/-- A stack knows its knobs. -/
theorem intact_of_untripped {s : Pipeline W G} (untripped : s.inner.triggered = false) :
    Intact s.knobsOf s :=
  ⟨⟨rfl, rfl, rfl, rfl, untripped⟩, rfl⟩

/-- Nothing is left over from before. -/
structure Clear (s : Pipeline W G) : Prop where
  stored : s.writeBuffer = none
  idle : s.inner.inner.inner.inner.delay.state = .idle

/-- **A write that goes through clears the stack**, from any state. -/
theorem write_clears (zero : Zeroed env k knobs) {s : Pipeline W G} (h : Intact knobs s)
    (buf : List UInt8) :
    (pollWrite buf : Io (Pipeline W G) Nat).wp env k s fun r s' _ =>
      Intact knobs s' ∧ ((∃ n, r = .ok n) → Clear s') := by
  have off : Probability.threshold env s.prob k = 0 :=
    h.corruptProbabilityRate ▸ zero.corruptProbabilityRate
  refine wp_mono (Corrupter.write_keeps (I := Untouched knobs)
    (J := fun t => t.inner.inner.inner.delay.state = .idle) ?_ off h.below buf) ?_
  · exact fun i t buf le h => below_settles (zero.later le) h buf
  · intro r s' _ ⟨below, prob, clears⟩
    refine ⟨⟨below, prob.trans h.corruptProbabilityRate⟩, fun ok => ?_⟩
    exact ⟨(clears ok).1, (clears ok).2⟩

/-- Every poll leaves the knobs and the fuse alone. -/
theorem call_keeps (zero : Zeroed env k knobs) {s : Pipeline W G} (h : Intact knobs s)
    (call : IoCall) :
    (call.poll : Io (Pipeline W G) Reply).wp env k s fun _ s' _ => Intact knobs s' := by
  by_cases scalar : ∃ buf, call = .write (.write (.scalar buf))
  · obtain ⟨buf, rfl⟩ := scalar
    simp only [IoCall.poll, WriteOp.poll, WriteCall.poll, wp_map]
    exact wp_mono (write_clears zero h buf) fun _ _ _ h => h.1
  · have off : Probability.threshold env s.prob k = 0 :=
      h.corruptProbabilityRate ▸ zero.corruptProbabilityRate
    obtain ⟨j, forwards⟩ := (Corrupter.bypassed off).call call fun some => absurd some scalar
    rw [forwards.wp_iff]
    refine wp_mono (below_keeps (zero.later forwards.later) h.below call) fun _ t' _ below => ?_
    exact ⟨below, h.corruptProbabilityRate⟩

/-- One poll of the stack is one poll of the socket: of the same kind, with the same arguments, made
in the course of it. Its answer is the socket's, and nothing but the socket has changed: no timer, no
bucket, neither generator. -/
def Transparent (env : World) (k : Nat) (s : Pipeline W G) (call : IoCall) : Prop :=
  ∃ j, Forwards (call.poll : Io (Pipeline W G) Reply) (call.poll : Io W Reply) env k s j s.socket
    s.withSocket

/-- **A clear stack is transparent.** -/
theorem transparent_of_clear (zero : Zeroed env k knobs) {s : Pipeline W G} (h : Intact knobs s)
    (clear : Clear s) (call : IoCall) : Transparent env k s call := by
  have corrupter : Bypassed env k s s.inner _ (s.writeBuffer = none) :=
    Corrupter.bypassed (h.corruptProbabilityRate ▸ zero.corruptProbabilityRate)
  have whole : Bypassed env k s s.socket s.withSocket (s.writeBuffer = none) := by
    refine corrupter.trans fun j le => ?_
    refine (below_bypassed (zero.later le) h.below).trans fun i le' => ?_
    exact DelayedWriter.bypassed clear.idle (h.below.delay ▸ ((zero.later le).later le').delay)
  exact whole.call call fun _ => clear.stored

/-! ## Over whole runs -/

/-- A scalar write has gone through. -/
def WentThrough (past : History IoCall (Poll IoError Reply)) : Prop :=
  ∃ buf n, (IoCall.write (.write (.scalar buf)), Poll.ok (Reply.count n)) ∈ past

/-- What a run keeps. -/
structure Settling (knobs : Knobs) (k : Nat) (past : History IoCall (Poll IoError Reply))
    (s : Paced (Pipeline W G)) : Prop where
  intact : Intact knobs s.state
  later : k ≤ s.moment
  clear : WentThrough past → Clear s.state

/-- **One poll of a run.** A write that goes through clears the stack, and a clear stack stays clear,
only the socket being changed. -/
theorem Settling.step {past : History IoCall (Poll IoError Reply)} {s : Paced (Pipeline W G)}
    (zero : Zeroed env k knobs) (h : Settling knobs k past s) (call : IoCall) :
    Settling knobs k (past ++ [(call, ((machine env IoCall.poll).step s call).1)])
      ((machine env IoCall.poll).step s call).2 := by
  have zero := zero.later h.later
  refine ⟨machine_step (call_keeps zero h.intact call), ?_, ?_⟩
  · exact Nat.le_trans h.later (Nat.le_add_right _ _)
  · rintro ⟨buf, n, mem⟩
    rcases List.mem_append.mp mem with before | here
    · have clear := h.clear ⟨buf, n, before⟩
      obtain ⟨j, forwards⟩ := transparent_of_clear zero h.intact clear call
      have after : ((machine env IoCall.poll).step s call).2.state = s.state.withSocket _ :=
        forwards.state
      rw [after]
      exact ⟨clear.stored, clear.idle⟩
    · have clears : (IoCall.write (.write (.scalar buf))).poll.wp env s.moment s.state
          fun r s' _ => r = .ok (.count n) → Clear s' := by
        simp only [IoCall.poll, WriteOp.poll, WriteCall.poll, wp_map]
        refine wp_mono (write_clears zero h.intact buf) ?_
        rintro r s' k' ⟨-, clears⟩ ok
        cases r with
        | ok n => exact clears ⟨n, rfl⟩
        | _ => cases ok
      obtain ⟨rfl, ok⟩ := Prod.mk.inj (List.mem_singleton.mp here)
      exact machine_step clears ok.symm

/-- **Knobs at zero restore transparency.** From any state with an unblown fuse, whatever is left in
the five adapters, and with all knobs at zero from then on: once a write has gone through, every poll
of the stack is one poll of the socket. -/
theorem transparent_once_through (env : World) (k : Nat) (s : Pipeline W G) (calls : List IoCall)
    (untripped : s.inner.triggered = false) (zero : Zeroed env k s.knobsOf) :
    (machine env IoCall.poll).Allowed
      (fun past s call => WentThrough past → Transparent env s.moment s.state call) ⟨k, s⟩ calls := by
  have start : Settling s.knobsOf k [] ⟨k, s⟩ := by
    refine ⟨intact_of_untripped untripped, Nat.le_refl k, ?_⟩
    rintro ⟨buf, n, mem⟩
    cases mem
  refine .imp (C := fun _ _ _ => True) (fun past s call h _ => h.step zero call) ?_ start ?_
  · intro past s call h _ through
    exact transparent_of_clear (zero.later h.later) h.intact (h.clear through) call
  · exact Machine.allowedFrom_of_forall (fun _ _ _ => trivial) _ _ _

/-- All knobs are up until moment 10, and at zero from then on. -/
def turnedOff : World := { World.still with atomics := fun _ k => if k < 10 then 7 else 0 }

/-- A stack in the middle of things: half a block stored, the timer armed, the bucket asleep. -/
def unsettled : Pipeline Duplex Xoshiro where
  inner := {
    inner := {
      inner := {
        inner := ⟨⟨⟨[], []⟩, ⟨⟨[], []⟩, []⟩⟩, ⟨.delayed, ⟨3⟩, ⟨0⟩⟩⟩
        lb := ⟨⟨1⟩, 0, 0, ⟨4⟩, true⟩ }
      size := ⟨2⟩
      phase := .writing }
    prob := ⟨3⟩
    rng := SmallRng.fromSeed Xoshiro.seed
    triggered := false }
  prob := ⟨4⟩
  rng := SmallRng.fromSeed Xoshiro.seed
  writeBuffer := some [8, 9]

/-- The first write takes the rest of the block along; what follows is transparent. -/
theorem transparent_unsettled :
    (machine turnedOff IoCall.poll).Allowed
      (fun past s call => WentThrough past → Transparent turnedOff s.moment s.state call)
      ⟨10, unsettled⟩
      [.read ⟨[], 4⟩, .write (.write (.scalar [1, 2])), .write (.write (.scalar [3])), .write .flush,
        .read ⟨[], 4⟩, .write .shutdown] :=
  transparent_once_through turnedOff 10 unsettled _ rfl fun _ _ _ le => if_neg (Nat.not_lt.mpr le)

end Pipeline

end Trixter
