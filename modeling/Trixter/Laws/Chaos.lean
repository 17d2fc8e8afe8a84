import Mathlib.Logic.Function.Iterate
import Trixter.Laws.Draws
import Trixter.Laws.Hesitant

/-!
# How far seeded chaos is reproducible

`reproducible`: runs of one seed over writers that accept the same agree in which writes of a terminator
fail and which blocks a corrupter puts before which bytes, as long as no draw that hits comes after a
write that was waiting has drawn again.

A poll that ends pending has used up its draw, and from the next draw on the same seed decides about
other writes. For the terminator the condition is exact. For the corrupter it is enough; that it is
needed is not claimed, since a generator may repeat its blocks.
-/

namespace Trixter

open Trixter.Lib Polling

variable {T U G : Type} [SmallRng G] {env : World} {k : Nat} {th : UInt64}

/-! ## A terminator over a hesitant writer -/

namespace Terminator

section Burn

variable {f : Bool × G}

theorem burn_unblown (unblown : (burn th f).1 = false) : f.1 = false := by
  by_contra blown
  rw [burn, if_pos (eq_true_of_ne_false blown)] at unblown
  exact blown unblown

/-- If the last poll leaves the fuse whole, the first did. -/
theorem iterate_unblown {c : Nat} (unblown : ((burn th)^[c + 1] f).1 = false) :
    (burn th f).1 = false := by
  induction c with
  | zero => exact unblown
  | succ c ih =>
    rw [Function.iterate_succ_apply'] at unblown
    exact ih (burn_unblown unblown)

end Burn

/-- A poll draws. -/
def draws (th : UInt64) (s : Paced (Terminator T ConstProb G)) (_ : WriteOp) : Bool :=
  !s.state.triggered && th != 0

/-- A poll blows the fuse. -/
def Blows (th : UInt64) (s : Paced (Terminator T ConstProb G)) (_ : WriteOp) : Prop :=
  s.state.triggered = false ∧ (SmallRng.nextU64 s.state.rng).1 < th

instance (s : Paced (Terminator T ConstProb G)) (op : WriteOp) : Decidable (Blows th s op) :=
  inferInstanceAs (Decidable (_ ∧ _))

theorem blows_iff {s : Paced (Terminator T ConstProb G)} {op : WriteOp} :
    Blows th s op ↔ s.state.triggered = false ∧ (burn th s.state.fuse).1 = true := by
  refine and_congr_right fun whole => ?_
  rw [burn, fuse, whole]
  by_cases zero : th = 0
  · simp [zero, UInt64.lt_iff_toNat_lt]
  · simp [zero]

/-- The terminator is as many draws ahead of the other run as writes have been waiting. If it is ahead,
its fuse is whole, and a write is waiting or was and has drawn again. -/
structure Ahead (R : T → U → Prop) (th : UInt64)
    (s : Paced (Terminator T ConstProb G) × Alongside (Paced (Terminator U ConstProb G))) (c : Nat) :
    Prop where
  knob : s.1.state.prob = ⟨th⟩
  otherKnob : s.2.other.state.prob = ⟨th⟩
  inner : R s.1.state.inner s.2.other.state.inner
  fuse : s.1.state.fuse = (burn th)^[c] s.2.other.state.fuse
  level : c = 0 → s.2.waiting = none ∧ s.2.shifted = false
  ahead : c ≠ 0 → s.1.state.triggered = false ∧ (th = 0 ∨ s.2.waiting ≠ none ∨ s.2.shifted = true)

namespace Ahead

variable {R : T → U → Prop} {c : Nat}
  {s : Paced (Terminator T ConstProb G) × Alongside (Paced (Terminator U ConstProb G))} {op : WriteOp}

/-- A fuse that stays whole stays so in the other run. -/
theorem other_unblown (h : Ahead R th s c) (unblown : (burn th s.1.state.fuse).1 = false) :
    (burn th s.2.other.state.fuse).1 = false := by
  have next : burn th s.1.state.fuse = (burn th)^[c + 1] s.2.other.state.fuse := by
    rw [h.fuse, Function.iterate_succ_apply']
  exact iterate_unblown (next ▸ unblown)

/-- A fuse that is whole stays so in a run that is behind. -/
theorem behind_unblown (h : Ahead R th s c) (ahead : c ≠ 0) :
    (burn th s.2.other.state.fuse).1 = false := by
  obtain ⟨c, rfl⟩ := Nat.exists_eq_succ_of_ne_zero ahead
  refine iterate_unblown (c := c) ?_
  rw [← h.fuse]
  exact (h.ahead ahead).1

/-- The fuse is blown in step exactly if the terminator is not ahead. -/
theorem inStep_iff (h : Ahead R th s c) (blows : Blows th s.1 op) :
    InStep (Blows th) s op ↔ c = 0 := by
  constructor
  · intro inStep
    by_contra ahead
    obtain ⟨idle, unshifted⟩ := inStep blows
    rcases (h.ahead ahead).2 with zero | waits | shifted
    · obtain ⟨-, lt⟩ := blows
      rw [zero] at lt
      simp [UInt64.lt_iff_toNat_lt] at lt
    · exact waits idle
    · rw [unshifted] at shifted
      cases shifted
  · exact fun level _ => h.level level

end Ahead

section Alongside

variable [Sink T] [Sink U] {R : T → U → Prop} {c : Nat}
  {s : Paced (Terminator T ConstProb G) × Alongside (Paced (Terminator U ConstProb G))} {op : WriteOp}

/-- What the inner writer has received. -/
abbrev wire (s : Paced (Terminator T ConstProb G)) : List UInt8 := received s.state.inner

/-- A terminator's polls, with the run over another writer beside. -/
abbrev chaotic (T U G : Type) [SmallRng G] [Sink T] [Sink U] (env : World) (th : UInt64) :=
  alongside (writes (Terminator T ConstProb G) env) (writes (Terminator U ConstProb G) env) (draws th)

/-- The runs agree at a poll. -/
abbrev Alike (env : World)
    (s : Paced (Terminator T ConstProb G) × Alongside (Paced (Terminator U ConstProb G)))
    (op : WriteOp) : Prop :=
  Agrees (writes (Terminator T ConstProb G) env) (writes (Terminator U ConstProb G) env) wire wire
    s op

/-- The writer below never answers with the terminator's own error. -/
def Foreign (U : Type) [Sink U] (env : World) : Prop :=
  ∀ (op : WriteOp) k (u : U), (op.poll env k u).result ≠ .err terminatedError

/-- A poll that finds the fuse blown, or blows it while the runs are level. -/
theorem Ahead.blown (ahead : Ahead R th s 0)
    (same : received s.1.state.inner = received s.2.other.state.inner)
    (blown : (burn th s.1.state.fuse).1 = true) :
    Alike env s op ∧ Ahead R th ((chaotic T U G env th).step s op).2 0 := by
  have level : s.1.state.fuse = s.2.other.state.fuse := ahead.fuse
  have here := step_burns env ahead.knob op
  have there := step_burns env ahead.otherKnob op
  obtain ⟨failed, kept⟩ := here.fails ((congrArg Prod.fst here.fuse).trans blown)
  obtain ⟨otherFailed, otherKept⟩ :=
    there.fails ((congrArg Prod.fst there.fuse).trans (level ▸ blown))
  obtain ⟨idle, unshifted⟩ := ahead.level rfl
  have ghost : ((chaotic T U G env th).step s op).2.2 =
      ⟨((writes (Terminator U ConstProb G) env).step s.2.other op).2, none, false⟩ := by
    show s.2.after _ op ((writes (Terminator T ConstProb G) env).step s.1 op).1 _ = _
    rw [Alongside.after, failed, idle, unshifted]
    rfl
  refine ⟨.inr ⟨otherFailed.trans failed.symm, ?_⟩, here.knob, ?_, ?_, ?_, ?_,
    fun h => absurd rfl h⟩
  · rw [wire, wire, kept, otherKept, same]
  · rw [ghost]
    exact there.knob
  · rw [ghost]
    exact kept.symm ▸ otherKept.symm ▸ ahead.inner
  · rw [ghost]
    exact here.fuse.trans ((congrArg (burn th) level).trans there.fuse.symm)
  · rw [ghost]
    exact fun _ => ⟨rfl, rfl⟩

/-- A poll that leaves the fuse whole. -/
theorem Ahead.whole (h : Hesitates R)
    (ahead : Ahead (fun t u => R t u ∧ received t = received u) th s c)
    (whole : (burn th s.1.state.fuse).1 = false) :
    Alike env s op ∧ ∃ c, Ahead (fun t u => R t u ∧ received t = received u) th
      ((chaotic T U G env th).step s op).2 c := by
  have here := step_burns env ahead.knob op
  have there := step_burns env ahead.otherKnob op
  obtain ⟨answer, inner⟩ := here.reaches ((congrArg Prod.fst here.fuse).trans whole)
  obtain ⟨otherAnswer, otherInner⟩ :=
    there.reaches ((congrArg Prod.fst there.fuse).trans (ahead.other_unblown whole))
  have unblown : ((writes (Terminator T ConstProb G) env).step s.1 op).2.state.triggered = false :=
    (congrArg Prod.fst here.fuse).trans whole
  have draws : th ≠ 0 → draws th s.1 op = true := by
    intro nonzero
    have before : s.1.state.triggered = false := burn_unblown whole
    simp [Terminator.draws, before, nonzero]
  have moved : ((chaotic T U G env th).step s op).2 =
    (((writes (Terminator T ConstProb G) env).step s.1 op).2,
      s.2.after (writes (Terminator U ConstProb G) env) op
        ((writes (Terminator T ConstProb G) env).step s.1 op).1 (Terminator.draws th s.1 op)) := rfl
  rcases wp_iff.mp (h.received ahead.inner op env (s.1.moment + 1) (s.2.other.moment + 1))
    with ⟨pending, inner'⟩ | ⟨answered, result, inner'⟩
  · rw [← answer] at pending
    rw [← inner] at inner'
    refine ⟨.inl pending, c + 1, ?_⟩
    rw [moved, Alongside.after, if_pos pending, if_pos pending]
    refine ⟨here.knob, ahead.otherKnob, inner', ?_, fun h => (by cases h), fun _ =>
      ⟨unblown, .inr (.inl fun h => (by cases h))⟩⟩
    rw [Function.iterate_succ_apply', ← ahead.fuse]
    exact here.fuse
  · rw [← answer] at answered
    rw [← otherAnswer, ← answer] at result
    rw [← otherInner, ← inner] at inner'
    refine ⟨.inr ⟨result, inner'.2⟩, c, ?_⟩
    rw [moved, Alongside.after, if_neg answered, if_neg answered]
    refine ⟨here.knob, there.knob, inner', ?_, fun level => ⟨rfl, ?_⟩, fun off => ⟨unblown, ?_⟩⟩
    · dsimp only
      rw [here.fuse, ahead.fuse, there.fuse]
      exact (Function.iterate_succ_apply' (burn th) c _).symm.trans
        (Function.iterate_succ_apply (burn th) c _)
    · obtain ⟨idle, unshifted⟩ := ahead.level level
      rw [idle, unshifted]
      rfl
    · rcases (ahead.ahead off).2 with zero | waits | shifted
      · exact .inl zero
      · by_cases zero : th = 0
        · exact .inl zero
        · refine .inr (.inr ?_)
          rw [draws zero, Option.isSome_iff_ne_none.mpr waits, Bool.and_self, Bool.or_true]
      · refine .inr (.inr ?_)
        rw [shifted, Bool.true_or]

/-- **One poll** in step agrees with the other run, and goes on beside it. -/
theorem Ahead.step (h : Hesitates R)
    (ahead : Ahead (fun t u => R t u ∧ received t = received u) th s c)
    (inStep : InStep (Blows th) s op) :
    Alike env s op ∧ ∃ c, Ahead (fun t u => R t u ∧ received t = received u) th
      ((chaotic T U G env th).step s op).2 c := by
  by_cases whole : (burn th s.1.state.fuse).1 = false
  · exact ahead.whole h whole
  · have blown := eq_true_of_ne_false whole
    obtain rfl : c = 0 := by
      by_contra off
      exact off ((ahead.inStep_iff (blows_iff.mpr ⟨(ahead.ahead off).1, blown⟩)).mp inStep)
    obtain ⟨alike, next⟩ := ahead.blown ahead.inner.2 blown
    exact ⟨alike, 0, next⟩

/-- A poll out of step fails, and the other run's does not. -/
theorem Ahead.inStep (foreign : Foreign U env)
    (ahead : Ahead (fun t u => R t u ∧ received t = received u) th s c) (alike : Alike env s op) :
    InStep (Blows th) s op := by
  intro blows
  refine (ahead.inStep_iff blows).mpr ?_ blows
  by_contra off
  have here := step_burns env ahead.knob op
  have there := step_burns env ahead.otherKnob op
  have failed := (here.fails ((congrArg Prod.fst here.fuse).trans (blows_iff.mp blows).2)).1
  have reached := (there.reaches ((congrArg Prod.fst there.fuse).trans (ahead.behind_unblown off))).1
  obtain pending | ⟨same, -⟩ := alike
  · rw [failed] at pending
    cases pending
  · exact foreign op _ _ (reached.symm.trans (same.trans failed))

/-- A terminator with nothing written yet, over two writers. -/
def started (k : Nat) (th : UInt64) (seed : List UInt8) (t : T) (u : U) :
    Paced (Terminator T ConstProb G) × Alongside (Paced (Terminator U ConstProb G)) :=
  (⟨k, fromSeed t ⟨th⟩ seed⟩, .start ⟨k, fromSeed u ⟨th⟩ seed⟩)

variable {t : T} {u : U}

omit [Sink T] [Sink U] in
theorem ahead_start {R : T → U → Prop} (hR : R t u) (seed : List UInt8) :
    Ahead R th (started k th seed t u : _ × Alongside (Paced (Terminator U ConstProb G))) 0 :=
  ⟨rfl, rfl, hR, rfl, fun _ => ⟨rfl, rfl⟩, fun off => absurd rfl off⟩

/-- **A terminator over a writer that hesitates**: if every poll that blows the fuse is in step, the
runs agree. -/
theorem agrees (h : Hesitates R) (hR : R t u) (same : received t = received u) (seed : List UInt8)
    {run : List WriteOp}
    (inStep : (chaotic T U G env th).Allowed (fun _ => InStep (Blows th)) (started k th seed t u)
      run) :
    (chaotic T U G env th).Allowed (fun _ => Alike env) (started k th seed t u) run :=
  inStep.imp (P := fun _ s => ∃ c, Ahead (fun t u => R t u ∧ received t = received u) th s c)
    (fun _ _ _ ⟨_, ahead⟩ inStep => (ahead.step h inStep).2)
    (fun _ _ _ ⟨_, ahead⟩ inStep => (ahead.step h inStep).1) ⟨0, ahead_start ⟨hR, same⟩ seed⟩

/-- The runs agree only then. -/
theorem inStep_of_agrees (h : Hesitates R) (foreign : Foreign U env) (hR : R t u)
    (same : received t = received u) (seed : List UInt8) {run : List WriteOp}
    (alike : (chaotic T U G env th).Allowed (fun _ => Alike env) (started k th seed t u) run) :
    (chaotic T U G env th).Allowed (fun _ => InStep (Blows th)) (started k th seed t u) run :=
  alike.imp (P := fun _ s => ∃ c, Ahead (fun t u => R t u ∧ received t = received u) th s c)
    (fun _ _ _ ⟨_, ahead⟩ alike => (ahead.step h (ahead.inStep foreign alike)).2)
    (fun _ _ _ ⟨_, ahead⟩ alike => ahead.inStep foreign alike) ⟨0, ahead_start ⟨hR, same⟩ seed⟩

end Alongside

end Terminator

/-! ## A corrupter over a hesitant writer -/

namespace Corrupter

/-- A poll draws. -/
def draws (th : UInt64) (s : Paced (Corrupter T ConstProb G)) (op : WriteOp) : Bool :=
  asks op s.state.writeBuffer && th != 0

/-- A poll draws a block. -/
def Strikes (th : UInt64) (s : Paced (Corrupter T ConstProb G)) (op : WriteOp) : Prop :=
  asks op s.state.writeBuffer = true ∧ (SmallRng.nextU64 s.state.rng).1 < th

instance (s : Paced (Corrupter T ConstProb G)) (op : WriteOp) : Decidable (Strikes th s op) :=
  inferInstanceAs (Decidable (_ ∧ _))

/-- The block stored and the generator, after the draw of a poll. -/
def chosen (th : UInt64) (op : WriteOp) (buffer : Option (List UInt8)) (g : G) :
    Option (List UInt8) × G :=
  if asks op buffer then decision th g else (buffer, g)

/-- The generator after one decision. -/
def decidedRng (th : UInt64) (g : G) : G := (decision th g).2

/-- A generator that has made no more than decisions against a block since the other. If it is ahead,
nothing is ever drawn or a write that was waiting has drawn again. -/
def Lag (th : UInt64) (g g' : G) (shifted : Bool) : Prop :=
  ∃ c, g = (decidedRng th)^[c] g' ∧
    (∀ i < c, (decision th ((decidedRng th)^[i] g')).1 = none) ∧
    (c = 0 ∨ th = 0 ∨ shifted = true)

namespace Lag

variable {g g' : G} {shifted : Bool}

theorem refl (g : G) : Lag th g g shifted :=
  ⟨0, rfl, fun _ lt => absurd lt (Nat.not_lt_zero _), .inl rfl⟩

/-- One more decision against a block. -/
theorem again (lag : Lag th g g' shifted) (miss : (decision th g).1 = none) {shifted' : Bool}
    (drew : th = 0 ∨ shifted' = true) : Lag th (decision th g).2 g' shifted' := by
  obtain ⟨c, rfl, misses, -⟩ := lag
  refine ⟨c + 1, (Function.iterate_succ_apply' (decidedRng th) c g').symm, fun i lt => ?_, .inr drew⟩
  rcases Nat.lt_succ_iff_lt_or_eq.mp lt with lt | rfl
  · exact misses i lt
  · exact miss

/-- The other generator decides against a block as well, and both go on. -/
theorem both (lag : Lag th g g' shifted) (miss : (decision th g).1 = none) :
    (decision th g').1 = none ∧ Lag th (decision th g).2 (decision th g').2 shifted := by
  obtain ⟨c, rfl, misses, why⟩ := lag
  have all : ∀ i < c + 1, (decision th ((decidedRng th)^[i] g')).1 = none := by
    intro i lt
    rcases Nat.lt_succ_iff_lt_or_eq.mp lt with lt | rfl
    · exact misses i lt
    · exact miss
  refine ⟨all 0 (Nat.succ_pos c), c, ?_, fun i lt => ?_, why⟩
  · exact (Function.iterate_succ_apply' (decidedRng th) c g').symm.trans
      (Function.iterate_succ_apply (decidedRng th) c g')
  · exact all (i + 1) (Nat.succ_lt_succ lt)

theorem mono (lag : Lag th g g' shifted) {shifted' : Bool} (more : shifted = true → shifted' = true) :
    Lag th g g' shifted' := by
  obtain ⟨c, eq, misses, why⟩ := lag
  exact ⟨c, eq, misses, why.imp_right (Or.imp_right more)⟩

/-- A generator that is behind by nothing is the other one. -/
theorem eq (lag : Lag th g g' false) (nonzero : th ≠ 0) : g = g' := by
  obtain ⟨c, rfl, -, zero | zero | shifted⟩ := lag
  · rw [zero]
    rfl
  · exact absurd zero nonzero
  · cases shifted

end Lag

theorem none_of_asks {op : WriteOp} {buffer : Option (List UInt8)} (asking : asks op buffer = true) :
    buffer = none := by
  unfold asks at asking
  split at asking
  · rfl
  · cases asking

/-- Nothing is decided for a block that the draw misses. -/
theorem decision_fst {g : G} (miss : ¬(SmallRng.nextU64 g).1 < th) : (decision th g).1 = none := by
  rw [decision, if_neg miss]
  split <;> rfl

section Served

variable [AsyncWrite T] {s : Corrupter T ConstProb G}

omit [SmallRng G] in
/-- What is left of a write poll after its draw. -/
theorem served_write {buf : List UInt8} {b : Backlog T} {g : G}
    {Q : Poll IoError Nat → Corrupter T ConstProb G → Nat → Prop} :
    (Backlog.served (.write (.scalar buf))).wp env k b
        (fun r b k' => Q r ⟨b.inner, ⟨th⟩, g, b.buffer⟩ k') ↔
      (do onBacklog Backlog.drain; onInner (pollWrite buf) : Io (Corrupter T ConstProb G) Nat).wp
        env k ⟨b.inner, ⟨th⟩, g, b.buffer⟩ Q := by
  rw [Backlog.served, wp_bind, wp_bind, onBacklog_wp]
  refine wp_congr fun r t k' => ?_
  cases r <;> rfl

omit [SmallRng G] in
/-- With nothing stored the caller's buffer is next. -/
theorem served_idle {buf : List UInt8} {t : T} {g : G}
    {Q : Poll IoError Nat → Corrupter T ConstProb G → Nat → Prop} :
    (Backlog.served (.write (.scalar buf))).wp env k ⟨t, none⟩
        (fun r b k' => Q r ⟨b.inner, ⟨th⟩, g, b.buffer⟩ k') ↔
      (onInner (pollWrite buf)).wp env k ⟨t, ⟨th⟩, g, none⟩ Q := by
  rw [Backlog.served, wp_bind, Backlog.drain_idle (s := ⟨t, none⟩) rfl]
  rfl

/-- **A poll is its draw, and then what the store and the inner writer make of it.** -/
theorem op_served (env : World) (k : Nat) (knob : s.prob = ⟨th⟩) (op : WriteOp) :
    ∃ j, ∀ Q, op.poll.wp env k s Q ↔
      (Backlog.served op).wp env j ⟨s.inner, (chosen th op s.writeBuffer s.rng).1⟩ fun r b k' =>
        Q r ⟨b.inner, ⟨th⟩, (chosen th op s.writeBuffer s.rng).2, b.buffer⟩ k' := by
  obtain ⟨inner, prob, rng, buffer⟩ := s
  obtain rfl : prob = ⟨th⟩ := knob
  have threshold : Probability.threshold env (⟨th⟩ : ConstProb) k = th := rfl
  cases op with
  | write c =>
    cases c with
    | scalar buf =>
      have poll : ∀ Q, (WriteOp.write (.scalar buf)).poll.wp env k
          (⟨inner, ⟨th⟩, rng, buffer⟩ : Corrupter T ConstProb G) Q ↔
          (do synthesize; onInner (pollWrite buf) : Io (Corrupter T ConstProb G) Nat).wp env k
            ⟨inner, ⟨th⟩, rng, buffer⟩ Q := fun _ => Iff.rfl
      cases buffer with
      | some block =>
        refine ⟨k, fun Q => (poll Q).trans ?_⟩
        have stored : ¬asks (.write (.scalar buf)) (some block) = true := Bool.false_ne_true
        rw [wp_bind, synthesize_wp, if_pos (fun h => by cases h), chosen, if_neg stored, served_write,
          wp_bind]
      | none =>
        have hit : Corrupts env k (⟨inner, ⟨th⟩, rng, none⟩ : Corrupter T ConstProb G) ↔
            (SmallRng.nextU64 rng).1 < th := Iff.rfl
        refine ⟨k + 1, fun Q => (poll Q).trans ?_⟩
        rw [wp_bind, synthesize_wp, if_neg (not_not.mpr rfl), threshold, chosen, decision]
        by_cases zero : th = 0
        · rw [if_pos zero, if_pos zero]
          exact served_idle.symm
        · rw [if_neg zero, if_neg zero]
          by_cases hits : (SmallRng.nextU64 rng).1 < th
          · rw [if_pos hits, if_pos (hit.mpr hits), served_write, wp_bind]
            rfl
          · rw [if_neg hits, if_neg (mt hit.mp hits)]
            exact served_idle.symm
    | vectored bufs => exact ⟨k, fun Q => Iff.rfl⟩
  | flush =>
    refine ⟨k, fun Q => ?_⟩
    simp only [Backlog.served, WriteOp.poll, wp_map, pollFlush_wp, Backlog.onInner, wp_zoom]
    rfl
  | shutdown =>
    refine ⟨k, fun Q => ?_⟩
    simp only [Backlog.served, WriteOp.poll, wp_map, pollShutdown_wp, Backlog.onInner, wp_zoom]
    rfl

end Served

section Alongside

variable [Sink T] [Sink U] {R : T → U → Prop}
  {s : Paced (Corrupter T ConstProb G) × Alongside (Paced (Corrupter U ConstProb G))} {op : WriteOp}

/-- What the inner writer has received. -/
abbrev wire (s : Paced (Corrupter T ConstProb G)) : List UInt8 := received s.state.inner

/-- A corrupter's polls, with the run over another writer beside. -/
abbrev chaotic (T U G : Type) [SmallRng G] [Sink T] [Sink U] (env : World) (th : UInt64) :=
  alongside (writes (Corrupter T ConstProb G) env) (writes (Corrupter U ConstProb G) env) (draws th)

/-- The runs agree at a poll. -/
abbrev Alike (env : World)
    (s : Paced (Corrupter T ConstProb G) × Alongside (Paced (Corrupter U ConstProb G)))
    (op : WriteOp) : Prop :=
  Agrees (writes (Corrupter T ConstProb G) env) (writes (Corrupter U ConstProb G) env) wire wire s op

/-- The other run has drawn for the operation and done of it what has been done here. -/
def Owed (R : T → U → Prop) (env : World) (th : UInt64) (t : T) (buffer : Option (List UInt8)) (g : G)
    (shifted : Bool) (op : WriteOp) (other : Paced (Corrupter U ConstProb G)) : Prop :=
  ∃ u j g', R t u ∧ Lag th g g' shifted ∧
    ∀ Q, op.poll.wp env other.moment other.state Q ↔
      (Backlog.served op).wp env j ⟨u, buffer⟩ fun r b k' => Q r ⟨b.inner, ⟨th⟩, g', b.buffer⟩ k'

/-- What a run keeps. Between two writes the runs stand alike, up to draws that missed; while a write
is waiting the other run is in the middle of it. -/
structure Kept (R : T → U → Prop) (env : World) (th : UInt64)
    (s : Paced (Corrupter T ConstProb G) × Alongside (Paced (Corrupter U ConstProb G))) : Prop where
  knob : s.1.state.prob = ⟨th⟩
  otherKnob : s.2.other.state.prob = ⟨th⟩
  idle : s.2.waiting = none → R s.1.state.inner s.2.other.state.inner ∧
    s.1.state.writeBuffer = s.2.other.state.writeBuffer ∧
    Lag th s.1.state.rng s.2.other.state.rng s.2.shifted
  owed : ∀ op ∈ s.2.waiting, Owed R env th s.1.state.inner s.1.state.writeBuffer s.1.state.rng
    s.2.shifted op s.2.other

/-- The flag after a poll. -/
def shiftedBy (th : UInt64)
    (s : Paced (Corrupter T ConstProb G) × Alongside (Paced (Corrupter U ConstProb G)))
    (op : WriteOp) : Bool := s.2.shifted || s.2.waiting.isSome && draws th s.1 op

omit [Sink T] in
/-- A draw after those of the waiting writes chooses what the other run chooses, if it hits in
step. -/
theorem Lag.chosen {g g' : G} {buffer : Option (List UInt8)} {shifted : Bool}
    (lag : Lag th g g' shifted)
    (inStep : asks op buffer = true → (SmallRng.nextU64 g).1 < th → shifted = false) :
    (Corrupter.chosen th op buffer g).1 = (Corrupter.chosen th op buffer g').1 ∧
      Lag th (Corrupter.chosen th op buffer g).2 (Corrupter.chosen th op buffer g').2 shifted := by
  unfold Corrupter.chosen
  by_cases asking : asks op buffer = true
  · rw [if_pos asking, if_pos asking]
    by_cases hits : (SmallRng.nextU64 g).1 < th
    · obtain rfl := inStep asking hits
      obtain rfl := lag.eq (nonzero_of_lt hits)
      exact ⟨rfl, .refl _⟩
    · have miss := decision_fst hits
      obtain ⟨miss', lag⟩ := lag.both miss
      exact ⟨miss.trans miss'.symm, lag⟩
  · rw [if_neg asking, if_neg asking]
    exact ⟨rfl, lag⟩

omit [Sink T] in
/-- What a draw leaves to be served, if it is in step. -/
theorem Kept.chosen (kept : Kept R env th s) (again : Repolled s op)
    (inStep : InStep (Strikes th) s op) :
    Owed R env th s.1.state.inner (chosen th op s.1.state.writeBuffer s.1.state.rng).1
      (Corrupter.chosen th op s.1.state.writeBuffer s.1.state.rng).2 (shiftedBy th s op) op
      s.2.other := by
  cases waiting : s.2.waiting with
  | none =>
    obtain ⟨hR, buffer, lag⟩ := kept.idle waiting
    obtain ⟨j, other⟩ := op_served env s.2.other.moment kept.otherKnob op
    have still : shiftedBy th s op = s.2.shifted := by
      rw [shiftedBy, waiting]
      exact Bool.or_false _
    obtain ⟨same, lag⟩ := lag.chosen fun asking hits =>
      (inStep ⟨asking, hits⟩).2
    rw [still, same]
    exact ⟨_, j, _, hR, lag, fun Q => buffer ▸ other Q⟩
  | some _ =>
    obtain rfl := again _ waiting
    obtain ⟨u, j, g', hR, lag, other⟩ := kept.owed op waiting
    unfold Corrupter.chosen
    by_cases asking : asks op s.1.state.writeBuffer = true
    · -- the write draws again, and misses
      have miss := decision_fst fun hits => by
        have none := (inStep ⟨asking, hits⟩).1
        rw [waiting] at none
        cases none
      have drew : th = 0 ∨ shiftedBy th s op = true := by
        by_cases zero : th = 0
        · exact .inl zero
        · refine .inr ?_
          simp [shiftedBy, waiting, draws, asking, zero]
      rw [if_pos asking, miss, ← none_of_asks asking]
      exact ⟨u, j, g', hR, lag.again miss drew, other⟩
    · rw [if_neg asking]
      exact ⟨u, j, g', hR, lag.mono fun shifted => by rw [shiftedBy, shifted]; rfl, other⟩

/-- The end of one poll in step: it waits and the other run is in the middle of it, or it is answered
as the other run's. -/
theorem Kept.served (h : Hesitates R)
    (kept : Kept R env th s) (again : Repolled s op) (inStep : InStep (Strikes th) s op) :
    op.poll.wp env s.1.moment s.1.state fun r s' _ => s'.prob = ⟨th⟩ ∧
      (r = .pending ∧ Owed R env th s'.inner s'.writeBuffer s'.rng (shiftedBy th s op) op s.2.other ∨
        r ≠ .pending ∧ op.poll.wp env s.2.other.moment s.2.other.state fun r' u' _ =>
          r' = r ∧ u'.prob = ⟨th⟩ ∧ R s'.inner u'.inner ∧ s'.writeBuffer = u'.writeBuffer ∧
            Lag th s'.rng u'.rng (shiftedBy th s op)) := by
  obtain ⟨u, j', g', hR, lag, other⟩ := kept.chosen again inStep
  obtain ⟨j, poll⟩ := op_served env s.1.moment kept.knob op
  refine (poll _).mpr (wp_mono (Backlog.served_hesitates h op j' hR) ?_)
  rintro r b k (⟨pending, u', i, hR', ends⟩ | ⟨ready, done⟩)
  · exact ⟨rfl, .inl ⟨pending, u', i, g', hR', lag, fun Q => (other Q).trans (ends _)⟩⟩
  · refine ⟨rfl, .inr ⟨ready, (other _).mpr (wp_mono done ?_)⟩⟩
    rintro r' b' k' ⟨same, hR', buffer⟩
    exact ⟨same, rfl, hR', buffer.symm, lag⟩

/-- **One poll** in step agrees with the other run, and goes on beside it. -/
theorem Kept.step (h : Hesitates R)
    (kept : Kept (fun t u => R t u ∧ received t = received u) env th s) (again : Repolled s op)
    (inStep : InStep (Strikes th) s op) :
    Alike env s op ∧ Kept (fun t u => R t u ∧ received t = received u) env th
      ((chaotic T U G env th).step s op).2 := by
  have moved : ((chaotic T U G env th).step s op).2 =
    (((writes (Corrupter T ConstProb G) env).step s.1 op).2,
      s.2.after (writes (Corrupter U ConstProb G) env) op
        ((writes (Corrupter T ConstProb G) env).step s.1 op).1 (draws th s.1 op)) := rfl
  obtain ⟨knob, ⟨pending, owed⟩ | ⟨ready, done⟩⟩ :=
    writes_step env s.1 op (kept.served h.received again inStep)
  · refine ⟨.inl pending, ?_⟩
    rw [moved, Alongside.after, if_pos pending, if_pos pending]
    refine ⟨knob, kept.otherKnob, fun h => (by cases h), ?_⟩
    rintro op' ⟨⟩
    exact owed
  · obtain ⟨same, otherKnob, hR, buffer, lag⟩ := writes_step env s.2.other op done
    refine ⟨.inr ⟨same, hR.2⟩, ?_⟩
    rw [moved, Alongside.after, if_neg ready, if_neg ready]
    exact ⟨knob, otherKnob, fun _ => ⟨hR, buffer, lag⟩, fun _ h => (by cases h)⟩

/-- A corrupter with nothing written yet, over two writers. -/
def started (k : Nat) (th : UInt64) (seed : List UInt8) (t : T) (u : U) :
    Paced (Corrupter T ConstProb G) × Alongside (Paced (Corrupter U ConstProb G)) :=
  (⟨k, fromSeed t ⟨th⟩ seed⟩, .start ⟨k, fromSeed u ⟨th⟩ seed⟩)

/-- **A corrupter over a writer that hesitates**: where every poll that draws a block is in step, the
runs agree. -/
theorem agrees (h : Hesitates R) {t : T} {u : U} (hR : R t u) (same : received t = received u)
    (seed : List UInt8) {run : List WriteOp}
    (again : (chaotic T U G env th).Allowed (fun _ => Repolled) (started k th seed t u) run)
    (inStep : (chaotic T U G env th).Allowed (fun _ => InStep (Strikes th)) (started k th seed t u)
      run) :
    (chaotic T U G env th).Allowed (fun _ => Alike env) (started k th seed t u) run := by
  refine (Machine.allowedFrom_and.mpr ⟨again, inStep⟩).imp
    (P := fun _ s => Kept (fun t u => R t u ∧ received t = received u) env th s) ?_ ?_ ?_
  · rintro past s op kept ⟨again, inStep⟩
    exact (kept.step h again inStep).2
  · rintro past s op kept ⟨again, inStep⟩
    exact (kept.step h again inStep).1
  · exact ⟨rfl, rfl, fun _ => ⟨⟨hR, same⟩, rfl, .refl _⟩, fun _ h => (by cases h)⟩

end Alongside

end Corrupter

namespace Chaos

section Reproducible

variable {T₁ T₂ U G : Type} [SmallRng G] [Sink T₁] [Sink T₂] [Sink U] {R₁ : T₁ → U → Prop}
  {R₂ : T₂ → U → Prop}

/-- **When seeded chaos is reproducible.** Two writers accept what a third accepts, each after waiting
as often as it likes. Where every draw that hits is in step, the two runs over them concur: the same
writes fail with the termination error, and the same bytes arrive, blocks included. The fuse depends on
the number of polls, and a run of a terminator agrees with the run over the third writer only if it is
in step. The blocks on the wire are the first that the seed decides on. -/
theorem reproducible (h₁ : Hesitates R₁) (h₂ : Hesitates R₂) {t₁ : T₁} {t₂ : T₂} {u : U}
    (hR₁ : R₁ t₁ u) (hR₂ : R₂ t₂ u) (same₁ : received t₁ = received u)
    (same₂ : received t₂ = received u) (env : World) (k : Nat) (th : UInt64) (seed : List UInt8) :
    (let one := Terminator.chaotic T₁ U G env th
      let other := Terminator.chaotic T₂ U G env th
      let start₁ := Terminator.started k th seed t₁ u
      let start₂ := Terminator.started k th seed t₂ u
      (∀ run, (writes (Terminator T₁ ConstProb G) env).Allowed (Terminator.Fused env th seed)
        ⟨k, Terminator.fromSeed t₁ ⟨th⟩ seed⟩ run) ∧
      (∀ run₁ run₂, one.Allowed (fun _ => InStep (Terminator.Blows th)) start₁ run₁ →
        other.Allowed (fun _ => InStep (Terminator.Blows th)) start₂ run₂ →
          Concur Terminator.wire Terminator.wire (one.run start₁ run₁) (other.run start₂ run₂)) ∧
      (Terminator.Foreign U env → ∀ run, one.Allowed (fun _ => Terminator.Alike env) start₁ run ↔
        one.Allowed (fun _ => InStep (Terminator.Blows th)) start₁ run)) ∧
    (let one := Corrupter.chaotic T₁ U G env th
      let other := Corrupter.chaotic T₂ U G env th
      let start₁ := Corrupter.started k th seed t₁ u
      let start₂ := Corrupter.started k th seed t₂ u
      (∀ run₁ run₂, one.Allowed (fun _ => Repolled) start₁ run₁ →
        one.Allowed (fun _ => InStep (Corrupter.Strikes th)) start₁ run₁ →
          other.Allowed (fun _ => Repolled) start₂ run₂ →
            other.Allowed (fun _ => InStep (Corrupter.Strikes th)) start₂ run₂ →
          Concur Corrupter.wire Corrupter.wire (one.run start₁ run₁) (other.run start₂ run₂)) ∧
      ∀ run : List WriteOp, (∀ op ∈ run, op.Scalar) →
        let last := (Corrupter.deciding T₁ G env th).run
          (⟨k, Corrupter.fromSeed t₁ ⟨th⟩ seed⟩, []) run
        ∃ w : Weave UInt8, received last.2.1.state.inner = received t₁ ++ w.bytes ∧
          w.callers = acceptedBytes last.1 ∧ w.rest = last.2.1.state.writeBuffer ∧
            w.blocks = (Corrupter.decisions th seed last.2.2.length : List _ × G).1.filterMap id) := by
  refine ⟨⟨fun run => Terminator.fused env th seed t₁ k run, fun run₁ run₂ in₁ in₂ => ?_,
    fun foreign run => ⟨Terminator.inStep_of_agrees h₁ foreign hR₁ same₁ seed,
      Terminator.agrees h₁ hR₁ same₁ seed⟩⟩, fun run₁ run₂ again₁ in₁ again₂ in₂ => ?_,
    fun run scalar => ?_⟩
  · refine agree_twice ?_ ?_ (Terminator.agrees h₁ hR₁ same₁ seed in₁)
      (Terminator.agrees h₂ hR₂ same₂ seed in₂)
    · exact same₁
    · exact same₂
  · refine agree_twice ?_ ?_ (Corrupter.agrees h₁ hR₁ same₁ seed again₁ in₁)
      (Corrupter.agrees h₂ hR₂ same₂ seed again₂ in₂)
    · exact same₁
    · exact same₂
  · obtain ⟨w, wire, callers, blocks, rest⟩ :=
      Corrupter.decided_woven (G := G) env th seed t₁ k run scalar
    refine ⟨w, wire, callers, rest, ?_⟩
    rw [← Corrupter.decided_stream env th seed t₁ k run]
    exact blocks

end Reproducible

/-- A socket hesitates where its script has it wait. -/
theorem socket_hesitates :
    Hesitates fun s u : Socket => u = ⟨s.log, s.writes.filter (· ≠ .later)⟩ := by
  rintro ⟨log, turns⟩ _ rfl op env k k'
  have wrote : ∀ buf, (Socket.write buf).wp env k ⟨log, turns⟩ fun r t' _ =>
      r = .pending ∧ (⟨log, turns.filter (· ≠ .later)⟩ : Socket) =
          ⟨t'.log, t'.writes.filter (· ≠ .later)⟩ ∨
        r ≠ .pending ∧ (Socket.write buf).wp env k' ⟨log, turns.filter (· ≠ .later)⟩
          fun r' u' _ => r' = r ∧ u' = ⟨t'.log, t'.writes.filter (· ≠ .later)⟩ := by
    intro buf
    cases turns with
    | nil => exact .inr ⟨fun h => (by cases h), rfl, rfl⟩
    | cons turn turns =>
      cases turn with
      | later => exact .inl ⟨rfl, by simp [Socket.write, Turn.next, Turn.answer]⟩
      | ready n => exact .inr ⟨fun h => (by cases h), rfl, rfl⟩
      | fails code => exact .inr ⟨fun h => (by cases h), rfl, rfl⟩
  cases op with
  | write c =>
    cases c with
    | scalar buf => exact wrote buf
    | vectored bufs => exact wrote bufs.flatten
  | flush => exact .inr ⟨fun h => (by cases h), rfl, rfl⟩
  | shutdown => exact .inr ⟨fun h => (by cases h), rfl, rfl⟩

/-- A socket that takes two writes, and one that has the second one wait. -/
def early : Socket := ⟨[], [.ready 1]⟩

def late : Socket := ⟨[], [.ready 1, .later]⟩

/-- A caller's write of one byte, and the same with a retry. -/
def once : List WriteOp := [.write (.scalar [1])]

def again : List WriteOp := once ++ once

/-- The second draw of the seed hits, and it is the first of the second write: over both sockets the
terminator fails that write and the corrupter puts a block before it. -/
theorem reproducible_late :
    (let run := fun t ops => (Terminator.chaotic Socket Socket Xoshiro .still half.threshold).run
        (Terminator.started 0 half.threshold Xoshiro.seed t early) ops
     concluded (run late again).1 = concluded (run early again).1 ∧
       Terminator.wire (run late again).2.1 = Terminator.wire (run early again).2.1) ∧
    (let run := fun t ops => (Corrupter.chaotic Socket Socket Xoshiro .still half.threshold).run
        (Corrupter.started 0 half.threshold Xoshiro.seed t early) ops
     concluded (run late (once ++ again)).1 = concluded (run early again).1 ∧
       Corrupter.wire (run late (once ++ again)).2.1 = Corrupter.wire (run early again).2.1) := by
  have chaos := @reproducible Socket Socket Socket Xoshiro _ _ _ _ _ _ socket_hesitates
    socket_hesitates late early early rfl rfl rfl rfl .still 0 half.threshold Xoshiro.seed
  obtain ⟨answers, arrived⟩ := chaos.1.2.1 again again (by decide) (by decide) (by decide)
  obtain ⟨answers', arrived'⟩ := chaos.2.1 (once ++ again) again (by decide) (by decide) (by decide)
    (by decide) (by decide)
  exact ⟨⟨answers, arrived (by decide) (by decide)⟩, answers', arrived' (by decide) (by decide)⟩

/-- A socket that is ready at once, and one that has to be polled twice. -/
def prompt : Socket := ⟨[], []⟩

def hesitant : Socket := ⟨[], [.later]⟩

/-- Timing shifts the chaos. Both sockets accept the caller's byte in the end; the one that has to be
polled twice meets the second draw. Over it the terminator fails the write, and the corrupter puts a
block before the byte. -/
theorem timing_shifts_chaos :
    concluded ((writes Socket .still).run ⟨0, prompt⟩ once).1 =
        concluded ((writes Socket .still).run ⟨0, hesitant⟩ again).1 ∧
      concluded ((writes (Terminator Socket ConstProb Xoshiro) .still).run
          ⟨0, .fromSeed prompt half Xoshiro.seed⟩ once).1 =
        [(.write (.scalar [1]), .ok 1)] ∧
      concluded ((writes (Terminator Socket ConstProb Xoshiro) .still).run
          ⟨0, .fromSeed hesitant half Xoshiro.seed⟩ again).1 =
        [(.write (.scalar [1]), .err terminatedError)] ∧
      ((writes (Corrupter Socket ConstProb Xoshiro) .still).run
          ⟨0, .fromSeed prompt half Xoshiro.seed⟩ once).2.state.inner.log = [1] ∧
      ((writes (Corrupter Socket ConstProb Xoshiro) .still).run
          ⟨0, .fromSeed hesitant half Xoshiro.seed⟩ again).2.state.inner.log = [90, 1] := by
  decide

end Chaos

end Trixter
