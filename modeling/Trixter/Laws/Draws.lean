import Trixter.Laws.Framing
import Trixter.Laws.Terminator

/-!
# What a seed decides

At a constant probability. `Terminator.fused`: the fuse after `n` polls is the seed's, whatever the
writer below does. `Corrupter.decided_stream` and `decided_woven`: the blocks on the wire are the first
that the seed decides on, in order.

Both adapters draw at polls, not at writes, so this does not say which write meets which draw: that
depends on how often the writer below was pending.
-/

namespace Trixter

open Trixter.Lib Polling

variable {T G : Type} [SmallRng G] {env : World} {k : Nat} {th : UInt64}

/-! ## The terminator's fuse -/

namespace Terminator

/-- The fuse and the generator. -/
def fuse {P : Type} (s : Terminator T P G) : Bool × G := (s.triggered, s.rng)

/-- `try_trigger` at a constant threshold, on the fuse and the generator alone. -/
def burn (th : UInt64) (fuse : Bool × G) : Bool × G :=
  if fuse.1 then fuse
  else if th = 0 then fuse
  else (decide ((SmallRng.nextU64 fuse.2).1 < th), (SmallRng.nextU64 fuse.2).2)

/-- The fuse of a seed after `n` polls. -/
def fuseAfter (th : UInt64) (seed : List UInt8) : Nat → Bool × G
  | 0 => (false, SmallRng.fromSeed seed)
  | n + 1 => burn th (fuseAfter th seed n)

variable [AsyncWrite T] {s : Terminator T ConstProb G}

/-- Every operation asks the fuse. -/
theorem op_wp {op : WriteOp} {Q : Poll IoError Nat → Terminator T ConstProb G → Nat → Prop} :
    op.poll.wp env k s Q ↔ asked env k s Q fun s' k' =>
      op.poll.wp env k' s'.inner fun r inner k'' => Q r { s' with inner } k'' := by
  cases op with
  | write c => cases c <;> exact guarded_wp
  | flush =>
    simp only [WriteOp.poll, wp_map]
    exact guarded_wp
  | shutdown =>
    simp only [WriteOp.poll, wp_map]
    exact guarded_wp

/-- The end of a poll: the fuse has burnt, the poll fails if it is blown then, and is answered by the
inner writer if not. -/
structure Burnt (env : World) (th : UInt64) (s : Paced (Terminator T ConstProb G)) (op : WriteOp)
    (r : Poll IoError Nat) (s' : Terminator T ConstProb G) : Prop where
  knob : s'.prob = ⟨th⟩
  fuse : s'.fuse = burn th s.state.fuse
  fails : s'.triggered = true → r = .err terminatedError ∧ s'.inner = s.state.inner
  reaches : s'.triggered = false → r = (op.poll env (s.moment + 1) s.state.inner).result ∧
    s'.inner = (op.poll env (s.moment + 1) s.state.inner).state

/-- **One poll burns the fuse.** -/
theorem step_burns (env : World) {s : Paced (Terminator T ConstProb G)} (knob : s.state.prob = ⟨th⟩)
    (op : WriteOp) :
    Burnt env th s op ((writes (Terminator T ConstProb G) env).step s op).1
      ((writes (Terminator T ConstProb G) env).step s op).2.state := by
  obtain ⟨k, s⟩ := s
  refine machine_step (Q := fun r s' _ => Burnt env th ⟨k, s⟩ op r s') ?_
  have threshold : Probability.threshold env s.prob k = th := by rw [knob]; rfl
  show op.poll.wp env k s _
  rw [op_wp, asked, threshold]
  by_cases triggered : s.triggered = true
  · rw [if_pos triggered]
    refine ⟨knob, by simp [fuse, burn, triggered], fun _ => ⟨rfl, rfl⟩, fun unblown => ?_⟩
    rw [triggered] at unblown
    cases unblown
  · rw [if_neg triggered]
    by_cases zero : th = 0
    · rw [if_pos zero, wp_iff]
      exact ⟨knob, by simp [fuse, burn, triggered, zero], fun blown => absurd blown triggered,
        fun _ => ⟨rfl, rfl⟩⟩
    · rw [if_neg zero]
      by_cases hits : Hits env k s
      · rw [if_pos hits]
        have lt : (SmallRng.nextU64 s.rng).1 < th := by rwa [Hits, threshold] at hits
        refine ⟨knob, by simp [fuse, burn, triggered, zero, lt, drawn, blown], fun _ => ⟨rfl, rfl⟩,
          fun unblown => ?_⟩
        cases unblown
      · rw [if_neg hits, wp_iff]
        have ge : ¬(SmallRng.nextU64 s.rng).1 < th := by rwa [Hits, threshold] at hits
        exact ⟨knob, by simp [fuse, burn, triggered, zero, ge, drawn],
          fun blown => absurd blown triggered, fun _ => ⟨rfl, rfl⟩⟩

/-- The answer of the next poll, if the seed alone decides whether it fails. -/
def Fused (env : World) (th : UInt64) (seed : List UInt8) (past : Writes)
    (s : Paced (Terminator T ConstProb G)) (op : WriteOp) : Prop :=
  ((writes (Terminator T ConstProb G) env).step s op).1 =
    if (fuseAfter th seed (past.length + 1) : Bool × G).1 then .err terminatedError
    else (op.poll env (s.moment + 1) s.state.inner).result

/-- **The fuse depends on the number of polls alone.** -/
theorem fused (env : World) (th : UInt64) (seed : List UInt8) (inner : T) (k : Nat)
    (run : List WriteOp) :
    (writes (Terminator T ConstProb G) env).Allowed (Fused env th seed)
      ⟨k, fromSeed inner ⟨th⟩ seed⟩ run := by
  refine Machine.AllowedFrom.imp (C := fun _ _ _ => True)
    (P := fun past (s : Paced (Terminator T ConstProb G)) =>
      s.state.prob = ⟨th⟩ ∧ s.state.fuse = fuseAfter th seed past.length)
    ?_ ?_ ⟨rfl, rfl⟩ (Machine.allowedFrom_of_forall (fun _ _ _ => trivial) _ _ run)
  · intro past s op h _
    obtain ⟨knob, burnt, -⟩ := step_burns env h.1 op
    refine ⟨knob, ?_⟩
    rw [List.length_append, List.length_singleton, fuseAfter, ← h.2]
    exact burnt
  · intro past s op h _
    obtain ⟨-, burnt, fails, reaches⟩ := step_burns env h.1 op
    rw [Fused, fuseAfter, ← h.2, ← burnt]
    by_cases blown : ((writes (Terminator T ConstProb G) env).step s op).2.state.triggered = true
    · rw [fuse, if_pos blown]
      exact (fails blown).1
    · rw [fuse, if_neg blown]
      exact (reaches (eq_false_of_ne_true blown)).1

end Terminator

/-! ## The corrupter's decisions -/

namespace Corrupter

/-- One draw at a constant threshold: a block or none, and the generator after it. -/
def decision (th : UInt64) (g : G) : Option (List UInt8) × G :=
  if th = 0 then (none, g)
  else if (SmallRng.nextU64 g).1 < th then
    (some (block (SmallRng.nextU64 g).2), filled (SmallRng.nextU64 g).2)
  else (none, (SmallRng.nextU64 g).2)

theorem nonzero_of_lt {x : UInt64} (lt : x < th) : th ≠ 0 := by
  rintro rfl
  simp [UInt64.lt_iff_toNat_lt] at lt

/-- The first `n` decisions of a seed, and the generator after them. -/
def decisions (th : UInt64) (seed : List UInt8) : Nat → List (Option (List UInt8)) × G
  | 0 => ([], SmallRng.fromSeed seed)
  | n + 1 =>
    let (before, g) := decisions th seed n
    (before ++ [(decision th g).1], (decision th g).2)

/-- A write poll that finds no block stored asks for a decision. Nothing else does. -/
def asks : WriteOp → Option (List UInt8) → Bool
  | .write (.scalar _), none => true
  | _, _ => false

/-- What a poll decides. -/
def decided (th : UInt64) (s : Paced (Corrupter T ConstProb G)) (op : WriteOp) :
    List (Option (List UInt8)) :=
  if asks op s.state.writeBuffer then [(decision th s.state.rng).1] else []

variable [AsyncWrite T] {s : Corrupter T ConstProb G}

/-- What a write poll does to the generator. -/
theorem synthesize_draws (knob : s.prob = ⟨th⟩) :
    synthesize.wp env k s fun _ s' _ => s'.prob = ⟨th⟩ ∧
      s'.rng = if s.writeBuffer = none then (decision th s.rng).2 else s.rng := by
  have threshold : Probability.threshold env s.prob k = th := by rw [knob]; rfl
  rw [synthesize_wp, threshold]
  by_cases idle : s.writeBuffer = none
  · rw [if_neg (not_not.mpr idle), if_pos idle]
    by_cases zero : th = 0
    · rw [if_pos zero]
      exact ⟨knob, by rw [decision, if_pos zero]⟩
    · rw [if_neg zero]
      by_cases hits : Corrupts env k s
      · have lt : (SmallRng.nextU64 s.rng).1 < th := by rwa [Corrupts, threshold] at hits
        rw [if_pos hits, onBacklog_wp, wp_iff]
        exact ⟨knob, by rw [decision, if_neg zero, if_pos lt]; rfl⟩
      · have ge : ¬(SmallRng.nextU64 s.rng).1 < th := by rwa [Corrupts, threshold] at hits
        rw [if_neg hits]
        exact ⟨knob, by rw [decision, if_neg zero, if_neg ge]; rfl⟩
  · rw [if_pos idle, if_neg idle, onBacklog_wp, wp_iff]
    exact ⟨knob, rfl⟩

/-- **One poll makes at most one decision**, and it is the next one of the generator. -/
theorem op_draws (env : World) (op : WriteOp) {s : Paced (Corrupter T ConstProb G)}
    (knob : s.state.prob = ⟨th⟩) :
    op.poll.wp env s.moment s.state fun _ s' _ => s'.prob = ⟨th⟩ ∧
      (decided th s op = [] ∧ s'.rng = s.state.rng ∨
        decided th s op = [(decision th s.state.rng).1] ∧ s'.rng = (decision th s.state.rng).2) := by
  cases op with
  | write c =>
    cases c with
    | scalar buf =>
      show (pollWrite buf).wp env s.moment s.state _
      simp only [AsyncWrite.pollWrite]
      rw [wp_bind]
      refine wp_mono (synthesize_draws knob) fun r s' k' ⟨knob', drew⟩ => ?_
      have draws : s'.prob = ⟨th⟩ ∧ (decided th s (.write (.scalar buf)) = [] ∧
          s'.rng = s.state.rng ∨ decided th s (.write (.scalar buf)) =
            [(decision th s.state.rng).1] ∧ s'.rng = (decision th s.state.rng).2) := by
        refine ⟨knob', ?_⟩
        unfold decided
        cases stored : s.state.writeBuffer with
        | none =>
          rw [if_pos stored] at drew
          exact .inr ⟨rfl, drew⟩
        | some block =>
          rw [if_neg (stored ▸ Option.some_ne_none block)] at drew
          exact .inl ⟨rfl, drew⟩
      cases r <;> exact draws
    | vectored bufs => exact ⟨knob, .inl ⟨rfl, rfl⟩⟩
  | flush =>
    simp only [WriteOp.poll, wp_map]
    exact ⟨knob, .inl ⟨rfl, rfl⟩⟩
  | shutdown =>
    simp only [WriteOp.poll, wp_map]
    exact ⟨knob, .inl ⟨rfl, rfl⟩⟩

/-- The polls of a corrupter, with the decisions they make. -/
abbrev deciding (T G : Type) [SmallRng G] [AsyncWrite T] (env : World) (th : UInt64) :=
  (writes (Corrupter T ConstProb G) env).traced (decided th)

/-- **The decisions of a run are the first of its seed's**, whatever the inner writer does. -/
theorem decided_stream (env : World) (th : UInt64) (seed : List UInt8) (inner : T) (k : Nat)
    (run : List WriteOp) :
    let made := ((deciding T G env th).run (⟨k, fromSeed inner ⟨th⟩ seed⟩, []) run).2.2
    made = (decisions th seed made.length : List _ × G).1 := by
  refine (Machine.run_invariant (m := deciding T G env th)
    (P := fun _ (s : Paced (Corrupter T ConstProb G) × List (Option (List UInt8))) =>
      s.2 = (decisions th seed s.2.length : List _ × G).1 ∧ s.1.state.prob = ⟨th⟩ ∧
        s.1.state.rng = (decisions th seed s.2.length).2) ⟨rfl, rfl, rfl⟩ ?_ run).1
  rintro past ⟨s, made⟩ op ⟨stream, knob, rng⟩
  dsimp only at stream knob rng
  obtain ⟨knob', draws⟩ := machine_step (op_draws env op knob)
  show made ++ decided th s op = (decisions th seed (made ++ decided th s op).length).1 ∧ _ ∧
    _ = (decisions th seed (made ++ decided th s op).length).2
  rcases draws with ⟨none, same⟩ | ⟨one, moved⟩
  · rw [none, List.append_nil]
    exact ⟨stream, knob', same.trans rng⟩
  · rw [one, List.length_append, List.length_singleton, decisions]
    refine ⟨?_, knob', ?_⟩
    · show made ++ _ = (decisions th seed made.length).1 ++ _
      rw [← stream, ← rng]
    · exact moved.trans (congrArg (fun g => (decision th g).2) rng)

omit [AsyncWrite T] in
/-- What is drawn is what is decided on. -/
theorem drawnBy_eq {s : Paced (Corrupter T ConstProb G)} (knob : s.state.prob = ⟨th⟩) (op : WriteOp) :
    drawnBy env s.moment s.state op = (decided th s op).filterMap id := by
  obtain ⟨k, inner, prob, rng, buffer⟩ := s
  obtain rfl : prob = ⟨th⟩ := knob
  cases op with
  | write c =>
    cases c with
    | scalar buf =>
      cases buffer with
      | some stored => rfl
      | none =>
        have hit : Corrupts env k (⟨inner, ⟨th⟩, rng, none⟩ : Corrupter T ConstProb G) ↔
            (SmallRng.nextU64 rng).1 < th := Iff.rfl
        show drawn env k _ = [(decision th rng).1].filterMap id
        unfold drawn decision
        by_cases hits : (SmallRng.nextU64 rng).1 < th
        · rw [if_pos ⟨rfl, hit.mpr hits⟩, if_pos hits, if_neg (nonzero_of_lt hits)]
          rfl
        · rw [if_neg (fun h => hits (hit.mp h.2)), if_neg hits]
          split <;> rfl
    | vectored bufs => rfl
  | flush => rfl
  | shutdown => rfl

section Woven

variable {T : Type} [Sink T]

/-- **What arrives** in a run without vectored writes: the blocks decided on, each in one piece, among
the bytes accepted, and at the end the block in the store as far as it is written. -/
theorem decided_woven (env : World) (th : UInt64) (seed : List UInt8) (inner : T) (k : Nat)
    (run : List WriteOp) (scalar : ∀ op ∈ run, op.Scalar) :
    let last := (deciding T G env th).run (⟨k, fromSeed inner ⟨th⟩ seed⟩, []) run
    ∃ w : Weave UInt8, received last.2.1.state.inner = received inner ++ w.bytes ∧
      w.callers = acceptedBytes last.1 ∧ w.blocks = last.2.2.filterMap id ∧
        w.rest = last.2.1.state.writeBuffer := by
  have retried := Contract.retried (T := T) Sink.contract
  have kept := Machine.run_induction (m := deciding T G env th)
    (P := fun past (s : Paced (Corrupter T ConstProb G) × List (Option (List UInt8))) =>
      s.1.state.prob = ⟨th⟩ ∧ ∃ w : Weave UInt8, w.callers = acceptedBytes past ∧
        w.blocks = s.2.filterMap id ∧ ∀ buf, Backlog.Woven
          (fun log _ w => True ∧ received w = log) (received inner) w buf s.1.state.backlog)
    (s := (⟨k, fromSeed inner ⟨th⟩ seed⟩, []))
    ⟨rfl, .empty, rfl, rfl, fun _ => ⟨rfl, trivial, by simp [fromSeed, backlog, Weave.empty, Weave.bytes]⟩⟩
    ?_ (Machine.allowedFrom_of_mem scalar)
  · obtain ⟨-, w, callers, blocks, hw⟩ := kept
    exact ⟨w, (hw []).offered.2, callers, blocks, (hw []).rest⟩
  · rintro past ⟨s, made⟩ op ⟨knob, w, callers, blocks, hw⟩ scalar
    have free : drawnBy env s.moment s.state op ≠ [] → ∀ next : List UInt8,
        True ∧ received s.state.inner = received inner ++ w.bytes := fun _ _ => (hw []).offered
    obtain ⟨-, -, w', grew, onward⟩ := writes_step env s op (op_woven env s.moment (fun _ => True)
      retried scalar ⟨[], trivial⟩ (fun _ _ => trivial) (fun buf _ => hw buf) free)
    rw [drawnBy_eq knob] at grew
    obtain ⟨next, on⟩ : ∃ next, Backlog.Onward (fun _ => True) op
        ((writes (Corrupter T ConstProb G) env).step s op).1 next := by
      cases op with
      | write c => exact ⟨_, .inr rfl⟩
      | flush => exact ⟨[], trivial⟩
      | shutdown => exact ⟨[], trivial⟩
    refine ⟨(writes_step env s op (op_draws env op knob)).1, w', ?_, ?_, fun _ =>
      ⟨(onward next on).rest, (onward next on).offered⟩⟩
    · exact grew.callers.trans ((congrArg (· ++ _) callers).trans acceptedBytes_snoc.symm)
    · show w'.blocks = (made ++ decided th s op).filterMap id
      rw [grew.blocks, blocks, List.filterMap_append]

end Woven

end Corrupter

end Trixter
