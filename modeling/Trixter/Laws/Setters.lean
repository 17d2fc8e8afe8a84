import Mathlib.Logic.Function.Basic
import Trixter.Lib.Runs
import Trixter.ProbabilityAtomics

/-!
# Concurrent setters of a probability knob

Any number of tasks call `set` on one knob, and each of its two stores is a step of its own, as each
load is. The pair is consistent again once all calls have returned exactly if the call that returned
last has the threshold of the call that stored its rate last (`settled_iff_inTurn`). Stores and loads take
effect in one order for all: weaker orders of the hardware are not modelled.
-/

namespace Trixter

open Trixter.Lib

namespace DynamicProbability

/-- One atomic step. -/
inductive SetterStep where
  /-- `task` calls `set`, which validates the probability and stores its bits. -/
  | storeRate (task : Nat) (probability : F64)
  /-- The call of `task` stores its threshold and returns. -/
  | storeThreshold (task : Nat)
  | loadRate
  | loadThreshold
  deriving DecidableEq, Repr

/-- What a step returns to its task, if anything. -/
inductive SetterAnswer where
  | nothing
  | returned (res : Except IoError Unit)
  | rate (probability : F64)
  | threshold (word : UInt64)

/-- The knob, and the probabilities that calls in progress still have to store the threshold of. -/
structure Setters where
  atomics : Atomics
  calls : Nat → Option F64

namespace Setters

/-- No call is in progress. -/
def Quiet (s : Setters) : Prop := ∀ task, s.calls task = none

/-- Whenever no call is in progress, the pair is consistent. -/
def Settled (s : Setters) : Prop := s.Quiet → s.atomics.Consistent

/-- A task that is in no call calls `set`. -/
def begin (task : Nat) (probability : F64) (s : Setters) : SetterAnswer × Setters :=
  match s.calls task, validateProbabilityRate probability with
  | none, .ok _ =>
    (.nothing, ⟨s.atomics.storeRate probability, Function.update s.calls task (some probability)⟩)
  | none, .error e => (.returned (.error e), s)
  | some _, _ => (.nothing, s)

/-- A call returns. -/
def finish (task : Nat) (s : Setters) : SetterAnswer × Setters :=
  match s.calls task with
  | some probability =>
    (.returned (.ok ()),
      ⟨s.atomics.storeThreshold probability, Function.update s.calls task none⟩)
  | none => (.nothing, s)

/-- One step. -/
def step (s : Setters) : SetterStep → SetterAnswer × Setters
  | .storeRate task probability => s.begin task probability
  | .storeThreshold task => s.finish task
  | .loadRate => (.rate s.atomics.probability, s)
  | .loadThreshold => (.threshold s.atomics.threshold, s)

/-- The probability whose rate was stored last. -/
def lastRate (last : F64) (s : Setters) : SetterStep → F64
  | .storeRate task probability =>
    match s.calls task, validateProbabilityRate probability with
    | none, .ok _ => probability
    | _, _ => last
  | _ => last

/-- The setters as a machine, with the probability whose rate was stored last beside them. -/
def machine : Machine (Setters × F64) SetterStep SetterAnswer := (Machine.mk step).watched lastRate

/-- The last call to return is the one that stored its rate last, or has the same threshold. -/
def InTurn (s : Setters × F64) : SetterStep → Prop
  | .storeThreshold task => ∀ probability, s.1.calls task = some probability →
      (∀ other, other ≠ task → s.1.calls other = none) →
      thresholdOf probability = thresholdOf s.2
  | _ => True

/-- What a run keeps: the bits are those of the rate stored last. -/
def Sound (s : Setters × F64) : Prop :=
  s.1.atomics.probabilityRateBits = s.2.bits ∧ s.1.Settled

variable {s : Setters × F64} {task : Nat} {probability : F64}

/-- A task in a call is a call in progress. -/
theorem not_quiet {s : Setters} (busy : s.calls task = some probability) : ¬s.Quiet := by
  intro quiet
  rw [quiet task] at busy
  cases busy

/-- Once a call returns, all are over exactly if no other task is in one. -/
theorem quiet_after {atomics : Atomics} {calls : Nat → Option F64} :
    Quiet ⟨atomics, Function.update calls task none⟩ ↔ ∀ other, other ≠ task → calls other = none := by
  constructor
  · intro quiet other ne
    have idle : Function.update calls task none other = none := quiet other
    rwa [Function.update_of_ne ne] at idle
  · intro others other
    show Function.update calls task none other = none
    by_cases same : other = task
    · rw [same, Function.update_self]
    · rw [Function.update_of_ne same]
      exact others other same

/-- One step keeps the pair settled exactly if it is in turn. -/
theorem settled_step (h : Sound s) (ev : SetterStep) :
    (machine.step s ev).2.1.Settled ↔ InTurn s ev := by
  obtain ⟨bits, settled⟩ := h
  cases ev with
  | storeRate task probability =>
    refine iff_of_true ?_ trivial
    show (s.1.begin task probability).2.Settled
    unfold begin
    split
    · intro quiet
      exact absurd quiet (not_quiet (Function.update_self ..))
    · exact settled
    · exact settled
  | storeThreshold task =>
    show (s.1.finish task).2.Settled ↔ _
    unfold finish
    split
    · next probability busy =>
      have consistent : (s.1.atomics.storeThreshold probability).Consistent ↔
          thresholdOf probability = thresholdOf s.2 := by
        show thresholdOf probability = thresholdOf ⟨s.1.atomics.probabilityRateBits⟩ ↔ _
        rw [bits]
      unfold Settled InTurn
      rw [quiet_after, consistent]
      constructor
      · intro in_turn probability' busy' others
        rw [busy] at busy'
        cases busy'
        exact in_turn others
      · intro in_turn others
        exact in_turn probability busy others
    · next idle =>
      refine iff_of_true settled fun probability busy => ?_
      rw [idle] at busy
      cases busy
  | loadRate => exact iff_of_true settled trivial
  | loadThreshold => exact iff_of_true settled trivial

/-- The bits are always those of the rate stored last. -/
theorem bits_step (bits : s.1.atomics.probabilityRateBits = s.2.bits) (ev : SetterStep) :
    (machine.step s ev).2.1.atomics.probabilityRateBits = (machine.step s ev).2.2.bits := by
  cases ev with
  | storeRate task probability =>
    show (s.1.begin task probability).2.atomics.probabilityRateBits =
      (lastRate s.2 s.1 (.storeRate task probability)).bits
    cases busy : s.1.calls task with
    | none =>
      cases valid : validateProbabilityRate probability with
      | ok u =>
        simp only [begin, lastRate, busy, valid]
        rfl
      | error e => simp only [begin, lastRate, busy, valid, bits]
    | some p => simp only [begin, lastRate, busy, bits]
  | storeThreshold task =>
    show (s.1.finish task).2.atomics.probabilityRateBits = s.2.bits
    unfold finish
    split
    · exact bits
    · exact bits
  | loadRate => exact bits
  | loadThreshold => exact bits

/-- **The two atomics stay one value exactly in the runs in which the call that returns last is in
turn.** -/
theorem settled_iff_inTurn {probability : F64} {atomics : Atomics}
    (created : new probability = .ok atomics) (steps : List SetterStep) :
    machine.Throughout (fun _ s => s.1.Settled) (⟨atomics, fun _ => none⟩, probability) steps ↔
      machine.Allowed (fun _ => InTurn) (⟨atomics, fun _ => none⟩, probability) steps := by
  have start : Sound (⟨atomics, fun _ => none⟩, probability) := by
    rw [Atomics.eq_of_new created]
    exact ⟨rfl, fun _ => rfl⟩
  apply Machine.AllowedFrom.congr (P := fun _ => Sound) _ _ start
  · intro past s ev sound settled
    exact ⟨bits_step sound.1 ev, settled⟩
  · intro past s ev sound
    exact settled_step sound ev

/-- 0.25 -/
def quarter : F64 := ⟨0x3FD0000000000000⟩

/-- One call after the other. -/
theorem settled_in_turn :
    machine.Throughout (fun _ s => s.1.Settled) (⟨⟨0, 0⟩, fun _ => none⟩, .zero)
      [.storeRate 1 quarter, .storeThreshold 1, .storeRate 2 .one, .storeThreshold 2] := by
  apply (settled_iff_inTurn rfl _).mpr
  refine ⟨trivial, ?_, trivial, ?_, trivial⟩
  · intro probability busy _
    cases busy
    rfl
  · intro probability busy _
    cases busy
    rfl

/-- Two calls that overlap: the rate is the second one's and the threshold the first one's. -/
theorem settled_fails_overlapping :
    ¬machine.Throughout (fun _ s => s.1.Settled) (⟨⟨0, 0⟩, fun _ => none⟩, .zero)
      [.storeRate 1 quarter, .storeRate 2 .one, .storeThreshold 2, .storeThreshold 1] := by
  intro settled
  obtain ⟨-, -, -, last, -⟩ := settled
  have quiet : Quiet ⟨⟨F64.one.bits, thresholdOf quarter⟩,
      Function.update (Function.update (Function.update (Function.update (fun _ => none) 1
        (some quarter)) 2 (some .one)) 2 none) 1 none⟩ := by
    rw [quiet_after]
    intro other ne
    by_cases second : other = 2
    · rw [second, Function.update_self]
    · rw [Function.update_of_ne second, Function.update_of_ne second, Function.update_of_ne ne]
  have torn := last quiet
  revert torn
  decide

end Setters

end DynamicProbability

end Trixter
