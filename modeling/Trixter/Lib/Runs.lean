import Mathlib.Data.List.Basic

/-!
# Runs and their histories

A machine answers one input at a time and moves. A run keeps its history: every input with the
answer it got, oldest first. Laws of runs are laws of histories, proved once by `run_induction`:
what holds before the first step, and is kept by a step taken where the step is allowed, holds at
the end of every run whose steps are allowed.
-/

namespace Trixter.Lib

/-- A deterministic machine with states `σ`, inputs `ι` and answers `ο`. -/
structure Machine (σ ι ο : Type) where
  step : σ → ι → ο × σ

/-- Inputs with their answers, oldest first. -/
abbrev History (ι ο : Type) := List (ι × ο)

namespace Machine

variable {σ ι ο : Type} (m : Machine σ ι ο)

/-- Continue a run: its history and its last state after the inputs. -/
def runFrom (past : History ι ο) (s : σ) : List ι → History ι ο × σ
  | [] => (past, s)
  | i :: is => runFrom (past ++ [(i, (m.step s i).1)]) (m.step s i).2 is

/-- A run from the start. -/
def run (s : σ) (is : List ι) : History ι ο × σ := m.runFrom [] s is

/-- Each step of the continued run is taken where `C` allows it. `C` sees the history so far, the
state before the step and the input. -/
def AllowedFrom (C : History ι ο → σ → ι → Prop) (past : History ι ο) (s : σ) : List ι → Prop
  | [] => True
  | i :: is => C past s i ∧ AllowedFrom C (past ++ [(i, (m.step s i).1)]) (m.step s i).2 is

/-- Each step of the run is allowed. -/
def Allowed (C : History ι ο → σ → ι → Prop) (s : σ) (is : List ι) : Prop :=
  m.AllowedFrom C [] s is

variable {m} {C : History ι ο → σ → ι → Prop} {P : History ι ο → σ → Prop}

/-- A checkable condition can be checked along a run. -/
instance decidableAllowedFrom [∀ past s i, Decidable (C past s i)] (past : History ι ο) (s : σ) :
    (is : List ι) → Decidable (m.AllowedFrom C past s is)
  | [] => inferInstanceAs (Decidable True)
  | i :: is =>
    have := decidableAllowedFrom (past ++ [(i, (m.step s i).1)]) (m.step s i).2 is
    inferInstanceAs (Decidable (_ ∧ _))

instance [∀ past s i, Decidable (C past s i)] (s : σ) (is : List ι) :
    Decidable (m.Allowed C s is) :=
  inferInstanceAs (Decidable (m.AllowedFrom C [] s is))

/-- Where an invariant and one condition give another at each step, a run that the first allows is
a run that the second allows. -/
theorem AllowedFrom.imp {D : History ι ο → σ → ι → Prop}
    (keep : ∀ past s i, P past s → C past s i → P (past ++ [(i, (m.step s i).1)]) (m.step s i).2)
    (imp : ∀ past s i, P past s → C past s i → D past s i)
    {past : History ι ο} {s : σ} {is : List ι} (start : P past s) (h : m.AllowedFrom C past s is) :
    m.AllowedFrom D past s is := by
  induction is generalizing past s with
  | nil => trivial
  | cons i is ih => exact ⟨imp _ _ _ start h.1, ih (keep _ _ _ start h.1) h.2⟩

/-- Two conditions that an invariant makes the same allow the same runs. -/
theorem AllowedFrom.congr {D : History ι ο → σ → ι → Prop}
    (keep : ∀ past s i, P past s → C past s i → P (past ++ [(i, (m.step s i).1)]) (m.step s i).2)
    (same : ∀ past s i, P past s → (C past s i ↔ D past s i))
    {past : History ι ο} {s : σ} {is : List ι} (start : P past s) :
    m.AllowedFrom C past s is ↔ m.AllowedFrom D past s is :=
  ⟨.imp keep (fun _ _ _ hp hc => (same _ _ _ hp).mp hc) start,
    .imp (fun _ _ _ hp hd => keep _ _ _ hp ((same _ _ _ hp).mpr hd))
      (fun _ _ _ hp hd => (same _ _ _ hp).mpr hd) start⟩

/-- A condition on the inputs alone is one on the list of inputs. -/
theorem allowedFrom_of_mem {D : ι → Prop} {past : History ι ο} {s : σ} {is : List ι}
    (all : ∀ i ∈ is, D i) : m.AllowedFrom (fun _ _ i => D i) past s is := by
  induction is generalizing past s with
  | nil => trivial
  | cons i is ih => exact ⟨all i List.mem_cons_self, ih fun j mem => all j (.tail i mem)⟩

/-- A run that two conditions allow is one that both allow at once. -/
theorem allowedFrom_and {D : History ι ο → σ → ι → Prop} {past : History ι ο} {s : σ} {is : List ι} :
    m.AllowedFrom (fun past s i => C past s i ∧ D past s i) past s is ↔
      m.AllowedFrom C past s is ∧ m.AllowedFrom D past s is := by
  induction is generalizing past s with
  | nil => exact (and_self_iff).symm
  | cons i is ih =>
    simp only [AllowedFrom, ih]
    exact and_and_and_comm

/-- The same, on a run that a third condition allows already. -/
theorem AllowedFrom.congr_on {A D : History ι ο → σ → ι → Prop}
    (keep : ∀ past s i, P past s → A past s i → C past s i →
      P (past ++ [(i, (m.step s i).1)]) (m.step s i).2)
    (same : ∀ past s i, P past s → A past s i → (C past s i ↔ D past s i))
    {past : History ι ο} {s : σ} {is : List ι} (start : P past s) (h : m.AllowedFrom A past s is) :
    m.AllowedFrom C past s is ↔ m.AllowedFrom D past s is := by
  have both : m.AllowedFrom (fun past s i => A past s i ∧ C past s i) past s is ↔
      m.AllowedFrom (fun past s i => A past s i ∧ D past s i) past s is :=
    congr (P := P) (fun past s i hp ⟨ha, hc⟩ => keep past s i hp ha hc)
      (fun past s i hp => and_congr_right (same past s i hp)) start
  rw [allowedFrom_and, allowedFrom_and] at both
  exact and_congr_right_iff.mp both h

/-- `P` holds after each step of the run. -/
def Throughout (m : Machine σ ι ο) (P : History ι ο → σ → Prop) (s : σ) (is : List ι) : Prop :=
  m.Allowed (fun past s i => P (past ++ [(i, (m.step s i).1)]) (m.step s i).2) s is

instance [∀ past s, Decidable (P past s)] (s : σ) (is : List ι) :
    Decidable (m.Throughout P s is) :=
  inferInstanceAs (Decidable (m.Allowed _ s is))

/-- Weakening. -/
theorem Throughout.mono {Q : History ι ο → σ → Prop} {s : σ} {is : List ι} (h : m.Throughout P s is)
    (imp : ∀ past s, P past s → Q past s) : m.Throughout Q s is :=
  AllowedFrom.imp (P := fun _ _ => True) (fun _ _ _ _ _ => trivial) (fun _ _ _ _ now => imp _ _ now)
    trivial h

/-- The invariant rule, from the middle of a run. -/
theorem runFrom_induction (keep : ∀ past s i, P past s → C past s i →
      P (past ++ [(i, (m.step s i).1)]) (m.step s i).2)
    {past : History ι ο} {s : σ} {is : List ι} (start : P past s)
    (allowed : m.AllowedFrom C past s is) :
    P (m.runFrom past s is).1 (m.runFrom past s is).2 := by
  induction is generalizing past s with
  | nil => exact start
  | cons i is ih => exact ih (keep past s i start allowed.1) allowed.2

/-- **The invariant rule of runs.** -/
theorem run_induction {s : σ} {is : List ι} (start : P [] s)
    (keep : ∀ past s i, P past s → C past s i → P (past ++ [(i, (m.step s i).1)]) (m.step s i).2)
    (allowed : m.Allowed C s is) : P (m.run s is).1 (m.run s is).2 :=
  runFrom_induction keep start allowed

/-- Where every step is allowed, every run is. -/
theorem allowedFrom_of_forall (all : ∀ past s i, C past s i) (past : History ι ο) (s : σ)
    (is : List ι) : m.AllowedFrom C past s is := by
  induction is generalizing past s with
  | nil => trivial
  | cons i is ih => exact ⟨all past s i, ih _ _⟩

/-- What an invariant of every step gives at each step. -/
theorem allowedFrom_of_invariant {P : σ → Prop} (keep : ∀ s i, P s → P (m.step s i).2)
    (imp : ∀ past s i, P s → C past s i) {past : History ι ο} {s : σ} {is : List ι} (start : P s) :
    m.AllowedFrom C past s is := by
  induction is generalizing past s with
  | nil => trivial
  | cons i is ih => exact ⟨imp past s i start, ih (keep s i start)⟩

/-- The invariant rule of a machine whose steps are all allowed. -/
theorem run_invariant {s : σ} (start : P [] s)
    (keep : ∀ past s i, P past s → P (past ++ [(i, (m.step s i).1)]) (m.step s i).2)
    (is : List ι) : P (m.run s is).1 (m.run s is).2 :=
  runFrom_induction (C := fun _ _ _ => True) (fun past s i h _ => keep past s i h) start
    (allowedFrom_of_forall (fun _ _ _ => trivial) _ _ is)

/-! ## Waiting

An endless schedule of inputs, of which only those up to the first answer that is not waited through
are looked at. -/

/-- The state in which the input with this index is taken. -/
def visit (m : Machine σ ι ο) (s : σ) (is : Nat → ι) : Nat → σ
  | 0 => s
  | n + 1 => visit m (m.step s (is 0)).2 (fun i => is (i + 1)) n

/-- The answer to the input with this index. -/
def answer (m : Machine σ ι ο) (s : σ) (is : Nat → ι) (n : Nat) : ο :=
  (m.step (m.visit s is n) (is n)).1

/-- **The rule of waiting.** If each answer that is waited through keeps `P` and makes the measure
smaller, some answer is not, and `P` holds when it is given. `C` is what is known of the inputs until
then. -/
theorem waits_until {P : σ → Prop} {C : σ → ι → Prop} (waits : ο → Prop) (measure : σ → Nat)
    (keep : ∀ s i, P s → C s i → waits (m.step s i).1 →
      P (m.step s i).2 ∧ measure (m.step s i).2 < measure s)
    {s : σ} {is : Nat → ι} (start : P s)
    (known : ∀ n, (∀ i < n, waits (m.answer s is i)) → C (m.visit s is n) (is n)) :
    ∃ n, (∀ i < n, waits (m.answer s is i)) ∧ ¬waits (m.answer s is n) ∧ P (m.visit s is n) ∧
      C (m.visit s is n) (is n) := by
  induction size : measure s using Nat.strongRecOn generalizing s is with
  | ind size' ih =>
    subst size
    have first : C s (is 0) := known 0 fun i lt => absurd lt (Nat.not_lt_zero i)
    by_cases more : waits (m.step s (is 0)).1
    · obtain ⟨kept, less⟩ := keep s (is 0) start first more
      have rest : ∀ n, (∀ i < n, waits (m.answer (m.step s (is 0)).2 (fun i => is (i + 1)) i)) →
          C (m.visit (m.step s (is 0)).2 (fun i => is (i + 1)) n) (is (n + 1)) := by
        intro n before
        refine known (n + 1) fun i lt => ?_
        cases i with
        | zero => exact more
        | succ i => exact before i (Nat.lt_of_succ_lt_succ lt)
      obtain ⟨n, before, last, holds, at_⟩ := ih _ less kept rest rfl
      refine ⟨n + 1, fun i lt => ?_, last, holds, at_⟩
      cases i with
      | zero => exact more
      | succ i => exact before i (Nat.lt_of_succ_lt_succ lt)
    · exact ⟨0, fun i lt => absurd lt (Nat.not_lt_zero i), more, start, first⟩

/-! ## Traces

A trace is kept beside the state and never read by the machine. -/

/-- The machine that also keeps what each step emits. -/
def traced {τ : Type} (m : Machine σ ι ο) (emit : σ → ι → List τ) : Machine (σ × List τ) ι ο where
  step s i := ((m.step s.1 i).1, (m.step s.1 i).2, s.2 ++ emit s.1 i)

/-- The machine that also keeps a ghost, brought up to date after each step. -/
def watched {τ : Type} (m : Machine σ ι ο) (watch : τ → σ → ι → τ) : Machine (σ × τ) ι ο where
  step s i := ((m.step s.1 i).1, (m.step s.1 i).2, watch s.2 s.1 i)

/-- A condition that does not look at the ghost. -/
theorem allowedFrom_watched {τ : Type} {watch : τ → σ → ι → τ} {past : History ι ο} {s : σ × τ}
    {is : List ι} :
    (m.watched watch).AllowedFrom (fun past s i => C past s.1 i) past s is ↔
      m.AllowedFrom C past s.1 is := by
  induction is generalizing past s with
  | nil => exact Iff.rfl
  | cons i is ih => exact and_congr Iff.rfl ih

/-- A run and one more step. -/
theorem runFrom_concat {past : History ι ο} {s : σ} {is : List ι} {i : ι} :
    m.runFrom past s (is ++ [i]) =
      ((m.runFrom past s is).1 ++ [(i, (m.step (m.runFrom past s is).2 i).1)],
        (m.step (m.runFrom past s is).2 i).2) := by
  induction is generalizing past s with
  | nil => rfl
  | cons j is ih => exact ih

/-- What a run has answered before it was continued stays before what it answers since. -/
theorem runFrom_past {past : History ι ο} {s : σ} {is : List ι} :
    m.runFrom past s is = (past ++ (m.run s is).1, (m.run s is).2) := by
  rw [run]
  induction is generalizing past s with
  | nil => simp [runFrom]
  | cons i is ih =>
    rw [runFrom, ih, runFrom, @ih ([] ++ _)]
    simp

/-- A run that has begun with one step. -/
theorem run_cons {s : σ} {i : ι} {is : List ι} :
    m.run s (i :: is) =
      ((i, (m.step s i).1) :: (m.run (m.step s i).2 is).1, (m.run (m.step s i).2 is).2) := by
  rw [run, runFrom, runFrom_past]
  rfl

/-- A run in two parts. -/
theorem run_append {s : σ} {is js : List ι} :
    m.run s (is ++ js) =
      ((m.run s is).1 ++ (m.run (m.run s is).2 js).1, (m.run (m.run s is).2 js).2) := by
  induction is generalizing s with
  | nil => rfl
  | cons i is ih => rw [List.cons_append, run_cons, run_cons, ih, List.cons_append]

/-! ## Refinement -/

section Refines

variable {σ' ι' ο' : Type} {m' : Machine σ' ι' ο'} {view : σ → σ'} {answer : ο' → ο}
  {steps : σ → ι → List ι'}

/-- In what `view` shows of it, each step of the one machine is a run of the other, which answers nothing
but what the step does. -/
structure Refines (m : Machine σ ι ο) (m' : Machine σ' ι' ο') (view : σ → σ') (answer : ο' → ο)
    (steps : σ → ι → List ι') : Prop where
  state : ∀ s i, (m'.run (view s) (steps s i)).2 = view (m.step s i).2
  answers : ∀ s i, ((m'.run (view s) (steps s i)).1.map fun e => answer e.2).Sublist [(m.step s i).1]

/-- The inputs of the other machine beside a run of the one. -/
def shadow (m : Machine σ ι ο) (steps : σ → ι → List ι') (s : σ) : List ι → List ι'
  | [] => []
  | i :: is => steps s i ++ shadow m steps (m.step s i).2 is

/-- **The rule of refinement.** What is seen of a run is a run, whose answers are among those of the
first, in their order. -/
theorem Refines.run (h : m.Refines m' view answer steps) (s : σ) (is : List ι) :
    (m'.run (view s) (m.shadow steps s is)).2 = view (m.run s is).2 ∧
      ((m'.run (view s) (m.shadow steps s is)).1.map fun e => answer e.2).Sublist
        ((m.run s is).1.map Prod.snd) := by
  induction is generalizing s with
  | nil => exact ⟨rfl, List.Sublist.refl _⟩
  | cons i is ih =>
    obtain ⟨state, answers⟩ := ih (m.step s i).2
    rw [shadow, run_append, h.state s i, state, run_cons, List.map_append, List.map_cons]
    exact ⟨rfl, (h.answers s i).append answers⟩

/-- What is known of the steps that answer to each input is known of the whole run. -/
theorem mem_shadow {D : ι' → Prop} {C : ι → Prop} (known : ∀ s i, C i → ∀ j ∈ steps s i, D j) {s : σ}
    {is : List ι} (all : ∀ i ∈ is, C i) : ∀ j ∈ m.shadow steps s is, D j := by
  induction is generalizing s with
  | nil => intro j mem; cases mem
  | cons i is ih =>
    intro j mem
    rcases List.mem_append.mp mem with mem | mem
    · exact known s i (all i List.mem_cons_self) j mem
    · exact ih (fun i mem => all i (.tail _ mem)) j mem

end Refines

end Machine

end Trixter.Lib
