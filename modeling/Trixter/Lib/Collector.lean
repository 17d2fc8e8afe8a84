import Mathlib.Algebra.Order.Ring.Nat
import Mathlib.Data.List.Basic

/-!
# Collecting in whole tokens

Something accrues at `rate` in each `unit` of time and is collected now and then, in whole tokens.
A collection that finds none leaves the count alone. One that finds some starts the count anew at
its own time, so the fraction of a token it found besides is dropped.

What is collected, dropped and still to come is always what has accrued (`Collects.exact_`). How far
the collected tokens lag behind is therefore a matter of the dropped fractions alone.
-/

namespace Trixter.Lib

/-- The time up to which the count has run, the tokens collected, and the fractions of a token
dropped, in parts of `unit`. -/
structure Collector where
  last : Nat
  tokens : Nat
  dropped : Nat
  deriving DecidableEq, Repr

namespace Collector

variable {unit rate start now now' t₀ : Nat} {c : Collector}

/-- Nothing is collected yet. -/
def new (start : Nat) : Collector := ⟨start, 0, 0⟩

/-- What has accrued since the count was started, in parts of `unit`. -/
def pending (rate now : Nat) (c : Collector) : Nat := (now - c.last) * rate

/-- One collection. -/
def collect (unit rate : Nat) (c : Collector) (now : Nat) : Collector :=
  if 0 < c.pending rate now / unit then
    ⟨now, c.tokens + c.pending rate now / unit, c.dropped + c.pending rate now % unit⟩
  else c

theorem le_collect_tokens : c.tokens ≤ (c.collect unit rate now).tokens := by
  unfold collect
  split
  · exact Nat.le_add_right _ _
  · exact Nat.le_refl _

/-- The books at time `now`: everything that has accrued since `start` is somewhere. -/
structure Collects (unit rate start now : Nat) (c : Collector) : Prop where
  started : start ≤ c.last
  reached : c.last ≤ now
  exact_ : unit * c.tokens + c.dropped + c.pending rate now = (now - start) * rate

theorem collects_new (le : start ≤ now) : Collects unit rate start now (new start) where
  started := Nat.le_refl _
  reached := le
  exact_ := by simp only [new, pending, Nat.mul_zero, Nat.zero_add]

/-- What accrues in two stretches of time accrues in both together. -/
theorem accrues_split (after : start ≤ t₀) (before : t₀ ≤ now) :
    (now - start) * rate = (now - t₀) * rate + (t₀ - start) * rate := by
  rw [← Nat.add_mul]
  congr 1
  omega

/-- What accrues while nobody collects is pending. -/
theorem Collects.later (h : Collects unit rate start now c) (le : now ≤ now') :
    Collects unit rate start now' c where
  started := h.started
  reached := Nat.le_trans h.reached le
  exact_ := by
    have exact_ := h.exact_
    have whole : (now' - start) * rate = (now' - now) * rate + (now - start) * rate :=
      accrues_split (Nat.le_trans h.started h.reached) le
    have part : c.pending rate now' = (now' - now) * rate + c.pending rate now :=
      accrues_split h.reached le
    omega

/-- **A collection keeps the books.** -/
theorem Collects.collect (h : Collects unit rate start now c) (le : now ≤ now') :
    Collects unit rate start now' (c.collect unit rate now') := by
  have h := h.later le
  unfold Collector.collect
  split
  · refine ⟨Nat.le_trans h.started h.reached, Nat.le_refl _, ?_⟩
    have exact_ := h.exact_
    have parts := Nat.div_add_mod (c.pending rate now') unit
    simp only [pending, Nat.sub_self, Nat.zero_mul, Nat.mul_add] at parts exact_ ⊢
    omega
  · exact h

/-- So does a sequence of them, in the order of their times. -/
theorem Collects.run {times : List Nat} (h : Collects unit rate start now c)
    (ordered : (now :: times).Pairwise (· ≤ ·)) :
    Collects unit rate start (times.getLastD now)
      (times.foldl (Collector.collect unit rate) c) := by
  induction times generalizing now c with
  | nil => exact h
  | cons t times ih =>
    have le : now ≤ t := List.rel_of_pairwise_cons ordered List.mem_cons_self
    rw [List.getLastD_cons]
    exact ih (h.collect le) ordered.tail

/-- **How much is dropped decides how far the tokens lag.** Between `t₀` and `now` a token at most is
missing from what accrued, rounded down, if and only if what was dropped and is pending comes to
less than two tokens more than was pending at `t₀`. -/
theorem Collects.lag_iff (pos : 0 < unit) (h : Collects unit rate start now c) (after : start ≤ t₀)
    (before : t₀ ≤ now) :
    (now - t₀) * rate / unit ≤ c.tokens + 1 ↔
      c.dropped + c.pending rate now < 2 * unit + (t₀ - start) * rate := by
  have exact_ := h.exact_
  have split : (now - start) * rate = (now - t₀) * rate + (t₀ - start) * rate :=
    accrues_split after before
  have two : (c.tokens + 1 + 1) * unit = unit * c.tokens + 2 * unit := by
    rw [Nat.mul_comm unit, Nat.add_assoc, Nat.add_mul]
  rw [← Nat.lt_succ_iff, Nat.div_lt_iff_lt_mul pos, Nat.succ_eq_add_one, two]
  omega

/-- No more than one token is collected that had not accrued by itself since `t₀`. -/
theorem Collects.lead (pos : 0 < unit) (h : Collects unit rate start now c) (after : start ≤ t₀)
    (before : t₀ ≤ now) (fine : (t₀ - start) * rate < unit) :
    c.tokens ≤ (now - t₀) * rate / unit + 1 := by
  have exact_ := h.exact_
  have split : (now - start) * rate = (now - t₀) * rate + (t₀ - start) * rate :=
    accrues_split after before
  have whole := Nat.lt_div_mul_add (a := (now - t₀) * rate) pos
  refine Nat.le_of_lt_succ (Nat.lt_of_mul_lt_mul_left (a := unit) ?_)
  calc unit * c.tokens
      ≤ (now - t₀) * rate + (t₀ - start) * rate := by omega
    _ < ((now - t₀) * rate / unit * unit + unit) + unit := Nat.add_lt_add whole fine
    _ = unit * ((now - t₀) * rate / unit + 1 + 1) := by
      rw [Nat.mul_add, Nat.mul_add, Nat.mul_one, Nat.mul_comm unit]

end Collector

end Trixter.Lib
