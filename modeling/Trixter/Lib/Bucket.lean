import Mathlib.Algebra.GroupWithZero.Nat
import Mathlib.Data.List.Induction
import Mathlib.Logic.Relation
import Mathlib.Order.Monotone.Basic

/-!
# Token buckets

Tokens accrue with time, at a rate that is looked up anew at each refill, up to one `unit` of time's
worth of them. A refill that adds less than one token is skipped and its time left to accrue. What
leaves the bucket is logged with the time of the latest refill.

Two bounds hold over every sequence of moves. While no rate exceeds `top`, at most `top` plus what
accrues at `top` has left by any time. Under a constant rate the same holds of any window, up to
one token of rounding.
-/

namespace Trixter.Lib

/-- Tokens that left a bucket, and when. -/
structure Spent where
  amount : Nat
  stamp : Nat
  deriving DecidableEq, Repr

/-- How much left from `s` on. -/
def spentSince (log : List Spent) (s : Nat) : Nat :=
  ((log.filter fun p => s ≤ p.stamp).map Spent.amount).sum

/-- How much left between `s` and `t`. -/
def spentWithin (log : List Spent) (s t : Nat) : Nat :=
  ((log.filter fun p => s ≤ p.stamp ∧ p.stamp ≤ t).map Spent.amount).sum

theorem spentSince_snoc {log : List Spent} {p : Spent} {s : Nat} :
    spentSince (log ++ [p]) s = spentSince log s + if s ≤ p.stamp then p.amount else 0 := by
  unfold spentSince
  by_cases h : s ≤ p.stamp <;> simp [h]

theorem spentWithin_snoc {log : List Spent} {p : Spent} {s t : Nat} :
    spentWithin (log ++ [p]) s t =
      spentWithin log s t + if s ≤ p.stamp ∧ p.stamp ≤ t then p.amount else 0 := by
  unfold spentWithin
  by_cases h : s ≤ p.stamp ∧ p.stamp ≤ t <;> simp [h]

/-- What left within a window left since its start. -/
theorem spentWithin_le (log : List Spent) (s t : Nat) : spentWithin log s t ≤ spentSince log s := by
  induction log using List.reverseRecOn with
  | nil => exact Nat.le_refl _
  | append_singleton log p ih =>
    rw [spentWithin_snoc, spentSince_snoc]
    by_cases h : s ≤ p.stamp ∧ p.stamp ≤ t
    · rw [if_pos h, if_pos h.1]
      omega
    · rw [if_neg h]
      omega

/-- A bucket: the tokens on hand, the time up to which they have accrued, the time of the latest
refill, and what has left. -/
structure Bucket where
  budget : Nat
  last : Nat
  time : Nat
  spent : List Spent
  deriving DecidableEq, Repr

namespace Bucket

/-- A bucket that starts at `time`. -/
def new (budget time : Nat) : Bucket := ⟨budget, time, time, []⟩

/-- The tokens that accrue from the last effective refill until `now`. -/
def added (unit now rate : Nat) (b : Bucket) : Nat := (now - b.last) * rate / unit

/-- Refill at `now`. -/
def refill (unit now rate : Nat) (b : Bucket) : Bucket :=
  if 0 < b.added unit now rate then
    { b with budget := min (b.budget + b.added unit now rate) rate, last := now, time := now }
  else { b with time := now }

/-- Take tokens, and log them. -/
def spend (n : Nat) (b : Bucket) : Bucket :=
  { b with budget := b.budget - n, spent := b.spent ++ [⟨n, b.time⟩] }

/-- Lose tokens that let nothing through. -/
def waste (n : Nat) (b : Bucket) : Bucket := { b with budget := b.budget - n }

/-- One move of a bucket. `reports now rate` says that this rate may be found at this time. -/
inductive Move (unit : Nat) (reports : Nat → Nat → Prop) (b : Bucket) : Bucket → Prop
  | refill {now rate : Nat} (later : b.time ≤ now) (reported : reports now rate) :
    Move unit reports b (b.refill unit now rate)
  | spend {n : Nat} (afford : n ≤ b.budget) : Move unit reports b (b.spend n)
  | waste {n : Nat} : Move unit reports b (b.waste n)

/-- Any number of moves. -/
def Moves (unit : Nat) (reports : Nat → Nat → Prop) : Bucket → Bucket → Prop :=
  Relation.ReflTransGen (Move unit reports)

variable {unit now rate n s t top : Nat} {reports reports' : Nat → Nat → Prop} {b b' b'' : Bucket}

theorem Moves.refl : Moves unit reports b b := Relation.ReflTransGen.refl

theorem Moves.snoc (h : Moves unit reports b b') (move : Move unit reports b' b'') :
    Moves unit reports b b'' := h.tail move

/-- More rates may be reported. -/
theorem Moves.mono (sub : ∀ now rate, reports now rate → reports' now rate)
    (h : Moves unit reports b b') : Moves unit reports' b b' := by
  induction h with
  | refl => exact .refl
  | tail _ move ih =>
    refine ih.snoc ?_
    cases move with
    | refill later reported => exact .refill later (sub _ _ reported)
    | spend afford => exact .spend afford
    | waste => exact .waste

@[simp] theorem refill_time : (b.refill unit now rate).time = now := by
  unfold refill
  split <;> rfl

@[simp] theorem refill_spent : (b.refill unit now rate).spent = b.spent := by
  unfold refill
  split <;> rfl

@[simp] theorem spend_spent : (b.spend n).spent = b.spent ++ [⟨n, b.time⟩] := rfl

/-- Tokens accrue no faster than the rate. -/
theorem unit_mul_added_le : unit * b.added unit now rate ≤ rate * (now - b.last) := by
  rw [added, Nat.mul_comm rate]
  exact Nat.mul_div_le _ _

/-- A time that adds no token is worth less than one. -/
theorem lt_of_added_eq_zero (pos : 0 < unit) (none : b.added unit now rate = 0) :
    rate * (now - b.last) < unit := by
  rw [added, Nat.div_eq_zero_iff] at none
  rw [Nat.mul_comm]
  omega

/-! ## The window rule -/

/-- If an invariant bounds what has left since `s` by a monotone function of the time accounted for,
that function also bounds what leaves from `s` until any `t`. -/
theorem Moves.within_lt {P : Bucket → Prop} {bound : Nat → Nat} (mono : Monotone bound)
    (ordered : ∀ b, P b → b.last ≤ b.time)
    (since : ∀ b, P b → unit * spentSince b.spent s < bound b.last)
    (keep : ∀ b b', P b → Move unit reports b b' → P b')
    (moves : Moves unit reports b b') (start : P b) (fresh : b.spent = []) (t : Nat)
    (pos : 0 < bound t) : P b' ∧ unit * spentWithin b'.spent s t < bound t := by
  induction moves with
  | refl =>
    refine ⟨start, ?_⟩
    rw [fresh]
    simpa [spentWithin] using pos
  | tail _ move ih =>
    obtain ⟨here, within⟩ := ih
    have there := keep _ _ here move
    refine ⟨there, ?_⟩
    cases move with
    | refill => rwa [refill_spent]
    | waste => exact within
    | @spend n afford =>
      rename_i c _
      by_cases le : c.time ≤ t
      · calc unit * spentWithin (c.spend n).spent s t
            ≤ unit * spentSince (c.spend n).spent s := Nat.mul_le_mul_left _ (spentWithin_le _ _ _)
          _ < bound c.last := since _ there
          _ ≤ bound t := mono (Nat.le_trans (ordered _ here) le)
      · rw [spend_spent, spentWithin_snoc, if_neg fun h => le h.2]
        exact within

/-! ## No rate above a top -/

/-- From time `t₀` on, what has left and what is on hand came from the first budget or accrued. -/
structure Topped (unit top t₀ : Nat) (b : Bucket) : Prop where
  started : t₀ ≤ b.last
  ordered : b.last ≤ b.time
  capped : b.budget ≤ top
  total : unit * (spentSince b.spent 0 + b.budget) ≤ unit * top + top * (b.last - t₀)

theorem topped_new {budget time : Nat} (le : budget ≤ top) : Topped unit top time (new budget time) where
  started := Nat.le_refl _
  ordered := Nat.le_refl _
  capped := le
  total := by
    have := Nat.mul_le_mul_left unit le
    simp only [new, spentSince, List.filter_nil, List.map_nil, List.sum_nil, Nat.zero_add]
    omega

theorem topped_refill {t₀ : Nat} (h : Topped unit top t₀ b) (later : b.time ≤ now)
    (le : rate ≤ top) : Topped unit top t₀ (b.refill unit now rate) := by
  have ordered := h.ordered
  have started := h.started
  unfold refill
  split
  · refine ⟨by simp only; omega, Nat.le_refl _, by simp only; omega, ?_⟩
    have gain : unit * b.added unit now rate ≤ top * (now - b.last) :=
      Nat.le_trans unit_mul_added_le (Nat.mul_le_mul_right _ le)
    calc unit * (spentSince b.spent 0 + min (b.budget + b.added unit now rate) rate)
        ≤ unit * ((spentSince b.spent 0 + b.budget) + b.added unit now rate) :=
          Nat.mul_le_mul_left _ (by omega)
      _ ≤ (unit * top + top * (b.last - t₀)) + top * (now - b.last) := by
          rw [Nat.mul_add]
          exact Nat.add_le_add h.total gain
      _ = unit * top + top * (now - t₀) := by
          rw [Nat.add_assoc, ← Nat.mul_add]
          congr 2
          omega
  · exact ⟨started, by simp only; omega, h.capped, h.total⟩

theorem topped_move {t₀ : Nat} (le : ∀ now rate, reports now rate → rate ≤ top)
    (h : Topped unit top t₀ b) (move : Move unit reports b b') : Topped unit top t₀ b' := by
  cases move with
  | refill later reported => exact topped_refill h later (le _ _ reported)
  | @spend n afford =>
    refine ⟨h.started, h.ordered, Nat.le_trans (Nat.sub_le _ _) h.capped, ?_⟩
    refine Nat.le_trans (Nat.mul_le_mul_left _ ?_) h.total
    simp only [spend, spentSince_snoc, Nat.zero_le, if_true]
    omega
  | @waste n =>
    refine ⟨h.started, h.ordered, Nat.le_trans (Nat.sub_le _ _) h.capped, ?_⟩
    refine Nat.le_trans (Nat.mul_le_mul_left _ ?_) h.total
    simp only [waste]
    omega

/-- **The bound for a varying rate.** -/
theorem Moves.through_le {budget t₀ : Nat} (pos : 0 < unit) (start : budget ≤ top)
    (le : ∀ now rate, reports now rate → rate ≤ top)
    (moves : Moves unit reports (new budget t₀) b) (t : Nat) :
    b.budget ≤ top ∧ spentWithin b.spent 0 t ≤ top + top * (t - t₀) / unit := by
  have mono : Monotone fun t => unit * top + top * (t - t₀) + 1 := by
    intro x y le
    have := Nat.mul_le_mul_left top (Nat.sub_le_sub_right le t₀)
    simp only
    omega
  obtain ⟨topped, within⟩ := moves.within_lt (s := 0) (P := Topped unit top t₀) mono (fun _ h => h.ordered)
    (fun b h => by
      have := h.total
      rw [Nat.mul_add] at this
      omega)
    (fun _ _ => topped_move le) (topped_new start) rfl t (by omega)
  refine ⟨topped.capped, ?_⟩
  rw [← Nat.sub_le_iff_le_add', Nat.le_div_iff_mul_le pos, Nat.sub_mul, Nat.mul_comm _ unit,
    Nat.mul_comm top unit]
  omega

/-! ## A constant rate -/

/-- At the constant rate `top`: what has left since `s` and what is on hand are a full bucket and
what accrued since `s`, up to the fraction of a token that was pending at `s`. -/
structure Steady (unit top s : Nat) (b : Bucket) : Prop where
  ordered : b.last ≤ b.time
  capped : b.budget ≤ top
  recent : top * (b.time - b.last) < unit
  early : b.time < s → spentSince b.spent s = 0
  before : b.last < s → spentSince b.spent s + b.budget ≤ top
  after : s ≤ b.last →
    unit * (spentSince b.spent s + b.budget) < unit * top + top * (b.last - s) + unit

theorem steady_new {budget time : Nat} (pos : 0 < unit) (le : budget ≤ top) :
    Steady unit top s (new budget time) where
  ordered := Nat.le_refl _
  capped := le
  recent := by simpa [new] using pos
  early _ := rfl
  before _ := by simpa [new, spentSince] using le
  after _ := by
    have := Nat.mul_le_mul_left unit le
    simp only [new, spentSince, List.filter_nil, List.map_nil, List.sum_nil, Nat.zero_add]
    omega

/-- A refill that reaches past the start of the window brings at most what accrued in the window and
the fraction pending at its start. -/
theorem steady_refill_after (pos : 0 < unit) (h : Steady unit top s b) (later : b.time ≤ now)
    (inside : s ≤ now) :
    unit * (spentSince b.spent s + min (b.budget + b.added unit now top) top) <
      unit * top + top * (now - s) + unit := by
  have ordered := h.ordered
  have gain : unit * b.added unit now top ≤ top * (now - b.last) := unit_mul_added_le
  by_cases since : s ≤ b.last
  · calc unit * (spentSince b.spent s + min (b.budget + b.added unit now top) top)
        ≤ unit * ((spentSince b.spent s + b.budget) + b.added unit now top) :=
          Nat.mul_le_mul_left _ (by omega)
      _ < (unit * top + top * (b.last - s) + unit) + top * (now - b.last) := by
          rw [Nat.mul_add]
          exact Nat.add_lt_add_of_lt_of_le (h.after since) gain
      _ = unit * top + top * (now - s) + unit := by
          have : top * (now - s) = top * (b.last - s) + top * (now - b.last) := by
            rw [← Nat.mul_add]
            congr 1
            omega
          omega
  · by_cases reached : b.time < s
    · rw [h.early reached, Nat.zero_add]
      have := Nat.mul_le_mul_left unit (Nat.min_le_right (b.budget + b.added unit now top) top)
      omega
    · have pending : top * (s - b.last) < unit :=
        Nat.lt_of_le_of_lt (Nat.mul_le_mul_left _ (by omega)) h.recent
      calc unit * (spentSince b.spent s + min (b.budget + b.added unit now top) top)
          ≤ unit * (top + b.added unit now top) :=
            Nat.mul_le_mul_left _ (by have := h.before (by omega); omega)
        _ ≤ unit * top + top * (now - b.last) := by
            rw [Nat.mul_add]
            exact Nat.add_le_add_left gain _
        _ = unit * top + top * (now - s) + top * (s - b.last) := by
            rw [Nat.add_assoc, ← Nat.mul_add]
            congr 2
            omega
        _ < unit * top + top * (now - s) + unit := Nat.add_lt_add_left pending _

theorem steady_refill (pos : 0 < unit) (h : Steady unit top s b) (later : b.time ≤ now) :
    Steady unit top s (b.refill unit now top) := by
  have ordered := h.ordered
  unfold refill
  split
  · refine ⟨Nat.le_refl _, Nat.min_le_right _ _, by simpa using pos, ?_, ?_,
      steady_refill_after pos h later⟩
    · exact fun before => h.early (by simp only at before; omega)
    · intro before
      simp only at before ⊢
      rw [h.early (by omega)]
      omega
  · next none =>
    have none : b.added unit now top = 0 := Nat.le_zero.mp (Nat.not_lt.mp none)
    refine ⟨by simp only; omega, h.capped, lt_of_added_eq_zero pos none, ?_, h.before, h.after⟩
    exact fun before => h.early (by simp only at before; omega)

theorem steady_spend (h : Steady unit top s b) (afford : n ≤ b.budget) :
    Steady unit top s (b.spend n) := by
  have total : spentSince (b.spent ++ [⟨n, b.time⟩]) s + (b.budget - n) ≤
      spentSince b.spent s + b.budget := by
    simp only [spentSince_snoc]
    split <;> omega
  refine ⟨h.ordered, Nat.le_trans (Nat.sub_le _ _) h.capped, h.recent, ?_, ?_, ?_⟩
  · intro before
    simp only [spend, spentSince_snoc] at before ⊢
    rw [h.early before, if_neg (by omega)]
  · exact fun before => Nat.le_trans total (h.before before)
  · exact fun since => Nat.lt_of_le_of_lt (Nat.mul_le_mul_left _ total) (h.after since)

theorem steady_waste (h : Steady unit top s b) : Steady unit top s (b.waste n) := by
  refine ⟨h.ordered, Nat.le_trans (Nat.sub_le _ _) h.capped, h.recent, h.early, ?_, ?_⟩
  · intro before
    have := h.before before
    simp only [waste]
    omega
  · intro since
    exact Nat.lt_of_le_of_lt (Nat.mul_le_mul_left _ (by simp only [waste]; omega)) (h.after since)

theorem steady_move (pos : 0 < unit) (constant : ∀ now rate, reports now rate → rate = top)
    (h : Steady unit top s b) (move : Move unit reports b b') : Steady unit top s b' := by
  cases move with
  | @refill now rate later reported =>
    rw [constant now rate reported]
    exact steady_refill pos h later
  | spend afford => exact steady_spend h afford
  | waste => exact steady_waste h

/-- **The bound for a constant rate**, over any window. -/
theorem Moves.window_lt {budget t₀ : Nat} (pos : 0 < unit) (start : budget ≤ top)
    (constant : ∀ now rate, reports now rate → rate = top)
    (moves : Moves unit reports (new budget t₀) b) (s t : Nat) :
    unit * spentWithin b.spent s t < unit * top + top * (t - s) + unit := by
  have mono : Monotone fun t => unit * top + top * (t - s) + unit := by
    intro x y le
    have := Nat.mul_le_mul_left top (Nat.sub_le_sub_right le s)
    simp only
    omega
  refine (moves.within_lt (s := s) (P := Steady unit top s) mono (fun _ h => h.ordered) ?_
    (fun _ _ => steady_move pos constant) (steady_new pos start) rfl t (by omega)).2
  intro b h
  by_cases since : s ≤ b.last
  · exact Nat.lt_of_le_of_lt (Nat.mul_le_mul_left _ (Nat.le_add_right _ _)) (h.after since)
  · have := Nat.mul_le_mul_left unit (Nat.le_trans (Nat.le_add_right _ _) (h.before (by omega)))
    omega

end Bucket

end Trixter.Lib
