import Mathlib.Algebra.Order.Field.Basic
import Mathlib.Algebra.Order.Field.Rat
import Mathlib.Data.Nat.Cast.Order.Field
import Mathlib.Data.Set.Card
import Mathlib.Tactic.Linarith
import Mathlib.Tactic.FieldSimp
import Mathlib.Tactic.Ring
import Trixter.ProbabilityAtomics
import Trixter.Laws.Corrupter
import Trixter.Laws.Terminator

/-!
# How faithfully a threshold encodes its probability

A probability `p` in `[0, 1]` is a dyadic number, and its threshold is `p * 2^64` rounded down, except
that 2^64 itself does not fit: the threshold of one is `u64::MAX`. A draw strikes if it is strictly
below, so the number of draws that strike is off by less than one from `p * 2^64`, and a probability of
one lets a single draw through: `encodes_iff_below_one`. The draws are counted, and how a generator spreads
its own over them is not asked.
-/

namespace Trixter

open Trixter.Lib Polling

namespace F64

/-- A finite number without its sign, in units of 2^-1075. -/
def units (x : F64) : Nat :=
  let exponent := x.magnitude / 2 ^ 52
  let fraction := x.magnitude % 2 ^ 52
  if exponent = 0 then 2 * fraction else (2 ^ 52 + fraction) * 2 ^ exponent

/-- The exponent at which the last bit of a number is worth one draw, 2^-64. -/
@[irreducible] def drawExponent : Nat := 1011

/-- How many units make up 2^-64, the share of one draw in all of them. -/
def share : Nat := 2 ^ drawExponent

/-- The exact value of a finite number. -/
def value (x : F64) : ℚ := (if x.negative then -1 else 1) * (x.units / (share * 2 ^ 64))

/-- What the code accepts as a probability. -/
def Unital (x : F64) : Prop := contains .zero .one x = true

instance (x : F64) : Decidable x.Unital := inferInstanceAs (Decidable (_ = _))

variable {x y : F64}

/-- In `[0, 1]` a number is one, and lies between zero and one. -/
theorem unital_iff : x.Unital ↔ x.isNan = false ∧ 0 ≤ x.place ∧ x.place ≤ 0x3FF0000000000000 := by
  have zero : zero.isNan = false ∧ zero.place = 0 := by decide
  have one : one.isNan = false ∧ one.place = 0x3FF0000000000000 := by decide
  unfold Unital contains le
  simp [zero, one, and_assoc, and_left_comm]

theorem Unital.magnitude_le (h : x.Unital) : x.magnitude ≤ 1023 * 2 ^ 52 := by
  obtain ⟨-, above, below⟩ := unital_iff.mp h
  unfold place at above below
  cases sign : x.negative with
  | true =>
    rw [sign, if_pos rfl] at above
    omega
  | false =>
    rw [sign, if_neg Bool.false_ne_true] at below
    omega

/-- Both zeros have no units. -/
theorem Unital.units_of_zero (h : x.Unital) (zero : x.place ≤ 0) : x.units = 0 := by
  obtain ⟨-, above, -⟩ := unital_iff.mp h
  have none : x.magnitude = 0 := by
    have zero : x.place = 0 := Int.le_antisymm zero above
    unfold place at zero
    split at zero <;> omega
  rw [units, none]
  rfl

/-- The only negative number in `[0, 1]` is the negative zero. -/
theorem Unital.units_of_negative (h : x.Unital) (negative : x.negative = true) : x.units = 0 := by
  apply h.units_of_zero
  unfold place
  rw [if_pos negative]
  omega

theorem Unital.value_eq (h : x.Unital) : x.value = x.units / (share * 2 ^ 64) := by
  unfold value
  split
  · next negative =>
    rw [h.units_of_negative negative]
    simp
  · rw [one_mul]

theorem drawExponent_eq : drawExponent = 1011 := by
  unfold drawExponent
  rfl

theorem share_pos : 0 < share := Nat.two_pow_pos drawExponent

theorem pow_le_share {n : Nat} (le : n ≤ drawExponent) : 2 ^ n ≤ share := Nat.pow_le_pow_right (by decide) le

/-- A larger power of two is a multiple of a share. -/
theorem pow_add_share (n : Nat) : 2 ^ (n + drawExponent) = 2 ^ n * share := pow_add 2 n drawExponent

/-- The shares in a number, rounded down. -/
theorem div_share (significand exponent : Nat) : significand * 2 ^ exponent / share =
    if exponent < drawExponent then significand / 2 ^ (drawExponent - exponent)
    else significand * 2 ^ (exponent - drawExponent) := by
  split
  · next small =>
    have whole : share = 2 ^ (drawExponent - exponent) * 2 ^ exponent := by
      rw [share, ← pow_add, Nat.sub_add_cancel (Nat.le_of_lt small)]
    rw [whole, Nat.mul_div_mul_right _ _ (Nat.two_pow_pos exponent)]
  · next large =>
    obtain ⟨n, rfl⟩ := Nat.exists_eq_add_of_le' (Nat.le_of_not_lt large)
    rw [pow_add_share, ← Nat.mul_assoc, Nat.mul_div_cancel _ share_pos, Nat.add_sub_cancel]

theorem Unital.units_le (h : x.Unital) : x.units ≤ share * 2 ^ 64 := by
  have small := h.magnitude_le
  have fraction := Nat.mod_lt x.magnitude (show 0 < 2 ^ 52 by decide)
  have whole := Nat.div_add_mod x.magnitude (2 ^ 52)
  unfold units
  dsimp only
  generalize x.magnitude / 2 ^ 52 = exponent at whole ⊢
  generalize x.magnitude % 2 ^ 52 = significand at fraction whole ⊢
  split
  · have tiny : 2 ^ 53 ≤ share := pow_le_share (by rw [drawExponent_eq]; decide)
    omega
  · rcases Nat.lt_or_ge exponent 1023 with lt | ge
    · have half : 2 ^ exponent ≤ 2 ^ 11 * share := by
        rw [← pow_add_share]
        apply Nat.pow_le_pow_right (by decide)
        rw [drawExponent_eq]
        omega
      calc (2 ^ 52 + significand) * 2 ^ exponent ≤ 2 ^ 53 * (2 ^ 11 * share) :=
            Nat.mul_le_mul (by omega) half
        _ = share * 2 ^ 64 := by omega
    · have top : exponent = 12 + drawExponent ∧ significand = 0 := by
        rw [drawExponent_eq]
        omega
      rw [top.1, top.2, pow_add_share]
      omega

/-- **The scaled number is rounded down**, unless it is 2^64. -/
theorem Unital.scaled_toNat (h : x.Unital) :
    x.scaled.toNat = min (x.units / share) (2 ^ 64 - 1) := by
  have fraction := Nat.mod_lt x.magnitude (show 0 < 2 ^ 52 by decide)
  obtain ⟨number, -⟩ := unital_iff.mp h
  by_cases negative : x.negative = true
  · have none : x.scaled = 0 := by simp [scaled, negative]
    rw [none, h.units_of_negative negative, Nat.zero_div]
    rfl
  · have positive : x.negative = false := Bool.eq_false_iff.mpr negative
    unfold scaled units
    dsimp only
    rw [number, positive]
    generalize x.magnitude / 2 ^ 52 = exponent
    generalize x.magnitude % 2 ^ 52 = significand at fraction ⊢
    by_cases subnormal : exponent = 0
    · have tiny : 2 * significand < share :=
        Nat.lt_of_lt_of_le (m := 2 ^ 53) (by omega) (pow_le_share (by rw [drawExponent_eq]; decide))
      rw [if_pos (by simp [subnormal]), if_pos subnormal, Nat.div_eq_of_lt tiny]
      rfl
    · rw [if_neg (by simp [subnormal]), if_neg subnormal, div_share, drawExponent_eq]
      split
      · have few : (2 ^ 52 + significand) / 2 ^ (1011 - exponent) ≤ 2 ^ 52 + significand :=
          Nat.div_le_self _ _
        rw [UInt64.toNat_ofNat']
        generalize (2 ^ 52 + significand) / 2 ^ (1011 - exponent) = floor at few ⊢
        omega
      · rw [UInt64.toNat_ofNat']
        omega

theorem shares_pos : (0 : ℚ) < share * 2 ^ 64 := by
  have pos : (0 : ℚ) < share := Nat.cast_pos.mpr share_pos
  positivity

theorem value_le_iff (hx : x.Unital) (hy : y.Unital) : x.value ≤ y.value ↔ x.units ≤ y.units := by
  rw [hx.value_eq, hy.value_eq, div_le_div_iff_of_pos_right shares_pos, Nat.cast_le]

theorem Unital.value_pos_iff (h : x.Unital) : 0 < x.value ↔ 0 < x.units := by
  rw [h.value_eq, div_pos_iff_of_pos_right shares_pos, Nat.cast_pos]

theorem Unital.value_lt_one_iff (h : x.Unital) : x.value < 1 ↔ x.units < share * 2 ^ 64 := by
  rw [h.value_eq, div_lt_one shares_pos]
  exact_mod_cast Iff.rfl

theorem Unital.value_le_one (h : x.Unital) : x.value ≤ 1 := by
  rw [h.value_eq, div_le_one shares_pos]
  exact_mod_cast h.units_le

theorem value_one : F64.one.value = 1 := by
  have unital : F64.one.Unital := by decide
  have units : F64.one.units = share * 2 ^ 64 := by
    have exponent : F64.one.magnitude / 2 ^ 52 = 12 + drawExponent := by rw [drawExponent_eq]; rfl
    have fraction : F64.one.magnitude % 2 ^ 52 = 0 := rfl
    unfold units
    rw [exponent, fraction, if_neg (by omega), pow_add_share]
    omega
  rw [unital.value_eq, units, Nat.cast_mul, Nat.cast_pow, Nat.cast_ofNat]
  exact div_self shares_pos.ne'

/-- In `[0, 1]` the clamp does nothing. -/
theorem Unital.clamp_eq (h : x.Unital) : clamp .zero .one x = x := by
  obtain ⟨number, above, below⟩ := unital_iff.mp h
  have zero : x.lt .zero = false := by
    have place : zero.place = 0 := rfl
    simp [lt, place, Int.not_lt.mpr above]
  have one : F64.lt .one x = false := by
    have place : one.place = 0x3FF0000000000000 := rfl
    simp [lt, place, Int.not_lt.mpr below]
  simp [clamp, zero, one]

/-- The two kinds of source compute one threshold. -/
theorem Unital.probability_scaled (h : x.Unital) : x.probability.scaled = x.scaled := by
  obtain ⟨number, -⟩ := unital_iff.mp h
  unfold probability
  rw [number, if_neg Bool.false_ne_true]
  split
  · next zero =>
    have zero : x.place ≤ 0 := by
      simp only [le, Bool.and_eq_true, decide_eq_true_eq] at zero
      exact zero.2
    rw [← UInt64.toNat_inj, h.scaled_toNat, h.units_of_zero zero, Nat.zero_div]
    rfl
  · exact congrArg scaled (if_pos h)

end F64

/-! ## The draws that strike -/

/-- `try_trigger` on a fuse that is not blown fires at this moment. -/
def Terminator.Fires {T P G : Type} [SmallRng G] [Probability P] (env : World) (k : Nat) (inner : T)
    (prob : P) (rng : G) : Prop :=
  (Terminator.trigger env k ⟨inner, prob, rng, false⟩).result = .ok true

/-- `should_corrupt` fires at this moment. -/
def Corrupter.Fires {T P G : Type} [SmallRng G] [Probability P] (env : World) (k : Nat)
    (s : Corrupter T P G) : Prop :=
  (Corrupter.shouldCorrupt env k s).result = .ok true

/-- A generator that always draws the same. -/
structure Draw where
  value : UInt64
  deriving DecidableEq, Repr

instance : SmallRng Draw where
  fromSeed _ := ⟨0⟩
  fromRng g := (g, g)
  nextU64 g := (g.value, g)
  randomRange lo _ g := (lo, g)
  fillBytes n g := (List.replicate n 0, g)
  randomRange_mem _ _ _ le := ⟨Nat.le_refl _, le⟩
  fillBytes_length _ _ := List.length_replicate

/-- The draws on which a terminator with this fixed probability fires. -/
def strikes (p : F64) : Set UInt64 := { d | Terminator.Fires .still 0 () p (Draw.mk d) }

/-- The knob holds this probability: it was made or set with it. -/
def DynamicProbability.Holds (env : World) (k : Nat) (knob : DynamicProbability) (p : F64) : Prop :=
  ∃ a : Atomics, (new p = .ok a ∨ ∃ before : Atomics, before.set p = (.ok (), a)) ∧
    env.atomics knob.cell k = a.threshold

/-- What is asked of the threshold of `p`. -/
structure Encodes (p : F64) : Prop where
  /-- Both adapters and both kinds of source fire on the same draws, of any generator. -/
  same : ∀ {G T : Type} [SmallRng G] (env : World) (k : Nat) (inner : T) (rng : G)
    (stored : Option (List UInt8)) (knob : DynamicProbability), knob.Holds env k p →
    let strike := (SmallRng.nextU64 rng).1 ∈ strikes p
    (Terminator.Fires env k inner p rng ↔ strike) ∧
      (Terminator.Fires env k inner knob rng ↔ strike) ∧
      (Corrupter.Fires env k ⟨inner, p, rng, stored⟩ ↔ strike) ∧
      (Corrupter.Fires env k ⟨inner, knob, rng, stored⟩ ↔ strike)
  /-- A larger probability strikes on more draws. -/
  mono : ∀ q : F64, q.Unital → (q.value ≤ p.value → strikes q ⊆ strikes p) ∧
    (p.value ≤ q.value → strikes p ⊆ strikes q)
  never : p.value = 0 → strikes p = ∅
  always : p.value = 1 → strikes p = Set.univ
  close : 0 < p.value → p.value < 1 → |((strikes p).ncard : ℚ) - p.value * 2 ^ 64| < 1

variable {T P G : Type} [SmallRng G] [Probability P] {env : World} {k : Nat} {p q : F64}

/-- No draw is below a threshold of zero. -/
theorem not_lt_of_zero {draw threshold : UInt64} (zero : threshold = 0) : ¬draw < threshold := by
  rw [zero, UInt64.lt_iff_toNat_lt]
  exact Nat.not_lt_zero _

/-- **`try_trigger`** compares the draw with the threshold. -/
theorem Terminator.fires_iff {inner : T} {prob : P} {rng : G} :
    Fires env k inner prob rng ↔
      (SmallRng.nextU64 rng).1 < Probability.threshold env prob k := by
  show (trigger : Io (Terminator T P G) Bool).wp env k _ (fun r _ _ => r = .ok true) ↔ _
  rw [trigger_wp, if_neg Bool.false_ne_true]
  split
  · next zero => exact iff_of_false nofun (not_lt_of_zero zero)
  · split
    · next hits => exact iff_of_true rfl hits
    · next misses => exact iff_of_false nofun misses

/-- **`should_corrupt`** does the same. -/
theorem Corrupter.fires_iff {s : Corrupter T P G} :
    Fires env k s ↔ (SmallRng.nextU64 s.rng).1 < Probability.threshold env s.prob k := by
  show (shouldCorrupt : Io (Corrupter T P G) Bool).wp env k s (fun r _ _ => r = .ok true) ↔ _
  rw [shouldCorrupt_wp]
  split
  · next zero => exact iff_of_false nofun (not_lt_of_zero zero)
  · rw [Poll.ok.injEq, decide_eq_true_eq]
    rfl

/-- A knob that holds a probability in `[0, 1]` holds its threshold. -/
theorem DynamicProbability.Holds.threshold {knob : DynamicProbability} (h : knob.Holds env k p)
    (unital : p.Unital) : Probability.threshold env knob k = p.scaled := by
  obtain ⟨a, made, held⟩ := h
  refine held.trans ?_
  have computed : a.threshold = thresholdOf p := by
    rcases made with made | ⟨before, set⟩
    · rw [Atomics.eq_of_new made]
      rfl
    · unfold Atomics.set at set
      split at set
      · obtain rfl := (Prod.mk.inj set).2
        rfl
      · cases (Prod.mk.inj set).1
  rw [computed, thresholdOf, unital.clamp_eq]

theorem mem_strikes {d : UInt64} (unital : p.Unital) : d ∈ strikes p ↔ d < p.scaled := by
  rw [← unital.probability_scaled]
  exact Terminator.fires_iff

/-- The draws that strike are those below the exact product, but for the last. -/
theorem mem_strikes_iff {d : UInt64} (unital : p.Unital) :
    d ∈ strikes p ↔ d.toNat < min (p.units / F64.share) (2 ^ 64 - 1) := by
  rw [mem_strikes unital, UInt64.lt_iff_toNat_lt, unital.scaled_toNat]

/-- So many draws are below a number. -/
theorem ncard_below {n : Nat} (le : n ≤ 2 ^ 64) : { d : UInt64 | d.toNat < n }.ncard = n := by
  refine Set.ncard_eq_of_bijective (fun i _ => UInt64.ofNat i) ?_ ?_ ?_
  · intro d below
    exact ⟨d.toNat, below, UInt64.ofNat_toNat⟩
  · intro i lt
    show (UInt64.ofNat i).toNat < n
    rw [UInt64.toNat_ofNat', Nat.mod_eq_of_lt (by omega)]
    exact lt
  · intro i j ilt jlt same
    have same := congrArg UInt64.toNat same
    rw [UInt64.toNat_ofNat', UInt64.toNat_ofNat', Nat.mod_eq_of_lt (by omega),
      Nat.mod_eq_of_lt (by omega)] at same
    exact same

/-- Rounding a quotient down moves it by less than one. -/
theorem floor_close (a : Nat) {b : Nat} (pos : 0 < b) : |((a / b : Nat) : ℚ) - a / b| < 1 := by
  have below : ((a / b : Nat) : ℚ) ≤ a / b := Nat.cast_div_le
  have above : (a : ℚ) / b < (a / b : Nat) + 1 := by
    rw [div_lt_iff₀' (Nat.cast_pos.mpr pos)]
    exact_mod_cast Nat.lt_mul_div_succ a pos
  rw [abs_lt]
  constructor <;> linarith

/-! ## What the threshold encodes -/

/-- Both adapters and both kinds of source fire on the same draws. -/
theorem strikes_same {inner : T} {rng : G} {stored : Option (List UInt8)} {knob : DynamicProbability}
    (unital : p.Unital) (holds : knob.Holds env k p) :
    let strike := (SmallRng.nextU64 rng).1 ∈ strikes p
    (Terminator.Fires env k inner p rng ↔ strike) ∧
      (Terminator.Fires env k inner knob rng ↔ strike) ∧
      (Corrupter.Fires env k ⟨inner, p, rng, stored⟩ ↔ strike) ∧
      (Corrupter.Fires env k ⟨inner, knob, rng, stored⟩ ↔ strike) := by
  intro strike
  have fixed : Probability.threshold env p k = p.scaled := unital.probability_scaled
  have held : Probability.threshold env knob k = p.scaled := holds.threshold unital
  have below : strike ↔ (SmallRng.nextU64 rng).1 < p.scaled := mem_strikes unital
  refine ⟨?_, ?_, ?_, ?_⟩
  · rw [Terminator.fires_iff, fixed, below]
  · rw [Terminator.fires_iff, held, below]
  · rw [Corrupter.fires_iff, fixed, below]
  · rw [Corrupter.fires_iff, held, below]

theorem strikes_mono (hp : p.Unital) (hq : q.Unital) (le : p.value ≤ q.value) :
    strikes p ⊆ strikes q := by
  intro d strike
  have le := Nat.div_le_div_right (c := F64.share) ((F64.value_le_iff hp hq).mp le)
  rw [mem_strikes_iff hp] at strike
  rw [mem_strikes_iff hq]
  omega

theorem strikes_zero (unital : p.Unital) (zero : p.value = 0) : strikes p = ∅ := by
  have none : p.units = 0 :=
    Nat.eq_zero_of_not_pos fun some => (unital.value_pos_iff.mpr some).ne' zero
  ext d
  rw [mem_strikes_iff unital, none, Nat.zero_div]
  exact iff_of_false (by omega) (Set.notMem_empty d)

/-- A probability of one misses the largest draw. -/
theorem strikes_one (unital : p.Unital) (one : ¬p.value < 1) :
    strikes p = { d | d ≠ 0xFFFFFFFFFFFFFFFF } := by
  have all : p.units = F64.share * 2 ^ 64 :=
    Nat.le_antisymm unital.units_le (Nat.le_of_not_lt (unital.value_lt_one_iff.not.mp one))
  ext d
  have lt := d.toNat_lt
  rw [mem_strikes_iff unital, all, Nat.mul_div_cancel_left _ F64.share_pos, Set.mem_ofPred_eq, ne_eq,
    ← UInt64.toNat_inj]
  show _ ↔ ¬d.toNat = 2 ^ 64 - 1
  omega

/-- Below one the number of draws that strike is the exact product, rounded down. -/
theorem strikes_close (unital : p.Unital) (below : p.value < 1) :
    |((strikes p).ncard : ℚ) - p.value * 2 ^ 64| < 1 := by
  have few : p.units / F64.share < 2 ^ 64 :=
    Nat.div_lt_of_lt_mul (unital.value_lt_one_iff.mp below)
  have count : (strikes p).ncard = p.units / F64.share := by
    rw [← ncard_below (Nat.le_of_lt few)]
    congr 1
    ext d
    rw [mem_strikes_iff unital, Set.mem_ofPred_eq]
    omega
  have product : p.value * 2 ^ 64 = p.units / F64.share := by
    have pos : (F64.share : ℚ) ≠ 0 := Nat.cast_ne_zero.mpr F64.share_pos.ne'
    rw [unital.value_eq]
    field_simp
  rw [count, product]
  exact floor_close p.units F64.share_pos

/-- **When the threshold encodes its probability.** For a probability in `[0, 1]`: both adapters and
both kinds of source fire on the same draws, more of them for a larger probability, none for zero, all
for one, and in between as many as the exact product but for less than one, exactly if it is below one.
At one every draw fires but the largest. -/
theorem encodes_iff_below_one (unital : p.Unital) :
    (Encodes p ↔ p.value < 1) ∧ (p.value = 1 → strikes p = { d | d ≠ 0xFFFFFFFFFFFFFFFF }) := by
  refine ⟨⟨fun encodes => ?_, fun below => ?_⟩, fun one => strikes_one unital one.not_lt⟩
  · by_contra one
    have all := encodes.always (le_antisymm unital.value_le_one (le_of_not_gt one))
    rw [strikes_one unital one] at all
    have last : (0xFFFFFFFFFFFFFFFF : UInt64) ∈ { d : UInt64 | d ≠ 0xFFFFFFFFFFFFFFFF } := by
      rw [all]
      exact Set.mem_univ _
    exact last rfl
  · exact {
      same := fun env k inner rng stored knob holds => strikes_same unital holds
      mono := fun q hq => ⟨strikes_mono hq unital, strikes_mono unital hq⟩
      never := strikes_zero unital
      always := fun one => absurd one below.ne
      close := fun _ below => strikes_close unital below }

theorem encodes_one_half :
    (Encodes ⟨0x3FE0000000000000⟩ ↔ F64.value ⟨0x3FE0000000000000⟩ < 1) ∧
      (F64.value ⟨0x3FE0000000000000⟩ = 1 →
        strikes ⟨0x3FE0000000000000⟩ = { d | d ≠ 0xFFFFFFFFFFFFFFFF }) :=
  encodes_iff_below_one (by decide)

/-- A probability of one is no guarantee: the largest draw lets the operation through. -/
theorem one_lets_last_draw_through :
    F64.one.Unital ∧ F64.one.value = 1 ∧
      ¬Terminator.Fires .still 0 () F64.one (Draw.mk 0xFFFFFFFFFFFFFFFF) ∧ ¬Encodes .one := by
  have unital : F64.one.Unital := by decide
  have value : F64.one.value = 1 := F64.value_one
  have last : ¬Terminator.Fires .still 0 () F64.one (Draw.mk 0xFFFFFFFFFFFFFFFF) := by
    rw [Terminator.fires_iff]
    decide
  refine ⟨unital, value, last, ?_⟩
  intro encodes
  have all := encodes.always value
  apply last
  show (0xFFFFFFFFFFFFFFFF : UInt64) ∈ strikes .one
  rw [all]
  exact Set.mem_univ _

end Trixter
