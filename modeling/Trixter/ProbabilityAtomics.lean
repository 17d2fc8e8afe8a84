import Trixter.F64
import Trixter.Probability

/-!
# Probabilities and their thresholds

`probability.rs`: a fixed `f64` computes its threshold each time it is asked, and a `DynamicProbability`
holds the bits of the rate that was set and the threshold computed from it. `set` stores one and then
the other.
-/

namespace Trixter

/-- `validate_probability_rate`. -/
def validateProbabilityRate (probabilityRate : F64) : Except IoError Unit :=
  if F64.contains .zero .one probabilityRate then .ok ()
  else .error (.invalidInput .probability)

/-- `((probability.clamp(0.0, 1.0)) * u64::MAX as f64) as u64`. -/
def thresholdOf (probability : F64) : UInt64 := (F64.clamp .zero .one probability).scaled

/-- `<f64 as Probability>::probability`: what is not a number is zero, and the rest is clamped. -/
def F64.probability (x : F64) : F64 :=
  if x.isNan then .zero
  else if x.le .zero then .zero
  else if F64.contains .zero .one x then x
  else .one

instance : Probability F64 where
  threshold _ x _ := x.probability.scaled

namespace DynamicProbability

/-- What the two atomics hold. -/
structure Atomics where
  probabilityRateBits : UInt64
  probabilityThreshold : UInt64
  deriving DecidableEq, Repr

/-- `DynamicProbability::new`. -/
def new (probability : F64) : Except IoError Atomics := do
  validateProbabilityRate probability
  return ⟨probability.bits, thresholdOf probability⟩

namespace Atomics

/-- `probability()`. -/
def probability (a : Atomics) : F64 := ⟨a.probabilityRateBits⟩

/-- `threshold()`. -/
def threshold (a : Atomics) : UInt64 := a.probabilityThreshold

/-- The first store of `set`. -/
def storeRate (probability : F64) (a : Atomics) : Atomics :=
  { a with probabilityRateBits := probability.bits }

/-- The second store of `set`. -/
def storeThreshold (probability : F64) (a : Atomics) : Atomics :=
  { a with probabilityThreshold := thresholdOf probability }

/-- `set`, with nobody else about. -/
def set (probability : F64) (a : Atomics) : Except IoError Unit × Atomics :=
  match validateProbabilityRate probability with
  | .ok _ => (.ok (), (a.storeRate probability).storeThreshold probability)
  | .error e => (.error e, a)

/-- The threshold is the one of the rate. -/
def Consistent (a : Atomics) : Prop := a.threshold = thresholdOf a.probability

instance (a : Atomics) : Decidable a.Consistent := inferInstanceAs (Decidable (_ = _))

theorem eq_of_new {probability : F64} {a : Atomics} (h : new probability = .ok a) :
    a = ⟨probability.bits, thresholdOf probability⟩ := by
  unfold new validateProbabilityRate at h
  split at h
  · exact (Except.ok.inj h).symm
  · cases h

end Atomics

end DynamicProbability

end Trixter
