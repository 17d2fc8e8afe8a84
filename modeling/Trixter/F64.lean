import Mathlib.Algebra.GroupWithZero.Nat
import Mathlib.Tactic.Common

/-!
# Floating point numbers by their bits

`f64`, as far as the knobs use it: comparison, clamping, and the product with `u64::MAX as f64` cast
to `u64`. That factor is 2^64 after rounding, so the product is exact and its cast is the floor of a
number with 53 significant bits, moved by a power of two.
-/

namespace Trixter

/-- `f64::from_bits`. -/
structure F64 where
  bits : UInt64
  deriving DecidableEq, Repr

namespace F64

/-- The sign bit. -/
def negative (x : F64) : Bool := decide (2 ^ 63 ≤ x.bits.toNat)

/-- The bits below the sign. Without the sign, numbers are ordered as these are. -/
def magnitude (x : F64) : Nat := x.bits.toNat % 2 ^ 63

/-- `is_nan`: above infinity. -/
def isNan (x : F64) : Bool := decide (0x7FF0000000000000 < x.magnitude)

/-- The place of a number among the others; both zeros have the same. -/
def place (x : F64) : Int := if x.negative then -x.magnitude else x.magnitude

/-- `<=`: false as soon as one side is not a number. -/
def le (x y : F64) : Bool := !x.isNan && !y.isNan && decide (x.place ≤ y.place)

/-- `<`. -/
def lt (x y : F64) : Bool := !x.isNan && !y.isNan && decide (x.place < y.place)

/-- `0.0`. -/
def zero : F64 := ⟨0⟩

/-- `1.0`. -/
def one : F64 := ⟨0x3FF0000000000000⟩

/-- `(lo..=hi).contains(&x)`. -/
def contains (lo hi x : F64) : Bool := lo.le x && x.le hi

/-- `x.clamp(min, max)`. -/
def clamp (min max x : F64) : F64 :=
  if x.lt min then min else if max.lt x then max else x

/-- `(x * u64::MAX as f64) as u64`. A number that is not one is cast to zero, as every number below
one is, and one that does not fit is cast to the largest `u64`. -/
def scaled (x : F64) : UInt64 :=
  let exponent := x.magnitude / 2 ^ 52
  let significand := 2 ^ 52 + x.magnitude % 2 ^ 52
  if x.isNan || x.negative || exponent = 0 then 0
  else if exponent < 1011 then UInt64.ofNat (significand / 2 ^ (1011 - exponent))
  else UInt64.ofNat (min (significand * 2 ^ (exponent - 1011)) (2 ^ 64 - 1))

-- a quarter, one, and a number that is not one
example : scaled ⟨0x3FD0000000000000⟩ = 0x4000000000000000 := by decide
example : scaled one = 0xFFFFFFFFFFFFFFFF := by decide
example : scaled ⟨0x7FF8000000000000⟩ = 0 := by decide

end F64

end Trixter
