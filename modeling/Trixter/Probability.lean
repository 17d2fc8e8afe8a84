import Trixter.Io

/-!
# Probability knobs and the random number generator

`probability.rs`, and the part of `rand::SmallRng` the adapters use. The generator is a type with
its operations: a law about every generator is a law about every seed and every random stream.
-/

namespace Trixter

open Trixter.Lib

/-- `trait Probability`: a draw triggers iff it is strictly below the threshold. -/
class Probability (P : Type) where
  threshold : World → P → Nat → UInt64

/-- A fixed threshold, as the test suite's `ConstProb` holds one. -/
structure ConstProb where
  threshold : UInt64
  deriving DecidableEq, Repr

instance : Probability ConstProb where
  threshold _ p _ := p.threshold

/-- A shared probability knob: the address of its precomputed threshold. -/
structure DynamicProbability where
  cell : Nat
  deriving DecidableEq, Repr

instance : Probability DynamicProbability where
  threshold env p k := env.atomics p.cell k

/-- `rand::rngs::SmallRng`, with what its documentation promises of the two ranged draws. -/
class SmallRng (G : Type) where
  fromSeed : List UInt8 → G
  /-- `SmallRng::from_rng`: a new generator, and the old one moved on. -/
  fromRng : G → G × G
  nextU64 : G → UInt64 × G
  /-- `random_range(lo..=hi)`. -/
  randomRange : Nat → Nat → G → Nat × G
  /-- `fill_bytes` on a buffer of this length. -/
  fillBytes : Nat → G → List UInt8 × G
  randomRange_mem : ∀ lo hi g, lo ≤ hi → lo ≤ (randomRange lo hi g).1 ∧ (randomRange lo hi g).1 ≤ hi
  fillBytes_length : ∀ n g, (fillBytes n g).1.length = n

/-- `rng.next_u64()`. -/
def nextU64 {G : Type} [SmallRng G] : Io G UInt64 := Polling.modifyGet SmallRng.nextU64

/-- `try_trigger`, over the fuse, the generator and the knob it borrows. A blown fuse draws
nothing. -/
def tryTrigger {G P : Type} [SmallRng G] [Probability P] : Io (Bool × G × P) Bool := do
  if (← Polling.get).1 then
    return true
  else
    let th ← Polling.observe fun env k (s : Bool × G × P) => Probability.threshold env s.2.2 k
    if th = 0 then
      return false
    else
      let draw ← nextU64.zoom (fun s : Bool × G × P => s.2.1) fun s rng => (s.1, rng, s.2.2)
      if draw < th then
        Polling.modify fun s => (true, s.2)
        return true
      else
        return false

end Trixter
