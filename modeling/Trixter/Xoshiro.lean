import Trixter.Probability

/-!
# xoshiro256++

The generator behind `SmallRng` on 64-bit platforms, with the ranged draws `rand` makes from it.
Nothing depends on its numbers but the runs that need a generator to run on.
-/

namespace Trixter

structure Xoshiro where
  s0 : UInt64
  s1 : UInt64
  s2 : UInt64
  s3 : UInt64
  deriving DecidableEq, Repr

namespace Xoshiro

/-- `rotate_left`. -/
def rotl (x : UInt64) (n : UInt64) : UInt64 := x <<< n ||| x >>> (64 - n)

/-- `next_u64`. -/
def next (g : Xoshiro) : UInt64 × Xoshiro :=
  let result := rotl (g.s0 + g.s3) 23 + g.s0
  let t := g.s1 <<< 17
  let s2 := g.s2 ^^^ g.s0
  let s3 := g.s3 ^^^ g.s1
  let s1 := g.s1 ^^^ s2
  let s0 := g.s0 ^^^ s3
  (result, ⟨s0, s1, s2 ^^^ t, rotl s3 45⟩)

/-- `next_u32`: the upper half of a draw. -/
def next32 (g : Xoshiro) : Nat × Xoshiro := ((next g).1.toNat / 2 ^ 32, (next g).2)

/-- Little-endian bytes of a word, the first `n` of them. -/
def leBytes : Nat → Nat → List UInt8
  | 0, _ => []
  | n + 1, word => UInt8.ofNat word :: leBytes n (word / 256)

/-- `fill_bytes`, eight bytes a draw. A rest of four bytes or less takes half a draw. -/
def fill : Nat → Nat → Xoshiro → List UInt8 × Xoshiro
  | _, 0, g => ([], g)
  | 0, n, g => (List.replicate n 0, g)
  | fuel + 1, n, g =>
    if 4 < n then
      let (bytes, g') := fill fuel (n - min 8 n) (next g).2
      (leBytes (min 8 n) (next g).1.toNat ++ bytes, g')
    else (leBytes n (next32 g).1, (next32 g).2)

/-- `random_range(lo..=hi)` on a range that fits 32 bits: one widening product, and a second draw
for its carry when the low half is biased. -/
def range (lo hi : Nat) (g : Xoshiro) : Nat × Xoshiro :=
  let size := hi - lo + 1
  let product := (next32 g).1 * size
  if 2 ^ 32 - size < product % 2 ^ 32 then
    let second := (next32 (next32 g).2).1 * size / 2 ^ 32
    let carry := (product % 2 ^ 32 + second) / 2 ^ 32
    (min hi (lo + product / 2 ^ 32 + carry), (next32 (next32 g).2).2)
  else (min hi (lo + product / 2 ^ 32), (next32 g).2)

/-- A word from its little-endian bytes. -/
def word (bytes : List UInt8) : UInt64 :=
  UInt64.ofNat (bytes.foldr (fun b acc => b.toNat + 256 * acc) 0)

/-- `from_seed` on 32 bytes that are not all zero. -/
def ofSeed (seed : List UInt8) : Xoshiro :=
  ⟨word (seed.take 8), word ((seed.drop 8).take 8), word ((seed.drop 16).take 8),
    word ((seed.drop 24).take 8)⟩

theorem leBytes_length (n word : Nat) : (leBytes n word).length = n := by
  induction n generalizing word with
  | zero => rfl
  | succ n ih => rw [leBytes, List.length_cons, ih]

theorem fill_length (fuel n : Nat) (g : Xoshiro) : (fill fuel n g).1.length = n := by
  induction fuel generalizing n g with
  | zero => cases n <;> simp [fill]
  | succ fuel ih =>
    cases n with
    | zero => rfl
    | succ n =>
      rw [fill]
      · split
        · simp only [List.length_append, leBytes_length, ih]; omega
        · exact leBytes_length _ _
      · exact Nat.succ_ne_zero n

theorem range_mem (lo hi : Nat) (g : Xoshiro) (le : lo ≤ hi) :
    lo ≤ (range lo hi g).1 ∧ (range lo hi g).1 ≤ hi := by
  unfold range
  dsimp only
  split <;> exact ⟨by dsimp only; omega, Nat.min_le_left _ _⟩

instance : SmallRng Xoshiro where
  fromSeed := ofSeed
  fromRng g := (ofSeed (fill 32 32 g).1, (fill 32 32 g).2)
  nextU64 := next
  randomRange := range
  fillBytes n := fill n n
  randomRange_mem := range_mem
  fillBytes_length n := fill_length n n

/-- A seed whose second draw is below one half, and whose block then has one byte. -/
def seed : List UInt8 :=
  List.replicate 8 1 ++ List.replicate 8 61 ++ List.replicate 8 28 ++ List.replicate 8 60

end Xoshiro

/-- The threshold of a probability of one half. -/
def half : ConstProb := ⟨0x8000000000000000⟩

end Trixter
