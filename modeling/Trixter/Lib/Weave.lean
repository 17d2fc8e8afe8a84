import Mathlib.Data.List.Basic

/-!
# Weaving two streams

Blocks and a caller's bytes go to one sink, each block in one piece. A `Weave` is such a sink seen
from the inside: what is complete, and the block that is under way.

`bytes`, `callers` and `blocks` are its three shadows. The four moves say how each grows, so a
program that only makes these moves is described by its weave.
-/

namespace Trixter.Lib

/-- What one write contributed. -/
inductive Piece (α : Type) where
  | block (bytes : List α)
  | caller (bytes : List α)
  deriving DecidableEq, Repr

namespace Piece

variable {α : Type}

def bytes : Piece α → List α
  | .block bytes => bytes
  | .caller bytes => bytes

def caller? : Piece α → List α
  | .block _ => []
  | .caller bytes => bytes

def block? : Piece α → List (List α)
  | .block bytes => [bytes]
  | .caller _ => []

end Piece

/-- A block under way: what is written of it, and the rest. -/
structure Underway (α : Type) where
  written : List α
  rest : List α
  deriving DecidableEq, Repr

structure Weave (α : Type) where
  pieces : List (Piece α)
  underway : Option (Underway α)
  deriving DecidableEq, Repr

namespace Weave

variable {α : Type}

/-- Nothing written. -/
def empty : Weave α := ⟨[], none⟩

/-- Everything written, in order. -/
def bytes (w : Weave α) : List α :=
  w.pieces.flatMap Piece.bytes ++ w.underway.elim [] Underway.written

/-- The caller's bytes: what is left when the blocks are erased. -/
def callers (w : Weave α) : List α := w.pieces.flatMap Piece.caller?

/-- The blocks, whole, the one under way last. -/
def blocks (w : Weave α) : List (List α) :=
  w.pieces.flatMap Piece.block? ++ w.underway.elim [] fun b => [b.written ++ b.rest]

/-- What is left of the block under way. -/
def rest (w : Weave α) : Option (List α) := w.underway.map Underway.rest

/-- A block is taken up. -/
def start (w : Weave α) (block : List α) : Weave α := { w with underway := some ⟨[], block⟩ }

/-- The next bytes of the block under way are written. -/
def write (w : Weave α) (n : Nat) : Weave α :=
  { w with underway := w.underway.map fun b => ⟨b.written ++ b.rest.take n, b.rest.drop n⟩ }

/-- The block under way is complete. -/
def finish (w : Weave α) : Weave α :=
  ⟨w.pieces ++ w.underway.elim [] fun b => [.block b.written], none⟩

/-- The caller's bytes are written. -/
def call (w : Weave α) (bytes : List α) : Weave α :=
  { w with pieces := w.pieces ++ [.caller bytes] }

variable {w : Weave α} {block rest : List α} {n : Nat}

theorem underway_of_rest (h : w.rest = some rest) : ∃ written, w.underway = some ⟨written, rest⟩ := by
  obtain ⟨⟨written, left⟩, eq, rfl⟩ := Option.map_eq_some_iff.mp h
  exact ⟨written, eq⟩

theorem underway_of_idle (h : w.rest = none) : w.underway = none := Option.map_eq_none_iff.mp h

@[simp] theorem start_rest : (w.start block).rest = some block := rfl

@[simp] theorem finish_rest : w.finish.rest = none := rfl

@[simp] theorem call_rest : (w.call block).rest = w.rest := rfl

theorem write_rest (h : w.rest = some rest) : (w.write n).rest = some (rest.drop n) := by
  obtain ⟨written, eq⟩ := underway_of_rest h
  simp only [write, Weave.rest, eq, Option.map_some]

/-! ## How the shadows grow -/

theorem start_bytes (idle : w.rest = none) : (w.start block).bytes = w.bytes := by
  simp [bytes, start, underway_of_idle idle]

theorem start_blocks (idle : w.rest = none) : (w.start block).blocks = w.blocks ++ [block] := by
  simp [blocks, start, underway_of_idle idle]

@[simp] theorem start_callers : (w.start block).callers = w.callers := rfl

theorem write_bytes (h : w.rest = some rest) : (w.write n).bytes = w.bytes ++ rest.take n := by
  obtain ⟨written, eq⟩ := underway_of_rest h
  simp [bytes, write, eq]

theorem write_blocks (h : w.rest = some rest) : (w.write n).blocks = w.blocks := by
  obtain ⟨written, eq⟩ := underway_of_rest h
  simp [blocks, write, eq]

@[simp] theorem write_callers : (w.write n).callers = w.callers := rfl

@[simp] theorem finish_bytes : w.finish.bytes = w.bytes := by
  cases h : w.underway <;> simp [bytes, finish, h, Piece.bytes]

theorem finish_blocks (done : w.rest = some []) : w.finish.blocks = w.blocks := by
  obtain ⟨written, eq⟩ := underway_of_rest done
  simp [blocks, finish, eq, Piece.block?]

@[simp] theorem finish_callers : w.finish.callers = w.callers := by
  cases h : w.underway <;> simp [callers, finish, h, Piece.caller?]

theorem call_bytes (idle : w.rest = none) : (w.call block).bytes = w.bytes ++ block := by
  simp [bytes, call, underway_of_idle idle, Piece.bytes]

theorem call_blocks (idle : w.rest = none) : (w.call block).blocks = w.blocks := by
  simp [blocks, call, underway_of_idle idle, Piece.block?]

@[simp] theorem call_callers : (w.call block).callers = w.callers ++ block := by
  simp [callers, call, Piece.caller?]

/-! ## Growing

What one poll may do to a weave, in one line: blocks are taken up, the caller's bytes are taken, and
the block bytes written before them come off the front of what was waiting. -/

structure Grew (w : Weave α) (drawn : List (List α)) (taken : List α) (w' : Weave α) : Prop where
  blocks : w'.blocks = w.blocks ++ drawn
  callers : w'.callers = w.callers ++ taken
  bytes : ∃ random, w'.bytes = w.bytes ++ random ++ taken ∧
    random ++ w'.rest.getD [] = w.rest.getD [] ++ drawn.flatten

variable {w' w'' : Weave α} {drawn drawn' : List (List α)} {taken : List α}

namespace Grew

theorem refl : Grew w [] [] w := ⟨by simp, by simp, [], by simp⟩

/-- Polls that take no byte of the caller's come first. -/
theorem trans (h : Grew w drawn [] w') (h' : Grew w' drawn' taken w'') :
    Grew w (drawn ++ drawn') taken w'' := by
  obtain ⟨random, bytes, rest⟩ := h.bytes
  obtain ⟨random', bytes', rest'⟩ := h'.bytes
  refine ⟨?_, ?_, random ++ random', ?_, ?_⟩
  · rw [h'.blocks, h.blocks, List.append_assoc]
  · rw [h'.callers, h.callers, List.append_nil]
  · rw [bytes', bytes, List.append_nil, List.append_assoc w.bytes]
  · rw [List.append_assoc, rest', ← List.append_assoc, rest, List.append_assoc, List.flatten_append]

theorem start (idle : w.rest = none) : Grew w [block] [] (w.start block) :=
  ⟨start_blocks idle, by simp, [], by simp [start_bytes idle], by simp [idle]⟩

theorem write (h : w.rest = some rest) : Grew w [] [] (w.write n) :=
  ⟨by simp [write_blocks h], by simp, rest.take n, by simp [write_bytes h], by
    simp [write_rest h, h]⟩

theorem finish (done : w.rest = some []) : Grew w [] [] w.finish :=
  ⟨by simp [finish_blocks done], by simp, [], by simp, by simp [done]⟩

theorem call (idle : w.rest = none) : Grew w [] block (w.call block) :=
  ⟨by simp [call_blocks idle], by simp, [], by simp [call_bytes idle], by simp [idle]⟩

end Grew

end Weave

/-! ## Bytes among other bytes -/

/-- `ys` is `xs` with more put in between, and `xs` itself unless `loud`. It is kept when both grow by
the same at the end, and when `loud` by anything that only `ys` grows by. -/
structure Inlaid {α : Type} (loud : Prop) (xs ys : List α) : Prop where
  inside : xs.Sublist ys
  same : ¬loud → xs = ys

namespace Inlaid

variable {α : Type} {loud : Prop} {xs ys zs more : List α}

theorem refl : Inlaid loud xs xs := ⟨List.Sublist.refl xs, fun _ => rfl⟩

theorem trans (h : Inlaid loud xs ys) (h' : Inlaid loud ys zs) : Inlaid loud xs zs :=
  ⟨h.inside.trans h'.inside, fun quiet => (h.same quiet).trans (h'.same quiet)⟩

/-- Both grow. -/
theorem append (h : Inlaid loud xs ys) (more : List α) : Inlaid loud (xs ++ more) (ys ++ more) :=
  ⟨h.inside.append_right more, fun quiet => by rw [h.same quiet]⟩

/-- More is put in. -/
theorem insert (h : Inlaid loud xs ys) (l : loud) : Inlaid loud xs (ys ++ more) :=
  ⟨h.inside.trans (List.sublist_append_left ys more), fun quiet => absurd l quiet⟩

/-- What may put more in is not less of it. -/
theorem louder {loud' : Prop} (h : Inlaid loud xs ys) (more : loud → loud') : Inlaid loud' xs ys :=
  ⟨h.inside, fun quiet => h.same fun l => quiet (more l)⟩

end Inlaid

end Trixter.Lib
