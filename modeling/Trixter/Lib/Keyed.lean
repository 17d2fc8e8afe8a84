import Mathlib.Data.List.Nodup

/-!
# Lists of entries under keys

A map as the list of its entries, in an order of its own. An entry is found by `List.lookup`; taking
a key out takes every entry under it out. Where the keys are distinct, the entries are exactly what
can be found.
-/

namespace Trixter.Lib

namespace Keyed

variable {κ α : Type} [BEq κ] [LawfulBEq κ] {j k : κ} {a : α} {l : List (κ × α)}

/-- The entries under other keys. -/
def without (k : κ) (l : List (κ × α)) : List (κ × α) := l.filter fun entry => entry.1 != k

/-- The entry under a key replaced. -/
def put (k : κ) (a : α) (l : List (κ × α)) : List (κ × α) := (k, a) :: without k l

theorem lookup_without_self : (without k l).lookup k = none := by
  rw [List.lookup_eq_none_iff]
  intro entry mem
  have other := (List.mem_filter.mp mem).2
  rw [bne_iff_ne] at other
  exact bne_iff_ne.mpr other.symm

theorem lookup_without_of_ne (ne : j ≠ k) : (without k l).lookup j = l.lookup j := by
  induction l with
  | nil => rfl
  | cons entry l ih =>
    unfold without at ih ⊢
    by_cases same : entry.1 = k
    · have passed : (j == entry.1) = false := by
        rw [beq_eq_false_iff_ne, same]
        exact ne
      rw [List.filter_cons_of_neg (by simp [same]), List.lookup_cons, passed, ih]
    · rw [List.filter_cons_of_pos (by simp [same]), List.lookup_cons, List.lookup_cons, ih]

/-- A key that is not there. -/
theorem without_of_none (unused : l.lookup k = none) : without k l = l := by
  refine List.filter_eq_self.mpr fun entry mem => bne_iff_ne.mpr ?_
  rintro rfl
  exact absurd (List.lookup_eq_none_iff.mp unused entry mem) (by simp)

@[simp] theorem lookup_put_self : (put k a l).lookup k = some a := List.lookup_cons_self

theorem lookup_put_of_ne (ne : j ≠ k) : (put k a l).lookup j = l.lookup j := by
  have passed : (j == k) = false := beq_eq_false_iff_ne.mpr ne
  rw [put, List.lookup_cons, passed]
  exact lookup_without_of_ne ne

omit [LawfulBEq κ] in
theorem nodup_without (nodup : (l.map Prod.fst).Nodup) : ((without k l).map Prod.fst).Nodup :=
  nodup.sublist (List.Sublist.map _ List.filter_sublist)

theorem nodup_put (nodup : (l.map Prod.fst).Nodup) : ((put k a l).map Prod.fst).Nodup := by
  rw [put, List.map_cons, List.nodup_cons]
  refine ⟨?_, nodup_without nodup⟩
  intro mem
  obtain ⟨entry, kept, same⟩ := List.mem_map.mp mem
  have other := (List.mem_filter.mp kept).2
  rw [bne_iff_ne] at other
  exact other same

/-- What is found is an entry. -/
theorem mem_of_lookup (found : l.lookup k = some a) : (k, a) ∈ l := by
  obtain ⟨l₁, l₂, eq, -⟩ := List.lookup_eq_some_iff.mp found
  rw [eq]
  exact List.mem_append_right _ List.mem_cons_self

/-- Under distinct keys, the entries are what is found. -/
theorem mem_iff_lookup (nodup : (l.map Prod.fst).Nodup) : (k, a) ∈ l ↔ l.lookup k = some a := by
  refine ⟨fun mem => ?_, mem_of_lookup⟩
  obtain ⟨b, found⟩ : ∃ b, l.lookup k = some b := by
    rw [← Option.isSome_iff_exists, List.lookup_isSome_iff]
    exact ⟨(k, a), mem, by simp⟩
  have same := List.inj_on_of_nodup_map nodup mem (mem_of_lookup found) rfl
  cases same
  exact found

/-! ## Entries with part of what is under their key -/

variable {β : Type} {f : α → β}

omit [LawfulBEq κ] in
theorem lookup_map : (l.map fun entry => (entry.1, f entry.2)).lookup k = (l.lookup k).map f := by
  induction l with
  | nil => rfl
  | cons entry l ih =>
    rw [List.map_cons, List.lookup_cons, List.lookup_cons, ih]
    cases k == entry.1 <;> rfl

omit [LawfulBEq κ] in
theorem map_without : (without k l).map (fun entry => (entry.1, f entry.2)) =
    without k (l.map fun entry => (entry.1, f entry.2)) := by
  rw [without, without, List.filter_map]
  rfl

end Keyed

end Trixter.Lib
