import Trixter.Lib.Poll

/-!
# The ways out of a poll

A poll comes back ready, not ready or failed, and each way out asks something of the state it leaves.
An `Exit` is such a postcondition, in three parts; `Ends` says it of a poll program. The `ends_…`
lemmas are the rules: a bind leaves through its first program unless that is ready, a pending answer
that is gone past is one more way to be ready, and a part leaves as the whole does.

There is no way out for a poll that unwinds: what `Ends` says of a poll includes that it comes back.
-/

namespace Trixter.Lib

/-- What is asked of the state, at the moment it is left in. -/
structure Exit (ε σ α : Type) where
  ok : α → Nat → σ → Prop
  pending : Nat → σ → Prop
  err : ε → Nat → σ → Prop

/-- The postcondition of a poll that has these ways out. -/
def Exit.post {ε σ α : Type} (E : Exit ε σ α) (r : Poll ε α) (s : σ) (k : Nat) : Prop :=
  match r with
  | .ok a => E.ok a k s
  | .pending => E.pending k s
  | .err e => E.err e k s
  | .panicked _ => False

/-- What is asked of a part is asked of the whole. -/
def Exit.of {ε σ τ α : Type} (part : τ → σ) (E : Exit ε σ α) : Exit ε τ α where
  ok a k t := E.ok a k (part t)
  pending k t := E.pending k (part t)
  err e k t := E.err e k (part t)

namespace Polling

variable {ω ε σ τ α β : Type} {w : ω} {k : Nat} {s : σ} {E F : Exit ε σ α}

/-- The poll leaves as `E` asks. -/
def Ends (m : Polling ω ε σ α) (w : ω) (k : Nat) (s : σ) (E : Exit ε σ α) : Prop :=
  m.wp w k s E.post

/-- Weakening, one way out at a time. No moment left in is before the start. -/
theorem ends_mono {m : Polling ω ε σ α} (h : m.Ends w k s E)
    (ok : ∀ a k' s', k ≤ k' → E.ok a k' s' → F.ok a k' s')
    (pending : ∀ k' s', k ≤ k' → E.pending k' s' → F.pending k' s')
    (err : ∀ e k' s', k ≤ k' → E.err e k' s' → F.err e k' s') : m.Ends w k s F := by
  refine wp_mono (wp_and h (wp_later m)) ?_
  rintro (_ | e | a | message) s' k' ⟨left, later⟩
  · exact pending k' s' later left
  · exact err e k' s' later left
  · exact ok a k' s' later left
  · exact left

/-- Two things asked of each way out. -/
theorem ends_and {m : Polling ω ε σ α} (h : m.Ends w k s E) (h' : m.Ends w k s F) :
    m.Ends w k s ⟨fun a k' s' => E.ok a k' s' ∧ F.ok a k' s',
      fun k' s' => E.pending k' s' ∧ F.pending k' s', fun e k' s' => E.err e k' s' ∧ F.err e k' s'⟩ := by
  refine wp_mono (wp_and h h') ?_
  rintro (_ | e | a | message) s' k' both
  · exact both
  · exact both
  · exact both
  · exact both.1

@[simp] theorem ends_pure (a : α) : (pure a : Polling ω ε σ α).Ends w k s E ↔ E.ok a k s := Iff.rfl

@[simp] theorem ends_get {E : Exit ε σ σ} : (get : Polling ω ε σ σ).Ends w k s E ↔ E.ok s k s := Iff.rfl

@[simp] theorem ends_modify {f : σ → σ} {E : Exit ε σ Unit} :
    (modify f : Polling ω ε σ Unit).Ends w k s E ↔ E.ok () k (f s) := Iff.rfl

@[simp] theorem ends_modifyGet {f : σ → α × σ} :
    (modifyGet f : Polling ω ε σ α).Ends w k s E ↔ E.ok (f s).1 k (f s).2 := Iff.rfl

@[simp] theorem ends_observe {f : ω → Nat → σ → α} :
    (observe f : Polling ω ε σ α).Ends w k s E ↔ E.ok (f w k s) (k + 1) s := Iff.rfl

@[simp] theorem ends_pend : (pend : Polling ω ε σ α).Ends w k s E ↔ E.pending k s := Iff.rfl

@[simp] theorem ends_fail {e : ε} : (fail e : Polling ω ε σ α).Ends w k s E ↔ E.err e k s := Iff.rfl

/-- **The rule of binds.** -/
theorem ends_bind {m : Polling ω ε σ β} {f : β → Polling ω ε σ α} :
    (m >>= f).Ends w k s E ↔ m.Ends w k s ⟨fun b k' s' => (f b).Ends w k' s' E, E.pending, E.err⟩ := by
  unfold Ends
  rw [wp_bind]
  unfold wp
  cases (m w k s).result <;> rfl

/-- A pending answer is a way to be ready. -/
theorem ends_orPending {m : Polling ω ε σ β} {E : Exit ε σ (Option β)} :
    m.orPending.Ends w k s E ↔ m.Ends w k s ⟨fun b => E.ok (some b), E.ok none, E.err⟩ := by
  unfold Ends
  rw [wp_orPending]
  unfold wp
  cases (m w k s).result <;> rfl

/-- A part leaves as the whole does. -/
@[simp] theorem ends_zoom {get : σ → τ} {set : σ → τ → σ} {m : Polling ω ε τ α} :
    (m.zoom get set).Ends w k s E ↔
      m.Ends w k (get s) ⟨fun a k' t => E.ok a k' (set s t), fun k' t => E.pending k' (set s t),
        fun e k' t => E.err e k' (set s t)⟩ := by
  unfold Ends
  rw [wp_zoom]
  unfold wp
  cases (m w k (get s)).result <;> rfl

/-- What is lent comes back with a success. -/
theorem ends_lend {b : β} {m : Polling ω ε (σ × β) α} {E : Exit ε σ β} :
    (m.lend b).Ends w k s E ↔
      m.Ends w k (s, b) ⟨fun _ k' t => E.ok t.2 k' t.1, fun k' t => E.pending k' t.1,
        fun e k' t => E.err e k' t.1⟩ := by
  unfold Ends
  rw [wp_lend]
  unfold wp
  cases (m w k (s, b)).result <;> rfl

end Polling

end Trixter.Lib
