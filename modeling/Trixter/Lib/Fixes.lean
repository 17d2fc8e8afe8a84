import Trixter.Lib.Exit

/-!
# What a poll leaves alone

A poll program `Fixes` what can be seen of its state if no poll changes it, however it comes back. The
`fixes_…` lemmas are the frame rules: a bind fixes what both its programs fix, and work on one part of a
state fixes what is seen of the others.
-/

namespace Trixter.Lib.Polling

variable {ω ε σ τ κ ι α β : Type} {view : σ → κ}

/-- `view` shows the same of the state before and after. -/
def Fixes (view : σ → κ) (m : Polling ω ε σ α) : Prop := ∀ w k s, view (m w k s).state = view s

theorem Fixes.wp {m : Polling ω ε σ α} (h : Fixes view m) (w : ω) (k : Nat) (s : σ) :
    m.wp w k s fun _ s' _ => view s' = view s := h w k s

/-- What is seen of a view that is fixed. -/
theorem Fixes.comp {m : Polling ω ε σ α} (h : Fixes view m) (f : κ → ι) : Fixes (fun s => f (view s)) m :=
  fun w k s => congrArg f (h w k s)

@[simp] theorem fixes_pure (a : α) : Fixes view (pure a : Polling ω ε σ α) := fun _ _ _ => rfl

@[simp] theorem fixes_get : Fixes view (get : Polling ω ε σ σ) := fun _ _ _ => rfl

@[simp] theorem fixes_observe (f : ω → Nat → σ → α) :
    Fixes view (observe f : Polling ω ε σ α) := fun _ _ _ => rfl

@[simp] theorem fixes_pend : Fixes view (pend : Polling ω ε σ α) := fun _ _ _ => rfl

@[simp] theorem fixes_fail (e : ε) : Fixes view (fail e : Polling ω ε σ α) := fun _ _ _ => rfl

@[simp] theorem fixes_panic (message : String) : Fixes view (panic message : Polling ω ε σ α) :=
  fun _ _ _ => rfl

theorem fixes_modify {f : σ → σ} (h : ∀ s, view (f s) = view s) :
    Fixes view (modify f : Polling ω ε σ Unit) := fun _ _ s => h s

theorem fixes_bind {m : Polling ω ε σ β} {f : β → Polling ω ε σ α} (hm : Fixes view m)
    (hf : ∀ b, Fixes view (f b)) : Fixes view (m >>= f) := by
  intro w k s
  show (m >>= f).wp w k s fun _ s' _ => view s' = view s
  rw [wp_bind]
  refine wp_mono (hm.wp w k s) ?_
  rintro (_ | e | b | message) s' k' same
  · exact same
  · exact same
  · exact ((hf b) w k' s').trans same
  · exact same

theorem fixes_ite {c : Prop} [Decidable c] {m n : Polling ω ε σ α} (hm : Fixes view m)
    (hn : Fixes view n) : Fixes view (if c then m else n) := by
  by_cases h : c
  · rwa [if_pos h]
  · rwa [if_neg h]

/-- Work on a part, of which what is seen of the whole shows no more than what the work fixes. -/
theorem fixes_zoom {get : σ → τ} {set : σ → τ → σ} {m : Polling ω ε τ α} {seen : τ → ι}
    (h : Fixes seen m) (frame : ∀ s t, seen t = seen (get s) → view (set s t) = view s) :
    Fixes view (m.zoom get set) := fun w k s => frame s _ (h w k (get s))

/-- Work on a part of which nothing is seen. -/
theorem fixes_zoom_away {get : σ → τ} {set : σ → τ → σ} {m : Polling ω ε τ α}
    (frame : ∀ s t, view (set s t) = view s) : Fixes view (m.zoom get set) :=
  fun _ _ s => frame s _

/-- What is fixed is fixed on every way out. -/
theorem ends_fixes {m : Polling ω ε σ α} {w : ω} {k : Nat} {s : σ} {E : Exit ε σ α}
    (h : m.Ends w k s E) (fixes : Fixes view m) :
    m.Ends w k s ⟨fun a k' s' => E.ok a k' s' ∧ view s' = view s,
      fun k' s' => E.pending k' s' ∧ view s' = view s,
      fun e k' s' => E.err e k' s' ∧ view s' = view s⟩ := by
  refine wp_mono (wp_and h (fixes.wp w k s)) ?_
  rintro (_ | e | a | message) s' k' ⟨left, same⟩
  · exact ⟨left, same⟩
  · exact ⟨left, same⟩
  · exact ⟨left, same⟩
  · exact left

end Trixter.Lib.Polling
