import Trixter.Lib.Poll

/-!
# Mirrored polls

Two programs, each in a world of its own and at moments of its own. They mirror each other through a
relation of their states if, from related states, they give the same answer and leave related states.
Unlike twins they need not take equally long: one of them may look at a clock that the other does
without. The rules follow the ways to build a program.
-/

namespace Trixter.Lib

namespace Polling

variable {ω ω' ε σ σ' τ τ' α β : Type}

/-- Polls from states that `P` relates give the same answer and leave such states, from the moment
`since` of the first world on. -/
def Mirrors (w : ω) (since : Nat) (w' : ω') (P : σ → σ' → Prop) (m : Polling ω ε σ α)
    (m' : Polling ω' ε σ' α) : Prop :=
  ∀ k k' s s', since ≤ k → P s s' →
    (m w k s).result = (m' w' k' s').result ∧ P (m w k s).state (m' w' k' s').state

variable {w : ω} {since : Nat} {w' : ω'} {P : σ → σ' → Prop} {m : Polling ω ε σ α}
  {m' : Polling ω' ε σ' α}

theorem mirrors_pure (a : α) :
    Mirrors w since w' P (pure a : Polling ω ε σ α) (pure a : Polling ω' ε σ' α) :=
  fun _ _ _ _ _ h => ⟨rfl, h⟩

theorem mirrors_pend :
    Mirrors w since w' P (pend : Polling ω ε σ α) (pend : Polling ω' ε σ' α) :=
  fun _ _ _ _ _ h => ⟨rfl, h⟩

theorem mirrors_fail (e : ε) :
    Mirrors w since w' P (fail e : Polling ω ε σ α) (fail e : Polling ω' ε σ' α) :=
  fun _ _ _ _ _ h => ⟨rfl, h⟩

theorem mirrors_panic (message : String) :
    Mirrors w since w' P (panic message : Polling ω ε σ α) (panic message : Polling ω' ε σ' α) :=
  fun _ _ _ _ _ h => ⟨rfl, h⟩

/-- Each side changes its own state. -/
theorem mirrors_modify {f : σ → σ} {f' : σ' → σ'} (h : ∀ s s', P s s' → P (f s) (f' s')) :
    Mirrors w since w' P (modify f : Polling ω ε σ Unit) (modify f' : Polling ω' ε σ' Unit) :=
  fun _ _ s s' _ hs => ⟨rfl, h s s' hs⟩

/-- Both sides go on from the same value, or both stop. -/
theorem mirrors_bind {n : Polling ω ε σ β} {n' : Polling ω' ε σ' β} {f : β → Polling ω ε σ α}
    {f' : β → Polling ω' ε σ' α} (first : Mirrors w since w' P n n')
    (rest : ∀ b, Mirrors w since w' P (f b) (f' b)) : Mirrors w since w' P (n >>= f) (n' >>= f') := by
  intro k k' s s' later h
  show (Polling.bind n f w k s).result = (Polling.bind n' f' w' k' s').result ∧
    P (Polling.bind n f w k s).state (Polling.bind n' f' w' k' s').state
  obtain ⟨result, states⟩ := first k k' s s' later h
  unfold Polling.bind
  generalize n w k s = o at result states ⊢
  generalize n' w' k' s' = o' at result states ⊢
  obtain ⟨r, t, took⟩ := o
  obtain ⟨r', t', took'⟩ := o'
  cases (show r = r' from result)
  cases r with
  | ok b => exact rest b (k + took) (k' + took') t t' (Nat.le_add_right_of_le later) states
  | pending => exact ⟨rfl, states⟩
  | err e => exact ⟨rfl, states⟩
  | panicked message => exact ⟨rfl, states⟩

/-- Each side looks at its own state. -/
theorem mirrors_get {f : σ → Polling ω ε σ α} {f' : σ' → Polling ω' ε σ' α}
    (h : ∀ s s', P s s' → Mirrors w since w' P (f s) (f' s')) :
    Mirrors w since w' P (get >>= f) (get >>= f') :=
  fun k k' s s' later hs => h s s' hs k k' s s' later hs

/-- Both sides take the same branch. -/
theorem mirrors_ite {c : Prop} [Decidable c] {n : Polling ω ε σ α} {n' : Polling ω' ε σ' α}
    (yes : Mirrors w since w' P m m') (no : Mirrors w since w' P n n') :
    Mirrors w since w' P (if c then m else n) (if c then m' else n') := by
  by_cases h : c
  · rwa [if_pos h, if_pos h]
  · rwa [if_neg h, if_neg h]

/-- Both sides work on related parts. -/
theorem mirrors_zoom {R : τ → τ' → Prop} {m : Polling ω ε τ α} {m' : Polling ω' ε τ' α}
    {get : σ → τ} {get' : σ' → τ'} {set : σ → τ → σ} {set' : σ' → τ' → σ'}
    (h : Mirrors w since w' R m m') (look : ∀ s s', P s s' → R (get s) (get' s'))
    (frame : ∀ s s' t t', P s s' → R t t' → P (set s t) (set' s' t')) :
    Mirrors w since w' P (m.zoom get set) (m'.zoom get' set') := by
  intro k k' s s' later hs
  obtain ⟨result, states⟩ := h k k' _ _ later (look s s' hs)
  exact ⟨result, frame s s' _ _ hs states⟩

/-- Both sides lend the same value. -/
theorem mirrors_lend {b : β} {m : Polling ω ε (σ × β) α} {m' : Polling ω' ε (σ' × β) α}
    (h : Mirrors w since w' (fun s s' => P s.1 s'.1 ∧ s.2 = s'.2) m m') :
    Mirrors w since w' P (m.lend b) (m'.lend b) := by
  intro k k' s s' later hs
  obtain ⟨result, states, same⟩ := h k k' (s, b) (s', b) later ⟨hs, rfl⟩
  refine ⟨?_, states⟩
  show (m w k (s, b)).result.map _ = (m' w' k' (s', b)).result.map _
  rw [result, same]

/-- Both sides go on when they are pending. -/
theorem mirrors_orPending (h : Mirrors w since w' P m m') :
    Mirrors w since w' P m.orPending m'.orPending := by
  intro k k' s s' later hs
  obtain ⟨result, states⟩ := h k k' s s' later hs
  unfold orPending
  generalize m w k s = o at result states ⊢
  generalize m' w' k' s' = o' at result states ⊢
  obtain ⟨r, t, took⟩ := o
  obtain ⟨r', t', took'⟩ := o'
  cases (show r = r' from result)
  cases r with
  | ok a => exact ⟨rfl, states⟩
  | pending => exact ⟨rfl, states⟩
  | err e => exact ⟨rfl, states⟩
  | panicked message => exact ⟨rfl, states⟩

end Polling

end Trixter.Lib
