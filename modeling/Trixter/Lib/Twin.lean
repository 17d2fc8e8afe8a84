import Trixter.Lib.Poll

/-!
# Twin polls and forwarded polls

Two programs polled side by side, in the same world and at the same moment, each from a state of its
own. `Twin` is the weakest precondition of the pair: the answers are the same, they take equally
long, and the states left satisfy a relation. The rules follow those of `wp`. `Forwards` is the case
of an adapter that gets out of the way.
-/

namespace Trixter.Lib

namespace Polling

variable {ω ε σ σ' τ τ' α β : Type}

/-- One poll of each gives the same answer in the same time, and leaves states related by `Q`. -/
def Twin (m : Polling ω ε σ α) (m' : Polling ω ε σ' α) (w : ω) (k : Nat) (s : σ) (s' : σ')
    (Q : Poll ε α → σ → σ' → Prop) : Prop :=
  (m w k s).result = (m' w k s').result ∧ (m w k s).took = (m' w k s').took ∧
    Q (m w k s).result (m w k s).state (m' w k s').state

variable {m : Polling ω ε σ α} {m' : Polling ω ε σ' α} {w : ω} {k : Nat} {s : σ} {s' : σ'}
  {Q R : Poll ε α → σ → σ' → Prop}

theorem twin_mono (h : Twin m m' w k s s' Q) (imp : ∀ r t t', Q r t t' → R r t t') :
    Twin m m' w k s s' R := ⟨h.1, h.2.1, imp _ _ _ h.2.2⟩

theorem twin_pure {a : α} (h : Q (.ok a) s s') :
    Twin (pure a : Polling ω ε σ α) (pure a : Polling ω ε σ' α) w k s s' Q := ⟨rfl, rfl, h⟩

theorem twin_panic {message : String} (h : Q (.panicked message) s s') :
    Twin (panic message : Polling ω ε σ α) (panic message : Polling ω ε σ' α) w k s s' Q :=
  ⟨rfl, rfl, h⟩

/-- Both sides go on from the same value, or both stop with the same answer. -/
theorem twin_bind {f : α → Polling ω ε σ β} {f' : α → Polling ω ε σ' β}
    {Q : Poll ε β → σ → σ' → Prop}
    (h : Twin m m' w k s s' fun r t t' =>
      match r with
      | .ok a => ∀ k, Twin (f a) (f' a) w k t t' Q
      | .pending => Q .pending t t'
      | .err e => Q (.err e) t t'
      | .panicked msg => Q (.panicked msg) t t') :
    Twin (m >>= f) (m' >>= f') w k s s' Q := by
  show Twin (Polling.bind m f) (Polling.bind m' f') w k s s' Q
  obtain ⟨result, took, rest⟩ := h
  unfold Twin Polling.bind
  generalize m w k s = o at result took rest ⊢
  generalize m' w k s' = o' at result took rest ⊢
  obtain ⟨r, t, n⟩ := o
  obtain ⟨r', t', n'⟩ := o'
  cases (show r = r' from result)
  cases (show n = n' from took)
  cases r with
  | ok a =>
    have rest := rest (k + n)
    exact ⟨rest.1, congrArg (n + ·) rest.2.1, rest.2.2⟩
  | pending => exact ⟨rfl, rfl, rest⟩
  | err e => exact ⟨rfl, rfl, rest⟩
  | panicked msg => exact ⟨rfl, rfl, rest⟩

/-- Both sides take the same branch. -/
theorem twin_ite {c : Prop} [Decidable c] {n : Polling ω ε σ α} {n' : Polling ω ε σ' α}
    (yes : c → Twin m m' w k s s' Q) (no : ¬c → Twin n n' w k s s' Q) :
    Twin (if c then m else n) (if c then m' else n') w k s s' Q := by
  by_cases h : c
  · rw [if_pos h, if_pos h]
    exact yes h
  · rw [if_neg h, if_neg h]
    exact no h

/-- Each side may look at its own state. -/
theorem twin_get {f : σ → Polling ω ε σ β} {f' : σ' → Polling ω ε σ' β}
    {Q : Poll ε β → σ → σ' → Prop} (h : Twin (f s) (f' s') w k s s' Q) :
    Twin (get >>= f) (get >>= f') w k s s' Q := by
  obtain ⟨result, took, rest⟩ := h
  exact ⟨result, congrArg (0 + ·) took, rest⟩

/-- Each side may change its own state. -/
theorem twin_modify {g : σ → σ} {g' : σ' → σ'} {Q : Poll ε Unit → σ → σ' → Prop}
    (h : Q (.ok ()) (g s) (g' s')) :
    Twin (modify g : Polling ω ε σ Unit) (modify g' : Polling ω ε σ' Unit) w k s s' Q :=
  ⟨rfl, rfl, h⟩

/-- Twin programs of parts are twin programs of the wholes. -/
theorem twin_zoom {m : Polling ω ε τ α} {m' : Polling ω ε τ' α} {get : σ → τ} {get' : σ' → τ'}
    {set : σ → τ → σ} {set' : σ' → τ' → σ'}
    (h : Twin m m' w k (get s) (get' s') fun r t t' => Q r (set s t) (set' s' t')) :
    Twin (m.zoom get set) (m'.zoom get' set') w k s s' Q := h

/-- A program is its own twin on a part that the two states share. -/
theorem twin_shared {m : Polling ω ε τ α} {get : σ → τ} {get' : σ' → τ} {set : σ → τ → σ}
    {set' : σ' → τ → σ'} (same : get s = get' s')
    (h : m.wp w k (get s) fun r t _ => Q r (set s t) (set' s' t)) :
    Twin (m.zoom get set) (m.zoom get' set') w k s s' Q := by
  unfold Twin zoom
  rw [← same]
  exact ⟨rfl, rfl, h⟩

/-- Lent values are given back on both sides. -/
theorem twin_lend {b : β} {m : Polling ω ε (σ × β) α} {m' : Polling ω ε (σ' × β) α}
    {Q : Poll ε β → σ → σ' → Prop}
    (h : Twin m m' w k (s, b) (s', b) fun r t t' => t.2 = t'.2 ∧ Q (r.map fun _ => t.2) t.1 t'.1) :
    Twin (m.lend b) (m'.lend b) w k s s' Q := by
  obtain ⟨result, took, same, rest⟩ := h
  refine ⟨?_, took, rest⟩
  show Poll.map _ _ = Poll.map _ _
  rw [result, same]

/-- Both sides find the same. -/
theorem twin_observe {f : ω → Nat → σ → α} {f' : ω → Nat → σ' → α}
    (same : f w k s = f' w k s') (h : Q (.ok (f w k s)) s s') :
    Twin (observe f : Polling ω ε σ α) (observe f') w k s s' Q :=
  ⟨congrArg Poll.ok same, rfl, h⟩

/-- Pending answers are turned into successes on both sides. -/
theorem twin_orPending {Q : Poll ε (Option α) → σ → σ' → Prop}
    (h : Twin m m' w k s s' fun r t t' =>
      match r with
      | .ok a => Q (.ok (some a)) t t'
      | .pending => Q (.ok none) t t'
      | .err e => Q (.err e) t t'
      | .panicked msg => Q (.panicked msg) t t') :
    Twin m.orPending m'.orPending w k s s' Q := by
  obtain ⟨result, took, rest⟩ := h
  unfold Twin orPending
  generalize m w k s = o at result took rest ⊢
  generalize m' w k s' = o' at result took rest ⊢
  obtain ⟨r, t, n⟩ := o
  obtain ⟨r', t', n'⟩ := o'
  cases (show r = r' from result)
  cases (show n = n' from took)
  cases r <;> exact ⟨rfl, rfl, rest⟩

end Polling

namespace Machine

variable {σ τ ι ο : Type} {m : Machine σ ι ο} {m' : Machine τ ι ο} {P : σ → τ → Prop}

/-- Machines whose steps answer alike have the same histories. -/
theorem runFrom_twin
    (step : ∀ s t i, P s t → (m.step s i).1 = (m'.step t i).1 ∧ P (m.step s i).2 (m'.step t i).2)
    {past : History ι ο} {s : σ} {t : τ} (start : P s t) (is : List ι) :
    (m.runFrom past s is).1 = (m'.runFrom past t is).1 ∧
      P (m.runFrom past s is).2 (m'.runFrom past t is).2 := by
  induction is generalizing past s t with
  | nil => exact ⟨rfl, start⟩
  | cons i is ih =>
    obtain ⟨same, next⟩ := step s t i start
    rw [runFrom, runFrom, ← same]
    exact ih next

/-- The same from the start. -/
theorem run_twin
    (step : ∀ s t i, P s t → (m.step s i).1 = (m'.step t i).1 ∧ P (m.step s i).2 (m'.step t i).2)
    {s : σ} {t : τ} (start : P s t) (is : List ι) :
    (m.run s is).1 = (m'.run t is).1 ∧ P (m.run s is).2 (m'.run t is).2 :=
  runFrom_twin step start is

/-- A condition that twin states agree about allows the same runs of both. -/
theorem allowedFrom_twin
    (step : ∀ s t i, P s t → (m.step s i).1 = (m'.step t i).1 ∧ P (m.step s i).2 (m'.step t i).2)
    {C : History ι ο → σ → ι → Prop} {D : History ι ο → τ → ι → Prop}
    (same : ∀ past s t i, P s t → (C past s i ↔ D past t i)) {past : History ι ο} {s : σ} {t : τ}
    (start : P s t) (is : List ι) : m.AllowedFrom C past s is ↔ m'.AllowedFrom D past t is := by
  induction is generalizing past s t with
  | nil => exact Iff.rfl
  | cons i is ih =>
    obtain ⟨answer, next⟩ := step s t i start
    rw [AllowedFrom, AllowedFrom, ← answer, ih next]
    exact and_congr_left' (same past s t i start)

end Machine

namespace Polling

/-! ## Forwarded polls

An adapter that gets out of the way answers a poll with one poll of what it wraps. `Forwards` says
that of two programs: made at some later moment, the poll of the inner one gives the answer, ends
when the outer one ends, and its state, put back in place, is all that changed. -/

variable {ω ε σ τ υ α β : Type}

/-- One poll of `m` at moment `k` is one poll of `m'` at moment `j`. The adapter in state `s` holds
the inner state `t`, and `put` replaces it. -/
structure Forwards (m : Polling ω ε σ α) (m' : Polling ω ε τ α) (w : ω) (k : Nat) (s : σ) (j : Nat)
    (t : τ) (put : τ → σ) : Prop where
  later : k ≤ j
  result : (m w k s).result = (m' w j t).result
  state : (m w k s).state = put (m' w j t).state
  ends : k + (m w k s).took = j + (m' w j t).took

variable {m : Polling ω ε σ α} {m' : Polling ω ε τ α} {m'' : Polling ω ε υ α} {w : ω} {k j i : Nat}
  {s : σ} {t : τ} {u : υ} {put : τ → σ} {put' : υ → τ}

/-- It is enough that the two have the same preconditions. -/
theorem forwards_of_wp (later : k ≤ j)
    (same : ∀ Q, m.wp w k s Q ↔ m'.wp w j t fun r t' k' => Q r (put t') k') :
    Forwards m m' w k s j t put := by
  have spec := (same fun r s' k' => r = (m' w j t).result ∧ s' = put (m' w j t).state ∧
    k' = j + (m' w j t).took).mpr ⟨rfl, rfl, rfl⟩
  exact ⟨later, spec.1, spec.2.1, spec.2.2⟩

/-- And they have. -/
theorem Forwards.wp_iff (h : Forwards m m' w k s j t put) {Q : Poll ε α → σ → Nat → Prop} :
    m.wp w k s Q ↔ m'.wp w j t fun r t' k' => Q r (put t') k' := by
  unfold wp
  rw [h.result, h.state, h.ends]

/-- A forwarded poll may be forwarded further. -/
theorem Forwards.trans (h : Forwards m m' w k s j t put) (h' : Forwards m' m'' w j t i u put') :
    Forwards m m'' w k s i u (put ∘ put') where
  later := Nat.le_trans h.later h'.later
  result := h.result.trans h'.result
  state := h.state.trans (congrArg put h'.state)
  ends := h.ends.trans h'.ends

/-- Both sides may read the same off the answer. -/
theorem Forwards.map {f : α → β} (h : Forwards m m' w k s j t put) :
    Forwards (m >>= fun a => pure (f a)) (m' >>= fun a => pure (f a)) w k s j t put := by
  refine forwards_of_wp h.later fun Q => ?_
  rw [wp_map, wp_map]
  exact h.wp_iff

/-- Both sides may lend the same value. -/
theorem Forwards.lend {b : β} {m : Polling ω ε (σ × β) α} {m' : Polling ω ε (τ × β) α}
    (h : Forwards m m' w k (s, b) j (t, b) fun t' => (put t'.1, t'.2)) :
    Forwards (m.lend b) (m'.lend b) w k s j t put := by
  refine forwards_of_wp h.later fun Q => ?_
  rw [wp_lend, wp_lend]
  exact h.wp_iff

end Polling

end Trixter.Lib
