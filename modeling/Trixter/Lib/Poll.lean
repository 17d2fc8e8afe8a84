import Mathlib.Tactic.Common
import Trixter.Lib.Runs

/-!
# Poll programs

A poll is one step of an asynchronous operation: it answers at once, fails, says it has to be
polled again, or unwinds. `Polling` is the monad such steps are written in. A poll program reads
a world it cannot change, one moment after another, and changes a state of its own; its bind is
the early return `ready!(…)?`, so anything but an `ok` ends the program there.

`wp` is the weakest precondition of one poll, and the `wp_…` lemmas push it through the program:
a law about a poll is proved by walking its source lines with them.
-/

namespace Trixter.Lib

/-- What one poll answers. `ok` and `err` are the two kinds of `Ready`. -/
inductive Poll (ε α : Type) where
  | pending
  | err (e : ε)
  | ok (a : α)
  | panicked (message : String)
  deriving DecidableEq, Repr

namespace Poll

variable {ε α β : Type}

/-- `Poll::map_ok`. -/
def map (f : α → β) : Poll ε α → Poll ε β
  | .pending => .pending
  | .err e => .err e
  | .ok a => .ok (f a)
  | .panicked m => .panicked m

/-- The answer is a success. -/
def isOk : Poll ε α → Bool
  | .ok _ => true
  | _ => false

/-- The value of a success. -/
def value? : Poll ε α → Option α
  | .ok a => some a
  | _ => none

theorem mem_value? {r : Poll ε α} {a : α} : a ∈ r.value? ↔ r = .ok a := by
  cases r <;> simp [value?]

/-- An answer is a success or it is not. -/
theorem ok_or (r : Poll ε α) : (∃ a, r = .ok a) ∨ ∀ a, r ≠ .ok a := by
  cases r with
  | ok a => exact .inl ⟨a, rfl⟩
  | _ => exact .inr fun _ h => by cases h

theorem isOk_iff {r : Poll ε α} : r.isOk = true ↔ ∃ a, r = .ok a := by
  cases r <;> simp [isOk]

@[simp] theorem map_ok (f : α → β) (a : α) : (ok a : Poll ε α).map f = .ok (f a) := rfl

@[simp] theorem map_map {γ : Type} (f : α → β) (g : β → γ) (r : Poll ε α) :
    (r.map f).map g = r.map fun a => g (f a) := by
  cases r <;> rfl

@[simp] theorem map_eq_pending {f : α → β} {r : Poll ε α} : r.map f = .pending ↔ r = .pending := by
  cases r <;> simp [map]

@[simp] theorem map_eq_err {f : α → β} {r : Poll ε α} {e : ε} : r.map f = .err e ↔ r = .err e := by
  cases r <;> simp [map]

@[simp] theorem map_eq_panicked {f : α → β} {r : Poll ε α} {m : String} :
    r.map f = .panicked m ↔ r = .panicked m := by
  cases r <;> simp [map]

end Poll

/-- The end of one poll: its answer, the state it leaves, and how many moments it read. -/
structure Outcome (ε σ α : Type) where
  result : Poll ε α
  state : σ
  took : Nat
  deriving DecidableEq, Repr

/-- A poll program over the world `ω`, started at a moment and in a state. -/
def Polling (ω ε σ α : Type) : Type := ω → Nat → σ → Outcome ε σ α

namespace Polling

variable {ω ε σ τ α β : Type}

/-- Ready at once. -/
protected def pure (a : α) : Polling ω ε σ α := fun _ _ s => ⟨.ok a, s, 0⟩

/-- `ready!(m)?`, then the rest. -/
protected def bind (m : Polling ω ε σ α) (f : α → Polling ω ε σ β) : Polling ω ε σ β :=
  fun w k s =>
    match m w k s with
    | ⟨.pending, s', n⟩ => ⟨.pending, s', n⟩
    | ⟨.err e, s', n⟩ => ⟨.err e, s', n⟩
    | ⟨.panicked msg, s', n⟩ => ⟨.panicked msg, s', n⟩
    | ⟨.ok a, s', n⟩ =>
      let o := f a w (k + n) s'
      ⟨o.result, o.state, n + o.took⟩

instance : Monad (Polling ω ε σ) where
  pure := Polling.pure
  bind := Polling.bind

/-- The state as it is. -/
def get : Polling ω ε σ σ := fun _ _ s => ⟨.ok s, s, 0⟩

/-- Change the state. -/
def modify (f : σ → σ) : Polling ω ε σ Unit := fun _ _ s => ⟨.ok (), f s, 0⟩

/-- Change the state and answer with something read off it. -/
def modifyGet (f : σ → α × σ) : Polling ω ε σ α := fun _ _ s => ⟨.ok (f s).1, (f s).2, 0⟩

/-- Read the world at this moment. The next read happens at the next moment, so two reads of one
program may differ. -/
def observe (f : ω → Nat → σ → α) : Polling ω ε σ α := fun w k s => ⟨.ok (f w k s), s, 1⟩

/-- Not ready. -/
def pend : Polling ω ε σ α := fun _ _ s => ⟨.pending, s, 0⟩

/-- Ready with an error. -/
def fail (e : ε) : Polling ω ε σ α := fun _ _ s => ⟨.err e, s, 0⟩

/-- Unwind. -/
def panic (message : String) : Polling ω ε σ α := fun _ _ s => ⟨.panicked message, s, 0⟩

/-- Poll `m` and go on when it is pending: `none` is the pending answer. -/
def orPending (m : Polling ω ε σ α) : Polling ω ε σ (Option α) := fun w k s =>
  match m w k s with
  | ⟨.pending, s', n⟩ => ⟨.ok none, s', n⟩
  | ⟨.err e, s', n⟩ => ⟨.err e, s', n⟩
  | ⟨.panicked msg, s', n⟩ => ⟨.panicked msg, s', n⟩
  | ⟨.ok a, s', n⟩ => ⟨.ok (some a), s', n⟩

/-- Poll a program of another state, and go on with its answer, whatever it is, and what it left. -/
def inside (t : τ) (m : Polling ω ε τ α) : Polling ω ε σ (Poll ε α × τ) := fun w k s =>
  let o := m w k t
  ⟨.ok (o.result, o.state), s, o.took⟩

/-- Run a program of a part on the whole. -/
def zoom (get : σ → τ) (set : σ → τ → σ) (m : Polling ω ε τ α) : Polling ω ε σ α :=
  fun w k s =>
    let o := m w k (get s)
    ⟨o.result, set s o.state, o.took⟩

/-! ## Weakest preconditions -/

/-- After one poll of `m`, `Q` holds of the answer, the state and the next moment. -/
def wp (m : Polling ω ε σ α) (w : ω) (k : Nat) (s : σ) (Q : Poll ε α → σ → Nat → Prop) : Prop :=
  Q (m w k s).result (m w k s).state (k + (m w k s).took)

variable {w : ω} {k : Nat} {s : σ} {Q R : Poll ε α → σ → Nat → Prop}

/-- `wp` says its postcondition of the actual outcome. -/
theorem wp_iff {m : Polling ω ε σ α} :
    m.wp w k s Q ↔ Q (m w k s).result (m w k s).state (k + (m w k s).took) := Iff.rfl

/-- Weakening the postcondition. -/
theorem wp_mono {m : Polling ω ε σ α} (h : m.wp w k s Q) (imp : ∀ r s' k', Q r s' k' → R r s' k') :
    m.wp w k s R :=
  imp _ _ _ h

/-- A poll that is known to answer `r` has one outcome, of which every postcondition is told. -/
theorem exists_outcome {m : Polling ω ε σ α} {a : Poll ε α} {P : σ → Prop}
    (h : m.wp w k s fun r s' _ => r = a ∧ P s') :
    ∃ s' k', P s' ∧ ∀ Q, m.wp w k s Q ↔ Q a s' k' := by
  refine ⟨(m w k s).state, k + (m w k s).took, h.2, fun Q => ?_⟩
  have result : (m w k s).result = a := h.1
  rw [wp_iff, result]

/-- Postconditions that say the same. -/
theorem wp_congr {m : Polling ω ε σ α} (same : ∀ r s' k', Q r s' k' ↔ R r s' k') :
    m.wp w k s Q ↔ m.wp w k s R :=
  same _ _ _

/-- Two postconditions of one poll hold together. -/
theorem wp_and {m : Polling ω ε σ α} (hq : m.wp w k s Q) (hr : m.wp w k s R) :
    m.wp w k s (fun r s' k' => Q r s' k' ∧ R r s' k') :=
  ⟨hq, hr⟩

/-- Every poll ends at a moment not before its start. -/
theorem wp_later (m : Polling ω ε σ α) : m.wp w k s (fun _ _ k' => k ≤ k') := by
  unfold wp
  exact Nat.le_add_right _ _

@[simp] theorem wp_pure (a : α) : (pure a : Polling ω ε σ α).wp w k s Q ↔ Q (.ok a) s k := Iff.rfl

/-- A bind either goes on from an `ok` or stops with the first program's answer. -/
theorem wp_bind {m : Polling ω ε σ β} {f : β → Polling ω ε σ α} :
    (m >>= f).wp w k s Q ↔
      m.wp w k s (fun r s' k' =>
        match r with
        | .ok b => (f b).wp w k' s' Q
        | .pending => Q .pending s' k'
        | .err e => Q (.err e) s' k'
        | .panicked msg => Q (.panicked msg) s' k') := by
  show (Polling.bind m f).wp w k s Q ↔ _
  unfold wp Polling.bind
  rcases m w k s with ⟨r, s', n⟩
  cases r <;> simp only [Nat.add_assoc]

/-- A bind fails with its first program. -/
theorem wp_bind_err {m : Polling ω ε σ β} {f : β → Polling ω ε σ α} {e : ε}
    (h : (m w k s).result = .err e) : (m >>= f).wp w k s fun r _ _ => r = .err e := by
  rw [wp_bind]
  refine wp_mono (Q := fun r _ _ => r = .err e) h ?_
  rintro _ s' k' rfl
  rfl

/-- A bind stops with its first program, unless that succeeds. -/
theorem wp_bind_stop {m : Polling ω ε σ α} {f : α → Polling ω ε σ α} {a : Poll ε α}
    (h : (m w k s).result = a) (stop : ∀ b, a ≠ .ok b) :
    (m >>= f).wp w k s fun r _ _ => r = a := by
  rw [wp_bind]
  refine wp_mono (Q := fun r _ _ => r = a) h ?_
  rintro (_ | e | b | msg) s' k' rfl
  · rfl
  · rfl
  · exact absurd rfl (stop b)
  · rfl

/-- Changing only the answer. -/
theorem wp_map {m : Polling ω ε σ β} {f : β → α} :
    (m >>= fun b => pure (f b)).wp w k s Q ↔ m.wp w k s fun r s' k' => Q (r.map f) s' k' := by
  rw [wp_bind]
  unfold wp
  cases (m w k s).result <;> rfl

@[simp] theorem wp_get {Q : Poll ε σ → σ → Nat → Prop} :
    (get : Polling ω ε σ σ).wp w k s Q ↔ Q (.ok s) s k := Iff.rfl

@[simp] theorem wp_modify {f : σ → σ} {Q : Poll ε Unit → σ → Nat → Prop} :
    (modify f : Polling ω ε σ Unit).wp w k s Q ↔ Q (.ok ()) (f s) k := Iff.rfl

@[simp] theorem wp_modifyGet {f : σ → α × σ} :
    (modifyGet f : Polling ω ε σ α).wp w k s Q ↔ Q (.ok (f s).1) (f s).2 k := Iff.rfl

@[simp] theorem wp_observe {f : ω → Nat → σ → α} :
    (observe f : Polling ω ε σ α).wp w k s Q ↔ Q (.ok (f w k s)) s (k + 1) := Iff.rfl

@[simp] theorem wp_pend : (pend : Polling ω ε σ α).wp w k s Q ↔ Q .pending s k := Iff.rfl

@[simp] theorem wp_fail {e : ε} : (fail e : Polling ω ε σ α).wp w k s Q ↔ Q (.err e) s k := Iff.rfl

@[simp] theorem wp_panic {message : String} :
    (panic message : Polling ω ε σ α).wp w k s Q ↔ Q (.panicked message) s k := Iff.rfl

theorem wp_orPending {m : Polling ω ε σ β} {Q : Poll ε (Option β) → σ → Nat → Prop} :
    m.orPending.wp w k s Q ↔
      m.wp w k s (fun r s' k' =>
        match r with
        | .ok b => Q (.ok (some b)) s' k'
        | .pending => Q (.ok none) s' k'
        | .err e => Q (.err e) s' k'
        | .panicked msg => Q (.panicked msg) s' k') := by
  unfold wp orPending
  rcases m w k s with ⟨r, s', n⟩
  cases r <;> rfl

@[simp] theorem wp_inside {t : τ} {m : Polling ω ε τ β}
    {Q : Poll ε (Poll ε β × τ) → σ → Nat → Prop} :
    (inside t m).wp w k s Q ↔ m.wp w k t fun r t' k' => Q (.ok (r, t')) s k' := Iff.rfl

@[simp] theorem wp_zoom {get : σ → τ} {set : σ → τ → σ} {m : Polling ω ε τ α} :
    (m.zoom get set).wp w k s Q ↔ m.wp w k (get s) (fun r t k' => Q r (set s t) k') := Iff.rfl

/-- A branch of the program is a branch of the precondition. -/
theorem wp_ite {c : Prop} [Decidable c] {m n : Polling ω ε σ α} :
    (if c then m else n).wp w k s Q ↔ if c then m.wp w k s Q else n.wp w k s Q := by
  split <;> rfl

/-! ## Where errors come from -/

/-- The program never answers with the error `e`. -/
def Spares (e : ε) (m : Polling ω ε σ α) : Prop := ∀ w k s, (m w k s).result ≠ .err e

section Spares

variable {e : ε}

theorem spares_pure (a : α) : Spares e (pure a : Polling ω ε σ α) := fun _ _ _ h => by cases h

theorem spares_get : Spares e (get : Polling ω ε σ σ) := fun _ _ _ h => by cases h

theorem spares_modify (f : σ → σ) : Spares e (modify f : Polling ω ε σ Unit) :=
  fun _ _ _ h => by cases h

theorem spares_pend : Spares e (pend : Polling ω ε σ α) := fun _ _ _ h => by cases h

theorem spares_panic (message : String) : Spares e (panic message : Polling ω ε σ α) :=
  fun _ _ _ h => by cases h

/-- An error of a bind is an error of one of its parts. -/
theorem spares_bind {m : Polling ω ε σ β} {f : β → Polling ω ε σ α} (hm : Spares e m)
    (hf : ∀ b, Spares e (f b)) : Spares e (m >>= f) := by
  intro w k s h
  change (Polling.bind m f w k s).result = _ at h
  unfold Polling.bind at h
  have hm := hm w k s
  rcases hm' : m w k s with ⟨r, s', n⟩
  rw [hm'] at h hm
  cases r with
  | ok b => exact hf b w (k + n) s' h
  | err e' => cases h; exact hm rfl
  | pending => cases h
  | panicked msg => cases h

theorem spares_zoom {get : σ → τ} {set : σ → τ → σ} {m : Polling ω ε τ α} (h : Spares e m) :
    Spares e (m.zoom get set) := fun w k s => h w k (get s)

theorem spares_ite {c : Prop} [Decidable c] {m n : Polling ω ε σ α} (hm : Spares e m)
    (hn : Spares e n) : Spares e (if c then m else n) := by
  split
  · exact hm
  · exact hn

end Spares

end Polling

/-! ## Again and again

An object whose inputs are poll programs is a machine: each input runs one program, from the moment
the last one ended at. Nothing observes the world between two polls, so the moments of a run are
numbered without gaps, and a run in an arbitrary world is a run under an arbitrary schedule. -/

/-- A state between polls, with the moment at which the next poll starts. -/
structure Paced (σ : Type) where
  moment : Nat
  state : σ
  deriving DecidableEq, Repr

namespace Polling

variable {ω ε σ β ι α : Type}

/-- The machine that answers each input with one poll of its program. -/
def machine (w : ω) (program : ι → Polling ω ε σ α) : Machine (Paced σ) ι (Poll ε α) where
  step s i :=
    let o := program i w s.moment s.state
    (o.result, ⟨s.moment + o.took, o.state⟩)

variable {w : ω} {program : ι → Polling ω ε σ α}

/-- What is known of the poll is known of the machine's step. -/
theorem machine_step {s : Paced σ} {i : ι} {Q : Poll ε α → σ → Nat → Prop}
    (h : (program i).wp w s.moment s.state Q) :
    Q ((machine w program).step s i).1 ((machine w program).step s i).2.state
      ((machine w program).step s i).2.moment := h

/-- Run a program that borrows a value besides the state; the value comes back with the answer. -/
def lend (b : β) (m : Polling ω ε (σ × β) α) : Polling ω ε σ β := fun w k s =>
  let o := m w k (s, b)
  ⟨o.result.map fun _ => o.state.2, o.state.1, o.took⟩

theorem wp_lend {b : β} {m : Polling ω ε (σ × β) α} {k : Nat} {s : σ}
    {Q : Poll ε β → σ → Nat → Prop} :
    (m.lend b).wp w k s Q ↔
      m.wp w k (s, b) fun r s' k' => Q (r.map fun _ => s'.2) s'.1 k' := Iff.rfl

theorem spares_lend {e : ε} {b : β} {m : Polling ω ε (σ × β) α} (h : Spares e m) :
    Spares e (m.lend b) := fun w k s hr => h w k (s, b) (Poll.map_eq_err.mp hr)

end Polling

end Trixter.Lib
