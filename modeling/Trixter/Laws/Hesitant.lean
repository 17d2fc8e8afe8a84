import Trixter.Laws.Backlog
import Trixter.Ledger

/-!
# Inner writers that hesitate

Two inner writers that accept the same bytes, of which one has to be polled more often. A run over the
hesitant one is held against the run of the same writes over the other, in which each write is made once
it has been answered here. `agree_twice`: where two runs agree with one such run and have come to the
same writes, they agree with each other. `Backlog.served_hesitates` is the step lemma of what both
synthetic-data adapters do below their draws.

An adapter that draws does not enter here, and nothing is said of when a write is answered.
-/

namespace Trixter

open Trixter.Lib Polling

section Writers

variable {T U : Type} [AsyncWrite T] [AsyncWrite U] {R : T → U → Prop}

/-- Where `R` relates their states, a poll of `T` is pending and nothing has happened, or it is answered
as a poll of `U` is. -/
def Hesitates (R : T → U → Prop) : Prop :=
  ∀ ⦃t u⦄, R t u → ∀ (op : WriteOp) env k k',
    op.poll.wp env k t fun r t' _ =>
      r = .pending ∧ R t' u ∨
        r ≠ .pending ∧ op.poll.wp env k' u fun r' u' _ => r' = r ∧ R t' u'

end Writers

/-- Sinks that answer alike receive alike. -/
theorem Hesitates.received {T U : Type} [Sink T] [Sink U] {R : T → U → Prop} (h : Hesitates R) :
    Hesitates fun t u => R t u ∧ received t = received u := by
  rintro t u ⟨hR, same⟩ op env k k'
  have wrote := (@Contract.op _ _ _ _ Sink.contract env k t op trivial).2.moved
  have wrote' := (@Contract.op _ _ _ _ Sink.contract env k' u op trivial).2.moved
  rcases wp_iff.mp (h hR op env k k') with ⟨pending, hR⟩ | ⟨answered, result, hR⟩
  · refine .inl ⟨pending, hR, ?_⟩
    rw [wrote, pending, accepted_pending, List.append_nil, same]
  · refine .inr ⟨answered, result, hR, ?_⟩
    show Trixter.received _ = Trixter.received (op.poll env k' u).state
    rw [wrote, wrote', same, result]

/-! ## A run beside another -/

/-- The polls of a writer, as a machine. -/
abbrev WriteMachine (σ : Type) := Machine σ WriteOp (Poll IoError Nat)

/-- What is held beside a run: the other run, the write that is waiting, and whether a write that was
waiting has drawn again. -/
structure Alongside (σ : Type) where
  other : σ
  waiting : Option WriteOp
  shifted : Bool

namespace Alongside

/-- Before the first poll. -/
def start {σ : Type} (other : σ) : Alongside σ := { other, waiting := none, shifted := false }

/-- After a poll. An answer is the other run's turn. -/
def after {σ : Type} (m : WriteMachine σ) (op : WriteOp) (r : Poll IoError Nat) (drew : Bool)
    (g : Alongside σ) : Alongside σ where
  other := if r = .pending then g.other else (m.step g.other op).2
  waiting := if r = .pending then some op else none
  shifted := g.shifted || g.waiting.isSome && drew

end Alongside

section Runs

variable {σ σ' : Type} (m : WriteMachine σ) (m' : WriteMachine σ')

/-- The polls of `m`, with the run of `m'` beside. -/
def alongside (draws : σ → WriteOp → Bool) : Machine (σ × Alongside σ') WriteOp (Poll IoError Nat) :=
  m.watched fun g s op => g.after m' op (m.step s op).1 (draws s op)

/-- A write that is waiting is polled again. -/
def Repolled (s : σ × Alongside σ') (op : WriteOp) : Prop := ∀ waiting ∈ s.2.waiting, op = waiting

instance (s : σ × Alongside σ') (op : WriteOp) : Decidable (Repolled s op) :=
  inferInstanceAs (Decidable (∀ _ ∈ _, _ = _))

/-- A draw that hits is the first of its write, and no write that was waiting has drawn before. -/
def InStep (hits : σ → WriteOp → Prop) (s : σ × Alongside σ') (op : WriteOp) : Prop :=
  hits s.1 op → s.2.waiting = none ∧ s.2.shifted = false

instance (hits : σ → WriteOp → Prop) [∀ s op, Decidable (hits s op)] (s : σ × Alongside σ')
    (op : WriteOp) : Decidable (InStep hits s op) := inferInstanceAs (Decidable (_ → _ ∧ _))

/-- The write waits, or it is answered as in the other run and the same bytes have arrived. -/
def Agrees (wire : σ → List UInt8) (wire' : σ' → List UInt8) (s : σ × Alongside σ') (op : WriteOp) :
    Prop :=
  (m.step s.1 op).1 = .pending ∨
    (m'.step s.2.other op).1 = (m.step s.1 op).1 ∧
      wire (m.step s.1 op).2 = wire' (m'.step s.2.other op).2

/-- A caller's writes with the answers they got in the end. -/
def concluded (past : Writes) : Writes := past.filter fun e => e.2 ≠ .pending

/-- The same writes without the answers. -/
def concludedOps (past : Writes) : List WriteOp := (concluded past).map Prod.fst

variable {m m'} {draws : σ → WriteOp → Bool} {wire : σ → List UInt8} {wire' : σ' → List UInt8}

theorem concluded_snoc {past : Writes} {op : WriteOp} {r : Poll IoError Nat} :
    concluded (past ++ [(op, r)]) =
      concluded past ++ if r = .pending then [] else [(op, r)] := by
  unfold concluded
  rw [List.filter_append]
  by_cases waits : r = .pending <;> simp [waits]

/-- **A run that agrees** has got the answers of the other run of the writes it has come to, and left
the same bytes. -/
theorem agrees_concluded {s : σ} {p : σ'} (same : wire s = wire' p) {run : List WriteOp}
    (agrees : (alongside m m' draws).Allowed (fun _ => Agrees m m' wire wire') (s, .start p) run) :
    let last := (alongside m m' draws).run (s, .start p) run
    m'.run p (concludedOps last.1) = (concluded last.1, last.2.2.other) ∧
      (last.2.2.waiting = none → wire last.2.1 = wire' last.2.2.other) := by
  refine Machine.run_induction (P := fun past (s : σ × Alongside σ') =>
    m'.run p (concludedOps past) = (concluded past, s.2.other) ∧
      (s.2.waiting = none → wire s.1 = wire' s.2.other)) ⟨rfl, fun _ => same⟩ ?_ agrees
  rintro past ⟨s, g⟩ op ⟨told, arrived⟩ agree
  have answer : ((alongside m m' draws).step (s, g) op).1 = (m.step s op).1 := rfl
  have ghost : ((alongside m m' draws).step (s, g) op).2.2 =
      g.after m' op (m.step s op).1 (draws s op) := rfl
  rw [answer, ghost]
  by_cases waits : (m.step s op).1 = .pending
  · simp only [concludedOps, concluded_snoc, waits, Alongside.after, if_true, List.append_nil]
    exact ⟨told, fun none => by cases none⟩
  · obtain ⟨same, arrives⟩ := agree.resolve_left waits
    refine ⟨?_, fun _ => ?_⟩
    · simp only [concludedOps, concluded_snoc, waits, Alongside.after, if_false, List.map_append,
        List.map_cons, List.map_nil]
      rw [Machine.run, Machine.runFrom_concat]
      have told : m'.runFrom [] p ((concluded past).map Prod.fst) = (concluded past, g.other) := told
      rw [told, same]
    · simp only [Alongside.after, waits, if_false]
      exact arrives

/-- Two runs that have come to the same writes have got the same answers, and where no write waits the
same bytes have arrived. -/
def Concur {σ₁ σ₂ : Type} (wire₁ : σ₁ → List UInt8) (wire₂ : σ₂ → List UInt8)
    (last₁ : Writes × σ₁ × Alongside σ') (last₂ : Writes × σ₂ × Alongside σ') : Prop :=
  concludedOps last₁.1 = concludedOps last₂.1 →
    concluded last₁.1 = concluded last₂.1 ∧
      (last₁.2.2.waiting = none → last₂.2.2.waiting = none → wire₁ last₁.2.1 = wire₂ last₂.2.1)

/-- **Two runs that agree with one** agree with each other. -/
theorem agree_twice {σ₁ σ₂ : Type} {m₁ : WriteMachine σ₁} {m₂ : WriteMachine σ₂}
    {draws₁ : σ₁ → WriteOp → Bool} {draws₂ : σ₂ → WriteOp → Bool} {wire₁ : σ₁ → List UInt8}
    {wire₂ : σ₂ → List UInt8} {s₁ : σ₁} {s₂ : σ₂} {p : σ'} (same₁ : wire₁ s₁ = wire' p)
    (same₂ : wire₂ s₂ = wire' p) {run₁ run₂ : List WriteOp}
    (agrees₁ : (alongside m₁ m' draws₁).Allowed (fun _ => Agrees m₁ m' wire₁ wire') (s₁, .start p) run₁)
    (agrees₂ : (alongside m₂ m' draws₂).Allowed (fun _ => Agrees m₂ m' wire₂ wire') (s₂, .start p)
      run₂) :
    Concur wire₁ wire₂ ((alongside m₁ m' draws₁).run (s₁, .start p) run₁)
      ((alongside m₂ m' draws₂).run (s₂, .start p) run₂) := by
  intro ops
  obtain ⟨told₁, arrived₁⟩ := agrees_concluded same₁ agrees₁
  obtain ⟨told₂, arrived₂⟩ := agrees_concluded same₂ agrees₂
  obtain ⟨answers, other⟩ := Prod.mk.inj (told₁.symm.trans ((congrArg (m'.run p) ops).trans told₂))
  refine ⟨answers, fun idle₁ idle₂ => ?_⟩
  exact (arrived₁ idle₁).trans ((congrArg wire' other).trans (arrived₂ idle₂).symm)

end Runs

/-! ## Below the draws -/

/-- From the second moment and state a program ends as from the first. -/
def EndsAs {σ α : Type} (m : Io σ α) (env : World) (k : Nat) (s : σ) (k' : Nat) (s' : σ) : Prop :=
  ∀ Q, m.wp env k s Q ↔ m.wp env k' s' Q

namespace Backlog

variable {T U : Type} [AsyncWrite T] [AsyncWrite U] {R : T → U → Prop} {env : World} {k : Nat}

/-- A poll below the draw: what is stored goes out before a caller's write. -/
def served : WriteOp → Io (Backlog T) Nat
  | .write (.scalar buf) => do
    drain
    onInner (pollWrite buf)
  | op => onInner op.poll

/-- What a round of the drain comes to once the inner writer has been polled. -/
def rounded (env : World) (rounds : Nat) (block : List UInt8)
    (Q : Poll IoError Unit → Backlog T → Nat → Prop) (r : Poll IoError Nat) (t : T) (k : Nat) : Prop :=
  match r with
  | .ok size =>
    if size = 0 then Q (.err (.writeZero "write zero bytes")) ⟨t, some block⟩ k
    else if size ≤ block.length then
      (drainLoop rounds).wp env k ⟨t, some (block.drop size)⟩ Q
    else Q (.panicked "cannot advance past `remaining`") ⟨t, some block⟩ k
  | .pending => Q .pending ⟨t, some block⟩ k
  | .err e => Q (.err e) ⟨t, some block⟩ k
  | .panicked msg => Q (.panicked msg) ⟨t, some block⟩ k

variable {block : List UInt8} {t : T} {u : U} {Q : Poll IoError Unit → Backlog T → Nat → Prop}

theorem drainLoop_succ {rounds : Nat} (nonempty : block ≠ []) :
    (drainLoop (rounds + 1)).wp env k ⟨t, some block⟩ Q ↔
      (pollWrite block).wp env k t (rounded env rounds block Q) := by
  have stored : ∀ t : T, (⟨t, some block⟩ : Backlog T).stored = block := fun _ => rfl
  rw [drainLoop, wp_bind, wp_get]
  dsimp only
  rw [wp_ite, stored, if_neg (by simpa using nonempty), wp_bind, onInner, wp_zoom]
  refine wp_congr fun r t k' => ?_
  cases r with
  | ok size =>
    dsimp only [rounded]
    rw [wp_ite]
    by_cases zero : size = 0
    · rw [if_pos zero, if_pos zero]
      rfl
    · rw [if_neg zero, if_neg zero, wp_bind]
      by_cases le : size ≤ block.length
      · rw [advance_wp (by rw [stored]; exact le), if_pos le]
        rfl
      · rw [advance, wp_bind, wp_get]
        dsimp only
        rw [wp_ite, stored, if_neg le, if_neg le]
        rfl
  | _ => rfl

/-- More rounds than there are bytes change nothing. -/
theorem drainLoop_enough {rounds : Nat} :
    ∀ {rounds' k : Nat} {t : T} {block : List UInt8} {Q : Poll IoError Unit → Backlog T → Nat → Prop},
      block.length ≤ rounds → block.length ≤ rounds' →
        ((drainLoop rounds).wp env k ⟨t, some block⟩ Q ↔
          (drainLoop rounds').wp env k ⟨t, some block⟩ Q) := by
  induction rounds with
  | zero =>
    intro rounds' k t block Q le _
    obtain rfl : block = [] := List.length_eq_zero_iff.mp (Nat.le_zero.mp le)
    rw [drainLoop_nil rfl, drainLoop_nil rfl]
  | succ rounds ih =>
    intro rounds' k t block Q le le'
    by_cases nil : block = []
    · subst nil
      rw [drainLoop_nil rfl, drainLoop_nil rfl]
    · have pos : 0 < block.length := List.length_pos_iff.mpr nil
      obtain ⟨n, rfl⟩ : ∃ n, rounds' = n + 1 := ⟨rounds' - 1, by omega⟩
      rw [drainLoop_succ nil, drainLoop_succ nil]
      refine wp_congr fun r t k' => ?_
      cases r with
      | ok size =>
        dsimp only [rounded]
        split
        · rfl
        · split
          · have short : (block.drop size).length = block.length - size := List.length_drop
            exact ih (by omega) (by omega)
          · rfl
      | _ => rfl

/-- **Draining over a hesitant writer**: the drain waits at a point from which the other ends as it
would have ended, or it ends as the other does. -/
theorem drainLoop_hesitates (h : Hesitates R) {n : Nat} :
    ∀ {block : List UInt8} {t : T} {u : U} {k : Nat} (k' : Nat), block.length ≤ n → R t u →
      (drainLoop n).wp env k ⟨t, some block⟩ fun r s _ =>
        r = .pending ∧ (∃ block' u' j, s.buffer = some block' ∧ block'.length ≤ n ∧ R s.inner u' ∧
            EndsAs (drainLoop n) env k' ⟨u, some block⟩ j ⟨u', some block'⟩) ∨
          r ≠ .pending ∧ (drainLoop n).wp env k' ⟨u, some block⟩ fun r' s' _ =>
            r' = r ∧ R s.inner s'.inner ∧ s'.buffer = s.buffer := by
  induction n with
  | zero =>
    intro block t u k k' _ hR
    refine .inr ⟨?_, rfl, hR, rfl⟩
    rintro ⟨⟩
  | succ n ih =>
    intro block t u k k' le hR
    by_cases nil : block = []
    · subst nil
      refine (drainLoop_nil rfl).mpr (.inr ⟨?_, (drainLoop_nil rfl).mpr ⟨rfl, hR, rfl⟩⟩)
      rintro ⟨⟩
    · refine (drainLoop_succ nil).mpr ?_
      refine wp_mono (h hR (.write (.scalar block)) env k k') ?_
      rintro r t₁ k₁ (⟨rfl, hR₁⟩ | ⟨answered, result, hR₁⟩)
      · exact .inl ⟨rfl, block, u, k', rfl, le, hR₁, fun _ => Iff.rfl⟩
      · -- the other makes the same round
        obtain ⟨u₁, j, hR₁, outcome⟩ := exists_outcome ⟨result, hR₁⟩
        have other : ∀ Q : Poll IoError Unit → Backlog U → Nat → Prop,
            (drainLoop (n + 1)).wp env k' ⟨u, some block⟩ Q ↔ rounded env n block Q r u₁ j :=
          fun Q => (drainLoop_succ nil).trans (outcome _)
        have ends : ∀ a : Poll IoError Unit, a ≠ .pending →
            (∀ Q : Poll IoError Unit → Backlog U → Nat → Prop,
              rounded env n block Q r u₁ j ↔ Q a ⟨u₁, some block⟩ j) →
            a ≠ .pending ∧ (drainLoop (n + 1)).wp env k' ⟨u, some block⟩ fun r' s' _ =>
              r' = a ∧ R t₁ s'.inner ∧ s'.buffer = some block := by
          intro a ready same
          exact ⟨ready, (other _).mpr ((same _).mpr ⟨rfl, hR₁, rfl⟩)⟩
        cases r with
        | pending => exact absurd rfl answered
        | err e => exact .inr (ends (.err e) (fun h => by cases h) fun _ => Iff.rfl)
        | panicked msg => exact .inr (ends (.panicked msg) (fun h => by cases h) fun _ => Iff.rfl)
        | ok size =>
          dsimp only [rounded] at ends other ⊢
          by_cases zero : size = 0
          · simp only [if_pos zero] at ends ⊢
            exact .inr (ends _ (fun h => by cases h) fun _ => Iff.rfl)
          · by_cases fits : size ≤ block.length
            · simp only [if_neg zero, if_pos fits] at other ⊢
              have short : (block.drop size).length ≤ n := by
                rw [List.length_drop]
                omega
              refine wp_mono (ih j short hR₁) ?_
              rintro r s k₂ (⟨waits, block', u', i, left, le', hR', on⟩ | ⟨ready, done⟩)
              · refine .inl ⟨waits, block', u', i, left, by omega, hR', fun Q => ?_⟩
                exact (other Q).trans ((on Q).trans (drainLoop_enough le' (by omega)))
              · exact .inr ⟨ready, (other _).mpr done⟩
            · simp only [if_neg zero, if_neg fits] at ends ⊢
              exact .inr (ends _ (fun h => by cases h) fun _ => Iff.rfl)

theorem drain_some :
    drain.wp env k ⟨t, some block⟩ Q ↔
      (drainLoop block.length).wp env k ⟨t, some block⟩ fun r s k' =>
        match r with
        | .ok _ => Q (.ok ()) { s with buffer := none } k'
        | .pending => Q .pending s k'
        | .err e => Q (.err e) s k'
        | .panicked msg => Q (.panicked msg) s k' := by
  rw [drain, wp_bind, wp_get]
  dsimp only
  rw [wp_bind]
  refine wp_congr fun r s k' => ?_
  cases r <;> rfl

/-- The same for the drain as a whole. Once it is done nothing is stored. -/
theorem drain_hesitates (h : Hesitates R) {buffer : Option (List UInt8)} {k : Nat} (k' : Nat)
    (hR : R t u) :
    drain.wp env k ⟨t, buffer⟩ fun r s _ =>
      r = .pending ∧ (∃ u' j, R s.inner u' ∧ EndsAs drain env k' ⟨u, buffer⟩ j ⟨u', s.buffer⟩) ∨
        r ≠ .pending ∧ (r = .ok () → s.buffer = none) ∧
          drain.wp env k' ⟨u, buffer⟩ fun r' s' _ =>
            r' = r ∧ R s.inner s'.inner ∧ s'.buffer = s.buffer := by
  cases buffer with
  | none =>
    refine (drain_idle rfl).mpr (.inr ⟨?_, fun _ => rfl, (drain_idle rfl).mpr ⟨rfl, hR, rfl⟩⟩)
    rintro ⟨⟩
  | some block =>
    refine drain_some.mpr (wp_mono (drainLoop_hesitates h k' (Nat.le_refl _) hR) ?_)
    rintro r s k₁ (⟨rfl, block', u', j, left, le, hR', on⟩ | ⟨ready, done⟩)
    · refine .inl ⟨rfl, u', j, hR', fun Q => ?_⟩
      rw [left, drain_some, drain_some, on]
      exact drainLoop_enough le (Nat.le_refl _)
    · obtain ⟨s', j, ⟨hR', same⟩, outcome⟩ := exists_outcome done
      have other : ∀ Q, drain.wp env k' ⟨u, some block⟩ Q ↔ _ :=
        fun Q => drain_some.trans (outcome _)
      cases r with
      | ok _ =>
        refine .inr ⟨fun h => (by cases h), fun _ => rfl, (other _).mpr ⟨rfl, hR', rfl⟩⟩
      | pending => exact absurd rfl ready
      | err e => exact .inr ⟨fun h => (by cases h), fun h => (by cases h), (other _).mpr ⟨rfl, hR', same⟩⟩
      | panicked msg =>
        exact .inr ⟨fun h => (by cases h), fun h => (by cases h), (other _).mpr ⟨rfl, hR', same⟩⟩

/-- A call on the inner writer alone. -/
theorem onInner_hesitates (h : Hesitates R) (op : WriteOp) {buffer : Option (List UInt8)} {k : Nat}
    (k' : Nat) (hR : R t u) :
    (onInner op.poll).wp env k ⟨t, buffer⟩ fun r s _ =>
      r = .pending ∧ R s.inner u ∧ s.buffer = buffer ∨
        r ≠ .pending ∧ (onInner op.poll).wp env k' ⟨u, buffer⟩ fun r' s' _ =>
          r' = r ∧ R s.inner s'.inner ∧ s'.buffer = s.buffer := by
  rw [onInner, wp_zoom]
  refine wp_mono (h hR op env k k') ?_
  rintro r t₁ k₁ (⟨waits, hR₁⟩ | ⟨ready, result, hR₁⟩)
  · exact .inl ⟨waits, hR₁, rfl⟩
  · exact .inr ⟨ready, result, hR₁, rfl⟩

/-- **A poll below the draw, over a hesitant writer**: it waits at a point from which the other ends as it
would have ended, or it ends as the other does. -/
theorem served_hesitates (h : Hesitates R) (op : WriteOp) {buffer : Option (List UInt8)} {k : Nat}
    (k' : Nat) (hR : R t u) :
    (served op).wp env k ⟨t, buffer⟩ fun r s _ =>
      r = .pending ∧ (∃ u' j, R s.inner u' ∧
          EndsAs (served op) env k' ⟨u, buffer⟩ j ⟨u', s.buffer⟩) ∨
        r ≠ .pending ∧ (served op).wp env k' ⟨u, buffer⟩ fun r' s' _ =>
          r' = r ∧ R s.inner s'.inner ∧ s'.buffer = s.buffer := by
  have direct : (onInner op.poll).wp env k ⟨t, buffer⟩ fun r s _ =>
      r = .pending ∧ (∃ u' j, R s.inner u' ∧
          EndsAs (onInner op.poll) env k' ⟨u, buffer⟩ j ⟨u', s.buffer⟩) ∨
        r ≠ .pending ∧ (onInner op.poll).wp env k' ⟨u, buffer⟩ fun r' s' _ =>
          r' = r ∧ R s.inner s'.inner ∧ s'.buffer = s.buffer := by
    refine wp_mono (onInner_hesitates h op k' hR) ?_
    rintro r s k₁ (⟨waits, hR₁, same⟩ | done)
    · exact .inl ⟨waits, u, k', hR₁, fun Q => by rw [same]⟩
    · exact .inr done
  cases op with
  | write c =>
    cases c with
    | vectored bufs => exact direct
    | scalar buf =>
      refine wp_bind.mpr (wp_mono (drain_hesitates h k' hR) ?_)
      rintro r s k₁ (⟨rfl, u', j, hR', on⟩ | ⟨ready, idle, done⟩)
      · exact .inl ⟨rfl, u', j, hR', fun Q => wp_bind.trans ((on _).trans wp_bind.symm)⟩
      · obtain ⟨⟨u₁, buffer'⟩, j, ⟨hR', rfl⟩, outcome⟩ := exists_outcome done
        have other : ∀ Q, (served (.write (.scalar buf))).wp env k' ⟨u, buffer⟩ Q ↔ _ :=
          fun Q => wp_bind.trans (outcome _)
        cases r with
        | ok _ =>
          obtain ⟨t₁, buffer'⟩ := s
          obtain rfl : buffer' = none := idle rfl
          refine wp_mono (onInner_hesitates h (.write (.scalar buf)) j hR') ?_
          rintro r s k₂ (⟨waits, hR₂, same⟩ | ⟨ready, done⟩)
          · refine .inl ⟨waits, u₁, j, hR₂, fun Q => (other Q).trans ?_⟩
            -- nothing is stored any more
            have rest : (served (.write (.scalar buf))).wp env j ⟨u₁, none⟩ Q ↔
                (onInner (pollWrite buf)).wp env j ⟨u₁, none⟩ Q := wp_bind.trans (drain_idle rfl)
            rw [same]
            exact rest.symm
          · exact .inr ⟨ready, (other _).mpr done⟩
        | pending => exact absurd rfl ready
        | err e => exact .inr ⟨fun h => (by cases h), (other _).mpr ⟨rfl, hR', rfl⟩⟩
        | panicked msg => exact .inr ⟨fun h => (by cases h), (other _).mpr ⟨rfl, hR', rfl⟩⟩
  | flush => exact direct
  | shutdown => exact direct

end Backlog

end Trixter
