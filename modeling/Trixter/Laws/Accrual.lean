import Trixter.Lib.Collector
import Trixter.Laws.ThrottlerRuns

/-!
# What the throttler's rounding costs

`even_iff_fine`: at a constant rate the accrual does not depend on how often the bucket is polled exactly
if the refills drop less than two tokens in all.

Each `update_budget` that finds a whole token moves `last_update` to now, and drops the fraction it
found besides. So the bucket is a collector of whole tokens: it lags behind its rate by what the refills
have dropped. How much a refill drops depends on when it is made, which for a writer that waits for tokens
is when the sleep of `poll_acquire` ends. Where the one-second cap binds or the rate changes, nothing is
claimed here.
-/

namespace Trixter

open Trixter.Lib Polling

variable {R : Type} {env : World} {k k' : Nat} {r : UInt64}

namespace LeakyBucket

variable {lb lb' : LeakyBucket R} {t t₀ start : Nat} {times : List Nat} {c : Collector}

/-- The bucket after an `update_budget` with each of these readings. -/
def refills (r : UInt64) (lb : LeakyBucket R) (times : List Nat) : LeakyBucket R :=
  times.foldl (fun lb t => lb.updated t r) lb

/-- The tokens due at `t`. -/
def due (r : UInt64) (lb : LeakyBucket R) (t : Nat) : Nat :=
  (t - lb.lastUpdate) * r.toNat / 1000000000

/-- The one-second cap does not bind at any of these readings. -/
def Uncapped (r : UInt64) : LeakyBucket R → List Nat → Prop
  | _, [] => True
  | lb, t :: times => lb.budget.toNat + lb.due r t ≤ r.toNat ∧ Uncapped r (lb.updated t r) times

/-- A checkable condition. -/
instance decidableUncapped : (lb : LeakyBucket R) → (times : List Nat) →
    Decidable (lb.Uncapped r times)
  | _, [] => inferInstanceAs (Decidable True)
  | lb, t :: times =>
    have := decidableUncapped (lb.updated t r) times
    inferInstanceAs (Decidable (_ ∧ _))

/-- The bucket was last updated at `t₀`, or an update at `t₀` would add nothing. -/
structure UpdatedAt (r : UInt64) (t₀ : Nat) (lb : LeakyBucket R) : Prop where
  since : lb.lastUpdate ≤ t₀
  fine : (t₀ - lb.lastUpdate) * r.toNat < 1000000000

/-- The collections of a bucket whose count was started at `start`. -/
def collected (r : UInt64) (start : Nat) (times : List Nat) : Collector :=
  times.foldl (Collector.collect 1000000000 r.toNat) (.new start)

/-- What the refills at these times drop, and what is pending at the last of them, comes to less
than two tokens more than was pending at `t₀`. The count was started at `start`. -/
def Fine (r : UInt64) (start t₀ : Nat) (times : List Nat) : Prop :=
  (collected r start times).dropped + (collected r start times).pending r.toNat (times.getLastD t₀) <
    2 * 1000000000 + (t₀ - start) * r.toNat

instance : Decidable (Fine r start t₀ times) := inferInstanceAs (Decidable (_ < _))

theorem collected_append (times times' : List Nat) :
    collected r start (times ++ times') =
      times'.foldl (Collector.collect 1000000000 r.toNat) (collected r start times) :=
  List.foldl_append

/-- Where the cap does not bind, the product of `update_budget` fits in 128 bits. -/
theorem accrued_of_room (room : lb.budget.toNat + lb.due r t ≤ r.toNat) :
    accrued (t - lb.lastUpdate) r = lb.due r t := by
  have lt := r.toNat_lt
  have fits : (t - lb.lastUpdate) * r.toNat < 2 ^ 128 := by
    have below : lb.due r t < 2 ^ 64 := by omega
    rw [due, Nat.div_lt_iff_lt_mul (by decide)] at below
    omega
  rw [accrued, Nat.mod_eq_of_lt fits, due]

/-- **An update is a collection**: what it adds to the budget is what the collector collects. -/
theorem updated_collects (room : lb.budget.toNat + lb.due r t ≤ r.toNat)
    (last : c.last = lb.lastUpdate) :
    (c.collect 1000000000 r.toNat t).last = (lb.updated t r).lastUpdate ∧
      (lb.updated t r).budget.toNat + c.tokens =
        lb.budget.toNat + (c.collect 1000000000 r.toNat t).tokens := by
  have same : c.pending r.toNat t / 1000000000 = lb.due r t := by
    rw [Collector.pending, last, due]
  unfold Collector.collect updated
  rw [accrued_of_room room, same]
  split
  · refine ⟨rfl, ?_⟩
    simp only [refilled_toNat]
    omega
  · exact ⟨last, rfl⟩

/-- So are any number of updates. -/
theorem refills_collects (uncapped : lb.Uncapped r times) (last : c.last = lb.lastUpdate) :
    (times.foldl (Collector.collect 1000000000 r.toNat) c).last = (lb.refills r times).lastUpdate ∧
      (lb.refills r times).budget.toNat + c.tokens =
        lb.budget.toNat + (times.foldl (Collector.collect 1000000000 r.toNat) c).tokens := by
  induction times generalizing lb c with
  | nil => exact ⟨last, rfl⟩
  | cons t times ih =>
    obtain ⟨room, uncapped⟩ := uncapped
    have one := updated_collects room last
    have rest := ih uncapped one.1
    refine ⟨rest.1, ?_⟩
    have whole := rest.2
    have first := one.2
    simp only [refills, List.foldl_cons] at whole ⊢
    omega

theorem updated_rate : (lb.updated t r).rate = lb.rate := by
  unfold updated
  split <;> rfl

theorem refills_rate : (lb.refills r times).rate = lb.rate := by
  induction times generalizing lb with
  | nil => rfl
  | cons t times ih =>
    exact ih.trans updated_rate

@[simp] theorem asleep_rate (deadline : Nat) : (lb.asleep deadline).rate = lb.rate := rfl

@[simp] theorem asleep_budget (deadline : Nat) : (lb.asleep deadline).budget = lb.budget := rfl

@[simp] theorem asleep_lastUpdate (deadline : Nat) :
    (lb.asleep deadline).lastUpdate = lb.lastUpdate := rfl

theorem updated_asleep (deadline : Nat) :
    (lb.asleep deadline).updated t r = (lb.updated t r).asleep deadline := by
  unfold updated asleep
  split <;> rfl

/-- Only the tokens and their time count for a refill. -/
theorem refills_asleep (deadline : Nat) :
    (lb.asleep deadline).refills r times = (lb.refills r times).asleep deadline := by
  unfold refills
  exact List.foldl_hom (fun lb : LeakyBucket R => lb.asleep deadline) fun _ _ =>
    updated_asleep deadline

theorem updated_awake :
    ({ lb with sleeping := false } : LeakyBucket R).updated t r =
      { lb.updated t r with sleeping := false } := by
  unfold updated
  split <;> rfl

theorem refills_awake :
    ({ lb with sleeping := false } : LeakyBucket R).refills r times =
      { lb.refills r times with sleeping := false } := by
  induction times generalizing lb with
  | nil => rfl
  | cons t times ih =>
    simp only [refills, List.foldl_cons] at ih ⊢
    rw [updated_awake, ih]

/-- A refill does not go over a second's worth. -/
theorem refills_le (le : lb.budget.toNat ≤ r.toNat) :
    (lb.refills r times).budget.toNat ≤ r.toNat := by
  induction times generalizing lb with
  | nil => exact le
  | cons t times ih =>
    have one : (lb.updated t r).budget.toNat ≤ r.toNat := by
      unfold updated
      split
      · rw [refilled_toNat]
        exact Nat.min_le_right _ _
      · exact le
    exact ih one

/-! ## The books of a run -/

/-- The refills of a run until `now` were made at these times, in order, and the bucket's count
stands where that of the collector does. -/
structure Kept (r : UInt64) (start t₀ now : Nat) (lb : LeakyBucket R) (times : List Nat) :
    Prop where
  since : start ≤ t₀
  last : (collected r start times).last = lb.lastUpdate
  ordered : (t₀ :: times).Pairwise (· ≤ ·)
  past : ∀ t ∈ t₀ :: times, t ≤ now

theorem kept_nil (updated : UpdatedAt r t₀ lb) {now : Nat} (le : t₀ ≤ now) :
    Kept r lb.lastUpdate t₀ now lb [] where
  since := updated.since
  last := rfl
  ordered := List.pairwise_singleton _ _
  past t mem := by
    rw [List.mem_singleton.mp mem]
    exact le

variable {now now' : Nat}

/-- The books are about refills only. -/
theorem Kept.later (h : Kept r start t₀ now lb times) (le : now ≤ now')
    (same : lb'.lastUpdate = lb.lastUpdate) : Kept r start t₀ now' lb' times where
  since := h.since
  last := h.last.trans same.symm
  ordered := h.ordered
  past t mem := Nat.le_trans (h.past t mem) le

/-- **Refills keep the books**: what they add to the budget is what is collected. -/
theorem Kept.refills {more : List Nat} (h : Kept r start t₀ now lb times)
    (uncapped : lb.Uncapped r more) (ordered : more.Pairwise (· ≤ ·)) (le : now ≤ now')
    (within : ∀ t ∈ more, now ≤ t ∧ t ≤ now') :
    Kept r start t₀ now' (lb.refills r more) (times ++ more) ∧
      (lb.refills r more).budget.toNat + (collected r start times).tokens =
        lb.budget.toNat + (collected r start (times ++ more)).tokens := by
  have collects := refills_collects uncapped h.last
  rw [← collected_append] at collects
  refine ⟨⟨h.since, collects.1, ?_, ?_⟩, collects.2⟩
  · rw [← List.cons_append, List.pairwise_append]
    refine ⟨h.ordered, ordered, fun t mem t' mem' => ?_⟩
    exact Nat.le_trans (h.past t mem) (within t' mem').1
  · intro t mem
    rw [← List.cons_append, List.mem_append] at mem
    cases mem with
    | inl mem => exact Nat.le_trans (h.past t mem) le
    | inr mem => exact (within t mem).2

/-- What the books say of the whole run. -/
theorem Kept.collects (h : Kept r start t₀ now lb times) :
    Collector.Collects 1000000000 r.toNat start (times.getLastD t₀) (collected r start times) :=
  (Collector.collects_new h.since).run h.ordered

/-- The last refill is not before `t₀`. -/
theorem Kept.le_last (h : Kept r start t₀ now lb times) : t₀ ≤ times.getLastD t₀ := by
  rcases List.mem_cons.mp (@List.getLastD_mem_cons _ times t₀) with same | mem
  · exact Nat.le_of_eq same.symm
  · exact List.rel_of_pairwise_cons h.ordered mem

/-! ## Updates at arbitrary times -/

/-- What an owner of the bucket may do to its tokens. -/
inductive Use where
  | update
  | consume (used : Nat)
  deriving DecidableEq, Repr

/-- One use of the bucket. -/
def Use.poll [Rate R] : Use → Io (LeakyBucket R) Unit
  | .update => do
    let _ ← updateBudget
    return ()
  | .consume used => Polling.modify fun lb => lb.consume used

/-- Tokens that an update added, with its clock reading. -/
structure Topup where
  time : Nat
  added : Nat
  deriving DecidableEq, Repr

/-- What each use adds. -/
def topups [Rate R] (env : World) (s : Paced (LeakyBucket R)) : Use → List Topup
  | .update =>
    [⟨env.clock s.moment,
      (updateBudget env s.moment s.state).state.budget.toNat - s.state.budget.toNat⟩]
  | .consume _ => []

/-- The cap does not bind at this use. -/
def UseUncapped (env : World) (r : UInt64) (s : Paced (LeakyBucket R)) : Use → Prop
  | .update => s.state.Uncapped r [env.clock s.moment]
  | .consume _ => True

instance {s : Paced (LeakyBucket R)} : (use : Use) → Decidable (UseUncapped env r s use)
  | .update => inferInstanceAs (Decidable (LeakyBucket.Uncapped _ _ _))
  | .consume _ => inferInstanceAs (Decidable True)

/-- The tokens added since `t₀` differ from what accrued until `tₙ`, rounded down, by one at most. -/
def EvenAccrual (r : UInt64) (t₀ tₙ total : Nat) : Prop :=
  total ≤ (tₙ - t₀) * r.toNat / 1000000000 + 1 ∧ (tₙ - t₀) * r.toNat / 1000000000 ≤ total + 1

instance {tₙ total : Nat} : Decidable (EvenAccrual r t₀ tₙ total) :=
  inferInstanceAs (Decidable (_ ∧ _))

variable [Rate R] {rate : R}

/-- The knob reports `r` at every moment. -/
structure Constant (env : World) (rate : R) (r : UInt64) : Prop where
  reports : ∀ k, Rate.rate env rate k = r
  limited : ∀ k, Rate.isUnlimited env rate k = false

/-- A turn of the bucket is an update at its clock reading. -/
theorem turned_eq (constant : Constant env rate r) (knob : lb.rate = rate) :
    lb.turned env k = lb.refills r [env.clock k] := by
  rw [turned, knob, constant.reports]
  rfl

/-- The books of a run of uses: all that was added was collected. -/
structure Added (env : World) (r : UInt64) (start t₀ : Nat) (rate : R)
    (s : Paced (LeakyBucket R) × List Topup) : Prop where
  knob : s.1.state.rate = rate
  kept : Kept r start t₀ (env.clock s.1.moment) s.1.state (s.2.map Topup.time)
  total : (s.2.map Topup.added).sum = (collected r start (s.2.map Topup.time)).tokens

/-- **One use keeps the books.** -/
theorem Added.step (constant : Constant env rate r) (mono : Monotone env.clock)
    {s : Paced (LeakyBucket R) × List Topup} (h : Added env r start t₀ rate s) (use : Use)
    (uncapped : UseUncapped env r s.1 use) :
    Added env r start t₀ rate (((machine env Use.poll).traced (topups env)).step s use).2 := by
  obtain ⟨⟨k, lb⟩, log⟩ := s
  have knob : lb.rate = rate := h.knob
  cases use with
  | update =>
    have result : (updateBudget env k lb).state = lb.refills r [env.clock k] := by
      have spec : updateBudget.wp env k lb fun _ lb' _ => lb' = lb.turned env k :=
        updateBudget_wp.mpr rfl
      exact (wp_iff.mp spec).trans (turned_eq constant knob)
    have after : (Use.update.poll).wp env k lb fun _ lb' k' =>
        lb' = lb.refills r [env.clock k] ∧ k ≤ k' := by
      rw [Use.poll, wp_map, updateBudget_wp]
      exact ⟨turned_eq constant knob, Nat.le_add_right _ _⟩
    have kept : Kept r start t₀ (env.clock k) lb (log.map Topup.time) := h.kept
    have total : (log.map Topup.added).sum = (collected r start (log.map Topup.time)).tokens :=
      h.total
    have uncapped : lb.Uncapped r [env.clock k] := uncapped
    obtain ⟨books, tokens⟩ := kept.refills uncapped (List.pairwise_singleton _ _) (Nat.le_refl _)
      fun t mem => by
        rw [List.mem_singleton.mp mem]
        exact ⟨Nat.le_refl _, Nat.le_refl _⟩
    obtain ⟨same, later⟩ := wp_iff.mp after
    refine ⟨?_, ?_, ?_⟩
    · show (Use.update.poll env k lb).state.rate = rate
      rw [same, refills_rate, knob]
    · show Kept r start t₀ (env.clock (k + (Use.update.poll env k lb).took))
        (Use.update.poll env k lb).state ((log ++ topups env ⟨k, lb⟩ .update).map Topup.time)
      rw [same, List.map_append]
      exact books.later (mono later) rfl
    · have more : (collected r start (log.map Topup.time)).tokens ≤
          (collected r start (log.map Topup.time ++ [env.clock k])).tokens := by
        rw [collected_append]
        exact Collector.le_collect_tokens
      show ((log ++ topups env ⟨k, lb⟩ .update).map Topup.added).sum =
        (collected r start ((log ++ topups env ⟨k, lb⟩ .update).map Topup.time)).tokens
      simp only [topups, result, List.map_append, List.map_cons, List.map_nil, List.sum_append,
        List.sum_singleton]
      omega
  | consume used =>
    refine ⟨knob, ?_, ?_⟩
    · show Kept r start t₀ (env.clock k) (lb.consume used) ((log ++ []).map Topup.time)
      rw [List.append_nil]
      exact h.kept.later (Nat.le_refl _) rfl
    · show ((log ++ []).map Topup.added).sum = (collected r start ((log ++ []).map Topup.time)).tokens
      rw [List.append_nil]
      exact h.total

/-- Updates at any times, with any use of the tokens between them. -/
theorem uses_even_iff (constant : Constant env rate r) (mono : Monotone env.clock)
    (knob : lb.rate = rate) (updated : UpdatedAt r t₀ lb) (le : t₀ ≤ env.clock k) (run : List Use)
    (uncapped : ((machine env Use.poll).traced (topups env)).Allowed
      (fun _ s use => UseUncapped env r s.1 use) (⟨k, lb⟩, []) run) :
    let log := (((machine env Use.poll).traced (topups env)).run (⟨k, lb⟩, []) run).2.2
    let times := log.map Topup.time
    EvenAccrual r t₀ (times.getLastD t₀) (log.map Topup.added).sum ↔
      Fine r lb.lastUpdate t₀ times := by
  intro log times
  have books : Added env r lb.lastUpdate t₀ rate
      (((machine env Use.poll).traced (topups env)).run (⟨k, lb⟩, []) run).2 := by
    refine Machine.run_induction (P := fun _ s => Added env r lb.lastUpdate t₀ rate s) ?_ ?_ uncapped
    · exact ⟨knob, kept_nil updated le, rfl⟩
    · exact fun _ _ use h uncapped => h.step constant mono use uncapped
  have collects := books.kept.collects
  have after := books.kept.le_last
  have lag := collects.lag_iff (by decide) updated.since after
  have lead := collects.lead (by decide) updated.since after updated.fine
  unfold EvenAccrual
  rw [books.total]
  constructor
  · intro even
    exact lag.mp even.2
  · intro fine
    exact ⟨lead, lag.mpr fine⟩

/-! ## The refills of one poll -/

/-- The clock readings of the refills in the loop of `poll_acquire`. -/
def loopReadings (env : World) (want : Nat) (r : UInt64) : Nat → Nat → LeakyBucket R → List Nat
  | 0, k, _ => [env.clock k]
  | turns + 1, k, lb =>
    if 0 < min want (lb.turned env k).budget.toNat then [env.clock k]
    else
      let armed := (lb.turned env k).asleep (env.clock (k + 2) + wakeUp r)
      if env.alarm armed.sleep.deadline (k + 3) then
        env.clock k :: loopReadings env want r turns (k + 4) armed
      else [env.clock k]

/-- The clock readings of the refills of a `poll_acquire` that is not held up by a sleep. -/
def awakeReadings (env : World) (want k : Nat) (lb : LeakyBucket R) : List Nat :=
  if want = 0 then []
  else if Rate.rate env lb.rate k = 0 then []
  else loopReadings env want (Rate.rate env lb.rate k) (env.coop (k + 1)) (k + 2) lb

/-- The clock readings of the refills of a `poll_acquire`. -/
def readings (env : World) (want k : Nat) (lb : LeakyBucket R) : List Nat :=
  if lb.sleeping then
    if env.alarm lb.sleep.deadline k then awakeReadings env want (k + 1) { lb with sleeping := false }
    else []
  else awakeReadings env want k lb

/-- What a `poll_acquire` for `want` tokens comes to, between the moments `k` and `k'`, with these
refills: the tokens are those after the refills, and either some of them are granted or there are
none. A poll held up by a sleep leaves the bucket alone. -/
structure Drawn (env : World) (r : UInt64) (want k k' : Nat) (lb : LeakyBucket R)
    (times : List Nat) (answer : Poll IoError Grant) (lb' : LeakyBucket R) : Prop where
  later : k ≤ k'
  knob : lb'.rate = lb.rate
  budget : lb'.budget = (lb.refills r times).budget
  last : lb'.lastUpdate = (lb.refills r times).lastUpdate
  ordered : times.Pairwise (· ≤ ·)
  within : ∀ t ∈ times, env.clock k ≤ t ∧ t ≤ env.clock k'
  answered : (∃ grant, answer = .ok grant ∧ grant.tokens = min want lb'.budget.toNat ∧
      0 < grant.tokens) ∨ answer = .pending ∧ (lb'.budget.toNat = 0 ∨ times = [] ∧ lb.sleeping = true)

variable {want : Nat}

theorem turned_rate : (lb.turned env k).rate = lb.rate := by
  rw [turned, updated_rate]

/-- A poll that ends with the turn it starts with, whatever becomes of its sleep. -/
theorem drawn_turn (constant : Constant env rate r) (mono : Monotone env.clock)
    (knob : lb.rate = rate) (le : k ≤ k') {answer : Poll IoError Grant} (same : lb'.rate = lb.rate)
    (budget : lb'.budget = (lb.turned env k).budget)
    (last : lb'.lastUpdate = (lb.turned env k).lastUpdate)
    (answered : (∃ grant, answer = .ok grant ∧ grant.tokens = min want lb'.budget.toNat ∧
      0 < grant.tokens) ∨ answer = .pending ∧ lb'.budget.toNat = 0) :
    Drawn env r want k k' lb [env.clock k] answer lb' where
  later := le
  knob := same
  budget := by rw [budget, turned_eq constant knob]
  last := by rw [last, turned_eq constant knob]
  ordered := List.pairwise_singleton _ _
  within t mem := by
    rw [List.mem_singleton.mp mem]
    exact ⟨Nat.le_refl _, mono le⟩
  answered := answered.imp_right fun pending => ⟨pending.1, .inl pending.2⟩

/-- A poll that ends with the sleep its first turn armed. -/
theorem drawn_starved (constant : Constant env rate r) (mono : Monotone env.clock)
    (knob : lb.rate = rate) (le : k ≤ k') (empty : (lb.turned env k).budget.toNat = 0)
    (deadline : Nat) :
    Drawn env r want k k' lb [env.clock k] .pending ((lb.turned env k).asleep deadline) := by
  refine drawn_turn constant mono knob le ?_ (asleep_budget _) (asleep_lastUpdate _) (.inr ⟨rfl, ?_⟩)
  · rw [asleep_rate, turned_rate]
  · rw [asleep_budget, empty]

/-- The turns before do not matter for the answer, and their refills come first. -/
theorem Drawn.cons (constant : Constant env rate r) (mono : Monotone env.clock)
    (knob : lb.rate = rate) {deadline : Nat} {answer : Poll IoError Grant} (le : k ≤ k')
    {k'' : Nat} (empty : (lb.turned env k).budget.toNat = 0)
    (h : Drawn env r want k' k'' ((lb.turned env k).asleep deadline) times answer lb') :
    Drawn env r want k k'' lb (env.clock k :: times) answer lb' := by
  have turn : ((lb.turned env k).asleep deadline).refills r times =
      (lb.refills r (env.clock k :: times)).asleep deadline := by
    rw [refills_asleep, turned_eq constant knob]
    rfl
  refine ⟨Nat.le_trans le h.later, ?_, ?_, ?_, ?_, ?_, ?_⟩
  · calc lb'.rate = (lb.turned env k).rate := h.knob
      _ = lb.rate := by rw [turned_eq constant knob, refills_rate]
  · rw [h.budget, turn]
    rfl
  · rw [h.last, turn]
    rfl
  · refine List.pairwise_cons.mpr ⟨fun t mem => ?_, h.ordered⟩
    exact Nat.le_trans (mono le) (h.within t mem).1
  · intro t mem
    cases mem with
    | head => exact ⟨Nat.le_refl _, mono (Nat.le_trans le h.later)⟩
    | tail _ mem => exact ⟨Nat.le_trans (mono le) (h.within t mem).1, (h.within t mem).2⟩
  · rcases h.answered with granted | ⟨pending, none | ⟨none, -⟩⟩
    · exact .inl granted
    · exact .inr ⟨pending, .inl none⟩
    · refine .inr ⟨pending, .inl ?_⟩
      rw [h.budget, none]
      exact empty

/-- The loop. Each turn is one refill; a turn that starves arms the sleep, and the next one starts
when that has elapsed. -/
theorem acquireLoop_draws (constant : Constant env rate r) (mono : Monotone env.clock)
    (pos : r.toNat ≠ 0) (wants : 0 < want) (turns : Nat) (knob : lb.rate = rate) :
    (acquireLoop want r turns).wp env k lb fun answer lb' k' =>
      Drawn env r want k k' lb (loopReadings env want r turns k lb) answer lb' := by
  induction turns generalizing k lb with
  | zero =>
    rw [acquireLoop, wp_bind, acquireTurn_wp, if_neg pos]
    split
    · next some =>
      exact drawn_turn constant mono knob (Nat.le_add_right _ _) turned_rate rfl rfl
        (.inl ⟨_, rfl, rfl, some⟩)
    · next none =>
      exact drawn_starved constant mono knob (Nat.le_add_right _ _) (by omega) _
  | succ turns ih =>
    rw [acquireLoop, wp_bind, acquireTurn_wp, if_neg pos, loopReadings]
    split
    · next some =>
      exact drawn_turn constant mono knob (Nat.le_add_right _ _) turned_rate rfl rfl
        (.inl ⟨_, rfl, rfl, some⟩)
    · next none =>
      have empty : (lb.turned env k).budget.toNat = 0 := by omega
      have slept : ((lb.turned env k).asleep (env.clock (k + 2) + wakeUp r)).rate = rate := by
        rw [asleep_rate, turned_rate, knob]
      dsimp only
      rw [wp_bind, pollSleep_wp]
      split
      · refine wp_mono (ih slept) fun answer lb' k'' rest => ?_
        exact rest.cons constant mono knob (show k ≤ k + 3 + 1 by omega) empty
      · exact drawn_starved constant mono knob (show k ≤ k + 3 + 1 by omega) empty _

omit [Rate R] in
/-- What is known from a later start on a bucket with the same tokens is known from here. -/
theorem Drawn.before {k₀ : Nat} {lb₀ : LeakyBucket R} {answer : Poll IoError Grant}
    (mono : Monotone env.clock) (le : k₀ ≤ k) (knob : lb.rate = lb₀.rate)
    (budget : (lb.refills r times).budget = (lb₀.refills r times).budget)
    (last : (lb.refills r times).lastUpdate = (lb₀.refills r times).lastUpdate)
    (awake : lb.sleeping = true → lb₀.sleeping = true)
    (h : Drawn env r want k k' lb times answer lb') : Drawn env r want k₀ k' lb₀ times answer lb' where
  later := Nat.le_trans le h.later
  knob := h.knob.trans knob
  budget := h.budget.trans budget
  last := h.last.trans last
  ordered := h.ordered
  within t mem := ⟨Nat.le_trans (mono le) (h.within t mem).1, (h.within t mem).2⟩
  answered := h.answered.imp_right fun ⟨pending, why⟩ =>
    ⟨pending, why.imp_right fun ⟨nil, asleep⟩ => ⟨nil, awake asleep⟩⟩

/-- **One `poll_acquire`.** -/
theorem acquire_draws (constant : Constant env rate r) (mono : Monotone env.clock) (pos : 0 < r)
    (wants : 0 < want) (knob : lb.rate = rate) :
    (acquire want).wp env k lb fun answer lb' k' =>
      Drawn env r want k k' lb (readings env want k lb) answer lb' := by
  have nonzero : r ≠ 0 := fun zero => by
    rw [zero] at pos
    exact absurd pos (by decide)
  have nonzero' : r.toNat ≠ 0 := fun zero => nonzero (UInt64.toNat_inj.mp zero)
  have awake : ∀ k lb, lb.rate = rate →
      (if want = 0 then pure ⟨0, none⟩ else do
        let rate ← readRate
        if rate = 0 then pure ⟨want, none⟩ else do
          let turns ← Polling.observe fun env k _ => env.coop k
          acquireLoop want rate turns : Io (LeakyBucket R) Grant).wp env k lb fun answer lb' k' =>
        Drawn env r want k k' lb (awakeReadings env want k lb) answer lb' := by
    intro k lb knob
    rw [if_neg (Nat.ne_of_gt wants), wp_bind, readRate, wp_observe]
    dsimp only
    rw [knob, constant.reports, if_neg nonzero, wp_bind, wp_observe]
    dsimp only
    rw [awakeReadings, if_neg (Nat.ne_of_gt wants), knob, constant.reports, if_neg nonzero]
    refine wp_mono (acquireLoop_draws constant mono nonzero' wants _ knob) fun answer lb' k' h => ?_
    exact h.before mono (show k ≤ k + 1 + 1 by omega) rfl rfl rfl id
  rw [acquire, wp_bind, wake_wp, readings]
  split
  · next sleeping =>
    split
    · have same : ({ lb with sleeping := false } : LeakyBucket R).rate = lb.rate := rfl
      refine wp_mono (awake (k + 1) _ (same.trans knob)) fun answer lb' k' h => ?_
      refine h.before mono (Nat.le_succ k) same ?_ ?_ fun _ => sleeping
      · rw [refills_awake]
      · rw [refills_awake]
    · exact {
        later := Nat.le_add_right _ _
        knob := rfl
        budget := rfl
        last := rfl
        ordered := List.Pairwise.nil
        within := fun t mem => by cases mem
        answered := .inr ⟨rfl, .inr ⟨rfl, sleeping⟩⟩ }
  · exact awake k lb knob

end LeakyBucket

/-! ## A writer that always has data -/

/-- In the states `inv` the writer takes everything it is offered, at once. -/
def Takes (T : Type) [AsyncWrite T] (inv : T → Prop) : Prop :=
  ∀ env k w (call : WriteCall), inv w → (call.poll : Io T Nat).wp env k w fun answer w' _ =>
    inv w' ∧ answer = .ok call.content.length

namespace WriteCall

/-- What is wanted is there to be offered. -/
theorem wanted_le (call : WriteCall) : call.wanted ≤ call.content.length := by
  cases call with
  | scalar buf => exact Nat.le_refl _
  | vectored bufs => exact Nat.mod_le _ _

theorem usable_of_le {grant : Nat} (call : WriteCall) (le : grant ≤ call.wanted) :
    call.usable grant = grant := by
  cases call with
  | scalar buf => exact Nat.min_eq_left le
  | vectored bufs => rfl

/-- A granted call offers what was granted. -/
theorem limited_length_of_le {grant : Nat} (call : WriteCall) (le : grant ≤ call.wanted) :
    (call.limited grant).content.length = grant := by
  have le := Nat.le_trans le call.wanted_le
  cases call with
  | scalar buf => exact List.length_take_of_le le
  | vectored bufs =>
    rw [limited, content, ThrottledWriter.limitSlices_flatten]
    exact List.length_take_of_le le

end WriteCall

namespace ThrottledWriter

open LeakyBucket

variable {T : Type} [AsyncWrite T] [Rate R] {inv : T → Prop} {rate : R} {t₀ start : Nat}

/-- One write: the clock readings of the refills it made, and the bytes it let through. -/
structure Lap where
  times : List Nat
  bytes : Nat
  deriving DecidableEq, Repr

/-- The lap of each write. -/
def laps (env : World) (s : Paced (ThrottledWriter T R)) (call : WriteCall) : List Lap :=
  [⟨readings env call.wanted (s.moment + 1) s.state.lb,
    (call.poll env s.moment s.state).result.value?.getD 0⟩]

/-- The cap does not bind in this write. -/
def CallUncapped (env : World) (r : UInt64) (s : Paced (ThrottledWriter T R)) (call : WriteCall) :
    Prop :=
  s.state.lb.Uncapped r (readings env call.wanted (s.moment + 1) s.state.lb)

instance {s : Paced (ThrottledWriter T R)} {call : WriteCall} :
    Decidable (CallUncapped env r s call) :=
  inferInstanceAs (Decidable (LeakyBucket.Uncapped _ _ _))

/-- What a write through a throttler comes to when the inner writer takes everything: the granted
tokens are the bytes let through. -/
structure Pulled (env : World) (r : UInt64) (want k k' : Nat) (lb : LeakyBucket R)
    (times : List Nat) (bytes : Nat) (lb' : LeakyBucket R) : Prop where
  later : k ≤ k'
  knob : lb'.rate = lb.rate
  budget : lb'.budget.toNat + bytes = (lb.refills r times).budget.toNat
  last : lb'.lastUpdate = (lb.refills r times).lastUpdate
  ordered : times.Pairwise (· ≤ ·)
  within : ∀ t ∈ times, env.clock k ≤ t ∧ t ≤ env.clock k'
  drained : (lb.refills r times).budget.toNat ≤ want →
    lb'.budget.toNat = 0 ∨ times = [] ∧ lb.sleeping = true

/-- **One write.** -/
theorem write_pulls (constant : Constant env rate r) (mono : Monotone env.clock) (pos : 0 < r)
    (takes : Takes T inv) {s : ThrottledWriter T R} (hinv : inv s.inner) (knob : s.lb.rate = rate)
    (call : WriteCall) (wants : 0 < call.wanted) :
    (call.poll : Io (ThrottledWriter T R) Nat).wp env k s fun answer s' k' =>
      inv s'.inner ∧ Pulled env r call.wanted k k' s.lb (readings env call.wanted (k + 1) s.lb)
        (answer.value?.getD 0) s'.lb := by
  rw [write_wp, knob, constant.limited]
  rw [if_neg (by decide)]
  refine wp_mono (acquire_draws constant mono pos wants knob) fun answer lb' k' drawn => ?_
  have drawn := drawn.before mono (Nat.le_succ k) rfl rfl rfl id
  rcases drawn.answered with ⟨grant, rfl, tokens, some⟩ | ⟨rfl, none⟩
  · have le : grant.tokens ≤ call.wanted := tokens ▸ Nat.min_le_left _ _
    have afford : grant.tokens ≤ lb'.budget.toNat := tokens ▸ Nat.min_le_right _ _
    dsimp only
    rw [call.usable_of_le le, if_neg (Nat.ne_of_gt some), forward_wp]
    refine wp_mono (wp_and (takes env k' s.inner (call.limited grant.tokens) hinv) (wp_later _)) ?_
    rintro answer inner k'' ⟨⟨hinv, rfl⟩, after⟩
    rw [call.limited_length_of_le le]
    refine ⟨hinv, Nat.le_trans drawn.later after, drawn.knob, ?_, drawn.last, drawn.ordered, ?_, ?_⟩
    · rw [← drawn.budget]
      simp only [Poll.value?, Option.getD_some, consume_toNat]
      omega
    · exact fun t mem => ⟨(drawn.within t mem).1, Nat.le_trans (drawn.within t mem).2 (mono after)⟩
    · intro enough
      rw [← drawn.budget] at enough
      refine .inl ?_
      simp only [consume_toNat]
      omega
  · refine ⟨hinv, drawn.later, drawn.knob, ?_, drawn.last, drawn.ordered, drawn.within, ?_⟩
    · rw [← drawn.budget]
      rfl
    · exact fun _ => none

/-! ## Over whole runs -/

/-- The books of a run of writes: what was on hand at the start and what was collected has gone
through or is still on hand. -/
structure Paid (env : World) (r : UInt64) (start t₀ onHand : Nat) (rate : R) (inv : T → Prop)
    (s : Paced (ThrottledWriter T R) × List Lap) : Prop where
  inner : inv s.1.state.inner
  knob : s.1.state.lb.rate = rate
  kept : Kept r start t₀ (env.clock s.1.moment) s.1.state.lb (s.2.map Lap.times).flatten
  total : (s.2.map Lap.bytes).sum + s.1.state.lb.budget.toNat =
    onHand + (collected r start (s.2.map Lap.times).flatten).tokens

variable {onHand : Nat}

/-- **One write keeps the books.** -/
theorem Paid.step (constant : Constant env rate r) (mono : Monotone env.clock) (pos : 0 < r)
    (takes : Takes T inv) {s : Paced (ThrottledWriter T R) × List Lap}
    (h : Paid env r start t₀ onHand rate inv s) (call : WriteCall) (wants : 0 < call.wanted)
    (uncapped : CallUncapped env r s.1 call) :
    Paid env r start t₀ onHand rate inv
      (((machine env WriteCall.poll).traced (laps env)).step s call).2 := by
  obtain ⟨⟨k, s⟩, log⟩ := s
  obtain ⟨hinv, pulled⟩ := machine_step (s := ⟨k, s⟩)
    (write_pulls constant mono pos takes h.inner h.knob call wants)
  have kept : Kept r start t₀ (env.clock k) s.lb (log.map Lap.times).flatten := h.kept
  have total : (log.map Lap.bytes).sum + s.lb.budget.toNat =
    onHand + (collected r start (log.map Lap.times).flatten).tokens := h.total
  have uncapped : s.lb.Uncapped r (readings env call.wanted (k + 1) s.lb) := uncapped
  obtain ⟨books, tokens⟩ := kept.refills uncapped pulled.ordered (mono pulled.later) pulled.within
  have log' : ((log ++ laps env ⟨k, s⟩ call).map Lap.times).flatten =
      (log.map Lap.times).flatten ++ readings env call.wanted (k + 1) s.lb := by
    simp only [laps, List.map_append, List.map_cons, List.map_nil, List.flatten_append,
      List.flatten_cons, List.flatten_nil, List.append_nil]
  refine ⟨hinv, pulled.knob.trans h.knob, ?_, ?_⟩
  · show Kept r start t₀ _ _ ((log ++ laps env ⟨k, s⟩ call).map Lap.times).flatten
    rw [log']
    exact books.later (Nat.le_refl _) pulled.last
  · show ((log ++ laps env ⟨k, s⟩ call).map Lap.bytes).sum + _ =
      onHand + (collected r start ((log ++ laps env ⟨k, s⟩ call).map Lap.times).flatten).tokens
    rw [log']
    have paid : (call.poll env k s).state.lb.budget.toNat +
        (call.poll env k s).result.value?.getD 0 =
          (s.lb.refills r (readings env call.wanted (k + 1) s.lb)).budget.toNat := pulled.budget
    show _ + (call.poll env k s).state.lb.budget.toNat = _
    simp only [laps, List.map_append, List.map_cons, List.map_nil, List.sum_append,
      List.sum_singleton]
    omega

/-- A bucket that holds at most a second's worth, and nothing while it sleeps. -/
structure Sober (r : UInt64) (lb : LeakyBucket R) : Prop where
  capped : lb.budget.toNat ≤ r.toNat
  asleep : lb.sleeping = true → lb.budget.toNat = 0

omit [Rate R] in
/-- A write that asks for a second's worth leaves nothing. -/
theorem Pulled.empties {want k k' bytes : Nat} {times : List Nat} {lb lb' : LeakyBucket R}
    (h : Pulled env r want k k' lb times bytes lb') (sober : Sober r lb) (enough : r.toNat ≤ want) :
    lb'.budget.toNat = 0 := by
  have capped : (lb.refills r times).budget.toNat ≤ r.toNat := refills_le sober.capped
  rcases h.drained (Nat.le_trans capped enough) with none | ⟨rfl, sleeping⟩
  · exact none
  · have budget : lb'.budget.toNat + bytes = lb.budget.toNat := h.budget
    have none := sober.asleep sleeping
    omega

/-- **Writing all there is.** -/
theorem writes_even_iff (constant : Constant env rate r) (mono : Monotone env.clock) (pos : 0 < r)
    (takes : Takes T inv) {s : ThrottledWriter T R} (hinv : inv s.inner) (knob : s.lb.rate = rate)
    (updated : UpdatedAt r t₀ s.lb) (le : t₀ ≤ env.clock k) (calls : List WriteCall)
    (data : ∀ call ∈ calls, 0 < call.wanted)
    (uncapped : ((machine env WriteCall.poll).traced (laps env)).Allowed
      (fun _ s call => CallUncapped env r s.1 call) (⟨k, s⟩, []) calls) :
    let final := (((machine env WriteCall.poll).traced (laps env)).run (⟨k, s⟩, []) calls).2
    let times := (final.2.map Lap.times).flatten
    s.lb.budget.toNat + (times.getLastD t₀ - t₀) * r.toNat / 1000000000 ≤
        (final.2.map Lap.bytes).sum + final.1.state.lb.budget.toNat + 1 ↔
      Fine r s.lb.lastUpdate t₀ times := by
  intro final times
  have books : Paid env r s.lb.lastUpdate t₀ s.lb.budget.toNat rate inv final := by
    refine Machine.run_induction
      (C := fun _ s call => 0 < call.wanted ∧ CallUncapped env r s.1 call)
      (P := fun _ s' => Paid env r s.lb.lastUpdate t₀ s.lb.budget.toNat rate inv s') ?_ ?_ ?_
    · refine ⟨hinv, knob, kept_nil updated le, ?_⟩
      exact Nat.zero_add _
    · rintro _ s' call h ⟨wants, uncapped⟩
      exact h.step constant mono pos takes call wants uncapped
    · exact Machine.allowedFrom_and.mpr ⟨Machine.allowedFrom_of_mem data, uncapped⟩
  have kept : Kept r s.lb.lastUpdate t₀ (env.clock final.1.moment) final.1.state.lb times := books.kept
  have lag := kept.collects.lag_iff (by decide) updated.since kept.le_last
  have total : (final.2.map Lap.bytes).sum + final.1.state.lb.budget.toNat =
    s.lb.budget.toNat + (collected r s.lb.lastUpdate times).tokens := books.total
  unfold Fine
  constructor
  · intro fast
    exact lag.mp (by omega)
  · intro fine
    have := lag.mpr fine
    omega

/-- The writer has used up its tokens. -/
structure Emptied (rate : R) (inv : T → Prop) (s : ThrottledWriter T R) : Prop where
  inner : inv s.inner
  knob : s.lb.rate = rate
  none : s.lb.budget.toNat = 0

theorem write_empties (constant : Constant env rate r) (mono : Monotone env.clock) (pos : 0 < r)
    (takes : Takes T inv) {s : ThrottledWriter T R} (hinv : inv s.inner) (knob : s.lb.rate = rate)
    (sober : Sober r s.lb) {call : WriteCall} (enough : r.toNat ≤ call.wanted) :
    (call.poll : Io (ThrottledWriter T R) Nat).wp env k s fun _ s' _ => Emptied rate inv s' := by
  have wants : 0 < call.wanted := Nat.lt_of_lt_of_le (UInt64.lt_iff_toNat_lt.mp pos) enough
  refine wp_mono (write_pulls constant mono pos takes hinv knob call wants) ?_
  intro answer s' k' ⟨hinv', pulled⟩
  exact ⟨hinv', pulled.knob.trans knob, pulled.empties sober enough⟩

/-- **A writer that always has a second's worth of data** has used up its tokens after each write. -/
theorem writes_empty (constant : Constant env rate r) (mono : Monotone env.clock) (pos : 0 < r)
    (takes : Takes T inv) {s : ThrottledWriter T R} (hinv : inv s.inner) (knob : s.lb.rate = rate)
    (sober : Sober r s.lb) (call : WriteCall) (calls : List WriteCall)
    (enough : ∀ call' ∈ call :: calls, r.toNat ≤ call'.wanted) :
    Emptied rate inv
      (((machine env WriteCall.poll).traced (laps env)).run (⟨k, s⟩, []) (call :: calls)).2.1.state := by
  have first : Emptied rate inv (call.poll env k s).state :=
    wp_iff.mp (write_empties constant mono pos takes hinv knob sober (enough call List.mem_cons_self))
  have rest (past : History WriteCall (Poll IoError Nat))
      (s' : Paced (ThrottledWriter T R) × List Lap) (start : Emptied rate inv s'.1.state) :
      Emptied rate inv
        (((machine env WriteCall.poll).traced (laps env)).runFrom past s' calls).2.1.state := by
    refine Machine.runFrom_induction (C := fun _ _ (call' : WriteCall) => r.toNat ≤ call'.wanted)
      (P := fun _ (s' : Paced _ × List Lap) => Emptied rate inv s'.1.state) ?_ start ?_
    · intro _ s' call' h enough
      have sober : Sober r s'.1.state.lb := ⟨h.none ▸ Nat.zero_le _, fun _ => h.none⟩
      exact wp_iff.mp (write_empties constant mono pos takes h.inner h.knob sober enough)
    · exact Machine.allowedFrom_of_mem fun call' mem => enough call' (List.mem_cons_of_mem _ mem)
  exact rest _ _ first

end ThrottledWriter

namespace LeakyBucket

open ThrottledWriter

/-- **When the throttler keeps its rate.** At a constant rate, while the one-second cap does not
bind: the accrual does not depend on how often the bucket is polled exactly if the refills drop less
than two tokens in all. For a writer that always has data and an inner writer that takes everything,
this is when what is let through keeps up with the rate. -/
theorem even_iff_fine [Rate R] {rate : R} (constant : Constant env rate r)
    (mono : Monotone env.clock) (pos : 0 < r) (t₀ : Nat) (le : t₀ ≤ env.clock k) :
    (∀ (lb : LeakyBucket R) (run : List Use), lb.rate = rate → UpdatedAt r t₀ lb →
      ((machine env Use.poll).traced (topups env)).Allowed
        (fun _ s use => UseUncapped env r s.1 use) (⟨k, lb⟩, []) run →
      let log := (((machine env Use.poll).traced (topups env)).run (⟨k, lb⟩, []) run).2.2
      let times := log.map Topup.time
      EvenAccrual r t₀ (times.getLastD t₀) (log.map Topup.added).sum ↔
        Fine r lb.lastUpdate t₀ times) ∧
    (∀ (T : Type) [AsyncWrite T] (inv : T → Prop), Takes T inv →
      ∀ (s : ThrottledWriter T R) (calls : List WriteCall), inv s.inner → s.lb.rate = rate →
      UpdatedAt r t₀ s.lb → (∀ call ∈ calls, 0 < call.wanted) →
      ((machine env WriteCall.poll).traced (laps env)).Allowed
        (fun _ s call => CallUncapped env r s.1 call) (⟨k, s⟩, []) calls →
      let final := (((machine env WriteCall.poll).traced (laps env)).run (⟨k, s⟩, []) calls).2
      let times := (final.2.map Lap.times).flatten
      let due := (times.getLastD t₀ - t₀) * r.toNat / 1000000000
      let through := (final.2.map Lap.bytes).sum
      (s.lb.budget.toNat + due ≤ through + final.1.state.lb.budget.toNat + 1 ↔
        Fine r s.lb.lastUpdate t₀ times) ∧
      (s.lb.budget = r → s.lb.sleeping = false → calls ≠ [] →
        (∀ call ∈ calls, r.toNat ≤ call.wanted) →
        (r.toNat + due ≤ through + 1 ↔ Fine r s.lb.lastUpdate t₀ times))) := by
  constructor
  · intro lb run knob updated uncapped
    exact uses_even_iff constant mono knob updated le run uncapped
  · intro T _ inv takes s calls hinv knob updated data uncapped
    have general := writes_even_iff constant mono pos takes hinv knob updated le calls data uncapped
    intro final times due through
    refine ⟨general, ?_⟩
    intro full awake some enough
    have sober : Sober r s.lb := ⟨by rw [full], fun asleep => by rw [awake] at asleep; cases asleep⟩
    have emptied : Emptied rate inv final.1.state := by
      obtain ⟨call, calls, rfl⟩ := List.exists_cons_of_ne_nil some
      exact writes_empty constant mono pos takes hinv knob sober call calls enough
    have none : final.1.state.lb.budget.toNat = 0 := emptied.none
    have general : s.lb.budget.toNat + due ≤ through + final.1.state.lb.budget.toNat + 1 ↔
      Fine r s.lb.lastUpdate t₀ times := general
    rwa [none, full] at general

/-- A fixed rate that is not zero. -/
theorem constant_of_pos (pos : 0 < r) : Constant env r r where
  reports _ := rfl
  limited _ := by
    have nonzero : r ≠ 0 := fun zero => absurd (zero ▸ pos) (by decide)
    exact beq_false_of_ne nonzero

/-- A clock that shows 100 ms more every twelve moments, which is how long a writer takes to find no
tokens, and to write when its sleep has ended. -/
def waking : World :=
  { World.still with
    clock := fun k => (k - 2) / 12 * 100000000
    alarm := fun deadline k => decide (deadline ≤ (k - 2) / 12 * 100000000) }

theorem waking_mono : Monotone waking.clock := by
  intro x y le
  have div : (x - 2) / 12 ≤ (y - 2) / 12 := Nat.div_le_div_right (Nat.sub_le_sub_right le 2)
  exact Nat.mul_le_mul_right _ div

/-- A socket that takes everything. -/
theorem socket_takes : Takes Socket fun socket => socket.writes = [] := by
  rintro env k ⟨log, writes⟩ call rfl
  cases call with
  | scalar buf => exact ⟨rfl, rfl⟩
  | vectored bufs => exact ⟨rfl, rfl⟩

/-- Nine writes, two for each sleep. -/
def nineWrites : List WriteCall := List.replicate 9 (.scalar (List.replicate 20 7))

/-- The writer of the runs below, at a rate of `r`. -/
def wakingWriter (r : UInt64) : ThrottledWriter Socket UInt64 := .new waking 0 ⟨[], []⟩ r

/-- At ten bytes a second nothing is dropped: a sleep of 100 ms is worth a whole token. -/
theorem even_ten :
    let final := (((machine waking WriteCall.poll).traced (laps waking)).run
      (⟨3, wakingWriter 10⟩, []) nineWrites).2
    let times := (final.2.map Lap.times).flatten
    10 + (times.getLastD 0 - 0) * 10 / 1000000000 ≤ (final.2.map Lap.bytes).sum + 1 := by
  have start : 0 ≤ waking.clock 3 := Nat.zero_le _
  have laws := even_iff_fine (constant_of_pos (r := 10) (by decide)) waking_mono (by decide) 0 start
  have fast := (laws.2 Socket _ socket_takes (wakingWriter 10) nineWrites rfl rfl
    ⟨by decide, by decide⟩ (by decide) (by decide)).2 rfl rfl (by decide) (by decide)
  exact fast.mpr (by decide)

/-- A clock that shows 100 ms more at each update. -/
def stepping : World := { World.still with clock := fun k => k / 2 * 100000000 }

/-- **At fifteen bytes a second the rate is not kept.** Each 100 ms are worth a token and a half, and
the half is dropped. Four updates add four tokens where six have accrued; and a writer that waits for
its tokens four times has let 19 bytes through where the rate allows 21. -/
theorem even_fails_fifteen :
    (let bucket : Paced (LeakyBucket UInt64) := ⟨2, 15, 0, 0, ⟨0⟩, false⟩
      let uses := (machine stepping Use.poll).traced (topups stepping)
      let run := List.replicate 4 Use.update
      let log := (uses.run (bucket, []) run).2.2
      UpdatedAt 15 0 bucket.state ∧
        uses.Allowed (fun _ s use => UseUncapped stepping 15 s.1 use) (bucket, []) run ∧
        log.map Topup.time = [100000000, 200000000, 300000000, 400000000] ∧
        ¬ EvenAccrual 15 0 400000000 (log.map Topup.added).sum) ∧
    (let writes := (machine waking WriteCall.poll).traced (laps waking)
      let final := (writes.run (⟨3, wakingWriter 15⟩, []) nineWrites).2
      let times := (final.2.map Lap.times).flatten
      UpdatedAt 15 0 (wakingWriter 15).lb ∧ (wakingWriter 15).lb.budget = 15 ∧
        writes.Allowed (fun _ s call => CallUncapped waking 15 s.1 call)
          (⟨3, wakingWriter 15⟩, []) nineWrites ∧
        times.getLastD 0 = 400000000 ∧
        ¬ 15 + (times.getLastD 0 - 0) * 15 / 1000000000 ≤ (final.2.map Lap.bytes).sum + 1) :=
  ⟨⟨⟨by decide, by decide⟩, by decide, by decide, by decide⟩,
    ⟨by decide, by decide⟩, by decide, by decide, by decide, by decide⟩

end LeakyBucket

end Trixter
