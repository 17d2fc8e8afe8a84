import Trixter.Reel
import Trixter.Laws.ThrottlerRuns

/-!
# What a throttled reader delivers, and what it costs

A throttled reader takes the inner stream in two ways: past the bucket by the inner `poll_read`, while
there is no limit, and by looking and consuming once there is one. The caller may look and consume
too. Every byte is delivered once and in order all the same, and a read under a limit takes from the
bucket what it delivers: nothing if it does not succeed, and else one token for each byte, all of which
are there (`delivers_and_pays`). A caller that looks and consumes by itself pays nothing.
-/

namespace Trixter

open Trixter.Lib Polling

variable {R : Type} [Rate R] {env : World} {k want : Nat}

namespace LeakyBucket

variable {lb lb' : LeakyBucket R}

/-- The second bucket is the first after some calls of `update_budget` between two moments. The sleep
is not part of it. -/
inductive Refills (env : World) (start stop : Nat) (lb : LeakyBucket R) : LeakyBucket R → Prop
  | none : Refills env start stop lb lb
  | refill {lb' : LeakyBucket R} (j : Nat) (ge : start ≤ j) (lt : j < stop)
    (before : Refills env start stop lb lb') : Refills env start stop lb (lb'.turned env j)
  | rests {lb' : LeakyBucket R} (sleep : Sleep) (sleeping : Bool)
    (before : Refills env start stop lb lb') : Refills env start stop lb { lb' with sleep, sleeping }

theorem Refills.mono {start start' stop stop' : Nat} (h : Refills env start stop lb lb')
    (before : start' ≤ start) (after : stop ≤ stop') : Refills env start' stop' lb lb' := by
  induction h with
  | none => exact .none
  | refill j ge lt _ ih =>
    exact .refill j (Nat.le_trans before ge) (Nat.lt_of_lt_of_le lt after) ih
  | rests sleep sleeping _ ih => exact .rests sleep sleeping ih

theorem Refills.later {start stop stop' : Nat} (h : Refills env start stop lb lb')
    (le : stop ≤ stop') : Refills env start stop' lb lb' :=
  h.mono (Nat.le_refl start) le

theorem Refills.rate {start stop : Nat} (h : Refills env start stop lb lb') : lb'.rate = lb.rate := by
  induction h with
  | none => rfl
  | refill j _ _ _ ih =>
    refine Eq.trans ?_ ih
    unfold turned updated
    split <;> rfl
  | rests _ _ _ ih => exact ih

/-- `poll_acquire` in terms of `acquire`. -/
theorem pollAcquire_eq (want : Nat) : pollAcquire want env k lb =
    ⟨(acquire want env k lb).result.map Grant.tokens, (acquire want env k lb).state,
      (acquire want env k lb).took⟩ := by
  show Polling.bind (acquire want) (fun grant => pure grant.tokens) env k lb = _
  unfold Polling.bind
  rcases acquire want env k lb with ⟨_ | e | grant | m, lb', took⟩ <;> rfl

/-- What a poll of the bucket comes to: it refills and deducts nothing, and what it grants is on hand,
if it has not found the knob at zero. -/
structure Affords (env : World) (k stop want : Nat) (lb : LeakyBucket R) (r : Poll IoError Nat)
    (lb' : LeakyBucket R) : Prop where
  refills : Refills env k stop lb lb'
  fits : ∀ n, r = .ok n → n ≤ want
  there : ∀ n, r = .ok n → ¬FoundUnlimited env lb.rate k stop → n ≤ lb'.budget.toNat

/-- **Asking the bucket costs nothing**, and a grant under a limit is on hand. -/
theorem pollAcquire_affords (want : Nat) : (pollAcquire want).wp env k lb fun r lb' stop =>
    Affords env k stop want lb r lb' := by
  rw [pollAcquire_wp]
  have polled : (acquire want).wp env k lb fun r lb' stop =>
      Affords env k stop want lb (r.map Grant.tokens) lb' := by
    refine acquire_of (I := fun lb' stop => k ≤ stop ∧ Refills env k stop lb lb') ?_
      ⟨Nat.le_refl k, .none⟩
    exact {
      later := fun j lb' ⟨le, h⟩ => ⟨by omega, h.later (Nat.le_succ j)⟩
      wakes := fun j lb' ⟨le, h⟩ => ⟨le, .rests _ _ h⟩
      starves := fun j lb' rate ⟨le, h⟩ _ _ =>
        ⟨by omega, .rests _ _ (.refill j le (by omega) (h.later (by omega)))⟩
      grants := fun j lb' ⟨le, h⟩ _ => by
        refine ⟨.refill j le (by omega) (h.later (by omega)), ?_, ?_⟩
        · rintro n ⟨⟩
          exact Nat.min_le_left _ _
        · rintro n ⟨⟩ -
          exact Nat.min_le_right _ _
      pends := fun j lb' ⟨le, h⟩ => ⟨h, nofun, nofun⟩
      unwanted := fun j lb' ⟨le, h⟩ _ => by
        refine ⟨h, ?_, ?_⟩
        · rintro n ⟨⟩
          exact Nat.zero_le _
        · rintro n ⟨⟩ -
          exact Nat.zero_le _
      unlimited := fun j lb' ⟨le, h⟩ zero => by
        refine ⟨h.later (Nat.le_succ j), ?_, ?_⟩
        · rintro n ⟨⟩
          exact Nat.le_refl _
        · rintro n - limited
          rw [h.rate] at zero
          exact absurd ⟨j, le, Nat.lt_succ_self j, .inl zero⟩ limited }
  refine wp_mono polled ?_
  rintro (_ | e | grant | m) lb' stop h <;> exact h

end LeakyBucket

namespace ThrottledReader

open LeakyBucket

section Pays

variable {T : Type} [AsyncBufRead T]

/-- The look at the inner reader that a read under a limit starts with. -/
def look (env : World) (s : Paced (ThrottledReader T R)) : Outcome IoError T (List UInt8) :=
  pollFillBuf env (s.moment + 1) s.state.inner

/-- The bucket as that read finds it after its refills. -/
def topped (env : World) (s : Paced (ThrottledReader T R)) : LeakyBucket R :=
  match (look env s).result with
  | .ok rem =>
    (pollAcquire rem.length env (s.moment + 1 + (look env s).took) s.state.lb).state
  | _ => s.state.lb

/-- A read that finds a limit pays for what it delivers: it refills the bucket, and if it is not a
success, that and the look are all it has done; if it is, and found a limit throughout, it takes one
token from the bucket for each byte it delivers, and the tokens are there. The other calls do not touch
the bucket. -/
def Pays (env : World) (s : Paced (ThrottledReader T R)) (call : ReadCall) : Prop :=
  let d := (reads (ThrottledReader T R) env).step s call
  match call with
  | .read _ =>
    Rate.isUnlimited env s.state.lb.rate s.moment = false →
      Refills env s.moment d.2.moment s.state.lb (topped env s) ∧
      ((∀ bytes, d.1 ≠ .ok bytes) → d.2.state = ⟨(look env s).state, topped env s⟩) ∧
      ∀ bytes, d.1 = .ok bytes → ¬FoundUnlimited env s.state.lb.rate s.moment d.2.moment →
        bytes.length ≤ (topped env s).budget.toNat ∧
          d.2.state.lb.budget.toNat = (topped env s).budget.toNat - bytes.length
  | _ => d.2.state.lb = s.state.lb

/-- **One read under a limit.** -/
theorem read_pays (s : Paced (ThrottledReader T R)) (buf : ReadBuf) : Pays env s (.read buf) := by
  intro limited
  have outcome : ((ReadCall.read buf).poll : Io (ThrottledReader T R) _).wp env s.moment s.state
      fun r s' stop => Refills env s.moment stop s.state.lb (topped env s) ∧
        ((∀ bytes, r ≠ .ok bytes) → s' = ⟨(look env s).state, topped env s⟩) ∧
        ∀ bytes, r = .ok bytes → ¬FoundUnlimited env s.state.lb.rate s.moment stop →
          bytes.length ≤ (topped env s).budget.toNat ∧
            s'.lb.budget.toNat = (topped env s).budget.toNat - bytes.length := by
    simp only [ReadCall.poll, wp_map, wp_lend, Poll.map_map]
    rw [read_wp, if_neg (Bool.eq_false_iff.mp limited), wp_iff]
    unfold topped look
    generalize (pollFillBuf : Io T _) env (s.moment + 1) s.state.inner = o
    obtain ⟨r, inner, took⟩ := o
    cases r with
    | ok rem =>
      have affords := wp_iff.mp (@pollAcquire_affords _ _ env (s.moment + 1 + took) s.state.lb rem.length)
      dsimp only
      rw [pollAcquire_eq] at affords ⊢
      rw [wp_iff]
      generalize acquire rem.length env (s.moment + 1 + took) s.state.lb = o at affords ⊢
      obtain ⟨r, lb, took'⟩ := o
      have refills := affords.refills.mono (show s.moment ≤ s.moment + 1 + took by omega)
        (Nat.le_refl _)
      cases r with
      | ok grant =>
        have fits : grant.tokens ≤ rem.length := affords.fits _ rfl
        dsimp only
        split
        · refine ⟨refills, fun no => absurd rfl (no _), ?_⟩
          rintro bytes ⟨⟩ -
          rw [List.drop_length]
          exact ⟨Nat.zero_le _, rfl⟩
        · refine ⟨refills, fun no => absurd rfl (no _), ?_⟩
          rintro bytes ⟨⟩ limited
          have there : grant.tokens ≤ lb.budget.toNat :=
            affords.there _ rfl fun zero => limited (zero.mono (by omega) (Nat.le_refl _))
          have count : ((buf.filled ++ rem.take (min grant.tokens buf.remaining)).drop
              buf.filled.length).length = min grant.tokens buf.remaining := by
            rw [List.drop_left, List.length_take]
            omega
          rw [count]
          exact ⟨Nat.le_trans (Nat.min_le_left _ _) there, consume_toNat⟩
      | pending => exact ⟨refills, fun _ => rfl, fun _ answer => by cases answer⟩
      | err e => exact ⟨refills, fun _ => rfl, fun _ answer => by cases answer⟩
      | panicked m => exact ⟨refills, fun _ => rfl, fun _ answer => by cases answer⟩
    | pending => exact ⟨.none, fun _ => rfl, fun _ answer => by cases answer⟩
    | err e => exact ⟨.none, fun _ => rfl, fun _ answer => by cases answer⟩
    | panicked m => exact ⟨.none, fun _ => rfl, fun _ answer => by cases answer⟩
  exact outcome

theorem call_pays (s : Paced (ThrottledReader T R)) (call : ReadCall) : Pays env s call := by
  cases call with
  | read buf => exact read_pays s buf
  | fillBuf => rfl
  | consume amt => rfl

end Pays

section Whole

variable {T : Type} [OneStream T]

/-- What a look shows is what comes next. -/
def Shows (env : World) (s : Paced (ThrottledReader (Reel T) R)) (call : ReadCall) : Prop :=
  let d := (reads (ThrottledReader (Reel T) R) env).step s call
  match call with
  | .fillBuf => ∀ rem, d.1 = .ok rem → buffered d.2.state.inner.value = rem
  | _ => True

variable {s : ThrottledReader (Reel T) R} {taken : List UInt8}

/-- **One read takes the next bytes**, through the bucket or past it. -/
theorem read_splits (h : Reel.Splits taken s.inner) (buf : ReadBuf) :
    ((ReadCall.read buf).poll : Io (ThrottledReader (Reel T) R) _).wp env k s fun r s' _ =>
      Reel.Splits (taken ++ r.value?.getD []) s'.inner := by
  simp only [ReadCall.poll, wp_map, wp_lend, Poll.map_map]
  rw [read_wp]
  split
  · refine wp_mono (h.read buf) ?_
    rintro (_ | e | u | m) t stop ⟨splits, none⟩
    · rwa [none fun answer => by cases answer] at splits
    · rwa [none fun answer => by cases answer] at splits
    · exact splits
    · rwa [none fun answer => by cases answer] at splits
  · refine wp_mono h.look ?_
    rintro (_ | e | rem | m) inner stop ⟨splits, shows⟩
    · rwa [← List.append_nil taken] at splits
    · rwa [← List.append_nil taken] at splits
    · obtain rfl : buffered inner.value = rem := shows rem rfl
      have idle : Reel.Splits (taken ++ []) inner := by rwa [List.append_nil]
      dsimp only
      rw [wp_iff]
      generalize LeakyBucket.acquire _ env stop s.lb = o
      obtain ⟨_ | e | grant | m, lb, took⟩ := o
      · exact idle
      · exact idle
      · dsimp only
        split
        · have none : (buf.filled.drop buf.filled.length) = [] := List.drop_length
          show Reel.Splits (taken ++ buf.filled.drop buf.filled.length) inner
          rwa [none]
        · have splits := splits.consume (min grant.tokens buf.remaining)
          show Reel.Splits (taken ++ List.drop buf.filled.length (buf.filled ++ _)) _
          rwa [List.drop_left]
      · exact idle
    · rwa [← List.append_nil taken] at splits

/-- **One call keeps the stream whole.** -/
theorem call_splits {s : Paced (ThrottledReader (Reel T) R)} (h : Reel.Splits taken s.state.inner)
    (call : ReadCall) :
    Reel.Splits (taken ++ Reel.obtains env ThrottledReader.inner s call)
        ((reads (ThrottledReader (Reel T) R) env).step s call).2.state.inner ∧ Shows env s call := by
  cases call with
  | read buf => exact ⟨machine_step (read_splits h buf), trivial⟩
  | fillBuf =>
    obtain ⟨splits, shows⟩ := wp_iff.mp (@Reel.Splits.look _ _ env s.moment _ _ h)
    refine ⟨?_, shows⟩
    rw [Reel.obtains, List.append_nil]
    exact splits
  | consume amt => exact ⟨h.consume amt, trivial⟩

/-- **A throttled reader loses and repeats nothing, and pays exactly for what it delivers.** Whatever
the knob and the clock do, and however the caller reads, looks and consumes: what it has obtained and
what is unread are the inner stream, each byte once and in order, and a look shows what comes next;
and every call pays for what it delivers. -/
theorem delivers_and_pays (env : World) (k : Nat) (inner : T) (lb : LeakyBucket R)
    (calls : List ReadCall) :
    let reader := (reads (ThrottledReader (Reel T) R) env).traced (Reel.obtains env ThrottledReader.inner)
    let s : Paced (ThrottledReader (Reel T) R) := ⟨k, ⟨.start inner, lb⟩⟩
    reader.Throughout (fun _ s => s.2 ++ buffered s.1.state.inner.value = s.1.state.inner.stream)
        (s, []) calls ∧
      reader.Allowed (fun _ s call => Shows env s.1 call) (s, []) calls ∧
      reader.Allowed (fun _ s call => Pays env s.1 call) (s, []) calls := by
  intro reader s
  have keep : ∀ (s : Paced (ThrottledReader (Reel T) R) × List UInt8) (call : ReadCall),
      Reel.Splits s.2 s.1.state.inner →
      Reel.Splits (reader.step s call).2.2 (reader.step s call).2.1.state.inner :=
    fun s call h => (call_splits h call).1
  have start : Reel.Splits [] (Reel.start inner) := Reel.splits_start inner
  refine ⟨?_, ?_, ?_⟩
  · exact Machine.allowedFrom_of_invariant keep (fun _ s call h => keep s call h) start
  · exact Machine.allowedFrom_of_invariant keep (fun _ s call h => (call_splits h call).2) start
  · apply Machine.allowedFrom_of_forall
    intro _ s call
    exact call_pays s.1 call

/-- Four bytes a second, read three at a time: the first read leaves one token, and it buys the fourth
byte. -/
example :
    let s : Paced (ThrottledReader (Reel Arrivals) UInt64) :=
      ⟨3, .new .still 0 (.start ⟨[1, 2, 3, 4, 5], []⟩) 4⟩
    let d := (reads (ThrottledReader (Reel Arrivals) UInt64) .still).run s
      [.read ⟨[], 3⟩, .read ⟨[], 3⟩]
    d.1.map Prod.snd = [.ok [1, 2, 3], .ok [4]] ∧ d.2.state.lb.budget = 0 := by decide

end Whole

end ThrottledReader

end Trixter
