import Trixter.Lib.Bucket
import Trixter.Laws.Throttler
import Trixter.Ledger
import Trixter.Script

/-!
# The bound a throttler keeps

Each poll of a throttling adapter is a few moves of a token bucket with exact arithmetic, as long as
the clock stays within 2^64 ns of the bucket's creation: the `u128` product and the cast back lose
nothing. The bounds of token buckets are then bounds on the bytes the adapters let through:
`bounds_every_run`. On a clock that goes further nothing is claimed.
-/

namespace Trixter

open Trixter.Lib Polling

/-- Bytes that went through an adapter in one poll. `reading` is the clock reading of the refill
they were paid for after; bytes that no bucket was asked for have none. -/
structure Passage where
  bytes : Nat
  reading : Option Nat
  deriving DecidableEq, Repr

/-- The bytes let through by the bucket, with their times. -/
def metered (log : List Passage) : List Spent :=
  log.filterMap fun p => p.reading.map fun time => ⟨p.bytes, time⟩

/-- The bytes of a successful poll. -/
def passage (reading : Option Nat) : Poll IoError Nat → List Passage
  | .ok n => [⟨n, reading⟩]
  | _ => []

theorem metered_append (log log' : List Passage) :
    metered (log ++ log') = metered log ++ metered log' := List.filterMap_append

variable {R : Type} [Rate R] {env : World} {rate : R} {k k' born want n : Nat} {b b' : Bucket}

/-- Between two moments the knob may be found to report `value` when the clock shows `now`: a refill
reads the clock and then the knob. -/
def Reported (env : World) (rate : R) (start stop now value : Nat) : Prop :=
  ∃ j, start ≤ j ∧ j + 1 < stop ∧ now = env.clock j ∧ value = (Rate.rate env rate (j + 1)).toNat

/-- The knob was found at zero between two moments, by either of its methods. -/
def FoundUnlimited (env : World) (rate : R) (start stop : Nat) : Prop :=
  ∃ j, start ≤ j ∧ j < stop ∧ (Rate.rate env rate j = 0 ∨ Rate.isUnlimited env rate j = true)

theorem FoundUnlimited.mono {start start' stop stop' : Nat}
    (h : FoundUnlimited env rate start stop) (before : start' ≤ start) (after : stop ≤ stop') :
    FoundUnlimited env rate start' stop' := by
  obtain ⟨j, ge, lt, zero⟩ := h
  exact ⟨j, by omega, by omega, zero⟩

/-- The clock of a world in which a bucket was created at moment `born`. -/
structure Timely (env : World) (born : Nat) : Prop where
  mono : Monotone env.clock
  span : ∀ k, env.clock k < env.clock (born + 1) + 2 ^ 64

namespace LeakyBucket

variable {lb : LeakyBucket R}

/-- The product of `update_budget` fits in 128 bits. -/
theorem accrued_eq {since : Nat} {value : UInt64} (span : since < 2 ^ 64) :
    accrued since value = since * value.toNat / 1000000000 := by
  have fits : since * value.toNat < 2 ^ 128 := by
    calc since * value.toNat < 2 ^ 64 * 2 ^ 64 := Nat.mul_lt_mul'' span value.toNat_lt
      _ = 2 ^ 128 := rfl
  rw [accrued, Nat.mod_eq_of_lt fits]

/-- Neither the saturating sum nor the cast back to `usize` loses a token. -/
theorem refilled_toNat {budget value : UInt64} {added : Nat} :
    (refilled budget added value).toNat = min (budget.toNat + added) value.toNat := by
  have lt := value.toNat_lt
  rw [refilled, UInt64.toNat_ofNat']
  omega

omit [Rate R] in
theorem consume_toNat : (lb.consume n).budget.toNat = lb.budget.toNat - n := by
  have lt := lb.budget.toNat_lt
  simp only [consume]
  rw [UInt64.toNat_ofNat']
  omega

omit [Rate R] in
@[simp] theorem consume_zero : lb.consume 0 = lb := by
  simp only [consume, Nat.sub_zero, UInt64.ofNat_toNat]

/-- At moment `k` the code's bucket and the exact one `b` hold the same tokens, and `b` got there by
moves whose rates were reported since `born`. -/
structure Follows (env : World) (rate : R) (born k : Nat) (lb : LeakyBucket R) (b : Bucket) :
    Prop where
  moves : Bucket.Moves 1000000000 (Reported env rate born k)
    (.new (Rate.rate env rate born).toNat (env.clock (born + 1))) b
  knob : lb.rate = rate
  budget : b.budget = lb.budget.toNat
  last : b.last = lb.lastUpdate
  started : env.clock (born + 1) ≤ b.last
  past : b.time ≤ env.clock k
  born_lt : born < k

/-- A new bucket is full. -/
theorem follows_new (timely : Timely env born) (le : born + 3 ≤ k) :
    Follows env rate born k (new env born rate)
      (.new (Rate.rate env rate born).toNat (env.clock (born + 1))) where
  moves := .refl
  knob := rfl
  budget := rfl
  last := rfl
  started := Nat.le_refl _
  past := timely.mono (by omega)
  born_lt := by omega

/-- Moments pass. -/
theorem Follows.later (timely : Timely env born) (le : k ≤ k')
    (h : Follows env rate born k lb b) : Follows env rate born k' lb b :=
  { h with
    moves := h.moves.mono fun _ _ ⟨j, ge, lt, shown⟩ => ⟨j, ge, by omega, shown⟩
    past := Nat.le_trans h.past (timely.mono le)
    born_lt := Nat.lt_of_lt_of_le h.born_lt le }

/-- The sleep is not part of the tokens. -/
theorem Follows.asleep (h : Follows env rate born k lb b) (deadline : Nat) :
    Follows env rate born k (lb.asleep deadline) b :=
  { h with }

/-- **A refill is an exact refill.** -/
theorem Follows.turned (timely : Timely env born) (h : Follows env rate born k lb b) :
    Follows env rate born (k + 2) (lb.turned env k)
      (b.refill 1000000000 (env.clock k) (Rate.rate env rate (k + 1)).toNat) := by
  have past := h.past
  have started := h.started
  have span : env.clock k - lb.lastUpdate < 2 ^ 64 := by
    have := timely.span k
    have := h.last
    omega
  have added : accrued (env.clock k - lb.lastUpdate) (Rate.rate env rate (k + 1)) =
      b.added 1000000000 (env.clock k) (Rate.rate env rate (k + 1)).toNat := by
    rw [accrued_eq span, Bucket.added, h.last]
  have moves := (h.later timely (Nat.le_add_right k 2)).moves.snoc
    (.refill past ⟨k, Nat.le_of_lt h.born_lt, Nat.lt_succ_self _, rfl, rfl⟩)
  have elapsed : env.clock k ≤ env.clock (k + 2) := timely.mono (Nat.le_add_right _ _)
  have born_lt := h.born_lt
  have shown : (lb.turned env k).rate = rate ∧
      (b.refill 1000000000 (env.clock k) (Rate.rate env rate (k + 1)).toNat).budget =
        (lb.turned env k).budget.toNat ∧
      (b.refill 1000000000 (env.clock k) (Rate.rate env rate (k + 1)).toNat).last =
        (lb.turned env k).lastUpdate := by
    unfold LeakyBucket.turned updated Bucket.refill
    rw [h.knob, added]
    split
    · exact ⟨rfl, by rw [refilled_toNat, h.budget], rfl⟩
    · exact ⟨h.knob, h.budget, h.last⟩
  refine ⟨moves, shown.1, shown.2.1, shown.2.2, ?_, ?_, Nat.lt_add_right 2 born_lt⟩
  · unfold Bucket.refill
    split
    · exact timely.mono born_lt
    · exact started
  · rw [Bucket.refill_time]
    exact elapsed

/-- What a poll of the bucket leaves: the moves are followed, a grant is at most what was wanted, one
with a reading can be paid at that reading, and one without is empty or was made at a
rate of zero. -/
structure Granted (env : World) (rate : R) (born k k' want : Nat) (b : Bucket)
    (r : Poll IoError Grant) (lb : LeakyBucket R) (b' : Bucket) : Prop where
  le : ∀ grant, r = .ok grant → grant.tokens ≤ want
  follows : Follows env rate born k' lb b'
  spent : b'.spent = b.spent
  paid : ∀ grant, r = .ok grant → ∀ time, grant.reading = some time →
    grant.tokens ≤ b'.budget ∧ b'.time = time
  free : ∀ grant, r = .ok grant → grant.reading = none →
    grant.tokens = 0 ∨ FoundUnlimited env rate k k'

/-- **Asking the bucket follows the moves.** -/
theorem acquire_follows (want : Nat) (timely : Timely env born) (h : Follows env rate born k lb b) :
    (acquire want).wp env k lb fun r lb' k' =>
      ∃ b', Granted env rate born k k' want b r lb' b' := by
  refine acquire_of (I := fun lb' k' =>
    k ≤ k' ∧ ∃ b', Follows env rate born k' lb' b' ∧ b'.spent = b.spent) ?_ ⟨Nat.le_refl k, b, h, rfl⟩
  exact {
    later := fun k' lb' ⟨le, b', follows, spent⟩ =>
      ⟨by omega, b', follows.later timely (Nat.le_succ k'), spent⟩
    wakes := fun k' lb' ⟨le, b', follows, spent⟩ => ⟨le, b', { follows with }, spent⟩
    starves := fun k' lb' _ ⟨le, b', follows, spent⟩ _ _ =>
      ⟨by omega, _, ((follows.turned timely).later timely (Nat.le_succ _)).asleep _,
        Bucket.refill_spent.trans spent⟩
    grants := fun k' lb' ⟨le, b', follows, spent⟩ _ => by
      have turned := follows.turned timely
      refine ⟨_, ?_, turned, Bucket.refill_spent.trans spent, ?_, ?_⟩
      · rintro _ ⟨⟩
        exact Nat.min_le_left _ _
      · rintro _ ⟨⟩ time ⟨⟩
        rw [turned.budget]
        exact ⟨Nat.min_le_right _ _, Bucket.refill_time⟩
      · rintro _ ⟨⟩ ⟨⟩
    pends := fun k' lb' ⟨le, b', follows, spent⟩ =>
      ⟨b', fun _ eq => (by cases eq), follows, spent, fun _ eq => (by cases eq),
        fun _ eq => by cases eq⟩
    unwanted := fun k' lb' ⟨le, b', follows, spent⟩ _ => by
      refine ⟨b', ?_, follows, spent, ?_, ?_⟩
      · rintro _ ⟨⟩
        exact Nat.zero_le _
      · rintro _ ⟨⟩ time ⟨⟩
      · rintro _ ⟨⟩ -
        exact .inl rfl
    unlimited := fun k' lb' ⟨le, b', follows, spent⟩ zero => by
      refine ⟨b', ?_, follows.later timely (Nat.le_succ k'), spent, ?_, ?_⟩
      · rintro _ ⟨⟩
        exact Nat.le_refl _
      · rintro _ ⟨⟩ time ⟨⟩
      · rintro _ ⟨⟩ -
        rw [follows.knob] at zero
        exact .inr ⟨k', le, Nat.lt_succ_self k', .inl zero⟩ }

/-- The reading of the grant that a poll of the bucket makes. -/
def granted (env : World) (k want : Nat) (lb : LeakyBucket R) : Option Nat :=
  (acquire want env k lb).result.value?.bind Grant.reading

/-- What a whole poll of an adapter leaves: the moves are followed, what the bucket let through is
logged, and the rest is nothing or was let through by a knob at zero. -/
structure Metered (env : World) (rate : R) (born k k' : Nat) (b : Bucket) (log : List Passage)
    (lb : LeakyBucket R) (b' : Bucket) : Prop where
  follows : Follows env rate born k' lb b'
  spent : b'.spent = b.spent ++ metered log
  free : ∀ p ∈ log, p.reading = none → p.bytes = 0 ∨ FoundUnlimited env rate k k'
  past : ∀ p ∈ log, ∀ time ∈ p.reading, time ≤ env.clock k'

/-- A poll that let nothing through. -/
theorem Follows.metered_nil (h : Follows env rate born k' lb b') (spent : b'.spent = b.spent) :
    Metered env rate born k k' b [] lb b' where
  follows := h
  spent := by rw [spent, metered, List.filterMap_nil, List.append_nil]
  free _ mem := by cases mem
  past _ mem := by cases mem

/-- A poll that went past the bucket. -/
theorem Follows.metered_free (timely : Timely env born) (h : Follows env rate born k lb b)
    (le : k ≤ k') (zero : FoundUnlimited env rate k k') (r : Poll IoError Nat) :
    Metered env rate born k k' b (passage none r) lb b := by
  have log : metered (passage none r) = [] := by cases r <;> rfl
  refine ⟨h.later timely le, by rw [log, List.append_nil], fun _ _ _ => .inr zero, ?_⟩
  intro p mem
  cases r with
  | ok n =>
    cases List.mem_singleton.mp mem
    exact fun _ none => by cases none
  | _ => cases mem

/-- A poll that paid for at most what it was granted. -/
theorem Granted.metered_paid {grant : Grant} {k₀ : Nat} (timely : Timely env born)
    (h : Granted env rate born k k' want b (.ok grant) lb b') (le : n ≤ grant.tokens) (before : k₀ ≤ k)
    {k'' : Nat} (after : k' ≤ k'') :
    ∃ b'', Metered env rate born k₀ k'' b (passage grant.reading (.ok n)) (lb.consume n) b'' := by
  have follows := h.follows.later timely after
  cases reading : grant.reading with
  | none =>
    refine ⟨b'.waste n, { follows with
      moves := follows.moves.snoc .waste
      budget := ?_ }, ?_, ?_, ?_⟩
    · rw [consume_toNat, ← follows.budget]
      rfl
    · exact h.spent.trans (List.append_nil _).symm
    · intro p mem _
      cases List.mem_singleton.mp mem
      refine (h.free grant rfl reading).imp (fun zero => ?_) fun zero => zero.mono before after
      show n = 0
      omega
    · intro p mem
      cases List.mem_singleton.mp mem
      exact fun _ none => by cases none
  | some time =>
    obtain ⟨afford, stamp⟩ := h.paid grant rfl time reading
    refine ⟨b'.spend n, { follows with
      moves := follows.moves.snoc (.spend (by omega))
      budget := ?_ }, ?_, ?_, ?_⟩
    · rw [consume_toNat, ← follows.budget]
      rfl
    · rw [Bucket.spend_spent, h.spent, stamp]
      rfl
    · intro p mem none
      cases List.mem_singleton.mp mem
      cases none
    · intro p mem
      cases List.mem_singleton.mp mem
      rintro _ ⟨⟩
      rw [← stamp]
      exact follows.past

end LeakyBucket

/-! ## The writer -/

/-- A writer that never answers for more than it was offered. -/
def Fits (T : Type) [AsyncWrite T] : Prop :=
  ∀ env k w (call : WriteCall), (call.poll : Io T Nat).wp env k w fun r _ _ =>
    ∀ n, r = .ok n → n ≤ call.content.length

/-- A writer that keeps the write contract does not. -/
theorem Sink.fits {T : Type} [Sink T] : Fits T := fun _ _ _ call =>
  wp_mono (Sink.contract.call call trivial) fun _ _ _ h => h.2.fits

namespace WriteCall

/-- How many tokens a throttled writer asks for. -/
def wanted : WriteCall → Nat
  | .scalar buf => buf.length
  | .vectored bufs => bufs.flatten.length % 2 ^ 64

/-- How many of the granted tokens it uses. -/
def usable (grant : Nat) : WriteCall → Nat
  | .scalar buf => min grant buf.length
  | .vectored _ => grant

/-- The call it makes with them. -/
def limited (grant : Nat) : WriteCall → WriteCall
  | .scalar buf => .scalar (buf.take grant)
  | .vectored bufs => .vectored (ThrottledWriter.limitSlices grant bufs)

theorem usable_le (grant : Nat) (call : WriteCall) : call.usable grant ≤ grant := by
  cases call with
  | scalar buf => exact Nat.min_le_left _ _
  | vectored bufs => exact Nat.le_refl _

theorem limited_length (grant : Nat) (call : WriteCall) :
    (call.limited grant).content.length ≤ grant := by
  cases call with
  | scalar buf => exact List.length_take_le _ _
  | vectored bufs =>
    rw [limited, content, ThrottledWriter.limitSlices_flatten]
    exact List.length_take_le _ _

end WriteCall

namespace ThrottledWriter

variable {T : Type} {s : ThrottledWriter T R}

theorem forward_wp {call : Io T Nat} {Q : Poll IoError Nat → ThrottledWriter T R → Nat → Prop} :
    (forward call).wp env k s Q ↔ call.wp env k s.inner fun r inner k' =>
      match r with
      | .ok n => Q (.ok n) ⟨inner, s.lb.consume n⟩ k'
      | .pending => Q .pending { s with inner } k'
      | .err e => Q (.err e) { s with inner } k'
      | .panicked m => Q (.panicked m) { s with inner } k' := by
  unfold forward
  rw [wp_bind, onInner, wp_zoom, wp_iff, wp_iff]
  rcases call env k s.inner with ⟨r, inner, n⟩
  cases r <;> rfl

variable [AsyncWrite T]

/-- **One write**, through either entry point. -/
theorem write_wp (call : WriteCall) {Q : Poll IoError Nat → ThrottledWriter T R → Nat → Prop} :
    (call.poll : Io (ThrottledWriter T R) Nat).wp env k s Q ↔
      if Rate.isUnlimited env s.lb.rate k then
        call.poll.wp env (k + 1) s.inner fun r inner k' => Q r { s with inner } k'
      else (LeakyBucket.acquire call.wanted).wp env (k + 1) s.lb fun r lb k' =>
        match r with
        | .ok grant =>
          if call.usable grant.tokens = 0 then Q (.ok 0) { s with lb } k'
          else (forward (call.limited (call.usable grant.tokens)).poll).wp env k' { s with lb } Q
        | .pending => Q .pending { s with lb } k'
        | .err e => Q (.err e) { s with lb } k'
        | .panicked m => Q (.panicked m) { s with lb } k' := by
  cases call <;>
    simp only [WriteCall.poll, AsyncWrite.pollWrite, AsyncWrite.pollWriteVectored, wp_bind,
      isUnlimited, wp_observe, wp_ite, onInner, onLb, wp_zoom, LeakyBucket.pollAcquire_wp,
      wp_pure, WriteCall.wanted, WriteCall.usable, WriteCall.limited] <;>
    split <;> rfl

/-- The reading the bytes of a write are paid for after. -/
def reading (env : World) (k : Nat) (s : ThrottledWriter T R) (call : WriteCall) : Option Nat :=
  if Rate.isUnlimited env s.lb.rate k then none
  else LeakyBucket.granted env (k + 1) call.wanted s.lb

/-- The bytes that go through in one poll. -/
def passages (env : World) (s : Paced (ThrottledWriter T R)) : WriteOp → List Passage
  | .write call =>
    passage (reading env s.moment s.state call) (call.poll env s.moment s.state).result
  | .flush => []
  | .shutdown => []

open LeakyBucket in
/-- A granted write pays for what goes through. -/
theorem forward_metered {grant : Grant} {call : WriteCall} {k₀ : Nat} (fits : Fits T)
    (timely : Timely env born) (h : Granted env rate born k₀ k want b (.ok grant) s.lb b')
    (before : k' ≤ k₀) :
    (forward (call.limited (call.usable grant.tokens)).poll).wp env k s fun r s' k'' =>
      ∃ b'', Metered env rate born k' k'' b (passage grant.reading r) s'.lb b'' := by
  rw [forward_wp, wp_iff]
  have fit := fits env k s.inner (call.limited (call.usable grant.tokens))
  rw [wp_iff] at fit
  have later := Nat.le_add_right k
    ((call.limited (call.usable grant.tokens)).poll env k s.inner).took
  cases answer : ((call.limited (call.usable grant.tokens)).poll env k s.inner).result with
  | ok n =>
    have le : n ≤ grant.tokens := calc
      n ≤ _ := fit n answer
      _ ≤ call.usable grant.tokens := call.limited_length _
      _ ≤ grant.tokens := call.usable_le _
    exact h.metered_paid timely le before later
  | pending => exact ⟨b', (h.follows.later timely later).metered_nil h.spent⟩
  | err e => exact ⟨b', (h.follows.later timely later).metered_nil h.spent⟩
  | panicked m => exact ⟨b', (h.follows.later timely later).metered_nil h.spent⟩

open LeakyBucket in
/-- **Every write is moves of the bucket.** -/
theorem write_metered (fits : Fits T) (timely : Timely env born)
    (h : Follows env rate born k s.lb b) (call : WriteCall) :
    (call.poll : Io (ThrottledWriter T R) Nat).wp env k s fun r s' k' =>
      ∃ b', Metered env rate born k k' b (passage (reading env k s call) r) s'.lb b' := by
  rw [write_wp]
  by_cases unlimited : Rate.isUnlimited env s.lb.rate k = true
  · rw [if_pos unlimited, wp_iff, reading, if_pos unlimited]
    have zero : FoundUnlimited env rate k
        (k + 1 + ((call.poll : Io T Nat) env (k + 1) s.inner).took) :=
      ⟨k, Nat.le_refl k, by omega, .inr (h.knob ▸ unlimited)⟩
    exact ⟨b, h.metered_free timely (by omega) zero _⟩
  · rw [if_neg unlimited, wp_iff, reading, if_neg unlimited, granted]
    have grants := wp_iff.mp
      (acquire_follows call.wanted timely (h.later timely (Nat.le_succ k)))
    generalize acquire call.wanted env (k + 1) s.lb = o at grants ⊢
    obtain ⟨r, lb, took⟩ := o
    obtain ⟨b', grants⟩ := grants
    cases r with
    | ok grant =>
      dsimp only [Poll.value?, Option.bind_some]
      split
      · have paid := grants.metered_paid timely (Nat.zero_le _) (Nat.le_succ k) (Nat.le_refl _)
        rwa [consume_zero] at paid
      · exact forward_metered fits timely grants (Nat.le_succ k)
    | pending => exact ⟨b', grants.follows.metered_nil grants.spent⟩
    | err e => exact ⟨b', grants.follows.metered_nil grants.spent⟩
    | panicked m => exact ⟨b', grants.follows.metered_nil grants.spent⟩

end ThrottledWriter

/-! ## The reader -/

namespace ThrottledReader

variable {T : Type} [AsyncBufRead T] {s : ThrottledReader T R} {buf : ReadBuf}

omit [Rate R] in
/-- Bytes that fit are handed over, consumed and paid for. -/
theorem deliver_wp {rem : List UInt8} {amt : Nat} (fits : amt ≤ buf.remaining)
    {Q : Poll IoError Unit → ThrottledReader T R × ReadBuf → Nat → Prop} :
    (deliver rem amt).wp env k (s, buf) Q ↔
      Q (.ok ()) (⟨AsyncBufRead.consume amt s.inner, s.lb.consume amt⟩,
        { buf with filled := buf.filled ++ rem.take amt }) k := by
  simp only [deliver, onBuf, wp_bind, wp_zoom, wp_modify]
  rw [ReadBuf.putSlice_wp (Nat.le_trans (List.length_take_le _ _) fits)]

/-- **One read.** -/
theorem read_wp {Q : Poll IoError Unit → ThrottledReader T R × ReadBuf → Nat → Prop} :
    (pollRead : Io (ThrottledReader T R × ReadBuf) Unit).wp env k (s, buf) Q ↔
      if Rate.isUnlimited env s.lb.rate k then
        (pollRead : Io (T × ReadBuf) Unit).wp env (k + 1) (s.inner, buf) fun r t k' =>
          Q r ({ s with inner := t.1 }, t.2) k'
      else (pollFillBuf : Io T _).wp env (k + 1) s.inner fun r inner k' =>
        match r with
        | .ok rem => (LeakyBucket.acquire rem.length).wp env k' s.lb fun r lb k'' =>
          match r with
          | .ok grant =>
            let amt := min grant.tokens buf.remaining
            if amt = 0 then Q (.ok ()) (⟨inner, lb⟩, buf) k''
            else
              Q (.ok ()) (⟨AsyncBufRead.consume amt inner, lb.consume amt⟩,
                { buf with filled := buf.filled ++ rem.take amt }) k''
          | .pending => Q .pending (⟨inner, lb⟩, buf) k''
          | .err e => Q (.err e) (⟨inner, lb⟩, buf) k''
          | .panicked m => Q (.panicked m) (⟨inner, lb⟩, buf) k''
        | .pending => Q .pending ({ s with inner }, buf) k'
        | .err e => Q (.err e) ({ s with inner }, buf) k'
        | .panicked m => Q (.panicked m) ({ s with inner }, buf) k' := by
  simp only [AsyncRead.pollRead, wp_bind, isUnlimited, wp_observe, wp_ite, onInner, onLb, passRead,
    wp_zoom, LeakyBucket.pollAcquire_wp, wp_pure, wp_get]
  split
  · rfl
  · rw [wp_iff, wp_iff]
    rcases pollFillBuf env (k + 1) s.inner with ⟨r, inner, took⟩
    cases r with
    | ok rem =>
      dsimp only
      rw [wp_iff, wp_iff]
      rcases LeakyBucket.acquire rem.length env (k + 1 + took) s.lb with ⟨r, lb, took'⟩
      cases r with
      | ok grant =>
        dsimp only
        split
        · rfl
        · exact deliver_wp (Nat.min_le_right _ _)
      | _ => rfl
    | _ => rfl

/-- The reading the bytes of a read are paid for after. -/
def reading (env : World) (k : Nat) (s : ThrottledReader T R) : Option Nat :=
  if Rate.isUnlimited env s.lb.rate k then none
  else
    let look : Outcome IoError T _ := pollFillBuf env (k + 1) s.inner
    look.result.value?.bind fun rem =>
      LeakyBucket.granted env (k + 1 + look.took) rem.length s.lb

/-- The bytes that go through in one poll. What is taken through the buffered interface does not
pass the throttler. -/
def passages (env : World) (s : Paced (ThrottledReader T R)) : ReadCall → List Passage
  | .read buf =>
    passage (reading env s.moment s.state)
      (((ReadCall.read buf).poll env s.moment s.state).result.map List.length)
  | .fillBuf => []
  | .consume _ => []

open LeakyBucket in
/-- **Every read is moves of the bucket.** -/
theorem read_metered (timely : Timely env born) (h : Follows env rate born k s.lb b) :
    (pollRead : Io (ThrottledReader T R × ReadBuf) Unit).wp env k (s, buf) fun r s' k' =>
      ∃ b', Metered env rate born k k' b
        (passage (reading env k s) (r.map fun _ => (s'.2.filled.drop buf.filled.length).length))
        s'.1.lb b' := by
  rw [read_wp]
  by_cases unlimited : Rate.isUnlimited env s.lb.rate k = true
  · rw [if_pos unlimited, wp_iff, reading, if_pos unlimited]
    have zero : FoundUnlimited env rate k
        (k + 1 + ((pollRead : Io (T × ReadBuf) Unit) env (k + 1) (s.inner, buf)).took) :=
      ⟨k, Nat.le_refl k, by omega, .inr (h.knob ▸ unlimited)⟩
    exact ⟨b, h.metered_free timely (by omega) zero _⟩
  · rw [if_neg unlimited, wp_iff, reading, if_neg unlimited]
    generalize (pollFillBuf : Io T _) env (k + 1) s.inner = look
    obtain ⟨r, inner, took⟩ := look
    have arrived := h.later timely (show k ≤ k + 1 + took by omega)
    cases r with
    | ok rem =>
      dsimp only [Poll.value?, Option.bind_some, granted]
      rw [wp_iff]
      have grants := wp_iff.mp (acquire_follows rem.length timely arrived)
      generalize acquire rem.length env (k + 1 + took) s.lb = o at grants ⊢
      obtain ⟨r, lb, took'⟩ := o
      obtain ⟨b', grants⟩ := grants
      cases r with
      | ok grant =>
        have le := grants.le grant rfl
        have paid {n : Nat} (le : n ≤ grant.tokens) := grants.metered_paid timely le
          (show k ≤ k + 1 + took by omega) (Nat.le_refl _)
        dsimp only [Poll.value?, Option.bind_some]
        split
        · have paid := paid (Nat.zero_le _)
          rw [consume_zero] at paid
          simpa using paid
        · have paid := paid (Nat.min_le_left grant.tokens buf.remaining)
          have taken : ((buf.filled ++ rem.take (min grant.tokens buf.remaining)).drop
              buf.filled.length).length = min grant.tokens buf.remaining := by
            rw [List.drop_left, List.length_take]
            omega
          simpa only [Poll.map_ok, taken] using paid
      | pending => exact ⟨b', grants.follows.metered_nil grants.spent⟩
      | err e => exact ⟨b', grants.follows.metered_nil grants.spent⟩
      | panicked m => exact ⟨b', grants.follows.metered_nil grants.spent⟩
    | pending => exact ⟨b, arrived.metered_nil rfl⟩
    | err e => exact ⟨b, arrived.metered_nil rfl⟩
    | panicked m => exact ⟨b, arrived.metered_nil rfl⟩

open LeakyBucket in
/-- Every call of the owner is moves of the bucket. -/
theorem call_metered (timely : Timely env born) {s : Paced (ThrottledReader T R)}
    (h : Follows env rate born s.moment s.state.lb b) (call : ReadCall) :
    call.poll.wp env s.moment s.state fun _ s' k' =>
      ∃ b', Metered env rate born s.moment k' b (passages env s call) s'.lb b' := by
  cases call with
  | read buf =>
    have read : ((ReadCall.read buf).poll : Io (ThrottledReader T R) _).wp env s.moment s.state
        fun r s' k' => ∃ b', Metered env rate born s.moment k' b
          (passage (reading env s.moment s.state) (r.map List.length)) s'.lb b' := by
      simp only [ReadCall.poll, wp_map, wp_lend, Poll.map_map]
      exact read_metered timely h
    exact read
  | fillBuf => exact ⟨b, (h.later timely (Nat.le_add_right _ _)).metered_nil rfl⟩
  | consume amt => exact ⟨b, h.metered_nil rfl⟩

end ThrottledReader

namespace ThrottledWriter

variable {T : Type} [AsyncWrite T]

open LeakyBucket in
/-- Every operation is moves of the bucket. -/
theorem op_metered (fits : Fits T) (timely : Timely env born) {s : Paced (ThrottledWriter T R)}
    (h : Follows env rate born s.moment s.state.lb b) (op : WriteOp) :
    op.poll.wp env s.moment s.state fun _ s' k' =>
      ∃ b', Metered env rate born s.moment k' b (passages env s op) s'.lb b' := by
  have quiet {call : Io T Unit} :
      (do onInner call; return 0 : Io (ThrottledWriter T R) Nat).wp env s.moment s.state
        fun _ s' k' => ∃ b', Metered env rate born s.moment k' b [] s'.lb b' := by
    rw [wp_map]
    exact ⟨b, (h.later timely (Nat.le_add_right _ _)).metered_nil rfl⟩
  cases op with
  | write call => exact write_metered fits timely h call
  | flush => exact quiet
  | shutdown => exact quiet

end ThrottledWriter

/-! ## Over whole runs -/

namespace LeakyBucket

/-- What the passages of a run come to, when it ended at moment `stop` with the bucket `lb`. The
bucket was created at moment `born`. -/
structure Bounded (env : World) (rate : R) (born stop : Nat) (lb : LeakyBucket R)
    (log : List Passage) : Prop where
  /-- The code's arithmetic is exact. -/
  exact_ : ∃ b, Bucket.Moves 1000000000 (Reported env rate born stop)
      (.new (Rate.rate env rate born).toNat (env.clock (born + 1))) b ∧
    b.budget = lb.budget.toNat ∧ b.last = lb.lastUpdate ∧ b.spent = metered log
  /-- No rate above `top`. -/
  through : ∀ top, (∀ j, born ≤ j → j < stop → (Rate.rate env rate j).toNat ≤ top) →
    lb.budget.toNat ≤ top ∧
      ∀ t, spentWithin (metered log) 0 t ≤ top + top * (t - env.clock (born + 1)) / 1000000000
  /-- A constant rate. -/
  window : ∀ r, 0 < r → (∀ j, born ≤ j → j < stop →
      (Rate.rate env rate j).toNat = r ∧ Rate.isUnlimited env rate j = false) →
    (∀ p ∈ log, p.reading = none → p.bytes = 0) ∧
      ∀ s t, 1000000000 * spentWithin (metered log) s t <
        1000000000 * r + r * (t - s) + 1000000000

/-- What the moves of the bucket say of the passages. -/
theorem Metered.bounded {log : List Passage} {lb : LeakyBucket R}
    (h : Metered env rate born born k (.new (Rate.rate env rate born).toNat (env.clock (born + 1)))
      log lb b) : Bounded env rate born k lb log where
  exact_ := ⟨b, h.follows.moves, h.follows.budget, h.follows.last, h.spent⟩
  through top le := by
    have bound := h.follows.moves.through_le (by decide)
      (le born (Nat.le_refl _) h.follows.born_lt) fun now value ⟨j, ge, lt, _, eq⟩ =>
        eq ▸ le (j + 1) (by omega) lt
    rw [h.follows.budget, h.spent] at bound
    exact ⟨(bound 0).1, fun t => (bound t).2⟩
  window r pos constant := by
    refine ⟨fun p mem none => (h.free p mem none).resolve_right ?_, fun s t => ?_⟩
    · rintro ⟨j, ge, lt, zero | unlimited⟩
      · have := (constant j ge lt).1
        rw [zero] at this
        exact absurd this (Nat.ne_of_lt pos)
      · rw [(constant j ge lt).2] at unlimited
        cases unlimited
    · have bound := h.follows.moves.window_lt (by decide)
        (Nat.le_of_eq (constant born (Nat.le_refl _) h.follows.born_lt).1)
        (fun now value ⟨j, ge, lt, _, eq⟩ => eq ▸ (constant (j + 1) (by omega) lt).1) s t
      rwa [h.spent] at bound

/-- **The run rule.** If every poll is moves of the bucket, every run is. -/
theorem run_metered {σ ι α : Type} {program : ι → Io σ α}
    {emit : Paced σ → ι → List Passage} (timely : Timely env born) {start : Nat}
    (late : born + 3 ≤ start) (bucket : σ → LeakyBucket R) (s : σ)
    (fresh : bucket s = new env born rate)
    (step : ∀ s b, Follows env rate born s.moment (bucket s.state) b → ∀ i,
      (program i).wp env s.moment s.state fun _ s' k' =>
        ∃ b', Metered env rate born s.moment k' b (emit s i) (bucket s') b') (is : List ι) :
    ∃ b, Metered env rate born born
      (((machine env program).traced emit).run (⟨start, s⟩, []) is).2.1.moment
      (.new (Rate.rate env rate born).toNat (env.clock (born + 1)))
      (((machine env program).traced emit).run (⟨start, s⟩, []) is).2.2
      (bucket (((machine env program).traced emit).run (⟨start, s⟩, []) is).2.1.state) b := by
  refine Machine.run_invariant (P := fun _ (s : Paced σ × List Passage) =>
    ∃ b, Metered env rate born born s.1.moment
      (.new (Rate.rate env rate born).toNat (env.clock (born + 1))) s.2 (bucket s.1.state) b) ?_ ?_ is
  · refine ⟨_, Follows.metered_nil ?_ rfl⟩
    rw [fresh]
    exact follows_new timely late
  · rintro past ⟨s, log⟩ i ⟨b, h⟩
    obtain ⟨b', h'⟩ := machine_step (step s b h.follows i)
    have later : s.moment ≤ ((machine env program).step s i).2.moment := Nat.le_add_right _ _
    refine ⟨b', h'.follows, ?_, ?_, ?_⟩
    · show b'.spent = _ ++ metered (log ++ emit s i)
      rw [metered_append, ← List.append_assoc, ← h.spent, h'.spent]
    · intro p mem none
      rcases List.mem_append.mp mem with mem | mem
      · exact (h.free p mem none).imp_right fun zero => zero.mono (Nat.le_refl _) later
      · exact (h'.free p mem none).imp_right fun zero =>
          zero.mono (Nat.le_of_lt h.follows.born_lt) (Nat.le_refl _)
    · intro p mem time at_
      rcases List.mem_append.mp mem with mem | mem
      · exact Nat.le_trans (h.past p mem time at_) (timely.mono later)
      · exact h'.past p mem time at_

/-- **The bound of the throttlers.** On a monotone clock that stays within 2^64 ns of the bucket's
creation, whatever the inner stream answers and whatever the sequence of polls: the bucket never
panics, and the passages of a throttled writer and of a throttled reader are bounded. -/
theorem bounds_every_run {T U : Type} [AsyncWrite T] [AsyncBufRead U] (fits : Fits T) (env : World)
    (born start : Nat) (rate : R) (late : born + 3 ≤ start) (mono : Monotone env.clock)
    (span : ∀ k, env.clock k < env.clock (born + 1) + 2 ^ 64) :
    (∀ k want (lb : LeakyBucket R), Calm (pollAcquire want env k lb).result) ∧
    (∀ (inner : T) (run : List WriteOp),
      let final := (((writes (ThrottledWriter T R) env).traced (ThrottledWriter.passages env)).run
        (⟨start, ThrottledWriter.new env born inner rate⟩, []) run).2
      Bounded env rate born final.1.moment final.1.state.lb final.2) ∧
    (∀ (inner : U) (run : List ReadCall),
      let final := (((reads (ThrottledReader U R) env).traced (ThrottledReader.passages env)).run
        (⟨start, ThrottledReader.new env born inner rate⟩, []) run).2
      Bounded env rate born final.1.moment final.1.state.lb final.2) := by
  have timely : Timely env born := ⟨mono, span⟩
  refine ⟨fun k want lb => ?_, fun inner run => ?_, fun inner run => ?_⟩
  · have calm : (pollAcquire want).wp env k lb fun r _ _ => Calm r := by
      rw [pollAcquire_wp]
      refine wp_mono (acquire_le want) ?_
      rintro r lb' k' (rfl | ⟨grant, rfl, -⟩)
      · exact calm_pending
      · exact calm_ok _
    exact calm
  · obtain ⟨b, h⟩ := run_metered timely late ThrottledWriter.lb
      (ThrottledWriter.new env born inner rate) rfl
      (fun s b h op => ThrottledWriter.op_metered fits timely h op) run
    exact h.bounded
  · obtain ⟨b, h⟩ := run_metered timely late ThrottledReader.lb
      (ThrottledReader.new env born inner rate) rfl
      (fun s b h call => ThrottledReader.call_metered timely h call) run
    exact h.bounded

/-- A clock that shows a fifth of a second more at each reading, for a while. -/
def ticking : World := { World.still with clock := fun k => min k 100 * 200000000 }

/-- Seven bytes at five bytes a second, in two writes: five at once, two a second later. -/
def sevenBytes : List WriteOp := [.write (.scalar [1, 2, 3, 4, 5, 6, 7]), .flush, .write (.scalar [6, 7])]

/-- A run the bound speaks of. -/
theorem bounds_seven_bytes :
    let final := (((writes (ThrottledWriter Socket UInt64) ticking).traced
      (ThrottledWriter.passages ticking)).run
        (⟨3, ThrottledWriter.new ticking 0 ⟨[], []⟩ 5⟩, []) sevenBytes).2
    final.2 = [⟨5, some 1200000000⟩, ⟨2, some 2200000000⟩] ∧
      Bounded ticking (5 : UInt64) 0 final.1.moment final.1.state.lb final.2 :=
  ⟨by decide, (bounds_every_run (T := Socket) (U := Arrivals) Sink.fits ticking 0 3 (5 : UInt64) (by decide)
    (fun _ _ le => Nat.mul_le_mul_right _ (by omega))
    fun k => by simp only [ticking]; omega).2.1 ⟨[], []⟩ sevenBytes⟩

end LeakyBucket

end Trixter
