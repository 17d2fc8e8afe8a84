import Trixter.Laws.Relay
import Trixter.Laws.ThrottlerRuns

/-!
# The bandwidth of a connection

`bandwidth_bounded`: the bucket over a socket pays for every byte the socket receives, whichever adapter
above made it, so the rates of a connection's knob bound what its sockets have received since it was
accepted. The bound is from above only: how soon a byte gets through is not its subject.
-/

namespace Trixter

open Trixter.Lib Polling

/-! ## The bucket's books -/

namespace LeakyBucket

variable {R : Type} [Rate R] {env : World} {rate : R} {born k k' n : Nat} {b b' b'' : Bucket}
  {lb lb' : LeakyBucket R} {log log' : List Passage}

/-- Moments pass. -/
theorem Metered.later (timely : Timely env born) (le : k ≤ k')
    (h : Metered env rate born born k b log lb b') : Metered env rate born born k' b log lb b' where
  follows := h.follows.later timely le
  spent := h.spent
  free p mem none := (h.free p mem none).imp_right fun zero => zero.mono (Nat.le_refl _) le
  past p mem time at_ := Nat.le_trans (h.past p mem time at_) (timely.mono le)

/-- One poll after another. -/
theorem Metered.trans (timely : Timely env born) (le : k ≤ k')
    (h : Metered env rate born born k b log lb b')
    (h' : Metered env rate born k k' b' log' lb' b'') :
    Metered env rate born born k' b (log ++ log') lb' b'' where
  follows := h'.follows
  spent := by rw [h'.spent, h.spent, metered_append, List.append_assoc]
  free p mem none := by
    rcases List.mem_append.mp mem with mem | mem
    · exact (h.later timely le).free p mem none
    · exact (h'.free p mem none).imp_right fun zero =>
        zero.mono (Nat.le_of_lt h.follows.born_lt) (Nat.le_refl _)
  past p mem time at_ := by
    rcases List.mem_append.mp mem with mem | mem
    · exact (h.later timely le).past p mem time at_
    · exact h'.past p mem time at_

/-- The bucket, created at moment `born`, has let through these many bytes. -/
def Paid (env : World) (rate : R) (born k n : Nat) (lb : LeakyBucket R) : Prop :=
  ∃ log b, Metered env rate born born k (.new (Rate.rate env rate born).toNat (env.clock (born + 1)))
    log lb b ∧ (log.map Passage.bytes).sum = n

theorem paid_new (timely : Timely env born) (le : born + 3 ≤ k) :
    Paid env rate born k 0 (new env born rate) :=
  ⟨[], _, (follows_new timely le).metered_nil rfl, rfl⟩

theorem Paid.later (timely : Timely env born) (le : k ≤ k') (h : Paid env rate born k n lb) :
    Paid env rate born k' n lb := by
  obtain ⟨log, b, metered, total⟩ := h
  exact ⟨log, b, metered.later timely le, total⟩

/-- The bytes of a log that no bucket at a rate of zero let through have all been paid for. -/
theorem sum_le_spent {t : Nat} (free : ∀ p ∈ log, p.reading = none → p.bytes = 0)
    (past : ∀ p ∈ log, ∀ time ∈ p.reading, time ≤ t) :
    (log.map Passage.bytes).sum ≤ spentWithin (metered log) 0 t := by
  induction log using List.reverseRecOn with
  | nil => exact Nat.zero_le _
  | append_singleton log p ih =>
    have rest := ih (fun q mem => free q (List.mem_append_left _ mem))
      fun q mem => past q (List.mem_append_left _ mem)
    have last : p ∈ log ++ [p] := List.mem_append_right _ List.mem_cons_self
    rw [List.map_append, List.sum_append, metered_append]
    cases reading : p.reading with
    | none =>
      have none : metered [p] = [] := by simp [metered, reading]
      rw [none, List.append_nil, List.map_singleton, List.sum_singleton, free p last reading]
      exact rest
    | some time =>
      have one : metered [p] = [⟨p.bytes, time⟩] := by simp [metered, reading]
      rw [one, spentWithin_snoc, if_pos ⟨Nat.zero_le _, past p last time reading⟩,
        List.map_singleton, List.sum_singleton]
      exact Nat.add_le_add_right rest _

/-- **What a bucket lets through**, at rates that are never zero. -/
theorem Paid.le {top : Nat} (rates : ∀ j, born ≤ j → 0 < (Rate.rate env rate j).toNat ∧
      (Rate.rate env rate j).toNat ≤ top ∧ Rate.isUnlimited env rate j = false)
    (h : Paid env rate born k n lb) :
    n ≤ top + top * (env.clock k - env.clock (born + 1)) / 1000000000 := by
  obtain ⟨log, b, metered, rfl⟩ := h
  have free : ∀ p ∈ log, p.reading = none → p.bytes = 0 := by
    intro p mem none
    refine (metered.free p mem none).resolve_right ?_
    rintro ⟨j, ge, -, zero | unlimited⟩
    · have pos := (rates j ge).1
      rw [zero] at pos
      exact absurd pos (Nat.lt_irrefl 0)
    · rw [(rates j ge).2.2] at unlimited
      cases unlimited
  calc (log.map Passage.bytes).sum
      ≤ spentWithin (Trixter.metered log) 0 (env.clock k) := sum_le_spent free metered.past
    _ ≤ _ := (metered.bounded.through top fun j ge _ => (rates j ge).2.1).2 (env.clock k)

end LeakyBucket

/-! ## The law -/

section Law

open LeakyBucket

variable {T R : Type} [Rate R] {law : Law T} {env : World} {rate : R} {born : Nat}

/-- A throttled writer whose bucket has paid for all that its owner was told it accepted. -/
def Law.metered (law : Law T) (timely : Timely env born) (rate : R) : Law (ThrottledWriter T R) where
  holds k b s := law.holds k b s.inner ∧ Paid env rate born k b.said.length s.lb
  fails e k b s := law.fails e k b s.inner ∧ Paid env rate born k b.said.length s.lb
  holds_later later h := ⟨law.holds_later later h.1, h.2.later timely later⟩
  fails_later later h := ⟨law.fails_later later h.1, h.2.later timely later⟩

variable [AsyncRead T] [AsyncWrite T] {k : Nat} {b : Books} {s : ThrottledWriter T R}

/-- **A write is paid for.** -/
theorem ThrottledWriter.write_paid (h : Upholds env law) (fits : Fits T) (timely : Timely env born)
    (hs : (law.metered timely rate).holds k b s) (buf : List UInt8) :
    (pollWrite buf : Io (ThrottledWriter T R) Nat).Ends env k s
      ((law.metered timely rate).writing b buf) := by
  obtain ⟨hold, log, bucket, metered, total⟩ := hs
  have books : (pollWrite buf : Io (ThrottledWriter T R) Nat).Ends env k s
      ((law.of ThrottledWriter.inner).writing b buf) :=
    (ThrottledWriter.upholds h).write buf hold
  refine wp_mono (wp_and (wp_and books (write_metered fits timely metered.follows (.scalar buf)))
    (wp_later _)) ?_
  rintro r s' k' ⟨⟨left, bucket', metered'⟩, later⟩
  have paid := metered.trans timely later metered'
  cases r with
  | ok n =>
    refine ⟨left.1, left.2, _, bucket', paid, ?_⟩
    rw [List.map_append, List.sum_append, total, Books.say_said, List.length_append,
      List.length_take_of_le left.1]
    rfl
  | pending =>
    refine ⟨left, log ++ [], bucket', paid, ?_⟩
    rw [List.append_nil]
    exact total
  | err e =>
    refine ⟨left, log ++ [], bucket', paid, ?_⟩
    rw [List.append_nil]
    exact total
  | panicked m => exact left

/-- Over a writer that upholds its law, a throttling one pays for what it writes. -/
theorem ThrottledWriter.meters (h : Upholds env law) (fits : Fits T) (timely : Timely env born) :
    Upholds env (law.metered timely rate) where
  read buf hs := ends_zoom.mpr (ends_mono (h.read buf hs.1)
    (fun _ _ _ later ⟨bytes, filled, hold⟩ => ⟨bytes, filled, hold, hs.2.later timely later⟩)
    (fun _ _ later hold => ⟨hold, hs.2.later timely later⟩)
    fun _ _ _ later failed => ⟨failed, hs.2.later timely later⟩)
  write buf hs := write_paid h fits timely hs buf
  flush hs := ends_zoom.mpr (ends_mono (h.flush hs.1)
    (fun _ _ _ later hold => ⟨hold, hs.2.later timely later⟩)
    (fun _ _ later hold => ⟨hold, hs.2.later timely later⟩)
    fun _ _ _ later failed => ⟨failed, hs.2.later timely later⟩)
  shutdown hs := ends_zoom.mpr (ends_mono (h.shutdown hs.1)
    (fun _ _ _ later hold => ⟨hold, hs.2.later timely later⟩)
    (fun _ _ later hold => ⟨hold, hs.2.later timely later⟩)
    fun _ _ _ later failed => ⟨failed, hs.2.later timely later⟩)

end Law

/-! ## The connection -/

/-- A delayed sink takes what it is offered, at most. -/
theorem DelayedWriter.fits {T D : Type} [Sink T] [Duration D] [ShortDuration D] :
    Fits (DelayedWriter T D) :=
  fun _ _ _ call => wp_mono ((DelayedWriter.contract Sink.contract).call call trivial)
    fun _ _ _ h => h.2.fits

/-- A clock that never goes back, and shows less than 2^64 ns in all. -/
structure Steady (env : World) : Prop where
  mono : Monotone env.clock
  span : ∀ k, env.clock k < env.clock 0 + 2 ^ 64

theorem Steady.timely {env : World} (steady : Steady env) (born : Nat) : Timely env born where
  mono := steady.mono
  span k := Nat.lt_of_lt_of_le (steady.span k)
    (Nat.add_le_add_right (steady.mono (Nat.zero_le _)) _)

variable {A B W G : Type} {env : World}

namespace Pipeline

/-- What its socket's books and its bucket say of it, delays apart. -/
def paidBooks (W : Type) [Peer W] (steady : Steady env) (rate : DynamicRate) (born : Nat) :
    Law (ThrottledWriter (DelayedWriter W DynamicDuration) DynamicRate) :=
  ((Law.ledger (W := W) given received).of DelayedWriter.inner).metered (steady.timely born) rate

variable [Peer W] {steady : Steady env} {rate : DynamicRate} {prob : DynamicProbability}
  {born k : Nat} {b : Books} {s : Pipeline W G}

theorem paidBooks_upheld : Upholds env (paidBooks W steady rate born) :=
  ThrottledWriter.meters (DelayedWriter.upholds (Peer.honest env)) DelayedWriter.fits
    (steady.timely born)

/-- The bucket's own. -/
def lb (s : Pipeline W G) : LeakyBucket DynamicRate := s.inner.inner.inner.lb

theorem paid_of_holds (h : (law env prob (paidBooks W steady rate born)).holds k b s) :
    LeakyBucket.Paid env rate born k (received s.socket).length s.lb := by
  obtain ⟨knob, stored, inner, heard, said, ⟨⟨⟨heard', said'⟩, paid⟩, writing⟩, whole⟩ := h
  exact said' ▸ paid

theorem paid_of_fails {e : IoError} (h : (law env prob (paidBooks W steady rate born)).fails e k b s) :
    LeakyBucket.Paid env rate born k (received s.socket).length s.lb := by
  obtain ⟨knob, inner, heard, said, failed⟩ := h
  rcases failed with (⟨-, ⟨⟨⟨-, said'⟩, paid⟩, -⟩, -⟩ | ⟨⟨⟨-, -, said'⟩, paid⟩, -⟩) |
    ⟨-, ⟨⟨⟨-, said'⟩, paid⟩, -⟩, -⟩
  · exact said' ▸ paid
  · exact said' ▸ paid
  · exact said' ▸ paid

/-- A wrapped socket that nothing has passed through. -/
theorem new_paid [SmallRng G] (steady : Steady env) (j : Nat) (knobs : Knobs) (baseRng : G) {w : W}
    (fresh : Peer.Fresh w) (le : j + 4 ≤ k) :
    (law env knobs.corruptProbabilityRate (paidBooks W steady knobs.throttleRate (j + 1))).holds k
      .blank (new env j w knobs baseRng).1 :=
  ⟨rfl, fun some => absurd rfl some, .blank, .refl, .refl,
    ⟨⟨fresh, LeakyBucket.paid_new (steady.timely _) le⟩, rfl⟩, rfl⟩

end Pipeline

namespace Task

variable [Peer W] {there : Transfer A (Shutdowner (Pipeline W G)) (Pipeline W G)}
  {back : Transfer B (Pipeline W G) (Shutdowner (Pipeline W G))} {steady : Steady env} {k : Nat}
  {t : Task A B W G}

variable (there back) in
/-- A task accepted at moment `j` with these two knobs, both of whose buckets pay for what the socket
receives. -/
def Pays (steady : Steady env) (knobs : DynamicProbability × DynamicRate) (j k : Nat)
    (t : Task A B W G) : Prop :=
  KeepsLaws there back (Pipeline.law env knobs.1 (Pipeline.paidBooks W steady knobs.2 (j + 1)))
    (Pipeline.law env knobs.1 (Pipeline.paidBooks W steady knobs.2 (j + 5))) k t

/-- **Both sockets have been paid for.** -/
theorem Pays.paid {knobs : DynamicProbability × DynamicRate} {j : Nat}
    (h : Pays there back steady knobs j k t) :
    LeakyBucket.Paid env knobs.2 (j + 1) k (received t.copying.downstream.inner.socket).length
        t.copying.downstream.inner.lb ∧
      LeakyBucket.Paid env knobs.2 (j + 5) k (received t.copying.upstream.socket).length
        t.copying.upstream.lb := by
  obtain ⟨-, -, -, paid⟩ := KeepsLaws.sides h (fun _ _ => Pipeline.paid_of_holds)
    (fun _ _ => Pipeline.paid_of_holds) (fun _ _ _ => Pipeline.paid_of_fails)
    fun _ _ _ => Pipeline.paid_of_fails
  exact paid

end Task

namespace Server

variable [SmallRng G] [Peer W] {there : Transfer A (Shutdowner (Pipeline W G)) (Pipeline W G)}
  {back : Transfer B (Pipeline W G) (Shutdowner (Pipeline W G))} {top : Nat}

/-- The knob never reports zero, nor more than `top`. -/
def Limits (env : World) (top : Nat) (rate : DynamicRate) : Prop :=
  ∀ k, 0 < (env.atomics rate.cell k).toNat ∧ (env.atomics rate.cell k).toNat ≤ top

/-- New connections come with such knobs for their rates. -/
def Limited (env : World) (top : Nat) : Event W → Prop
  | .accept _ _ _ knobs => Limits env top knobs.throttleRate
  | _ => True

theorem Limits.rates {rate : DynamicRate} (h : Limits env top rate) (j : Nat) :
    0 < (Rate.rate env rate j).toNat ∧ (Rate.rate env rate j).toNat ≤ top ∧
      Rate.isUnlimited env rate j = false := by
  refine ⟨(h j).1, (h j).2, ?_⟩
  show (env.atomics rate.cell j == 0) = false
  have pos := (h j).1
  refine beq_eq_false_iff_ne.mpr fun zero => ?_
  rw [zero] at pos
  exact absurd pos (Nat.lt_irrefl 0)

/-- What has been paid for since a later moment is within the bound of an earlier one. -/
theorem bound_since {env : World} (mono : Monotone env.clock) {n j j' k : Nat} (le : j ≤ j')
    (h : n ≤ top + top * (env.clock k - env.clock j') / 1000000000) :
    n ≤ top + top * (env.clock k - env.clock j) / 1000000000 := by
  have since : env.clock k - env.clock j' ≤ env.clock k - env.clock j :=
    Nat.sub_le_sub_left (mono le) _
  calc n ≤ top + top * (env.clock k - env.clock j') / 1000000000 := h
    _ ≤ _ := Nat.add_le_add_left (Nat.div_le_div_right (Nat.mul_le_mul_left top since)) top

/-- **The bandwidth of connections.** In every run, if the rate knobs of its connections stay above zero
and at most `top`, then at every moment each socket of each connection has received, of traffic and of
the connection's own noise together, at most one second's worth and what the time since the connection
was accepted allows. -/
theorem bandwidth_bounded (cfg : Config G) (steady : Steady env) (copiesThere : there.Copies)
    (copiesBack : back.Copies) (k : Nat) (events : List (Event W))
    (fresh : ∀ ev ∈ events, FreshSockets ev) (limited : ∀ ev ∈ events, Limited env top ev) :
    (dated cfg there back env).Throughout
      (fun _ s => ∀ n t, s.1.state.tasks n = some t →
        (received t.copying.downstream.inner.socket).length ≤
            top + top * (env.clock s.1.moment - env.clock (s.2 n)) / 1000000000 ∧
          (received t.copying.upstream.socket).length ≤
            top + top * (env.clock s.1.moment - env.clock (s.2 n)) / 1000000000)
      (⟨k, empty⟩, fun _ => 0) events := by
  have law : ∀ j, TaskLaw there back env fun k t =>
      ∃ knobs : { knobs : DynamicProbability × DynamicRate // Limits env top knobs.2 },
        Task.Pays there back steady knobs.1 j k t :=
    fun j => .some fun knobs => .keepsLaws copiesThere copiesBack
      (Pipeline.upholds Pipeline.paidBooks_upheld) (Pipeline.upholds Pipeline.paidBooks_upheld)
  have welcome : ∀ ev ∈ events, ∀ k, Welcomes cfg there back env (fun k' t =>
      ∃ knobs : { knobs : DynamicProbability × DynamicRate // Limits env top knobs.2 },
        Task.Pays there back steady knobs.1 k k' t) k ev := by
    intro ev mem k
    cases ev with
    | accept id downstream upstream knobs =>
      obtain ⟨down, up⟩ := fresh _ mem
      exact ⟨⟨(knobs.corruptProbabilityRate, knobs.throttleRate), limited _ mem⟩,
        keepsLaws_new copiesThere.starts copiesBack.starts
          (Pipeline.new_paid steady k knobs _ down (by omega))
          (Pipeline.new_paid steady (k + 4) knobs _ up (by omega))⟩
    | _ => trivial
  refine run_dated law k welcome fun s ev h orderly welcome n t task => ?_
  obtain ⟨⟨knobs, limits⟩, pays⟩ := (dated_step law s ev h orderly welcome).1 n t task
  have paid := pays.paid
  exact ⟨bound_since steady.mono (by omega) (paid.1.le fun j _ => limits.rates j),
    bound_since steady.mono (by omega) (paid.2.le fun j _ => limits.rates j)⟩

/-- Ten bytes a second for a connection that is told more at once. -/
def tenAtOnce : World := { World.still with atomics := fun cell _ => if cell = 1 then 10 else 0 }

def pouring : List (Event Line) :=
  [.accept "a" (line [some (List.replicate 25 7), none]) (line [none])
    { knobsOff with throttleRate := ⟨1⟩ }, .poll 0, .poll 0]

theorem pouring_bounded :
    (dated plain (CopyBuffer.transfer _ _) (CopyBuffer.transfer _ _) tenAtOnce).Throughout
      (fun _ s => ∀ n t, s.1.state.tasks n = some t →
        (received t.copying.downstream.inner.socket).length ≤
            10 + 10 * (tenAtOnce.clock s.1.moment - tenAtOnce.clock (s.2 n)) / 1000000000 ∧
          (received t.copying.upstream.socket).length ≤
            10 + 10 * (tenAtOnce.clock s.1.moment - tenAtOnce.clock (s.2 n)) / 1000000000)
      (⟨0, empty⟩, fun _ => 0) pouring := by
  refine bandwidth_bounded plain ⟨fun _ _ _ => Nat.le_refl _, fun _ => Nat.two_pow_pos 64⟩
    CopyBuffer.copies CopyBuffer.copies 0 pouring ?_ ?_
  · intro ev mem
    rcases mem with _ | ⟨_, _ | ⟨_, _ | ⟨_, ⟨⟩⟩⟩⟩
    · exact ⟨⟨rfl, rfl⟩, rfl, rfl⟩
    · trivial
    · trivial
  · intro ev mem
    rcases mem with _ | ⟨_, _ | ⟨_, _ | ⟨_, ⟨⟩⟩⟩⟩
    · exact fun k => ⟨show 0 < (10 : UInt64).toNat by decide, show (10 : UInt64).toNat ≤ 10 by decide⟩
    · trivial
    · trivial

end Server

end Trixter
