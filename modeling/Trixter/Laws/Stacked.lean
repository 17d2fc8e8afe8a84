import Trixter.Lib.Twin
import Trixter.Laws.Bursts
import Trixter.Laws.ThrottlerRuns
import Trixter.Script

/-!
# Stacked read adapters

`DelayedReader` and `ThrottledReader` both act in `poll_read`, take their bytes through the inner
reader's `poll_fill_buf` and `consume`, and pass these two on untouched. So in a stack of the two the
inner one might as well not be there: `keeps_iff_outer_alone` says that the stack keeps both guarantees
in just the runs in which the outer adapter keeps them alone. The outer one's own guarantee always
holds; the inner one's is left to the caller, who can keep it by the room of each read. Other orders and
other adapters are not looked at.
-/

namespace Trixter

open Trixter.Lib Polling

/-- The bytes that an answer delivers. -/
def delivered (time : Nat) : Poll IoError (List UInt8) → List Spent
  | .ok bytes => [⟨bytes.length, time⟩]
  | _ => []

/-- The bytes a read delivers, with the time at its end. -/
def deliveries {A : Type} [AsyncBufRead A] (env : World) (s : Paced A) : ReadCall → List Spent
  | .read buf =>
    let o := (reads A env).step s (.read buf)
    delivered (env.clock o.2.moment) o.1
  | .fillBuf => []
  | .consume _ => []

/-- By any time `t` the reads of the run have delivered at most `r` bytes and what accrues at `r`
bytes a second from `t₀` to `t`. -/
def WithinRate {A : Type} [AsyncBufRead A] (env : World) (r t₀ : Nat) (s : Paced A)
    (run : List ReadBuf) : Prop :=
  ∀ t, spentWithin (((reads A env).traced (deliveries env)).run (s, []) (run.map .read)).2.2 0 t ≤
    r + r * (t - t₀) / 1000000000

variable {env : World} {born : Nat} {rate : UInt64}

theorem not_foundUnlimited (pos : 0 < rate) {start stop : Nat} :
    ¬FoundUnlimited env rate start stop := by
  have nonzero : rate ≠ 0 := fun zero => by simp [zero] at pos
  rintro ⟨j, -, -, zero | unlimited⟩
  · exact nonzero zero
  · exact nonzero (beq_iff_eq.mp unlimited)

/-- Bytes that were paid for at a reading not after their delivery count there too. -/
theorem delivered_within_le {log log' : List Spent} {r : Poll IoError (List UInt8)}
    {reading : Option Nat} {time t : Nat}
    (free : ∀ p ∈ passage reading (r.map List.length), p.reading = none → p.bytes = 0)
    (past : ∀ p ∈ passage reading (r.map List.length), ∀ u ∈ p.reading, u ≤ time)
    (le : spentWithin log 0 t ≤ spentWithin log' 0 t) :
    spentWithin (log ++ delivered time r) 0 t ≤
      spentWithin (log' ++ metered (passage reading (r.map List.length))) 0 t := by
  cases r with
  | ok bytes =>
    have free := free _ List.mem_cons_self
    have past := past _ List.mem_cons_self
    cases reading with
    | none =>
      have none : bytes.length = 0 := free rfl
      simpa [delivered, passage, metered, spentWithin_snoc, none] using le
    | some u =>
      have past : u ≤ time := past u rfl
      simp only [delivered, passage, metered, Poll.map_ok, List.filterMap_cons, Option.map_some,
        List.filterMap_nil, spentWithin_snoc, Nat.zero_le, true_and]
      split <;> split <;> omega
  | _ => simpa [delivered, passage, metered, Poll.map] using le

namespace ThrottledReader

variable {T : Type}

/-- A throttled reader is itself a buffered reader. -/
instance {R : Type} [Source T] [Rate R] : Source (ThrottledReader T R) where
  buffered s := buffered s.inner
  contract :=
    { calm := fun env k s => Source.contract.calm env k s.inner
      shows := fun env k s => Source.contract.shows env k s.inner
      stays := fun env k s => Source.contract.stays env k s.inner
      consumes := fun n s => Source.contract.consumes n s.inner }

/-- Its end is final if the inner reader's is. -/
theorem finalEnd {R : Type} [Source T] [Rate R] {inv ended : T → Prop}
    (final : FinalEnd T inv ended) :
    FinalEnd (ThrottledReader T R) (fun s => inv s.inner) (fun s => ended s.inner) where
  fill env k s h := final.fill env k s.inner h
  consume n s h := final.consume n s.inner h
  final env k s h := final.final env k s.inner h

variable [AsyncBufRead T]

open LeakyBucket in
/-- One call delivers no more than the bucket paid for, and not before. -/
theorem deliveries_step (pos : 0 < rate) (timely : Timely env born) {b : Bucket}
    {s : Paced (ThrottledReader T UInt64)} {log : List Spent} (call : ReadCall)
    (h : Follows env rate born s.moment s.state.lb b)
    (le : ∀ t, spentWithin log 0 t ≤ spentWithin b.spent 0 t) :
    ∃ b', Follows env rate born ((reads _ env).step s call).2.moment
        ((reads _ env).step s call).2.state.lb b' ∧
      ∀ t, spentWithin (log ++ deliveries env s call) 0 t ≤ spentWithin b'.spent 0 t := by
  obtain ⟨b', metered_⟩ := machine_step (call_metered timely h call)
  refine ⟨b', metered_.follows, fun t => ?_⟩
  have le := le t
  rw [metered_.spent]
  cases call with
  | fillBuf => simpa [deliveries, passages, metered] using le
  | consume amt => simpa [deliveries, passages, metered] using le
  | read buf =>
    refine delivered_within_le (fun p mem none => ?_) metered_.past le
    exact (metered_.free p mem none).resolve_right (not_foundUnlimited pos)

open LeakyBucket in
/-- **A throttled reader keeps its rate**, over every inner reader. -/
theorem withinRate (timely : Timely env born) {start : Nat} (late : born + 3 ≤ start)
    (pos : 0 < rate) (inner : T) (run : List ReadBuf) :
    WithinRate env rate.toNat (env.clock (born + 1)) ⟨start, new env born inner rate⟩ run := by
  have paid : ∀ is : List ReadCall, ∃ b, Follows env rate born
      (((reads (ThrottledReader T UInt64) env).traced (deliveries env)).run
        (⟨start, new env born inner rate⟩, []) is).2.1.moment
      (((reads (ThrottledReader T UInt64) env).traced (deliveries env)).run
        (⟨start, new env born inner rate⟩, []) is).2.1.state.lb b ∧
      ∀ t, spentWithin (((reads (ThrottledReader T UInt64) env).traced (deliveries env)).run
        (⟨start, new env born inner rate⟩, []) is).2.2 0 t ≤ spentWithin b.spent 0 t := by
    refine Machine.run_invariant
      (P := fun _ (s : Paced (ThrottledReader T UInt64) × List Spent) =>
        ∃ b, Follows env rate born s.1.moment s.1.state.lb b ∧
          ∀ t, spentWithin s.2 0 t ≤ spentWithin b.spent 0 t) ?_ ?_
    · exact ⟨_, follows_new timely late, fun t => Nat.le_refl _⟩
    · rintro past ⟨s, log⟩ call ⟨b, follows, le⟩
      exact deliveries_step pos timely call follows le
  obtain ⟨b, follows, le⟩ := paid (run.map .read)
  intro t
  refine Nat.le_trans (le t) (follows.moves.through_le (by decide) (Nat.le_refl _) ?_ t).2
  rintro now value ⟨j, -, -, -, rfl⟩
  exact Nat.le_refl _

end ThrottledReader

/-! ## The inner adapter is not there -/

/-- What an adapter shows and hands out through the buffered interface is what the reader that `bare`
finds in it does. -/
structure PassesOn (A T : Type) [Source A] [Source T] (bare : A → T) : Prop where
  shows : ∀ a, buffered a = buffered (bare a)
  fill : ∀ env k a, Twin (pollFillBuf : Io A _) (pollFillBuf : Io T _) env k a (bare a)
    fun _ a' t => bare a' = t
  consume : ∀ n a, bare (AsyncBufRead.consume n a) = AsyncBufRead.consume n (bare a)

theorem DelayedReader.passesOn {T D : Type} [Source T] [Duration D] :
    PassesOn (DelayedReader T D) T DelayedReader.inner where
  shows _ := rfl
  fill _ _ _ := ⟨rfl, rfl, rfl⟩
  consume _ _ := rfl

theorem ThrottledReader.passesOn {T R : Type} [Source T] [Rate R] :
    PassesOn (ThrottledReader T R) T ThrottledReader.inner where
  shows _ := rfl
  fill _ _ _ := ⟨rfl, rfl, rfl⟩
  consume _ _ := rfl

section Bare

variable {A T : Type} [Source A] [Source T] {bare : A → T}

namespace DelayedReader

/-- The delayed reader directly over the reader inside the inner adapter. -/
def without {D : Type} (bare : A → T) (s : DelayedReader A D) : DelayedReader T D :=
  ⟨bare s.inner, s.delay, s.bufEmpty⟩

variable {D : Type} [Duration D] {env : World} {s : DelayedReader A D} {buf : ReadBuf}

omit [Duration D] in
/-- A look through either adapter. -/
theorem look_twin (h : PassesOn A T bare) (k : Nat) :
    Twin (onInner pollFillBuf : Io (DelayedReader A D × ReadBuf) _) (onInner pollFillBuf) env k
      (s, buf) (s.without bare, buf) fun _ t t' => (t.1.without bare, t.2) = t' := by
  refine twin_zoom (twin_mono (h.fill env k s.inner) ?_)
  rintro r a _ rfl
  rfl

omit [Duration D] in
theorem deliver_twin (h : PassesOn A T bare) (rem : List UInt8) (k : Nat) :
    Twin (deliver rem : Io (DelayedReader A D × ReadBuf) Unit) (deliver rem) env k
      (s, buf) (s.without bare, buf) fun _ t t' => (t.1.without bare, t.2) = t' := by
  unfold deliver
  refine twin_get (twin_bind (twin_shared rfl (wp_iff.mpr ?_)))
  cases (ReadBuf.putSlice (rem.take (min rem.length buf.remaining)) env k buf).result with
  | ok u => exact fun k => twin_modify (Prod.ext (by rw [without, h.consume]; rfl) rfl)
  | pending => rfl
  | err e => rfl
  | panicked m => rfl

/-- **A delayed reader does not notice the inner adapter**, turn by turn. -/
theorem readLoop_twin (h : PassesOn A T bare) (turns : Nat) (k : Nat) (s : DelayedReader A D) :
    Twin (readLoop turns) (readLoop turns) env k (s, buf) (s.without bare, buf)
      fun _ t t' => (t.1.without bare, t.2) = t' := by
  induction turns generalizing k s buf with
  | zero => exact ⟨rfl, rfl, rfl⟩
  | succ turns ih =>
    unfold readLoop
    refine twin_bind (twin_shared rfl (wp_iff.mpr ?_))
    cases (Delay.poll env k s.delay).result with
    | pending => rfl
    | err e => rfl
    | panicked m => rfl
    | ok action =>
      cases action with
      | beforeDelay =>
        refine fun k => twin_bind (twin_mono (look_twin h k) ?_)
        rintro (_ | e | rem | m) ⟨s, buf⟩ _ ⟨⟩
        · rfl
        · rfl
        · have goes (armed : Bool) (s : DelayedReader A D) (k : Nat) :
              Twin (if armed then readLoop turns else deliver rem)
                (if armed then readLoop turns else deliver rem) env k (s, buf) (s.without bare, buf)
                fun _ t t' => (t.1.without bare, t.2) = t' :=
            twin_ite (fun _ => ih k s) fun _ => deliver_twin h rem k
          refine fun k => twin_get (twin_ite (fun _ => twin_bind (twin_shared rfl (wp_iff.mpr ?_)))
            fun _ => twin_bind (twin_pure fun k => goes false s k))
          cases (Delay.maybeDelay env k s.delay).result with
          | ok armed => exact fun k => goes armed _ k
          | pending => rfl
          | err e => rfl
          | panicked m => rfl
        · rfl
      | afterDelay =>
        refine fun k => twin_bind (twin_orPending (twin_mono (look_twin h k) ?_))
        rintro (_ | e | rem | m) ⟨s, buf⟩ _ ⟨⟩
        · exact fun k => twin_panic rfl
        · rfl
        · exact fun k => deliver_twin h rem k
        · rfl

end DelayedReader

namespace ThrottledReader

/-- The throttled reader directly over the reader inside the inner adapter. -/
def without (bare : A → T) (s : ThrottledReader A UInt64) : ThrottledReader T UInt64 :=
  ⟨bare s.inner, s.lb⟩

/-- The same reader without the inner adapter, and under the same limit. -/
def Bare (bare : A → T) (rate : UInt64) (t : ThrottledReader A UInt64 × ReadBuf)
    (t' : ThrottledReader T UInt64 × ReadBuf) : Prop :=
  (t.1.without bare, t.2) = t' ∧ t.1.lb.rate = rate

variable {env : World} {rate : UInt64}

theorem deliver_twin (h : PassesOn A T bare) (rem : List UInt8) (grant k : Nat)
    {t : ThrottledReader A UInt64 × ReadBuf} {t' : ThrottledReader T UInt64 × ReadBuf}
    (same : Bare bare rate t t') :
    Twin (deliver rem grant) (deliver rem grant) env k t t' fun _ => Bare bare rate := by
  obtain ⟨rfl, knob⟩ := same
  unfold deliver
  refine twin_bind (twin_shared rfl (wp_iff.mpr ?_))
  cases (ReadBuf.putSlice (rem.take grant) env k t.2).result with
  | ok u =>
    refine fun k => twin_modify ⟨Prod.ext ?_ rfl, knob⟩
    rw [without, h.consume]
    rfl
  | pending => exact ⟨rfl, knob⟩
  | err e => exact ⟨rfl, knob⟩
  | panicked m => exact ⟨rfl, knob⟩

/-- **Nor does a throttled reader** under a limit. -/
theorem pollRead_twin (h : PassesOn A T bare) (limited : rate ≠ 0) (k : Nat)
    {t : ThrottledReader A UInt64 × ReadBuf} {t' : ThrottledReader T UInt64 × ReadBuf}
    (same : Bare bare rate t t') :
    Twin pollRead pollRead env k t t' fun _ => Bare bare rate := by
  obtain ⟨rfl, knob⟩ := same
  simp only [AsyncRead.pollRead]
  refine twin_bind (twin_observe rfl fun k => twin_ite (fun unlimited => ?_) fun _ => ?_)
  · exact absurd (knob.symm.trans (beq_iff_eq.mp unlimited)) limited
  · refine twin_bind (twin_zoom (twin_mono (h.fill env k t.1.inner) ?_))
    rintro (_ | e | rem | m) a _ rfl
    · exact ⟨rfl, knob⟩
    · exact ⟨rfl, knob⟩
    · refine fun k => twin_bind (twin_shared rfl ?_)
      refine wp_mono ((LeakyBucket.pollAcquire_fixes rem.length).wp env k t.1.lb) ?_
      rintro (_ | e | grant | m) lb stop fixed
      · exact ⟨rfl, fixed.trans knob⟩
      · exact ⟨rfl, fixed.trans knob⟩
      · refine fun k => twin_get (twin_ite (fun _ => twin_pure ⟨rfl, fixed.trans knob⟩) fun _ => ?_)
        exact deliver_twin h rem _ k ⟨rfl, fixed.trans knob⟩
      · exact ⟨rfl, fixed.trans knob⟩
    · exact ⟨rfl, knob⟩

end ThrottledReader

omit [Source A] [Source T] in
/-- A read is a poll of the reader with the buffer. -/
theorem readCall_twin {S S' : Type} [AsyncBufRead S] [AsyncBufRead S'] {R : S → S' → Prop}
    {env : World} {k : Nat} {s : S} {s' : S'} {buf : ReadBuf}
    (h : Twin (pollRead : Io (S × ReadBuf) Unit) pollRead env k (s, buf) (s', buf)
      fun _ t t' => R t.1 t'.1 ∧ t.2 = t'.2) :
    Twin ((ReadCall.read buf).poll : Io S _) (ReadCall.read buf).poll env k s s' fun _ => R := by
  refine twin_bind (twin_lend (twin_mono h ?_))
  rintro (_ | e | u | m) t t' ⟨same, filled⟩
  · exact ⟨filled, same⟩
  · exact ⟨filled, same⟩
  · exact ⟨filled, fun k => twin_pure same⟩
  · exact ⟨filled, same⟩

/-- Two owners side by side: they are at the same moment, and one state is the other without the inner
adapter. -/
def Abreast {S S' : Type} (R : S → S' → Prop) (s : Paced S) (s' : Paced S') : Prop :=
  s.moment = s'.moment ∧ R s.state s'.state

/-- **Whoever does not notice the inner adapter keeps what the outer one keeps alone.** -/
theorem keeps_twin {S S' : Type} [Source S] [Source S'] {R : S → S' → Prop} {env : World}
    (shows : ∀ s s', R s s' → buffered s = buffered s')
    (calls : ∀ (call : ReadCall) k s s', R s s' →
      Twin (call.poll : Io S _) call.poll env k s s' fun _ => R)
    {s : Paced S} {s' : Paced S'} (start : Abreast R s s') (run : List ReadBuf) :
    (∀ r t₀, WithinRate env r t₀ s run ↔ WithinRate env r t₀ s' run) ∧
      ∀ d, HoldsBack env d s run ↔ HoldsBack env d s' run := by
  have step : ∀ (s : Paced S) (s' : Paced S') call, Abreast R s s' →
      ((reads S env).step s call).1 = ((reads S' env).step s' call).1 ∧
        Abreast R ((reads S env).step s call).2 ((reads S' env).step s' call).2 := by
    rintro ⟨k, s⟩ ⟨_, s'⟩ call ⟨rfl, same⟩
    obtain ⟨answer, took, next⟩ := calls call k s s' same
    exact ⟨answer, congrArg (k + ·) took, next⟩
  constructor
  · intro r t₀
    have emitted : ∀ (s : Paced S) (s' : Paced S') call, Abreast R s s' →
        deliveries env s call = deliveries env s' call := by
      intro s s' call same
      cases call with
      | read buf =>
        obtain ⟨answer, later, -⟩ := step s s' (.read buf) same
        unfold deliveries
        dsimp only
        rw [answer, later]
      | fillBuf => rfl
      | consume amt => rfl
    have traced : ∀ (t : Paced S × List Spent) (t' : Paced S' × List Spent) call,
        Abreast R t.1 t'.1 ∧ t.2 = t'.2 →
        (((reads S env).traced (deliveries env)).step t call).1 =
            (((reads S' env).traced (deliveries env)).step t' call).1 ∧
          Abreast R (((reads S env).traced (deliveries env)).step t call).2.1
            (((reads S' env).traced (deliveries env)).step t' call).2.1 ∧
          (((reads S env).traced (deliveries env)).step t call).2.2 =
            (((reads S' env).traced (deliveries env)).step t' call).2.2 := by
      rintro ⟨t, log⟩ ⟨t', _⟩ call ⟨same, rfl⟩
      exact ⟨(step t t' call same).1, (step t t' call same).2,
        congrArg (log ++ ·) (emitted t t' call same)⟩
    have logs := (Machine.run_twin traced (s := (s, [])) (t := (s', [])) ⟨start, rfl⟩
      (run.map .read)).2.2
    unfold WithinRate
    rw [logs]
  · intro d
    have seen : ∀ (s : Paced S) (s' : Paced S') call w, Abreast R s s' →
        sight env w s call = sight env w s' call ∧ (InTime env d w s call ↔ InTime env d w s' call) := by
      intro s s' call w same
      obtain ⟨answer, later, next⟩ := step s s' call same
      have sighted_eq : sighted w s.moment s.state ((reads S env).step s call).2.state
            ((reads S env).step s call).1 =
          sighted w s'.moment s'.state ((reads S' env).step s' call).2.state
            ((reads S' env).step s' call).1 := by
        unfold sighted
        rw [same.1, shows _ _ same.2, shows _ _ next, answer]
      constructor
      · unfold sight
        dsimp only
        rw [sighted_eq, shows _ _ next]
      · unfold InTime
        dsimp only
        rw [sighted_eq, answer, later]
    refine Machine.allowedFrom_twin (m := (reads S env).watched (sight env))
      (P := fun t t' => Abreast R t.1 t'.1 ∧ t.2 = t'.2) ?_ ?_ ⟨start, rfl⟩ (run.map .read)
    · rintro ⟨t, w⟩ ⟨t', _⟩ call ⟨same, rfl⟩
      exact ⟨(step t t' call same).1, (step t t' call same).2, (seen t t' call w same).1⟩
    · rintro - ⟨t, w⟩ ⟨t', _⟩ call ⟨same, rfl⟩
      exact (seen t t' call w same).2

end Bare

/-! ## Callers who ask for little

What a caller can do itself. A reader hands over no more than there is room for, so the room of each
read can keep what an adapter does not. -/

section Room

/-- A read delivers no more than there is room for. -/
def FitsRoom (A : Type) [AsyncBufRead A] : Prop :=
  ∀ env k (a : A) buf, (pollRead : Io (A × ReadBuf) Unit).wp env k (a, buf) fun r t _ =>
    (DelayedReader.came r buf t.2).length ≤ buf.remaining

theorem DelayedReader.readLoop_room {T D : Type} [AsyncBufRead T] [Duration D] {env : World}
    {buf : ReadBuf} (turns k : Nat) (s : DelayedReader T D) :
    (readLoop turns).wp env k (s, buf) fun r t _ => (came r buf t.2).length ≤ buf.remaining := by
  have handed_room (rem : List UInt8) : (came (.ok ()) buf (filled rem buf)).length ≤ buf.remaining := by
    rw [came_filled]
    exact Nat.le_trans (List.length_take_le _ _) (Nat.min_le_right _ _)
  induction turns generalizing k s with
  | zero => exact Nat.zero_le _
  | succ turns ih =>
    cases state : s.delay.state with
    | idle =>
      rw [readLoop_idle state, wp_iff]
      cases (pollFillBuf env k s.inner).result with
      | ok rem =>
        dsimp only
        split
        · split
          · exact handed_room rem
          · split
            · exact Nat.zero_le _
            · exact ih _ _
        · exact handed_room rem
      | _ => exact Nat.zero_le _
    | delayed =>
      rw [readLoop_delayed state]
      split
      · rw [wp_iff]
        cases (pollFillBuf env (k + 1) s.inner).result with
        | ok rem => exact handed_room rem
        | _ => exact Nat.zero_le _
      · exact Nat.zero_le _

theorem DelayedReader.fitsRoom {T D : Type} [AsyncBufRead T] [Duration D] :
    FitsRoom (DelayedReader T D) := fun _ k s _ => readLoop_room 2 k s

theorem ThrottledReader.fitsRoom {A R : Type} [AsyncBufRead A] [Rate R] (h : FitsRoom A) :
    FitsRoom (ThrottledReader A R) := by
  intro env k s buf
  rw [read_wp]
  split
  · exact h env (k + 1) s.inner buf
  · rw [wp_iff]
    cases (pollFillBuf env (k + 1) s.inner).result with
    | ok rem =>
      dsimp only
      rw [wp_iff]
      cases (LeakyBucket.acquire rem.length env _ s.lb).result with
      | ok grant =>
        dsimp only
        split
        · exact Nat.le_trans (by simp [DelayedReader.came, Poll.value?]) (Nat.zero_le _)
        · simp only [DelayedReader.came, Poll.map_ok, Poll.value?, Option.getD_some, List.drop_left]
          exact Nat.le_trans (List.length_take_le _ _) (Nat.min_le_right _ _)
      | _ => exact Nat.zero_le _
    | _ => exact Nat.zero_le _

variable {A : Type} [Source A] {env : World}

theorem FitsRoom.step (h : FitsRoom A) (env : World) (s : Paced A) (buf : ReadBuf) :
    (((reads A env).step s (.read buf)).1.value?.getD []).length ≤ buf.remaining := by
  have called : ((ReadCall.read buf).poll : Io A _).wp env s.moment s.state
      fun r _ _ => (r.value?.getD []).length ≤ buf.remaining := by
    simp only [ReadCall.poll, wp_map, wp_lend, Poll.map_map]
    exact h env s.moment s.state buf
  exact machine_step called

/-- The read has room for no more than the rate has left: with what was delivered before, it stays
within `r` and what accrues at `r` bytes a second from `t₀` on. -/
def Affordable (env : World) (r t₀ : Nat) (s : Paced A × List Spent) : ReadCall → Prop
  | .read buf =>
    spentSince s.2 0 + buf.remaining ≤ r + r * (env.clock s.1.moment - t₀) / 1000000000
  | .fillBuf => True
  | .consume _ => True

/-- Every read of the run has room for no more than the rate has left by then. -/
def AsksWithin (env : World) (r t₀ : Nat) (s : Paced A) (run : List ReadBuf) : Prop :=
  ((reads A env).traced (deliveries env)).Allowed (fun _ => Affordable env r t₀) (s, [])
    (run.map .read)

/-- The read has no room, or its burst came into sight at least `d` ago. -/
def Waited (env : World) (d : Nat) (s : Paced A × Option Nat) : ReadCall → Prop
  | .read buf => buf.remaining = 0 ∨ ∃ m ∈ s.2, env.clock m + d ≤ env.clock s.1.moment
  | .fillBuf => True
  | .consume _ => True

/-- No read of the run has room until `d` has passed since its burst came into sight. -/
def WaitsOut (env : World) (d : Nat) (s : Paced A) (run : List ReadBuf) : Prop :=
  ((reads A env).watched (sight env)).Allowed (fun _ => Waited env d) (s, none) (run.map .read)

instance (r t₀ : Nat) (s : Paced A × List Spent) :
    (call : ReadCall) → Decidable (Affordable env r t₀ s call)
  | .read _ => inferInstanceAs (Decidable (_ ≤ _))
  | .fillBuf => inferInstanceAs (Decidable True)
  | .consume _ => inferInstanceAs (Decidable True)

instance (r t₀ : Nat) (s : Paced A) (run : List ReadBuf) : Decidable (AsksWithin env r t₀ s run) :=
  inferInstanceAs (Decidable (Machine.Allowed _ _ _ _))

instance (d : Nat) (s : Paced A × Option Nat) : (call : ReadCall) → Decidable (Waited env d s call)
  | .read _ => inferInstanceAs (Decidable (_ ∨ ∃ m ∈ _, _ ≤ _))
  | .fillBuf => inferInstanceAs (Decidable True)
  | .consume _ => inferInstanceAs (Decidable True)

instance (d : Nat) (s : Paced A) (run : List ReadBuf) : Decidable (WaitsOut env d s run) :=
  inferInstanceAs (Decidable (Machine.Allowed _ _ _ _))

/-- **Who asks for no more than the rate has left gets no more.** -/
theorem withinRate_of_asks (fits : FitsRoom A) (mono : Monotone env.clock) {r t₀ : Nat} {s : Paced A}
    {run : List ReadBuf} (asks : AsksWithin env r t₀ s run) : WithinRate env r t₀ s run := by
  refine Machine.run_induction
    (P := fun _ (s : Paced A × List Spent) =>
      ∀ t, spentWithin s.2 0 t ≤ r + r * (t - t₀) / 1000000000) ?_ ?_ asks
  · exact fun t => Nat.zero_le _
  · rintro past ⟨s, log⟩ call le affordable t
    show spentWithin (log ++ deliveries env s call) 0 t ≤ _
    cases call with
    | fillBuf => simpa [deliveries] using le t
    | consume amt => simpa [deliveries] using le t
    | read buf =>
      have room := fits.step env s buf
      have later : env.clock s.moment ≤ env.clock ((reads A env).step s (.read buf)).2.moment :=
        mono (Nat.le_add_right _ _)
      simp only [deliveries]
      generalize (reads A env).step s (.read buf) = o at room later
      obtain ⟨r', o⟩ := o
      cases r' with
      | ok bytes =>
        simp only [delivered, spentWithin_snoc, Nat.zero_le, true_and]
        split
        · next reached =>
          have before := spentWithin_le log 0 t
          have left : r * (env.clock s.moment - t₀) / 1000000000 ≤ r * (t - t₀) / 1000000000 :=
            Nat.div_le_div_right
              (Nat.mul_le_mul_left r (Nat.sub_le_sub_right (Nat.le_trans later reached) t₀))
          simp only [Poll.value?, Option.getD_some] at room
          simp only [Affordable] at affordable
          omega
        · exact le t
      | _ => simpa [delivered] using le t

/-- **Who waits out the delay gets nothing before.** -/
theorem holdsBack_of_waits (fits : FitsRoom A) (mono : Monotone env.clock) {d : Nat} {s : Paced A}
    {run : List ReadBuf} (waits : WaitsOut env d s run) : HoldsBack env d s run := by
  refine Machine.AllowedFrom.imp (P := fun _ _ => True) (fun _ _ _ _ _ => trivial) ?_ trivial
    (Machine.allowedFrom_and.mpr ⟨Machine.allowedFrom_of_mem
      (D := fun call => ∃ buf, call = .read buf) ?_, waits⟩)
  · rintro past ⟨s, w⟩ _ - ⟨⟨buf, rfl⟩, waited⟩ bytes came some m seen
    have room := fits.step env s buf
    rw [Option.mem_def.mp came, Option.getD_some] at room
    rcases waited with none | ⟨m', inSight, late⟩
    · exact absurd (List.length_eq_zero_iff.mp (Nat.le_zero.mp (none ▸ room))) some
    · cases Option.mem_def.mp inSight
      cases seen
      exact Nat.le_trans late (mono (Nat.le_add_right _ _))
  · intro call mem
    obtain ⟨buf, -, eq⟩ := List.mem_map.mp mem
    exact ⟨buf, eq.symm⟩

end Room

/-- A scripted reader whose chunks are not empty has a final end. -/
theorem Arrivals.finalEnd : FinalEnd Arrivals (fun r => ∀ chunk ∈ r.coming, chunk ≠ some [])
    (fun r => r.unread = [] ∧ r.coming = []) where
  fill env k r solid := by
    rw [fillBuf_wp]
    by_cases empty : r.unread.isEmpty = true
    · rw [if_pos empty]
      rcases coming : r.coming with _ | ⟨_ | bytes, rest⟩
      · exact ⟨fun chunk mem => (by cases mem), fun _ => ⟨List.isEmpty_iff.mp empty, rfl⟩⟩
      · exact ⟨fun chunk mem => solid chunk (coming ▸ mem.tail _), fun eq => by cases eq⟩
      · refine ⟨fun chunk mem => solid chunk (coming ▸ mem.tail _), fun eq => ?_⟩
        exact absurd (congrArg some (Poll.ok.inj eq)) (solid _ (coming ▸ List.mem_cons_self))
    · rw [if_neg empty]
      exact ⟨solid, fun eq => absurd (List.isEmpty_iff.mpr (Poll.ok.inj eq)) empty⟩
  consume n r solid := solid
  final env k r ended := by
    rw [fillBuf_wp, ended.1, ended.2]
    exact ⟨rfl, rfl, rfl⟩

namespace Stacked

/-- Both guarantees: the rate, counted from `t₀`, and the delay. -/
def Keeps {A : Type} [Source A] (env : World) (r t₀ d : Nat) (s : Paced A) (run : List ReadBuf) :
    Prop :=
  WithinRate env r t₀ s run ∧ HoldsBack env d s run

/-- **The outer adapter keeps its guarantee.** With a constant rate and a constant delay, over every
inner stream and schedule of reads: a delayed reader over a throttled one holds bursts back, if the
end of the stream is final and the delay can be added to the clock, and a throttled reader over a
delayed one keeps its rate. -/
theorem outer_guarantee {T : Type} [Source T] {env : World} (clockwork : Clockwork env)
    {born start : Nat} (created : Nat) (late : born + 3 ≤ start)
    (span : ∀ k, env.clock k < env.clock (born + 1) + 2 ^ 64) {rate : UInt64} (pos : 0 < rate)
    {d : Nat} (delays : 0 < d) (inner : T) (run : List ReadBuf) :
    (Addable env d → ∀ inv ended, FinalEnd T inv ended → inv inner →
      HoldsBack env d
        ⟨start, DelayedReader.new created (ThrottledReader.new env born inner rate) d⟩ run) ∧
    WithinRate env rate.toNat (env.clock (born + 1))
      ⟨start, ThrottledReader.new env born (DelayedReader.new created inner d) rate⟩ run :=
  ⟨fun fits _ _ final lawful => DelayedReader.holdsBack clockwork (ThrottledReader.finalEnd final)
      delays fits start created _ lawful run,
    ThrottledReader.withinRate ⟨clockwork.mono, span⟩ late pos _ run⟩

/-- In a delayed reader over a throttled one the throttle is not there. -/
theorem delayed_alone {T : Type} [Source T] (env : World) (born start created : Nat) (rate : UInt64)
    (d : Nat) (inner : T) (run : List ReadBuf) :
    let stack : Paced (DelayedReader (ThrottledReader T UInt64) Nat) :=
      ⟨start, .new created (.new env born inner rate) d⟩
    let alone : Paced (DelayedReader T Nat) := ⟨start, .new created inner d⟩
    (∀ r t₀, WithinRate env r t₀ stack run ↔ WithinRate env r t₀ alone run) ∧
      ∀ d', HoldsBack env d' stack run ↔ HoldsBack env d' alone run := by
  intro stack alone
  have on : PassesOn (ThrottledReader T UInt64) T ThrottledReader.inner := ThrottledReader.passesOn
  refine keeps_twin (R := fun s s' => DelayedReader.without ThrottledReader.inner s = s') ?_ ?_
    ⟨rfl, rfl⟩ run
  · rintro s _ rfl
    exact on.shows s.inner
  · rintro call k s _ rfl
    cases call with
    | read buf =>
      exact readCall_twin (twin_mono (DelayedReader.readLoop_twin on 2 k s) fun r t t' same =>
        same ▸ ⟨rfl, rfl⟩)
    | fillBuf => exact ⟨rfl, rfl, rfl⟩
    | consume amt => exact ⟨rfl, rfl, rfl⟩

/-- In a throttled reader over a delayed one the delay is not there. -/
theorem throttled_alone {T : Type} [Source T] (env : World) (born start created : Nat) {rate : UInt64}
    (pos : 0 < rate) (d : Nat) (inner : T) (run : List ReadBuf) :
    let stack : Paced (ThrottledReader (DelayedReader T Nat) UInt64) :=
      ⟨start, .new env born (.new created inner d) rate⟩
    let alone : Paced (ThrottledReader T UInt64) := ⟨start, .new env born inner rate⟩
    (∀ r t₀, WithinRate env r t₀ stack run ↔ WithinRate env r t₀ alone run) ∧
      ∀ d', HoldsBack env d' stack run ↔ HoldsBack env d' alone run := by
  intro stack alone
  have on : PassesOn (DelayedReader T Nat) T DelayedReader.inner := DelayedReader.passesOn
  have limited : rate ≠ 0 := fun zero => by simp [zero] at pos
  refine keeps_twin
    (R := fun s s' => ThrottledReader.without DelayedReader.inner s = s' ∧ s.lb.rate = rate) ?_ ?_
    ⟨rfl, rfl, rfl⟩ run
  · rintro s _ ⟨rfl, -⟩
    exact on.shows s.inner
  · rintro call k s _ ⟨rfl, knob⟩
    cases call with
    | read buf =>
      refine readCall_twin (twin_mono (ThrottledReader.pollRead_twin on limited k ⟨rfl, knob⟩) ?_)
      rintro r t _ ⟨rfl, knob⟩
      exact ⟨⟨rfl, knob⟩, rfl⟩
    | fillBuf => exact ⟨rfl, rfl, rfl, knob⟩
    | consume amt => exact ⟨rfl, rfl, rfl, knob⟩

/-- **When a stack keeps both guarantees.** With a constant rate and a constant delay, over every inner
stream and schedule of reads, a stack of the two keeps both exactly if its outer adapter, alone over the
same stream, does. The outer one's own guarantee is always kept, the delay if it can be added to the
clock and the end of the stream is final; the inner one's is kept only where there was nothing to do for
it, as when every read asks for no more than the rate has left, or when none asks for a byte before the
delay has passed. -/
theorem keeps_iff_outer_alone {T : Type} [Source T] (env : World) (clockwork : Clockwork env)
    (born start created : Nat) (late : born + 3 ≤ start)
    (span : ∀ k, env.clock k < env.clock (born + 1) + 2 ^ 64) (rate : UInt64) (pos : 0 < rate)
    (d : Nat) (delays : 0 < d) (inner : T) (run : List ReadBuf) :
    let t₀ := env.clock (born + 1)
    let delayedFirst : Paced (DelayedReader (ThrottledReader T UInt64) Nat) :=
      ⟨start, .new created (.new env born inner rate) d⟩
    let throttledFirst : Paced (ThrottledReader (DelayedReader T Nat) UInt64) :=
      ⟨start, .new env born (.new created inner d) rate⟩
    let delayed : Paced (DelayedReader T Nat) := ⟨start, .new created inner d⟩
    let throttled : Paced (ThrottledReader T UInt64) := ⟨start, .new env born inner rate⟩
    (Keeps env rate.toNat t₀ d delayedFirst run ↔ Keeps env rate.toNat t₀ d delayed run) ∧
      (Addable env d → ∀ inv ended, FinalEnd T inv ended → inv inner →
        HoldsBack env d delayedFirst run ∧
          (AsksWithin env rate.toNat t₀ delayedFirst run →
            Keeps env rate.toNat t₀ d delayedFirst run)) ∧
      (Keeps env rate.toNat t₀ d throttledFirst run ↔ HoldsBack env d throttled run) ∧
      WithinRate env rate.toNat t₀ throttledFirst run ∧
        (WaitsOut env d throttledFirst run → Keeps env rate.toNat t₀ d throttledFirst run) := by
  intro t₀ delayedFirst throttledFirst delayed throttled
  obtain ⟨holds, within⟩ := outer_guarantee clockwork created late span pos delays inner run
  obtain ⟨rates, held⟩ := delayed_alone env born start created rate d inner run
  have alone := (throttled_alone env born start created pos d inner run).2 d
  refine ⟨and_congr (rates _ _) (held d), ?_, (and_iff_right within).trans alone, within, ?_⟩
  · intro fits inv ended final lawful
    have back := holds fits inv ended final lawful
    exact ⟨back, fun asks =>
      ⟨withinRate_of_asks DelayedReader.fitsRoom clockwork.mono asks, back⟩⟩
  · intro waits
    have fits : FitsRoom (ThrottledReader (DelayedReader T Nat) UInt64) :=
      ThrottledReader.fitsRoom DelayedReader.fitsRoom
    exact ⟨within, holdsBack_of_waits fits clockwork.mono waits⟩

/-- A clock that shows zero until moment `n` and one microsecond from then on, with timers that
elapse on time. -/
def dawn (n : Nat) : World :=
  { World.still with
    clock := fun k => if k < n then 0 else 1000
    alarm := fun deadline k => decide (deadline ≤ if k < n then 0 else 1000) }

theorem dawn_clockwork (n : Nat) : Clockwork (dawn n) where
  mono j k le := by
    simp only [dawn]
    split <;> split <;> omega
  alarm deadline k elapsed := of_decide_eq_true elapsed

/-- Three bytes that have arrived. -/
def threeBytes : Arrivals := ⟨[1, 2, 3], []⟩

/-- Both stacks over three bytes: with room for all, with room for one byte at a time, and with room only
after the delay. -/
theorem keeps_iff_outer_alone_threeBytes :
    let delayed : Paced (DelayedReader Arrivals Nat) := ⟨3, .new 0 threeBytes 1000⟩
    let throttled : Paced (ThrottledReader Arrivals UInt64) := ⟨3, .new (dawn 6) 0 threeBytes 1⟩
    let delayedFirst : Paced (DelayedReader (ThrottledReader Arrivals UInt64) Nat) :=
      ⟨3, .new 0 (.new (dawn 6) 0 threeBytes 1) 1000⟩
    let throttledFirst : Paced (ThrottledReader (DelayedReader Arrivals Nat) UInt64) :=
      ⟨3, .new (dawn 6) 0 (.new 0 threeBytes 1000) 1⟩
    let run : List ReadBuf := [⟨[], 8⟩, ⟨[], 8⟩]
    (Keeps (dawn 6) 1 0 1000 delayedFirst run ↔ Keeps (dawn 6) 1 0 1000 delayed run) ∧
    (Keeps (dawn 6) 1 0 1000 throttledFirst run ↔ HoldsBack (dawn 6) 1000 throttled run) ∧
    Keeps (dawn 6) 1 0 1000 delayedFirst [⟨[], 1⟩, ⟨[], 1⟩] ∧
    Keeps (dawn 6) 1 0 1000 throttledFirst [⟨[], 0⟩, ⟨[], 8⟩] :=
  have runs := keeps_iff_outer_alone (dawn 6) (dawn_clockwork 6) 0 3 0 (by decide)
    (fun k => by simp only [dawn]; split <;> omega) 1 (by decide) 1000 (by decide) threeBytes
  ⟨(runs _).1, (runs _).2.2.1,
    ((runs _).2.1 (.of_lt (by decide)) _ _ Arrivals.finalEnd (by decide)).2 (by decide),
    (runs _).2.2.2.2 (by decide)⟩

/-- The inner adapter's guarantee is lost, and a burst that follows a stream's end is not held back.
A byte a second under a delay of a microsecond: the delayed reader hands over three bytes at once;
the throttled reader hands over a byte before the delay; and what comes after an empty chunk meets a
timer that was armed for the chunk. -/
theorem inner_bypassed :
    ¬WithinRate (dawn 6) 1 0
        ⟨3, DelayedReader.new 0 (ThrottledReader.new (dawn 6) 0 threeBytes (1 : UInt64)) 1000⟩
        [⟨[], 8⟩, ⟨[], 8⟩] ∧
      ¬HoldsBack (dawn 100) 1000
        ⟨3, ThrottledReader.new (dawn 100) 0 (DelayedReader.new 0 threeBytes 1000) (1 : UInt64)⟩
        [⟨[], 8⟩] ∧
      ¬HoldsBack (dawn 6) 1000
        ⟨3, DelayedReader.new 0 (ThrottledReader.new (dawn 6) 0
          (⟨[], [some [], some [9]]⟩ : Arrivals) (1 : UInt64)) 1000⟩
        [⟨[], 8⟩, ⟨[], 8⟩] := by
  refine ⟨fun within => ?_, by decide, by decide⟩
  exact absurd (within 1000) (by decide)

end Stacked

end Trixter
