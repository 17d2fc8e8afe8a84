import Mathlib.Order.Monotone.Basic
import Trixter.Laws.Delayer
import Trixter.Ledger
import Trixter.Script

/-!
# Holding back the first byte of a burst

A burst is in sight from the first read that finds unread bytes until they are used up. The moment
at which it came into sight is kept beside a run, and a reader holds bursts back by `d` when no read
delivers a byte of a burst before `d` has passed since that moment.

`holdsBack`: a delayed reader holds bursts back over every inner reader whose end is final. Its timer is
armed while the burst is in sight, and the bytes wait behind it. Over a reader that shows bytes after its
end a burst may go through at once, and for a delay that cannot be added to the clock nothing is held.
-/

namespace Trixter

open Trixter.Lib Polling

section Sight

variable {A : Type} [Source A]

/-- When the burst that a read at moment `k` saw came into sight: earlier, or now. -/
def sighted (w : Option Nat) (k : Nat) (before after : A) (r : Poll IoError (List UInt8)) :
    Option Nat :=
  match w with
  | some m => some m
  | none =>
    if buffered before = [] ∧ buffered after = [] ∧ r.value?.getD [] = [] then none else some k

/-- A burst that no read saw before comes into sight now. -/
theorem sighted_none {k : Nat} {before after : A} {r : Poll IoError (List UInt8)}
    (some : buffered after ≠ [] ∨ r.value?.getD [] ≠ []) :
    sighted none k before after r = .some k := by
  refine if_neg fun ⟨_, left, came⟩ => ?_
  exact some.elim (fun h => h left) fun h => h came

/-- The burst in sight after one more call: none, if the bytes are used up. -/
def sight (env : World) (w : Option Nat) (s : Paced A) (call : ReadCall) : Option Nat :=
  let o := (reads A env).step s call
  if buffered o.2.state = [] then none else sighted w s.moment s.state o.2.state o.1

/-- The bytes this call delivers have been held back by `d`. -/
def InTime (env : World) (d : Nat) (w : Option Nat) (s : Paced A) (call : ReadCall) : Prop :=
  let o := (reads A env).step s call
  ∀ bytes ∈ o.1.value?, bytes ≠ [] →
    ∀ m ∈ sighted w s.moment s.state o.2.state o.1, env.clock m + d ≤ env.clock o.2.moment

/-- No read of the run delivers a byte of a burst before `d` has passed since the first read that
saw the burst. -/
def HoldsBack (env : World) (d : Nat) (s : Paced A) (run : List ReadBuf) : Prop :=
  ((reads A env).watched (sight env)).Allowed (fun _ s call => InTime env d s.2 s.1 call) (s, none)
    (run.map .read)

instance (env : World) (d : Nat) (w : Option Nat) (s : Paced A) (call : ReadCall) :
    Decidable (InTime env d w s call) :=
  inferInstanceAs (Decidable (∀ _ ∈ _, _ → ∀ _ ∈ _, _ ≤ _))

instance (env : World) (d : Nat) (s : Paced A) (run : List ReadBuf) :
    Decidable (HoldsBack env d s run) :=
  inferInstanceAs (Decidable (Machine.Allowed _ _ _ _))

end Sight

/-- Timers never fire early, on a clock that never goes back. -/
structure Clockwork (env : World) : Prop where
  mono : Monotone env.clock
  alarm : ∀ deadline k, env.alarm deadline k = true → deadline ≤ env.clock k

theorem metronome_clockwork : Clockwork metronome where
  mono _ _ le := le
  alarm _ _ elapsed := of_decide_eq_true elapsed

/-- Readers that satisfy `inv` have a final end: once one shows its end it is `ended`, and shows
nothing else any more. -/
structure FinalEnd (T : Type) [Source T] (inv ended : T → Prop) : Prop where
  fill : ∀ env k r, inv r → (pollFillBuf : Io T _).wp env k r fun answer r' _ =>
    inv r' ∧ (answer = .ok [] → ended r')
  consume : ∀ n r, inv r → inv (AsyncBufRead.consume n r)
  final : ∀ env k r, ended r → (pollFillBuf : Io T _).wp env k r fun answer r' _ =>
    answer = .ok [] ∧ ended r'

/-- What is in sight stays there: a look shows the bytes that were unread, or the end again. -/
theorem FinalEnd.again {T : Type} [Source T] {inv ended : T → Prop} (final : FinalEnd T inv ended)
    {env : World} {k : Nat} {r : T} (there : buffered r ≠ [] ∨ ended r ∧ buffered r = []) :
    (pollFillBuf : Io T _).wp env k r fun answer r' _ =>
      answer = .ok (buffered r) ∧ buffered r' = buffered r := by
  have shows := wp_iff.mp (Source.contract.shows env k r)
  rw [wp_iff]
  rcases there with some | ⟨ends, none⟩
  · have stays := wp_iff.mp (Source.contract.stays env k r some)
    rw [stays] at shows ⊢
    exact ⟨rfl, shows⟩
  · have answer := (wp_iff.mp (final.final env k r ends)).1
    rw [answer] at shows ⊢
    rw [none]
    exact ⟨rfl, shows⟩

namespace DelayedReader

/-- A delayed reader is itself a buffered reader. -/
instance {T D : Type} [Source T] [Duration D] : Source (DelayedReader T D) where
  buffered s := buffered s.inner
  contract :=
    { calm := fun env k s => Source.contract.calm env k s.inner
      shows := fun env k s => Source.contract.shows env k s.inner
      stays := fun env k s => Source.contract.stays env k s.inner
      consumes := fun n s => Source.contract.consumes n s.inner }

variable {T : Type} [Source T] {inv ended : T → Prop} {env : World} {k d : Nat}
  {s : DelayedReader T Nat} {w : Option Nat} {buf : ReadBuf}

/-- The bytes behind the timer came into sight in time for its deadline, or there are none and there
will be none. -/
def Behind (ended : T → Prop) (env : World) (d : Nat) (s : DelayedReader T Nat) :
    Option Nat → Prop
  | none => ended s.inner ∧ buffered s.inner = []
  | some m => buffered s.inner ≠ [] ∧ env.clock m + d ≤ s.delay.sleep.deadline

/-- What holds of a delayed reader between reads. `w` is the moment the burst came into sight. -/
structure Held (inv ended : T → Prop) (env : World) (d k : Nat) (s : DelayedReader T Nat)
    (w : Option Nat) : Prop where
  lawful : inv s.inner
  delay : s.delay.delayDuration = d
  fresh : s.delay.state = .idle → s.bufEmpty = true → w = none
  rest : s.delay.state = .idle → s.bufEmpty = false →
    buffered s.inner ≠ [] ∧ ∃ m, w = some m ∧ env.clock m + d ≤ env.clock k
  armed : s.delay.state = .delayed → Behind ended env d s w

/-- What one read leaves, when the burst it saw came into sight at `w`. -/
structure HeldBack (inv ended : T → Prop) (env : World) (d k : Nat) (bytes : List UInt8)
    (s : DelayedReader T Nat) (w : Option Nat) : Prop where
  late : bytes ≠ [] → ∃ m, w = some m ∧ env.clock m + d ≤ env.clock k
  empty : w = none → buffered s.inner = []
  held : Held inv ended env d k s (if buffered s.inner = [] then none else w)

/-- Handing over bytes that were held back long enough. -/
theorem delivered_heldBack (final : FinalEnd T inv ended) {m : Nat} {rem : List UInt8}
    (all : buffered s.inner = rem) (lawful : inv s.inner) (delay : s.delay.delayDuration = d)
    (idle : s.delay.state = .idle) (late : env.clock m + d ≤ env.clock k) :
    HeldBack inv ended env d k (rem.take (handed rem buf)) (s.delivered rem buf) (some m) where
  late _ := ⟨m, rfl, late⟩
  empty none := by cases none
  held := by
    have left : buffered (s.delivered rem buf).inner = rem.drop (handed rem buf) := by
      rw [← all]
      exact Source.contract.consumes _ _
    refine ⟨final.consume _ _ lawful, delay, fun _ up => ?_, fun _ some => ?_, fun delayed => ?_⟩
    · have up : rem.length = handed rem buf := by simpa [delivered] using up
      rw [left, ← up, List.drop_length, if_pos rfl]
    · have some : rem.length ≠ handed rem buf := by simpa [delivered] using some
      have some : buffered (s.delivered rem buf).inner ≠ [] := by
        rw [left]
        intro up
        exact some (Nat.le_antisymm (List.drop_eq_nil_iff.mp up) (Nat.min_le_left _ _))
      exact ⟨some, m, if_neg some, late⟩
    · rw [show (s.delivered rem buf).delay.state = .idle from idle] at delayed
      cases delayed

/-- The bytes that came with one read. -/
def came (r : Poll IoError Unit) (buf buf' : ReadBuf) : List UInt8 :=
  (r.map fun _ => buf'.filled.drop buf.filled.length).value?.getD []

@[simp] theorem came_filled (rem : List UInt8) :
    came (.ok ()) buf (filled rem buf) = rem.take (handed rem buf) := by
  simp only [came, filled, Poll.map_ok, Poll.value?, Option.getD_some, List.drop_left]

/-- A read that only waits. -/
theorem Held.waits (h : Held inv ended env d k s w) (delayed : s.delay.state = .delayed)
    {k' : Nat} : HeldBack inv ended env d k' [] s w where
  late some := absurd rfl some
  empty none := by
    have behind := h.armed delayed
    rw [none] at behind
    exact behind.2
  held := by
    have behind := h.armed delayed
    have same : (if buffered s.inner = [] then none else w) = w := by
      cases w with
      | none => exact ite_self _
      | some m => exact if_neg behind.1
    rw [same]
    refine ⟨h.lawful, h.delay, fun idle => ?_, fun idle => ?_, fun _ => behind⟩ <;>
      · rw [delayed] at idle
        cases idle

/-- The end of a stream is handed over at any time. -/
theorem ended_heldBack (final : FinalEnd T inv ended) (none : buffered s.inner = [])
    (lawful : inv s.inner) (delay : s.delay.delayDuration = d) (idle : s.delay.state = .idle) :
    HeldBack inv ended env d k [] (s.delivered [] buf) w := by
  have gone : buffered (s.delivered [] buf).inner = [] := by
    show buffered (AsyncBufRead.consume _ _) = []
    rw [Source.contract.consumes, none]
    exact List.drop_nil
  refine ⟨fun some => absurd rfl some, fun _ => gone, ?_⟩
  rw [if_pos gone]
  refine ⟨final.consume _ _ lawful, delay, fun _ _ => rfl, fun _ some => ?_, fun armed => ?_⟩
  · simp [delivered, handed] at some
  · rw [show (s.delivered [] buf).delay.state = .idle from idle] at armed
    cases armed

/-- **A turn with the timer armed** delivers nothing before the deadline. -/
theorem readLoop_delayed_heldBack (clockwork : Clockwork env) (final : FinalEnd T inv ended)
    {turns : Nat} (delayed : s.delay.state = .delayed) (h : Held inv ended env d k s w) :
    (readLoop (turns + 1)).wp env k (s, buf) fun r s' k' =>
      HeldBack inv ended env d k' (came r buf s'.2) s'.1 w := by
  rw [readLoop_delayed delayed]
  split
  · next elapsed =>
    have due := clockwork.alarm _ _ elapsed
    have behind := h.armed delayed
    have there : buffered s.inner ≠ [] ∨ ended s.inner ∧ buffered s.inner = [] := by
      cases w with
      | none => exact .inr behind
      | some m => exact .inl behind.1
    have look : (pollFillBuf : Io T _).wp env (k + 1) s.inner fun answer inner k' =>
        (answer = .ok (buffered s.inner) ∧ buffered inner = buffered s.inner) ∧ inv inner ∧
          k + 1 ≤ k' :=
      ⟨final.again there, (final.fill env (k + 1) s.inner h.lawful).1, wp_later _⟩
    refine wp_mono look ?_
    rintro _ inner k' ⟨⟨rfl, shows⟩, lawful, later⟩
    dsimp only
    rw [came_filled]
    cases w with
    | none =>
      rw [behind.2, List.take_nil]
      exact ended_heldBack final (shows.trans behind.2) lawful h.delay rfl
    | some m =>
      have passed : env.clock k ≤ env.clock k' := clockwork.mono (by omega)
      apply delivered_heldBack final
      · exact shows
      · exact lawful
      · exact h.delay
      · rfl
      · exact Nat.le_trans behind.2 (Nat.le_trans due passed)
  · exact h.waits delayed

/-- A read that finds nothing. -/
theorem nothing_heldBack (lawful : inv s.inner) (delay : s.delay.delayDuration = d)
    (idle : s.delay.state = .idle) (first : s.bufEmpty = true) (empty : buffered s.inner = []) :
    HeldBack inv ended env d k [] s w where
  late some := absurd rfl some
  empty _ := empty
  held := by
    rw [if_pos empty]
    refine ⟨lawful, delay, fun _ _ => rfl, fun _ rest => ?_, fun delayed => ?_⟩
    · rw [first] at rest
      cases rest
    · rw [idle] at delayed
      cases delayed

/-- A look that finds a burst, or the end, arms the timer for it. -/
theorem looked_heldBack (clockwork : Clockwork env) (final : FinalEnd T inv ended)
    {inner : T} {rem : List UInt8} (lawful : inv inner) (shows : buffered inner = rem)
    (ends : rem = [] → ended inner) (delay : s.delay.delayDuration = d) {j turns : Nat}
    (later : k ≤ j) :
    (readLoop (turns + 1)).wp env (j + 2) ({ s with inner, delay := s.delay.armed env j }, buf)
      fun r s' k' => HeldBack inv ended env d k' (came r buf s'.2) s'.1 none ∨
        HeldBack inv ended env d k' (came r buf s'.2) s'.1 (some k) := by
  have armed (w : Option Nat)
      (behind : Behind ended env d { s with inner, delay := s.delay.armed env j } w) :
      Held inv ended env d (j + 2) { s with inner, delay := s.delay.armed env j } w :=
    ⟨lawful, delay, fun idle => (by cases idle), fun idle => (by cases idle), fun _ => behind⟩
  by_cases spent : rem = []
  · have behind : ended inner ∧ buffered inner = [] := ⟨ends spent, shows.trans spent⟩
    refine wp_mono (readLoop_delayed_heldBack clockwork final (by rfl) (armed none behind)) ?_
    exact fun r s' k' held => .inl held
  · have due : env.clock k + d ≤ env.clock (j + 1) + s.delay.delayDuration := by
      have sooner : env.clock k ≤ env.clock (j + 1) := clockwork.mono (by omega)
      omega
    have behind : buffered inner ≠ [] ∧ env.clock k + d ≤ env.clock (j + 1) + s.delay.delayDuration :=
      ⟨by rwa [shows], due⟩
    refine wp_mono (readLoop_delayed_heldBack clockwork final (by rfl) (armed (some k) behind)) ?_
    exact fun r s' k' held => .inr held

/-- **A turn with the timer idle** arms it for a burst that comes into sight, and hands over the rest
of one that was held back. -/
theorem readLoop_idle_heldBack (clockwork : Clockwork env) (final : FinalEnd T inv ended)
    (pos : 0 < d) (fits : Addable env d) (idle : s.delay.state = .idle) (h : Held inv ended env d k s w) :
    (readLoop 2).wp env k (s, buf) fun r s' k' =>
      HeldBack inv ended env d k' (came r buf s'.2) s'.1 w ∨
        w = none ∧ HeldBack inv ended env d k' (came r buf s'.2) s'.1 (some k) := by
  rw [readLoop_idle idle]
  have look : (pollFillBuf : Io T _).wp env k s.inner fun r inner j =>
      ((∀ rem, r ≠ .ok rem) → s.bufEmpty = true) ∧ (buffered inner = r.value?.getD [] ∧ Calm r) ∧
        (inv inner ∧ (r = .ok [] → ended inner)) ∧ k ≤ j := by
    refine ⟨fun missed => ?_, ⟨Source.contract.shows env k s.inner,
      Source.contract.calm env k s.inner⟩, final.fill env k s.inner h.lawful, wp_later _⟩
    by_contra rest
    have some := (h.rest idle (Bool.eq_false_iff.mpr rest)).1
    exact missed _ (Source.contract.stays env k s.inner some)
  refine wp_mono look ?_
  rintro r inner j ⟨first, ⟨shows, calm⟩, ⟨lawful, ends⟩, later⟩
  cases r with
  | ok rem =>
    dsimp only
    split
    · next empty =>
      have some : Duration.duration env s.delay.delayDuration j ≠ 0 := by
        show s.delay.delayDuration ≠ 0
        rw [h.delay]
        omega
      rw [if_neg some, if_neg (fits.not_overflows h.delay), h.fresh idle empty]
      refine wp_mono (looked_heldBack clockwork final lawful shows
        (fun spent => ends (congrArg Poll.ok spent)) h.delay later) ?_
      exact fun r s' k' held => held.imp_right fun held => ⟨rfl, held⟩
    · next rest =>
      obtain ⟨some, m, rfl, late⟩ := h.rest idle (Bool.eq_false_iff.mpr rest)
      rw [came_filled]
      refine .inl (delivered_heldBack final ?_ ?_ ?_ ?_ ?_)
      · exact shows
      · exact lawful
      · exact h.delay
      · exact idle
      · exact Nat.le_trans late (clockwork.mono later)
  | pending =>
    exact .inl (nothing_heldBack lawful h.delay idle (first fun _ eq => by cases eq) shows)
  | err e =>
    exact .inl (nothing_heldBack lawful h.delay idle (first fun _ eq => by cases eq) shows)
  | panicked m => exact absurd rfl (calm m)

/-- **One read holds back what it has to**, and leaves the next one to do the same. -/
theorem read_inTime (clockwork : Clockwork env) (final : FinalEnd T inv ended) (pos : 0 < d)
    (fits : Addable env d) {s : Paced (DelayedReader T Nat)} (h : Held inv ended env d s.moment s.state w) :
    InTime env d w s (.read buf) ∧
      Held inv ended env d ((reads (DelayedReader T Nat) env).step s (.read buf)).2.moment
        ((reads (DelayedReader T Nat) env).step s (.read buf)).2.state
        (sight env w s (.read buf)) := by
  have read : (readLoop 2).wp env s.moment (s.state, buf) fun r s' k' =>
      HeldBack inv ended env d k' (came r buf s'.2) s'.1 w ∨
        w = none ∧ HeldBack inv ended env d k' (came r buf s'.2) s'.1 (some s.moment) := by
    cases state : s.state.delay.state with
    | idle => exact readLoop_idle_heldBack clockwork final pos fits state h
    | delayed =>
      exact wp_mono (readLoop_delayed_heldBack clockwork final state h) fun _ _ _ held => .inl held
  have called : ((ReadCall.read buf).poll : Io (DelayedReader T Nat) _).wp env s.moment s.state
      fun r s' k' => HeldBack inv ended env d k' (r.value?.getD []) s' w ∨
        w = none ∧ HeldBack inv ended env d k' (r.value?.getD []) s' (some s.moment) := by
    simp only [ReadCall.poll, wp_map, wp_lend, Poll.map_map]
    exact read
  have held := machine_step called
  unfold InTime sight
  rw [show (reads (DelayedReader T Nat) env).step = (machine env ReadCall.poll).step from rfl]
  generalize (machine env ReadCall.poll).step s (.read buf) = o at held ⊢
  obtain ⟨r, k', s'⟩ := o
  have given {bytes : List UInt8} (mem : bytes ∈ r.value?) : r.value?.getD [] = bytes := by
    rw [Option.mem_def.mp mem, Option.getD_some]
  rcases held with held | ⟨rfl, held⟩
  · refine ⟨fun bytes mem some m seen => ?_, ?_⟩
    · obtain ⟨m', rfl, late⟩ := held.late (by rwa [given mem])
      cases seen
      exact late
    · have same : (if buffered s'.inner = [] then none else sighted w s.moment s.state s' r) =
          if buffered s'.inner = [] then none else w := by
        split
        · rfl
        · next left =>
          cases w with
          | some m => rfl
          | none => exact absurd (held.empty rfl) left
      exact same ▸ held.held
  · refine ⟨fun bytes mem some m seen => ?_, ?_⟩
    · obtain ⟨m', eq, late⟩ := held.late (by rwa [given mem])
      rw [sighted_none (.inr (by rwa [given mem]))] at seen
      cases eq
      cases seen
      exact late
    · have same : (if buffered s'.inner = [] then none else sighted none s.moment s.state s' r) =
          if buffered s'.inner = [] then none else Option.some s.moment := by
        split
        · rfl
        · next left => exact sighted_none (.inl left)
      exact same ▸ held.held

/-- **A delayed reader holds bursts back**, over every inner reader whose end is final, with a delay that
can be added to the clock. -/
theorem holdsBack (clockwork : Clockwork env) (final : FinalEnd T inv ended) (pos : 0 < d)
    (fits : Addable env d) (start created : Nat) (inner : T) (lawful : inv inner) (run : List ReadBuf) :
    HoldsBack env d ⟨start, new created inner d⟩ run := by
  have all : ∀ call ∈ run.map ReadCall.read, ∃ buf, call = .read buf := by
    intro call mem
    obtain ⟨buf, _, eq⟩ := List.mem_map.mp mem
    exact ⟨buf, eq.symm⟩
  refine Machine.AllowedFrom.imp (P := fun _ (s : Paced (DelayedReader T Nat) × Option Nat) =>
    Held inv ended env d s.1.moment s.1.state s.2) ?_ ?_ ?_ (Machine.allowedFrom_of_mem all)
  · rintro past ⟨s, w⟩ _ h ⟨buf, rfl⟩
    exact (read_inTime clockwork final pos fits h).2
  · rintro past ⟨s, w⟩ _ h ⟨buf, rfl⟩
    exact (read_inTime clockwork final pos fits h).1
  · exact ⟨lawful, rfl, fun _ _ => rfl, fun _ rest => (by cases rest), fun armed => by cases armed⟩

end DelayedReader

end Trixter
