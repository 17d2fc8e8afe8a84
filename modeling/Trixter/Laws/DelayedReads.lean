import Trixter.Laws.Stacked
import Trixter.Tape

/-!
# One delay for each burst

A burst is what the inner reader holds between two moments at which it is used up; its end, shown
once, is a burst of its own. A delayed reader is watched together with the burst in sight: when the
first read that saw it began, and the timers armed since.

The reader is then in one of three phases. With no burst in sight its timer is idle. It waits behind the
one timer it armed for a burst, and once that has fired the burst flows until it is used up. The main
theorem is `delays_each_burst_once`, for a delay that can be added to the clock: with a longer one the
first read panics (`longest_delay_is_none`).
-/

namespace Trixter

open Trixter.Lib Polling

namespace DelayedReader

/-- A delayed reader over a recorded one. -/
abbrev Taped (T : Type) := DelayedReader (Tape T) Nat

/-- A burst: the moment at which the first read that saw it began, how many timers were armed since,
and whether a read has returned since. -/
structure Burst where
  seen : Nat
  arms : Nat
  begun : Bool
  deriving DecidableEq, Repr

section Watch

variable {T : Type} [Source T]

/-- Between these two states a look found something to show: bytes, or the end. -/
def Sees (before after : Taped T) : Bool :=
  (after.inner.looks.drop before.inner.looks.length).any (·.isOk)

/-- The burst that this read is part of: the one in sight, or one that it sees. -/
def current (env : World) (w : Option Burst) (s : Paced (Taped T)) (call : ReadCall) :
    Option Burst :=
  let o := (reads (Taped T) env).step s call
  let burst := match w with
    | some b => some b
    | none => if Sees s.state o.2.state then some ⟨s.moment, 0, false⟩ else none
  burst.map fun b =>
    { b with arms := b.arms + s.state.delay.armings o.2.state.delay, begun := b.begun || o.1.isOk }

/-- The burst in sight after this read: none, once a read has returned and nothing is left of it. -/
def remaining (env : World) (w : Option Burst) (s : Paced (Taped T)) (call : ReadCall) :
    Option Burst :=
  let o := (reads (Taped T) env).step s call
  if o.1.isOk ∧ buffered o.2.state = [] then none else current env w s call

/-- This read delays its burst once: exactly one timer was armed for it, it is not returned from before
`d` has passed, and once it was, every read of it returns. With no burst nothing is armed and nothing
returned. -/
def DelaysOnce (env : World) (d : Nat) (w : Option Burst) (s : Paced (Taped T)) (call : ReadCall) :
    Prop :=
  let o := (reads (Taped T) env).step s call
  (current env w s call = none → s.state.delay.armings o.2.state.delay = 0 ∧ o.1.isOk = false) ∧
    (∀ b ∈ current env w s call, b.arms = 1 ∧
      (o.1.isOk = true → env.clock b.seen + d ≤ env.clock o.2.moment)) ∧
    ∀ b ∈ w, b.begun = true → o.1.isOk = true

/-- The bytes the reads of a run delivered. -/
def delivery (past : History ReadCall (Poll IoError (List UInt8))) : List UInt8 :=
  past.flatMap fun e => e.2.value?.getD []

end Watch

/-! ## What one read does in each phase -/

variable {T : Type} [Source T] {inv ended : T → Prop} {env : World} {k d seen : Nat}
  {s s' : Taped T} {w : Option Burst} {buf : ReadBuf}

/-- Where a delayed reader is with the burst in sight. -/
inductive Phase (ended : T → Prop) (env : World) (d k : Nat) (s : Taped T) : Option Burst → Prop
  | quiet (idle : s.delay.state = .idle) (first : s.bufEmpty = true)
      (past : s.delay.sleep.deadline ≤ env.clock k) : Phase ended env d k s none
  | waiting {seen : Nat} (delayed : s.delay.state = .delayed)
      (due : env.clock seen + d ≤ s.delay.sleep.deadline)
      (there : buffered s.inner ≠ [] ∨ ended s.inner.value ∧ buffered s.inner = []) :
      Phase ended env d k s (some ⟨seen, 1, false⟩)
  | flowing {seen : Nat} (idle : s.delay.state = .idle) (rest : s.bufEmpty = false)
      (past : s.delay.sleep.deadline ≤ env.clock k) (left : buffered s.inner ≠ [])
      (late : env.clock seen + d ≤ env.clock k) : Phase ended env d k s (some ⟨seen, 1, true⟩)

/-- What holds of a delayed reader between reads. -/
structure Steady (inv ended : T → Prop) (env : World) (d k : Nat) (s : Taped T) (w : Option Burst) :
    Prop where
  lawful : inv s.inner.value
  delay : s.delay.delayDuration = d
  phase : Phase ended env d k s w

/-- What a read leaves of a burst that came into sight at `seen`: it waits, or it returns in time and
the burst flows or is used up. -/
inductive Served {α : Type} (inv ended : T → Prop) (env : World) (d seen k : Nat) (s : Taped T) :
    Poll IoError α → Prop
  | waits (h : Steady inv ended env d k s (some ⟨seen, 1, false⟩)) :
      Served inv ended env d seen k s .pending
  | returns (a : α) (late : env.clock seen + d ≤ env.clock k)
      (h : Steady inv ended env d k s
        (if buffered s.inner = [] then none else some ⟨seen, 1, true⟩)) :
      Served inv ended env d seen k s (.ok a)

theorem Served.map {α β : Type} {r : Poll IoError α} (h : Served inv ended env d seen k s r)
    (f : α → β) : Served inv ended env d seen k s (r.map f) := by
  cases h with
  | waits h => exact .waits h
  | returns a late h => exact .returns (f a) late h

/-- **Handing over** what fits of a burst that was delayed long enough. -/
theorem delivered_served (final : FinalEnd T inv ended) {rem : List UInt8}
    (shows : buffered s.inner = rem) (lawful : inv s.inner.value)
    (delay : s.delay.delayDuration = d) (idle : s.delay.state = .idle)
    (past : s.delay.sleep.deadline ≤ env.clock k) (late : env.clock seen + d ≤ env.clock k) :
    Served inv ended env d seen k (s.delivered rem buf) (.ok ()) := by
  have left : buffered (s.delivered rem buf).inner = rem.drop (handed rem buf) := by
    rw [← shows]
    exact Source.contract.consumes _ _
  refine .returns () late ⟨final.consume _ _ lawful, delay, ?_⟩
  by_cases all : rem.length = handed rem buf
  · have used : buffered (s.delivered rem buf).inner = [] := by
      rw [left, ← all, List.drop_length]
    rw [if_pos used]
    exact .quiet idle (beq_iff_eq.mpr all) past
  · have some : buffered (s.delivered rem buf).inner ≠ [] := by
      rw [left]
      intro used
      exact all (Nat.le_antisymm (List.drop_eq_nil_iff.mp used) (Nat.min_le_left _ _))
    rw [if_neg some]
    exact .flowing idle (beq_eq_false_iff_ne.mpr all) past some late

/-- **Waiting**: the timer is polled, and what comes after it is in time. -/
theorem readLoop_waiting (clockwork : Clockwork env) (final : FinalEnd T inv ended) {turns : Nat}
    (h : Steady inv ended env d k s (some ⟨seen, 1, false⟩)) :
    (readLoop (turns + 1)).wp env k (s, buf) fun r s' k' =>
      Served inv ended env d seen k' s'.1 r ∧ s'.1.delay.sleep = s.delay.sleep ∧
        s.inner.looks <+: s'.1.inner.looks := by
  obtain ⟨lawful, delay, phase⟩ := h
  cases phase with
  | waiting delayed due there =>
    rw [readLoop_delayed delayed]
    split
    · next elapsed =>
      have fires := clockwork.alarm _ _ elapsed
      rw [Tape.look_wp]
      have again : (pollFillBuf : Io T _).wp env (k + 1) s.inner.value fun r value k' =>
          (r = .ok (buffered s.inner) ∧ buffered value = buffered s.inner) ∧ inv value ∧ k + 1 ≤ k' :=
        ⟨final.again there, (final.fill env (k + 1) s.inner.value lawful).1, wp_later _⟩
      refine wp_mono again ?_
      rintro _ value k' ⟨⟨rfl, shows⟩, kept, later⟩
      have passed : env.clock k ≤ env.clock k' := clockwork.mono (by omega)
      refine ⟨?_, rfl, List.prefix_append _ _⟩
      apply delivered_served final
      · exact shows
      · exact kept
      · exact delay
      · rfl
      · exact Nat.le_trans fires passed
      · exact Nat.le_trans due (Nat.le_trans fires passed)
    · exact ⟨.waits ⟨lawful, delay, .waiting delayed due there⟩, rfl, List.prefix_rfl⟩

/-- **Flowing**: the rest is handed over at once. -/
theorem readLoop_flowing (clockwork : Clockwork env) (final : FinalEnd T inv ended)
    (h : Steady inv ended env d k s (some ⟨seen, 1, true⟩)) :
    (readLoop 2).wp env k (s, buf) fun r s' k' =>
      Served inv ended env d seen k' s'.1 r ∧ r.isOk = true ∧
        s'.1.delay.sleep = s.delay.sleep := by
  obtain ⟨lawful, delay, phase⟩ := h
  cases phase with
  | flowing idle rest past left late =>
    rw [readLoop_idle idle, Tape.look_wp]
    have again : (pollFillBuf : Io T _).wp env k s.inner.value fun r value k' =>
        (r = .ok (buffered s.inner) ∧ buffered value = buffered s.inner) ∧ inv value ∧ k ≤ k' :=
      ⟨final.again (.inl left), (final.fill env k s.inner.value lawful).1, wp_later _⟩
    refine wp_mono again ?_
    rintro _ value k' ⟨⟨rfl, shows⟩, kept, later⟩
    have passed : env.clock k ≤ env.clock k' := clockwork.mono later
    dsimp only
    rw [if_neg (by rw [rest]; exact Bool.false_ne_true)]
    refine ⟨?_, rfl, rfl⟩
    apply delivered_served final
    · exact shows
    · exact kept
    · exact delay
    · exact idle
    · exact Nat.le_trans past passed
    · exact Nat.le_trans late passed

/-- A poll that found nothing to show. -/
structure Missed {α : Type} (inv ended : T → Prop) (env : World) (d k : Nat) (s s' : Taped T)
    (r : Poll IoError α) : Prop where
  blind : Sees s s' = false
  fails : r.isOk = false
  still : s'.delay.sleep = s.delay.sleep
  steady : Steady inv ended env d k s' none

/-- The reader after a look that answered `r` and left `value`. -/
def looked (s : Taped T) (r : Poll IoError (List UInt8)) (value : T) : Taped T :=
  { s with inner := ⟨value, s.inner.looks ++ [r],
      s.inner.stream ++ (buffered value).drop (buffered s.inner.value).length⟩ }

/-- A look that finds nothing leaves the reader quiet. -/
theorem looked_missed {α : Type} (clockwork : Clockwork env) (h : Steady inv ended env d k s none)
    {value : T} (lawful : inv value) {j : Nat} (later : k ≤ j) {r : Poll IoError (List UInt8)}
    (nothing : r.isOk = false) {answer : Poll IoError α} (fails : answer.isOk = false) :
    Missed inv ended env d j s (s.looked r value) answer := by
  obtain ⟨-, delay, phase⟩ := h
  cases phase with
  | quiet idle first past =>
    have blind : Sees s (s.looked r value) = false := by simp [Sees, looked, nothing]
    have passed : env.clock k ≤ env.clock j := clockwork.mono later
    exact ⟨blind, fails, rfl, lawful, delay, .quiet idle first (Nat.le_trans past passed)⟩

/-- **A look that finds something arms the timer**, and the read goes on behind it. -/
theorem looked_served (clockwork : Clockwork env) (final : FinalEnd T inv ended) (pos : 0 < d)
    (h : Steady inv ended env d k s none) {value : T} {rem : List UInt8} (lawful : inv value)
    (shows : buffered value = rem) (ends : rem = [] → ended value) {j : Nat} (later : k ≤ j)
    {turns : Nat} :
    (readLoop (turns + 1)).wp env (j + 2)
      ({ s.looked (.ok rem) value with delay := s.delay.armed env j }, buf) fun r s' k' =>
        Sees s s'.1 = true ∧ s'.1.delay.sleep ≠ s.delay.sleep ∧
          Served inv ended env d k k' s'.1 r := by
  obtain ⟨-, delay, phase⟩ := h
  cases phase with
  | quiet idle first past =>
    have sooner : env.clock k ≤ env.clock (j + 1) := clockwork.mono (by omega)
    have due : env.clock k + d ≤ env.clock (j + 1) + s.delay.delayDuration := by omega
    have there : buffered value ≠ [] ∨ ended value ∧ buffered value = [] := by
      rw [shows]
      by_cases none : rem = []
      · exact .inr ⟨ends none, none⟩
      · exact .inl none
    refine wp_mono (readLoop_waiting clockwork final ⟨lawful, delay, .waiting (by rfl) due there⟩) ?_
    rintro r s' k' ⟨served, sleep, more, looks⟩
    refine ⟨?_, ?_, served⟩
    · simp [Sees, ← looks, looked, Poll.isOk]
    · rw [sleep]
      intro same
      have same : env.clock (j + 1) + s.delay.delayDuration = s.delay.sleep.deadline :=
        congrArg Sleep.deadline same
      omega

/-- **Quiet**: the timer is armed once for what the look finds, if it finds something. -/
theorem readLoop_quiet (clockwork : Clockwork env) (final : FinalEnd T inv ended) (pos : 0 < d)
    (fits : Addable env d) (h : Steady inv ended env d k s none) :
    (readLoop 2).wp env k (s, buf) fun r s' k' =>
      Missed inv ended env d k' s s'.1 r ∨
        Sees s s'.1 = true ∧ s'.1.delay.sleep ≠ s.delay.sleep ∧
          Served inv ended env d k k' s'.1 r := by
  have phase := h.phase
  cases phase with
  | quiet idle first past =>
    rw [readLoop_idle idle, Tape.look_wp]
    have look : (pollFillBuf : Io T _).wp env k s.inner.value fun r value k' =>
        (buffered value = r.value?.getD [] ∧ Calm r) ∧
          (inv value ∧ (r = .ok [] → ended value)) ∧ k ≤ k' :=
      ⟨⟨Source.contract.shows env k s.inner.value, Source.contract.calm env k s.inner.value⟩,
        final.fill env k s.inner.value h.lawful, wp_later _⟩
    refine wp_mono look ?_
    rintro r value j ⟨⟨shows, calm⟩, ⟨lawful, ends⟩, later⟩
    cases r with
    | ok rem =>
      have some : Duration.duration env s.delay.delayDuration j ≠ 0 := by
        show s.delay.delayDuration ≠ 0
        rw [h.delay]
        omega
      dsimp only
      rw [if_pos first, if_neg some, if_neg (fits.not_overflows h.delay)]
      refine wp_mono (looked_served clockwork final pos h lawful shows
        (fun none => ends (congrArg Poll.ok none)) later) ?_
      exact fun r s' k' served => .inr served
    | pending => exact .inl (looked_missed clockwork h lawful later rfl rfl)
    | err e => exact .inl (looked_missed clockwork h lawful later rfl rfl)
    | panicked m => exact absurd rfl (calm m)

/-! ## Over whole runs -/

omit [Source T] in
theorem isOk_map {α β : Type} (f : α → β) (r : Poll IoError α) : (r.map f).isOk = r.isOk := by
  cases r <;> rfl

/-- The burst that was served, as it is watched. -/
theorem Served.steady {α : Type} {r : Poll IoError α} (h : Served inv ended env d seen k s r) :
    Steady inv ended env d k s
      (if r.isOk = true ∧ buffered s = [] then none else some ⟨seen, 1, r.isOk⟩) := by
  cases h with
  | waits h =>
    rw [if_neg fun ok => Bool.false_ne_true ok.1]
    exact h
  | returns a late h =>
    have same : (Poll.ok a : Poll IoError α).isOk = true := rfl
    rw [same]
    simp only [true_and]
    exact h

theorem Served.late {α : Type} {r : Poll IoError α} (h : Served inv ended env d seen k s r)
    (ok : r.isOk = true) : env.clock seen + d ≤ env.clock k := by
  cases h with
  | waits h => cases ok
  | returns a late h => exact late

/-- A read that serves the burst it is part of delays it once. -/
theorem Served.delaysOnce {s : Paced (Taped T)} {call : ReadCall}
    (served : Served inv ended env d seen ((reads (Taped T) env).step s call).2.moment
      ((reads (Taped T) env).step s call).2.state ((reads (Taped T) env).step s call).1)
    (now : current env w s call = some ⟨seen, 1, ((reads (Taped T) env).step s call).1.isOk⟩)
    (flows : ∀ b ∈ w, b.begun = true → ((reads (Taped T) env).step s call).1.isOk = true) :
    DelaysOnce env d w s call ∧
      Steady inv ended env d ((reads (Taped T) env).step s call).2.moment
        ((reads (Taped T) env).step s call).2.state (remaining env w s call) := by
  unfold DelaysOnce remaining
  rw [now]
  refine ⟨⟨fun none => (by cases none), fun b mem => ?_, flows⟩, served.steady⟩
  cases mem
  exact ⟨rfl, served.late⟩

/-- **One read delays its burst once**, and leaves the next one to do the same. -/
theorem read_delaysOnce (clockwork : Clockwork env) (final : FinalEnd T inv ended) (pos : 0 < d)
    (fits : Addable env d) {s : Paced (Taped T)} (h : Steady inv ended env d s.moment s.state w) :
    DelaysOnce env d w s (.read buf) ∧
      Steady inv ended env d ((reads (Taped T) env).step s (.read buf)).2.moment
        ((reads (Taped T) env).step s (.read buf)).2.state (remaining env w s (.read buf)) := by
  have loop {Q : Poll IoError (List UInt8) → Taped T → Nat → Prop}
      (h : (readLoop 2).wp env s.moment (s.state, buf) fun r s' k' =>
        Q (r.map fun _ => s'.2.filled.drop buf.filled.length) s'.1 k') :
      Q ((reads (Taped T) env).step s (.read buf)).1 ((reads (Taped T) env).step s (.read buf)).2.state
        ((reads (Taped T) env).step s (.read buf)).2.moment := by
    have read : ((ReadCall.read buf).poll : Io (Taped T) _).wp env s.moment s.state Q := by
      simp only [ReadCall.poll, wp_map, wp_lend, Poll.map_map]
      exact h
    exact machine_step read
  have phase := h.phase
  cases phase with
  | quiet idle first past =>
    have read := loop (Q := fun r s' k' => Missed inv ended env d k' s.state s' r ∨
        Sees s.state s' = true ∧ s'.delay.sleep ≠ s.state.delay.sleep ∧
          Served inv ended env d s.moment k' s' r) <| by
      refine wp_mono (readLoop_quiet clockwork final pos fits h) ?_
      rintro r s' k' (missed | ⟨sees, armed, served⟩)
      · exact .inl ⟨missed.blind, (isOk_map _ r).trans missed.fails, missed.still, missed.steady⟩
      · exact .inr ⟨sees, armed, served.map _⟩
    rcases read with ⟨blind, fails, still, steady⟩ | ⟨sees, armed, served⟩
    · unfold DelaysOnce remaining current
      simp only [blind, fails, Delay.armings, still, Bool.false_eq_true, if_false, if_true, Option.map_none,
        false_and]
      exact ⟨⟨fun _ => ⟨trivial, trivial⟩, fun b mem => (by cases mem), fun b mem => by cases mem⟩, steady⟩
    · refine served.delaysOnce ?_ fun b mem => by cases mem
      simp only [current, sees, Delay.armings, if_neg armed, if_true, Option.map_some, Bool.false_or]
  | waiting delayed due there =>
    have read := loop (Q := fun r s' k' => Served inv ended env d _ k' s' r ∧
        s'.delay.sleep = s.state.delay.sleep) <|
      wp_mono (readLoop_waiting clockwork final h) fun _ _ _ served => ⟨served.1.map _, served.2.1⟩
    refine read.1.delaysOnce ?_ fun b mem begun => ?_
    · simp only [current, Delay.armings, if_pos read.2, Option.map_some, Bool.false_or]
    · cases mem
      cases begun
  | flowing idle rest past left late =>
    have read := loop (Q := fun r s' k' => Served inv ended env d _ k' s' r ∧ r.isOk = true ∧
        s'.delay.sleep = s.state.delay.sleep) <|
      wp_mono (readLoop_flowing clockwork final h) fun _ _ _ served =>
        ⟨served.1.map _, (isOk_map _ _).trans served.2.1, served.2.2⟩
    refine read.1.delaysOnce ?_ fun b _ _ => read.2.1
    simp only [current, Delay.armings, if_pos read.2.2, Option.map_some, Bool.true_or, read.2.1]

/-! ## What is delivered -/

/-- Handing over moves bytes from the stream to the caller. -/
theorem delivered_splits {taken rem : List UInt8} (h : Tape.Splits taken s.inner)
    (shows : buffered s.inner = rem) :
    Tape.Splits (taken ++ came (.ok ()) buf (filled rem buf)) (s.delivered rem buf).inner := by
  have moved := h.consume (handed rem buf)
  rw [shows] at moved
  rw [came_filled]
  exact moved

/-- A read that does not succeed delivers nothing. -/
theorem missed_splits {taken : List UInt8} {inner : Tape T} {r : Poll IoError Unit} {buf' : ReadBuf}
    (h : Tape.Splits taken inner) (fails : r.isOk = false) :
    Tape.Splits (taken ++ came r buf buf') inner := by
  have nothing : came r buf buf' = [] := by
    cases r with
    | ok a => cases fails
    | _ => rfl
  rw [nothing, List.append_nil]
  exact h

/-- A turn with the timer armed keeps the stream split. -/
theorem readLoop_delayed_splits {taken : List UInt8} {turns : Nat}
    (delayed : s.delay.state = .delayed) (h : Tape.Splits taken s.inner) :
    (readLoop (turns + 1)).wp env k (s, buf) fun r s' _ =>
      Tape.Splits (taken ++ came r buf s'.2) s'.1.inner := by
  rw [readLoop_delayed delayed]
  split
  · have look : (pollFillBuf : Io (Tape T) _).wp env (k + 1) s.inner fun r inner _ =>
        Tape.Splits taken inner ∧ buffered inner = r.value?.getD [] :=
      ⟨h.look, Source.contract.shows env (k + 1) s.inner⟩
    refine wp_mono look ?_
    rintro (_ | e | rem | m) inner k' ⟨splits, shows⟩
    case ok => exact delivered_splits splits shows
    all_goals exact missed_splits splits rfl
  · exact missed_splits h rfl

/-- **A read delivers what comes next in the stream**, whatever the timer does. -/
theorem read_splits {taken : List UInt8} (h : Tape.Splits taken s.inner) :
    (readLoop 2).wp env k (s, buf) fun r s' _ =>
      Tape.Splits (taken ++ came r buf s'.2) s'.1.inner := by
  cases state : s.delay.state with
  | delayed => exact readLoop_delayed_splits state h
  | idle =>
    rw [readLoop_idle state]
    have look : (pollFillBuf : Io (Tape T) _).wp env k s.inner fun r inner _ =>
        Tape.Splits taken inner ∧ buffered inner = r.value?.getD [] :=
      ⟨h.look, Source.contract.shows env k s.inner⟩
    refine wp_mono look ?_
    rintro (_ | e | rem | m) inner k' ⟨splits, shows⟩
    case ok =>
      dsimp only
      split
      · split
        · exact delivered_splits splits shows
        · split
          · exact missed_splits splits rfl
          · exact readLoop_delayed_splits (by rfl) splits
      · exact delivered_splits splits shows
    all_goals exact missed_splits splits rfl

/-- **A delayed reader delays each burst once.** With a constant delay that can be added to the clock,
over every inner reader whose end stays in sight, and under every schedule of reads: what is delivered,
followed by what is unread, is the inner stream, with any delay; exactly one timer is armed for each
burst; no read of a burst returns before the delay has passed since the first read that saw it; and
from the first that returns, each one does until the burst is used up. -/
theorem delays_each_burst_once {T : Type} [Source T] {inv ended : T → Prop} {env : World} {d : Nat}
    (clockwork : Clockwork env) (final : FinalEnd T inv ended) (pos : 0 < d) (born start : Nat)
    (late : born ≤ start) (inner : T) (lawful : inv inner) (run : List ReadBuf) :
    (let o := (reads (Taped T) env).run ⟨start, new (env.clock born) (Tape.start inner) d⟩
       (run.map .read)
     delivery o.1 ++ buffered o.2.state = o.2.state.inner.stream) ∧
    (Addable env d → ((reads (Taped T) env).watched (remaining env)).Allowed
      (fun _ s call => DelaysOnce env d s.2 s.1 call)
      (⟨start, new (env.clock born) (Tape.start inner) d⟩, none) (run.map .read)) := by
  have all : ∀ call ∈ run.map ReadCall.read, ∃ buf, call = .read buf := by
    intro call mem
    obtain ⟨buf, _, eq⟩ := List.mem_map.mp mem
    exact ⟨buf, eq.symm⟩
  constructor
  · have reading : (reads (Taped T) env).Allowed (fun _ _ call => ∃ buf, call = ReadCall.read buf)
        ⟨start, new (env.clock born) (Tape.start inner) d⟩ (run.map .read) :=
      Machine.allowedFrom_of_mem all
    refine Machine.run_induction
      (P := fun past (s : Paced (Taped T)) => Tape.Splits (delivery past) s.state.inner) rfl ?_ reading
    rintro past s _ splits ⟨buf, rfl⟩
    have read : ((ReadCall.read buf).poll : Io (Taped T) _).wp env s.moment s.state fun r s' _ =>
        Tape.Splits (delivery past ++ r.value?.getD []) s'.inner := by
      simp only [ReadCall.poll, wp_map, wp_lend, Poll.map_map]
      exact read_splits splits
    have moved := machine_step read
    simp only [delivery, List.flatMap_append, List.flatMap_singleton]
    exact moved
  · intro fits
    refine Machine.AllowedFrom.imp (P := fun _ (s : Paced (Taped T) × Option Burst) =>
      Steady inv ended env d s.1.moment s.1.state s.2) ?_ ?_ ?_ (Machine.allowedFrom_of_mem all)
    · rintro past ⟨s, w⟩ _ h ⟨buf, rfl⟩
      exact (read_delaysOnce clockwork final pos fits h).2
    · rintro past ⟨s, w⟩ _ h ⟨buf, rfl⟩
      exact (read_delaysOnce clockwork final pos fits h).1
    · exact ⟨lawful, rfl, .quiet rfl rfl (clockwork.mono late)⟩

/-- Two bursts and the end of the stream, with room for two bytes, for none, and for more than there is. -/
theorem delays_each_burst_once_twice :
    let run : List ReadBuf := List.replicate 11 ⟨[], 2⟩ ++ ⟨[], 0⟩ :: List.replicate 6 ⟨[], 9⟩
    let start : Paced (Taped Arrivals) :=
      ⟨3, new (metronome.clock 1) (Tape.start ⟨[1, 2, 3], [none, some [4, 5]]⟩) 5⟩
    (let o := (reads (Taped Arrivals) metronome).run start (run.map .read)
     delivery o.1 ++ buffered o.2.state = o.2.state.inner.stream) ∧
    ((reads (Taped Arrivals) metronome).watched (remaining metronome)).Allowed
      (fun _ s call => DelaysOnce metronome 5 s.2 s.1 call) (start, none) (run.map .read) :=
  (delays_each_burst_once metronome_clockwork Arrivals.finalEnd (by decide) 1 3 (by decide) _
    (by decide) _).imp_right fun delays => delays (.of_lt (by decide))

/-- The failing run: the longest `Duration` leads past the last `Instant`, so the first read panics with
no timer armed, and the next one hands the burst over at once. -/
theorem longest_delay_is_none :
    let start : Paced (Taped Arrivals) :=
      ⟨3, new (metronome.clock 1) (Tape.start ⟨[1, 2, 3], []⟩) longest⟩
    let run : List ReadCall := [.read ⟨[], 8⟩, .read ⟨[], 8⟩]
    ((reads (Taped Arrivals) metronome).run start run).1.map Prod.snd =
        [overflow, .ok [1, 2, 3]] ∧
      ¬((reads (Taped Arrivals) metronome).watched (remaining metronome)).Allowed
        (fun _ s call => DelaysOnce metronome longest s.2 s.1 call) (start, none) run := by
  refine ⟨by decide, fun delays => ?_⟩
  have first := (delays.1.2.1 ⟨3, 0, false⟩ (by decide)).1
  exact absurd first (by decide)

end DelayedReader

end Trixter
