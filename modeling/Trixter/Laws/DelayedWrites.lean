import Trixter.Laws.Bursts
import Trixter.Trail

/-!
# How far apart a delayed writer's calls are

Over a recorded writer a delayed operation is settled by one law, `poll_polled`: it waits for the
deadline of the running timer, or of the one it arms, or it makes one call once that deadline has
passed and leaves the timer idle. Whatever a caller does in between, the next call waits behind a
timer that was armed after the last one: `forwards_spaced`, for a delay that can be added to the clock.
With a longer one a poll unwinds, and the next forwards at once (`longest_delay_forwards`).
-/

namespace Trixter

open Trixter.Lib Polling

namespace DelayedWriter

/-- A delayed writer over a recorded one. -/
abbrev Recorded (T : Type) := DelayedWriter (Trail T) Nat

section Polls

variable {T D : Type} [AsyncWrite T] [Duration D] {env : World} {k : Nat}

omit [AsyncWrite T] in
/-- The answer of a delayed call may be changed before the delay or after it. -/
theorem pollWithWriteDelay_map {α β : Type} {f : Io T α} {g : α → β} {s : DelayedWriter T D}
    {Q : Poll IoError β → DelayedWriter T D → Nat → Prop} :
    (pollWithWriteDelay f >>= fun a => pure (g a)).wp env k s Q ↔
      (pollWithWriteDelay (f >>= fun a => pure (g a))).wp env k s Q := by
  rw [wp_map, pollWithWriteDelay_wp, pollWithWriteDelay_wp]
  simp only [wp_map]
  rfl

/-- Every operation but a flush is delayed. -/
theorem delayed_wp {op : WriteOp} (delayed : op ≠ .flush) {s : DelayedWriter T D}
    {Q : Poll IoError Nat → DelayedWriter T D → Nat → Prop} :
    (op.poll : Io (DelayedWriter T D) Nat).wp env k s Q ↔
      (pollWithWriteDelay (op.poll : Io T Nat)).wp env k s Q := by
  cases op with
  | write call => cases call <;> rfl
  | flush => exact absurd rfl delayed
  | shutdown => exact pollWithWriteDelay_map

/-- A flush goes straight through. -/
theorem flush_wp {s : DelayedWriter T D} {Q : Poll IoError Nat → DelayedWriter T D → Nat → Prop} :
    (WriteOp.flush.poll : Io (DelayedWriter T D) Nat).wp env k s Q ↔
      (WriteOp.flush.poll : Io T Nat).wp env k s.inner fun r t k' => Q r { s with inner := t } k' := by
  simp only [WriteOp.poll, wp_map]
  rfl

end Polls

variable {T : Type} {env : World} {k d : Nat} {s : Recorded T} {op : WriteOp}

/-- The deadline a delayed poll waits for: the running timer's, or that of the timer it arms. -/
def due (env : World) (k : Nat) (s : Recorded T) : Nat :=
  match s.delay.state with
  | .idle => env.clock (k + 1) + s.delay.delayDuration
  | .delayed => s.delay.sleep.deadline

/-- The timer of a delayed poll. -/
def timer (env : World) (k : Nat) (s : Recorded T) (state : State) : Delay Nat :=
  ⟨state, ⟨due env k s⟩, s.delay.delayDuration⟩

/-- What one delayed poll does: wait for the deadline, or make one call after it. Where the deadline
would lie past the last `Instant` it panics, and its sleep is not reset. -/
inductive Polled (env : World) (k : Nat) (s : Recorded T) (op : WriteOp) :
    Poll IoError Nat → Recorded T → Nat → Prop
  | waits (k' : Nat)
      (runs : s.delay.state = .delayed → env.alarm s.delay.sleep.deadline k = false) :
      Polled env k s op .pending ⟨s.inner, timer env k s .delayed⟩ k'
  | calls (r : Poll IoError Nat) (value : T) (j k' : Nat) (passed : due env k s ≤ env.clock j)
      (after : k ≤ j) (until_ : j ≤ k') :
      Polled env k s op r ⟨⟨value, s.inner.entries ++ [⟨op, j, r⟩]⟩, timer env k s .idle⟩ k'
  | overflows (k' : Nat) (idle : s.delay.state = .idle)
      (far : ¬Addable env s.delay.delayDuration) :
      Polled env k s op overflow ⟨s.inner, s.delay.stuck⟩ k'

/-- The calls of one delayed poll. -/
theorem Polled.one {r : Poll IoError Nat} {s' : Recorded T} {k' : Nat}
    (poll : Polled env k s op r s' k') :
    (s.inner.since s'.inner).length ≤ 1 ∧
      ∀ m, r = .panicked m → (∃ e ∈ s.inner.since s'.inner, e.answer = .panicked m) ∨
        r = overflow ∧ ¬Addable env s.delay.delayDuration := by
  cases poll with
  | waits =>
    rw [Trail.since_append (List.append_nil _).symm]
    exact ⟨Nat.zero_le 1, fun m eq => by cases eq⟩
  | calls =>
    rw [Trail.since_append rfl]
    exact ⟨Nat.le_refl 1, fun m eq => .inl ⟨_, List.mem_singleton_self _, eq⟩⟩
  | overflows _ _ far =>
    rw [Trail.since_append (List.append_nil _).symm]
    exact ⟨Nat.zero_le 1, fun _ _ => .inr ⟨rfl, far⟩⟩

/-- A poll keeps the delay. -/
theorem Polled.delay {r : Poll IoError Nat} {s' : Recorded T} {k' : Nat}
    (poll : Polled env k s op r s' k') : s'.delay.delayDuration = s.delay.delayDuration := by
  cases poll <;> rfl

/-- A call made at moment `j`, once the deadline has passed. -/
theorem call_polled [AsyncWrite T] {j : Nat} (passed : due env k s ≤ env.clock j) (after : k ≤ j) :
    (op.poll : Io (Trail T) Nat).wp env j s.inner fun r t k' =>
      Polled env k s op r ⟨t, timer env k s .idle⟩ k' := by
  rw [Trail.poll_wp]
  refine wp_mono (wp_later _) ?_
  intro r value k' later
  exact .calls r value j k' passed after later

/-- **One delayed poll**, with some delay configured. -/
theorem poll_polled [AsyncWrite T] (clockwork : Clockwork env) (pos : s.delay.delayDuration ≠ 0)
    (delayed : op ≠ .flush) :
    (op.poll : Io (Recorded T) Nat).wp env k s (Polled env k s op) := by
  rw [delayed_wp delayed, pollWithWriteDelay_wp]
  obtain ⟨inner, state, sleep, delay⟩ := s
  cases state with
  | idle =>
    have some : Duration.duration env delay k ≠ 0 := pos
    dsimp only
    rw [if_neg some]
    split
    · next far =>
      exact .overflows _ rfl fun fits => fits.not_overflows rfl far
    split
    · next elapsed =>
      refine call_polled ?_ (Nat.le_add_right k 3)
      exact Nat.le_trans (clockwork.alarm _ _ elapsed) (clockwork.mono (by omega))
    · exact .waits _ fun delayed => by cases delayed
  | delayed =>
    dsimp only
    split
    · next elapsed =>
      refine call_polled ?_ (Nat.le_add_right k 1)
      exact Nat.le_trans (clockwork.alarm _ _ elapsed) (clockwork.mono (by omega))
    · next runs => exact .waits _ fun _ => Bool.eq_false_iff.mpr runs

/-! ## Spacing -/

/-- The calls that were forwarded after a delay: everything but flushes. -/
def forwarded (s : Recorded T) : List Entry := s.inner.entries.filter (·.op ≠ .flush)

/-- The moment of the first poll that is delayed. -/
def opened (w : Option Nat) (s : Paced (Recorded T)) (op : WriteOp) : Option Nat :=
  w.or (if op = .flush then none else some s.moment)

/-- One poll makes at most one call of the inner writer. It unwinds only where that call does, or
where the delay cannot be added to the clock. -/
def OneCall [AsyncWrite T] (env : World) (d : Nat) (s : Paced (Recorded T)) (op : WriteOp) : Prop :=
  let o := (writes (Recorded T) env).step s op
  let calls := s.state.inner.since o.2.state.inner
  calls.length ≤ 1 ∧ ∀ m, o.1 = .panicked m →
    (∃ e ∈ calls, e.answer = .panicked m) ∨ o.1 = overflow ∧ ¬Addable env d

/-- What holds of a delayed writer between polls. `w` is the moment of the first delayed poll. -/
structure Spaced (env : World) (d k : Nat) (s : Recorded T) (w : Option Nat) : Prop where
  delay : s.delay.delayDuration = d
  apart : (forwarded s).Pairwise fun e e' => env.clock e.started + d ≤ env.clock e'.started
  first : ∀ e ∈ forwarded s, ∃ m ∈ w, env.clock m + d ≤ env.clock e.started
  past : ∀ e ∈ forwarded s, e.started ≤ k
  begun : ∀ m ∈ w, m ≤ k
  armed : s.delay.state = .delayed → (∃ m ∈ w, env.clock m + d ≤ s.delay.sleep.deadline) ∧
    ∀ e ∈ forwarded s, env.clock e.started + d ≤ s.delay.sleep.deadline

/-- The deadline of a delayed poll is late enough for the first poll and for every call so far. -/
theorem Spaced.due_late {w : Option Nat} (clockwork : Clockwork env) (h : Spaced env d k s w)
    (delayed : op ≠ .flush) :
    (∃ m ∈ opened w ⟨k, s⟩ op, env.clock m + d ≤ due env k s) ∧
      ∀ e ∈ forwarded s, env.clock e.started + d ≤ due env k s := by
  unfold due opened
  rw [if_neg delayed]
  cases state : s.delay.state with
  | idle =>
    have soon (m : Nat) (le : m ≤ k) :
        env.clock m + d ≤ env.clock (k + 1) + s.delay.delayDuration := by
      rw [h.delay]
      exact Nat.add_le_add_right (clockwork.mono (by omega)) d
    refine ⟨?_, fun e mem => soon _ (h.past e mem)⟩
    cases w with
    | none => exact ⟨k, rfl, soon _ (Nat.le_refl _)⟩
    | some m => exact ⟨m, rfl, soon _ (h.begun m rfl)⟩
  | delayed =>
    obtain ⟨⟨m, rfl, late⟩, all⟩ := h.armed state
    exact ⟨⟨m, rfl, late⟩, all⟩

/-- The first delayed poll stays the first. -/
theorem mem_opened {w : Option Nat} {m : Nat} (mem : m ∈ w) : m ∈ opened w ⟨k, s⟩ op := by
  cases mem
  rfl

theorem Spaced.opened_le {w : Option Nat} (h : Spaced env d k s w) :
    ∀ m ∈ opened w ⟨k, s⟩ op, m ≤ k := by
  unfold opened
  intro m mem
  cases w with
  | some m' => exact h.begun m mem
  | none =>
    split at mem
    · cases mem
    · cases mem
      exact Nat.le_refl _

/-- Recording a delayed call adds it to the forwarded ones. -/
theorem forwarded_snoc {value : T} {e : Entry} {delay : Delay Nat} (delayed : e.op ≠ .flush) :
    forwarded ⟨⟨value, s.inner.entries ++ [e]⟩, delay⟩ = forwarded s ++ [e] := by
  simp [forwarded, delayed]

/-- A flush is not among them. -/
theorem forwarded_flush {value : T} {e : Entry} {delay : Delay Nat} (flush : e.op = .flush) :
    forwarded ⟨⟨value, s.inner.entries ++ [e]⟩, delay⟩ = forwarded s := by
  simp [forwarded, flush]

theorem Spaced.flushed {w : Option Nat} {value : T} {e : Entry} {k' : Nat}
    (h : Spaced env d k s w) (flush : e.op = .flush) (later : k ≤ k') :
    Spaced env d k' ⟨⟨value, s.inner.entries ++ [e]⟩, s.delay⟩ w where
  delay := h.delay
  apart := by rw [forwarded_flush flush]; exact h.apart
  first := by rw [forwarded_flush flush]; exact h.first
  past := by rw [forwarded_flush flush]; exact fun e mem => Nat.le_trans (h.past e mem) later
  begun m mem := Nat.le_trans (h.begun m mem) later
  armed := by rw [forwarded_flush flush]; exact h.armed

/-- **A delayed poll keeps the calls apart**: its call, if it makes one, comes after its deadline. -/
theorem Spaced.polled {w : Option Nat} {r : Poll IoError Nat} {s' : Recorded T} {k' : Nat}
    (clockwork : Clockwork env) (fits : Addable env d) (h : Spaced env d k s w) (delayed : op ≠ .flush)
    (later : k ≤ k') (poll : Polled env k s op r s' k') : Spaced env d k' s' (opened w ⟨k, s⟩ op) := by
  obtain ⟨first, late⟩ := h.due_late clockwork delayed
  cases poll with
  | waits =>
    exact
      { delay := h.delay
        apart := h.apart
        first := fun e mem => (h.first e mem).imp fun m => .imp_left mem_opened
        past := fun e mem => Nat.le_trans (h.past e mem) later
        begun := fun m mem => Nat.le_trans (h.opened_le m mem) later
        armed := fun _ => ⟨first, late⟩ }
  | calls _ value j _ passed after until_ =>
    have split {P : Entry → Prop} (old : ∀ e ∈ forwarded s, P e) (new : P ⟨op, j, r⟩) :
        ∀ e ∈ forwarded ⟨⟨value, s.inner.entries ++ [⟨op, j, r⟩]⟩, timer env k s .idle⟩, P e := by
      rw [forwarded_snoc delayed]
      intro e mem
      rcases List.mem_append.mp mem with mem | mem
      · exact old e mem
      · rw [List.mem_singleton.mp mem]
        exact new
    refine
      { delay := h.delay
        apart := ?_
        first := split (fun e mem => (h.first e mem).imp fun m => .imp_left mem_opened) ?_
        past := split (fun e mem => Nat.le_trans (h.past e mem) later) until_
        begun := fun m mem => Nat.le_trans (h.opened_le m mem) later
        armed := fun armed => by cases armed }
    · rw [forwarded_snoc delayed, List.pairwise_append]
      refine ⟨h.apart, List.pairwise_singleton _ _, fun e mem e' mem' => ?_⟩
      rw [List.mem_singleton.mp mem']
      exact Nat.le_trans (late e mem) passed
    · obtain ⟨m, mem, before⟩ := first
      exact ⟨m, mem, Nat.le_trans before passed⟩
  | overflows _ _ far => exact absurd (h.delay ▸ fits) far

/-- **One poll**, delayed or not, makes one call at most, and keeps the calls apart if the delay can be
added to the clock. -/
theorem spaced_step [AsyncWrite T] {s : Paced (Recorded T)} {w : Option Nat} (clockwork : Clockwork env)
    (pos : 0 < d) (delay : s.state.delay.delayDuration = d) (op : WriteOp) :
    let o := (writes (Recorded T) env).step s op
    OneCall env d s op ∧ o.2.state.delay.delayDuration = d ∧
      (Addable env d → Spaced env d s.moment s.state w →
        Spaced env d o.2.moment o.2.state (opened w s op)) := by
  unfold OneCall
  by_cases delayed : op = .flush
  · have poll : op.poll.wp env s.moment s.state fun r s' k' => s.moment ≤ k' ∧ ∃ value,
        s' = ⟨⟨value, s.state.inner.entries ++ [⟨op, s.moment, r⟩]⟩, s.state.delay⟩ := by
      rw [delayed, flush_wp, Trail.poll_wp]
      exact wp_mono (wp_later _) fun r value k' later => ⟨later, value, rfl⟩
    obtain ⟨later, value, eq⟩ := writes_step env s op poll
    have same : opened w s op = w := by simp [opened, delayed]
    dsimp only
    rw [same, eq]
    refine ⟨?_, delay, fun _ h => h.flushed delayed later⟩
    rw [Trail.since_append rfl]
    exact ⟨Nat.le_refl 1, fun m eq => .inl ⟨_, List.mem_singleton_self _, eq⟩⟩
  · have some : s.state.delay.delayDuration ≠ 0 := by
      rw [delay]
      omega
    have poll := writes_step env s op (poll_polled clockwork some delayed)
    have later := writes_step env s op (wp_later _)
    have one := poll.one
    rw [delay] at one
    exact ⟨one, poll.delay.trans delay, fun fits h => h.polled clockwork fits delayed later poll⟩

/-- **A delayed writer spaces everything it forwards.** With a constant delay, over every inner writer
and under every interleaving of writes, flushes and shutdowns: a poll makes one call at most and unwinds
only where that call does. If the delay can be added to the clock, any two calls but flushes are at least
the delay apart, and the first comes at least the delay after the first poll that is delayed; if it
cannot, a poll may unwind for that. -/
theorem forwards_spaced {T : Type} [AsyncWrite T] {env : World} {d : Nat}
    (clockwork : Clockwork env) (pos : 0 < d) (start created : Nat) (inner : T)
    (ops : List WriteOp) :
    let s : Paced (Recorded T) := ⟨start, new created (.start inner) d⟩
    let last := (((writes (Recorded T) env).watched opened).run (s, none) ops).2
    (writes (Recorded T) env).Allowed (fun _ s op => OneCall env d s op) s ops ∧
      (Addable env d → (forwarded last.1.state).Pairwise
          (fun e e' => env.clock e.started + d ≤ env.clock e'.started) ∧
        ∀ e ∈ forwarded last.1.state, ∃ m ∈ last.2, env.clock m + d ≤ env.clock e.started) := by
  intro s last
  have fresh : Spaced env d s.moment s.state none :=
    { delay := rfl
      apart := .nil
      first := fun e mem => by cases mem
      past := fun e mem => by cases mem
      begun := fun m mem => by cases mem
      armed := fun armed => by cases armed }
  constructor
  · refine Machine.allowedFrom_of_invariant
      (P := fun (s : Paced (Recorded T)) => s.state.delay.delayDuration = d) ?_ ?_ rfl
    · exact fun s op delay => (spaced_step (w := none) clockwork pos delay op).2.1
    · exact fun _ s op delay => (spaced_step (w := none) clockwork pos delay op).1
  · intro fits
    have spaced : Spaced env d last.1.moment last.1.state last.2 :=
      Machine.run_invariant
        (P := fun _ (s : Paced (Recorded T) × Option Nat) => Spaced env d s.1.moment s.1.state s.2)
        fresh (fun _ s op h => (spaced_step clockwork pos h.delay op).2.2 fits h) ops
    exact ⟨spaced.apart, spaced.first⟩

/-- Writes of both kinds with a shutdown between them, one of them abandoned and one refused. -/
theorem forwards_spaced_mixed :
    let s : Paced (Recorded Pipe) := ⟨0, new 0 (.start ⟨⟨[], [.later, .fails 5]⟩, []⟩) 5⟩
    let ops := List.replicate 9 (WriteOp.write (.scalar [1])) ++ .flush ::
      List.replicate 7 .shutdown ++ List.replicate 5 (.write (.vectored [[2], [3]]))
    let last := (((writes (Recorded Pipe) metronome).watched opened).run (s, none) ops).2
    (writes (Recorded Pipe) metronome).Allowed (fun _ s op => OneCall metronome 5 s op) s ops ∧
      (forwarded last.1.state).Pairwise
        (fun e e' => metronome.clock e.started + 5 ≤ metronome.clock e'.started) ∧
      ∀ e ∈ forwarded last.1.state, ∃ m ∈ last.2,
        metronome.clock m + 5 ≤ metronome.clock e.started :=
  (forwards_spaced metronome_clockwork (by decide) 0 0 _ _).imp_right
    fun spaced => spaced (.of_lt (by decide))

/-- The failing run: the longest `Duration` leads past the last `Instant`, so the first write panics with
its timer not armed, and the second one is forwarded at once. -/
theorem longest_delay_forwards :
    let s : Paced (Recorded Pipe) := ⟨0, new 0 (.start ⟨⟨[], []⟩, []⟩) longest⟩
    let ops : List WriteOp := [.write (.scalar [1]), .write (.scalar [1])]
    let last := (((writes (Recorded Pipe) metronome).watched opened).run (s, none) ops)
    last.1.map Prod.snd = [overflow, .ok 1] ∧
      ¬∀ e ∈ forwarded last.2.1.state, ∃ m ∈ last.2.2,
        metronome.clock m + longest ≤ metronome.clock e.started := by
  refine ⟨by decide, fun first => ?_⟩
  obtain ⟨m, mem, late⟩ := first ⟨.write (.scalar [1]), 3, .ok 1⟩ (by decide)
  have early : metronome.clock 3 < longest := by decide
  exact absurd (Nat.le_trans (Nat.le_add_left _ _) late) (Nat.not_le.mpr early)

end DelayedWriter

end Trixter
