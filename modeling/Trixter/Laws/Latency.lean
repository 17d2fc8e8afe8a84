import Trixter.Laws.TimeLimit

/-!
# The delay of a connection

`deliveries_spaced`: whatever reaches a socket has waited in the writer that delays it, so the deliveries
to a socket are spaced. From the event that delivered last, or from its accept, the knob's delay has to
pass before the next one. A `Pause` is that wait, as one timer keeps it over one event.

The bound is below the knob at every moment; a delivery may come later than that, and nothing is said of
two writes within one event.
-/

namespace Trixter

open Trixter.Lib Polling

/-! ## The timer -/

section Pause

variable {D : Type} [Duration D] {env : World} {d m m' k k' : Nat} {knob : D} {log said : List UInt8}
  {delay : Delay D}

/-- A timer that has not begun to wait, or waits for long enough since `m`, or the wait since `m` is
over. -/
def PauseDue (env : World) (d m k : Nat) (delay : Delay D) : Prop :=
  (delay.state = .delayed → env.clock m + d ≤ delay.sleep.deadline) ∨ env.clock m + d ≤ env.clock k

/-- What is known of a timer at moment `k` of an event that began at `m'` with `log` received, where the
last delivery before it was at `m`. -/
structure Pause (env : World) (knob : D) (d m m' : Nat) (log : List UInt8) (k : Nat) (said : List UInt8)
    (delay : Delay D) : Prop where
  knob : delay.delayDuration = knob
  order : m ≤ m' ∧ m' ≤ k
  gap : said = log ∧ PauseDue env d m k delay ∨ env.clock m + d ≤ env.clock k ∧ PauseDue env d m' k delay

omit [Duration D] in
theorem PauseDue.later (clockwork : Clockwork env) (le : k ≤ k') (h : PauseDue env d m k delay) :
    PauseDue env d m k' delay :=
  h.imp_right fun past => Nat.le_trans past (clockwork.mono le)

omit [Duration D] in
/-- A timer that has just rung is idle again. -/
theorem PauseDue.idle (idle : delay.state = .idle) : PauseDue env d m k delay := by
  refine .inl fun delayed => ?_
  rw [idle] at delayed
  cases delayed

namespace Pause

omit [Duration D] in
theorem later (clockwork : Clockwork env) (le : k ≤ k') (h : Pause env knob d m m' log k said delay) :
    Pause env knob d m m' log k' said delay where
  knob := h.knob
  order := ⟨h.order.1, Nat.le_trans h.order.2 le⟩
  gap := h.gap.imp (fun ⟨same, due⟩ => ⟨same, due.later clockwork le⟩)
    fun ⟨past, due⟩ => ⟨Nat.le_trans past (clockwork.mono le), due.later clockwork le⟩

omit [Duration D] in
/-- A call that goes through once the wait is over, whatever it delivers. -/
theorem passes (clockwork : Clockwork env) (h : Pause env knob d m m' log k said delay)
    (past : PauseDue env d m k delay → env.clock m + d ≤ env.clock k) (idle : Delay D)
    (same : idle.delayDuration = knob) (at_rest : idle.state = .idle) {said' : List UInt8} (le : k ≤ k') :
    Pause env knob d m m' log k' said' idle where
  knob := same
  order := ⟨h.order.1, Nat.le_trans h.order.2 le⟩
  gap := by
    have past : env.clock m + d ≤ env.clock k := by
      rcases h.gap with ⟨-, due⟩ | ⟨past, -⟩
      · exact past due
      · exact past
    exact .inr ⟨Nat.le_trans past (clockwork.mono le), .idle at_rest⟩

/-- Arming waits for long enough. -/
theorem arms (clockwork : Clockwork env) (delays : ∀ j, d ≤ Duration.duration env knob j)
    (h : Pause env knob d m m' log k said delay) :
    Pause env knob d m m' log k said (delay.armed env k) := by
  have due : ∀ {j}, j ≤ k → PauseDue env d j k (delay.armed env k) := by
    intro j le
    refine .inl fun _ => ?_
    show env.clock j + d ≤ env.clock (k + 1) + Duration.duration env delay.delayDuration k
    rw [h.knob]
    exact Nat.add_le_add (clockwork.mono (Nat.le_succ_of_le le)) (delays k)
  refine ⟨h.knob, h.order, h.gap.imp ?_ ?_⟩
  · exact fun ⟨same, _⟩ => ⟨same, due (Nat.le_trans h.order.1 h.order.2)⟩
  · exact fun ⟨past, _⟩ => ⟨past, due h.order.2⟩

end Pause

end Pause

/-! ## The law -/

section Law

variable {T D : Type} [Duration D] [ShortDuration D] {law : Law T} {env : World} {knob : D} {d m m' : Nat}
  {log : List UInt8}

/-- A delayed writer under such a pause. -/
def Law.paused (law : Law T) (clockwork : Clockwork env) (knob : D) (d m m' : Nat) (log : List UInt8) :
    Law (DelayedWriter T D) where
  holds k b s := law.holds k b s.inner ∧ Pause env knob d m m' log k b.said s.delay
  fails e k b s := law.fails e k b s.inner ∧ Pause env knob d m m' log k b.said s.delay
  holds_later le h := ⟨law.holds_later le h.1, h.2.later clockwork le⟩
  fails_later le h := ⟨law.fails_later le h.1, h.2.later clockwork le⟩

namespace DelayedWriter

variable {α : Type} {k : Nat} {b : Books} {s : DelayedWriter T D}

/-- **A delayed call** waits within the pause, or goes through once that is over. -/
theorem pauses (clockwork : Clockwork env) (delays : ∀ j, d ≤ Duration.duration env knob j)
    {f : Io T α} {F : Exit IoError (DelayedWriter T D) α} {said : List UInt8}
    (h : Pause env knob d m m' log k said s.delay)
    (waits : ∀ k' delay, k ≤ k' → Pause env knob d m m' log k' said delay →
      F.pending k' ⟨s.inner, delay⟩)
    (calls : ∀ k' delay, k ≤ k' →
      (∀ said' k'', k' ≤ k'' → Pause env knob d m m' log k'' said' delay) →
      f.wp env k' s.inner fun r t k'' => F.post r ⟨t, delay⟩ k'') :
    (pollWithWriteDelay f).Ends env k s F := by
  refine pollWithWriteDelay_wp.mpr ?_
  -- a timer that rings ends the pause
  have rings : ∀ {delay k'}, Pause env knob d m m' log k' said delay → delay.state = .delayed →
      env.alarm delay.sleep.deadline k' = true →
      ∀ said' k'', k' + 1 ≤ k'' → Pause env knob d m m' log k'' said' delay.fired := by
    intro delay k' h delayed elapsed said' k'' le
    refine h.passes clockwork (fun due => ?_) delay.fired h.knob rfl (Nat.le_of_succ_le le)
    rcases due with long | past
    · exact Nat.le_trans (long delayed) (clockwork.alarm _ _ elapsed)
    · exact past
  cases state : s.delay.state with
  | idle =>
    dsimp only
    rw [if_neg s.delay.not_overflows]
    split
    · next off =>
      -- no delay is configured, so none is asked for
      refine calls _ _ (Nat.le_succ k) fun said' k'' le => ?_
      refine h.passes clockwork (fun _ => ?_) _ h.knob state (Nat.le_of_succ_le le)
      have none : d = 0 := by
        have least := delays k
        rw [← h.knob, off] at least
        exact Nat.le_zero.mp least
      rw [none]
      exact clockwork.mono (Nat.le_trans h.order.1 h.order.2)
    · have armed := (h.arms clockwork delays).later clockwork (Nat.le_add_right k 2)
      split
      · next elapsed => exact calls _ _ (Nat.le_add_right k 3) (rings armed rfl elapsed)
      · exact waits _ _ (Nat.le_add_right k 3) (armed.later clockwork (Nat.le_succ _))
  | delayed =>
    dsimp only
    split
    · next elapsed => exact calls _ _ (Nat.le_succ k) (rings h state elapsed)
    · exact waits _ s.delay (Nat.le_succ k) (h.later clockwork (Nat.le_succ k))

/-- A delayed writer upholds the pause. -/
theorem upholds_paused [AsyncRead T] [AsyncWrite T] (h : Upholds env law) (clockwork : Clockwork env)
    (delays : ∀ j, d ≤ Duration.duration env knob j) :
    Upholds env (law.paused clockwork knob d m m' log) where
  read buf hs := ends_zoom.mpr (ends_mono (h.read buf hs.1)
    (fun _ _ _ le ⟨bytes, filled, hold⟩ => ⟨bytes, filled, hold, hs.2.later clockwork le⟩)
    (fun _ _ le hold => ⟨hold, hs.2.later clockwork le⟩)
    fun _ _ _ le failed => ⟨failed, hs.2.later clockwork le⟩)
  write {k b s} buf hs := by
    refine pauses clockwork delays hs.2 (fun k' delay le pause => ?_) fun k' delay le pause => ?_
    · exact ⟨law.holds_later le hs.1, pause⟩
    · refine wp_mono (wp_and (h.write buf (law.holds_later le hs.1)) (wp_later _)) ?_
      rintro (_ | e | n | message) t k'' ⟨left, le'⟩
      · exact ⟨left, pause _ _ le'⟩
      · exact ⟨left, pause _ _ le'⟩
      · exact ⟨left.1, left.2, pause _ _ le'⟩
      · exact left
  flush hs := ends_zoom.mpr (ends_mono (h.flush hs.1)
    (fun _ _ _ le hold => ⟨hold, hs.2.later clockwork le⟩)
    (fun _ _ le hold => ⟨hold, hs.2.later clockwork le⟩)
    fun _ _ _ le failed => ⟨failed, hs.2.later clockwork le⟩)
  shutdown {k b s} hs := by
    refine pauses clockwork delays hs.2 (fun k' delay le pause => ?_) fun k' delay le pause => ?_
    · exact ⟨law.holds_later le hs.1, pause⟩
    · refine wp_mono (wp_and (h.shutdown (law.holds_later le hs.1)) (wp_later _)) ?_
      rintro (_ | e | u | message) t k'' ⟨left, le'⟩
      · exact ⟨left, pause _ _ le'⟩
      · exact ⟨left, pause _ _ le'⟩
      · exact ⟨left, pause _ _ le'⟩
      · exact left

end DelayedWriter

end Law

/-! ## The connection -/

variable {A B W G : Type}

section Connection

variable {env : World} {d : Nat}

namespace Pipeline

/-- What its socket's books and its timer say of it, limits apart. -/
def pausedBooks (W : Type) [Peer W] (clockwork : Clockwork env) (knob : DynamicDuration) (d m m' : Nat)
    (log : List UInt8) : Law (ThrottledWriter (DelayedWriter W DynamicDuration) DynamicRate) :=
  ((Law.ledger (W := W) given received).paused clockwork knob d m m' log).of ThrottledWriter.inner

/-- The delayed writer's own. -/
def delay (s : Pipeline W G) : Delay DynamicDuration := s.inner.inner.inner.inner.delay

variable [Peer W] {clockwork : Clockwork env} {prob : DynamicProbability} {knob : DynamicDuration}
  {m m' k : Nat} {log : List UInt8} {b : Books} {s : Pipeline W G} {e : IoError}

theorem pausedBooks_upheld (delays : ∀ j, d ≤ Duration.duration env knob j) :
    Upholds env (pausedBooks W clockwork knob d m m' log) :=
  ThrottledWriter.upholds (DelayedWriter.upholds_paused (Peer.honest env) clockwork delays)

/-- The timer is under the pause, and goes over to any other that it is under. -/
theorem pause_of_holds (h : (law env prob (pausedBooks W clockwork knob d m m' log)).holds k b s) :
    Pause env knob d m m' log k (received s.socket) s.delay ∧
      ∀ {n n' log'}, Pause env knob d n n' log' k (received s.socket) s.delay →
        (law env prob (pausedBooks W clockwork knob d n n' log')).holds k b s := by
  obtain ⟨keeps, stored, inner, heard, said, ⟨⟨⟨heard', said'⟩, pause⟩, writing⟩, whole⟩ := h
  have said' : received s.socket = inner.said := said'
  rw [said']
  exact ⟨pause, fun other =>
    ⟨keeps, stored, inner, heard, said, ⟨⟨⟨heard', said'⟩, other⟩, writing⟩, whole⟩⟩

theorem pause_of_fails (h : (law env prob (pausedBooks W clockwork knob d m m' log)).fails e k b s) :
    Pause env knob d m m' log k (received s.socket) s.delay ∧
      ∀ {n n' log'}, Pause env knob d n n' log' k (received s.socket) s.delay →
        (law env prob (pausedBooks W clockwork knob d n n' log')).fails e k b s := by
  obtain ⟨keeps, inner, heard, said, failed⟩ := h
  have said' : received s.socket = inner.said := by
    rcases failed with (⟨-, ⟨⟨⟨-, said⟩, -⟩, -⟩, -⟩ | ⟨⟨⟨-, -, said⟩, -⟩, -⟩) |
      ⟨-, ⟨⟨⟨-, said⟩, -⟩, -⟩, -⟩
    · exact said
    · exact said
    · exact said
  rw [said']
  rcases failed with (⟨own, ⟨⟨ledger, pause⟩, writing⟩, blown⟩ | ⟨⟨ledger, pause⟩, whole⟩) |
    ⟨zero, ⟨⟨ledger, pause⟩, writing⟩, whole⟩
  · exact ⟨pause, fun other => ⟨keeps, inner, heard, said,
      .inl (.inl ⟨own, ⟨⟨ledger, other⟩, writing⟩, blown⟩)⟩⟩
  · exact ⟨pause, fun other => ⟨keeps, inner, heard, said, .inl (.inr ⟨⟨ledger, other⟩, whole⟩)⟩⟩
  · exact ⟨pause, fun other => ⟨keeps, inner, heard, said,
      .inr ⟨zero, ⟨⟨ledger, other⟩, writing⟩, whole⟩⟩⟩

/-- A wrapped socket that nothing has passed through, at any later moment. -/
theorem new_paused [SmallRng G] (clockwork : Clockwork env) (d j : Nat) (knobs : Knobs) (baseRng : G)
    {w : W} (fresh : Peer.Fresh w) (le : m ≤ k) :
    (law env knobs.corruptProbabilityRate (pausedBooks W clockwork knobs.delay d m m [])).holds k .blank
      (new env j w knobs baseRng).1 :=
  ⟨rfl, fun some => absurd rfl some, .blank, .refl, .refl,
    ⟨⟨fresh, rfl, ⟨Nat.le_refl m, le⟩, .inl ⟨rfl, .idle rfl⟩⟩, rfl⟩, rfl⟩

end Pipeline

/-- One for each of the two sockets. -/
structure Sides (α : Type) where
  downstream : α
  upstream : α
  deriving DecidableEq, Repr

namespace Task

/-- What its two sockets have received. -/
def logs [Peer W] (t : Task A B W G) : Sides (List UInt8) :=
  ⟨received t.copying.downstream.inner.socket, received t.copying.upstream.socket⟩

variable [Peer W] {there : Transfer A (Shutdowner (Pipeline W G)) (Pipeline W G)}
  {back : Transfer B (Pipeline W G) (Shutdowner (Pipeline W G))} {clockwork : Clockwork env}
  {knobs : DynamicProbability × DynamicDuration} {last last' : Sides Nat} {now now' k : Nat}
  {log log' : Sides (List UInt8)} {t : Task A B W G}

variable (there back) in
/-- A task with these two knobs, whose timers are under the pauses since these last deliveries, in an
event that began at `now` with these bytes received. -/
def Paused (clockwork : Clockwork env) (knobs : DynamicProbability × DynamicDuration) (d : Nat)
    (last : Sides Nat) (now : Nat) (log : Sides (List UInt8)) (k : Nat) (t : Task A B W G) : Prop :=
  KeepsLaws there back
    (Pipeline.law env knobs.1
      (Pipeline.pausedBooks W clockwork knobs.2 d last.downstream now log.downstream))
    (Pipeline.law env knobs.1
      (Pipeline.pausedBooks W clockwork knobs.2 d last.upstream now log.upstream)) k t

/-- **Both timers are under their pauses**, and go over to any other that they are under. -/
theorem Paused.pauses (h : Paused there back clockwork knobs d last now log k t) :
    Pause env knobs.2 d last.downstream now log.downstream k t.logs.downstream
        t.copying.downstream.inner.delay ∧
      Pause env knobs.2 d last.upstream now log.upstream k t.logs.upstream t.copying.upstream.delay := by
  obtain ⟨-, -, -, pauses⟩ := KeepsLaws.sides h (fun _ _ hold => (Pipeline.pause_of_holds hold).1)
    (fun _ _ hold => (Pipeline.pause_of_holds hold).1)
    (fun _ _ _ failed => (Pipeline.pause_of_fails failed).1)
    fun _ _ _ failed => (Pipeline.pause_of_fails failed).1
  exact pauses

theorem Paused.change (h : Paused there back clockwork knobs d last now log k t)
    (down : Pause env knobs.2 d last'.downstream now' log'.downstream k t.logs.downstream
      t.copying.downstream.inner.delay)
    (up : Pause env knobs.2 d last'.upstream now' log'.upstream k t.logs.upstream
      t.copying.upstream.delay) : Paused there back clockwork knobs d last' now' log' k t :=
  KeepsLaws.change h (fun _ hold => (Pipeline.pause_of_holds hold).2 down)
    (fun _ hold => (Pipeline.pause_of_holds hold).2 up)
    (fun _ _ failed => (Pipeline.pause_of_fails failed).2 down)
    fun _ _ failed => (Pipeline.pause_of_fails failed).2 up

end Task

namespace Pause

variable {D : Type} {knob : D} {m m' k : Nat} {log said : List UInt8} {delay : Delay D}

/-- A delivery was made late enough. -/
theorem delivered (h : Pause env knob d m m' log k said delay) (more : said ≠ log) :
    env.clock m + d ≤ env.clock k := by
  rcases h.gap with ⟨same, -⟩ | ⟨past, -⟩
  · exact absurd same more
  · exact past

/-- After the event the pause is since its beginning, if it delivered. -/
theorem ended (h : Pause env knob d m m' log k said delay) :
    Pause env knob d (if said = log then m else m') k said k said delay where
  knob := h.knob
  order := by
    refine ⟨?_, Nat.le_refl k⟩
    split
    · exact Nat.le_trans h.order.1 h.order.2
    · exact h.order.2
  gap := by
    refine .inl ⟨rfl, ?_⟩
    rcases h.gap with ⟨same, due⟩ | ⟨past, due⟩
    · rwa [if_pos same]
    · split
      · exact .inr past
      · exact due

end Pause

end Connection

/-! ## Deliveries -/

namespace Server

variable [SmallRng G] [Peer W] {cfg : Config G}
  {there : Transfer A (Shutdowner (Pipeline W G)) (Pipeline W G)}
  {back : Transfer B (Pipeline W G) (Shutdowner (Pipeline W G))} {env : World}
  {clockwork : Clockwork env} {d : Nat}

/-- The knob never reports less. -/
def NeverBelow (env : World) (d : Nat) (knob : DynamicDuration) : Prop :=
  ∀ k, d ≤ (env.atomics knob.cell k).toNat

/-- New connections come with such knobs for their delays. -/
def ComesDelayed (env : World) (d : Nat) : Event W → Prop
  | .accept _ _ _ knobs => NeverBelow env d knobs.delay
  | _ => True

/-- When the event began that delivered last to a socket of this connection, or that accepted it. -/
def lastOf (last : Sides Nat) (now : Nat) : Option (Task A B W G) → Option (Task A B W G) → Sides Nat
  | some t, some t' =>
    ⟨if t'.logs.downstream = t.logs.downstream then last.downstream else now,
      if t'.logs.upstream = t.logs.upstream then last.upstream else now⟩
  | none, some _ => ⟨now, now⟩
  | _, none => last

variable (cfg there back env) in
/-- The server, with those moments. -/
def delivering :
    Machine (Paced (Server A B W G) × (Nat → Sides Nat)) (Event W) (Poll IoError Response) :=
  (machine cfg there back env).watched fun last s ev n =>
    lastOf (last n) s.moment (s.state.tasks n)
      (((machine cfg there back env).step s ev).2.state.tasks n)

variable (there back) in
/-- What is known of the task with a number during an event. -/
def DuringEvent (clockwork : Clockwork env) (d : Nat) (s : Paced (Server A B W G))
    (last : Nat → Sides Nat) (n k : Nat) (t : Task A B W G) : Prop :=
  ∃ knobs : { knobs : DynamicProbability × DynamicDuration // NeverBelow env d knobs.2 },
    Task.Paused there back clockwork knobs.1 d
      ((s.state.tasks n).elim ⟨s.moment, s.moment⟩ fun _ => last n) s.moment
      ((s.state.tasks n).elim ⟨[], []⟩ Task.logs) k t

variable (there back) in
/-- What is known of it between two. -/
def BetweenEvents (clockwork : Clockwork env) (d : Nat) (last : Nat → Sides Nat) (n k : Nat)
    (t : Task A B W G) : Prop :=
  ∃ knobs : { knobs : DynamicProbability × DynamicDuration // NeverBelow env d knobs.2 },
    Task.Paused there back clockwork knobs.1 d (last n) k t.logs k t

variable {s : Paced (Server A B W G)} {last : Nat → Sides Nat} {n k : Nat} {t : Task A B W G}

/-- The pauses of a number are a law of its task. -/
theorem TaskLaw.during (copiesThere : there.Copies) (copiesBack : back.Copies) :
    TaskLaw there back env (DuringEvent there back clockwork d s last n) :=
  .some fun knobs => .keepsLaws copiesThere copiesBack
    (Pipeline.upholds (Pipeline.pausedBooks_upheld knobs.2))
    (Pipeline.upholds (Pipeline.pausedBooks_upheld knobs.2))

omit [SmallRng G] in
/-- A task that an event finds. -/
theorem DuringEvent.begins (task : s.state.tasks n = some t)
    (h : BetweenEvents there back clockwork d last n s.moment t) :
    DuringEvent there back clockwork d s last n s.moment t := by
  obtain ⟨knobs, paused⟩ := h
  refine ⟨knobs, ?_⟩
  rw [task]
  exact paused

omit [SmallRng G] in
/-- A task that an event leaves. -/
theorem DuringEvent.ends (h : DuringEvent there back clockwork d s last n k t) :
    ∃ knobs : { knobs : DynamicProbability × DynamicDuration // NeverBelow env d knobs.2 },
      Task.Paused there back clockwork knobs.1 d (lastOf (last n) s.moment (s.state.tasks n) (some t)) k
        t.logs k t := by
  obtain ⟨knobs, paused⟩ := h
  obtain ⟨down, up⟩ := paused.pauses
  refine ⟨knobs, paused.change ?_ ?_⟩
  · cases before : s.state.tasks n with
    | some t₀ =>
      rw [before] at down
      exact down.ended
    | none =>
      rw [before] at down
      have ended := down.ended
      split at ended <;> exact ended
  · cases before : s.state.tasks n with
    | some t₀ =>
      rw [before] at up
      exact up.ended
    | none =>
      rw [before] at up
      have ended := up.ended
      split at ended <;> exact ended

/-- A new connection brings its pauses, which begin with it. -/
theorem welcomes_delayed (copiesThere : there.Copies) (copiesBack : back.Copies) (ev : Event W)
    (fresh : FreshSockets ev) (delayed : ComesDelayed env d ev)
    (unused : s.state.tasks s.state.next = none) :
    Welcomes cfg there back env (DuringEvent there back clockwork d s last s.state.next) s.moment
      ev := by
  cases ev with
  | accept id downstream upstream knobs =>
    refine ⟨⟨(knobs.corruptProbabilityRate, knobs.delay), delayed⟩, ?_⟩
    rw [unused]
    exact keepsLaws_new copiesThere.starts copiesBack.starts
      (Pipeline.new_paused clockwork d s.moment knobs _ fresh.1 (Nat.le_add_right _ 9))
      (Pipeline.new_paused clockwork d (s.moment + 4) knobs _ fresh.2 (Nat.le_add_right _ 9))
  | _ => trivial

/-- **One event** under the pauses of its connections. -/
theorem delivering_step (cfg : Config G) (copiesThere : there.Copies) (copiesBack : back.Copies)
    {ev : Event W} (fresh : FreshSockets ev) (delayed : ComesDelayed env d ev) (orderly : Orderly s.state)
    (h : Tasked (BetweenEvents there back clockwork d last) s.moment s.state) :
    Tasked (DuringEvent there back clockwork d s last)
      ((machine cfg there back env).step s ev).2.moment
      ((machine cfg there back env).step s ev).2.state := by
  obtain ⟨marks, sound⟩ := orderly
  have begins : Tasked (DuringEvent there back clockwork d s last) s.moment s.state :=
    fun n t task => .begins task (h n t task)
  exact (machine_step (handle_tasked (fun n => .during copiesThere copiesBack) begins ev
    (welcomes_delayed copiesThere copiesBack ev fresh delayed (sound.fresh _ (Nat.le_refl _))))).1

/-- **Deliveries are spaced.** In every run, with timers that are never early, if the delay knobs of its
connections stay at `d` or above: when an event delivers to a socket, `d` has passed at its end since the
beginning of the event that delivered to that socket last, or that accepted the connection. -/
theorem deliveries_spaced (cfg : Config G) (clockwork : Clockwork env) (copiesThere : there.Copies)
    (copiesBack : back.Copies) (k : Nat) (events : List (Event W))
    (fresh : ∀ ev ∈ events, FreshSockets ev) (delayed : ∀ ev ∈ events, ComesDelayed env d ev) :
    (delivering cfg there back env).Allowed
      (fun _ s ev => ∀ n t t', s.1.state.tasks n = some t →
        ((machine cfg there back env).step s.1 ev).2.state.tasks n = some t' →
        (t'.logs.downstream ≠ t.logs.downstream → env.clock (s.2 n).downstream + d ≤
            env.clock ((machine cfg there back env).step s.1 ev).2.moment) ∧
          (t'.logs.upstream ≠ t.logs.upstream → env.clock (s.2 n).upstream + d ≤
            env.clock ((machine cfg there back env).step s.1 ev).2.moment))
      (⟨k, empty⟩, fun _ => ⟨0, 0⟩) events := by
  have known : (delivering cfg there back env).Allowed
      (fun _ _ ev => FreshSockets ev ∧ ComesDelayed env d ev) (⟨k, empty⟩, fun _ => ⟨0, 0⟩) events :=
    Machine.allowedFrom_of_mem fun ev mem => ⟨fresh ev mem, delayed ev mem⟩
  refine .imp (P := fun _ s => Tasked (BetweenEvents there back clockwork d s.2) s.1.moment s.1.state ∧
    Orderly s.1.state) ?_ ?_ ?_ known
  · rintro _ s ev ⟨h, orderly⟩ ⟨fresh, delayed⟩
    have during := delivering_step cfg copiesThere copiesBack fresh delayed orderly h
    refine ⟨fun n t task => ?_, orderly_step s.1 ev orderly⟩
    have ends := (during n t task).ends
    rw [← task] at ends
    exact ends
  · rintro _ s ev ⟨h, orderly⟩ ⟨fresh, delayed⟩ n t t' before after
    obtain ⟨knobs, paused⟩ :=
      delivering_step cfg copiesThere copiesBack fresh delayed orderly h n t' after
    rw [before] at paused
    exact ⟨paused.pauses.1.delivered, paused.pauses.2.delivered⟩
  · refine ⟨fun n t task => ?_, _, Sound.empty⟩
    cases task

/-- A clock that moves by a millisecond a moment, with timers to match and a delay of five. -/
def fiveLater : World := { striding with atomics := fun cell _ => if cell = 1 then 5000000 else 0 }

def waiting : List (Event Line) :=
  [.accept "a" (line [some [104], some [105], none]) (line [none]) { knobsOff with delay := ⟨1⟩ },
    .poll 0, .poll 0, .poll 0, .shutdown 0 "a" "policy revoked", .advance 0]

theorem waiting_spaced :
    (delivering plain (CopyBuffer.transfer _ _) (CopyBuffer.transfer _ _) fiveLater).Allowed
      (fun _ s ev => ∀ n t t', s.1.state.tasks n = some t →
        ((machine plain (CopyBuffer.transfer _ _) (CopyBuffer.transfer _ _) fiveLater).step s.1
          ev).2.state.tasks n = some t' →
        (t'.logs.downstream ≠ t.logs.downstream → fiveLater.clock (s.2 n).downstream + 5000000 ≤
            fiveLater.clock ((machine plain (CopyBuffer.transfer _ _) (CopyBuffer.transfer _ _)
              fiveLater).step s.1 ev).2.moment) ∧
          (t'.logs.upstream ≠ t.logs.upstream → fiveLater.clock (s.2 n).upstream + 5000000 ≤
            fiveLater.clock ((machine plain (CopyBuffer.transfer _ _) (CopyBuffer.transfer _ _)
              fiveLater).step s.1 ev).2.moment))
      (⟨0, empty⟩, fun _ => ⟨0, 0⟩) waiting := by
  refine deliveries_spaced plain ⟨?_, ?_⟩ CopyBuffer.copies CopyBuffer.copies 0 waiting ?_ ?_
  · exact fun _ _ le => Nat.mul_le_mul_right _ le
  · exact fun _ _ elapsed => of_decide_eq_true elapsed
  · simp only [waiting, List.forall_mem_cons]
    exact ⟨⟨⟨rfl, rfl⟩, rfl, rfl⟩, trivial, trivial, trivial, trivial, trivial,
      fun _ none => by cases none⟩
  · simp only [waiting, List.forall_mem_cons]
    refine ⟨fun k => ?_, trivial, trivial, trivial, trivial, trivial, fun _ none => by cases none⟩
    show 5000000 ≤ (5000000 : UInt64).toNat
    decide

end Server

end Trixter
