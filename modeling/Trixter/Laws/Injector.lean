import Trixter.Injector
import Trixter.Laws.Backlog
import Trixter.Ledger

/-!
# One poll of an injector

What a look at the channel hands over, and the moves of whoever uses an adapter with a channel. For
the write injector, `op_woven`: an operation, a vectored write apart, takes some messages off the
queue, each a block of the weave. Whether the caller's bytes get through is the inner writer's
affair, and nothing is said of vectored writes.
-/

namespace Trixter

open Trixter.Lib Polling

namespace InjectRx

/-- The message that `poll_recv` hands over at this moment, if it does. -/
def next? (env : World) (k : Nat) (rx : InjectRx) : Option (List UInt8) :=
  match (pollRecv env k rx).result with
  | .ok (.message bytes) => some bytes
  | _ => none

variable {env : World} {k : Nat} {rx : InjectRx} {bytes : List UInt8}

theorem next?_eq : rx.next? env k = if env.proceeds k then rx.queue.head? else none := by
  obtain ⟨queue, closed⟩ := rx
  cases queue with
  | nil =>
    have looked : (pollRecv env k ⟨[], closed⟩).result =
        .ok (if env.proceeds k && closed then .closed else .pending) := by
      simp only [pollRecv]
      show Outcome.result (Polling.bind _ _ _ _ _) = _
      unfold Polling.bind proceeds Polling.observe
      dsimp only
      cases env.proceeds k <;> rfl
    rw [next?, looked]
    cases env.proceeds k
    · rfl
    · cases closed <;> rfl
  | cons bytes queue =>
    have looked : (pollRecv env k ⟨bytes :: queue, closed⟩).result =
        .ok (if env.proceeds k then .message bytes else .pending) := by
      simp only [pollRecv]
      show Outcome.result (Polling.bind _ _ _ _ _) = _
      unfold Polling.bind proceeds Polling.observe
      dsimp only
      cases env.proceeds k <;> rfl
    rw [next?, looked]
    cases env.proceeds k <;> rfl

theorem next?_eq_some :
    rx.next? env k = some bytes ↔ env.proceeds k = true ∧ rx.queue.head? = some bytes := by
  rw [next?_eq]
  cases env.proceeds k <;> simp

/-- What is handed over was the head of the queue. -/
theorem queue_of_next? (next : rx.next? env k = some bytes) :
    rx.queue = bytes :: rx.queue.tail := by
  obtain ⟨-, head⟩ := next?_eq_some.mp next
  exact (List.cons_head?_tail head).symm

/-- `poll_recv` takes the message that it hands over. -/
theorem pollRecv_wp {Q : Poll IoError Recv → InjectRx → Nat → Prop} :
    pollRecv.wp env k rx Q ↔
      match rx.next? env k with
      | some bytes => Q (.ok (.message bytes)) { rx with queue := rx.queue.tail } (k + 1)
      | none => Q (.ok (if env.proceeds k && rx.closed then .closed else .pending)) rx (k + 1) := by
  rw [next?_eq, pollRecv, wp_bind, proceeds_wp]
  obtain ⟨queue, closed⟩ := rx
  dsimp only
  cases env.proceeds k
  · rfl
  · cases queue <;> rfl

end InjectRx

/-! ## The channel and the caller -/

/-- What happens next to an adapter with a channel: a message arrives, the channel is closed, or the
caller makes a call. -/
inductive InjectMove (C : Type) where
  | arrive (bytes : List UInt8)
  | close
  | caller (call : C)
  deriving DecidableEq, Repr

namespace InjectMove

variable {C ο : Type}

/-- The message that arrives with a move. -/
def message? : InjectMove C → Option (List UInt8)
  | .arrive bytes => some bytes
  | _ => none

/-- The messages that have arrived, in order. -/
def arrived (past : History (InjectMove C) ο) : List (List UInt8) :=
  past.filterMap fun e => e.1.message?

/-- What the move makes of the channel. A call is not answered by the channel alone. -/
def onChannel : InjectMove C → InjectRx → InjectRx
  | .arrive bytes, rx => rx.arrive bytes
  | .close, rx => { rx with closed := true }
  | .caller _, rx => rx

variable {past : History (InjectMove C) ο} {move : InjectMove C} {a : ο}

theorem arrived_snoc : arrived (past ++ [(move, a)]) = arrived past ++ move.message?.toList := by
  unfold arrived
  rw [List.filterMap_append]
  cases move <;> rfl

/-- A move that is no call appends its message to the queue. -/
theorem onChannel_queue {rx : InjectRx} :
    (move.onChannel rx).queue = rx.queue ++ move.message?.toList := by
  cases move with
  | arrive bytes => rfl
  | close => exact (List.append_nil _).symm
  | caller call => exact (List.append_nil _).symm

end InjectMove

namespace WriteInjector

variable {T : Type} {env : World} {k : Nat} {s : WriteInjector T}

/-- The inner writer with the block stored for it. -/
def backlog (s : WriteInjector T) : Backlog T := ⟨s.inner, s.buffer⟩

theorem onBacklog_wp {α : Type} {m : Io (Backlog T) α}
    {Q : Poll IoError α → WriteInjector T → Nat → Prop} :
    (onBacklog m).wp env k s Q ↔ m.wp env k s.backlog fun r t k' =>
      Q r { s with inner := t.inner, buffer := t.buffer } k' := Iff.rfl

/-- `poll_recv` takes the oldest message, if it hands one over. -/
theorem onRx_pollRecv_wp {Q : Poll IoError Recv → WriteInjector T → Nat → Prop} :
    (onRx InjectRx.pollRecv).wp env k s Q ↔
      match s.injectRx.next? env k with
      | some bytes => Q (.ok (.message bytes))
          { s with injectRx := { s.injectRx with queue := s.injectRx.queue.tail } } (k + 1)
      | none => Q (.ok (if env.proceeds k && s.injectRx.closed then .closed else .pending)) s
          (k + 1) := by
  rw [onRx, wp_zoom, InjectRx.pollRecv_wp]

variable [AsyncWrite T] {offering : List UInt8 → List UInt8 → T → Prop} {base buf : List UInt8}
  {w : Weave UInt8}

/-- A message with bytes in it is only taken up when the inner writer may be offered anything. -/
def Clear (offering : List UInt8 → List UInt8 → T → Prop) (log : List UInt8)
    (s : WriteInjector T) : Prop :=
  s.backlog.stored = [] → (∃ m ∈ s.injectRx.queue, m ≠ []) → ∀ next, offering log next s.inner

/-- What a poll does to the weave before it gets to the caller's buffer. -/
def Injected (offering : List UInt8 → List UInt8 → T → Prop) (base : List UInt8)
    (w : Weave UInt8) (buf : List UInt8) (s : WriteInjector T) (r : Poll IoError Unit)
    (s' : WriteInjector T) : Prop :=
  Calm r ∧ ∃ w' messages, s.injectRx.queue = messages ++ s'.injectRx.queue ∧
    Weave.Grew w messages [] w' ∧ Backlog.Woven offering base w' buf s'.backlog ∧
    (r = .ok () → s'.buffer = none)

/-- The loop, by induction on the rounds: each takes one message off the queue. -/
theorem injectLoop_woven (h : Retried T offering) :
    ∀ rounds k (s : WriteInjector T) w, s.injectRx.queue.length < rounds →
      Backlog.Woven offering base w buf s.backlog → Clear offering (base ++ w.bytes) s →
      (injectLoop rounds).wp env k s fun r s' _ => Injected offering base w buf s r s' := by
  intro rounds
  induction rounds with
  | zero => exact fun _ _ _ lt => absurd lt (Nat.not_lt_zero _)
  | succ rounds ih =>
    intro k s w lt hw clear
    rw [injectLoop, wp_bind, onBacklog_wp]
    refine wp_mono (Backlog.drain_woven h hw) fun r t k' ⟨calm, w', grew, hw', done⟩ => ?_
    cases r with
    | ok u =>
      obtain ⟨idle, same, free⟩ := done rfl
      dsimp only
      rw [wp_bind, onRx_pollRecv_wp]
      -- what the queue held makes room for a message, or the block just drained does
      have room : (∃ m ∈ s.injectRx.queue, m ≠ []) →
          ∀ next, offering (base ++ w'.bytes) next t.inner := by
        intro some
        by_cases nothing : s.backlog.stored = []
        · obtain ⟨bytes, inner⟩ := same nothing
          rw [bytes, inner]
          exact clear nothing some
        · exact free nothing
      dsimp only
      cases next : s.injectRx.next? env k' with
      | none =>
        dsimp only
        cases env.proceeds k' && s.injectRx.closed <;>
          exact ⟨calm_ok (), w', [], rfl, grew, hw', fun _ => idle⟩
      | some m =>
        have queue := InjectRx.queue_of_next? next
        generalize s.injectRx.queue.tail = rest at queue ⊢
        rw [queue] at room lt
        dsimp only
        rw [wp_bind, wp_modify]
        have idle' : w'.rest = none := hw'.rest.trans idle
        have started : Backlog.Woven offering base (w'.start m) buf ⟨t.inner, some m⟩ :=
          hw'.start idle fun some => room ⟨m, List.mem_cons_self, some⟩
        refine wp_mono (ih (k' + 1) ⟨t.inner, some m, { s.injectRx with queue := rest }⟩ (w'.start m)
          (Nat.lt_of_succ_lt_succ lt) started ?_) ?_
        · rintro - ⟨m', mem, some⟩
          rw [Weave.start_bytes idle']
          exact room ⟨m', .tail m mem, some⟩
        · rintro r s' k'' ⟨calm, w'', messages, split, grew', hw'', idle''⟩
          refine ⟨calm, w'', m :: messages, ?_, grew.trans ((Weave.Grew.start idle').trans grew'),
            hw'', idle''⟩
          rw [queue, List.cons_append, ← split]
    | pending => exact ⟨calm, w', [], rfl, grew, hw', fun h => by cases h⟩
    | err e => exact ⟨calm, w', [], rfl, grew, hw', fun h => by cases h⟩
    | panicked m => exact absurd rfl (calm m)

/-- **One write poll.** It receives some of the queued messages, in order, and each is a block. -/
theorem pollWrite_woven (h : Retried T offering) (hw : Backlog.Woven offering base w buf s.backlog)
    (clear : Clear offering (base ++ w.bytes) s) :
    (pollWrite buf).wp env k s fun r s' _ =>
      ∃ messages, s.injectRx.queue = messages ++ s'.injectRx.queue ∧
        Backlog.Written offering base w messages buf r s'.backlog := by
  simp only [AsyncWrite.pollWrite]
  rw [wp_bind, wp_get]
  dsimp only
  rw [wp_bind]
  refine wp_mono (injectLoop_woven h _ k s w (Nat.lt_succ_self _) hw clear) ?_
  rintro r s' k' ⟨calm, w', messages, split, grew, hw', idle⟩
  cases r with
  | ok u =>
    dsimp only
    rw [onInner, wp_zoom]
    exact wp_mono (Backlog.caller_woven h hw' (idle rfl)) fun _ _ _ written =>
      ⟨messages, split, written.after grew⟩
  | pending => exact ⟨messages, split, hw'.stopped grew calm_pending fun _ h => by cases h⟩
  | err e => exact ⟨messages, split, hw'.stopped grew (calm_err e) fun _ h => by cases h⟩
  | panicked m => exact absurd rfl (calm m)

theorem pollFlush_wp {Q : Poll IoError Unit → WriteInjector T → Nat → Prop} :
    (pollFlush : Io (WriteInjector T) Unit).wp env k s Q ↔
      pollFlush.wp env k s.inner fun r inner k' => Q r { s with inner } k' := Iff.rfl

theorem pollShutdown_wp {Q : Poll IoError Unit → WriteInjector T → Nat → Prop} :
    (pollShutdown : Io (WriteInjector T) Unit).wp env k s Q ↔
      pollShutdown.wp env k s.inner fun r inner k' => Q r { s with inner } k' := Iff.rfl

variable (env k) (on : List UInt8 → Prop) in
/-- **One operation**, a vectored write apart: it grows the weave by the messages it receives and by
what it accepts. -/
theorem op_woven (h : Retried T offering) {op : WriteOp} (scalar : op.Scalar)
    (some : ∃ buf, on buf) (offers : ∀ c, op = .write c → on c.content)
    (hw : ∀ buf, on buf → Backlog.Woven offering base w buf s.backlog)
    (clear : ∀ c, op = .write c → Clear offering (base ++ w.bytes) s) :
    op.poll.wp env k s fun r s' _ =>
      ∃ messages, s.injectRx.queue = messages ++ s'.injectRx.queue ∧
        Backlog.Operated offering base w messages on op r s'.backlog := by
  cases op with
  | write c =>
    cases c with
    | scalar b => exact pollWrite_woven h (hw b (offers _ rfl)) (clear _ rfl)
    | vectored bs => exact absurd scalar id
  | flush =>
    rw [WriteOp.poll, wp_map, pollFlush_wp]
    refine wp_mono (Backlog.quiet_woven (.inl rfl) (fun _ _ => h.flush env k s.inner _ _) some hw) ?_
    exact fun r t k' operated => ⟨[], rfl, operated⟩
  | shutdown =>
    rw [WriteOp.poll, wp_map, pollShutdown_wp]
    refine wp_mono (Backlog.quiet_woven (.inr rfl) (fun _ _ => h.shutdown env k s.inner _ _) some hw)
      ?_
    exact fun r t k' operated => ⟨[], rfl, operated⟩

/-! ## Its moves -/

/-- One move. What happens to the channel answers for no byte. -/
def move : InjectMove WriteOp → Io (WriteInjector T) Nat
  | .caller op => op.poll
  | change => do
    Polling.modify fun s => { s with injectRx := change.onChannel s.injectRx }
    return 0

/-- The messages that a move receives: those that leave the queue. -/
def received? (env : World) (s : Paced (WriteInjector T)) : InjectMove WriteOp → List (List UInt8)
  | .caller op =>
    s.state.injectRx.queue.take (s.state.injectRx.queue.length -
      (op.poll env s.moment s.state).state.injectRx.queue.length)
  | _ => []

variable (T) in
/-- An injector's moves, with the messages received so far beside the state. -/
def splicing (env : World) :
    Machine (Paced (WriteInjector T) × List (List UInt8)) (InjectMove WriteOp) (Poll IoError Nat) :=
  (Polling.machine env move).traced (received? env)

/-- The writes among the moves. -/
def write? (e : InjectMove WriteOp × Poll IoError Nat) : Option (WriteOp × Poll IoError Nat) :=
  match e.1 with
  | .caller op => some (op, e.2)
  | _ => none

/-- The caller's part of a history. -/
def writesOf (past : History (InjectMove WriteOp) (Poll IoError Nat)) : Writes :=
  past.filterMap write?

section Histories

variable {past : History (InjectMove WriteOp) (Poll IoError Nat)} {r : Poll IoError Nat}

theorem writesOf_quiet {move : InjectMove WriteOp} (quiet : ∀ op, move ≠ .caller op) :
    writesOf (past ++ [(move, r)]) = writesOf past := by
  cases move with
  | caller op => exact absurd rfl (quiet op)
  | _ => simp [writesOf, write?]

theorem writesOf_caller {op : WriteOp} :
    writesOf (past ++ [(.caller op, r)]) = writesOf past ++ [(op, r)] := by
  simp [writesOf, write?]

/-- What left the queue is what was received. -/
theorem take_of_append {messages queue queue' : List (List UInt8)} (h : queue = messages ++ queue') :
    queue.take (queue.length - queue'.length) = messages := by
  subst h
  rw [List.length_append, Nat.add_sub_cancel, List.take_left]

end Histories

end WriteInjector

end Trixter
