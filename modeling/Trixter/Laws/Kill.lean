import Mathlib.Data.List.Nodup
import Trixter.CopyBuffer
import Trixter.Laws.Copy
import Trixter.Laws.CopyBuffer
import Trixter.Laws.Shutdowner
import Trixter.Script
import Trixter.Server
import Trixter.Xoshiro

/-!
# The kill switch

`kills_iff_heard`: the poll after a shutdown is over exactly when one direction of the copy turns to the
client.

A connection is marked when the send of an API call that has taken it out of the map reaches a task that
copies; its next poll clears the mark. What a run keeps is that the error of a marked connection waits
in its task's channel, whatever other calls and tasks do in between. The copy is any pair of transfers
with the stated laws, and its task is never out of budget; nothing is said of when the next poll comes.
-/

namespace Trixter

open Trixter.Lib Polling

namespace Server

variable {A B W G : Type}

/-- The tasks in the map. -/
def listed (s : Server A B W G) : List Nat := s.connections.map Prod.snd

/-- The task's copy has not ended. -/
def copies (s : Server A B W G) (n : Nat) : Bool := (s.tasks n).any fun t => t.res.isNone

/-- The task copies, and this error waits in its channel. -/
def Struck (s : Server A B W G) (n : Nat) (err : BError) : Prop :=
  ∃ t, s.tasks n = some t ∧ t.res = none ∧ t.errRx = some (.sent err)

/-- The errors that connections were shut down with since they were last polled. -/
abbrev Marks := Nat → Option BError

/-- A send to this task succeeds while it copies. -/
def reached (s : Server A B W G) (err : BError) (n : Nat) : Bool := (s.send n err).1 && s.copies n

/-- The marks after an event. -/
def watch (marks : Marks) (s : Paced (Server A B W G)) : Event W → Marks
  | .advance call => fun n =>
    match (s.state.calls call).sends with
    | some (tx, reason) =>
      if n = tx ∧ s.state.reached (shutdownError reason) n then some (shutdownError reason)
      else marks n
    | none => marks n
  | .poll n => Function.update marks n none
  | _ => marks

/-! ## What the operations leave alone -/

/-- No error that waits in a channel is lost, and no task appears. -/
structure Keeps (s s' : Server A B W G) : Prop where
  struck : ∀ n err, s.Struck n err → s'.Struck n err
  absent : ∀ n, s.tasks n = none → s'.tasks n = none
  next : s'.next = s.next

namespace Keeps

variable {s s' s'' : Server A B W G}

theorem refl (s : Server A B W G) : Keeps s s := ⟨fun _ _ h => h, fun _ h => h, rfl⟩

theorem trans (h : Keeps s s') (h' : Keeps s' s'') : Keeps s s'' :=
  ⟨fun n err struck => h'.struck n err (h.struck n err struck),
    fun n absent => h'.absent n (h.absent n absent), h'.next.trans h.next⟩

end Keeps

section Operations

variable {s : Server A B W G} {n m tx : Nat} {err : BError} {id : ConnId}

@[simp] theorem setTask_self (t : Option (Task A B W G)) : (s.setTask n t).tasks n = t :=
  Function.update_self ..

@[simp] theorem setTask_other (t : Option (Task A B W G)) (h : m ≠ n) :
    (s.setTask n t).tasks m = s.tasks m := Function.update_of_ne h ..

@[simp] theorem setCall_self {call : Nat} (c : Call) : (s.setCall call c).calls call = c :=
  Function.update_self ..

@[simp] theorem setCall_other {call call' : Nat} (c : Call) (h : call' ≠ call) :
    (s.setCall call c).calls call' = s.calls call' := Function.update_of_ne h ..

theorem struck_setTask_other {t : Option (Task A B W G)} (h : m ≠ n) :
    (s.setTask n t).Struck m err ↔ s.Struck m err := by
  rw [Struck, Struck, setTask_other t h]

/-- A signal that leaves what has been sent alone. -/
theorem signal_keeps {f : Oneshot → Oneshot} (sent : ∀ err, f (.sent err) = .sent err) :
    Keeps s (s.setTask n ((s.tasks n).map (Task.signal f))) where
  struck m err struck := by
    by_cases h : m = n
    · obtain ⟨t, task, copies, rx⟩ := struck
      subst h
      refine ⟨t.signal f, by rw [setTask_self, task]; rfl, copies, ?_⟩
      show t.errRx.map f = _
      rw [rx, Option.map_some, sent]
    · exact (struck_setTask_other h).mpr struck
  absent m absent := by
    by_cases h : m = n
    · subst h
      rw [setTask_self, absent]
      rfl
    · rw [setTask_other _ h, absent]
  next := rfl

theorem hangUp_keeps : Keeps s (s.hangUp n) := signal_keeps fun _ => rfl

/-- A send reaches a task that copies and has not been told anything. -/
theorem reached_iff :
    s.reached err n = true ↔
      ∃ t, s.tasks n = some t ∧ t.res = none ∧ t.errRx = some .waiting := by
  rw [reached, copies, send]
  cases task : s.tasks n with
  | none => simp
  | some t =>
    by_cases waiting : t.errRx = some .waiting
    · simp [waiting]
    · simp [waiting]

/-- A send that succeeds puts its error into the channel. -/
theorem send_reached (h : s.reached err n = true) : (s.send n err).2.Struck n err := by
  obtain ⟨t, task, running, waiting⟩ := reached_iff.mp h
  simp only [send, task, if_pos waiting]
  refine ⟨_, setTask_self _, running, ?_⟩
  show t.errRx.map _ = _
  rw [waiting]
  rfl

theorem send_keeps : Keeps s (s.send n err).2 := by
  cases task : s.tasks n with
  | none =>
    simp only [send, task]
    exact .refl s
  | some t =>
    by_cases waiting : t.errRx = some .waiting
    · simp only [send, task, if_pos waiting]
      refine ⟨fun m err' struck => ?_, fun m absent => ?_, rfl⟩
      · by_cases h : m = n
        · obtain ⟨t', task', -, rx⟩ := struck
          rw [h, task] at task'
          cases task'
          rw [waiting] at rx
          cases rx
        · exact (struck_setTask_other h).mpr struck
      · by_cases h : m = n
        · rw [h, task] at absent
          cases absent
        · rw [setTask_other _ h, absent]
    · simp only [send, task, if_neg waiting]
      exact .refl s

@[simp] theorem send_connections : (s.send n err).2.connections = s.connections := by
  unfold send
  split
  · split <;> rfl
  · rfl

/-- A send says nothing to another task. -/
theorem send_other (h : m ≠ n) : (s.send n err).2.tasks m = s.tasks m := by
  unfold send
  split
  · split
    · exact setTask_other _ h
    · rfl
  · rfl

@[simp] theorem send_calls : (s.send n err).2.calls = s.calls := by
  unfold send
  split
  · split <;> rfl
  · rfl

/-! ## The map -/

theorem listed_forget : (s.forget id).listed.Sublist s.listed :=
  List.Sublist.map _ List.filter_sublist

/-- Where tasks are listed once, an entry that is removed takes its task off the list. -/
theorem not_listed_forget (distinct : s.listed.Nodup) (mem : (id, tx) ∈ s.connections) :
    tx ∉ (s.forget id).listed := by
  intro still
  obtain ⟨⟨id', tx'⟩, kept, rfl⟩ := List.mem_map.mp still
  obtain ⟨mem', other⟩ := List.mem_filter.mp kept
  have same : (id', tx') = (id, tx') := List.inj_on_of_nodup_map distinct mem' mem rfl
  cases same
  simp at other

theorem forget_keeps : Keeps s (s.forget id) := ⟨fun _ _ h => h, fun _ h => h, rfl⟩

theorem discard_keeps : Keeps s (s.discard id) := by
  unfold discard
  split
  · exact forget_keeps.trans hangUp_keeps
  · exact .refl s

theorem listed_discard : (s.discard id).listed.Sublist s.listed := by
  unfold discard
  split
  · exact listed_forget
  · exact List.Sublist.refl _

@[simp] theorem discard_calls : (s.discard id).calls = s.calls := by
  unfold discard
  split <;> rfl

theorem insert_keeps : Keeps s (s.insert id tx) := by
  unfold insert
  split
  · exact hangUp_keeps.trans ⟨fun _ _ h => h, fun _ h => h, rfl⟩
  · exact ⟨fun _ _ h => h, fun _ h => h, rfl⟩

theorem listed_insert : ∃ rest, (s.insert id tx).listed = tx :: rest ∧ rest.Sublist s.listed := by
  unfold insert
  split
  · exact ⟨_, rfl, listed_forget⟩
  · exact ⟨_, rfl, listed_forget⟩

@[simp] theorem insert_calls : (s.insert id tx).calls = s.calls := by
  unfold insert
  split <;> rfl

end Operations

/-! ## The API calls -/

/-- What a step of an API call does: it goes on with the senders it has, takes one out of the map, or
sends with one. -/
inductive Steps (s : Server A B W G) (call : Nat) : Server A B W G → Prop where
  | goes {c : Call} (hand : c.hand = (s.calls call).hand) : Steps s call (s.setCall call c)
  | takes {id : ConnId} {tx : Nat} {c : Call} (entry : s.connections.lookup id = some tx)
      (hand : c.hand = (s.calls call).hand ++ [tx]) : Steps s call ((s.forget id).setCall call c)
  | sends {tx : Nat} {reason : String} {c : Call} (hand : (s.calls call).hand = tx :: c.hand) :
      Steps s call ((s.send tx (shutdownError reason)).2.setCall call c)

namespace Steps

variable {s s' : Server A B W G} {call call' tx : Nat} {id : ConnId} {reason : String}

/-- A step out of its turn. -/
theorem refl : Steps s call s := by
  have step : Steps s call (s.setCall call (s.calls call)) := .goes rfl
  rwa [setCall, Function.update_eq_self] at step

theorem shutdown : Steps s call (s.shutdownConnection call id reason).2 := by
  unfold shutdownConnection
  split
  · next idle =>
    unfold removeConnection
    cases entry : s.connections.lookup id with
    | none => exact .goes (by rw [idle]; rfl)
    | some tx => exact .takes entry (by rw [idle]; rfl)
  · exact .refl

theorem shutdownAll : Steps s call (s.shutdownAllConnections call reason).2 := by
  unfold shutdownAllConnections
  split
  · next idle => exact .goes (by rw [idle]; rfl)
  · exact .refl

theorem snapshot {ids : List ConnId} : Steps s call (s.snapshot call ids).2 := by
  unfold Server.snapshot
  split
  · next iterating => exact .goes (by rw [iterating]; rfl)
  · exact .refl

/-- A call that sends next. -/
theorem advance_sends (next : (s.calls call).sends = some (tx, reason)) :
    ∃ c : Call, (s.calls call).hand = tx :: c.hand ∧
      (s.advance call).2 = (s.send tx (shutdownError reason)).2.setCall call c := by
  cases c : s.calls call with
  | sending reason' tx' =>
    rw [c] at next
    cases next
    exact ⟨.replied (Call.response !(s.send tx (shutdownError reason)).1), rfl,
      by simp only [Server.advance, c]⟩
  | sendingAll reason' connections failed =>
    rw [c] at next
    cases connections with
    | nil => cases next
    | cons tx' connections =>
      cases next
      exact ⟨.sendingAll reason connections (failed || !(s.send tx (shutdownError reason)).1), rfl,
        by simp only [Server.advance, c]⟩
  | _ => rw [c] at next; cases next

theorem advance : Steps s call (s.advance call).2 := by
  cases next : (s.calls call).sends with
  | some told =>
    obtain ⟨tx, reason⟩ := told
    obtain ⟨c, hand, eq⟩ := advance_sends next
    rw [eq]
    exact .sends hand
  | none =>
    cases c : s.calls call with
    | removing reason ids connections =>
      cases ids with
      | nil =>
        simp only [Server.advance, c]
        exact .goes (by rw [c]; rfl)
      | cons id ids =>
        simp only [Server.advance, c, removeConnection]
        cases entry : s.connections.lookup id with
        | none => exact .goes (by rw [c]; rfl)
        | some tx => exact .takes entry (by rw [c]; rfl)
    | sendingAll reason connections failed =>
      cases connections with
      | nil =>
        simp only [Server.advance, c]
        exact .goes (by rw [c]; rfl)
      | cons tx connections => rw [c] at next; cases next
    | sending reason tx => rw [c] at next; cases next
    | _ =>
      simp only [Server.advance, c]
      exact .refl

theorem keeps (h : Steps s call s') : Keeps s s' := by
  cases h with
  | goes hand => exact ⟨fun _ _ h => h, fun _ h => h, rfl⟩
  | takes entry hand => exact ⟨fun _ _ h => h, fun _ h => h, rfl⟩
  | sends hand =>
    exact (send_keeps (s := s)).trans ⟨fun _ _ h => h, fun _ h => h, rfl⟩

theorem listed (h : Steps s call s') : s'.listed.Sublist s.listed := by
  cases h with
  | goes hand => exact List.Sublist.refl _
  | takes entry hand => exact listed_forget
  | sends hand =>
    rw [Server.listed, setCall, send_connections]
    exact List.Sublist.refl _

/-- A sender that a call has afterwards was in a call's hand before, or in the map and is not any
more. -/
theorem hand (h : Steps s call s') (distinct : s.listed.Nodup) (held : tx ∈ (s'.calls call').hand) :
    (∃ c, tx ∈ (s.calls c).hand) ∨ tx ∈ s.listed ∧ tx ∉ s'.listed := by
  by_cases same : call' = call
  · subst same
    cases h with
    | goes hand =>
      rw [setCall_self, hand] at held
      exact .inl ⟨call', held⟩
    | takes entry hand =>
      rw [setCall_self, hand] at held
      rcases List.mem_append.mp held with held | new
      · exact .inl ⟨call', held⟩
      · cases List.mem_singleton.mp new
        have mem := Keyed.mem_of_lookup entry
        exact .inr ⟨List.mem_map_of_mem mem, not_listed_forget distinct mem⟩
    | sends hand =>
      rw [setCall_self] at held
      exact .inl ⟨call', hand ▸ List.mem_cons_of_mem _ held⟩
  · refine .inl ⟨call', ?_⟩
    cases h with
    | goes hand => rwa [setCall_other _ same] at held
    | takes entry hand => rwa [setCall_other _ same] at held
    | sends hand => rwa [setCall_other _ same, send_calls] at held

end Steps

/-! ## What a run keeps -/

/-- Tasks are listed once, by numbers already given out, and not while a call has their sender. The
error of a marked connection waits in its task's channel after the connection has left the list. -/
structure Sound (s : Server A B W G) (marks : Marks) : Prop where
  distinct : s.listed.Nodup
  spawned : ∀ tx ∈ s.listed, tx < s.next
  taken : ∀ call, ∀ tx ∈ (s.calls call).hand, tx < s.next ∧ tx ∉ s.listed
  fresh : ∀ n, s.next ≤ n → s.tasks n = none
  marked : ∀ n err, marks n = some err → s.Struck n err ∧ n ∉ s.listed

namespace Sound

variable {s s' : Server A B W G} {marks marks' : Marks}

/-- An operation that keeps what waits, and lists nothing new. -/
theorem kept (h : Sound s marks) (keeps : Keeps s s') (listed : s'.listed.Sublist s.listed)
    (hands : ∀ call, ∀ tx ∈ (s'.calls call).hand,
      (∃ c, tx ∈ (s.calls c).hand) ∨ tx ∈ s.listed ∧ tx ∉ s'.listed)
    (marked : ∀ n err, marks' n = some err → marks n = some err ∨ s'.Struck n err ∧ n ∉ s'.listed) :
    Sound s' marks' where
  distinct := listed.nodup h.distinct
  spawned tx mem := keeps.next ▸ h.spawned tx (listed.subset mem)
  taken call tx mem := by
    rw [keeps.next]
    rcases hands call tx mem with ⟨c, old⟩ | ⟨mem, gone⟩
    · exact ⟨(h.taken c tx old).1, fun mem => (h.taken c tx old).2 (listed.subset mem)⟩
    · exact ⟨h.spawned tx mem, gone⟩
  fresh n le := keeps.absent n (h.fresh n (keeps.next ▸ le))
  marked n err mark := by
    rcases marked n err mark with old | new
    · obtain ⟨struck, gone⟩ := h.marked n err old
      exact ⟨keeps.struck n err struck, fun mem => gone (listed.subset mem)⟩
    · exact new

/-- A task that has no mark changes or goes. -/
theorem setTask {n : Nat} {t : Option (Task A B W G)} (h : Sound s marks)
    (lt : n < s.next) (unmarked : ∀ err, marks' n ≠ some err)
    (marked : ∀ m err, m ≠ n → marks' m = some err → marks m = some err) :
    Sound (s.setTask n t) marks' where
  distinct := h.distinct
  spawned := h.spawned
  taken := h.taken
  fresh m le := by
    have other : m ≠ n := Nat.ne_of_gt (Nat.lt_of_lt_of_le lt le)
    rw [setTask_other t other]
    exact h.fresh m le
  marked m err mark := by
    have other : m ≠ n := by
      rintro rfl
      exact unmarked err mark
    obtain ⟨struck, gone⟩ := h.marked m err (marked m err other mark)
    exact ⟨(struck_setTask_other other).mpr struck, gone⟩

theorem empty : Sound (Server.empty : Server A B W G) fun _ => none :=
  ⟨List.nodup_nil, fun _ mem => (by cases mem), fun _ _ mem => (by cases mem), fun _ _ => rfl,
    fun _ _ mark => (by cases mark)⟩

/-- A step of a call that does not send. -/
theorem call (h : Sound s marks) {call : Nat} (step : Steps s call s') : Sound s' marks :=
  h.kept step.keeps step.listed (fun _ _ mem => step.hand h.distinct mem) fun _ _ mark => .inl mark

/-- A call that goes on, and sends perhaps. -/
theorem advance (h : Sound s marks) (call k : Nat) :
    Sound (s.advance call).2 (watch marks ⟨k, s⟩ (.advance call : Event W)) := by
  cases next : (s.calls call).sends with
  | none =>
    have same : watch marks ⟨k, s⟩ (.advance call : Event W) = marks := by
      simp only [watch, next]
    rw [same]
    exact h.call .advance
  | some told =>
    obtain ⟨tx, reason⟩ := told
    have step : Steps s call (s.advance call).2 := .advance
    obtain ⟨c, hand, eq⟩ := Steps.advance_sends next
    refine h.kept step.keeps step.listed (fun _ _ mem => step.hand h.distinct mem) fun n err mark => ?_
    simp only [watch, next] at mark
    split at mark
    · next taken =>
      cases mark
      obtain ⟨rfl, reached⟩ := taken
      have out : n ∉ s.listed := (h.taken call n (hand ▸ List.mem_cons_self)).2
      refine .inr ⟨?_, fun mem => out (step.listed.subset mem)⟩
      rw [eq]
      exact send_reached reached
    · exact .inl mark

/-- A number that has a task has been given out. -/
theorem lt_next (h : Sound s marks) {n : Nat} {t : Task A B W G} (task : s.tasks n = some t) :
    n < s.next := by
  by_contra beyond
  rw [h.fresh n (Nat.le_of_not_lt beyond)] at task
  cases task

theorem poll (h : Sound s marks) {n : Nat} (lt : n < s.next) (t : Option (Task A B W G)) :
    Sound (s.setTask n t) (Function.update marks n none) := by
  refine h.setTask lt (fun err mark => ?_) fun m err other mark => ?_
  · rw [Function.update_self] at mark
    cases mark
  · rwa [Function.update_of_ne other] at mark

/-- Forgetting a mark. -/
theorem unmark (h : Sound s marks) (n : Nat) : Sound s (Function.update marks n none) := by
  refine h.kept (.refl s) (List.Sublist.refl _) (fun c _ mem => .inl ⟨c, mem⟩) fun m err mark => .inl ?_
  by_cases same : m = n
  · rw [same, Function.update_self] at mark
    cases mark
  · rwa [Function.update_of_ne same] at mark

/-- A task that has ended goes on, or goes. -/
theorem ended (h : Sound s marks) {n : Nat} {t : Task A B W G} (task : s.tasks n = some t)
    (stopped : t.res ≠ none) (t' : Option (Task A B W G)) : Sound (s.setTask n t') marks := by
  refine h.setTask (h.lt_next task) (fun err mark => ?_) fun _ _ _ mark => mark
  obtain ⟨⟨u, task', running, -⟩, -⟩ := h.marked n err mark
  rw [task] at task'
  cases task'
  exact stopped running

theorem cleanUp (h : Sound s marks) (n : Nat) : Sound (s.cleanUp n).2 marks := by
  unfold Server.cleanUp
  split
  · next id copying timer res task =>
    refine (h.ended task (Option.some_ne_none res) _).kept discard_keeps listed_discard ?_
      fun _ _ mark => .inl mark
    rw [discard_calls]
    exact fun c _ mem => .inl ⟨c, mem⟩
  · exact h

theorem leave (h : Sound s marks) (n : Nat) : Sound (s.leave n).2 marks := by
  unfold Server.leave
  split
  · next res task => exact h.ended task (Option.some_ne_none _) none
  · exact h

/-- A task under a new number, listed under an id that may have been in use. -/
theorem accept (h : Sound s marks) (id : ConnId) (t : Task A B W G) :
    Sound (({ s with next := s.next + 1 }.setTask s.next (some t)).insert id s.next) marks := by
  have keeps : Keeps ({ s with next := s.next + 1 }.setTask s.next (some t)) _ :=
    @insert_keeps _ _ _ _ _ s.next id
  obtain ⟨rest, list, kept⟩ : ∃ rest,
      (({ s with next := s.next + 1 }.setTask s.next (some t)).insert id s.next).listed =
        s.next :: rest ∧ rest.Sublist s.listed := listed_insert
  have unlisted : s.next ∉ s.listed := fun mem => Nat.lt_irrefl _ (h.spawned _ mem)
  refine ⟨?_, fun tx mem => ?_, fun call tx mem => ?_, fun n le => keeps.absent n ?_,
    fun n err mark => ?_⟩
  · rw [list]
    exact List.nodup_cons.mpr ⟨fun mem => unlisted (kept.subset mem), kept.nodup h.distinct⟩
  · rw [list] at mem
    rw [keeps.next]
    rcases List.mem_cons.mp mem with rfl | mem
    · exact Nat.lt_succ_self _
    · exact Nat.lt_succ_of_lt (h.spawned tx (kept.subset mem))
  · rw [insert_calls] at mem
    obtain ⟨lt, out⟩ := h.taken call tx mem
    rw [keeps.next, list, List.mem_cons, not_or]
    exact ⟨Nat.lt_succ_of_lt lt, Nat.ne_of_lt lt, fun mem => out (kept.subset mem)⟩
  · rw [keeps.next] at le
    have le : s.next + 1 ≤ n := le
    rw [setTask_other _ (by omega)]
    exact h.fresh n (by omega)
  · obtain ⟨struck, gone⟩ := h.marked n err mark
    have other : n ≠ s.next := by
      obtain ⟨t', task, -⟩ := struck
      exact Nat.ne_of_lt (h.lt_next task)
    refine ⟨keeps.struck n err ((struck_setTask_other other).mpr struck), ?_⟩
    rw [list, List.mem_cons, not_or]
    exact ⟨other, fun mem => gone (kept.subset mem)⟩

end Sound

/-! ## Polls -/

section Polls

variable {there : Transfer A (Shutdowner (Pipeline W G)) (Pipeline W G)}
  {back : Transfer B (Pipeline W G) (Shutdowner (Pipeline W G))} {env : World} {k : Nat}
  {s : Server A B W G} {n : Nat}

theorem timeout_wp {σ : Type} {timer : Option Sleep} {copied : Poll IoError Unit} {s : σ}
    {Q : Poll IoError (Poll IoError Unit) → σ → Nat → Prop} (h : ∀ res k', Q (.ok res) s k') :
    (Task.timeout timer copied).wp env k s Q := by
  unfold Task.timeout
  split
  · next sleep =>
    rw [wp_bind, wp_inside, wp_iff]
    dsimp only
    split
    · exact h _ _
    · exact h _ _
  · exact h _ _

variable (there back env k)

/-- A poll of a task that copies answers with the copy's answer, and leaves the other tasks alone. -/
theorem pollTask_copies {t : Task A B W G} (task : s.tasks n = some t) (running : t.res = none) :
    (pollTask there back n).wp env k s fun r s' _ =>
      r = .ok (.polled (copyBidirectional there back env k t.copying).result) ∧
        ∃ t', s' = s.setTask n t' := by
  obtain ⟨id, copying, timer, res, cleaned⟩ := t
  cases running
  rw [pollTask, wp_bind, wp_get]
  simp only [task]
  rw [wp_bind, wp_inside, wp_iff]
  dsimp only
  rw [wp_bind]
  refine timeout_wp fun res k' => ?_
  exact ⟨rfl, _, rfl⟩

/-- A task that does not copy is not polled. -/
theorem pollTask_silent (idle : ∀ t, s.tasks n = some t → t.res ≠ none) :
    (pollTask there back n).wp env k s fun r s' _ => r = .ok .silent ∧ s' = s := by
  rw [pollTask, wp_bind, wp_get]
  dsimp only
  split
  · next task => exact absurd rfl (idle _ task)
  · exact ⟨rfl, rfl⟩

end Polls

/-! ## Runs -/

section Runs

variable [SmallRng G] (cfg : Config G)
  (there : Transfer A (Shutdowner (Pipeline W G)) (Pipeline W G))
  (back : Transfer B (Pipeline W G) (Shutdowner (Pipeline W G))) (env : World)

/-- The server, with the marks beside its state. -/
def marked : Machine (Paced (Server A B W G) × Marks) (Event W) (Poll IoError Response) :=
  (machine cfg there back env).watched watch

/-- Each event keeps the invariant. -/
theorem sound_step (s : Paced (Server A B W G) × Marks) (ev : Event W)
    (h : Sound s.1.state s.2) :
    Sound ((marked cfg there back env).step s ev).2.1.state
      ((marked cfg there back env).step s ev).2.2 := by
  cases ev with
  | accept id downstream upstream knobs => exact h.accept id _
  | shutdown call id reason => exact h.call .shutdown
  | shutdownAll call reason => exact h.call .shutdownAll
  | snapshot call ids => exact h.call .snapshot
  | advance call => exact h.advance call s.1.moment
  | poll n =>
    show Sound (pollTask there back n env s.1.moment s.1.state).state (Function.update s.2 n none)
    by_cases idle : ∀ t, s.1.state.tasks n = some t → t.res ≠ none
    · have silent : (pollTask there back n env s.1.moment s.1.state).state = s.1.state :=
        (wp_iff.mp (pollTask_silent there back env s.1.moment idle)).2
      rw [silent]
      exact h.unmark n
    · simp only [not_forall, not_not] at idle
      obtain ⟨t, task, running⟩ := idle
      obtain ⟨-, t', state⟩ :=
        wp_iff.mp (pollTask_copies there back env s.1.moment task running)
      rw [state]
      exact h.poll (h.lt_next task) t'
  | cleanUp n => exact h.cleanUp n
  | leave n => exact h.leave n

variable [AsyncRead W] [AsyncWrite W]

/-- The poll of a marked connection is over, with the error it was shut down with unless the copy
ends in that poll for another reason. -/
def Kills (s : Paced (Server A B W G) × Marks) (answer : Poll IoError Response) : Event W → Prop
  | .poll n => ∀ err ∈ s.2 n, ∃ t copied, s.1.state.tasks n = some t ∧
      answer = .ok (.polled copied) ∧
      Copying.Over there back env s.1.moment t.copying (.other err) copied
  | _ => True

/-- The poll of a marked connection is not deaf. -/
def Heard (s : Paced (Server A B W G) × Marks) : Event W → Prop
  | .poll n => ∀ err ∈ s.2 n, ∀ t ∈ s.1.state.tasks n,
      ¬Copying.Deaf there back env s.1.moment t.copying
  | _ => True

variable {there back}

/-- One event of a run. -/
theorem kills_iff (budget : ∀ k, env.proceeds k = true) (lawfulThere : there.Lawful) (lawfulBack : back.Lawful)
    (s : Paced (Server A B W G) × Marks) (ev : Event W) (h : Sound s.1.state s.2) :
    Kills there back env s ((marked cfg there back env).step s ev).1 ev ↔
      Heard there back env s ev := by
  cases ev with
  | poll n =>
    cases mark : s.2 n with
    | none => simp [Kills, Heard, mark]
    | some err =>
      obtain ⟨t, task, running, sent⟩ := (h.marked n err mark).1
      have answer : ((marked cfg there back env).step s (.poll n)).1 =
          .ok (.polled (copyBidirectional there back env s.1.moment t.copying).result) :=
        (wp_iff.mp (pollTask_copies there back env s.1.moment task running)).1
      have settles : Copying.Over there back env s.1.moment t.copying (.other err) _ ↔ _ :=
        Copying.over_iff lawfulThere lawfulBack (Shutdowner.refusesReads sent budget)
          (Shutdowner.refuses sent budget)
      rw [answer]
      simp [Kills, Heard, mark, task, settles]
  | _ => exact Iff.rfl

/-- **The kill switch.** In every run of the server a marked connection has left the map, and its
next poll is over exactly when it is not deaf. -/
theorem kills_iff_heard (budget : ∀ k, env.proceeds k = true) (lawfulThere : there.Lawful)
    (lawfulBack : back.Lawful) (k : Nat) (events : List (Event W)) :
    (marked cfg there back env).Throughout
        (fun _ s => ∀ n err, s.2 n = some err → n ∉ s.1.state.listed)
        (⟨k, empty⟩, fun _ => none) events ∧
      ((marked cfg there back env).Allowed
          (fun _ s ev => Kills there back env s ((marked cfg there back env).step s ev).1 ev)
          (⟨k, empty⟩, fun _ => none) events ↔
        (marked cfg there back env).Allowed (fun _ s ev => Heard there back env s ev)
          (⟨k, empty⟩, fun _ => none) events) := by
  have start : Sound (empty : Server A B W G) fun _ => none := .empty
  refine ⟨?_, Machine.AllowedFrom.congr (P := fun _ s => Sound s.1.state s.2)
    (fun _ s ev h _ => sound_step cfg there back env s ev h)
    (fun _ s ev h => kills_iff cfg env budget lawfulThere lawfulBack s ev h) start⟩
  refine Machine.allowedFrom_of_invariant (P := fun s => Sound s.1.state s.2)
    (sound_step cfg there back env) (fun _ s ev h => ?_) start
  exact fun n err mark => ((sound_step cfg there back env s ev h).marked n err mark).2

end Runs

/-! ## Two clients -/

def plain : Config Xoshiro := ⟨0, SmallRng.fromSeed Xoshiro.seed⟩

/-- Adapters that are all switched off. -/
def knobsOff : Knobs := ⟨⟨0⟩, ⟨0⟩, ⟨0⟩, ⟨0⟩, ⟨0⟩⟩

/-- A socket that takes every write, and reads what is written down. -/
def peer (coming : List (Option (List UInt8))) : Duplex := ⟨⟨[], coming⟩, ⟨⟨[], []⟩, []⟩⟩

/-- The marked server in a world where nothing moves, over the buffers of `CopyBuffer`. -/
def quietServer : Machine (Paced (Server CopyBuffer CopyBuffer Duplex Xoshiro) × Marks)
    (Event Duplex) (Poll IoError Response) :=
  marked plain (CopyBuffer.transfer _ _) (CopyBuffer.transfer _ _) World.still

/-- What each event of `quietServer` answers, held against the marks. -/
def QuietKills (s : Paced (Server CopyBuffer CopyBuffer Duplex Xoshiro) × Marks)
    (ev : Event Duplex) : Prop :=
  Kills (CopyBuffer.transfer _ _) (CopyBuffer.transfer _ _) World.still s
    (quietServer.step s ev).1 ev

/-- Two quiet peers. -/
def twoPeers : List (Event Duplex) :=
  [.accept "a" (peer [none, none]) (peer [none, none]) knobsOff, .poll 0,
    .shutdown 0 "a" "policy revoked", .advance 0, .poll 0]

/-- The poll after the call reads from the client, and is over. -/
theorem kills_open : quietServer.Allowed (fun _ => QuietKills) (⟨0, empty⟩, fun _ => none) twoPeers := by
  refine (kills_iff_heard plain World.still (fun _ => rfl) CopyBuffer.lawful CopyBuffer.lawful 0
    twoPeers).2.mpr ⟨trivial, fun err mark => (by cases mark), trivial, trivial, ?_, trivial⟩
  rintro err - t task deaf
  cases task
  exact deaf.1 [] false rfl

/-- A client that has closed its half, and an upstream that has not answered yet. -/
def halfClosed : List (Event Duplex) :=
  [.accept "a" (peer []) (peer [none, none]) knobsOff, .poll 0,
    .shutdown 0 "a" "policy revoked", .advance 0, .poll 0]

/-- The call is accepted, and the poll after it goes on waiting for the upstream. -/
theorem kills_fails_half_closed :
    ¬quietServer.Allowed (fun _ => QuietKills) (⟨0, empty⟩, fun _ => none) halfClosed := by
  rintro ⟨-, -, -, -, kills, -⟩
  obtain ⟨t, copied, -, answer, ready, -⟩ := kills (shutdownError "policy revoked") rfl
  have waits := Poll.ok.inj (answer.symm.trans (rfl : _ = Poll.ok (Response.polled .pending)))
  exact ready (Response.polled.inj waits)

end Server

end Trixter
