import Trixter.Laws.Relay

/-!
# The map of connections

`registry`: in every run the map lists the tasks that can still be told to stop and whose sender no call
has taken out, and a call that shuts connections down fails exactly where one of the tasks it took out
had gone when it came to send.

A sender is in one place: in the map, in the hand of one call, or used up. The invariant says so, and
that a task which has taken its entry out is not listed. Nothing is said of whether a task that is told
to stop does (`Laws.Kill`), or of which calls reach which task (`Laws.Shutdowns`).
-/

namespace Trixter

open Trixter.Lib Polling

variable {A B W G : Type}

namespace Call

/-- The next step of a call is its last. -/
def last : Call → Bool
  | .sending _ _ => true
  | .sendingAll _ [] _ => true
  | _ => false

/-- A send of the call has failed. -/
def failed : Call → Bool
  | .sendingAll _ _ sendFailed => sendFailed
  | _ => false

end Call

namespace Server

/-- A task with this id can still be told to stop. -/
def Listens (s : Server A B W G) (id : ConnId) (n : Nat) : Prop :=
  ∃ t, s.tasks n = some t ∧ t.id = id ∧ t.errRx = some .waiting

/-- A call has the sender of this task. -/
def Held (s : Server A B W G) (n : Nat) : Prop := ∃ call, n ∈ (s.calls call).hand

/-- The map lists, each under its id and no id twice, the tasks that can be told to stop and whose
sender no call has; and a sender is held once, of a task that listens or is gone. -/
structure Registered (s : Server A B W G) : Prop where
  distinct : (s.connections.map Prod.fst).Nodup
  listed : ∀ id n, (id, n) ∈ s.connections ↔ s.Listens id n ∧ ¬s.Held n
  held : ∀ n, s.Held n → s.tasks n = none ∨ ∃ id, s.Listens id n
  once : ∀ call, (s.calls call).hand.Nodup
  apart : ∀ call call' n, n ∈ (s.calls call).hand → n ∈ (s.calls call').hand → call = call'

/-- A task that has taken its entry out is not listed. -/
def Cleaned (s : Server A B W G) : Prop :=
  ∀ n t, s.tasks n = some t → t.cleaned = true → n ∉ s.listed

variable {s s' : Server A B W G} {n m tx call call' : Nat} {id id' : ConnId} {err : BError}

/-! ## Who listens after an operation -/

theorem Listens.same_id (h : s.Listens id n) (h' : s.Listens id' n) : id = id' := by
  obtain ⟨t, task, rfl, -⟩ := h
  obtain ⟨t', task', rfl, -⟩ := h'
  rw [task] at task'
  cases task'
  rfl

/-- A task that does not listen any more, or is gone. -/
theorem listens_setTask {t : Option (Task A B W G)} (quiet : ∀ u, t = some u → u.errRx ≠ some .waiting) :
    (s.setTask n t).Listens id m ↔ s.Listens id m ∧ m ≠ n := by
  by_cases same : m = n
  · subst same
    refine iff_of_false ?_ fun h => h.2 rfl
    rintro ⟨u, task, -, waiting⟩
    rw [setTask_self] at task
    exact quiet u task waiting
  · rw [Listens, Listens, setTask_other _ same]
    simp [same]

theorem listens_hangUp : (s.hangUp n).Listens id m ↔ s.Listens id m ∧ m ≠ n := by
  apply listens_setTask
  intro u told waiting
  obtain ⟨t, -, rfl⟩ := Option.map_eq_some_iff.mp told
  obtain ⟨rx, -, hung⟩ := Option.map_eq_some_iff.mp (waiting : t.errRx.map Oneshot.hangUp = _)
  cases rx <;> cases hung

/-- A send succeeds if somebody listens. -/
theorem send_fst : (s.send n err).1 = true ↔ ∃ id, s.Listens id n := by
  unfold send Listens
  cases task : s.tasks n with
  | none => simp
  | some t =>
    by_cases waiting : t.errRx = some .waiting
    · simp [waiting]
    · simp [waiting]

theorem listens_send : (s.send n err).2.Listens id m ↔ s.Listens id m ∧ m ≠ n := by
  by_cases heard : ∃ id, s.Listens id n
  · obtain ⟨-, t, task, -, waiting⟩ := heard
    simp only [send, task, if_pos waiting]
    apply listens_setTask
    rintro u ⟨⟩ still
    rw [Task.signal, Task.errRx] at still
    rw [waiting] at still
    cases still
  · have silent : (s.send n err).2 = s := by
      unfold send
      cases task : s.tasks n with
      | none => rfl
      | some t => exact congrArg Prod.snd (if_neg fun waiting => heard ⟨t.id, t, task, rfl, waiting⟩)
    rw [silent]
    refine (and_iff_left_of_imp ?_).symm
    rintro h rfl
    exact heard ⟨id, h⟩

/-- A send leaves nobody, and brings nobody back. -/
theorem send_gone : (s.send n err).2.tasks m = none ↔ s.tasks m = none := by
  by_cases same : m = n
  · subst same
    unfold send
    split
    · next t task =>
      split
      · rw [setTask_self, task]
        exact iff_of_false nofun nofun
      · exact Iff.rfl
    · exact Iff.rfl
  · rw [send_other same]

theorem held_congr (calls : s'.calls = s.calls) : s'.Held n ↔ s.Held n := by
  unfold Held
  rw [calls]

/-- A call's hand changes. -/
theorem held_setCall {c : Call} :
    (s.setCall call c).Held n ↔ n ∈ c.hand ∨ ∃ other, other ≠ call ∧ n ∈ (s.calls other).hand := by
  refine ⟨?_, ?_⟩
  · rintro ⟨other, mem⟩
    by_cases same : other = call
    · subst same
      rw [setCall_self] at mem
      exact .inl mem
    · rw [setCall_other _ same] at mem
      exact .inr ⟨other, same, mem⟩
  · rintro (mem | ⟨other, same, mem⟩)
    · exact ⟨call, by rwa [setCall_self]⟩
    · exact ⟨other, by rwa [setCall_other _ same]⟩

/-! ## What keeps the map -/

namespace Registered

theorem empty : Registered (Server.empty : Server A B W G) := by
  refine ⟨List.nodup_nil, fun id n => iff_of_false (fun mem => by cases mem) ?_, ?_,
    fun _ => List.nodup_nil, fun _ _ _ mem => by cases mem⟩
  · rintro ⟨⟨t, task, -⟩, -⟩
    cases task
  · rintro n ⟨call, mem⟩
    cases mem

/-- The ids of the listed tasks are theirs alone. -/
theorem mem_iff (h : Registered s) : (id, n) ∈ s.connections ↔ s.connections.lookup id = some n :=
  Keyed.mem_iff_lookup h.distinct

/-- An entry is under the id of its task. -/
theorem same_id (h : Registered s) {t : Task A B W G} (task : s.tasks n = some t)
    (entry : (id, n) ∈ s.connections) : id = t.id := by
  obtain ⟨⟨u, task', rfl, -⟩, -⟩ := (h.listed id n).mp entry
  rw [task] at task'
  cases task'
  rfl

/-- Whoever listens or is gone does so and is so after the operation, and the map and the calls are the
same. -/
theorem congr (h : Registered s) (connections : s'.connections = s.connections)
    (calls : s'.calls = s.calls) (listens : ∀ id m, s'.Listens id m ↔ s.Listens id m)
    (gone : ∀ m, s.tasks m = none → s'.tasks m = none) : Registered s' := by
  refine ⟨by rw [connections]; exact h.distinct, fun id m => ?_, fun m held => ?_, ?_, ?_⟩
  · rw [connections, listens, held_congr calls]
    exact h.listed id m
  · rcases h.held m ((held_congr calls).mp held) with none | ⟨id, listening⟩
    · exact .inl (gone m none)
    · exact .inr ⟨id, (listens id m).mpr listening⟩
  · rw [calls]
    exact h.once
  · rw [calls]
    exact h.apart

/-- The map after an entry has left it. -/
theorem mem_without (h : Registered s) (entry : s.connections.lookup id = some n) :
    (id', m) ∈ Keyed.without id s.connections ↔ (id', m) ∈ s.connections ∧ m ≠ n := by
  rw [Keyed.without, List.mem_filter, bne_iff_ne]
  refine and_congr_right fun mem => not_congr ⟨?_, ?_⟩
  · rintro rfl
    exact Option.some.inj ((h.mem_iff.mp mem).symm.trans entry)
  · rintro rfl
    exact ((h.listed _ _).mp mem).1.same_id ((h.listed _ _).mp (h.mem_iff.mpr entry)).1

/-- An entry is taken out, and its sender dropped. -/
theorem close (h : Registered s) (entry : s.connections.lookup id = some n)
    (connections : s'.connections = Keyed.without id s.connections) (calls : s'.calls = s.calls)
    (listens : ∀ id' m, s'.Listens id' m ↔ s.Listens id' m ∧ m ≠ n)
    (gone : ∀ m, s.tasks m = none → s'.tasks m = none) : Registered s' := by
  have unheld : ¬s.Held n := ((h.listed id n).mp (h.mem_iff.mpr entry)).2
  refine ⟨by rw [connections]; exact Keyed.nodup_without h.distinct, fun id' m => ?_,
    fun m held => ?_, ?_, ?_⟩
  · rw [connections, h.mem_without entry, h.listed, listens, held_congr calls]
    exact and_right_comm
  · have held := (held_congr calls).mp held
    rcases h.held m held with none | ⟨id', listening⟩
    · exact .inl (gone m none)
    · refine .inr ⟨id', (listens id' m).mpr ⟨listening, ?_⟩⟩
      rintro rfl
      exact unheld held
  · rw [calls]
    exact h.once
  · rw [calls]
    exact h.apart

/-! ## Calls -/

/-- A call goes on with the senders it has. -/
theorem goes (h : Registered s) {c : Call} (hand : c.hand = (s.calls call).hand) :
    Registered (s.setCall call c) := by
  have same : ∀ other, ((s.setCall call c).calls other).hand = (s.calls other).hand := by
    intro other
    by_cases same : other = call
    · subst same
      rw [setCall_self, hand]
    · rw [setCall_other _ same]
  have held : ∀ m, (s.setCall call c).Held m ↔ s.Held m :=
    fun m => exists_congr fun other => by rw [same]
  refine ⟨h.distinct, fun id m => ?_, fun m mem => h.held m ((held m).mp mem), fun other => ?_,
    fun other other' m mem mem' => ?_⟩
  · rw [held]
    exact h.listed id m
  · rw [same]
    exact h.once other
  · rw [same] at mem mem'
    exact h.apart other other' m mem mem'

/-- A call takes an entry out of the map. -/
theorem takes (h : Registered s) {c : Call} (entry : s.connections.lookup id = some tx)
    (hand : c.hand = (s.calls call).hand ++ [tx]) : Registered ((s.forget id).setCall call c) := by
  obtain ⟨listening, unheld⟩ := (h.listed id tx).mp (h.mem_iff.mpr entry)
  have held : ∀ m, ((s.forget id).setCall call c).Held m ↔ s.Held m ∨ m = tx := by
    intro m
    rw [held_setCall, hand, List.mem_append, List.mem_singleton]
    constructor
    · rintro ((mem | rfl) | ⟨other, -, mem⟩)
      · exact .inl ⟨call, mem⟩
      · exact .inr rfl
      · exact .inl ⟨other, mem⟩
    · rintro (⟨other, mem⟩ | rfl)
      · by_cases same : other = call
        · exact .inl (.inl (same ▸ mem))
        · exact .inr ⟨other, same, mem⟩
      · exact .inl (.inr rfl)
  have once : ((s.calls call).hand ++ [tx]).Nodup :=
    (h.once call).append (List.nodup_singleton tx) fun m mem new =>
      unheld ⟨call, List.mem_singleton.mp new ▸ mem⟩
  have mine : ∀ {other m}, m ∈ (((s.forget id).setCall call c).calls other).hand →
      m ∈ (s.calls other).hand ∨ other = call ∧ m = tx := by
    intro other m mem
    by_cases same : other = call
    · subst same
      rw [setCall_self, hand] at mem
      rcases List.mem_append.mp mem with mem | new
      · exact .inl mem
      · exact .inr ⟨rfl, List.mem_singleton.mp new⟩
    · rw [setCall_other _ same] at mem
      exact .inl mem
  refine ⟨Keyed.nodup_without h.distinct, fun id' m => ?_, fun m mem => ?_, fun other => ?_,
    fun other other' m mem mem' => ?_⟩
  · rw [held, not_or, ← and_assoc]
    exact (h.mem_without entry).trans (and_congr_left fun _ => h.listed id' m)
  · rcases (held m).mp mem with mem | rfl
    · exact h.held m mem
    · exact .inr ⟨id, listening⟩
  · by_cases same : other = call
    · subst same
      rw [setCall_self, hand]
      exact once
    · rw [setCall_other _ same]
      exact h.once other
  · rcases mine mem with old | ⟨same, rfl⟩
    · rcases mine mem' with old' | ⟨-, rfl⟩
      · exact h.apart other other' m old old'
      · exact absurd ⟨other, old⟩ unheld
    · rcases mine mem' with old' | ⟨same', -⟩
      · exact absurd ⟨other', old'⟩ unheld
      · exact same.trans same'.symm

/-- A call sends with a sender of its own. -/
theorem sends (h : Registered s) {c : Call} {reason : String}
    (hand : (s.calls call).hand = tx :: c.hand) :
    Registered ((s.send tx (shutdownError reason)).2.setCall call c) := by
  have mine : tx ∈ (s.calls call).hand := hand ▸ List.mem_cons_self
  obtain ⟨used, once⟩ := List.nodup_cons.mp (hand ▸ h.once call)
  have sub : ∀ {other m}, m ∈ (((s.send tx (shutdownError reason)).2.setCall call c).calls other).hand →
      m ∈ (s.calls other).hand ∧ m ≠ tx := by
    intro other m mem
    by_cases same : other = call
    · subst same
      rw [setCall_self] at mem
      refine ⟨hand ▸ List.mem_cons_of_mem _ mem, ?_⟩
      rintro rfl
      exact used mem
    · rw [setCall_other _ same, send_calls] at mem
      refine ⟨mem, ?_⟩
      rintro rfl
      exact same (h.apart other call m mem mine)
  have held : ∀ m, ((s.send tx (shutdownError reason)).2.setCall call c).Held m ↔ s.Held m ∧ m ≠ tx := by
    refine fun m => ⟨fun ⟨other, mem⟩ => ⟨⟨other, (sub mem).1⟩, (sub mem).2⟩, ?_⟩
    rintro ⟨⟨other, mem⟩, ne⟩
    by_cases same : other = call
    · subst same
      rw [hand] at mem
      exact ⟨other, by rw [setCall_self]; exact (List.mem_cons.mp mem).resolve_left ne⟩
    · exact ⟨other, by rw [setCall_other _ same, send_calls]; exact mem⟩
  have listens : ∀ id m, ((s.send tx (shutdownError reason)).2.setCall call c).Listens id m ↔
      s.Listens id m ∧ m ≠ tx := fun id m => listens_send
  refine ⟨?_, fun id m => ?_, fun m mem => ?_, fun other => ?_,
    fun other other' m mem mem' => h.apart other other' m (sub mem).1 (sub mem').1⟩
  · show ((s.send tx (shutdownError reason)).2.connections.map Prod.fst).Nodup
    rw [send_connections]
    exact h.distinct
  · rw [listens, held]
    show (id, m) ∈ (s.send tx (shutdownError reason)).2.connections ↔ _
    rw [send_connections, h.listed]
    constructor
    · rintro ⟨listening, unheld⟩
      refine ⟨⟨listening, ?_⟩, fun mem => unheld mem.1⟩
      rintro rfl
      exact unheld ⟨call, mine⟩
    · rintro ⟨⟨listening, ne⟩, unheld⟩
      exact ⟨listening, fun mem => unheld ⟨mem, ne⟩⟩
  · obtain ⟨mem, ne⟩ := (held m).mp mem
    rcases h.held m mem with none | ⟨id, listening⟩
    · exact .inl (send_gone.mpr none)
    · exact .inr ⟨id, (listens id m).mpr ⟨listening, ne⟩⟩
  · by_cases same : other = call
    · subst same
      rw [setCall_self]
      exact once
    · rw [setCall_other _ same, send_calls]
      exact h.once other

/-- **A step of a call.** -/
theorem steps (h : Registered s) (step : Steps s call s') : Registered s' := by
  cases step with
  | goes hand => exact h.goes hand
  | takes entry hand => exact h.takes entry hand
  | sends hand => exact h.sends hand

/-! ## Tasks -/

/-- A task that is not listed goes. -/
theorem leaves (h : Registered s) (unlisted : n ∉ s.listed) : Registered (s.setTask n none) := by
  have listens : ∀ id m, (s.setTask n none).Listens id m ↔ s.Listens id m ∧ m ≠ n :=
    fun id m => listens_setTask fun u none => by cases none
  refine ⟨h.distinct, fun id m => ?_, fun m held => ?_, h.once, h.apart⟩
  · rw [listens]
    show (id, m) ∈ s.connections ↔ _ ∧ ¬s.Held m
    rw [h.listed]
    refine ⟨fun ⟨listening, unheld⟩ => ⟨⟨listening, ?_⟩, unheld⟩, fun ⟨listening, unheld⟩ =>
      ⟨listening.1, unheld⟩⟩
    rintro rfl
    exact unlisted (List.mem_map_of_mem (f := Prod.snd) ((h.listed id m).mpr ⟨listening, unheld⟩))
  · by_cases same : m = n
    · exact .inl (same ▸ setTask_self _)
    · rcases h.held m held with none | ⟨id, listening⟩
      · exact .inl ((setTask_other _ same).trans none)
      · exact .inr ⟨id, (listens id m).mpr ⟨listening, same⟩⟩

/-- A task goes on, and its channel is as open as it was. -/
theorem stays (h : Registered s) {t t' : Task A B W G} (task : s.tasks n = some t) (id : t'.id = t.id)
    (waits : t'.errRx = some .waiting ↔ t.errRx = some .waiting) :
    Registered (s.setTask n (some t')) := by
  refine h.congr rfl rfl (fun id' m => ?_) fun m none => ?_
  · by_cases same : m = n
    · subst same
      rw [Listens, Listens, setTask_self, task]
      simp [id, waits]
    · rw [Listens, Listens, setTask_other _ same]
  · by_cases same : m = n
    · rw [same, task] at none
      cases none
    · rwa [setTask_other _ same]

/-- A hung-up task was there. -/
theorem hangUp_gone (gone : s.tasks m = none) : (s.hangUp n).tasks m = none :=
  hangUp_keeps.absent m gone

/-- `connections.remove(&id)` by the task. -/
theorem discard (h : Registered s) : Registered (s.discard id) := by
  unfold Server.discard
  split
  · next entry =>
    exact h.close entry rfl rfl (fun id' m => listens_hangUp) fun m none => hangUp_gone none
  · exact h

/-- Nobody is listed under an id after it was taken out. -/
theorem discard_unlisted : (id, m) ∉ (s.discard id).connections := by
  unfold Server.discard
  split
  · intro mem
    exact bne_iff_ne.mp (List.mem_filter.mp mem).2 rfl
  · next unused =>
    intro mem
    exact absurd (List.lookup_eq_none_iff.mp unused (id, m) mem) (by simp)

theorem cleanUp (h : Registered s) (n : Nat) : Registered (s.cleanUp n).2 := by
  unfold Server.cleanUp
  split
  · next id copying timer res task =>
    have marked : Registered (s.setTask n (some ⟨id, copying, timer, some res, true⟩)) :=
      h.stays task rfl Iff.rfl
    exact marked.discard
  · exact h

/-- A new task is listed under an id that is not in use. -/
theorem add (h : Registered s) {t : Task A B W G} (unused : s.connections.lookup t.id = none)
    (new : s.tasks n = none) (unheld : ¬s.Held n) (waiting : t.errRx = some .waiting)
    (connections : s'.connections = (t.id, n) :: s.connections) (calls : s'.calls = s.calls)
    (tasks : s'.tasks = Function.update s.tasks n (some t)) : Registered s' := by
  have listens : ∀ id m, s'.Listens id m ↔ s.Listens id m ∨ id = t.id ∧ m = n := by
    intro id m
    rw [Listens, Listens, tasks]
    by_cases same : m = n
    · subst same
      rw [Function.update_self, new]
      simp [waiting, eq_comm]
    · rw [Function.update_of_ne same]
      simp [same]
  refine ⟨?_, fun id m => ?_, fun m held => ?_, ?_, ?_⟩
  · rw [connections, List.map_cons, List.nodup_cons]
    refine ⟨fun mem => ?_, h.distinct⟩
    obtain ⟨⟨id, m⟩, entry, same⟩ := List.mem_map.mp mem
    have same : id = t.id := same
    subst same
    rw [h.mem_iff.mp entry] at unused
    cases unused
  · rw [connections, List.mem_cons, h.listed, listens, held_congr calls, Prod.mk.injEq]
    constructor
    · rintro (⟨rfl, rfl⟩ | ⟨listening, free⟩)
      · exact ⟨.inr ⟨rfl, rfl⟩, unheld⟩
      · exact ⟨.inl listening, free⟩
    · rintro ⟨listening | same, free⟩
      · exact .inr ⟨listening, free⟩
      · exact .inl same
  · have held := (held_congr calls).mp held
    rcases h.held m held with none | ⟨id, listening⟩
    · refine .inl ?_
      rw [tasks, Function.update_of_ne ?_]
      · exact none
      · rintro rfl
        exact unheld held
    · exact .inr ⟨id, (listens id m).mpr (.inl listening)⟩
  · rw [calls]
    exact h.once
  · rw [calls]
    exact h.apart

/-- `connections.insert(id, …)` by a new task, whose id may be in use. -/
theorem insert (h : Registered s) {t : Task A B W G} (new : s.tasks s.next = none)
    (unheld : ¬s.Held s.next) (waiting : t.errRx = some .waiting) :
    Registered (({ s with next := s.next + 1 }.setTask s.next (some t)).insert t.id s.next) := by
  cases entry : s.connections.lookup t.id with
  | none =>
    have same : Keyed.without t.id s.connections = s.connections := Keyed.without_of_none entry
    refine h.add entry new unheld waiting ?_ insert_calls ?_
    · simp only [Server.insert, entry, Server.setTask]
      exact congrArg (List.cons _) same
    · simp only [Server.insert, entry, Server.setTask]
      rfl
  | some old =>
    have other : old ≠ s.next := by
      obtain ⟨⟨u, task, -⟩, -⟩ := (h.listed t.id old).mp (h.mem_iff.mpr entry)
      rintro rfl
      rw [new] at task
      cases task
    have freed : Registered ((s.forget t.id).hangUp old) :=
      h.close entry rfl rfl (fun id' m => listens_hangUp) fun m none => hangUp_gone none
    refine freed.add (n := s.next) Keyed.lookup_without_self ?_ unheld waiting ?_ insert_calls ?_
    · rw [Server.hangUp, setTask_other _ other.symm]
      exact new
    · simp only [Server.insert, entry, Server.setTask]
      rfl
    · simp only [Server.insert, entry, Server.setTask, Server.hangUp]
      rw [Function.update_of_ne other]
      exact Function.update_comm other.symm _ _ _

end Registered

namespace Cleaned

theorem empty : Cleaned (Server.empty : Server A B W G) := fun _ _ task => by cases task

/-- An operation that tells tasks something, and lists nobody new. -/
theorem told (h : Cleaned s) (signals : Signals s s') (listed : s'.listed.Sublist s.listed) :
    Cleaned s' := by
  intro n t' task cleaned mem
  obtain ⟨t, before, told⟩ := signals.source task
  refine h n t before ?_ (listed.subset mem)
  rcases told with rfl | ⟨-, rx, rfl, -⟩
  · exact cleaned
  · exact cleaned

/-- A task goes on, or goes, and has not taken its entry out since. -/
theorem setTask (h : Cleaned s) {t' : Option (Task A B W G)}
    (kept : ∀ u, t' = some u → u.cleaned = true → n ∉ s.listed) : Cleaned (s.setTask n t') := by
  intro m u task cleaned
  by_cases same : m = n
  · subst same
    rw [setTask_self] at task
    exact kept u task cleaned
  · rw [setTask_other _ same] at task
    exact h m u task cleaned

/-- The entry under an id is taken out, where the tasks that have taken theirs out and are still listed
have this id. -/
theorem discard (h : ∀ m t, s.tasks m = some t → t.cleaned = true → m ∈ s.listed → t.id = id)
    (map : Registered s) : Cleaned (s.discard id) := by
  intro m t' after cleaned mem
  obtain ⟨t, before, told⟩ := Signals.discard.source after
  have same : t'.cleaned = t.cleaned ∧ t'.id = t.id := by
    rcases told with rfl | ⟨-, rx, rfl, -⟩
    · exact ⟨rfl, rfl⟩
    · exact ⟨rfl, rfl⟩
  obtain ⟨⟨id', m⟩, entry, rfl⟩ := List.mem_map.mp mem
  have mine : id' = id := (map.discard.same_id after entry).trans (same.2.trans
    (h m t before (same.1 ▸ cleaned) (listed_discard.subset mem)))
  subst mine
  exact Registered.discard_unlisted entry

/-- A task takes its entry out. -/
theorem cleanUp (h : Cleaned s) (map : Registered s) (n : Nat) : Cleaned (s.cleanUp n).2 := by
  unfold Server.cleanUp
  split
  · next id copying timer res task =>
    have marked : Registered (s.setTask n (some ⟨id, copying, timer, some res, true⟩)) :=
      map.stays task rfl Iff.rfl
    refine discard (fun m t before cleaned mem => ?_) marked
    by_cases same : m = n
    · subst same
      rw [setTask_self] at before
      cases before
      rfl
    · rw [setTask_other _ same] at before
      exact absurd mem (h m t before cleaned)
  · exact h

theorem leave (h : Cleaned s) (n : Nat) : Cleaned (s.leave n).2 := by
  unfold Server.leave
  split
  · exact h.setTask fun _ none => by cases none
  · exact h

/-- A new task. -/
theorem insert (h : Cleaned s) {t : Task A B W G} (uncleaned : t.cleaned = false) :
    Cleaned (({ s with next := s.next + 1 }.setTask s.next (some t)).insert id s.next) := by
  obtain ⟨rest, list, kept⟩ : ∃ rest,
      (({ s with next := s.next + 1 }.setTask s.next (some t)).insert id s.next).listed =
        s.next :: rest ∧ rest.Sublist s.listed := listed_insert
  intro m t' after cleaned mem
  obtain ⟨u, before, told⟩ := Signals.insert.source after
  have flag : t'.cleaned = u.cleaned := by
    rcases told with rfl | ⟨-, rx, rfl, -⟩ <;> rfl
  by_cases same : m = s.next
  · subst same
    rw [setTask_self] at before
    cases before
    rw [flag, uncleaned] at cleaned
    cases cleaned
  · rw [setTask_other _ same] at before
    rw [list] at mem
    exact h m u before (flag ▸ cleaned) (kept.subset ((List.mem_cons.mp mem).resolve_left same))

end Cleaned

/-! ## What calls reply -/

/-- The calls that came to send to a task which had gone. -/
def missed (misses : Nat → Bool) (s : Paced (Server A B W G)) : Event W → Nat → Bool
  | .advance call =>
    match (s.state.calls call).sends with
    | some (tx, _) => Function.update misses call (misses call || (s.state.tasks tx).isNone)
    | none => misses
  | _ => misses

/-- A call that has not replied knows whether it came too late. -/
def Counts (s : Server A B W G) (misses : Nat → Bool) : Prop :=
  ∀ call, (∀ res, s.calls call ≠ .replied res) → misses call = (s.calls call).failed

/-- What the server answers. A call that names a connection finds it if its task can be told to stop and
no other call has its sender; a call replies in its last step, with an error if it came too late; and a
poll comes back. -/
def Replies (s s' : Server A B W G) (misses : Nat → Bool) (r : Poll IoError Response) : Event W → Prop
  | .shutdown call id reason => s.calls call = .idle →
    (∃ n, s.Listens id n ∧ ¬s.Held n ∧ s'.calls call = .sending reason n) ∧ r = .ok .silent ∨
      (∀ n, s.Listens id n → s.Held n) ∧ r = .ok (.status (.error .notFound))
  | .advance call =>
    r = .ok (if (s.calls call).last then .status (Call.response (misses call)) else .silent)
  | .poll _ => Answered r
  | _ => True

section Counting

variable {misses : Nat → Bool} {reason : String}

/-- A sender that a call has reaches its task unless that has gone. -/
theorem Registered.sent (h : Registered s) (held : s.Held n) :
    (s.send n err).1 = !(s.tasks n).isNone := by
  rcases h.held n held with none | listening
  · have silent : (s.send n err).1 = false := by simp only [send, none]
    rw [silent, none]
    rfl
  · have sent : (s.send n err).1 = true := send_fst.mpr listening
    obtain ⟨id, t, task, -⟩ := listening
    rw [sent, task]
    rfl

/-- A call goes on, and the others do not. -/
theorem Counts.setCall (h : Counts s misses) {misses' : Nat → Bool} {c : Call} (calls : s'.calls = s.calls)
    (others : ∀ other, other ≠ call → misses' other = misses other)
    (mine : (∀ res, c ≠ .replied res) → misses' call = c.failed) :
    Counts (s'.setCall call c) misses' := by
  intro other open_
  by_cases same : other = call
  · subst same
    rw [setCall_self] at open_ ⊢
    exact mine open_
  · rw [setCall_other _ same, calls] at open_ ⊢
    rw [others other same]
    exact h other open_

theorem Counts.congr (h : Counts s misses) (calls : s'.calls = s.calls) : Counts s' misses := by
  unfold Counts
  rw [calls]
  exact h

/-- A call that finds the connection it names. -/
theorem shutdown_found (idle : s.calls call = .idle) (entry : s.connections.lookup id = some tx) :
    s.shutdownConnection call id reason =
      (.silent, (s.forget id).setCall call (.sending reason tx)) := by
  simp only [shutdownConnection, idle, removeConnection, entry]

theorem shutdown_notFound (idle : s.calls call = .idle) (unlisted : s.connections.lookup id = none) :
    s.shutdownConnection call id reason =
      (.status (.error .notFound), s.setCall call (.replied (.error .notFound))) := by
  simp only [shutdownConnection, idle, removeConnection, unlisted]

/-- A call that names a connection finds one whose sender is in the map, or none. -/
theorem Registered.shutdown_replies (h : Registered s) (idle : s.calls call = .idle) (id : ConnId)
    (reason : String) :
    (∃ n, s.Listens id n ∧ ¬s.Held n ∧
        (s.shutdownConnection call id reason).2.calls call = .sending reason n) ∧
        (s.shutdownConnection call id reason).1 = .silent ∨
      (∀ n, s.Listens id n → s.Held n) ∧
        (s.shutdownConnection call id reason).1 = .status (.error .notFound) := by
  cases entry : s.connections.lookup id with
  | none =>
    rw [shutdown_notFound idle entry]
    refine .inr ⟨fun n listens => ?_, rfl⟩
    by_contra unheld
    rw [h.mem_iff.mp ((h.listed id n).mpr ⟨listens, unheld⟩)] at entry
    cases entry
  | some tx =>
    rw [shutdown_found idle entry]
    obtain ⟨listens, unheld⟩ := (h.listed id tx).mp (h.mem_iff.mpr entry)
    exact .inl ⟨⟨tx, listens, unheld, setCall_self _⟩, rfl⟩

/-- An idle call has not come too late. -/
theorem Counts.idle (h : Counts s misses) (idle : s.calls call = .idle) : misses call = false := by
  rw [h call fun res => by rw [idle]; nofun, idle]
  rfl

theorem Counts.shutdown (h : Counts s misses) :
    Counts (s.shutdownConnection call id reason).2 misses := by
  by_cases idle : s.calls call = .idle
  · cases entry : s.connections.lookup id with
    | none =>
      rw [shutdown_notFound idle entry]
      exact h.setCall rfl (fun _ _ => rfl) fun _ => h.idle idle
    | some tx =>
      rw [shutdown_found idle entry]
      have forgot : Counts (s.forget id) misses := h.congr rfl
      exact forgot.setCall rfl (fun _ _ => rfl) fun _ => h.idle idle
  · unfold shutdownConnection
    split
    · next now => exact absurd now idle
    · exact h

theorem Counts.shutdownAll (h : Counts s misses) :
    Counts (s.shutdownAllConnections call reason).2 misses := by
  unfold shutdownAllConnections
  split
  · next idle => exact h.setCall rfl (fun _ _ => rfl) fun _ => h.idle idle
  · exact h

theorem Counts.snapshot (h : Counts s misses) {ids : List ConnId} :
    Counts (s.snapshot call ids).2 misses := by
  unfold Server.snapshot
  split
  · next iterating =>
    refine h.setCall rfl (fun _ _ => rfl) fun _ => ?_
    rw [h call fun res => by rw [iterating]; nofun, iterating]
    rfl
  · exact h

theorem missed_sends {k : Nat} (sends : (s.calls call).sends = some (tx, reason)) :
    missed misses ⟨k, s⟩ (.advance call : Event W) =
      Function.update misses call (misses call || (s.tasks tx).isNone) := by
  simp only [missed, sends]

theorem missed_none {k : Nat} (sends : (s.calls call).sends = none) :
    missed misses ⟨k, s⟩ (.advance call : Event W) = misses := by
  simp only [missed, sends]

/-- What a call's next step has to leave and to answer. -/
def Advances (s : Server A B W G) (call : Nat) (misses : Nat → Bool)
    (left : Response × Server A B W G) : Prop :=
  Counts left.2 misses ∧
    left.1 = if (s.calls call).last then .status (Call.response (misses call)) else .silent

/-- A call sends next, and `failed` before. -/
theorem Counts.sends (h : Counts s misses) (map : Registered s) {k : Nat}
    (sends : (s.calls call).sends = some (tx, reason)) (mine : tx ∈ (s.calls call).hand) :
    missed misses ⟨k, s⟩ (.advance call : Event W) =
      Function.update misses call
        ((s.calls call).failed || !(s.send tx (shutdownError reason)).1) := by
  have open_ : ∀ res, s.calls call ≠ .replied res := by
    intro res replied
    rw [replied] at sends
    cases sends
  rw [missed_sends sends, map.sent ⟨call, mine⟩, Bool.not_not, h call open_]

theorem Counts.before {c : Call} (h : Counts s misses) {call : Nat} (now : s.calls call = c)
    (waits : ∀ res, c ≠ .replied res) : misses call = c.failed := by
  subst now
  exact h call waits

/-- **The next step of a call**, which replies if it is the last, with an error if a send came too
late. -/
theorem Counts.advance (h : Counts s misses) (map : Registered s) (k call : Nat) :
    Advances s call (missed misses ⟨k, s⟩ (.advance call : Event W)) (s.advance call) := by
  have others : ∀ (late : Bool) (other : Nat), other ≠ call →
      Function.update misses call late other = misses other :=
    fun _ _ ne => Function.update_of_ne ne _ _
  cases c : s.calls call with
  | sending reason tx =>
    have sends : (s.calls call).sends = some (tx, reason) := by
      rw [c]
      rfl
    have late := h.sends map (k := k) sends (by rw [c]; exact List.mem_singleton_self tx)
    rw [late, c]
    simp only [Server.advance, c]
    refine ⟨h.setCall send_calls (others _) fun open_ => absurd rfl (open_ _), ?_⟩
    rw [c, Function.update_self]
    rfl
  | removing reason ids connections =>
    have none : misses call = false := h.before c (by rintro _ ⟨⟩)
    rw [missed_none (by rw [c]; rfl)]
    cases ids with
    | nil =>
      simp only [Server.advance, c]
      exact ⟨h.setCall rfl (fun _ _ => rfl) fun _ => none, by rw [c]; rfl⟩
    | cons id ids =>
      simp only [Server.advance, c, removeConnection]
      cases entry : s.connections.lookup id with
      | none => exact ⟨h.setCall rfl (fun _ _ => rfl) fun _ => none, by rw [c]; rfl⟩
      | some tx =>
        have forgot : Counts (s.forget id) misses := h.congr rfl
        exact ⟨forgot.setCall rfl (fun _ _ => rfl) fun _ => none, by rw [c]; rfl⟩
  | sendingAll reason connections failed =>
    cases connections with
    | nil =>
      have known : misses call = failed := h.before c (by rintro _ ⟨⟩)
      rw [missed_none (by rw [c]; rfl)]
      simp only [Server.advance, c]
      refine ⟨h.setCall rfl (fun _ _ => rfl) fun open_ => absurd rfl (open_ _), ?_⟩
      rw [c, known]
      rfl
    | cons tx connections =>
      have sends : (s.calls call).sends = some (tx, reason) := by
        rw [c]
        rfl
      have late := h.sends map (k := k) sends (by rw [c]; exact List.mem_cons_self)
      rw [late, c]
      simp only [Server.advance, c]
      refine ⟨h.setCall send_calls (others _) fun _ => ?_, ?_⟩
      · rw [Function.update_self]
        rfl
      · rw [c]
        rfl
  | _ =>
    rw [missed_none (by rw [c]; rfl)]
    simp only [Server.advance, c]
    exact ⟨h, by rw [c]; rfl⟩

end Counting

/-! ## Every run -/

variable [SmallRng G] [Peer W] {there : Transfer A (Shutdowner (Pipeline W G)) (Pipeline W G)}
  {back : Transfer B (Pipeline W G) (Shutdowner (Pipeline W G))} {env : World} {k : Nat}

/-- A poll of a task that keeps its books leaves the task it is, as listed as it is, and its channel as
open as it was. -/
theorem pollTask_stays (copiesThere : there.Copies) (copiesBack : back.Copies) {t : Task A B W G}
    (task : s.tasks n = some t) (running : t.res = none)
    (booked : Task.KeepsBooks there back env k t) :
    (pollTask there back n).wp env k s fun r s' _ => ∃ copied t', r = .ok (.polled copied) ∧
      s' = s.setTask n (some t') ∧ Calm copied ∧ t'.id = t.id ∧ t'.cleaned = t.cleaned ∧
        (t'.errRx = some .waiting ↔ t.errRx = some .waiting) := by
  obtain ⟨prob, abides⟩ := booked
  have upheld : Upholds env (Pipeline.law (G := G) env prob (Pipeline.books W)) :=
    Pipeline.upholds (Pipeline.books_upheld env)
  refine pollTask_of task running (fun _ _ h => h) ?_
  refine ends_mono (abides.polled copiesThere copiesBack upheld upheld running) ?_ ?_ ?_
  · exact fun _ _ _ _ left => left.2
  · exact fun _ _ _ left => ⟨fun quiet => (left.1 quiet).2, fun rings => (left.2 rings).2⟩
  · exact fun _ _ _ _ left => left.2

/-- What a run between fresh sockets keeps: the map, the numbers of the tasks, and their books. -/
structure Invariants (there : Transfer A (Shutdowner (Pipeline W G)) (Pipeline W G))
    (back : Transfer B (Pipeline W G) (Shutdowner (Pipeline W G))) (env : World) (k : Nat)
    (s : Server A B W G) (misses : Nat → Bool) : Prop where
  registered : Registered s
  cleaned : Cleaned s
  counts : Counts s misses
  orderly : Orderly s
  booked : Tasked (fun _ => Task.KeepsBooks there back env) k s

omit [SmallRng G] in
theorem invariants_empty : Invariants there back env k empty fun _ => false :=
  ⟨.empty, .empty, fun _ _ => rfl, ⟨_, Sound.empty⟩, fun n t task => by cases task⟩

variable (cfg : Config G) {misses : Nat → Bool}

/-- **One event** keeps the map, and is answered. -/
theorem handle_registered (copiesThere : there.Copies) (copiesBack : back.Copies) (ev : Event W)
    (h : Invariants there back env k s misses) :
    (handle cfg there back ev).wp env k s fun r s' _ =>
      Registered s' ∧ Cleaned s' ∧ Counts s' (missed misses ⟨k, s⟩ ev) ∧
        Replies s s' (missed misses ⟨k, s⟩ ev) r ev := by
  obtain ⟨map, clean, counts, ⟨marks, sound⟩, booked⟩ := h
  cases ev with
  | accept id downstream upstream knobs =>
    have unheld : ¬s.Held s.next := fun ⟨call, mem⟩ =>
      Nat.lt_irrefl _ (sound.taken call s.next mem).1
    refine accept_wp.mpr ⟨?_, clean.insert rfl, counts.congr insert_calls, trivial⟩
    exact map.insert (t := newTask cfg there back env k id downstream upstream knobs)
      (sound.fresh _ (Nat.le_refl _)) unheld rfl
  | shutdown call id reason =>
    have step : Steps s call (s.shutdownConnection call id reason).2 := .shutdown
    refine ⟨map.steps step, clean.told (.of_steps step) step.listed, counts.shutdown, fun idle => ?_⟩
    exact (map.shutdown_replies idle id reason).imp (fun ⟨found, silent⟩ => ⟨found, congrArg Poll.ok silent⟩)
      fun ⟨unlisted, notFound⟩ => ⟨unlisted, congrArg Poll.ok notFound⟩
  | shutdownAll call reason =>
    have step : Steps s call (s.shutdownAllConnections call reason).2 := .shutdownAll
    exact ⟨map.steps step, clean.told (.of_steps step) step.listed, counts.shutdownAll, trivial⟩
  | snapshot call ids =>
    have step : Steps s call (s.snapshot call ids).2 := .snapshot
    exact ⟨map.steps step, clean.told (.of_steps step) step.listed, counts.snapshot, trivial⟩
  | advance call =>
    have step : Steps s call (s.advance call).2 := .advance
    obtain ⟨counts, reply⟩ := counts.advance map k call (W := W)
    exact ⟨map.steps step, clean.told (.of_steps step) step.listed, counts, congrArg Poll.ok reply⟩
  | poll n =>
    by_cases idle : ∀ t, s.tasks n = some t → t.res ≠ none
    · refine wp_mono (pollTask_silent there back env k idle) ?_
      rintro _ _ _ ⟨rfl, rfl⟩
      exact ⟨map, clean, counts, .silent, rfl, fun _ h => by cases h⟩
    · simp only [not_forall, not_not] at idle
      obtain ⟨t, task, running⟩ := idle
      refine wp_mono (pollTask_stays copiesThere copiesBack task running (booked n t task)) ?_
      rintro _ _ _ ⟨copied, t', rfl, rfl, calm, id, cleaned, waits⟩
      refine ⟨map.stays task id waits, clean.setTask ?_, counts, _, rfl, ?_⟩
      · rintro _ ⟨⟩ flag
        exact clean n t task (cleaned ▸ flag)
      · rintro _ ⟨⟩
        exact calm
  | cleanUp n =>
    refine ⟨map.cleanUp n, clean.cleanUp map n, counts.congr ?_, trivial⟩
    show (s.cleanUp n).2.calls = s.calls
    unfold cleanUp
    split
    · exact discard_calls
    · rfl
  | leave n =>
    refine ⟨?_, clean.leave n, counts.congr ?_, trivial⟩
    · show Registered (s.leave n).2
      unfold leave
      split
      · next task => exact map.leaves (clean n _ task rfl)
      · exact map
    · show (s.leave n).2.calls = s.calls
      unfold leave
      split <;> rfl

/-- One event. -/
theorem handle_invariants (copiesThere : there.Copies) (copiesBack : back.Copies) {ev : Event W}
    (fresh : FreshSockets ev) (h : Invariants there back env k s misses) :
    (handle cfg there back ev).wp env k s fun r s' k' =>
      Invariants there back env k' s' (missed misses ⟨k, s⟩ ev) ∧
        Replies s s' (missed misses ⟨k, s⟩ ev) r ev ∧ Answered r := by
  have kept := handle_registered cfg copiesThere copiesBack ev h
  obtain ⟨registered, cleaned, counts, orderly, booked⟩ := h
  have orderly' : (handle cfg there back ev).wp env k s fun _ s' _ => Orderly s' := by
    show Orderly ((machine cfg there back env).step ⟨k, s⟩ ev).2.state
    exact orderly_step ⟨k, s⟩ ev orderly
  have welcome : Welcomes cfg there back env (Task.KeepsBooks there back env) k ev :=
    welcomes_fresh copiesThere copiesBack fresh k
  obtain ⟨marks, sound⟩ := orderly
  have booked' := handle_tasked (fun _ => TaskLaw.keepsBooks copiesThere copiesBack) booked ev
    welcome
  refine wp_mono (wp_and (wp_and kept orderly') booked') ?_
  rintro r s' k' ⟨⟨⟨registered, cleaned, counts, replies⟩, orderly⟩, booked, answered⟩
  exact ⟨⟨registered, cleaned, counts, orderly, booked⟩, replies, answered⟩

variable (there back env) in
/-- The server, with the calls that came to send to a task which had gone. -/
def belated : Machine (Paced (Server A B W G) × (Nat → Bool)) (Event W) (Poll IoError Response) :=
  (machine cfg there back env).watched missed

/-- **The map and the API.** In every run, even one that draws an id twice: the map lists, each once,
the connections whose tasks can still be told to stop and whose sender no call has taken out; a
shutdown of one finds it there, or is not found; a call replies in its last step, and fails inside the
server exactly if a task it had taken out had gone when it came to send; and no poll of a task
unwinds. -/
theorem registry (copiesThere : there.Copies) (copiesBack : back.Copies) (k : Nat)
    (events : List (Event W)) (fresh : ∀ ev ∈ events, FreshSockets ev) :
    (belated there back env cfg).Throughout (fun _ s => Registered s.1.state)
        (⟨k, empty⟩, fun _ => false) events ∧
      (belated there back env cfg).Allowed
        (fun _ s ev => Replies s.1.state ((belated there back env cfg).step s ev).2.1.state
          ((belated there back env cfg).step s ev).2.2 ((belated there back env cfg).step s ev).1 ev)
        (⟨k, empty⟩, fun _ => false) events := by
  have known : (belated there back env cfg).Allowed (fun _ _ ev => FreshSockets ev)
      (⟨k, empty⟩, fun _ => false) events := Machine.allowedFrom_of_mem fresh
  have start : Invariants there back env k (empty : Server A B W G) fun _ => false := invariants_empty
  have step : ∀ (s : Paced (Server A B W G) × (Nat → Bool)) (ev : Event W),
      Invariants there back env s.1.moment s.1.state s.2 → FreshSockets ev →
        Invariants there back env ((belated there back env cfg).step s ev).2.1.moment
            ((belated there back env cfg).step s ev).2.1.state
            ((belated there back env cfg).step s ev).2.2 ∧
          Replies s.1.state ((belated there back env cfg).step s ev).2.1.state
            ((belated there back env cfg).step s ev).2.2 ((belated there back env cfg).step s ev).1 ev ∧
          Answered ((belated there back env cfg).step s ev).1 :=
    fun s ev h fresh => machine_step (handle_invariants cfg copiesThere copiesBack fresh h)
  refine ⟨.imp (P := fun _ s => Invariants there back env s.1.moment s.1.state s.2) ?_ ?_ start known,
    .imp (P := fun _ s => Invariants there back env s.1.moment s.1.state s.2) ?_ ?_ start known⟩
  · exact fun _ s ev h fresh => (step s ev h fresh).1
  · exact fun _ s ev h fresh => (step s ev h fresh).1.registered
  · exact fun _ s ev h fresh => (step s ev h fresh).1
  · exact fun _ s ev h fresh => (step s ev h fresh).2.1

/-- An id that is drawn twice; a call that has taken another connection out, and comes to send when that
has gone; and one that names it after that. -/
def drawnTwice : List (Event Line) :=
  [.accept "a" (line [none]) (line [none]) knobsOff, .accept "a" (line [none]) (line [none]) knobsOff,
    .accept "b" (line []) (line []) knobsOff, .poll 0, .cleanUp 0, .leave 0, .shutdownAll 0 "closing",
    .snapshot 0 ["a", "b"], .advance 0, .advance 0, .poll 2, .cleanUp 2, .leave 2, .advance 0,
    .advance 0, .advance 0, .shutdown 1 "b" "too late"]

theorem drawnTwice_registered :
    (belated (CopyBuffer.transfer _ _) (CopyBuffer.transfer _ _) World.still plain).Throughout
        (fun _ s => Registered s.1.state) (⟨0, empty⟩, fun _ => false) drawnTwice ∧
      (belated (CopyBuffer.transfer _ _) (CopyBuffer.transfer _ _) World.still plain).Allowed
        (fun _ s ev => Replies s.1.state
          ((belated (CopyBuffer.transfer _ _) (CopyBuffer.transfer _ _) World.still plain).step s ev).2.1.state
          ((belated (CopyBuffer.transfer _ _) (CopyBuffer.transfer _ _) World.still plain).step s ev).2.2
          ((belated (CopyBuffer.transfer _ _) (CopyBuffer.transfer _ _) World.still plain).step s ev).1
          ev) (⟨0, empty⟩, fun _ => false) drawnTwice := by
  refine registry plain CopyBuffer.copies CopyBuffer.copies 0 drawnTwice ?_
  simp only [drawnTwice, List.forall_mem_cons]
  exact ⟨⟨⟨rfl, rfl⟩, rfl, rfl⟩, ⟨⟨rfl, rfl⟩, rfl, rfl⟩, ⟨⟨rfl, rfl⟩, rfl, rfl⟩, trivial, trivial, trivial,
    trivial, trivial, trivial, trivial, trivial, trivial, trivial, trivial, trivial, trivial, trivial,
    fun ev none => by cases none⟩

/-- The connection has gone, so the call fails. -/
example : ((((belated (CopyBuffer.transfer _ _) (CopyBuffer.transfer _ _) World.still plain).run
      (⟨0, empty⟩, fun _ => false) drawnTwice).1.map Prod.snd).drop 15).take 1 =
    [.ok (.status (.error .internal))] := rfl

end Server

end Trixter
