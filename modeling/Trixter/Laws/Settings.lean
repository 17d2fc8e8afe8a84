import Trixter.Laws.Node
import Trixter.Laws.Wiring

/-!
# Where the settings go

`settings_reach`: in every run, what the API shows of a listed connection is what its adapters load, in
both directions, whatever was set since it was accepted. Its tasks keep the knobs that the map gave out
for them, so a new setting reaches them and nobody else's.

`runs_server`: the process refines its server, step by step, with the answers. The map of the one has
settings and senders, that of the other senders alone.
-/

namespace Trixter.Node

open Trixter.Lib Polling

variable {A B W G : Type}

/-! ## The server in the process -/

section Served

variable [SmallRng G] {args : Args} {baseRng : G}
  {there : Transfer A (Shutdowner (Pipeline W G)) (Pipeline W G)}
  {back : Transfer B (Pipeline W G) (Shutdowner (Pipeline W G))} {env : World}

/-- What is seen of the process. -/
def view (s : Paced (Node A B W G)) : Paced (Server A B W G) := ⟨s.moment, s.state.server⟩

/-- The server's step beside one of the process. -/
theorem step_shows {s : Paced (Node A B W G)} {ev : Event W} {sev : Server.Event W}
    (asked : serverEvent args s.state ev = some sev) :
    ((Server.machine (args.config baseRng) there back env).step (view s) sev).2 =
        view ((machine args baseRng there back env).step s ev).2 ∧
      ((Server.machine (args.config baseRng) there back env).step (view s) sev).1.map .of =
        ((machine args baseRng there back env).step s ev).1 := by
  obtain ⟨answer, server, moment⟩ :=
    wp_iff.mp (handle_shows there back env args baseRng (k := s.moment) asked)
  refine ⟨?_, answer.symm⟩
  show (⟨_, _⟩ : Paced (Server A B W G)) = ⟨_, _⟩
  rw [Paced.mk.injEq]
  exact ⟨moment.symm, server.symm⟩

/-- An event without one. -/
theorem step_unseen {s : Paced (Node A B W G)} {ev : Event W} (asked : serverEvent args s.state ev = none) :
    view s = view ((machine args baseRng there back env).step s ev).2 := by
  obtain ⟨server, moment⟩ := wp_iff.mp (handle_unseen there back env args baseRng (k := s.moment) asked)
  show view s = ⟨_, _⟩
  rw [view, Paced.mk.injEq]
  exact ⟨moment.symm, server.symm⟩

/-- **The process refines its server.** -/
theorem refines_server : (machine args baseRng there back env).Refines
    (Server.machine (args.config baseRng) there back env) view (Poll.map Response.of)
      fun s ev => (serverEvent args s.state ev).toList where
  state s ev := by
    cases asked : serverEvent args s.state ev with
    | none => exact step_unseen asked
    | some sev => exact (step_shows asked).1
  answers s ev := by
    cases asked : serverEvent args s.state ev with
    | none => exact List.nil_sublist _
    | some sev =>
      show List.Sublist [Poll.map Response.of _] _
      rw [step_shows asked |>.2]

variable (args baseRng there back env) in
/-- **A run of the process is a run of its server**, of the events that concern it, with the knobs that
the map of settings gives out, and with answers that are the process's; and it is between fresh sockets if
the process's are. -/
theorem runs_server [Peer W] (k : Nat) (events : List (Event W)) :
    ∃ served : List (Server.Event W),
      ((Server.machine (args.config baseRng) there back env).run ⟨k, .empty⟩ served).2 =
          view ((machine args baseRng there back env).run ⟨k, empty⟩ events).2 ∧
        (((Server.machine (args.config baseRng) there back env).run ⟨k, .empty⟩ served).1.map
            fun e => e.2.map Response.of).Sublist
          (((machine args baseRng there back env).run ⟨k, empty⟩ events).1.map Prod.snd) ∧
        ((∀ ev ∈ events, Admits ev) → ∀ ev ∈ served, Server.FreshSockets ev) := by
  have refines : (machine args baseRng there back env).Refines _ view _ _ := refines_server
  obtain ⟨state, answers⟩ := refines.run ⟨k, empty⟩ events
  refine ⟨_, state, answers, Machine.mem_shadow fun s ev admits sev asked => ?_⟩
  exact fresh_of admits (Option.mem_toList.mp asked)

theorem runs_server_session :
    ∃ served : List (Server.Event Line),
      ((Server.machine (calmArgs.config Server.plain.baseRng) (CopyBuffer.transfer _ _)
          (CopyBuffer.transfer _ _) World.still).run ⟨0, .empty⟩ served).2 =
        view ((machine calmArgs Server.plain.baseRng (CopyBuffer.transfer _ _) (CopyBuffer.transfer _ _)
          World.still).run ⟨0, empty⟩ session).2 ∧
      (((Server.machine (calmArgs.config Server.plain.baseRng) (CopyBuffer.transfer _ _)
          (CopyBuffer.transfer _ _) World.still).run ⟨0, .empty⟩ served).1.map
            fun e => e.2.map Response.of).Sublist
        (((machine calmArgs Server.plain.baseRng (CopyBuffer.transfer _ _) (CopyBuffer.transfer _ _)
          World.still).run ⟨0, empty⟩ session).1.map Prod.snd) ∧
      ∀ ev ∈ served, Server.FreshSockets ev := by
  obtain ⟨served, state, answers, fresh⟩ := runs_server calmArgs Server.plain.baseRng
    (CopyBuffer.transfer _ _) (CopyBuffer.transfer _ _) World.still 0 session
  exact ⟨served, state, answers, fresh session_admits⟩

omit [SmallRng G] in
/-- Only an accepted connection is one to the server. -/
theorem serverEvent_accept {s : Node A B W G} {ev : Event W} {id : ConnId} {d u : W} {knobs : Knobs}
    (asked : serverEvent args s ev = some (.accept id d u knobs)) : ∃ addr, ev = .accept id addr d u := by
  cases ev with
  | accept id addr d u =>
    obtain ⟨first, -, same⟩ := Option.map_eq_some_iff.mp asked
    cases same
    exact ⟨addr, rfl⟩
  | request call req => cases req <;> cases asked
  | _ => cases asked

/-- A law that every task keeps is kept by an event that brings it for a new one. -/
theorem tasked_step {I : Nat → Nat → Task A B W G → Prop} (law : ∀ n, Server.TaskLaw there back env (I n))
    {s : Paced (Node A B W G)} {ev : Event W} (h : Server.Tasked I s.moment s.state.server)
    (welcome : ∀ sev ∈ serverEvent args s.state ev, Server.Welcomes (args.config baseRng) there back env
      (I s.state.server.next) s.moment sev) :
    Server.Tasked I ((machine args baseRng there back env).step s ev).2.moment
      ((machine args baseRng there back env).step s ev).2.state.server := by
  show Server.Tasked I (view ((machine args baseRng there back env).step s ev).2).moment
    (view ((machine args baseRng there back env).step s ev).2).state
  cases asked : serverEvent args s.state ev with
  | none =>
    rw [← step_unseen asked]
    exact h
  | some sev =>
    rw [← (step_shows asked).1]
    have kept : (Server.handle (args.config baseRng) there back sev).wp env s.moment s.state.server
        fun r s' k' => Server.Tasked I k' s' ∧ Server.Answered r :=
      Server.handle_tasked law h sev (welcome sev asked)
    exact kept.1

end Served

/-! ## Who reads the settings -/

/-- The knobs with which the tasks were accepted: each task keeps its own, and those of a listed
connection are what its handles point at. -/
def Wires [Peer W] (there : Transfer A (Shutdowner (Pipeline W G)) (Pipeline W G))
    (back : Transfer B (Pipeline W G) (Shutdowner (Pipeline W G))) (env : World)
    (s : Paced (Node A B W G)) : Prop :=
  ∃ wiring : Nat → Knobs,
    Server.Tasked (fun n => Task.Wired there back env (wiring n)) s.moment s.state.server ∧
      ∀ id conn, s.state.api.connections.lookup id = some conn → conn.toHandles.knobs = wiring conn.tx

section Listed

variable {api : ApiState} {id id' : ConnId} {conn : ConnectionState}

theorem lookup_removed (entry : (api.removeConnection id').2.connections.lookup id = some conn) :
    api.connections.lookup id = some conn := by
  unfold ApiState.removeConnection at entry
  split at entry
  · by_cases same : id = id'
    · subst same
      rw [Keyed.lookup_without_self] at entry
      cases entry
    · rwa [Keyed.lookup_without_of_ne same] at entry
  · exact entry

theorem lookup_removedEach {ids : List ConnId}
    (entry : (ApiState.removeEach ids api).2.connections.lookup id = some conn) :
    api.connections.lookup id = some conn := by
  induction ids generalizing api with
  | nil => exact entry
  | cons id' ids ih =>
    have left : (ApiState.removeEach (id' :: ids) api).2 =
        (ApiState.removeEach ids (api.removeConnection id').2).2 := by
      rw [ApiState.removeEach]
      rcases api.removeConnection id' with ⟨_ | _, _⟩ <;> rfl
    rw [left] at entry
    exact lookup_removed (ih entry)

/-- An operation that inserts nobody lists nothing new. -/
theorem lookup_step {o : ApiState.Op} (others : ∀ connInfo tx first, o ≠ .insert connInfo tx first)
    (entry : (api.step o).2.connections.lookup id = some conn) :
    api.connections.lookup id = some conn := by
  cases o with
  | insert connInfo tx first => exact absurd rfl (others connInfo tx first)
  | set id' value =>
    change (ApiState.setter id' value api).2.connections.lookup id = some conn at entry
    rw [ApiState.setter_eq, ApiState.withConn] at entry
    cases found : api.connections.lookup id' with
    | none => rwa [found] at entry
    | some conn' => rwa [found] at entry
  | removeConnection id' => exact lookup_removed entry
  | removeAll => exact lookup_removedEach entry
  | all => exact entry

/-- Only an accepted connection is inserted. -/
theorem op_insert {args : Args} {s : Node A B W G} {ev : Event W}
    (others : ∀ id addr d u, ev ≠ .accept id addr d u) {connInfo : ConnectionInfo} {tx : Nat}
    {first : FirstKnobs} : op args s ev ≠ some (.insert connInfo tx first) := by
  cases ev with
  | accept id addr d u => exact absurd rfl (others id addr d u)
  | request call req =>
    show Request.op (s.calls call) req ≠ _
    unfold Request.op
    split
    · nofun
    · nofun
    · split <;> nofun
    · nofun
  | advance call =>
    show callOp (s.calls call) ≠ _
    unfold callOp
    split <;> nofun
  | cleanUp n =>
    intro asked
    obtain ⟨t, -, asked⟩ := Option.bind_eq_some_iff.mp asked
    unfold taskOp at asked
    split at asked <;> cases asked
  | _ => nofun

/-- An event that accepts nobody lists nothing new. -/
theorem lookup_settled {args : Args} {s : Node A B W G} {ev : Event W}
    (others : ∀ id addr d u, ev ≠ .accept id addr d u)
    (entry : (s.settled (op args s ev)).connections.lookup id = some conn) :
    s.api.connections.lookup id = some conn := by
  cases asked : op args s ev with
  | none => rwa [asked] at entry
  | some o =>
    rw [asked] at entry
    refine lookup_step ?_ entry
    rintro connInfo tx first rfl
    exact op_insert others asked

end Listed

section Wired

variable [Peer W] [SmallRng G] {there : Transfer A (Shutdowner (Pipeline W G)) (Pipeline W G)}
  {back : Transfer B (Pipeline W G) (Shutdowner (Pipeline W G))} {env : World} {args : Args}
  {baseRng : G} {s : Paced (Node A B W G)} {ghost : Ghost}

omit [SmallRng G] in
/-- A listed connection has a task. -/
theorem Sound.task (h : Sound there back env s.moment s.state ghost) {id : ConnId}
    {conn : ConnectionState} (entry : s.state.api.connections.lookup id = some conn) :
    ∃ t, s.state.tasks conn.tx = some t ∧ t.id = id := by
  have sender : (id, conn.tx) ∈ s.state.api.senders :=
    List.mem_map_of_mem (f := fun e : ConnId × ConnectionState => (e.1, e.2.tx))
      (Keyed.mem_of_lookup entry)
  obtain ⟨⟨t, task, same, -⟩, -⟩ := (h.tasks.registered.listed id conn.tx).mp sender
  exact ⟨t, task, same⟩

/-- A new task is wired to the handles that the map gives out for it. -/
theorem wires_accept (copiesThere : there.Copies) (copiesBack : back.Copies) {first : FirstKnobs}
    (known : args.firstKnobs = .ok first) {id : ConnId} {addr : String} {downstream upstream : W}
    (down : Peer.Fresh downstream) (up : Peer.Fresh upstream)
    (sound : Sound there back env s.moment s.state ghost) {wiring : Nat → Knobs}
    (wired : Server.Tasked (fun n => Task.Wired there back env (wiring n)) s.moment s.state.server)
    (listed : ∀ id conn, s.state.api.connections.lookup id = some conn →
      conn.toHandles.knobs = wiring conn.tx) :
    Wires there back env
      ((machine args baseRng there back env).step s (.accept id addr downstream upstream)).2 := by
  have old : ∀ n t, s.state.tasks n = some t → n ≠ s.state.next := by
    obtain ⟨marks, orderly⟩ := sound.tasks.orderly
    rintro n t task rfl
    have none : s.state.tasks s.state.next = none := orderly.fresh _ (Nat.le_refl _)
    rw [none] at task
    cases task
  refine ⟨Function.update wiring s.state.next (Handles.block s.state.api.next).knobs, ?_, ?_⟩
  · refine tasked_step (fun n => .wired copiesThere copiesBack) ?_ ?_
    · intro n t task
      rw [Function.update_of_ne (old n t task)]
      exact wired n t task
    · intro sev asked
      rw [serverEvent, known] at asked
      cases asked
      show Task.Wired there back env (Function.update wiring _ _ _) _ _
      rw [show s.state.server.next = s.state.next from rfl, Function.update_self]
      exact Server.wired_new copiesThere copiesBack down up
  · intro id' conn entry
    have api : ((machine args baseRng there back env).step s
        (.accept id addr downstream upstream)).2.state.api = _ := handle_api
    rw [api, op, known] at entry
    by_cases same : id' = id
    · subst same
      have put : some _ = some conn := Keyed.lookup_put_self.symm.trans entry
      cases put
      rw [Function.update_self]
    · have entry := (Keyed.lookup_put_of_ne same).symm.trans entry
      obtain ⟨t, task, -⟩ := sound.task entry
      rw [Function.update_of_ne (old _ t task)]
      exact listed id' conn entry

/-- **One event** leaves every task its knobs. -/
theorem wires_step (copiesThere : there.Copies) (copiesBack : back.Copies)
    (valid : args.validate = .ok ()) {ev : Event W} (admits : Admits ev)
    (sound : Sound there back env s.moment s.state ghost) (h : Wires there back env s) :
    Wires there back env ((machine args baseRng there back env).step s ev).2 := by
  obtain ⟨wiring, wired, listed⟩ := h
  by_cases accepts : ∃ id addr d u, ev = .accept id addr d u
  · obtain ⟨id, addr, downstream, upstream, rfl⟩ := accepts
    obtain ⟨first, known⟩ := args.validate_ok.mp valid
    exact wires_accept copiesThere copiesBack known admits.1 admits.2 sound wired listed
  · have others : ∀ id addr d u, ev ≠ .accept id addr d u := fun id addr d u same =>
      accepts ⟨id, addr, d, u, same⟩
    have api : ((machine args baseRng there back env).step s ev).2.state.api = _ := handle_api
    refine ⟨wiring, ?_, fun id conn entry => listed id conn (lookup_settled others (api ▸ entry))⟩
    refine tasked_step (fun n => .wired copiesThere copiesBack) wired ?_
    intro sev asked
    cases sev with
    | accept id d u knobs =>
      obtain ⟨addr, same⟩ := serverEvent_accept asked
      exact absurd same (others id addr d u)
    | _ => trivial

omit [SmallRng G] in
/-- A live connection is listed, and its adapters load what is listed. -/
theorem Sound.loads (h : Sound there back env s.moment s.state ghost) (wires : Wires there back env s)
    {n : Nat} {t : Task A B W G} (task : s.state.tasks n = some t) (live : s.state.Live t.id n) :
    ∃ status ∈ s.state.api.all, status.connInfo.id = t.id ∧
      ∃ handles, ApiState.Reads s.state.api.memory status handles ∧
        t.copying.downstream.inner.wired = handles.knobs ∧
        t.copying.upstream.wired = handles.knobs := by
  obtain ⟨wiring, wired, listed⟩ := wires
  have sender : (t.id, n) ∈ s.state.api.senders := (h.tasks.registered.listed t.id n).mpr live
  obtain ⟨⟨id, conn⟩, mem, same⟩ := List.mem_map.mp sender
  cases same
  have entry := (Keyed.mem_iff_lookup h.settings.keys).mp mem
  obtain ⟨down, up⟩ := (wired conn.tx t task).both
  have knobs := listed _ conn entry
  exact ⟨conn.status s.state.api.memory, List.mem_map_of_mem mem, h.settings.named _ conn entry,
    conn.toHandles, ApiState.reads_status (h.settings.consistent _ conn entry),
    down.trans knobs.symm, up.trans knobs.symm⟩

variable (baseRng) in
/-- **Where the settings go.** In every run, and for every connection that can be told to stop and whose
sender no call has taken out: the API lists it, and what it lists is what the adapters of both its
pipelines load, whatever has been set since it was accepted. -/
theorem settings_reach (copiesThere : there.Copies) (copiesBack : back.Copies)
    (valid : args.validate = .ok ()) (k : Nat) (events : List (Event W))
    (admits : ∀ ev ∈ events, Admits ev) :
    (machine args baseRng there back env).Throughout
      (fun _ s => ∀ n t, s.state.tasks n = some t → s.state.Live t.id n →
        ∃ status ∈ s.state.api.all, status.connInfo.id = t.id ∧
          ∃ handles, ApiState.Reads s.state.api.memory status handles ∧
            t.copying.downstream.inner.wired = handles.knobs ∧
            t.copying.upstream.wired = handles.knobs) ⟨k, empty⟩ events := by
  have known : (machine args baseRng there back env).Allowed (fun _ _ ev => Admits ev) ⟨k, empty⟩
      events := Machine.allowedFrom_of_mem admits
  have step : ∀ (s : Paced (Node A B W G)) (ev : Event W), Admits ev →
      (∃ ghost, Sound there back env s.moment s.state ghost) ∧ Wires there back env s →
      (∃ ghost, Sound there back env ((machine args baseRng there back env).step s ev).2.moment
          ((machine args baseRng there back env).step s ev).2.state ghost) ∧
        Wires there back env ((machine args baseRng there back env).step s ev).2 := by
    rintro s ev admits ⟨⟨ghost, sound⟩, wires⟩
    have kept : (handle args baseRng there back ev).wp env s.moment s.state _ :=
      handle_sound copiesThere copiesBack valid admits sound
    exact ⟨⟨_, (machine_step kept).1⟩, wires_step copiesThere copiesBack valid admits sound wires⟩
  refine .imp (P := fun _ s => (∃ ghost, Sound there back env s.moment s.state ghost) ∧
    Wires there back env s) ?_ ?_ ?_ known
  · exact fun _ s ev h admits => step s ev admits h
  · intro _ s ev h admits n t task live
    obtain ⟨⟨ghost, sound⟩, wires⟩ := step s ev admits h
    exact sound.loads wires task live
  · refine ⟨⟨nobody, sound_empty⟩, fun _ => ⟨⟨0⟩, ⟨0⟩, ⟨0⟩, ⟨0⟩, ⟨0⟩⟩, ?_, ?_⟩
    · intro n t task
      cases task
    · intro id conn entry
      cases entry

theorem settings_reach_session :
    (machine calmArgs Server.plain.baseRng (CopyBuffer.transfer _ _) (CopyBuffer.transfer _ _)
      World.still).Throughout
      (fun _ s => ∀ n t, s.state.tasks n = some t → s.state.Live t.id n →
        ∃ status ∈ s.state.api.all, status.connInfo.id = t.id ∧
          ∃ handles, ApiState.Reads s.state.api.memory status handles ∧
            t.copying.downstream.inner.wired = handles.knobs ∧
            t.copying.upstream.wired = handles.knobs) ⟨0, empty⟩ session := by
  exact settings_reach Server.plain.baseRng CopyBuffer.copies CopyBuffer.copies (by decide) 0 session
    session_admits

end Wired

end Trixter.Node
