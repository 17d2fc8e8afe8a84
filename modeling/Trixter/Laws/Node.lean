import Trixter.Laws.ApiState
import Trixter.Laws.Registry
import Trixter.Node

/-!
# What the API says of the process

`api_contract`: in every run of a process that passed the checks of its command line, what the API
answers is what holds of the connections. A listing or a setter is one step here, as in `Node`, so
nothing is said of one that races with a setter; when a shutdown replies, and to whom its error goes, is
the server's affair (`Laws.Registry`).

The process is two machines over one map: in what `server` shows of it an event is one of the server's
(`handle_shows`), and in its settings an operation of `ApiState` (`step_api`). The invariants of both
hold at once, and the answers are read off them.
-/

namespace Trixter

open Trixter.Lib Polling

/-! ## The command line -/

section Expected

variable {rate : F64}

theorem expectProbability_of_valid (valid : F64.contains .zero .one rate) :
    expectProbability rate = .ok ⟨rate, valid⟩ := dif_pos valid

theorem expectProbability_of_invalid (invalid : ¬F64.contains .zero .one rate) :
    expectProbability rate = .error "probability validated during config parsing" := dif_neg invalid

end Expected

/-- **The command line is checked for what connections expect of it.** -/
theorem Args.validate_ok (args : Args) :
    args.validate = .ok () ↔ ∃ first, args.firstKnobs = .ok first := by
  unfold validate firstKnobs
  by_cases terminate : F64.contains .zero .one args.terminateProbabilityRate = true
  · rw [expectProbability_of_valid terminate]
    by_cases corrupt : F64.contains .zero .one args.corruptProbabilityRate = true
    · rw [expectProbability_of_valid corrupt, terminate, corrupt]
      exact ⟨fun _ => ⟨_, rfl⟩, fun _ => rfl⟩
    · rw [expectProbability_of_invalid corrupt, terminate, eq_false_of_ne_true corrupt]
      refine iff_of_false (fun ok => by cases ok) ?_
      rintro ⟨first, ⟨⟩⟩
  · rw [expectProbability_of_invalid terminate, eq_false_of_ne_true terminate]
    refine iff_of_false (fun ok => by cases ok) ?_
    rintro ⟨first, ⟨⟩⟩

namespace Node

variable {A B W G : Type}

/-! ## The server in the process -/

/-- What an event is to the server. -/
def serverEvent (args : Args) (s : Node A B W G) : Event W → Option (Server.Event W)
  | .accept id addr downstream upstream =>
    args.firstKnobs.toOption.map fun first =>
      .accept id downstream upstream
        (s.api.insert ⟨id, addr, args.upstream⟩ s.next first).1.knobs
  | .request call (.shutdownConnection id req) => some (.shutdown call id req.reason)
  | .request call (.shutdownAllConnections req) => some (.shutdownAll call req.reason)
  | .request _ _ => none
  | .snapshot call ids => some (.snapshot call ids)
  | .advance call => some (.advance call)
  | .poll n => some (.poll n)
  | .cleanUp n => some (.cleanUp n)
  | .leave n => some (.leave n)

section Shown

variable {s : Node A B W G} {api : ApiState} {call n : Nat} {id : ConnId}

theorem lookup_senders : api.senders.lookup id = (api.connections.lookup id).map (·.tx) :=
  Keyed.lookup_map

theorem senders_without :
    ApiState.senders { api with connections := Keyed.without id api.connections } =
      Keyed.without id api.senders := Keyed.map_without

/-- A setter lists and unlists nobody. -/
theorem senders_setter {value : ApiState.Setting} :
    (ApiState.setter id value api).2.senders = api.senders := by
  rw [ApiState.setter_eq, ApiState.withConn]
  cases api.connections.lookup id <;> rfl

/-- A step of the process, and what the server does. -/
def Shows (left : Response × Node A B W G) (left' : Server.Response × Server A B W G) : Prop :=
  left.1 = .of left'.1 ∧ left.2.server = left'.2

/-- The server after a step that leaves the map alone. -/
theorem withServer_server {server' : Server A B W G}
    (connections : server'.connections = s.server.connections) :
    (s.withServer server').server = server' := by
  obtain ⟨connections', tasks, next, calls⟩ := server'
  cases connections
  rfl

theorem onCalls_shows {step : Server A B W G → Server.Response × Server A B W G}
    (connections : (step s.server).2.connections = s.server.connections) :
    Shows (s.onCalls step) (step s.server) := ⟨rfl, withServer_server connections⟩

theorem shutdownConnection_shows {req : ShutdownReq} :
    Shows (s.shutdownConnection call id req) (s.server.shutdownConnection call id req.reason) := by
  have found : s.server.connections.lookup id = (s.api.connections.lookup id).map (·.tx) :=
    lookup_senders
  by_cases idle : s.calls call = .idle
  · cases entry : s.api.connections.lookup id with
    | none =>
      rw [entry] at found
      rw [Server.shutdown_notFound idle found]
      simp only [shutdownConnection, idle, ApiState.removeConnection, entry]
      exact ⟨rfl, rfl⟩
    | some conn =>
      rw [entry] at found
      rw [Server.shutdown_found idle found]
      simp only [shutdownConnection, idle, ApiState.removeConnection, entry]
      refine ⟨rfl, ?_⟩
      rw [setCall, server, senders_without]
      rfl
  · have out : s.shutdownConnection call id req = (.silent, s) := by
      unfold shutdownConnection
      split
      · next now => exact absurd now idle
      · rfl
    have out' : s.server.shutdownConnection call id req.reason = (.silent, s.server) := by
      unfold Server.shutdownConnection
      split
      · next now => exact absurd now idle
      · rfl
    rw [out, out']
    exact ⟨rfl, rfl⟩

/-- Only the loop of `remove_all` touches the map. -/
theorem advance_connections {s : Server A B W G}
    (others : ∀ reason id ids connections, s.calls call ≠ .removing reason (id :: ids) connections) :
    (s.advance call).2.connections = s.connections := by
  cases c : s.calls call with
  | sending reason tx =>
    simp only [Server.advance, c]
    exact Server.send_connections
  | removing reason ids connections =>
    cases ids with
    | nil =>
      simp only [Server.advance, c]
      rfl
    | cons id ids => exact absurd c (others reason id ids connections)
  | sendingAll reason connections failed =>
    cases connections with
    | nil =>
      simp only [Server.advance, c]
      rfl
    | cons tx connections =>
      simp only [Server.advance, c]
      exact Server.send_connections
  | _ => simp only [Server.advance, c]

theorem advance_shows : Shows (s.advance call) (s.server.advance call) := by
  by_cases removing : ∃ reason id ids connections, s.calls call = .removing reason (id :: ids) connections
  · obtain ⟨reason, id, ids, connections, c⟩ := removing
    have c' : s.server.calls call = .removing reason (id :: ids) connections := c
    have found : s.server.connections.lookup id = (s.api.connections.lookup id).map (·.tx) :=
      lookup_senders
    simp only [advance, Server.advance, c, c', ApiState.removeConnection, Server.removeConnection]
    cases entry : s.api.connections.lookup id with
    | none =>
      rw [entry] at found
      rw [found]
      exact ⟨rfl, rfl⟩
    | some conn =>
      rw [entry] at found
      rw [found]
      refine ⟨rfl, ?_⟩
      simp only [setCall, server, senders_without]
      rfl
  · have others : ∀ reason id ids connections,
        s.calls call ≠ .removing reason (id :: ids) connections :=
      fun reason id ids connections c => removing ⟨reason, id, ids, connections, c⟩
    have same : s.advance call = s.onCalls (Server.advance call) := by
      unfold advance
      split
      · next c => exact absurd c (others _ _ _ _)
      · rfl
    rw [same]
    exact onCalls_shows (advance_connections others)

/-- A task takes its entry out. -/
theorem cleanUp_shows : Shows (Node.cleanUp n s) (s.server.cleanUp n) := by
  cases task : s.tasks n with
  | none =>
    have task' : s.server.tasks n = none := task
    simp only [Node.cleanUp, Server.cleanUp, task, task']
    exact ⟨rfl, rfl⟩
  | some t =>
    have task' : s.server.tasks n = some t := task
    rcases t with ⟨id, copying, timer, _ | res, _ | _⟩
    · simp only [Node.cleanUp, Server.cleanUp, task, task']
      exact ⟨rfl, rfl⟩
    · simp only [Node.cleanUp, Server.cleanUp, task, task']
      exact ⟨rfl, rfl⟩
    · have found : (s.server.setTask n (some ⟨id, copying, timer, some res, true⟩)).connections.lookup id =
          (s.api.connections.lookup id).map (·.tx) := lookup_senders
      simp only [Node.cleanUp, Server.cleanUp, task, task', Server.discard, ApiState.removeConnection,
        found]
      cases entry : s.api.connections.lookup id with
      | none => exact ⟨rfl, rfl⟩
      | some conn =>
        refine ⟨rfl, ?_⟩
        simp only [withServer, server, senders_without]
        rfl
    · simp only [Node.cleanUp, Server.cleanUp, task, task']
      exact ⟨rfl, rfl⟩

/-- The entry that a new connection gets. -/
theorem insert_shows {connInfo : ConnectionInfo} {first : FirstKnobs} {server' : Server A B W G}
    (connections : server'.connections = s.server.connections) :
    (s.api.insert connInfo n first).2.senders = (server'.insert connInfo.id n).connections := by
  have put : (server'.insert connInfo.id n).connections =
      Keyed.put connInfo.id n server'.connections := by
    unfold Server.insert
    split <;> rfl
  rw [put, connections]
  exact congrArg (List.cons (connInfo.id, n)) senders_without

/-- The setting that a request asks for. Of a delay a `u64` of nanoseconds is kept. -/
def Request.setting : Request → Option (ConnId × ApiState.Setting)
  | .setDelay id req =>
    some (id, .delay (DynamicDuration.nanos (req.delayMs.toNat * 1000000)).toNat)
  | .setThrottle id req => some (id, .throttleRate req.rateBytes)
  | .setSlice id req => some (id, .sliceSize req.sizeBytes)
  | .setTermination id req => some (id, .terminateProbabilityRate req.probabilityRate)
  | .setCorruption id req => some (id, .corruptProbabilityRate req.probabilityRate)
  | _ => none

theorem setDelay_kept (duration : Nat) :
    ApiState.setDelay id duration = ApiState.setDelay id (DynamicDuration.nanos duration).toNat := by
  unfold ApiState.setDelay DynamicDuration.nanos
  rw [UInt64.ofNat_toNat]

theorem onApi_accepting {value : ApiState.Setting} :
    s.onApi (fun api => Api.accepting (ApiState.setter id value api)) =
      (.http (intoResponse (Api.accepting (ApiState.setter id value s.api)).1),
        { s with api := (ApiState.setter id value s.api).2 }) := by
  simp only [onApi]
  rcases ApiState.setter id value s.api with ⟨_ | _, _⟩ <;> rfl

/-- **The five handlers that set something** are one. -/
theorem respond_setting {req : Request} {value : ApiState.Setting}
    (sets : Request.setting req = some (id, value)) :
    s.respond call req =
      (.http (intoResponse (Api.accepting (ApiState.setter id value s.api)).1),
        { s with api := (ApiState.setter id value s.api).2 }) := by
  rw [← onApi_accepting]
  cases req with
  | setDelay id req =>
    cases sets
    have kept : Api.setDelay id req =
        fun api => Api.accepting (ApiState.setDelay id (req.delayMs.toNat * 1000000) api) := rfl
    show s.onApi (Api.setDelay id req) = _
    rw [kept, setDelay_kept]
    rfl
  | setThrottle id req =>
    cases sets
    rfl
  | setSlice id req =>
    cases sets
    rfl
  | setTermination id req =>
    cases sets
    rfl
  | setCorruption id req =>
    cases sets
    rfl
  | _ => cases sets

/-- A setter leaves the server. -/
theorem setter_server {value : ApiState.Setting} :
    ({ s with api := (ApiState.setter id value s.api).2 } : Node A B W G).server = s.server :=
  congrArg (fun connections => ({ connections, .. } : Server A B W G)) senders_setter

end Shown

section Served

variable {s : Node A B W G} {k : Nat} {ev : Event W} {sev : Server.Event W}

/-- A program of the server, run by the process. -/
theorem onServer_wp {m : Io (Server A B W G) Server.Response} {env : World} {k : Nat}
    {Q : Poll IoError Response → Node A B W G → Nat → Prop} :
    (onServer m).wp env k s Q ↔
      m.wp env k s.server fun r server k' => Q (r.map .of) (s.withServer server) k' := by
  rw [onServer, wp_map, wp_zoom]

variable (there : Transfer A (Shutdowner (Pipeline W G)) (Pipeline W G))
  (back : Transfer B (Pipeline W G) (Shutdowner (Pipeline W G))) (env : World)

/-- A poll of a task leaves the map. -/
theorem pollTask_connections {server : Server A B W G} (n : Nat) :
    (Server.pollTask there back n env k server).state.connections = server.connections := by
  by_cases idle : ∀ t, server.tasks n = some t → t.res ≠ none
  · rw [(wp_iff.mp (Server.pollTask_silent there back env k idle)).2]
  · simp only [not_forall, not_not] at idle
    obtain ⟨t, task, running⟩ := idle
    obtain ⟨-, t', state⟩ := wp_iff.mp (Server.pollTask_copies there back env k task running)
    rw [state]
    rfl

variable [SmallRng G] (args : Args) (baseRng : G)

/-- **What the server sees of an event** is its own event, and the process answers what it answers. -/
theorem handle_shows (asked : serverEvent args s ev = some sev) :
    (handle args baseRng there back ev).wp env k s fun r s' k' =>
      (Server.handle (args.config baseRng) there back sev).wp env k s.server fun r' server' k'' =>
        r = r'.map .of ∧ s'.server = server' ∧ k' = k'' := by
  have pure : ∀ {left : Response × Node A B W G} {left' : Server.Response × Server A B W G},
      Shows left left' → Poll.ok left.1 = (Poll.ok left'.1 : Poll IoError _).map .of ∧
        left.2.server = left'.2 ∧ k = k := fun shows => ⟨congrArg Poll.ok shows.1, shows.2, rfl⟩
  cases ev with
  | accept id addr downstream upstream =>
    cases known : args.firstKnobs with
    | error message =>
      rw [serverEvent, known] at asked
      cases asked
    | ok first =>
      rw [serverEvent, known] at asked
      cases asked
      rw [handle, accept, known]
      refine wp_bind.mpr (wp_get.mpr (wp_bind.mpr (onServer_wp.mpr (Server.accept_wp.mpr ?_))))
      refine ⟨rfl, ?_, rfl⟩
      exact congrArg (fun connections => ({ connections, .. } : Server A B W G)) (insert_shows rfl)
  | request call req =>
    cases req with
    | shutdownConnection id req =>
      cases asked
      exact pure shutdownConnection_shows
    | shutdownAllConnections req =>
      cases asked
      refine pure (onCalls_shows ?_)
      unfold Server.shutdownAllConnections
      split <;> rfl
    | _ => cases asked
  | snapshot call ids =>
    cases asked
    refine pure (onCalls_shows ?_)
    unfold Server.snapshot
    split <;> rfl
  | advance call =>
    cases asked
    exact pure advance_shows
  | poll n =>
    cases asked
    exact onServer_wp.mpr ⟨rfl, withServer_server (pollTask_connections there back env n), rfl⟩
  | cleanUp n =>
    cases asked
    exact pure cleanUp_shows
  | leave n =>
    cases asked
    refine pure (onCalls_shows ?_)
    unfold Server.leave
    split <;> rfl

/-- An event that the server has no part in. -/
theorem handle_unseen (unseen : serverEvent args s ev = none) :
    (handle args baseRng there back ev).wp env k s fun _ s' k' => s'.server = s.server ∧ k' = k := by
  cases ev with
  | accept id addr downstream upstream =>
    unfold handle accept
    cases known : args.firstKnobs with
    | error message => exact ⟨rfl, rfl⟩
    | ok first =>
      rw [serverEvent, known] at unseen
      cases unseen
  | request call req =>
    refine ⟨?_, rfl⟩
    show (s.respond call req).2.server = s.server
    cases sets : Request.setting req with
    | some setting => rw [respond_setting sets, setter_server]
    | none =>
      cases req with
      | health => rfl
      | listConnections => rfl
      | shutdownConnection id req => cases unseen
      | shutdownAllConnections req => cases unseen
      | _ => cases sets
  | _ => cases unseen

end Served

/-! ## The settings in the process -/

/-- What a request does to the settings, from where its call stands. -/
def Request.op (c : Call) (req : Request) : Option ApiState.Op :=
  match Request.setting req, req with
  | some (id, value), _ => some (.set id value)
  | none, .listConnections => some .all
  | none, .shutdownConnection id _ => if c = .idle then some (.removeConnection id) else none
  | none, _ => none

/-- The next step of a call. -/
def callOp : Call → Option ApiState.Op
  | .removing _ (id :: _) _ => some (.removeConnection id)
  | _ => none

/-- The clean-up of a task. -/
def taskOp : Task A B W G → Option ApiState.Op
  | ⟨id, _, _, some _, false⟩ => some (.removeConnection id)
  | _ => none

/-- What an event does to the settings. -/
def op (args : Args) (s : Node A B W G) : Event W → Option ApiState.Op
  | .accept id addr _ _ =>
    args.firstKnobs.toOption.map fun first => .insert ⟨id, addr, args.upstream⟩ s.next first
  | .request call req => Request.op (s.calls call) req
  | .advance call => callOp (s.calls call)
  | .cleanUp n => (s.tasks n).bind taskOp
  | _ => none

/-- The settings after an operation, or without one. -/
def settled (s : Node A B W G) (op : Option ApiState.Op) : ApiState :=
  op.elim s.api fun op => (s.api.step op).2

section Settings

variable {s : Node A B W G} {k call n : Nat} {ev : Event W} {args : Args} {req : Request}

/-- Every delay that is asked for fits. -/
theorem setting_fits {id : ConnId} {value : ApiState.Setting}
    (sets : Request.setting req = some (id, value)) : value.Fits := by
  cases req with
  | setDelay id req =>
    cases sets
    exact UInt64.toNat_lt _
  | setThrottle id req =>
    cases sets
    trivial
  | setSlice id req =>
    cases sets
    trivial
  | setTermination id req =>
    cases sets
    trivial
  | setCorruption id req =>
    cases sets
    trivial
  | _ => cases sets

theorem op_fits {o : ApiState.Op} (asked : op args s ev = some o) : o.Fits := by
  cases ev with
  | accept id addr downstream upstream =>
    obtain ⟨first, -, rfl⟩ := Option.map_eq_some_iff.mp asked
    trivial
  | request call req =>
    change Request.op (s.calls call) req = some o at asked
    unfold Request.op at asked
    split at asked
    · next sets =>
      cases asked
      exact setting_fits sets
    · cases asked
      trivial
    · split at asked
      · cases asked
        trivial
      · cases asked
    · cases asked
  | advance call =>
    change callOp (s.calls call) = some o at asked
    unfold callOp at asked
    split at asked
    · cases asked
      trivial
    · cases asked
  | cleanUp n =>
    obtain ⟨t, -, asked⟩ := Option.bind_eq_some_iff.mp asked
    unfold taskOp at asked
    split at asked
    · cases asked
      trivial
    · cases asked
  | _ => cases asked

theorem respond_api : (s.respond call req).2.api = s.settled (Request.op (s.calls call) req) := by
  cases sets : Request.setting req with
  | some setting =>
    rw [respond_setting sets]
    simp only [Request.op, sets]
    rfl
  | none =>
    cases req with
    | health => rfl
    | listConnections => rfl
    | shutdownConnection id req =>
      have op : Request.op (s.calls call) (.shutdownConnection id req) =
          if s.calls call = .idle then some (.removeConnection id) else none := rfl
      rw [op]
      show (s.shutdownConnection call id req).2.api = _
      unfold shutdownConnection
      split
      · next idle =>
        rw [if_pos idle]
        show _ = (s.api.removeConnection id).2
        rcases s.api.removeConnection id with ⟨_ | _, _⟩ <;> rfl
      · next busy =>
        rw [if_neg busy]
        rfl
    | shutdownAllConnections req => rfl
    | _ => cases sets

theorem advance_api : (s.advance call).2.api = s.settled (callOp (s.calls call)) := by
  unfold advance
  split
  · next reason id ids connections c =>
    rw [c]
    show _ = (s.api.removeConnection id).2
    rcases s.api.removeConnection id with ⟨_ | _, _⟩ <;> rfl
  · next others =>
    have none : callOp (s.calls call) = none := by
      unfold callOp
      split
      · next c => exact absurd c (others _ _ _ _)
      · rfl
    rw [none]
    rfl

theorem cleanUp_api : (Node.cleanUp n s).2.api = s.settled ((s.tasks n).bind taskOp) := by
  unfold Node.cleanUp
  split
  · next id copying timer res task =>
    rw [task]
    show _ = (s.api.removeConnection id).2
    rcases s.api.removeConnection id with ⟨_ | _, _⟩ <;> rfl
  · next others =>
    have none : (s.tasks n).bind taskOp = none := by
      cases task : s.tasks n with
      | none => rfl
      | some t =>
        show taskOp t = none
        unfold taskOp
        split
        · exact absurd task (others _ _ _ _)
        · rfl
    rw [none]
    rfl

/-- **What an event does to the settings** is an operation of theirs, or nothing. -/
theorem handle_api [SmallRng G] {baseRng : G} {env : World}
    {there : Transfer A (Shutdowner (Pipeline W G)) (Pipeline W G)}
    {back : Transfer B (Pipeline W G) (Shutdowner (Pipeline W G))} :
    (handle args baseRng there back ev).wp env k s fun _ s' _ => s'.api = s.settled (op args s ev) := by
  cases ev with
  | accept id addr downstream upstream =>
    unfold handle accept
    cases known : args.firstKnobs with
    | error message =>
      rw [op, known]
      rfl
    | ok first =>
      rw [op, known]
      exact wp_bind.mpr (wp_get.mpr (wp_bind.mpr (onServer_wp.mpr (Server.accept_wp.mpr rfl))))
  | request call req => exact respond_api
  | snapshot call ids => exact rfl
  | advance call => exact advance_api
  | poll n => exact onServer_wp.mpr rfl
  | cleanUp n => exact cleanUp_api
  | leave n => exact rfl

end Settings

/-! ## What a run keeps -/

/-- Beside the process: a plain map of settings, the handles that were given out, and the calls that came
to send to a task which had gone. -/
structure Ghost where
  book : ApiState.Book
  adapters : ApiState.Adapters
  misses : Nat → Bool

/-- They are brought up to date. -/
def record (args : Args) (ghost : Ghost) (s : Paced (Node A B W G)) (ev : Event W) : Ghost where
  book := (op args s.state ev).elim ghost.book fun op => op.after ghost.book
  adapters := (op args s.state ev).elim ghost.adapters (ApiState.given ghost.adapters s.state.api)
  misses := (serverEvent args s.state ev).elim ghost.misses
    (Server.missed ghost.misses ⟨s.moment, s.state.server⟩)

/-- The settings are those of the plain map, and the server keeps what it keeps. -/
structure Sound [Peer W] (there : Transfer A (Shutdowner (Pipeline W G)) (Pipeline W G))
    (back : Transfer B (Pipeline W G) (Shutdowner (Pipeline W G))) (env : World) (k : Nat)
    (s : Node A B W G) (ghost : Ghost) : Prop where
  settings : ApiState.Sound (s.api, ghost.book, ghost.adapters)
  tasks : Server.Invariants there back env k s.server ghost.misses

/-- What an event has to bring: two sockets of which nothing is known yet. -/
def Admits [Peer W] : Event W → Prop
  | .accept _ _ downstream upstream => Peer.Fresh downstream ∧ Peer.Fresh upstream
  | _ => True

/-! ## What is answered -/

/-- The task can be told to stop, and no call has its sender. -/
def Live (s : Node A B W G) (id : ConnId) (n : Nat) : Prop := s.server.Listens id n ∧ ¬s.server.Held n

/-- The response about a connection that is not there. -/
def notFound : HttpResponse := ⟨404, .error "connection not found"⟩

/-- The response to a new setting. -/
def setResponse (value : ApiState.Setting) : HttpResponse :=
  if value.Valid then ⟨202, .empty⟩
  else ⟨400, .error "invalid probability; must be between 0.0 and 1.0"⟩

/-- The statuses of the live connections, each once, with the settings of the plain map. -/
structure Lists (s : Node A B W G) (book : ApiState.Book) (statuses : List ConnectionStatus) : Prop where
  once : (statuses.map (·.connInfo.id)).Nodup
  live : ∀ id, id ∈ statuses.map (·.connInfo.id) ↔ ∃ n, s.Live id n
  booked : ∀ status ∈ statuses, book status.connInfo.id = some status

/-- What a request is answered with at once. One that shuts connections down replies later if it finds
one, and a number is used for one call. -/
def Expects (s s' : Node A B W G) (book : ApiState.Book) (call : Nat) (r : Response) :
    Request → Prop
  | .health => r = .http ⟨200, .text "ok"⟩
  | .listConnections => ∃ statuses, r = .http ⟨200, .statuses statuses⟩ ∧ Lists s book statuses
  | .shutdownConnection id req => s.calls call = .idle →
    (∃ n, s.Live id n ∧ s'.calls call = .sending req.reason n) ∧ r = .silent ∨
      (∀ n, ¬s.Live id n) ∧ r = .http notFound
  | .shutdownAllConnections _ => r = .silent
  | req => ∀ id value, Request.setting req = some (id, value) →
    (∃ n, s.Live id n) ∧ r = .http (setResponse value) ∨ (∀ n, ¬s.Live id n) ∧ r = .http notFound

/-- What a call that shuts connections down replies in the end. -/
def shutdownResponse (missed : Bool) : HttpResponse :=
  if missed then ⟨500, .error "internal error"⟩ else ⟨202, .empty⟩

/-- Nothing goes out over HTTP, and no task panics. -/
def Quiet (r : Poll IoError Response) : Prop :=
  ∃ res, r = .ok res ∧ (∀ copied, res = .polled copied → Calm copied) ∧ ∀ http, res ≠ .http http

/-- What an event is answered with. A call replies in its last step, and fails if it came to send to a
task that had gone. -/
def Answers (s s' : Node A B W G) (ghost : Ghost) (misses : Nat → Bool) (r : Poll IoError Response) :
    Event W → Prop
  | .request call req => ∃ res, r = .ok res ∧ Expects s s' ghost.book call res req
  | .advance call =>
    r = .ok (if (s.calls call).last then .http (shutdownResponse (misses call)) else .silent)
  | _ => Quiet r

namespace Sound

variable [Peer W] {there : Transfer A (Shutdowner (Pipeline W G)) (Pipeline W G)}
  {back : Transfer B (Pipeline W G) (Shutdowner (Pipeline W G))} {env : World} {k call : Nat}
  {s : Node A B W G} {ghost : Ghost} {id : ConnId} {req : Request}

/-- The connections with settings are the live ones. -/
theorem live_iff (h : Sound there back env k s ghost) :
    (ghost.book id).isSome ↔ ∃ n, s.Live id n := by
  have keys : s.server.connections.map Prod.fst = s.api.connections.map Prod.fst := by
    show (s.api.connections.map _).map Prod.fst = _
    rw [List.map_map]
    rfl
  rw [← h.settings.mem_keys, ← keys]
  constructor
  · intro mem
    obtain ⟨⟨id, n⟩, entry, rfl⟩ := List.mem_map.mp mem
    exact ⟨n, (h.tasks.registered.listed id n).mp entry⟩
  · rintro ⟨n, live⟩
    exact List.mem_map_of_mem ((h.tasks.registered.listed id n).mpr live)

/-- What is listed. -/
theorem lists (h : Sound there back env k s ghost) : Lists s ghost.book s.api.all := by
  obtain ⟨once, spec⟩ := h.settings.all_spec
  refine ⟨once, fun id => ?_, fun status mem => (spec _ status).mpr ⟨mem, rfl⟩⟩
  rw [← h.live_iff, Option.isSome_iff_exists, List.mem_map]
  exact exists_congr fun status => (spec id status).symm

/-- A new setting. -/
theorem sets (h : Sound there back env k s ghost) {value : ApiState.Setting}
    (sets : Request.setting req = some (id, value)) :
    (∃ n, s.Live id n) ∧ (s.respond call req).1 = .http (setResponse value) ∨
      (∀ n, ¬s.Live id n) ∧ (s.respond call req).1 = .http notFound := by
  have expected : (ApiState.setter id value s.api).1 =
      if (ghost.book id).isNone then .error .notFound
      else if value.Valid then .ok () else .error .badProbability :=
    (h.settings.obeys (.set id value)).1
  have response : (Api.accepting (ApiState.setter id value s.api)).1 =
      (ApiState.setter id value s.api).1.map fun _ => StatusCode.accepted := by
    rcases ApiState.setter id value s.api with ⟨_ | _, _⟩ <;> rfl
  rw [respond_setting sets, response, expected]
  by_cases live : ∃ n, s.Live id n
  · refine .inl ⟨live, ?_⟩
    obtain ⟨status, booked⟩ := Option.isSome_iff_exists.mp (h.live_iff.mpr live)
    rw [booked, setResponse]
    by_cases valid : value.Valid
    · simp [valid, intoResponse, Except.map]
    · simp [valid, intoResponse, Except.map, ApiError.intoResponse, ApiError.status, ApiError.toString]
  · refine .inr ⟨fun n lives => live ⟨n, lives⟩, ?_⟩
    have none : ghost.book id = none := by
      rw [← Option.not_isSome_iff_eq_none, h.live_iff]
      exact live
    rw [none]
    rfl

/-- **A request** is answered from the map as it is. -/
theorem expects (h : Sound there back env k s ghost) :
    Expects s (s.respond call req).2 ghost.book call (s.respond call req).1 req := by
  cases req with
  | health => exact rfl
  | listConnections => exact ⟨_, rfl, h.lists⟩
  | shutdownConnection id req =>
    intro idle
    obtain ⟨answer, left⟩ : Shows (s.shutdownConnection call id req) _ := shutdownConnection_shows
    show (∃ n, s.Live id n ∧ (s.shutdownConnection call id req).2.server.calls call = _) ∧
        (s.shutdownConnection call id req).1 = _ ∨
      _ ∧ (s.shutdownConnection call id req).1 = _
    rw [answer, left]
    rcases h.tasks.registered.shutdown_replies idle id req.reason with
      ⟨⟨n, listens, unheld, sending⟩, silent⟩ | ⟨held, gone⟩
    · rw [silent]
      exact .inl ⟨⟨n, ⟨listens, unheld⟩, sending⟩, rfl⟩
    · rw [gone]
      exact .inr ⟨fun n live => live.2 (held n live.1), rfl⟩
  | shutdownAllConnections req =>
    show Response.of (s.server.shutdownAllConnections call req.reason).1 = .silent
    unfold Server.shutdownAllConnections
    split <;> rfl
  | _ => exact fun id value sets => h.sets sets

/-- The next step of a call. -/
theorem advances (h : Sound there back env k s ghost) (args : Args) :
    (s.advance call).1 = if (s.calls call).last
      then .http (shutdownResponse ((record (W := W) args ghost ⟨k, s⟩ (.advance call)).misses call))
      else .silent := by
  obtain ⟨answer, -⟩ : Shows (s.advance call) _ := advance_shows
  obtain ⟨-, reply⟩ := h.tasks.counts.advance h.tasks.registered k call (W := W)
  have missed : (record (W := W) args ghost ⟨k, s⟩ (.advance call)).misses =
      Server.missed ghost.misses ⟨k, s.server⟩ (.advance call : Server.Event W) := rfl
  rw [answer, reply, missed]
  show Response.of (if (s.calls call).last then _ else _) = _
  split
  · cases Server.missed ghost.misses ⟨k, s.server⟩ (.advance call : Server.Event W) call <;> rfl
  · rfl

end Sound

/-! ## Every run -/

section Handled

variable [Peer W] [SmallRng G] {there : Transfer A (Shutdowner (Pipeline W G)) (Pipeline W G)}
  {back : Transfer B (Pipeline W G) (Shutdowner (Pipeline W G))} {env : World} {k : Nat} {args : Args}
  {baseRng : G} {s : Node A B W G} {ghost : Ghost} {ev : Event W}

omit [SmallRng G] in
/-- New sockets are fresh to the server too. -/
theorem fresh_of (admits : Admits ev) {sev : Server.Event W} (asked : serverEvent args s ev = some sev) :
    Server.FreshSockets sev := by
  cases ev with
  | accept id addr downstream upstream =>
    obtain ⟨first, -, rfl⟩ := Option.map_eq_some_iff.mp asked
    exact admits
  | request call req =>
    cases req with
    | shutdownConnection id req =>
      cases asked
      trivial
    | shutdownAllConnections req =>
      cases asked
      trivial
    | _ => cases asked
  | _ =>
    cases asked
    trivial

/-- What the settings keep. -/
theorem handle_settings (h : Sound there back env k s ghost) :
    (handle args baseRng there back ev).wp env k s fun _ s' _ =>
      ApiState.Sound (s'.api, (record args ghost ⟨k, s⟩ ev).book,
        (record args ghost ⟨k, s⟩ ev).adapters) := by
  refine wp_mono handle_api ?_
  rintro _ s' _ api
  rw [api]
  cases asked : op args s ev with
  | none =>
    simp only [record, asked]
    exact h.settings
  | some o =>
    simp only [record, asked]
    exact h.settings.step (op_fits asked)

/-- What the server keeps. -/
theorem handle_tasks (copiesThere : there.Copies) (copiesBack : back.Copies) (admits : Admits ev)
    (h : Sound there back env k s ghost) :
    (handle args baseRng there back ev).wp env k s fun _ s' k' =>
      Server.Invariants there back env k' s'.server (record args ghost ⟨k, s⟩ ev).misses := by
  cases asked : serverEvent args s ev with
  | none =>
    refine wp_mono (handle_unseen there back env args baseRng asked) ?_
    rintro _ s' _ ⟨server, rfl⟩
    simp only [record, asked, server]
    exact h.tasks
  | some sev =>
    refine wp_mono (handle_shows there back env args baseRng asked) ?_
    rintro _ s' k' ⟨-, server, rfl⟩
    simp only [record, asked, server]
    exact (Server.handle_invariants (args.config baseRng) copiesThere copiesBack (fresh_of admits asked)
      h.tasks).1

omit [SmallRng G] [Peer W] in
/-- What the server answers, where it is no reply. -/
theorem quiet_of {r : Server.Response} (calm : Server.Answered (.ok r)) (unreplied : ∀ res, r ≠ .status res) :
    Quiet (.ok (.of r)) := by
  obtain ⟨_, ⟨⟩, calm⟩ := calm
  cases r with
  | silent => exact ⟨_, rfl, nofun, nofun⟩
  | status res => exact absurd rfl (unreplied res)
  | polled copied =>
    refine ⟨_, rfl, ?_, nofun⟩
    rintro _ ⟨⟩
    exact calm copied rfl
  | closed linger => exact ⟨_, rfl, nofun, nofun⟩

omit [SmallRng G] [Peer W] in
/-- Nor is what a task's poll answers. -/
theorem pollTask_unreplied {server : Server A B W G} {n : Nat} [AsyncRead W] [AsyncWrite W]
    (res : Except ApiError StatusCode) :
    (Server.pollTask there back n env k server).result ≠ .ok (.status res) := by
  by_cases idle : ∀ t, server.tasks n = some t → t.res ≠ none
  · rw [(wp_iff.mp (Server.pollTask_silent there back env k idle)).1]
    nofun
  · simp only [not_forall, not_not] at idle
    obtain ⟨t, task, running⟩ := idle
    rw [(wp_iff.mp (Server.pollTask_copies there back env k task running)).1]
    nofun

/-- **What an event is answered with.** -/
theorem handle_answers (copiesThere : there.Copies) (copiesBack : back.Copies)
    (valid : args.validate = .ok ()) (admits : Admits ev) (h : Sound there back env k s ghost) :
    (handle args baseRng there back ev).wp env k s fun r s' _ =>
      Answers s s' ghost (record args ghost ⟨k, s⟩ ev).misses r ev := by
  have quiet : ∀ sev, serverEvent args s ev = some sev →
      (∀ res, (Server.handle (args.config baseRng) there back sev env k s.server).result ≠
        .ok (.status res)) → Quiet (handle args baseRng there back ev env k s).result := by
    intro sev asked unreplied
    obtain ⟨answer, -⟩ := wp_iff.mp (handle_shows there back env args baseRng (k := k) asked)
    obtain ⟨-, -, r, answered, calm⟩ := Server.handle_invariants (args.config baseRng) copiesThere
      copiesBack (fresh_of admits asked) h.tasks
    rw [answer, answered]
    refine quiet_of ⟨r, rfl, calm⟩ fun res eq => unreplied res ?_
    rw [answered, eq]
  cases ev with
  | accept id addr downstream upstream =>
    obtain ⟨first, known⟩ := args.validate_ok.mp valid
    refine quiet (.accept id downstream upstream
      (s.api.insert ⟨id, addr, args.upstream⟩ s.next first).1.knobs) ?_ nofun
    rw [serverEvent, known]
    rfl
  | request call req => exact ⟨_, rfl, h.expects⟩
  | snapshot call ids =>
    refine quiet (.snapshot call ids) rfl fun res => ?_
    show Poll.ok (s.server.snapshot call ids).1 ≠ _
    unfold Server.snapshot
    split <;> nofun
  | advance call => exact congrArg Poll.ok (h.advances args)
  | poll n => exact quiet (.poll n) rfl pollTask_unreplied
  | cleanUp n =>
    refine quiet (.cleanUp n) rfl fun res => ?_
    show Poll.ok (s.server.cleanUp n).1 ≠ _
    unfold Server.cleanUp
    split <;> nofun
  | leave n =>
    refine quiet (.leave n) rfl fun res => ?_
    show Poll.ok (s.server.leave n).1 ≠ _
    unfold Server.leave
    split <;> nofun

/-- **One event** keeps the process, and is answered. -/
theorem handle_sound (copiesThere : there.Copies) (copiesBack : back.Copies)
    (valid : args.validate = .ok ()) (admits : Admits ev) (h : Sound there back env k s ghost) :
    (handle args baseRng there back ev).wp env k s fun r s' k' =>
      Sound there back env k' s' (record args ghost ⟨k, s⟩ ev) ∧
        Answers s s' ghost (record args ghost ⟨k, s⟩ ev).misses r ev := by
  refine wp_mono (wp_and (wp_and (handle_settings h)
    (handle_tasks copiesThere copiesBack admits h))
    (handle_answers copiesThere copiesBack valid admits h)) ?_
  rintro r s' k' ⟨⟨settings, tasks⟩, answers⟩
  exact ⟨⟨settings, tasks⟩, answers⟩

end Handled

/-- Before the first connection. -/
def nobody : Ghost := ⟨fun _ => none, fun _ => none, fun _ => false⟩

theorem sound_empty [Peer W] {there : Transfer A (Shutdowner (Pipeline W G)) (Pipeline W G)}
    {back : Transfer B (Pipeline W G) (Shutdowner (Pipeline W G))} {env : World} {k : Nat} :
    Sound there back env k empty nobody :=
  ⟨⟨List.nodup_nil, nofun, nofun, nofun, nofun, fun _ => rfl, nofun⟩, Server.invariants_empty⟩

section Runs

variable [Peer W] [SmallRng G] (args : Args) (baseRng : G)
  (there : Transfer A (Shutdowner (Pipeline W G)) (Pipeline W G))
  (back : Transfer B (Pipeline W G) (Shutdowner (Pipeline W G))) (env : World)

/-- The process, with what is recorded beside it. -/
def recorded : Machine (Paced (Node A B W G) × Ghost) (Event W) (Poll IoError Response) :=
  (machine args baseRng there back env).watched (record args)

variable {there back}

/-- **The API's contract.** In every run of a process that passed the checks of its command line: a
listing shows, each once, the connections that can still be told to stop and whose sender no call has
taken out, and of each what it started with and what was set since; a setting is accepted if it is a
probability or needs not be one, and refused as such else; what names a connection that is not listed is
not found; a call that shuts connections down replies in its last step, and with an internal error
exactly if it came to send to a task that had gone; and no task panics. -/
theorem api_contract (copiesThere : there.Copies) (copiesBack : back.Copies)
    (valid : args.validate = .ok ()) (k : Nat) (events : List (Event W))
    (admits : ∀ ev ∈ events, Admits ev) :
    (recorded args baseRng there back env).Allowed
      (fun _ s ev => Answers s.1.state ((recorded args baseRng there back env).step s ev).2.1.state s.2
        ((recorded args baseRng there back env).step s ev).2.2.misses
        ((recorded args baseRng there back env).step s ev).1 ev)
      (⟨k, empty⟩, nobody) events := by
  have known : (recorded args baseRng there back env).Allowed
      (fun _ _ ev => Admits ev) (⟨k, empty⟩, nobody) events := Machine.allowedFrom_of_mem admits
  have step : ∀ (s : Paced (Node A B W G)) (ghost : Ghost) (ev : Event W),
      Sound there back env s.moment s.state ghost → Admits ev →
      Sound there back env ((machine args baseRng there back env).step s ev).2.moment
          ((machine args baseRng there back env).step s ev).2.state (record args ghost s ev) ∧
        Answers s.state ((machine args baseRng there back env).step s ev).2.state ghost
          (record args ghost s ev).misses ((machine args baseRng there back env).step s ev).1 ev :=
    fun s ghost ev h admits => machine_step (handle_sound copiesThere copiesBack valid admits h)
  refine .imp (P := fun _ s => Sound there back env s.1.moment s.1.state s.2) ?_ ?_ sound_empty known
  · exact fun _ s ev h admits => (step s.1 s.2 ev h admits).1
  · exact fun _ s ev h admits => (step s.1 s.2 ev h admits).2

end Runs

/-- A process without chaos, and a session with it: a delay that is set and listed, a probability that is
none, a connection that is not there, and a call that comes too late. -/
def calmArgs : Args := { upstream := "10.0.0.1:80" }

def session : List (Event Line) :=
  [.accept "a" "10.0.0.2:4000" (Server.line []) (Server.line []), .request 0 (.setDelay "a" ⟨250⟩),
    .request 1 .listConnections, .request 2 (.setTermination "a" ⟨⟨0x4000000000000000⟩⟩),
    .request 3 (.setDelay "a" ⟨0⟩), .request 4 (.shutdownConnection "b" ⟨"policy revoked"⟩),
    .request 5 (.shutdownAllConnections ⟨"closing"⟩), .poll 0, .snapshot 5 ["a"], .advance 5,
    .request 6 .listConnections, .cleanUp 0, .leave 0, .advance 5, .advance 5, .advance 5,
    .request 7 (.setSlice "a" ⟨16⟩), .request 8 .health]

theorem session_admits : ∀ ev ∈ session, Admits ev := by
  simp only [session, List.forall_mem_cons]
  exact ⟨⟨⟨rfl, rfl⟩, rfl, rfl⟩, trivial, trivial, trivial, trivial, trivial, trivial, trivial, trivial,
    trivial, trivial, trivial, trivial, trivial, trivial, trivial, trivial, trivial,
    fun ev none => by cases none⟩

/-- The session, over the buffers of `CopyBuffer` in a world where nothing moves. -/
def calm : Machine (Paced (Node CopyBuffer CopyBuffer Line Xoshiro) × Ghost) (Event Line)
    (Poll IoError Response) :=
  recorded calmArgs Server.plain.baseRng (CopyBuffer.transfer _ _) (CopyBuffer.transfer _ _) World.still

theorem session_answered :
    calm.Allowed (fun _ s ev => Answers s.1.state (calm.step s ev).2.1.state s.2
      (calm.step s ev).2.2.misses (calm.step s ev).1 ev) (⟨0, empty⟩, nobody) session :=
  api_contract calmArgs Server.plain.baseRng World.still CopyBuffer.copies CopyBuffer.copies (by decide) 0
    session session_admits

end Node

end Trixter
