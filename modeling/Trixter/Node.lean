import Trixter.Server

/-!
# The process

`main.rs` as a whole: the command line, the connections, and the HTTP API with its answers. The map of
connections is the one of `ApiState`, in which an entry has both the settings of a connection and its
sender; what is done to tasks and calls is done as `Server` does it. A listing or a new setting is one
step, a shutdown takes several.
-/

namespace Trixter

open Trixter.Lib

/-! ## The command line -/

/-- What a connection gets from the command line; the defaults are those of the flags. -/
structure Args where
  upstream : String
  delayMs : UInt64 := 0
  throttleRateBytes : UInt64 := 0
  sliceSizeBytes : UInt64 := 0
  terminateProbabilityRate : F64 := .zero
  corruptProbabilityRate : F64 := .zero
  connectionDurationMs : UInt64 := 0
  deriving DecidableEq, Repr

/-- A refusal of the command line, whose text is the flag, ` must be between 0.0 and 1.0 (got `, the
value and `)`. -/
structure Refusal where
  flag : String
  got : F64
  deriving DecidableEq, Repr

/-- `Config::validate`. -/
def Args.validate (args : Args) : Except Refusal Unit :=
  if !F64.contains .zero .one args.terminateProbabilityRate then
    .error ⟨"--terminate-probability-rate", args.terminateProbabilityRate⟩
  else if !F64.contains .zero .one args.corruptProbabilityRate then
    .error ⟨"--corrupt-probability-rate", args.corruptProbabilityRate⟩
  else .ok ()

/-- `DynamicProbability::new(…).expect("probability validated during config parsing")`. -/
def expectProbability (rate : F64) : Except String { p : F64 // F64.contains .zero .one p } :=
  if valid : F64.contains .zero .one rate then .ok ⟨rate, valid⟩
  else .error "probability validated during config parsing"

/-- The first knobs of every connection, or the message of a panic. -/
def Args.firstKnobs (args : Args) : Except String FirstKnobs := do
  let terminateProbability ← expectProbability args.terminateProbabilityRate
  let corruptProbability ← expectProbability args.corruptProbabilityRate
  return {
    delay := DynamicDuration.nanos (args.delayMs.toNat * 1000000)
    throttleRate := args.throttleRateBytes
    sliceSize := args.sliceSizeBytes
    terminateProbability
    corruptProbability }

/-- The part of the configuration that the tasks read. -/
def Args.config {G : Type} (args : Args) (baseRng : G) : Config G where
  connectionDurationMs := args.connectionDurationMs.toNat
  baseRng := baseRng

/-! ## Requests and responses -/

structure ThrottleReq where
  rateBytes : UInt64
  deriving DecidableEq, Repr

structure SliceReq where
  sizeBytes : UInt64
  deriving DecidableEq, Repr

structure TerminationReq where
  probabilityRate : F64
  deriving DecidableEq, Repr

structure CorruptionReq where
  probabilityRate : F64
  deriving DecidableEq, Repr

structure ShutdownReq where
  reason : String
  deriving DecidableEq, Repr

/-- A request that one of the routes takes, with its path and its body. -/
inductive Request where
  | health
  | listConnections
  | shutdownConnection (id : ConnId) (req : ShutdownReq)
  | setDelay (id : ConnId) (req : DelayReq)
  | setThrottle (id : ConnId) (req : ThrottleReq)
  | setSlice (id : ConnId) (req : SliceReq)
  | setTermination (id : ConnId) (req : TerminationReq)
  | setCorruption (id : ConnId) (req : CorruptionReq)
  | shutdownAllConnections (req : ShutdownReq)
  deriving DecidableEq, Repr

/-- The body of a response. An error is the text in `{ "error": … }`. -/
inductive Body where
  | empty
  | text (s : String)
  | error (text : String)
  | statuses (connections : List ConnectionStatus)
  deriving DecidableEq, Repr

structure HttpResponse where
  status : Nat
  body : Body
  deriving DecidableEq, Repr

namespace ApiError

/-- `#[error(…)]`. -/
def toString : ApiError → String
  | .notFound => "connection not found"
  | .badProbability => "invalid probability; must be between 0.0 and 1.0"
  | .internal => "internal error"

/-- The status of `into_response`. -/
def status : ApiError → Nat
  | .notFound => 404
  | .badProbability => 400
  | .internal => 500

/-- `into_response`. -/
def intoResponse (e : ApiError) : HttpResponse := ⟨e.status, .error e.toString⟩

end ApiError

/-- What the result of a handler is sent as. -/
def intoResponse : Except ApiError StatusCode → HttpResponse
  | .ok .accepted => ⟨202, .empty⟩
  | .error e => e.intoResponse

namespace Api

/-- `state.…?; Ok(StatusCode::ACCEPTED)` -/
def accepting : Except ApiError Unit × ApiState → Except ApiError StatusCode × ApiState
  | (.ok (), s) => (.ok .accepted, s)
  | (.error e, s) => (.error e, s)

/-- `set_throttle`. -/
def setThrottle (id : ConnId) (req : ThrottleReq) (s : ApiState) :
    Except ApiError StatusCode × ApiState := accepting (s.setThrottleRate id req.rateBytes)

/-- `set_slice`. -/
def setSlice (id : ConnId) (req : SliceReq) (s : ApiState) :
    Except ApiError StatusCode × ApiState := accepting (s.setSliceSize id req.sizeBytes)

/-- `set_termination`. -/
def setTermination (id : ConnId) (req : TerminationReq) (s : ApiState) :
    Except ApiError StatusCode × ApiState :=
  accepting (s.setTerminateProbabilityRate id req.probabilityRate)

/-- `set_corruption`. -/
def setCorruption (id : ConnId) (req : CorruptionReq) (s : ApiState) :
    Except ApiError StatusCode × ApiState :=
  accepting (s.setCorruptProbabilityRate id req.probabilityRate)

end Api

/-! ## The machine -/

namespace ApiState

/-- The entries with their senders alone. -/
def senders (s : ApiState) : List (ConnId × Nat) :=
  s.connections.map fun entry => (entry.1, entry.2.tx)

end ApiState

/-- The map and what its settings hold, the tasks that run, the number of the next one, and the calls
that shut connections down. -/
structure Node (A B W G : Type) where
  api : ApiState
  tasks : Nat → Option (Task A B W G)
  next : Nat
  calls : Nat → Call

namespace Node

variable {A B W G : Type}

/-- Before the first connection. -/
def empty : Node A B W G :=
  { api := .empty, tasks := fun _ => none, next := 0, calls := fun _ => .idle }

/-- The server in the process. -/
def server (s : Node A B W G) : Server A B W G :=
  { connections := s.api.senders, tasks := s.tasks, next := s.next, calls := s.calls }

/-- Its tasks and calls change. -/
def withServer (server : Server A B W G) (s : Node A B W G) : Node A B W G :=
  { s with tasks := server.tasks, next := server.next, calls := server.calls }

/-- A call goes on. -/
def setCall (call : Nat) (c : Call) (s : Node A B W G) : Node A B W G :=
  { s with calls := Function.update s.calls call c }

/-- What happens to the process. `accept` is a connection whose upstream socket has connected, with the
id that `nanoid!` drew for it and the client's address; a request comes with a number, under which a
shutdown goes on. -/
inductive Event (W : Type) where
  | accept (id : ConnId) (addr : String) (downstream upstream : W)
  | request (call : Nat) (req : Request)
  | snapshot (call : Nat) (ids : List ConnId)
  | advance (call : Nat)
  | poll (n : Nat)
  | cleanUp (n : Nat)
  | leave (n : Nat)

/-- What can be seen of it. -/
inductive Response where
  | silent
  | http (res : HttpResponse)
  | polled (copied : Poll IoError Unit)
  | closed (linger : Bool)

/-- How a response of the server is seen. -/
def Response.of : Server.Response → Response
  | .silent => .silent
  | .status res => .http (intoResponse res)
  | .polled copied => .polled copied
  | .closed linger => .closed linger

/-- A handler that changes settings. -/
def onApi (call : ApiState → Except ApiError StatusCode × ApiState) (s : Node A B W G) :
    Response × Node A B W G :=
  let (res, api) := call s.api
  (.http (intoResponse res), { s with api })

/-- A step of the server that leaves the map alone. -/
def onCalls (step : Server A B W G → Server.Response × Server A B W G) (s : Node A B W G) :
    Response × Node A B W G :=
  let (res, server) := step s.server
  (.of res, s.withServer server)

/-- `shutdown_connection` up to its send. -/
def shutdownConnection (call : Nat) (id : ConnId) (req : ShutdownReq) (s : Node A B W G) :
    Response × Node A B W G :=
  match s.calls call with
  | .idle =>
    match s.api.removeConnection id with
    | (.ok conn, api) => (.silent, { s with api }.setCall call (.sending req.reason conn.tx))
    | (.error e, api) => (.http e.intoResponse, { s with api }.setCall call (.replied (.error e)))
  | _ => (.silent, s)

/-- A request, and its response if it has one at once. -/
def respond (call : Nat) (req : Request) (s : Node A B W G) : Response × Node A B W G :=
  match req with
  | .health => (.http ⟨200, .text "ok"⟩, s)
  | .listConnections => (.http ⟨200, .statuses (Api.listConnections s.api)⟩, s)
  | .shutdownConnection id req => s.shutdownConnection call id req
  | .setDelay id req => s.onApi (Api.setDelay id req)
  | .setThrottle id req => s.onApi (Api.setThrottle id req)
  | .setSlice id req => s.onApi (Api.setSlice id req)
  | .setTermination id req => s.onApi (Api.setTermination id req)
  | .setCorruption id req => s.onApi (Api.setCorruption id req)
  | .shutdownAllConnections req => s.onCalls (Server.shutdownAllConnections call req.reason)

/-- The next step of a call. The loop of `remove_all` takes an entry out; no other step touches the
map. -/
def advance (call : Nat) (s : Node A B W G) : Response × Node A B W G :=
  match s.calls call with
  | .removing reason (id :: ids) connections =>
    match s.api.removeConnection id with
    | (.ok conn, api) =>
      (.silent, { s with api }.setCall call (.removing reason ids (connections ++ [conn.tx])))
    | (.error _, api) => (.silent, { s with api }.setCall call (.removing reason ids connections))
  | _ => s.onCalls (Server.advance call)

/-- The last part of `handle_connection`, which takes the entry under the task's id out of the map. -/
def cleanUp (n : Nat) (s : Node A B W G) : Response × Node A B W G :=
  match s.tasks n with
  | some ⟨id, copying, timer, some res, false⟩ =>
    let cleaned := s.server.setTask n (some ⟨id, copying, timer, some res, true⟩)
    match s.api.removeConnection id with
    | (.ok conn, api) =>
      (.closed (Server.lingers res), { s with api }.withServer (cleaned.hangUp conn.tx))
    | (.error _, api) => (.closed (Server.lingers res), { s with api }.withServer cleaned)
  | _ => (.silent, s)

/-- A program of the server. -/
def onServer (m : Io (Server A B W G) Server.Response) : Io (Node A B W G) Response := do
  let res ← m.zoom server fun s server => s.withServer server
  return .of res

variable [SmallRng G]

/-- `handle_connection` up to the copy: create the knobs, wrap the sockets, and list them. -/
def accept (args : Args) (baseRng : G)
    (there : Transfer A (Shutdowner (Pipeline W G)) (Pipeline W G))
    (back : Transfer B (Pipeline W G) (Shutdowner (Pipeline W G))) (id : ConnId) (addr : String)
    (downstream upstream : W) : Io (Node A B W G) Response :=
  match args.firstKnobs with
  | .error message => Polling.panic message
  | .ok first => do
    let s ← Polling.get
    let (handles, api) := s.api.insert ⟨id, addr, args.upstream⟩ s.next first
    let res ← onServer
      (Server.accept (args.config baseRng) there back id downstream upstream handles.knobs)
    Polling.modify fun s => { s with api }
    return res

/-- One event. -/
def handle (args : Args) (baseRng : G)
    (there : Transfer A (Shutdowner (Pipeline W G)) (Pipeline W G))
    (back : Transfer B (Pipeline W G) (Shutdowner (Pipeline W G))) :
    Event W → Io (Node A B W G) Response
  | .accept id addr downstream upstream => accept args baseRng there back id addr downstream upstream
  | .request call req => Polling.modifyGet (respond call req)
  | .snapshot call ids => Polling.modifyGet (onCalls (Server.snapshot call ids))
  | .advance call => Polling.modifyGet (advance call)
  | .poll n => onServer (Server.pollTask there back n)
  | .cleanUp n => Polling.modifyGet (cleanUp n)
  | .leave n => Polling.modifyGet (onCalls (Server.leave n))

/-- The process as a machine. -/
def machine (args : Args) (baseRng : G)
    (there : Transfer A (Shutdowner (Pipeline W G)) (Pipeline W G))
    (back : Transfer B (Pipeline W G) (Shutdowner (Pipeline W G))) (env : World) :
    Machine (Paced (Node A B W G)) (Event W) (Poll IoError Response) :=
  Polling.machine env (handle args baseRng there back)

end Node

end Trixter
