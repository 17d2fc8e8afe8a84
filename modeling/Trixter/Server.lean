import Trixter.ApiState
import Trixter.Copy
import Trixter.Shutdowner

/-!
# Connections and the API that shuts them down

`main.rs`: the tasks that `handle_connection` runs in, the map of connections they are listed in, and
the two handlers that take a connection out of the map and send its task an error. The runtime has
several threads, so handlers and tasks are interleaved wherever they touch what they share: a handler
takes an entry out in one step and sends in a later one, and a task ends its copy, takes its entry out
and goes away in three.

A task is named by a number. The two halves of its oneshot channel are the number, which is what the
map and the calls hold in place of `tx`, and the `errRx` of the task's `Shutdowner`.
-/

namespace Trixter

open Trixter.Lib

/-- The statuses the two handlers answer with. -/
inductive StatusCode where
  | accepted
  deriving DecidableEq, Repr

/-- The body of a request for a delay. -/
structure DelayReq where
  delayMs : UInt64
  deriving DecidableEq, Repr

namespace Api

/-- The handler `list_connections`. -/
def listConnections (s : ApiState) : List ConnectionStatus := s.all

/-- The handler `set_delay`. `Duration::from_millis` has room for every number of milliseconds. -/
def setDelay (id : ConnId) (req : DelayReq) (s : ApiState) : Except ApiError StatusCode × ApiState :=
  let duration := req.delayMs.toNat * 1000000
  match s.setDelay id duration with
  | (.ok (), s) => (.ok .accepted, s)
  | (.error e, s) => (.error e, s)

end Api

/-- The fields of `Config` that are not the first value of a knob. The generator is the one seeded
with `random_seed`. -/
structure Config (G : Type) where
  connectionDurationMs : Nat
  baseRng : G

/-- A task of `handle_connection` after its socket to the upstream has connected. `res` is what the
copy ended with, and `cleaned` that the entry under the task's id has been taken out since. -/
structure Task (A B W G : Type) where
  id : ConnId
  copying : Copying A B (Shutdowner (Pipeline W G)) (Pipeline W G)
  timer : Option Sleep
  res : Option (Poll IoError Unit)
  cleaned : Bool

namespace Task

variable {A B W G : Type}

/-- The task's half of its channel. -/
def errRx (t : Task A B W G) : Option Oneshot := t.copying.downstream.errRx

/-- The channel changes under the task. -/
def signal (f : Oneshot → Oneshot) (t : Task A B W G) : Task A B W G :=
  { t with copying.downstream.errRx := t.errRx.map f }

/-- `timeout(timeout_duration, fut)` around a poll of `fut`; without a duration, `fut` alone. -/
def timeout {σ : Type} (timer : Option Sleep) (copied : Poll IoError Unit) :
    Io σ (Poll IoError Unit) :=
  match copied, timer with
  | .pending, some sleep => do
    match (← Polling.inside sleep Sleep.poll).1 with
    | .ok _ => return .err (.other .timeout)
    | _ => return .pending
  | copied, _ => return copied

/-- The task after a poll: it goes on, it has a result, or it unwinds and is gone. -/
def settle (t : Task A B W G) : Poll IoError Unit → Option (Task A B W G)
  | .pending => some t
  | .panicked _ => none
  | res => some { t with res := some res }

end Task

/-- An API call. A sender is the number of its task. -/
inductive Call where
  | idle
  /-- `shutdown_connection` has taken the entry out and not sent yet. -/
  | sending (reason : String) (tx : Nat)
  /-- `remove_all` iterates over the map. -/
  | iterating (reason : String)
  /-- `remove_all` has the ids, and takes out those that are still there. -/
  | removing (reason : String) (ids : List ConnId) (connections : List Nat)
  /-- The loop of `shutdown_all_connections`. -/
  | sendingAll (reason : String) (connections : List Nat) (sendFailed : Bool)
  | replied (res : Except ApiError StatusCode)
  deriving DecidableEq, Repr

namespace Call

/-- The senders that a call holds. -/
def hand : Call → List Nat
  | .sending _ tx => [tx]
  | .removing _ _ connections => connections
  | .sendingAll _ connections _ => connections
  | _ => []

/-- The sender that its next step sends with. -/
def sends : Call → Option (Nat × String)
  | .sending reason tx => some (tx, reason)
  | .sendingAll reason (tx :: _) _ => some (tx, reason)
  | _ => none

/-- What a call replies with. -/
def response (sendFailed : Bool) : Except ApiError StatusCode :=
  if sendFailed then .error .internal else .ok .accepted

end Call

/-- The tasks that run, the number of the next one, the map of connections, and the calls of the two
handlers. -/
structure Server (A B W G : Type) where
  connections : List (ConnId × Nat)
  tasks : Nat → Option (Task A B W G)
  next : Nat
  calls : Nat → Call

namespace Server

variable {A B W G : Type}

/-- The server before the first connection. -/
def empty : Server A B W G :=
  { connections := [], tasks := fun _ => none, next := 0, calls := fun _ => .idle }

/-- One task changes. -/
def setTask (n : Nat) (t : Option (Task A B W G)) (s : Server A B W G) : Server A B W G :=
  { s with tasks := Function.update s.tasks n t }

/-- A call goes on. -/
def setCall (call : Nat) (c : Call) (s : Server A B W G) : Server A B W G :=
  { s with calls := Function.update s.calls call c }

/-- The sender of a task goes away. -/
def hangUp (s : Server A B W G) (n : Nat) : Server A B W G :=
  s.setTask n ((s.tasks n).map (Task.signal Oneshot.hangUp))

/-- `tx.send(err)`, and whether there was somebody to receive it. -/
def send (n : Nat) (err : BError) (s : Server A B W G) : Bool × Server A B W G :=
  match s.tasks n with
  | some t =>
    if t.errRx = some .waiting then
      (true, s.setTask n (some (t.signal (Oneshot.send err))))
    else (false, s)
  | none => (false, s)

/-- The entry under `id` leaves the map. -/
def forget (id : ConnId) (s : Server A B W G) : Server A B W G :=
  { s with connections := s.connections.filter fun entry => entry.1 != id }

/-- `remove_connection`. -/
def removeConnection (id : ConnId) (s : Server A B W G) :
    Except ApiError Nat × Server A B W G :=
  match s.connections.lookup id with
  | some tx => (.ok tx, s.forget id)
  | none => (.error .notFound, s)

/-- `connections.insert(id, …)`: the sender of an entry it replaces is dropped. -/
def insert (id : ConnId) (tx : Nat) (s : Server A B W G) : Server A B W G :=
  let s' := match s.connections.lookup id with
    | some old => s.hangUp old
    | none => s
  { s'.forget id with connections := (id, tx) :: (s'.forget id).connections }

/-- `connections.remove(&id)`, and the sender it returns is dropped. -/
def discard (id : ConnId) (s : Server A B W G) : Server A B W G :=
  match s.connections.lookup id with
  | some tx => (s.forget id).hangUp tx
  | none => s

/-- The error that both handlers send. -/
def shutdownError (reason : String) : BError := .ioOther (.message reason)

/-- What happens to the server. `accept` is a connection whose upstream socket has connected, with
the id that `nanoid!` drew for it. -/
inductive Event (W : Type) where
  | accept (id : ConnId) (downstream upstream : W) (knobs : Knobs)
  /-- A call of `shutdown_connection` begins, and takes the entry out. -/
  | shutdown (call : Nat) (id : ConnId) (reason : String)
  /-- A call of `shutdown_all_connections` begins. -/
  | shutdownAll (call : Nat) (reason : String)
  /-- Its iteration over the map has yielded these keys. -/
  | snapshot (call : Nat) (ids : List ConnId)
  /-- A call goes on: it takes the next entry out, sends the next error, or replies. -/
  | advance (call : Nat)
  | poll (n : Nat)
  /-- A task whose copy has ended takes out the entry under its id. -/
  | cleanUp (n : Nat)
  /-- It returns, and its receiver is dropped. -/
  | leave (n : Nat)

/-- What can be seen of it: an API call's response, the answer of a copy's poll, or a task's end and
whether it reset its sockets. -/
inductive Response where
  | silent
  | status (res : Except ApiError StatusCode)
  | polled (copied : Poll IoError Unit)
  | closed (linger : Bool)

/-- `shutdown_connection` up to its send. -/
def shutdownConnection (call : Nat) (id : ConnId) (reason : String) (s : Server A B W G) :
    Response × Server A B W G :=
  match s.calls call with
  | .idle =>
    match s.removeConnection id with
    | (.ok tx, s) => (.silent, s.setCall call (.sending reason tx))
    | (.error e, s) => (.status (.error e), s.setCall call (.replied (.error e)))
  | _ => (.silent, s)

/-- `shutdown_all_connections` begins. -/
def shutdownAllConnections (call : Nat) (reason : String) (s : Server A B W G) :
    Response × Server A B W G :=
  match s.calls call with
  | .idle => (.silent, s.setCall call (.iterating reason))
  | _ => (.silent, s)

/-- The iteration of `remove_all` ends. -/
def snapshot (call : Nat) (ids : List ConnId) (s : Server A B W G) : Response × Server A B W G :=
  match s.calls call with
  | .iterating reason => (.silent, s.setCall call (.removing reason ids []))
  | _ => (.silent, s)

/-- The next step of a call. -/
def advance (call : Nat) (s : Server A B W G) : Response × Server A B W G :=
  match s.calls call with
  | .sending reason tx =>
    let (sent, s) := s.send tx (shutdownError reason)
    (.status (Call.response !sent), s.setCall call (.replied (Call.response !sent)))
  | .removing reason (id :: ids) connections =>
    match s.removeConnection id with
    | (.ok tx, s) => (.silent, s.setCall call (.removing reason ids (connections ++ [tx])))
    | (.error _, s) => (.silent, s.setCall call (.removing reason ids connections))
  | .removing reason [] connections =>
    (.silent, s.setCall call (.sendingAll reason connections false))
  | .sendingAll reason (tx :: connections) sendFailed =>
    let (sent, s) := s.send tx (shutdownError reason)
    (.silent, s.setCall call (.sendingAll reason connections (sendFailed || !sent)))
  | .sendingAll _ [] sendFailed =>
    (.status (Call.response sendFailed), s.setCall call (.replied (Call.response sendFailed)))
  | _ => (.silent, s)

variable [SmallRng G]

/-- The first part of `handle_connection`, up to the copy: wrap both sockets, of which only the
downstream one is put under a `Shutdowner`, and list the connection. Each pipeline reads the world
four times, and `timeout` reads the clock once more. -/
def accept (cfg : Config G) (there : Transfer A (Shutdowner (Pipeline W G)) (Pipeline W G))
    (back : Transfer B (Pipeline W G) (Shutdowner (Pipeline W G))) (id : ConnId)
    (downstream upstream : W) (knobs : Knobs) : Io (Server A B W G) Response := fun env k s =>
  let downstream := Pipeline.new env k downstream knobs cfg.baseRng
  let upstream := Pipeline.new env (k + 4) upstream knobs downstream.2
  let timer :=
    if 0 < cfg.connectionDurationMs then
      some ⟨env.clock (k + 8) + cfg.connectionDurationMs * 1000000⟩
    else none
  let copying :=
    { aToB := there.start, bToA := back.start, downstream := Shutdowner.new downstream.1,
      upstream := upstream.1 }
  let spawned :=
    { s with next := s.next + 1 }.setTask s.next (some { id, copying, timer, res := none, cleaned := false })
  ⟨.ok .silent, spawned.insert id s.next, 9⟩

/-- One poll of the task's copy, under its timeout. A task that has ended is not polled. -/
def pollTask (there : Transfer A (Shutdowner (Pipeline W G)) (Pipeline W G))
    (back : Transfer B (Pipeline W G) (Shutdowner (Pipeline W G))) (n : Nat) :
    Io (Server A B W G) Response := do
  match (← Polling.get).tasks n with
  | some ⟨id, copying, timer, none, cleaned⟩ => do
    let (copied, copying) ← Polling.inside copying (copyBidirectional there back)
    let res ← Task.timeout timer copied
    Polling.modify (setTask n (Task.settle ⟨id, copying, timer, none, cleaned⟩ res))
    return .polled copied
  | _ => return .silent

/-- Whether the sockets are reset: after a termination or a timeout. -/
def lingers : Poll IoError Unit → Bool
  | .err (.other .terminated) => true
  | .err (.other .timeout) => true
  | _ => false

/-- The last part of `handle_connection`, which takes the entry under the task's id out of the map. -/
def cleanUp (n : Nat) (s : Server A B W G) : Response × Server A B W G :=
  match s.tasks n with
  | some ⟨id, copying, timer, some res, false⟩ =>
    (.closed (lingers res), (s.setTask n (some ⟨id, copying, timer, some res, true⟩)).discard id)
  | _ => (.silent, s)

/-- The end of `handle_connection`: the task goes, and the receiver of its channel with it. -/
def leave (n : Nat) (s : Server A B W G) : Response × Server A B W G :=
  match s.tasks n with
  | some ⟨_, _, _, some _, true⟩ => (.silent, s.setTask n none)
  | _ => (.silent, s)

/-- One event. -/
def handle (cfg : Config G) (there : Transfer A (Shutdowner (Pipeline W G)) (Pipeline W G))
    (back : Transfer B (Pipeline W G) (Shutdowner (Pipeline W G))) :
    Event W → Io (Server A B W G) Response
  | .accept id downstream upstream knobs => accept cfg there back id downstream upstream knobs
  | .shutdown call id reason => Polling.modifyGet (shutdownConnection call id reason)
  | .shutdownAll call reason => Polling.modifyGet (shutdownAllConnections call reason)
  | .snapshot call ids => Polling.modifyGet (snapshot call ids)
  | .advance call => Polling.modifyGet (advance call)
  | .poll n => pollTask there back n
  | .cleanUp n => Polling.modifyGet (cleanUp n)
  | .leave n => Polling.modifyGet (leave n)

/-- The server as a machine. -/
def machine (cfg : Config G) (there : Transfer A (Shutdowner (Pipeline W G)) (Pipeline W G))
    (back : Transfer B (Pipeline W G) (Shutdowner (Pipeline W G))) (env : World) :
    Machine (Paced (Server A B W G)) (Event W) (Poll IoError Response) :=
  Polling.machine env (handle cfg there back)

end Server

end Trixter
