import Trixter.Server

/-!
# Shutdowns, one atomic step at a time

The handlers and the connection tasks of `main.rs` share the map step by step: any number of
`shutdown_connection` and `shutdown_all_connections` calls, and of tasks that list themselves, copy,
take their entry out and go away, each step at any time. A task is reduced here to how far it has come;
`Server` has the same steps around the copies themselves, and its runs are runs of this one
(`Laws.Reduced`). What a step does with the sender of a connection is in its answer.
-/

namespace Trixter

open Trixter.Lib

/-- How far the task of a connection has come since it listed itself. A task that is gone has
dropped its receiver. -/
inductive Progress where
  | copying
  | copied
  | cleaned
  | gone
  deriving DecidableEq, Repr

/-- A connection task, and what its receiver would find. -/
structure Conn where
  id : ConnId
  progress : Progress
  errRx : Oneshot
  deriving DecidableEq, Repr

/-- Who takes an entry out of the map. -/
inductive Party where
  | call (n : Nat)
  | task (n : Nat)
  deriving DecidableEq, Repr

/-- What happens to the sender of a connection. -/
inductive Mark where
  /-- The entry that holds it leaves the map. -/
  | took (who : Party) (tx : Nat)
  /-- A call sends with it. -/
  | used (call : Nat) (tx : Nat) (sent : Bool)
  /-- It is dropped and has sent nothing. -/
  | dropped (tx : Nat)
  deriving DecidableEq, Repr

/-- The connection it happens to. -/
def Mark.tx : Mark → Nat
  | .took _ tx => tx
  | .used _ tx _ => tx
  | .dropped tx => tx

/-- The map, the tasks and the calls. -/
structure Shutdowns where
  connections : ConnId → Option Nat
  conns : Nat → Option Conn
  calls : Nat → Call

namespace Shutdowns

/-- Nobody has come yet. -/
def empty : Shutdowns :=
  { connections := fun _ => none, conns := fun _ => none, calls := fun _ => .idle }

def setConn (n : Nat) (conn : Conn) (s : Shutdowns) : Shutdowns :=
  { s with conns := Function.update s.conns n (some conn) }

def setCall (n : Nat) (call : Call) (s : Shutdowns) : Shutdowns :=
  { s with calls := Function.update s.calls n call }

/-- The entry under `id` leaves the map. -/
def forget (id : ConnId) (s : Shutdowns) : Shutdowns :=
  { s with connections := Function.update s.connections id none }

/-- A sender is dropped. -/
def hangUp (tx : Nat) (s : Shutdowns) : Shutdowns :=
  match s.conns tx with
  | some conn => s.setConn tx { conn with errRx := conn.errRx.hangUp }
  | none => s

/-- `conn.tx.send(…)`: it fails if the receiver is gone. -/
def send (tx : Nat) (reason : String) (s : Shutdowns) : Bool × Shutdowns :=
  match s.conns tx with
  | some conn =>
    if conn.progress = .gone then (false, s)
    else (true, s.setConn tx { conn with errRx := conn.errRx.send (Server.shutdownError reason) })
  | none => (false, s)

/-- One atomic step. -/
inductive Step where
  /-- A task lists itself under the id it drew. -/
  | insert (n : Nat) (id : ConnId)
  /-- Its copy ends. -/
  | copied (n : Nat)
  /-- It takes out the entry under its id. -/
  | cleanUp (n : Nat)
  /-- It returns, and its receiver is dropped. -/
  | dropReceiver (n : Nat)
  /-- A call of `shutdown_connection` begins and takes the entry out. -/
  | shutdown (call : Nat) (id : ConnId) (reason : String)
  /-- A call of `shutdown_all_connections` begins. -/
  | shutdownAll (call : Nat) (reason : String)
  /-- Its iteration over the map has yielded these keys. -/
  | snapshot (call : Nat) (ids : List ConnId)
  /-- A call goes on: it takes the next entry out, sends the next error, or replies. -/
  | advance (call : Nat)
  deriving DecidableEq, Repr

/-- `connections.insert(id, …)` of a new task. An entry that it replaces is dropped with its
sender. -/
def insert (n : Nat) (id : ConnId) (s : Shutdowns) : List Mark × Shutdowns :=
  match s.conns n with
  | none =>
    let listed : Shutdowns :=
      { s with connections := Function.update s.connections id (some n) }.setConn n
        ⟨id, .copying, .waiting⟩
    match s.connections id with
    | some old => ([.took (.task n) old, .dropped old], listed.hangUp old)
    | none => ([], listed)
  | some _ => ([], s)

/-- The copy of a task ends. -/
def copied (n : Nat) (s : Shutdowns) : List Mark × Shutdowns :=
  match s.conns n with
  | some ⟨id, .copying, errRx⟩ => ([], s.setConn n ⟨id, .copied, errRx⟩)
  | _ => ([], s)

/-- `connections.remove(&id)`: the entry it returns is dropped with its sender. -/
def cleanUp (n : Nat) (s : Shutdowns) : List Mark × Shutdowns :=
  match s.conns n with
  | some ⟨id, .copied, errRx⟩ =>
    let cleaned := (s.setConn n ⟨id, .cleaned, errRx⟩).forget id
    match s.connections id with
    | some tx => ([.took (.task n) tx, .dropped tx], cleaned.hangUp tx)
    | none => ([], cleaned)
  | _ => ([], s)

/-- The receiver of a task is dropped. -/
def dropReceiver (n : Nat) (s : Shutdowns) : List Mark × Shutdowns :=
  match s.conns n with
  | some ⟨id, .cleaned, errRx⟩ => ([], s.setConn n ⟨id, .gone, errRx⟩)
  | _ => ([], s)

/-- `shutdown_connection` up to its send: `remove_connection`. -/
def shutdown (call : Nat) (id : ConnId) (reason : String) (s : Shutdowns) : List Mark × Shutdowns :=
  match s.calls call, s.connections id with
  | .idle, some tx => ([.took (.call call) tx], (s.forget id).setCall call (.sending reason tx))
  | .idle, none => ([], s.setCall call (.replied (.error .notFound)))
  | _, _ => ([], s)

/-- `shutdown_all_connections` begins. -/
def shutdownAll (call : Nat) (reason : String) (s : Shutdowns) : List Mark × Shutdowns :=
  match s.calls call with
  | .idle => ([], s.setCall call (.iterating reason))
  | _ => ([], s)

/-- The iteration of `remove_all` ends. -/
def snapshot (call : Nat) (ids : List ConnId) (s : Shutdowns) : List Mark × Shutdowns :=
  match s.calls call with
  | .iterating reason => ([], s.setCall call (.removing reason ids []))
  | _ => ([], s)

/-- The next step of a call. -/
def advance (call : Nat) (s : Shutdowns) : List Mark × Shutdowns :=
  match s.calls call with
  | .sending reason tx =>
    let (sent, s) := s.send tx reason
    ([.used call tx sent], s.setCall call (.replied (Call.response !sent)))
  | .removing reason (id :: ids) connections =>
    match s.connections id with
    | some tx =>
      ([.took (.call call) tx],
        (s.forget id).setCall call (.removing reason ids (connections ++ [tx])))
    | none => ([], s.setCall call (.removing reason ids connections))
  | .removing reason [] connections => ([], s.setCall call (.sendingAll reason connections false))
  | .sendingAll reason (tx :: connections) sendFailed =>
    let (sent, s) := s.send tx reason
    ([.used call tx sent], s.setCall call (.sendingAll reason connections (sendFailed || !sent)))
  | .sendingAll _ [] sendFailed => ([], s.setCall call (.replied (Call.response sendFailed)))
  | _ => ([], s)

/-- One step. -/
def step (s : Shutdowns) : Step → List Mark × Shutdowns
  | .insert n id => s.insert n id
  | .copied n => s.copied n
  | .cleanUp n => s.cleanUp n
  | .dropReceiver n => s.dropReceiver n
  | .shutdown call id reason => s.shutdown call id reason
  | .shutdownAll call reason => s.shutdownAll call reason
  | .snapshot call ids => s.snapshot call ids
  | .advance call => s.advance call

/-- The server's map and channels as a machine. -/
def machine : Machine Shutdowns Step (List Mark) := ⟨step⟩

end Shutdowns

end Trixter
