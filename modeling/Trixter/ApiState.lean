import Mathlib.Logic.Function.Basic
import Trixter.Lib.Keyed
import Trixter.Lib.Runs
import Trixter.Corrupter
import Trixter.Delayer
import Trixter.ProbabilityAtomics
import Trixter.Slicer
import Trixter.Terminator
import Trixter.Throttler

/-!
# The map of connections and their settings

`main.rs`: the five adapters that `handle_connection` wraps both sockets in, each with a shared knob of
its own, and `ApiState`, through which the knobs are set. A connection's settings are atomics that its entry shares with the adapters
of its two pipelines: the entry holds their addresses, and what they hold is kept beside the map.
-/

namespace Trixter

open Trixter.Lib

/-! ## What a connection is wrapped in -/

/-- The knobs of one connection. -/
structure Knobs where
  delay : DynamicDuration
  throttleRate : DynamicRate
  sliceSize : DynamicSize
  terminateProbabilityRate : DynamicProbability
  corruptProbabilityRate : DynamicProbability
  deriving DecidableEq, Repr

/-- A socket under the five adapters. -/
abbrev Pipeline (W G : Type) :=
  Corrupter
    (Terminator
      (SlicedWriter (ThrottledWriter (DelayedWriter W DynamicDuration) DynamicRate) DynamicSize)
      DynamicProbability G)
    DynamicProbability G

namespace Pipeline

variable {W G : Type} [SmallRng G]

/-- Wrap a socket at a moment, drawing the two generators from the connection's. -/
def new (env : World) (k : Nat) (socket : W) (knobs : Knobs) (baseRng : G) : Pipeline W G × G :=
  let delayed := DelayedWriter.new (env.clock k) socket knobs.delay
  let throttled := ThrottledWriter.new env (k + 1) delayed knobs.throttleRate
  let sliced := SlicedWriter.new throttled knobs.sliceSize
  let terminated := Terminator.fromRng sliced knobs.terminateProbabilityRate baseRng
  Corrupter.fromRng terminated.1 knobs.corruptProbabilityRate terminated.2

/-- The socket. -/
def socket (s : Pipeline W G) : W := s.inner.inner.inner.inner.inner

end Pipeline

/-! ## The map -/

abbrev ConnId := String

inductive ApiError where
  | notFound
  | badProbability
  | internal
  deriving DecidableEq, Repr

/-- The addresses of the two sockets are the texts they serialize to. -/
structure ConnectionInfo where
  id : ConnId
  downstream : String
  upstream : String
  deriving DecidableEq, Repr

/-- The delay is in nanoseconds. -/
structure ConnectionStatus where
  connInfo : ConnectionInfo
  delay : Nat
  throttleRate : UInt64
  sliceSize : UInt64
  terminateProbabilityRate : F64
  corruptProbabilityRate : F64
  deriving DecidableEq, Repr

/-- What the shared atomics hold, by address. -/
abbrev Memory := Nat → UInt64

/-- `DynamicDuration::new` and its `set`: `as_nanos() as u64` keeps the low 64 bits. -/
def DynamicDuration.nanos (duration : Nat) : UInt64 := UInt64.ofNat duration

/-- `duration()`. -/
def DynamicDuration.load (m : Memory) (d : DynamicDuration) : Nat := (m d.cell).toNat

/-- `rate()`. -/
def DynamicRate.load (m : Memory) (r : DynamicRate) : UInt64 := m r.cell

/-- `size()`. -/
def DynamicSize.load (m : Memory) (s : DynamicSize) : UInt64 := m s.cell

/-- An `Arc<DynamicProbability>`: the addresses of its two atomics. -/
structure ProbabilityHandle where
  rate : Nat
  threshold : Nat
  deriving DecidableEq, Repr

namespace ProbabilityHandle

/-- What the two atomics hold. -/
def load (m : Memory) (h : ProbabilityHandle) : DynamicProbability.Atomics := ⟨m h.rate, m h.threshold⟩

/-- Both atomics overwritten. -/
def store (a : DynamicProbability.Atomics) (h : ProbabilityHandle) (m : Memory) : Memory :=
  Function.update (Function.update m h.rate a.probabilityRateBits) h.threshold
    a.probabilityThreshold

/-- The part of the handle that a draw reads. -/
def knob (h : ProbabilityHandle) : DynamicProbability := ⟨h.threshold⟩

end ProbabilityHandle

/-- The five handles of a connection. Its adapters hold clones of them. -/
structure Handles where
  delay : DynamicDuration
  throttleRate : DynamicRate
  sliceSize : DynamicSize
  terminateProbability : ProbabilityHandle
  corruptProbability : ProbabilityHandle
  deriving DecidableEq, Repr

namespace Handles

/-- The handles over the `n`-th block of seven addresses. -/
def block (n : Nat) : Handles where
  delay := ⟨7 * n⟩
  throttleRate := ⟨7 * n + 1⟩
  sliceSize := ⟨7 * n + 2⟩
  terminateProbability := ⟨7 * n + 3, 7 * n + 4⟩
  corruptProbability := ⟨7 * n + 5, 7 * n + 6⟩

/-- The knobs that both pipelines of the connection are built with. -/
def knobs (h : Handles) : Knobs where
  delay := h.delay
  throttleRate := h.throttleRate
  sliceSize := h.sliceSize
  terminateProbabilityRate := h.terminateProbability.knob
  corruptProbabilityRate := h.corruptProbability.knob

end Handles

/-- `tx` is the number of the task that holds the other half of the channel. -/
structure ConnectionState extends Handles where
  connInfo : ConnectionInfo
  tx : Nat
  deriving DecidableEq, Repr

namespace ConnectionState

/-- The closure of `all`. -/
def status (m : Memory) (c : ConnectionState) : ConnectionStatus where
  connInfo := c.connInfo
  delay := c.delay.load m
  throttleRate := c.throttleRate.load m
  sliceSize := c.sliceSize.load m
  terminateProbabilityRate := (c.terminateProbability.load m).probability
  corruptProbabilityRate := (c.corruptProbability.load m).probability

end ConnectionState

/-- What `handle_connection` created the five knobs with: the words of the first three, and two
probabilities that `DynamicProbability::new` has accepted. -/
structure FirstKnobs where
  delay : UInt64
  throttleRate : UInt64
  sliceSize : UInt64
  terminateProbability : { p : F64 // F64.contains .zero .one p }
  corruptProbability : { p : F64 // F64.contains .zero .one p }

namespace FirstKnobs

/-- The handles of a new connection's knobs hold their first values. -/
def store (first : FirstKnobs) (h : Handles) (m : Memory) : Memory :=
  let m := Function.update m h.delay.cell first.delay
  let m := Function.update m h.throttleRate.cell first.throttleRate
  let m := Function.update m h.sliceSize.cell first.sliceSize
  let m := h.terminateProbability.store
    ⟨first.terminateProbability.1.bits, thresholdOf first.terminateProbability⟩ m
  h.corruptProbability.store
    ⟨first.corruptProbability.1.bits, thresholdOf first.corruptProbability⟩ m

end FirstKnobs

/-- The map, what the atomics hold, and the number of the next block of them. -/
structure ApiState where
  connections : List (ConnId × ConnectionState)
  memory : Memory
  next : Nat

namespace ApiState

/-- `ApiState::default()`. -/
def empty : ApiState := { connections := [], memory := fun _ => 0, next := 0 }

/-- The part of `handle_connection` that creates the knobs and lists the connection under its id. The
adapters get the handles. -/
def insert (connInfo : ConnectionInfo) (tx : Nat) (first : FirstKnobs) (s : ApiState) :
    Handles × ApiState :=
  let handles := Handles.block s.next
  (handles,
    { connections := Keyed.put connInfo.id { handles with connInfo, tx } s.connections
      memory := first.store handles s.memory
      next := s.next + 1 })

/-- `all`. -/
def all (s : ApiState) : List ConnectionStatus :=
  s.connections.map fun entry => entry.2.status s.memory

/-- `remove_connection`. -/
def removeConnection (id : ConnId) (s : ApiState) : Except ApiError ConnectionState × ApiState :=
  match s.connections.lookup id with
  | some conn => (.ok conn, { s with connections := Keyed.without id s.connections })
  | none => (.error .notFound, s)

/-- The loop of `remove_all` over a list of ids: those that are still there are taken out. -/
def removeEach : List ConnId → ApiState → List ConnectionState × ApiState
  | [], s => ([], s)
  | id :: ids, s =>
    match s.removeConnection id with
    | (.ok conn, s) => ((conn :: (removeEach ids s).1), (removeEach ids s).2)
    | (.error _, s) => removeEach ids s

/-- `remove_all`. -/
def removeAll (s : ApiState) : List ConnectionState × ApiState :=
  removeEach (s.connections.map Prod.fst) s

/-- The shape of every setter: `get_mut(id).ok_or(NotFound)?`, then a store through a handle. -/
def withConn (id : ConnId) (set : ConnectionState → Memory → Except ApiError Unit × Memory)
    (s : ApiState) : Except ApiError Unit × ApiState :=
  match s.connections.lookup id with
  | some conn => ((set conn s.memory).1, { s with memory := (set conn s.memory).2 })
  | none => (.error .notFound, s)

/-- A store that cannot fail. -/
def storing (cell : ConnectionState → Nat) (word : UInt64) (conn : ConnectionState) (m : Memory) :
    Except ApiError Unit × Memory :=
  (.ok (), Function.update m (cell conn) word)

/-- `set(rate).map_err(|_| ApiError::BadProbability)` -/
def setting (handle : ConnectionState → ProbabilityHandle) (rate : F64) (conn : ConnectionState)
    (m : Memory) : Except ApiError Unit × Memory :=
  let (res, a) := ((handle conn).load m).set rate
  (res.mapError fun _ => .badProbability, (handle conn).store a m)

/-- `set_delay`. -/
def setDelay (id : ConnId) (delay : Nat) : ApiState → Except ApiError Unit × ApiState :=
  withConn id (storing (·.delay.cell) (DynamicDuration.nanos delay))

/-- `set_throttle_rate`. -/
def setThrottleRate (id : ConnId) (rate : UInt64) : ApiState → Except ApiError Unit × ApiState :=
  withConn id (storing (·.throttleRate.cell) rate)

/-- `set_slice_size`. -/
def setSliceSize (id : ConnId) (size : UInt64) : ApiState → Except ApiError Unit × ApiState :=
  withConn id (storing (·.sliceSize.cell) size)

/-- `set_terminate_probability_rate`. -/
def setTerminateProbabilityRate (id : ConnId) (rate : F64) :
    ApiState → Except ApiError Unit × ApiState :=
  withConn id (setting (·.terminateProbability) rate)

/-- `set_corrupt_probability_rate`. -/
def setCorruptProbabilityRate (id : ConnId) (rate : F64) :
    ApiState → Except ApiError Unit × ApiState :=
  withConn id (setting (·.corruptProbability) rate)

/-- A value for one of the five settings. -/
inductive Setting where
  | delay (duration : Nat)
  | throttleRate (rate : UInt64)
  | sliceSize (size : UInt64)
  | terminateProbabilityRate (rate : F64)
  | corruptProbabilityRate (rate : F64)
  deriving DecidableEq, Repr

/-- What is done to the state. -/
inductive Op where
  | insert (connInfo : ConnectionInfo) (tx : Nat) (first : FirstKnobs)
  | set (id : ConnId) (value : Setting)
  | removeConnection (id : ConnId)
  | removeAll
  | all

/-- What it returns. -/
inductive Answer where
  | inserted (handles : Handles)
  | set (res : Except ApiError Unit)
  | removed (res : Except ApiError ConnectionState)
  | removedAll (connections : List ConnectionState)
  | all (statuses : List ConnectionStatus)

/-- The setter of a setting. -/
def setter (id : ConnId) : Setting → ApiState → Except ApiError Unit × ApiState
  | .delay duration => setDelay id duration
  | .throttleRate rate => setThrottleRate id rate
  | .sliceSize size => setSliceSize id size
  | .terminateProbabilityRate rate => setTerminateProbabilityRate id rate
  | .corruptProbabilityRate rate => setCorruptProbabilityRate id rate

/-- One operation. -/
def step (s : ApiState) : Op → Answer × ApiState
  | .insert connInfo tx first => (.inserted (s.insert connInfo tx first).1, (s.insert connInfo tx first).2)
  | .set id value => (.set (setter id value s).1, (setter id value s).2)
  | .removeConnection id => (.removed (s.removeConnection id).1, (s.removeConnection id).2)
  | .removeAll => (.removedAll s.removeAll.1, s.removeAll.2)
  | .all => (.all s.all, s)

/-- The state as a machine. -/
def machine : Machine ApiState Op Answer := ⟨step⟩

end ApiState

end Trixter
