import Mathlib.Algebra.GroupWithZero.Nat
import Trixter.Lib.Poll

/-!
# The I/O traits and what lies behind them

The adapters of `tokio-netem` are generic over tokio's `AsyncRead`, `AsyncBufRead` and
`AsyncWrite`. Here each trait is a class whose methods are poll programs, so an adapter over a
writer is again a writer and a stack of adapters is a composite type, as in the source.

What no adapter owns is the `World`: the clock, the timer driver, the shared atomics behind the
dynamic knobs, and the cooperative budget of the task, which also holds channels back. It is a
function of the moment. Every read of it takes a moment of its own, so a knob that another task sets
between two reads of one poll is a world that holds different values at the two moments.
-/

namespace Trixter

open Trixter.Lib

/-- A boxed error, as the source builds them. `ioOther` is an `io::Error::other` boxed again, the
shape `shutdown_connection` sends. -/
inductive BError where
  | terminated
  | shutdown
  | timeout
  | probability
  | message (text : String)
  | ioOther (inner : BError)
  deriving DecidableEq, Repr

/-- `io::Error`. `os` is any failure of the streams below the adapters. -/
inductive IoError where
  | other (inner : BError)
  | writeZero (text : String)
  | invalidInput (inner : BError)
  | os (code : Nat)
  deriving DecidableEq, Repr

/-- What the adapters can observe but not change, moment by moment. -/
structure World where
  /-- `Instant::now()` read at a moment, in nanoseconds. -/
  clock : Nat → Nat
  /-- Whether a `Sleep` with this deadline, polled at this moment, has elapsed. -/
  alarm : Nat → Nat → Bool
  /-- What the shared atomic at this address holds at this moment. -/
  atomics : Nat → Nat → UInt64
  /-- How many more times the runtime lets an elapsed `Sleep` make progress in this poll. -/
  coop : Nat → Nat
  /-- Whether the runtime lets a receiver that is polled at this moment look at its channel. -/
  proceeds : Nat → Bool
  /-- The longest duration that can be added to an `Instant` of this moment. -/
  horizon : Nat → Nat
  /-- It is centuries away: a `u64` of nanoseconds can always be added. -/
  far : ∀ k, 2 ^ 64 ≤ horizon k

/-- Timers that are never late. -/
def World.Prompt (env : World) : Prop := ∀ deadline k, deadline ≤ env.clock k → env.alarm deadline k = true

/-- A poll program of the adapters. -/
abbrev Io (σ α : Type) := Polling World IoError σ α

/-- `Instant::now()`. -/
def now {σ : Type} : Io σ Nat := Polling.observe fun w k _ => w.clock k

/-- `Instant::now() + duration`, which has to be an `Instant` again. -/
def fromNow {σ : Type} (duration : Nat) : Io σ Nat := do
  let (start, horizon) ← Polling.observe fun w k _ => (w.clock k, w.horizon k)
  if horizon < duration then
    Polling.panic "overflow when adding duration to instant"
  else
    return start + duration

/-- `coop::poll_proceed`, which every poll of a channel begins with. -/
def proceeds {σ : Type} : Io σ Bool := Polling.observe fun w k _ => w.proceeds k

/-- tokio's `Sleep`: the deadline it was last reset to. -/
structure Sleep where
  deadline : Nat
  deriving DecidableEq, Repr

namespace Sleep

/-- Polling a `Sleep`. -/
def poll : Io Sleep Unit := do
  let elapsed ← Polling.observe fun w k (s : Sleep) => w.alarm s.deadline k
  if elapsed then return () else Polling.pend

/-- `sleep.as_mut().reset(deadline)`. -/
def reset (_ : Sleep) (deadline : Nat) : Sleep := ⟨deadline⟩

end Sleep

/-- tokio's `ReadBuf`: the bytes filled in so far and the size of the whole buffer. -/
structure ReadBuf where
  filled : List UInt8
  capacity : Nat
  deriving DecidableEq, Repr

namespace ReadBuf

/-- The room left. -/
def remaining (b : ReadBuf) : Nat := b.capacity - b.filled.length

/-- Append to the filled part; more than fits is an assertion failure. -/
def putSlice (bytes : List UInt8) : Io ReadBuf Unit := do
  let b ← Polling.get
  if bytes.length ≤ b.remaining then Polling.modify fun b => { b with filled := b.filled ++ bytes }
  else Polling.panic "buf.len() must fit in remaining()"

end ReadBuf

/-- `AsyncRead`: a read appends to the caller's buffer. -/
class AsyncRead (R : Type) where
  pollRead : Io (R × ReadBuf) Unit

/-- `AsyncBufRead`: the unread bytes can be looked at and then consumed. -/
class AsyncBufRead (R : Type) extends AsyncRead R where
  pollFillBuf : Io R (List UInt8)
  consume : Nat → R → R

/-- `AsyncWrite`. -/
class AsyncWrite (W : Type) where
  pollWrite : List UInt8 → Io W Nat
  pollWriteVectored : List (List UInt8) → Io W Nat
  pollFlush : Io W Unit
  pollShutdown : Io W Unit

export AsyncRead (pollRead)

/-- A read passed through to the inner reader. -/
def passRead {σ R : Type} [AsyncRead R] (inner : σ → R) (setInner : σ → R → σ) :
    Io (σ × ReadBuf) Unit :=
  AsyncRead.pollRead.zoom (fun s => (inner s.1, s.2)) fun s t => (setInner s.1 t.1, t.2)

export AsyncBufRead (pollFillBuf)
export AsyncWrite (pollWrite pollWriteVectored pollFlush pollShutdown)

/-- A caller's write, through either entry point. -/
inductive WriteCall where
  | scalar (buf : List UInt8)
  | vectored (bufs : List (List UInt8))
  deriving DecidableEq, Repr

namespace WriteCall

/-- The bytes the call offers. -/
def content : WriteCall → List UInt8
  | .scalar buf => buf
  | .vectored bufs => bufs.flatten

/-- One poll of the call. -/
def poll {W : Type} [AsyncWrite W] : WriteCall → Io W Nat
  | .scalar buf => pollWrite buf
  | .vectored bufs => pollWriteVectored bufs

end WriteCall

/-- A poll of any of the three writing operations. -/
inductive WriteOp where
  | write (call : WriteCall)
  | flush
  | shutdown
  deriving DecidableEq, Repr

namespace WriteOp

/-- The bytes the operation offers. -/
def offer : WriteOp → List UInt8
  | .write call => call.content
  | .flush => []
  | .shutdown => []

/-- Anything but a vectored write. -/
def Scalar : WriteOp → Prop
  | .write (.vectored _) => False
  | _ => True

instance : (op : WriteOp) → Decidable op.Scalar
  | .write (.vectored _) => inferInstanceAs (Decidable False)
  | .write (.scalar _) => inferInstanceAs (Decidable True)
  | .flush => inferInstanceAs (Decidable True)
  | .shutdown => inferInstanceAs (Decidable True)

/-- One poll of the operation. A flush and a shutdown answer for no byte. -/
def poll {W : Type} [AsyncWrite W] : WriteOp → Io W Nat
  | .write call => call.poll
  | .flush => do pollFlush; return 0
  | .shutdown => do pollShutdown; return 0

end WriteOp

/-- A poll of any of the six kinds. -/
inductive IoCall where
  | read (buf : ReadBuf)
  | fillBuf
  | write (op : WriteOp)
  deriving DecidableEq, Repr

/-- What such a poll answers when it is `Ready(Ok)`. -/
inductive Reply where
  | filled (buf : ReadBuf)
  | bytes (unread : List UInt8)
  | count (n : Nat)
  deriving DecidableEq, Repr

/-- One poll of the call. -/
def IoCall.poll {T : Type} [AsyncBufRead T] [AsyncWrite T] : IoCall → Io T Reply
  | .read buf => do return .filled (← Polling.lend buf pollRead)
  | .fillBuf => do return .bytes (← pollFillBuf)
  | .write op => do return .count (← op.poll)

/-- What a reader's owner may do: read into a buffer, or look at the unread bytes and consume some. -/
inductive ReadCall where
  | read (buf : ReadBuf)
  | fillBuf
  | consume (amt : Nat)
  deriving DecidableEq, Repr

/-- One poll of the call. A read answers with the bytes it put into the buffer. -/
def ReadCall.poll {R : Type} [AsyncBufRead R] : ReadCall → Io R (List UInt8)
  | .read buf => do return (← Polling.lend buf pollRead).filled.drop buf.filled.length
  | .fillBuf => pollFillBuf
  | .consume amt => do
    Polling.modify (AsyncBufRead.consume amt)
    return []

/-! ## The write contract

A writer is observed through the bytes it has received. `accepted` is the part of a caller's
buffer that an answer claims, and the contract says that a poll moves exactly that part. -/

/-- The bytes of the caller's buffer that the answer claims. -/
def accepted (r : Poll IoError Nat) (buf : List UInt8) : List UInt8 :=
  match r with
  | .ok n => buf.take n
  | _ => []

@[simp] theorem accepted_ok (n : Nat) (buf : List UInt8) :
    accepted (.ok n) buf = buf.take n := rfl

@[simp] theorem accepted_pending (buf : List UInt8) : accepted .pending buf = [] := rfl

@[simp] theorem accepted_err (e : IoError) (buf : List UInt8) : accepted (.err e) buf = [] := rfl

@[simp] theorem accepted_panicked (m : String) (buf : List UInt8) :
    accepted (.panicked m) buf = [] := rfl

/-- The poll came back: it did not unwind. -/
def Calm {α : Type} (r : Poll IoError α) : Prop := ∀ message, r ≠ .panicked message

/-- One write poll kept the contract: it came back, its answer claims no more than was offered, and
the writer received exactly what the answer claims. -/
structure Wrote (before buf : List UInt8) (r : Poll IoError Nat) (after : List UInt8) : Prop where
  fits : ∀ n, r = .ok n → n ≤ buf.length
  moved : after = before ++ accepted r buf
  calm : Calm r

/-- `W` keeps the write contract from every state that satisfies `inv`, seen through `received`. -/
structure Contract (W : Type) [AsyncWrite W] (inv : W → Prop) (received : W → List UInt8) :
    Prop where
  write : ∀ env k w buf, inv w → (pollWrite buf).wp env k w fun r w' _ =>
    inv w' ∧ Wrote (received w) buf r (received w')
  vectored : ∀ env k w bufs, inv w → (pollWriteVectored bufs).wp env k w fun r w' _ =>
    inv w' ∧ Wrote (received w) bufs.flatten r (received w')
  flush : ∀ env k w, inv w → pollFlush.wp env k w fun r w' _ =>
    inv w' ∧ received w' = received w ∧ Calm r
  shutdown : ∀ env k w, inv w → pollShutdown.wp env k w fun r w' _ =>
    inv w' ∧ received w' = received w ∧ Calm r

/-- `W`'s flush answers `Ready(Ok)` in every state that satisfies `inv`. -/
def FlushReady (W : Type) [AsyncWrite W] (inv : W → Prop) : Prop :=
  ∀ env k w, inv w → pollFlush.wp env k w fun r _ _ => r = .ok ()

/-- An inner writer that honours the contract: whatever it answers, it has received exactly what
its answers claim. -/
class Sink (W : Type) extends AsyncWrite W where
  received : W → List UInt8
  contract : Contract W (fun _ => True) received

export Sink (received)

/-- A sink whose flush is always ready, as a `TcpStream`'s is. -/
class ReadySink (W : Type) extends Sink W where
  flushReady : FlushReady W fun _ => True

/-! ## The buffered read contract -/

/-- `R` keeps the contract of `AsyncBufRead`, seen through the bytes it holds unread: it never
unwinds, an answer shows what it holds, bytes once shown stay until they are consumed, and a consume
takes them from the front. -/
structure BufContract (R : Type) [AsyncBufRead R] (buffered : R → List UInt8) : Prop where
  calm : ∀ env k r, (pollFillBuf : Io R _).wp env k r fun answer _ _ => Calm answer
  shows : ∀ env k r, (pollFillBuf : Io R _).wp env k r fun answer r' _ =>
    buffered r' = answer.value?.getD []
  stays : ∀ env k r, buffered r ≠ [] → (pollFillBuf : Io R _).wp env k r fun answer _ _ =>
    answer = .ok (buffered r)
  consumes : ∀ n r, buffered (AsyncBufRead.consume n r) = (buffered r).drop n

/-- An inner reader that honours the contract, as a `BufReader` does. -/
class Source (R : Type) extends AsyncBufRead R where
  buffered : R → List UInt8
  contract : BufContract R buffered

export Source (buffered)

end Trixter
