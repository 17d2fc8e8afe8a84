import Trixter.Laws.Contract

/-!
# Scripted streams

Inner streams whose answers are written down in advance, for running the adapters on. Each honours
its contract, so a run over one is a run the laws speak of. A script that has run out answers
everything at once.
-/

namespace Trixter

open Trixter.Lib Polling

/-- One answer of a script. `ready n` lets at most `n` bytes through. -/
inductive Turn where
  | ready (n : Nat)
  | later
  | fails (code : Nat)
  deriving DecidableEq, Repr

namespace Turn

/-- The answer, when at most `len` bytes can be moved. -/
def answer (len : Nat) : Turn → Poll IoError Nat
  | .ready n => .ok (min n len)
  | .later => .pending
  | .fails code => .err (.os code)

/-- The next answer of a script. -/
def next (len : Nat) : List Turn → Poll IoError Nat
  | [] => .ok len
  | turn :: _ => turn.answer len

end Turn

/-- A socket: its writes are scripted and logged, and its flush is always ready, as a
`TcpStream`'s is. -/
structure Socket where
  log : List UInt8
  writes : List Turn
  deriving DecidableEq, Repr

namespace Socket

/-- One write: the next answer, and the bytes it claims on the log. -/
def write (buf : List UInt8) : Io Socket Nat := fun _ _ s =>
  let r := Turn.next buf.length s.writes
  ⟨r, ⟨s.log ++ accepted r buf, s.writes.tail⟩, 0⟩

instance : AsyncWrite Socket where
  pollWrite := write
  pollWriteVectored bufs := write bufs.flatten
  pollFlush := pure ()
  pollShutdown := pure ()

/-- A scripted answer claims what fits. -/
theorem next_wrote (log buf : List UInt8) (turns : List Turn) :
    Wrote log buf (Turn.next buf.length turns)
      (log ++ accepted (Turn.next buf.length turns) buf) := by
  cases turns with
  | nil => exact Wrote.ok_iff.mpr ⟨Nat.le_refl _, rfl⟩
  | cons turn turns =>
    cases turn with
    | ready n => exact Wrote.ok_iff.mpr ⟨Nat.min_le_right _ _, rfl⟩
    | later => simpa [Turn.next, Turn.answer] using Wrote.pending
    | fails code => simpa [Turn.next, Turn.answer] using Wrote.err (.os code)

instance : ReadySink Socket where
  received := Socket.log
  contract :=
    { write := fun _ _ s buf _ => ⟨trivial, next_wrote s.log buf s.writes⟩
      vectored := fun _ _ s bufs _ => ⟨trivial, next_wrote s.log bufs.flatten s.writes⟩
      flush := fun _ _ _ _ => ⟨trivial, rfl, calm_ok ()⟩
      shutdown := fun _ _ _ _ => ⟨trivial, rfl, calm_ok ()⟩ }
  flushReady := fun _ _ _ _ => rfl

end Socket

/-- A socket behind a buffer of its own: its flush is scripted too. -/
structure Pipe where
  socket : Socket
  flushes : List Turn
  deriving DecidableEq, Repr

namespace Pipe

/-- A call on the socket. -/
def onSocket {α : Type} (m : Io Socket α) : Io Pipe α :=
  m.zoom (·.socket) fun s socket => { s with socket }

/-- One flush: the next answer. -/
def flush : Io Pipe Unit := fun _ _ s =>
  let r := match Turn.next 0 s.flushes with
    | .ok _ => .ok ()
    | .pending => .pending
    | .err e => .err e
    | .panicked m => .panicked m
  ⟨r, { s with flushes := s.flushes.tail }, 0⟩

instance : AsyncWrite Pipe where
  pollWrite buf := onSocket (pollWrite buf)
  pollWriteVectored bufs := onSocket (pollWriteVectored bufs)
  pollFlush := flush
  pollShutdown := pure ()

theorem flush_calm (s : Pipe) (env : World) (k : Nat) : Calm (flush env k s).result := by
  obtain ⟨socket, flushes⟩ := s
  cases flushes with
  | nil => exact calm_ok ()
  | cons turn turns =>
    cases turn with
    | ready n => exact calm_ok ()
    | later => exact calm_pending
    | fails code => exact calm_err _

instance : Sink Pipe where
  received s := s.socket.log
  contract :=
    { write := fun _ _ s buf _ => ⟨trivial, Socket.next_wrote s.socket.log buf s.socket.writes⟩
      vectored := fun _ _ s bufs _ =>
        ⟨trivial, Socket.next_wrote s.socket.log bufs.flatten s.socket.writes⟩
      flush := fun env k s _ => ⟨trivial, rfl, flush_calm s env k⟩
      shutdown := fun _ _ _ _ => ⟨trivial, rfl, calm_ok ()⟩ }

end Pipe

/-- A buffered reader: the bytes that have arrived and are unread, and what the next reads of its
source find. `none` is a source that is not ready; a source that has run out is at its end. -/
structure Arrivals where
  unread : List UInt8
  coming : List (Option (List UInt8))
  deriving DecidableEq, Repr

namespace Arrivals

/-- `BufReader::poll_fill_buf`: the unread bytes, or one read of the source. -/
def fillBuf : Io Arrivals (List UInt8) := do
  let s ← Polling.get
  if s.unread.isEmpty then
    match s.coming with
    | [] => return []
    | none :: coming => do
      Polling.modify fun s => { s with coming }
      Polling.pend
    | some bytes :: coming => do
      Polling.modify fun _ => ⟨bytes, coming⟩
      return bytes
  else
    return s.unread

/-- `BufReader::consume`. -/
def consume (amt : Nat) (s : Arrivals) : Arrivals := { s with unread := s.unread.drop amt }

/-- The end of `BufReader::poll_read`: hand over what fits. -/
def deliver (unread : List UInt8) : Io (Arrivals × ReadBuf) Unit := do
  let amt := min unread.length (← Polling.get).2.remaining
  (ReadBuf.putSlice (unread.take amt)).zoom (·.2) fun s buf => (s.1, buf)
  Polling.modify fun s => (consume amt s.1, s.2)

/-- `BufReader::poll_read`. -/
def read : Io (Arrivals × ReadBuf) Unit := do
  let unread ← fillBuf.zoom (·.1) fun s r => (r, s.2)
  deliver unread

instance : AsyncBufRead Arrivals where
  pollRead := read
  pollFillBuf := fillBuf
  consume := consume

variable {env : World} {k : Nat} {s : Arrivals}

theorem fillBuf_wp {Q : Poll IoError (List UInt8) → Arrivals → Nat → Prop} :
    (pollFillBuf : Io Arrivals (List UInt8)).wp env k s Q ↔
      if s.unread.isEmpty then
        match s.coming with
        | [] => Q (.ok []) s k
        | none :: coming => Q .pending { s with coming } k
        | some bytes :: coming => Q (.ok bytes) ⟨bytes, coming⟩ k
      else Q (.ok s.unread) s k := by
  obtain ⟨unread, coming⟩ := s
  simp only [AsyncBufRead.pollFillBuf, fillBuf, wp_bind, wp_get, wp_ite, wp_pure]
  rcases coming with _ | ⟨_ | bytes, coming⟩ <;> rfl

instance : Source Arrivals where
  buffered := Arrivals.unread
  contract :=
    { calm := fun env k r => by
        rw [fillBuf_wp]
        split
        · rcases r.coming with _ | ⟨_ | bytes, coming⟩
          · exact calm_ok _
          · exact calm_pending
          · exact calm_ok _
        · exact calm_ok _
      shows := fun env k r => by
        rw [fillBuf_wp]
        split
        · next empty =>
          have empty : r.unread = [] := by simpa using empty
          rcases r.coming with _ | ⟨_ | bytes, coming⟩
          · exact empty
          · exact empty
          · rfl
        · rfl
      stays := fun env k r some => by
        rw [fillBuf_wp, if_neg (by simpa using some)]
      consumes := fun _ _ => rfl }

end Arrivals

/-- The two halves of a connection. -/
structure Duplex where
  reading : Arrivals
  writing : Pipe
  deriving DecidableEq, Repr

namespace Duplex

/-- A call on the writing half. -/
def onWriting {α : Type} (m : Io Pipe α) : Io Duplex α :=
  m.zoom (·.writing) fun s writing => { s with writing }

instance : AsyncBufRead Duplex where
  pollRead := passRead (·.reading) fun s reading => { s with reading }
  pollFillBuf := pollFillBuf.zoom (·.reading) fun s reading => { s with reading }
  consume amt s := { s with reading := s.reading.consume amt }

instance : AsyncWrite Duplex where
  pollWrite buf := onWriting (pollWrite buf)
  pollWriteVectored bufs := onWriting (pollWriteVectored bufs)
  pollFlush := onWriting pollFlush
  pollShutdown := onWriting pollShutdown

end Duplex

/-- A world in which nothing moves: every sleep has elapsed, every knob holds zero and no channel is
held back. -/
def World.still : World where
  clock _ := 0
  alarm _ _ := true
  atomics _ _ := 0
  coop _ := 0
  proceeds _ := true
  horizon _ := 2 ^ 63 * 1000000000 - 1
  far _ := by decide

/-- A clock that moves by a nanosecond a moment, and timers that are never early. -/
def metronome : World :=
  { World.still with clock := fun k => k, alarm := fun deadline k => decide (deadline ≤ k) }

end Trixter
