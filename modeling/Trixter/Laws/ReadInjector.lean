import Trixter.Laws.Injector
import Trixter.Script
import Trixter.Tally

/-!
# Runs of a read injector

Messages arrive when they like, the channel closes, and the caller reads into buffers of any size.
A read turns to the message under way, or to the one that `poll_recv` hands over, and to the inner
reader only without one (`pollRead_reads`). So what has been delivered is a weave of the messages
received with the bytes of the inner reader: `delivers_messages`. Nothing is said of the buffered
interface, which does not look at the messages.
-/

namespace Trixter

open Trixter.Lib Polling

namespace ReadInjector

/-- What a move answers, and the bytes it has put into the caller's buffer. -/
structure Delivery where
  result : Poll IoError Unit
  bytes : List UInt8
  deriving DecidableEq, Repr

variable {R : Type} [AsyncRead R]

/-- The channel changes. -/
def onChannel {C : Type} (move : InjectMove C) (s : ReadInjector R) : ReadInjector R :=
  { s with injectRx := move.onChannel s.injectRx }

/-- The injector as a machine. Whatever is in the buffer after a poll is delivered, be the poll a
success or not. -/
def delivering (R : Type) [AsyncRead R] (env : World) :
    Machine (Paced (ReadInjector R)) (InjectMove ReadBuf) Delivery where
  step s
    | .caller buf =>
      let o := pollRead env s.moment (s.state, buf)
      (⟨o.result, o.state.2.filled.drop buf.filled.length⟩, ⟨s.moment + o.took, o.state.1⟩)
    | change => (⟨.ok (), []⟩, ⟨s.moment, s.state.onChannel change⟩)

/-- Everything delivered so far. -/
def delivered (past : History (InjectMove ReadBuf) Delivery) : List UInt8 := past.flatMap (·.2.bytes)

/-- The message that a read turns to: the one under way, or the one that `poll_recv` hands over. -/
def message? (env : World) (k : Nat) (s : ReadInjector R) : Option (List UInt8) :=
  s.buffer.or (s.injectRx.next? env k)

/-- The messages that have arrived are those of the weave and those in the queue, and what is missing
of the last one received is stored. -/
structure Carries (w : Weave UInt8) (arrived : List (List UInt8)) (s : ReadInjector R) : Prop where
  blocks : w.blocks ++ s.injectRx.queue = arrived
  rest : w.rest = s.buffer

section Read

variable {env : World} {k : Nat} {s : ReadInjector R} {buf : ReadBuf}
  {Q : Poll IoError Unit → ReadInjector R × ReadBuf → Nat → Prop}

/-- What is left of a message after a read. -/
def left (buf : ReadBuf) (message : List UInt8) : Option (List UInt8) :=
  let rest := message.drop (min buf.remaining message.length)
  if rest.isEmpty then none else some rest

/-- What a read takes of a message. -/
def taken (buf : ReadBuf) (message : List UInt8) : List UInt8 :=
  message.take (min buf.remaining message.length)

omit [AsyncRead R] in
theorem replay_wp {message : List UInt8} :
    (replay message).wp env k (s, buf) Q ↔
      Q (.ok ()) ({ s with buffer := left buf message },
        { buf with filled := buf.filled ++ taken buf message }) k := by
  have fits : (taken buf message).length ≤ buf.remaining := by
    rw [taken, List.length_take]
    omega
  unfold replay
  simp only [wp_bind, wp_get, onBuf, wp_zoom]
  rw [← taken, ReadBuf.putSlice_wp fits]
  rfl

/-- A read goes on with the stored message, or takes the next one up, or is one of the inner
reader. -/
theorem pollRead_wp :
    (pollRead : Io (ReadInjector R × ReadBuf) Unit).wp env k (s, buf) Q ↔
      match s.buffer, s.injectRx.next? env k with
      | some message, _ => Q (.ok ()) ({ s with buffer := left buf message },
          { buf with filled := buf.filled ++ taken buf message }) k
      | none, some message => Q (.ok ())
          ({ s with
              buffer := left buf message
              injectRx := { s.injectRx with queue := s.injectRx.queue.tail } },
            { buf with filled := buf.filled ++ taken buf message }) (k + 1)
      | none, none => pollRead.wp env (k + 1) (s.inner, buf) fun r t k' =>
          Q r ({ s with inner := t.1 }, t.2) k' := by
  simp only [AsyncRead.pollRead]
  rw [wp_bind, wp_get]
  obtain ⟨inner, buffer, rx⟩ := s
  cases buffer with
  | some message => exact replay_wp
  | none =>
    dsimp only
    rw [wp_bind, onRx, wp_zoom, InjectRx.pollRecv_wp]
    dsimp only
    cases rx.next? env k with
    | some message => exact replay_wp
    | none => cases env.proceeds k && rx.closed <;> rfl

/-- What a read does: with a message it hands over the next bytes of it, and without one it is a read
of the inner reader. -/
def Reads (env : World) (k : Nat) (s : ReadInjector R) (buf : ReadBuf) (r : Poll IoError Unit)
    (t : ReadInjector R × ReadBuf) : Prop :=
  match s.message? env k with
  | some message => r = .ok () ∧ t.1.inner = s.inner ∧ t.1.buffer = left buf message ∧
      t.2 = { buf with filled := buf.filled ++ taken buf message }
  | none =>
    let o := pollRead env (k + 1) (s.inner, buf)
    r = o.result ∧ t = ({ s with inner := o.state.1 }, o.state.2)

variable (env k s buf) in
theorem pollRead_reads :
    (pollRead : Io (ReadInjector R × ReadBuf) Unit).wp env k (s, buf) fun r t _ =>
      Reads env k s buf r t := by
  rw [pollRead_wp]
  unfold Reads message?
  cases s.buffer with
  | some message => exact ⟨rfl, rfl, rfl, rfl⟩
  | none =>
    cases s.injectRx.next? env k with
    | some message => exact ⟨rfl, rfl, rfl, rfl⟩
    | none => exact wp_iff.mpr ⟨rfl, rfl⟩

end Read

/-! ## The weave -/

section Weave

variable {w : Weave UInt8} {buf : ReadBuf} {message : List UInt8}

/-- The next part of the message under way is delivered, and with the last one it is complete. -/
theorem weave_taken (h : w.rest = some message) :
    ∃ w' : Weave UInt8, w'.bytes = w.bytes ++ taken buf message ∧ w'.callers = w.callers ∧
      w'.blocks = w.blocks ∧ w'.rest = left buf message := by
  have rest := @Weave.write_rest _ _ _ (min buf.remaining message.length) h
  unfold left taken
  by_cases empty : message.drop (min buf.remaining message.length) = []
  · rw [empty] at rest ⊢
    refine ⟨(w.write (min buf.remaining message.length)).finish, ?_, ?_, ?_, ?_⟩
    · rw [Weave.finish_bytes, Weave.write_bytes h]
    · rw [Weave.finish_callers, Weave.write_callers]
    · rw [Weave.finish_blocks rest, Weave.write_blocks h]
    · exact Weave.finish_rest
  · have some : (message.drop (min buf.remaining message.length)).isEmpty = false := by
      simpa using empty
    refine ⟨w.write (min buf.remaining message.length), Weave.write_bytes h, Weave.write_callers,
      Weave.write_blocks h, ?_⟩
    dsimp only
    rw [rest, some]
    rfl

/-- So is the first part of a message that is begun when none is under way. -/
theorem weave_begun (idle : w.rest = none) :
    ∃ w' : Weave UInt8, w'.bytes = w.bytes ++ taken buf message ∧ w'.callers = w.callers ∧
      w'.blocks = w.blocks ++ [message] ∧ w'.rest = left buf message := by
  obtain ⟨w', bytes, callers, blocks, rest⟩ :=
    @weave_taken (w.start message) buf message Weave.start_rest
  refine ⟨w', ?_, ?_, ?_, rest⟩
  · rw [bytes, Weave.start_bytes idle]
  · rw [callers, Weave.start_callers]
  · rw [blocks, Weave.start_blocks idle]

end Weave

variable {env : World} {k : Nat} {rx : InjectRx} {past : History (InjectMove ReadBuf) Delivery}

/-- **One read carries the weave on**, by a part of a message or by bytes of the inner reader. -/
theorem read_carries {s : ReadInjector R} {w : Weave UInt8} {arrived : List (List UInt8)}
    (h : Carries w arrived s) (buf : ReadBuf) :
    (pollRead : Io (ReadInjector R × ReadBuf) Unit).wp env k (s, buf) fun _ t _ =>
      ∃ w' : Weave UInt8, w'.bytes = w.bytes ++ t.2.filled.drop buf.filled.length ∧
        w'.callers = w.callers ++
          (if s.message? env k = none then t.2.filled.drop buf.filled.length else []) ∧
        Carries w' arrived t.1 := by
  rw [pollRead_wp]
  obtain ⟨inner, buffer, rx⟩ := s
  obtain ⟨blocks, rest⟩ := h
  unfold message?
  cases buffer with
  | some message =>
    obtain ⟨w', bytes', callers', blocks', rest'⟩ := @weave_taken w buf message rest
    refine ⟨w', ?_, ?_, blocks' ▸ blocks, rest'⟩
    · rw [bytes', List.drop_left]
    · rw [callers', if_neg nofun, List.append_nil]
  | none =>
    dsimp only
    cases next : rx.next? env k with
    | some message =>
      obtain ⟨w', bytes', callers', blocks', rest'⟩ := @weave_begun w buf message rest
      refine ⟨w', ?_, ?_, ?_, rest'⟩
      · rw [bytes', List.drop_left]
      · rw [callers', if_neg nofun, List.append_nil]
      · rw [blocks', List.append_assoc, List.singleton_append, ← InjectRx.queue_of_next? next]
        exact blocks
    | none =>
      refine wp_iff.mpr ⟨w.call _, Weave.call_bytes rest, ?_, ?_, rest⟩
      · rw [Weave.call_callers, Option.none_or, if_pos rfl]
      · rw [Weave.call_blocks rest]
        exact blocks

omit [AsyncRead R] in
/-- A change of the channel adds to what has arrived. -/
theorem Carries.onChannel {s : ReadInjector R} {w : Weave UInt8} {arrived : List (List UInt8)}
    (h : Carries w arrived s) {C : Type} (move : InjectMove C) :
    Carries w (arrived ++ move.message?.toList) (s.onChannel move) := by
  refine ⟨?_, h.rest⟩
  rw [← h.blocks, List.append_assoc, ← InjectMove.onChannel_queue]
  rfl

end ReadInjector

end Trixter
