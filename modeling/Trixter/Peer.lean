import Trixter.Books
import Trixter.Script

/-!
# Sockets

A socket, seen through the bytes it has given to its readers and those it has received. Its answers are
true to both, its flush is ready, and its errors are its own: none of those that the adapters make.
-/

namespace Trixter

open Trixter.Lib Polling

/-- The owner's books are the socket's, also after a failure of its own. -/
def Law.ledger {W : Type} (given received : W → List UInt8) : Law W where
  holds _ b w := given w = b.heard ∧ received w = b.said
  fails e _ b w := (∃ code, e = .os code) ∧ given w = b.heard ∧ received w = b.said
  holds_later _ h := h
  fails_later _ h := h

/-- A socket, as a `TcpStream` is. -/
class Peer (W : Type) extends AsyncRead W, ReadySink W where
  given : W → List UInt8
  honest : ∀ env, Upholds env (Law.ledger given received)

export Peer (given)

/-- Nothing has passed through it yet. -/
def Peer.Fresh {W : Type} [Peer W] (w : W) : Prop := given w = [] ∧ received w = []

/-- A scripted socket: what its reads have found and will find, and its writing half. `none` is a read
that is not ready; a script that has run out is at its end. -/
structure Line where
  given : List UInt8
  coming : List (Option (List UInt8))
  writing : Socket
  deriving DecidableEq, Repr

namespace Line

/-- A call on the writing half. -/
def onWriting {α : Type} (m : Io Socket α) : Io Line α :=
  m.zoom (·.writing) fun s writing => { s with writing }

/-- One read: what fits of the next bytes. -/
def read : Io (Line × ReadBuf) Unit := do
  let s ← Polling.get
  match s.1.coming with
  | [] => return ()
  | none :: coming => do
    Polling.modify fun s => ({ s.1 with coming }, s.2)
    Polling.pend
  | some bytes :: coming => do
    let n := s.2.remaining
    (ReadBuf.putSlice (bytes.take n)).zoom (·.2) fun s buf => (s.1, buf)
    let rest := bytes.drop n
    Polling.modify fun s => ({ s.1 with
      given := s.1.given ++ bytes.take n
      coming := if rest = [] then coming else some rest :: coming }, s.2)

instance : AsyncRead Line where
  pollRead := read

instance : AsyncWrite Line where
  pollWrite buf := onWriting (pollWrite buf)
  pollWriteVectored bufs := onWriting (pollWriteVectored bufs)
  pollFlush := onWriting pollFlush
  pollShutdown := onWriting pollShutdown

instance : ReadySink Line where
  received s := s.writing.log
  contract :=
    { write := fun _ _ s buf _ => ⟨trivial, Socket.next_wrote s.writing.log buf s.writing.writes⟩
      vectored := fun _ _ s bufs _ =>
        ⟨trivial, Socket.next_wrote s.writing.log bufs.flatten s.writing.writes⟩
      flush := fun _ _ _ _ => ⟨trivial, rfl, calm_ok ()⟩
      shutdown := fun _ _ _ _ => ⟨trivial, rfl, calm_ok ()⟩ }
  flushReady := fun _ _ _ _ => rfl

variable {env : World} {k : Nat} {b : Books} {s : Line}

/-- A read hands over what it logs. -/
theorem read_honest (buf : ReadBuf) (h : (Law.ledger Line.given received).holds k b s) :
    (pollRead : Io (Line × ReadBuf) Unit).Ends env k (s, buf)
      ((Law.ledger Line.given received).reading b buf) := by
  obtain ⟨heard, said⟩ := h
  show read.Ends env k (s, buf) _
  rw [read, ends_bind, ends_get]
  dsimp only
  rcases coming : s.coming with _ | ⟨_ | bytes, more⟩
  · refine ⟨[], by rw [List.append_nil]; rfl, ?_, said⟩
    rw [Books.hear_heard, List.append_nil]
    exact heard
  · exact ⟨heard, said⟩
  · simp only [ends_bind, ends_zoom]
    refine (ReadBuf.putSlice_wp (List.length_take_le _ _)).mpr ?_
    refine ⟨bytes.take buf.remaining, rfl, ?_, said⟩
    show s.given ++ _ = b.heard ++ _
    rw [heard]

/-- A write takes what it logs. -/
theorem write_honest (buf : List UInt8) (h : (Law.ledger Line.given received).holds k b s) :
    (pollWrite buf : Io Line Nat).Ends env k s ((Law.ledger Line.given received).writing b buf) := by
  obtain ⟨heard, said⟩ := h
  have said : s.writing.log = b.said := said
  have wrote := Socket.next_wrote s.writing.log buf s.writing.writes
  show (onWriting (Socket.write buf)).Ends env k s _
  rw [onWriting, ends_zoom]
  unfold Ends wp Socket.write
  cases answer : Turn.next buf.length s.writing.writes with
  | ok n =>
    rw [answer] at wrote
    refine ⟨wrote.fits n rfl, heard, ?_⟩
    show s.writing.log ++ buf.take n = b.said ++ buf.take n
    rw [said]
  | pending => exact ⟨heard, (List.append_nil _).trans said⟩
  | err e =>
    refine ⟨?_, heard, (List.append_nil _).trans said⟩
    cases turns : s.writing.writes with
    | nil =>
      rw [turns] at answer
      cases answer
    | cons turn turns' =>
      rw [turns] at answer
      cases turn with
      | fails code => exact ⟨code, (Poll.err.inj answer).symm⟩
      | ready n => cases answer
      | later => cases answer
  | panicked m =>
    rw [answer] at wrote
    exact absurd rfl (wrote.calm m)

instance : Peer Line where
  given := Line.given
  honest _ :=
    { read := read_honest
      write := write_honest
      flush := fun h => h
      shutdown := fun h => h }

end Line

end Trixter
