import Trixter.Lib.Exit
import Trixter.Copy
import Trixter.Io

/-!
# Books and laws of a stream

What passes between a stream and its owner is kept in two books: the bytes that were read from it, and
those of the owner's that it has accepted. A `Law` is what is known of a stream beside its books, between
two polls and after a failed one. It is upheld if every poll that starts under it ends under it, with
the books brought up to date.

`Transfer.Copies` is what the repository relies on of tokio's `copy_bidirectional` here: a direction
touches its streams through their traits alone, so whatever law they uphold goes on holding, it ends
with the first failure of either, and it writes what it read, in order.
-/

namespace Trixter

open Trixter.Lib Polling

/-- Bytes read from a stream, and bytes it has accepted. -/
structure Books where
  heard : List UInt8
  said : List UInt8
  deriving DecidableEq, Repr

namespace Books

/-- Nothing has passed. -/
def blank : Books := ⟨[], []⟩

/-- More was read. -/
def hear (b : Books) (bytes : List UInt8) : Books := { b with heard := b.heard ++ bytes }

/-- More was accepted. -/
def say (b : Books) (bytes : List UInt8) : Books := { b with said := b.said ++ bytes }

variable {b : Books} {bytes bytes' : List UInt8}

@[simp] theorem hear_heard : (b.hear bytes).heard = b.heard ++ bytes := rfl

@[simp] theorem hear_said : (b.hear bytes).said = b.said := rfl

@[simp] theorem say_heard : (b.say bytes).heard = b.heard := rfl

@[simp] theorem say_said : (b.say bytes).said = b.said ++ bytes := rfl

@[simp] theorem hear_nil : b.hear [] = b := by simp [hear]

@[simp] theorem say_nil : b.say [] = b := by simp [say]

theorem say_say : (b.say bytes).say bytes' = b.say (bytes ++ bytes') := by simp [say]

theorem hear_hear : (b.hear bytes).hear bytes' = b.hear (bytes ++ bytes') := by simp [hear]

end Books

/-- What is known of a stream with these books at a moment, and after it has failed. -/
structure Law (T : Type) where
  holds : Nat → Books → T → Prop
  fails : IoError → Nat → Books → T → Prop
  holds_later : ∀ {k k' b t}, k ≤ k' → holds k b t → holds k' b t
  fails_later : ∀ {e k k' b t}, k ≤ k' → fails e k b t → fails e k' b t

namespace Law

variable {S T : Type} (law : Law T)

/-- The ways out of a read. -/
def reading (b : Books) (buf : ReadBuf) : Exit IoError (T × ReadBuf) Unit where
  ok _ k s := ∃ bytes, s.2 = { buf with filled := buf.filled ++ bytes } ∧ law.holds k (b.hear bytes) s.1
  pending k s := law.holds k b s.1
  err e k s := law.fails e k b s.1

/-- The ways out of a write. -/
def writing (b : Books) (buf : List UInt8) : Exit IoError T Nat where
  ok n k t := n ≤ buf.length ∧ law.holds k (b.say (buf.take n)) t
  pending k t := law.holds k b t
  err e k t := law.fails e k b t

/-- The ways out of a flush or a shutdown. -/
def quiet (b : Books) : Exit IoError T Unit where
  ok _ k t := law.holds k b t
  pending k t := law.holds k b t
  err e k t := law.fails e k b t

/-- The law of a part, said of the whole. -/
def of (part : S → T) : Law S where
  holds k b s := law.holds k b (part s)
  fails e k b s := law.fails e k b (part s)
  holds_later := law.holds_later
  fails_later := law.fails_later

end Law

/-- Reads uphold the law. -/
structure ReadsUphold {T : Type} [AsyncRead T] (env : World) (law : Law T) : Prop where
  read : ∀ {k b t} buf, law.holds k b t →
    (pollRead : Io (T × ReadBuf) Unit).Ends env k (t, buf) (law.reading b buf)

/-- Writes, flushes and shutdowns uphold the law. -/
structure WritesUphold {T : Type} [AsyncWrite T] (env : World) (law : Law T) : Prop where
  write : ∀ {k b t} buf, law.holds k b t → (pollWrite buf : Io T Nat).Ends env k t (law.writing b buf)
  flush : ∀ {k b t}, law.holds k b t → (pollFlush : Io T Unit).Ends env k t (law.quiet b)
  shutdown : ∀ {k b t}, law.holds k b t → (pollShutdown : Io T Unit).Ends env k t (law.quiet b)

/-- Every poll that a copy makes upholds the law. -/
structure Upholds {T : Type} [AsyncRead T] [AsyncWrite T] (env : World) (law : Law T) : Prop extends
  ReadsUphold env law, WritesUphold env law

/-- From `s` to `s'`, between which `unsent` is held: what was read joined it at the end, and what was
written left it at the front. -/
def Carried {S : Type} (unsent : S → List UInt8) (s s' : S)
    (hold : List UInt8 → List UInt8 → Prop) : Prop :=
  ∃ got put, unsent s ++ got = put ++ unsent s' ∧ hold got put

namespace Carried

variable {S : Type} {unsent : S → List UInt8} {s s' s'' : S} {hold : List UInt8 → List UInt8 → Prop}

/-- Nothing read and nothing written. -/
theorem still (same : unsent s' = unsent s) (h : hold [] []) : Carried unsent s s' hold :=
  ⟨[], [], by rw [same, List.append_nil, List.nil_append], h⟩

/-- One way after another. -/
theorem trans {got put : List UInt8} (same : unsent s ++ got = put ++ unsent s')
    (h : Carried unsent s' s'' fun got' put' => hold (got ++ got') (put ++ put')) :
    Carried unsent s s'' hold := by
  obtain ⟨got', put', same', h⟩ := h
  refine ⟨got ++ got', put ++ put', ?_, h⟩
  rw [← List.append_assoc, same, List.append_assoc, same', List.append_assoc]

end Carried

/-- What a direction holds at this stage. -/
def Stage.unsent : Stage → List UInt8
  | .reading unsent _ => unsent
  | .full unsent => unsent
  | .draining unsent => unsent
  | .closing => []
  | .finished => []

/-- Two laws, with what was read from the one stream and written to the other since. -/
structure Between (R W : Type) where
  reader : Law R
  writer : Law W
  read : Books
  wrote : Books

namespace Between

variable {R W : Type} (l : Between R W)

/-- Both laws hold. -/
def holds (k : Nat) (t : R × W) (got put : List UInt8) : Prop :=
  l.reader.holds k (l.read.hear got) t.1 ∧ l.writer.holds k (l.wrote.say put) t.2

/-- One of the streams has failed, or the writer has taken no byte. -/
def fails (e : IoError) (k : Nat) (t : R × W) (got put : List UInt8) : Prop :=
  l.reader.fails e k (l.read.hear got) t.1 ∧ l.writer.holds k (l.wrote.say put) t.2 ∨
    l.reader.holds k (l.read.hear got) t.1 ∧ l.writer.fails e k (l.wrote.say put) t.2 ∨
    e = writeZeroError ∧ l.holds k t got put

/-- The same, later on. -/
def since (got put : List UInt8) : Between R W :=
  { l with read := l.read.hear got, wrote := l.wrote.say put }

variable {l}

theorem holds_nil {k : Nat} {t : R × W} :
    l.holds k t [] [] ↔ l.reader.holds k l.read t.1 ∧ l.writer.holds k l.wrote t.2 := by
  rw [holds, Books.hear_nil, Books.say_nil]

theorem holds_since {k : Nat} {t : R × W} {got put : List UInt8} :
    (l.since got put).holds k t = fun got' put' => l.holds k t (got ++ got') (put ++ put') := by
  ext got' put'
  simp only [holds, since, Books.hear_hear, Books.say_say]

theorem fails_since {e : IoError} {k : Nat} {t : R × W} {got put : List UInt8} :
    (l.since got put).fails e k t = fun got' put' => l.fails e k t (got ++ got') (put ++ put') := by
  ext got' put'
  simp only [fails, holds_since]
  simp only [since, Books.hear_hear, Books.say_say]

/-- The writer has failed, and no byte has moved. -/
theorem fails_writer {e : IoError} {k : Nat} {t : R × W} (hr : l.reader.holds k l.read t.1)
    (failed : l.writer.fails e k l.wrote t.2) : l.fails e k t [] [] := by
  rw [fails, Books.hear_nil, Books.say_nil]
  exact .inr (.inl ⟨hr, failed⟩)

/-- The reader has failed, and no byte has moved. -/
theorem fails_reader {e : IoError} {k : Nat} {t : R × W} (failed : l.reader.fails e k l.read t.1)
    (hw : l.writer.holds k l.wrote t.2) : l.fails e k t [] [] := by
  rw [fails, Books.hear_nil, Books.say_nil]
  exact .inl ⟨failed, hw⟩

end Between

namespace Transfer

variable {S R W : Type} (d : Transfer S R W)

/-- What a direction has read and not written yet. -/
def unsent (s : S) : List UInt8 := (d.stage s).unsent

/-- The ways out of a poll of the direction: what it read is what it wrote, but for what it held before
and holds then; and when it is ready it holds nothing. -/
def exit (l : Between R W) (s : S) : Exit IoError (S × R × W) Unit where
  ok _ k t := d.unsent t.1 = [] ∧ Carried d.unsent s t.1 (l.holds k t.2)
  pending k t := Carried d.unsent s t.1 (l.holds k t.2)
  err e k t := Carried d.unsent s t.1 (l.fails e k t.2)

variable {d}

/-- What a later part of a poll leaves is what is left since the start. -/
theorem exit_since {l : Between R W} {m : Io (S × R × W) Unit} {env : World} {k : Nat} {s s' : S}
    {t : S × R × W} {got put : List UInt8} (same : d.unsent s ++ got = put ++ d.unsent s')
    (h : m.Ends env k t (d.exit (l.since got put) s')) : m.Ends env k t (d.exit l s) := by
  simp only [exit, Between.holds_since, Between.fails_since] at h
  refine ends_mono h ?_ ?_ ?_
  · exact fun _ _ _ _ ⟨empty, carried⟩ => ⟨empty, carried.trans same⟩
  · exact fun _ _ _ carried => carried.trans same
  · exact fun _ _ _ _ carried => carried.trans same

variable (d)

/-- A direction is an owner of its streams, and copies from one to the other. -/
structure Copies [AsyncRead R] [AsyncWrite W] : Prop where
  starts : d.unsent d.start = []
  copies : ∀ env (l : Between R W), ReadsUphold env l.reader → WritesUphold env l.writer →
    ∀ k s r w, l.reader.holds k l.read r → l.writer.holds k l.wrote w →
      d.poll.Ends env k (s, r, w) (d.exit l s)

end Transfer

end Trixter
