import Trixter.Laws.Discipline
import Trixter.Laws.Relay

/-!
# Slice by slice, to the socket

`connections_slice`: while the knob stays above zero, whatever a socket of a connection accepts is a slice
at most, and is flushed by the very next call. The sockets are recorded here. Each of the adapters below
the slicer makes at most one call for one that it gets, so what the slicer does can be read off a socket's
record. A knob that passes through zero is another matter.
-/

namespace Trixter

open Trixter.Lib Polling

/-! ## Recorded sockets -/

namespace Trail

variable {T : Type}

instance [AsyncRead T] : AsyncRead (Trail T) where
  pollRead := passRead (·.value) fun s value => { s with value }

/-- A flush that is recorded is as ready as the one inside. -/
instance [ReadySink T] : ReadySink (Trail T) where
  flushReady env k s _ := by
    rw [flush_wp]
    exact ReadySink.flushReady env k s.value trivial

/-- A recorded socket is a socket. -/
instance [Peer T] : Peer (Trail T) where
  given s := given s.value
  honest env :=
    { read := fun buf hs => ends_zoom.mpr ((Peer.honest env).read buf hs)
      write := fun buf hs => recorded_wp.mpr ((Peer.honest env).write buf hs)
      flush := fun {k b t} hs => by
        rw [Ends, flush_wp]
        refine wp_mono ((Peer.honest env).flush (b := b) hs) fun r value k' left => ?_
        cases r <;> exact left
      shutdown := fun {k b t} hs => by
        rw [Ends, shutdown_wp]
        refine wp_mono ((Peer.honest env).shutdown (b := b) hs) fun r value k' left => ?_
        cases r <;> exact left }

end Trail

/-! ## The calls of an adapter -/

/-- What a write of `buf` adds to the calls below it: nothing, or the write of a part of it, with the
same answer. -/
inductive Hands (buf : List UInt8) (r : Poll IoError Nat) (calls calls' : List Entry) : Prop where
  | none (empty : ∀ n, r = .ok n → n = 0) (same : calls' = calls)
  | part (part : List UInt8) (started : Nat) (sub : part <+: buf)
    (fits : ∀ n, r = .ok n → n ≤ part.length)
    (call : calls' = calls ++ [⟨.write (.scalar part), started, r⟩])

/-- A stream that makes at most one call for one that it gets, and that flushes at once. -/
structure Direct {T : Type} [AsyncRead T] [AsyncWrite T] (env : World) (calls : T → List Entry) :
    Prop where
  read : ∀ k t buf, (pollRead : Io (T × ReadBuf) Unit).wp env k (t, buf) fun _ t' _ =>
    calls t'.1 = calls t
  write : ∀ k t buf, (pollWrite buf : Io T Nat).wp env k t fun r t' _ =>
    Hands buf r (calls t) (calls t')
  flush : ∀ k t, (pollFlush : Io T Unit).wp env k t fun r t' _ =>
    r = .ok () ∧ ∃ started, calls t' = calls t ++ [⟨.flush, started, .ok 0⟩]
  shutdown : ∀ k t, (pollShutdown : Io T Unit).wp env k t fun _ t' _ =>
    calls t' = calls t ∨ ∃ started answer, calls t' = calls t ++ [⟨.shutdown, started, answer⟩]

section Direct

variable {T : Type} {env : World} {calls : T → List Entry}

theorem Hands.prefix {buf : List UInt8} {r : Poll IoError Nat} {before after : List Entry} {m : Nat}
    (h : Hands (buf.take m) r before after) : Hands buf r before after := by
  cases h with
  | none empty same => exact .none empty same
  | part part started sub fits call =>
    exact .part part started (sub.trans (List.take_prefix m buf)) fits call

/-- A recorded socket. -/
theorem Trail.direct [AsyncRead T] [ReadySink T] : Direct env (Trail.entries (T := T)) where
  read k t buf := by
    simp only [AsyncRead.pollRead, passRead, wp_zoom]
    exact wp_mono (wp_later _) fun _ _ _ _ => trivial
  write k t buf := recorded_wp.mpr (wp_mono (Sink.contract.write env k t.value buf trivial)
    fun r value k' wrote => .part buf k (List.prefix_refl buf) wrote.2.fits rfl)
  flush k t := by
    refine flush_wp.mpr (wp_mono (ReadySink.flushReady env k t.value trivial) ?_)
    rintro r value k' rfl
    exact ⟨rfl, k, rfl⟩
  shutdown k t := shutdown_wp.mpr (wp_mono (wp_later _) fun r value k' _ => .inr ⟨k, _, rfl⟩)

variable [AsyncRead T] [AsyncWrite T]

/-- A delayed writer, which may wait first. -/
theorem DelayedWriter.direct {D : Type} [Duration D] [ShortDuration D] (h : Direct env calls) :
    Direct env fun s : DelayedWriter T D => calls s.inner where
  read k s buf := h.read k s.inner buf
  write k s buf := pollWithWriteDelay_of (fun _ _ => .none (fun _ ok => by cases ok) rfl)
    fun _ k' => h.write k' s.inner buf
  flush k s := h.flush k s.inner
  shutdown k s := pollWithWriteDelay_of (fun _ _ => .inl rfl) fun _ k' => h.shutdown k' s.inner

/-- A throttled writer, which may wait for tokens first, and offers what they buy. -/
theorem ThrottledWriter.direct {R : Type} [Rate R] (h : Direct env calls) :
    Direct env fun s : ThrottledWriter T R => calls s.inner where
  read k s buf := h.read k s.inner buf
  write k s buf := by
    refine (ThrottledWriter.write_wp (.scalar buf)).mpr ?_
    split
    · exact h.write _ s.inner buf
    · refine wp_mono (LeakyBucket.acquire_le _) ?_
      rintro r lb k' (rfl | ⟨grant, rfl, -⟩)
      · exact .none (fun _ ok => by cases ok) rfl
      · dsimp only
        split
        · exact .none (fun _ ok => (Poll.ok.inj ok).symm) rfl
        · refine ThrottledWriter.forward_wp.mpr ?_
          refine wp_mono (h.write k' s.inner (buf.take _)) fun r t k'' handed => ?_
          cases r with
          | ok n => exact handed.prefix
          | _ => exact handed.prefix
  flush k s := h.flush k s.inner
  shutdown k s := h.shutdown k s.inner

end Direct

/-! ## Slices -/

/-- A record that is made of slices: each write that was accepted took some of at most `top` bytes, and
was flushed by the next call. Between them there are calls that took no byte. -/
inductive InSlices (top : Nat) : List Entry → Prop where
  | nil : InSlices top []
  | slice {calls : List Entry} {part : List UInt8} {n started waits : Nat} (earlier : InSlices top calls)
    (small : part.length ≤ top) (fits : n ≤ part.length) :
    InSlices top (calls ++ [⟨.write (.scalar part), started, .ok n⟩, ⟨.flush, waits, .ok 0⟩])
  | idle {calls : List Entry} {part : List UInt8} {started : Nat} {answer : Poll IoError Nat}
    (earlier : InSlices top calls) (small : part.length ≤ top)
    (empty : ∀ n, answer = .ok n → n = 0) :
    InSlices top (calls ++ [⟨.write (.scalar part), started, answer⟩])
  | flush {calls : List Entry} {started : Nat} (earlier : InSlices top calls) :
    InSlices top (calls ++ [⟨.flush, started, .ok 0⟩])
  | shutdown {calls : List Entry} {started : Nat} {answer : Poll IoError Nat}
    (earlier : InSlices top calls) : InSlices top (calls ++ [⟨.shutdown, started, answer⟩])

namespace InSlices

variable {top : Nat} {calls calls' : List Entry}

/-- **Slice by slice**: at no moment more than a slice is unflushed, and nothing at the end. -/
theorem flushed (h : InSlices top calls) : Bounded top calls ∧ unflushed calls = 0 := by
  induction h with
  | nil => exact ⟨bounded_nil, rfl⟩
  | @slice calls part n started waits earlier small fits ih =>
    have taken : Entry.unflushed (unflushed calls) ⟨.write (.scalar part), started, .ok n⟩ = n := by
      rw [ih.2]
      exact Nat.zero_add n
    rw [List.append_cons]
    refine ⟨(ih.1.snoc ?_).snoc (Nat.zero_le _), unflushed_snoc⟩
    rw [taken]
    exact Nat.le_trans fits small
  | @idle calls part started answer earlier small empty ih =>
    have none : Entry.unflushed (unflushed calls) ⟨.write (.scalar part), started, answer⟩ = 0 := by
      rw [ih.2]
      cases answer with
      | ok n => exact (Nat.zero_add n).trans (empty n rfl)
      | _ => rfl
    refine ⟨ih.1.snoc ?_, unflushed_snoc.trans none⟩
    rw [none]
    exact Nat.zero_le top
  | flush earlier ih => exact ⟨ih.1.snoc (Nat.zero_le _), unflushed_snoc⟩
  | @shutdown calls started answer earlier ih =>
    have none : Entry.unflushed (unflushed calls) ⟨.shutdown, started, answer⟩ = 0 := by
      rw [ih.2]
      cases answer <;> rfl
    refine ⟨ih.1.snoc ?_, unflushed_snoc.trans none⟩
    rw [none]
    exact Nat.zero_le top

/-- A write that takes no byte. -/
theorem unanswered {buf : List UInt8} {r : Poll IoError Nat} (h : InSlices top calls)
    (handed : Hands buf r calls calls') (small : buf.length ≤ top)
    (empty : ∀ n, r = .ok n → n = 0) : InSlices top calls' := by
  cases handed with
  | none _ same => rwa [same]
  | part part started sub fits call =>
    rw [call]
    exact h.idle (Nat.le_trans sub.length_le small) empty

/-- A write that is accepted, and the flush after it. -/
theorem answered {buf : List UInt8} {n waits : Nat} (h : InSlices top calls)
    (handed : Hands buf (.ok n) calls calls') (small : buf.length ≤ top) :
    InSlices top (calls' ++ [⟨.flush, waits, .ok 0⟩]) := by
  cases handed with
  | none _ same =>
    rw [same]
    exact h.flush
  | part part started sub fits call =>
    rw [call, List.append_assoc]
    exact h.slice (Nat.le_trans sub.length_le small) (fits n rfl)

end InSlices

/-! ## The law -/

section Law

variable {T S : Type} {env : World} {calls : T → List Entry} {size : S} {top : Nat}

/-- The size never reads as zero, nor as more than `top`. -/
def Sizes [Size S] (env : World) (top : Nat) (size : S) : Prop :=
  ∀ k, Size.isZero env size k = false ∧ 0 < (Size.size env size k).toNat ∧
    (Size.size env size k).toNat ≤ top

/-- A slicing writer whose calls are in slices. -/
def Law.trimmed (law : Law T) (calls : T → List Entry) (size : S) (top : Nat) :
    Law (SlicedWriter T S) where
  holds k b s := law.sliced.holds k b s ∧ s.size = size ∧ InSlices top (calls s.inner)
  fails e k b s := law.sliced.fails e k b s ∧ InSlices top (calls s.inner)
  holds_later later h := ⟨law.sliced.holds_later later h.1, h.2⟩
  fails_later later h := ⟨law.sliced.fails_later later h.1, h.2⟩

variable [AsyncRead T] [AsyncWrite T] [Size S] {k : Nat} {s : SlicedWriter T S}

/-- **A write is in slices.** -/
theorem SlicedWriter.write_trimmed (direct : Direct env calls) (sizes : Sizes env top s.size)
    (writing : s.phase = .writing) (h : InSlices top (calls s.inner)) (buf : List UInt8) :
    (pollWrite buf : Io (SlicedWriter T S) Nat).wp env k s fun _ s' _ =>
      s'.size = s.size ∧ InSlices top (calls s'.inner) := by
  simp only [AsyncWrite.pollWrite, isZero, readSize, wp_bind, wp_observe, wp_ite, wp_get]
  split
  · next off =>
    -- only an empty buffer goes straight on
    have empty : buf = [] := by
      rcases Bool.or_eq_true_iff.mp off with zero | empty
      · rw [(sizes k).1] at zero
        cases zero
      · exact List.isEmpty_iff.mp empty
    subst empty
    rw [onInner_wp]
    refine wp_mono (direct.write _ s.inner []) fun r t k' handed => ⟨rfl, ?_⟩
    refine h.unanswered handed (Nat.zero_le _) ?_
    rintro n rfl
    cases handed with
    | none empty _ => exact empty n rfl
    | part part started sub fits _ =>
      rw [List.prefix_nil.mp sub] at fits
      exact Nat.le_zero.mp (fits n rfl)
  · simp only [writing]
    split
    · exact ⟨rfl, h⟩
    · have small : (buf.take (min buf.length (Size.size env s.size (k + 1)).toNat)).length ≤ top := by
        have le := (sizes (k + 1)).2.2
        rw [List.length_take]
        omega
      rw [writeSlice_iff]
      refine wp_mono (direct.write _ s.inner _) fun r t k' handed => ?_
      cases r with
      | ok n =>
        dsimp only
        rw [flushSlice_iff]
        refine wp_mono (direct.flush k' t) ?_
        rintro _ t' k'' ⟨rfl, waits, call⟩
        refine ⟨rfl, ?_⟩
        show InSlices top (calls t')
        rw [call]
        exact h.answered handed small
      | pending => exact ⟨rfl, h.unanswered handed small nofun⟩
      | err e => exact ⟨rfl, h.unanswered handed small nofun⟩
      | panicked m => exact ⟨rfl, h.unanswered handed small nofun⟩

omit [AsyncRead T] [AsyncWrite T] [Size S] in
/-- What a call leaves of the law of slices, and of the record. -/
theorem Law.trimmed_quiet {law : Law T} {m : Io (SlicedWriter T S) Unit} {b : Books}
    (left : m.Ends env k s (law.sliced.quiet b))
    (kept : m.wp env k s fun _ s' _ => s'.size = size ∧ InSlices top (calls s'.inner)) :
    m.Ends env k s ((law.trimmed calls size top).quiet b) := by
  refine wp_mono (wp_and left kept) ?_
  rintro (_ | e | u | message) s' k' ⟨left, kept⟩
  · exact ⟨left, kept⟩
  · exact ⟨left, kept.2⟩
  · exact ⟨left, kept⟩
  · exact left

/-- Over a direct writer, a slicing writer keeps to slices. -/
theorem SlicedWriter.trims {law : Law T} (h : Upholds env law) (ready : FlushReady T fun _ => True)
    (direct : Direct env calls) (sizes : Sizes env top size) :
    Upholds env (law.trimmed calls size top) := by
  have sliced : Upholds env (law.sliced (S := S)) := SlicedWriter.upholds h (h.prompt ready)
  refine { read := ?_, write := ?_, flush := ?_, shutdown := ?_ }
  · rintro k b s buf ⟨⟨hold, writing⟩, rfl, trim⟩
    refine ends_zoom.mpr (wp_mono (wp_and (h.read buf hold) (direct.read k s.inner buf)) ?_)
    rintro (_ | e | u | message) ⟨t, buf'⟩ k' ⟨left, same⟩
    · exact ⟨⟨left, writing⟩, rfl, show InSlices top (calls t) from same ▸ trim⟩
    · exact ⟨left, show InSlices top (calls t) from same ▸ trim⟩
    · obtain ⟨bytes, filled, hold'⟩ := left
      exact ⟨bytes, filled, ⟨hold', writing⟩, rfl, show InSlices top (calls t) from same ▸ trim⟩
    · exact left
  · rintro k b s buf ⟨hold, rfl, trim⟩
    refine wp_mono (wp_and (sliced.write buf hold) (write_trimmed direct sizes hold.2 trim buf)) ?_
    rintro (_ | e | n | message) s' k' ⟨left, kept⟩
    · exact ⟨left, kept⟩
    · exact ⟨left, kept.2⟩
    · exact ⟨left.1, left.2, kept⟩
    · exact left
  · rintro k b s ⟨hold, rfl, trim⟩
    refine Law.trimmed_quiet (sliced.flush hold) (pollFlush_wp.mpr ?_)
    refine wp_mono (direct.flush k s.inner) ?_
    rintro _ t k' ⟨-, started, call⟩
    exact ⟨rfl, show InSlices top (calls t) from call ▸ trim.flush⟩
  · rintro k b s ⟨hold, rfl, trim⟩
    refine Law.trimmed_quiet (sliced.shutdown hold) (pollShutdown_wp.mpr ?_)
    refine wp_mono (direct.shutdown k s.inner) ?_
    rintro _ t k' (same | ⟨started, answer, call⟩)
    · exact ⟨rfl, show InSlices top (calls t) from same ▸ trim⟩
    · exact ⟨rfl, show InSlices top (calls t) from call ▸ trim.shutdown⟩

end Law

/-! ## The connection -/

variable {A B T G : Type} {env : World} {top : Nat}

namespace Pipeline

/-- A recorded socket under its throttled writer. -/
def recorded (s : ThrottledWriter (DelayedWriter (Trail T) DynamicDuration) DynamicRate) : List Entry :=
  s.inner.inner.entries

/-- The law of a wrapped socket whose calls are in slices. -/
def trimmedLaw (T G : Type) [Peer T] (env : World) (top : Nat)
    (knobs : DynamicProbability × DynamicSize) : Law (Pipeline (Trail T) G) :=
  (((books (Trail T)).trimmed recorded knobs.2 top).fused).corrupted env knobs.1

variable [Peer T] {knobs : DynamicProbability × DynamicSize} {k : Nat} {b : Books} {e : IoError}
  {s : Pipeline (Trail T) G}

theorem trimmedLaw_upheld [SmallRng G] (sizes : Sizes env top knobs.2) :
    Upholds env (trimmedLaw T G env top knobs) := by
  have ready : FlushReady (Trail T) fun _ => True := ReadySink.flushReady
  have direct : Direct env (recorded (T := T)) :=
    ThrottledWriter.direct (DelayedWriter.direct Trail.direct)
  exact Corrupter.upholds (Terminator.upholds (SlicedWriter.trims (books_upheld env)
    (ThrottledWriter.flushReady (DelayedWriter.flushReady ready)) direct sizes))

theorem inSlices_of_holds (h : (trimmedLaw T G env top knobs).holds k b s) :
    InSlices top s.socket.entries := by
  obtain ⟨-, -, inner, -, -, ⟨-, -, trim⟩, -⟩ := h
  exact trim

theorem inSlices_of_fails (h : (trimmedLaw T G env top knobs).fails e k b s) :
    InSlices top s.socket.entries := by
  obtain ⟨-, inner, -, -, failed⟩ := h
  rcases failed with (⟨-, ⟨-, -, trim⟩, -⟩ | ⟨⟨-, trim⟩, -⟩) | ⟨-, ⟨-, -, trim⟩, -⟩
  · exact trim
  · exact trim
  · exact trim

/-- A wrapped socket, recorded from the start, that nothing has passed through. -/
theorem new_trimmed [SmallRng G] (j : Nat) (knobs : Knobs) (baseRng : G) {w : T}
    (fresh : Peer.Fresh w) :
    (trimmedLaw T G env top (knobs.corruptProbabilityRate, knobs.sliceSize)).holds k .blank
      (new env j (.start w) knobs baseRng).1 :=
  ⟨rfl, fun some => absurd rfl some, .blank, .refl, .refl, ⟨⟨fresh, rfl⟩, rfl, .nil⟩, rfl⟩

end Pipeline

namespace Server

variable [SmallRng G] [Peer T]
  {there : Transfer A (Shutdowner (Pipeline (Trail T) G)) (Pipeline (Trail T) G)}
  {back : Transfer B (Pipeline (Trail T) G) (Shutdowner (Pipeline (Trail T) G))}

/-- New connections come with fresh sockets, recorded from the start. -/
def Begun : Event (Trail T) → Prop
  | .accept _ downstream upstream _ => ∃ v w, (Peer.Fresh v ∧ downstream = .start v) ∧
      Peer.Fresh w ∧ upstream = .start w
  | _ => True

/-- New connections come with such knobs for their slices. -/
def Slicing (env : World) (top : Nat) : Event (Trail T) → Prop
  | .accept _ _ _ knobs => Sizes env top knobs.sliceSize
  | _ => True

/-- **The slices of connections.** In every run, if the slice knobs of its connections stay above zero
and at most `top`, whatever else is set and whatever happens: each socket of each connection has been
handed slices of at most `top` bytes, of traffic and of the connection's own noise alike, each flushed
by the next call once it was accepted. So at no moment more than a slice was unflushed, and nothing is
after an event, however the connection has ended. -/
theorem connections_slice (cfg : Config G) (copiesThere : there.Copies) (copiesBack : back.Copies)
    (k : Nat) (events : List (Event (Trail T))) (begun : ∀ ev ∈ events, Begun ev)
    (slicing : ∀ ev ∈ events, Slicing env top ev) :
    (machine cfg there back env).Throughout
      (fun _ s => ∀ n t, s.state.tasks n = some t →
        ∀ calls ∈ [t.copying.downstream.inner.socket.entries, t.copying.upstream.socket.entries],
          InSlices top calls ∧ Bounded top calls ∧ unflushed calls = 0)
      ⟨k, empty⟩ events := by
  have law : TaskLaw there back env fun k t =>
      ∃ knobs : { knobs : DynamicProbability × DynamicSize // Sizes env top knobs.2 },
        Task.KeepsLaws there back (Pipeline.trimmedLaw T G env top knobs.1)
          (Pipeline.trimmedLaw T G env top knobs.1) k t :=
    .some fun knobs => .keepsLaws copiesThere copiesBack (Pipeline.trimmedLaw_upheld knobs.2)
      (Pipeline.trimmedLaw_upheld knobs.2)
  refine run_tasked law k (fun ev mem k => ?_) fun s ev _ _ tasked n t task => ?_
  · cases ev with
    | accept id downstream upstream knobs =>
      obtain ⟨v, w, ⟨down, rfl⟩, up, rfl⟩ := begun _ mem
      exact ⟨⟨(knobs.corruptProbabilityRate, knobs.sliceSize), slicing _ mem⟩,
        keepsLaws_new copiesThere.starts copiesBack.starts (Pipeline.new_trimmed k knobs _ down)
          (Pipeline.new_trimmed (k + 4) knobs _ up)⟩
    | _ => trivial
  · obtain ⟨knobs, abides⟩ := tasked n t task
    obtain ⟨-, -, -, down, up⟩ := abides.sides (fun _ _ => Pipeline.inSlices_of_holds)
      (fun _ _ => Pipeline.inSlices_of_holds) (fun _ _ _ => Pipeline.inSlices_of_fails)
      fun _ _ _ => Pipeline.inSlices_of_fails
    intro calls mem
    rcases mem with _ | ⟨_, _ | ⟨_, ⟨⟩⟩⟩
    · exact ⟨down, down.flushed⟩
    · exact ⟨up, up.flushed⟩

/-- Two bytes at a time, for a connection that is told more at once. -/
def inPairs : World := { World.still with atomics := fun cell _ => if cell = 1 then 2 else 0 }

def toldFive : List (Event (Trail Line)) :=
  [.accept "a" (.start (line [some [1, 2, 3, 4, 5], none])) (.start (line [none]))
    { knobsOff with sliceSize := ⟨1⟩ }, .poll 0, .poll 0]

theorem told_in_pairs :
    (machine plain (CopyBuffer.transfer _ _) (CopyBuffer.transfer _ _) inPairs).Throughout
      (fun _ s => ∀ n t, s.state.tasks n = some t →
        ∀ calls ∈ [t.copying.downstream.inner.socket.entries, t.copying.upstream.socket.entries],
          InSlices 2 calls ∧ Bounded 2 calls ∧ unflushed calls = 0)
      ⟨0, empty⟩ toldFive := by
  refine connections_slice plain CopyBuffer.copies CopyBuffer.copies 0 toldFive ?_ ?_
  · intro ev mem
    rcases mem with _ | ⟨_, _ | ⟨_, _ | ⟨_, ⟨⟩⟩⟩⟩
    · exact ⟨_, _, ⟨⟨rfl, rfl⟩, rfl⟩, ⟨rfl, rfl⟩, rfl⟩
    · trivial
    · trivial
  · intro ev mem
    rcases mem with _ | ⟨_, _ | ⟨_, _ | ⟨_, ⟨⟩⟩⟩⟩
    · have two : 0 < (2 : UInt64).toNat ∧ (2 : UInt64).toNat ≤ 2 := by decide
      exact fun k => ⟨rfl, two⟩
    · trivial
    · trivial

end Server

end Trixter
