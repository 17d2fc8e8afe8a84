import Trixter.BufStack
import Trixter.Laws.Corrupter
import Trixter.Laws.ReadInjector
import Trixter.Laws.Stack
import Trixter.Reel

/-!
# Any stack of buffered adapters

A buffered stream hands its bytes over by reads, and by looks and consumes, in any mixture. If whatever
is known of it goes on holding, with what was obtained brought up to date, then so it does of an adapter
around it, the two that look and consume by themselves among them. So any stack of adapters hands over
the stream of its source, each byte once and in order, with nothing put in between but by read injectors
and corrupters: `hands_over`. A call may unwind; that none does is not claimed.
-/

namespace Trixter

open Trixter.Lib Polling

variable {S T : Type} {env : World}

/-! ## One adapter -/

/-- A read has put some bytes into the buffer, none if it has not succeeded, and this is known with them
obtained. -/
def ReadsOn (holds : List UInt8 → S → Prop) (taken : List UInt8) (buf : ReadBuf) (r : Poll IoError Unit)
    (s' : S × ReadBuf) : Prop :=
  ∃ bytes, s'.2 = { buf with filled := buf.filled ++ bytes } ∧ (r ≠ .ok () → bytes = []) ∧
    holds (taken ++ bytes) s'.1

theorem ReadsOn.idle {holds : List UInt8 → S → Prop} {taken : List UInt8} {s : S} (hold : holds taken s)
    (buf : ReadBuf) (r : Poll IoError Unit) : ReadsOn holds taken buf r (s, buf) :=
  ⟨[], by rw [List.append_nil], fun _ => rfl, by rwa [List.append_nil]⟩

theorem ReadsOn.ok {holds : List UInt8 → S → Prop} {taken bytes : List UInt8} {s : S} {buf : ReadBuf}
    (hold : holds (taken ++ bytes) s) :
    ReadsOn holds taken buf (.ok ()) (s, { buf with filled := buf.filled ++ bytes }) :=
  ⟨bytes, rfl, fun no => absurd rfl no, hold⟩

/-- What is known of a stream from which these bytes have been obtained goes on holding, whichever way
more of them are. A read that does not succeed hands nothing over, and a look shows what comes next. -/
structure Yields [AsyncBufRead S] (env : World) (unread : S → List UInt8)
    (holds : List UInt8 → S → Prop) : Prop where
  read : ∀ {k s taken} buf, holds taken s →
    (pollRead : Io (S × ReadBuf) Unit).wp env k (s, buf) fun r s' _ => ReadsOn holds taken buf r s'
  look : ∀ {k s taken}, holds taken s →
    (pollFillBuf : Io S (List UInt8)).wp env k s fun r s' _ =>
      (∀ rem, r = .ok rem → unread s' = rem) ∧ holds taken s'
  consume : ∀ {s taken} n, holds taken s → holds (taken ++ (unread s).take n) (AsyncBufRead.consume n s)

/-- More bytes may have been put in. -/
def Laid (noisy : Prop) (holds : List UInt8 → T → Prop) (taken : List UInt8) (t : T) : Prop :=
  ∃ real, Inlaid noisy real taken ∧ holds real t

theorem Laid.insert {noisy : Prop} {holds : List UInt8 → T → Prop} {taken : List UInt8} {t : T}
    (h : Laid noisy holds taken t) (loud : noisy) (bytes : List UInt8) :
    Laid noisy holds (taken ++ bytes) t := by
  obtain ⟨real, inlaid, hold⟩ := h
  exact ⟨real, inlaid.insert loud, hold⟩

namespace Yields

variable [AsyncBufRead T] {unread : T → List UInt8} {holds : List UInt8 → T → Prop}

theorem laid (h : Yields env unread holds) (noisy : Prop) : Yields env unread (Laid noisy holds) where
  read buf := by
    rintro ⟨real, inlaid, hold⟩
    refine wp_mono (h.read buf hold) ?_
    rintro r s' - ⟨bytes, filled, none, left⟩
    exact ⟨bytes, filled, none, real ++ bytes, inlaid.append bytes, left⟩
  look := by
    rintro k s taken ⟨real, inlaid, hold⟩
    refine wp_mono (h.look hold) ?_
    rintro r s' - ⟨shows, left⟩
    exact ⟨shows, real, inlaid, left⟩
  consume n := by
    rintro ⟨real, inlaid, hold⟩
    exact ⟨_, inlaid.append _, h.consume n hold⟩

/-- A read that is passed on. -/
theorem passRead (h : Yields env unread holds) (part : S → T) (set : S → T → S)
    (frame : ∀ s t, part (set s t) = t) {k : Nat} {s : S} {taken : List UInt8} (buf : ReadBuf)
    (hold : holds taken (part s)) :
    (Trixter.passRead part set : Io (S × ReadBuf) Unit).wp env k (s, buf) fun r s' _ =>
      ReadsOn (fun taken s => holds taken (part s)) taken buf r s' := by
  refine wp_zoom.mpr (wp_mono (h.read buf hold) ?_)
  rintro r t - ⟨bytes, filled, none, left⟩
  refine ⟨bytes, filled, none, ?_⟩
  show holds (taken ++ bytes) (part (set s t.1))
  rwa [frame]

/-- A look that is passed on. -/
theorem passLook (h : Yields env unread holds) (part : S → T) (set : S → T → S)
    (frame : ∀ s t, part (set s t) = t) {k : Nat} {s : S} {taken : List UInt8}
    (hold : holds taken (part s)) :
    ((pollFillBuf : Io T (List UInt8)).zoom part set).wp env k s fun r s' _ =>
      (∀ rem, r = .ok rem → unread (part s') = rem) ∧ holds taken (part s') := by
  refine wp_zoom.mpr (wp_mono (h.look hold) ?_)
  rintro r t - ⟨shows, left⟩
  exact ⟨fun rem ok => (frame s t).symm ▸ shows rem ok, (frame s t).symm ▸ left⟩

/-- A stream that hands all three calls on. -/
theorem through [AsyncBufRead S] (h : Yields env unread holds) (part : S → T) (set : S → T → S)
    (frame : ∀ s t, part (set s t) = t)
    (read : (pollRead : Io (S × ReadBuf) Unit) = Trixter.passRead part set)
    (look : (pollFillBuf : Io S (List UInt8)) = pollFillBuf.zoom part set)
    (consume : ∀ n s, part (AsyncBufRead.consume n s) = AsyncBufRead.consume n (part s)) :
    Yields env (fun s => unread (part s)) fun taken s => holds taken (part s) where
  read buf hold := by
    rw [read]
    exact h.passRead part set frame buf hold
  look hold := by
    rw [look]
    exact h.passLook part set frame hold
  consume {s taken} n hold := by
    rw [consume]
    exact h.consume n hold

end Yields

namespace Yields

variable [AsyncBufRead T] {unread : T → List UInt8} {holds : List UInt8 → T → Prop}

/-- A look that has shown these bytes, and a consume of some that fit, are a read. -/
theorem deliver (h : Yields env unread holds) {t : T} {taken rem : List UInt8} (amt : Nat)
    (shows : unread t = rem) (hold : holds taken t) :
    holds (taken ++ rem.take amt) (AsyncBufRead.consume amt t) := by
  rw [← shows]
  exact h.consume amt hold

/-- A turn of a delayed reader with the timer armed. -/
theorem readLoop_delayed {D : Type} [Duration D] (h : Yields env unread holds) {k turns : Nat}
    {s : DelayedReader T D} {taken : List UInt8} {buf : ReadBuf} (delayed : s.delay.state = .delayed)
    (hold : holds taken s.inner) :
    (DelayedReader.readLoop (turns + 1)).wp env k (s, buf) fun r s' _ =>
      ReadsOn (fun taken s => holds taken s.inner) taken buf r s' := by
  rw [DelayedReader.readLoop_delayed delayed]
  split
  · refine wp_mono (h.look hold) ?_
    rintro (_ | e | rem | m) inner k' ⟨shows, left⟩
    · exact .idle left buf _
    · exact .idle left buf _
    · exact .ok (h.deliver _ (shows rem rfl) left)
    · exact .idle left buf _
  · exact .idle hold buf _

/-- A delayed reader hands on what its stream does. -/
theorem delayedReader {D : Type} [Duration D] (h : Yields env unread holds) :
    Yields env (fun s : DelayedReader T D => unread s.inner) fun taken s => holds taken s.inner where
  read {k s taken} buf hold := by
    show (DelayedReader.readLoop 2).wp env k (s, buf) _
    cases state : s.delay.state with
    | delayed => exact h.readLoop_delayed state hold
    | idle =>
      rw [DelayedReader.readLoop_idle state]
      refine wp_mono (h.look hold) ?_
      rintro (_ | e | rem | m) inner k' ⟨shows, left⟩
      · exact .idle left buf _
      · exact .idle left buf _
      · have delivers := h.deliver (DelayedReader.handed rem buf) (shows rem rfl) left
        dsimp only
        split
        · split
          · exact .ok delivers
          · split
            · exact .idle left buf _
            · exact h.readLoop_delayed rfl left
        · exact .ok delivers
      · exact .idle left buf _
  look hold := h.passLook DelayedReader.inner (fun s inner => { s with inner }) (fun _ _ => rfl) hold
  consume n hold := h.consume n hold

/-- A throttled reader hands on what its stream does, past the bucket or through it. -/
theorem throttledReader {R : Type} [Rate R] (h : Yields env unread holds) :
    Yields env (fun s : ThrottledReader T R => unread s.inner) fun taken s => holds taken s.inner where
  read {k s taken} buf hold := by
    rw [ThrottledReader.read_wp]
    split
    · exact h.read buf hold
    · refine wp_mono (h.look hold) ?_
      rintro (_ | e | rem | m) inner k' ⟨shows, left⟩
      · exact .idle left buf _
      · exact .idle left buf _
      · dsimp only
        refine wp_mono (wp_later _) ?_
        rintro (_ | e | grant | m) lb k'' -
        · exact .idle left buf _
        · exact .idle left buf _
        · dsimp only
          split
          · exact .idle left buf _
          · exact .ok (h.deliver _ (shows rem rfl) left)
        · exact .idle left buf _
      · exact .idle left buf _
  look hold := h.passLook ThrottledReader.inner (fun s inner => { s with inner }) (fun _ _ => rfl) hold
  consume n hold := h.consume n hold

/-- A terminator hands on what its stream does, or fails. Looks and consumes do not ask the fuse. -/
theorem terminator {P G : Type} [SmallRng G] [Probability P] (h : Yields env unread holds) :
    Yields env (fun s : Terminator T P G => unread s.inner) fun taken s => holds taken s.inner where
  read {k s taken} buf hold := by
    refine Terminator.pollRead_wp.mpr (Terminator.asked_of ?_ ?_)
    · intro s' k' same
      exact .idle (same ▸ hold) buf _
    · intro s' k' same
      exact h.read buf (same ▸ hold)
  look hold := h.passLook Terminator.inner (fun s inner => { s with inner }) (fun _ _ => rfl) hold
  consume n hold := h.consume n hold

/-- A shutdowner hands on what its stream does, or fails. -/
theorem shutdowner (h : Yields env unread holds) :
    Yields env (fun s : Shutdowner T => unread s.inner) fun taken s => holds taken s.inner where
  read {k s taken} buf hold := by
    refine Shutdowner.read_wp.mpr (.of (fun _ => ?_) (fun _ _ => ?_) (fun _ => ?_) fun _ => ?_)
    · exact .idle hold buf _
    · exact .idle hold buf _
    · exact .idle hold buf _
    · exact h.read buf hold
  look {k s taken} hold := by
    exact Shutdowner.guarded_wp.mpr (.of (fun _ => ⟨nofun, hold⟩) (fun _ _ => ⟨nofun, hold⟩)
      (fun _ => ⟨nofun, hold⟩) fun _ => h.look hold)
  consume n hold := h.consume n hold

/-- A read injector puts messages in, if what is known puts up with that. -/
theorem readInjector (h : Yields env unread holds)
    (more : ∀ {taken t} bytes, holds taken t → holds (taken ++ bytes) t) :
    Yields env (fun s : ReadInjector T => unread s.inner) fun taken s => holds taken s.inner where
  read buf hold := by
    refine ReadInjector.pollRead_wp.mpr ?_
    split
    · exact .ok (more _ hold)
    · exact .ok (more _ hold)
    · exact h.read buf hold
  look hold := h.passLook ReadInjector.inner (fun s inner => { s with inner }) (fun _ _ => rfl) hold
  consume n hold := h.consume n hold

/-- What is known of the stream under a corrupter with this knob. -/
def Corrupted {P G : Type} (prob : P) (holds : List UInt8 → T → Prop) (taken : List UInt8)
    (s : Corrupter T P G) : Prop :=
  s.prob = prob ∧ holds taken s.inner

/-- A corrupter puts random bytes in, if its knob is ever above zero. -/
theorem corrupter {P G : Type} [SmallRng G] [Probability P] {prob : P} (h : Yields env unread holds)
    (more : Loud env prob → ∀ {taken t} bytes, holds taken t → holds (taken ++ bytes) t) :
    Yields env (fun s : Corrupter T P G => unread s.inner) (Corrupted prob holds) where
  read {k s taken} buf := by
    rintro ⟨knob, hold⟩
    -- a read that is passed on
    have passes : ∀ s' : Corrupter T P G, s'.prob = prob → s'.inner = s.inner →
        (pollRead : Io (T × ReadBuf) Unit).wp env (k + 1) (s'.inner, buf) fun r t _ =>
          ReadsOn (Corrupted prob holds) taken buf r ({ s' with inner := t.1 }, t.2) := by
      intro s' knob' same
      refine wp_mono (h.read buf (same ▸ hold)) ?_
      rintro r t k' ⟨bytes, filled, none, left⟩
      exact ⟨bytes, filled, none, knob', left⟩
    simp only [AsyncRead.pollRead, wp_bind, wp_zoom]
    refine Corrupter.shouldCorrupt_wp.mpr ?_
    split
    · exact passes s knob rfl
    · next above =>
      have loud : Loud env prob := ⟨k, knob ▸ above⟩
      by_cases hits : Corrupter.Corrupts env k s
      · simp only [hits, decide_true, if_true, wp_bind, wp_get]
        split
        · have fits : (SmallRng.fillBytes buf.remaining s.drew.rng).1.length ≤ buf.remaining :=
            Nat.le_of_eq (SmallRng.fillBytes_length _ _)
          simp only [Corrupter.randomDataSize, Corrupter.onRng, wp_bind, wp_zoom, wp_modifyGet]
          refine (ReadBuf.putSlice_wp fits).mpr ?_
          have puts : ∀ bytes (s' : Corrupter T P G), s'.prob = prob → s'.inner = s.inner →
              Corrupted prob holds (taken ++ bytes) s' :=
            fun bytes s' knob' same => ⟨knob', same ▸ more loud bytes hold⟩
          exact .ok (puts _ _ knob rfl)
        · have kept : Corrupted prob holds taken s.drew := ⟨knob, hold⟩
          exact .idle kept buf _
      · simp only [hits, decide_false]
        exact passes s.drew knob rfl
  look {k s taken} := by
    rintro ⟨knob, hold⟩
    show (Corrupter.onInner pollFillBuf : Io (Corrupter T P G) _).wp env k s _
    refine wp_zoom.mpr (wp_mono (h.look hold) ?_)
    rintro r t - ⟨shows, left⟩
    exact ⟨shows, knob, left⟩
  consume n := by
    rintro ⟨knob, hold⟩
    exact ⟨knob, h.consume n hold⟩

end Yields

namespace BufLayer

variable {G : Type}

/-- It may put bytes of its own into what is read. -/
def NoisyReads (env : World) : BufLayer → Prop
  | .delayReads _ => False
  | .throttleReads _ => False
  | .other layer _ => layer.NoisyReads env

/-- A corrupter loads the knob that the adapter has. -/
def Loads : (layer : BufLayer) → layer.Over T G → Prop
  | .other (.corrupt prob) _, (s : Corrupter T DynamicProbability G) => s.prob = prob
  | _, _ => True

/-- What is known of the adapter, from what is known of its stream. -/
def holdsOver (env : World) (holds : List UInt8 → T → Prop) (layer : BufLayer) (taken : List UInt8)
    (s : layer.Over T G) : Prop :=
  layer.Loads s ∧ Laid (layer.NoisyReads env) holds taken (layer.inner s)

/-- The adapter hands on what its stream does. -/
theorem yields [SmallRng G] [AsyncBufRead T] {unread : T → List UInt8} {holds : List UInt8 → T → Prop}
    (h : Yields env unread holds) (layer : BufLayer) :
    Yields env (fun s : layer.Over T G => unread (layer.inner s)) (layer.holdsOver env holds) := by
  have quiet : ∀ {S : Type} [AsyncBufRead S] {unread : S → List UInt8}
      {holds : List UInt8 → S → Prop}, Yields env unread holds →
      Yields env unread fun taken s => True ∧ holds taken s := by
    intro S _ unread holds h
    simpa only [true_and] using h
  cases layer with
  | delayReads duration => exact quiet (h.laid False).delayedReader
  | throttleReads rate => exact quiet (h.laid False).throttledReader
  | other layer buffered =>
    cases layer with
    | delayWrites duration =>
      exact quiet ((h.laid False).through DelayedWriter.inner (fun s inner => { s with inner })
        (fun _ _ => rfl) rfl rfl fun _ _ => rfl)
    | throttleWrites rate =>
      exact quiet ((h.laid False).through ThrottledWriter.inner (fun s inner => { s with inner })
        (fun _ _ => rfl) rfl rfl fun _ _ => rfl)
    | sliceWrites size =>
      exact quiet ((h.laid False).through SlicedWriter.inner (fun s inner => { s with inner })
        (fun _ _ => rfl) rfl rfl fun _ _ => rfl)
    | injectWrite =>
      exact quiet ((h.laid False).through WriteInjector.inner (fun s inner => { s with inner })
        (fun _ _ => rfl) rfl rfl fun _ _ => rfl)
    | injectRead => exact quiet ((h.laid True).readInjector fun bytes hold => hold.insert trivial bytes)
    | terminate prob => exact quiet (h.laid False).terminator
    | corrupt prob =>
      exact (h.laid (Loud env prob)).corrupter fun loud _ _ bytes hold => hold.insert loud bytes
    | shutdown => exact quiet (h.laid False).shutdowner
    | countReads => exact absurd rfl buffered

variable {layer : BufLayer} {holds holds' : List UInt8 → T → Prop} {taken : List UInt8}
  {s s' : layer.Over T G} {t : T}

theorem inner_withInner : layer.inner (layer.withInner s t) = t := by
  cases layer with
  | delayReads duration => rfl
  | throttleReads rate => rfl
  | other layer buffered => cases layer <;> rfl

theorem loads_withInner : layer.Loads (layer.withInner s t) ↔ layer.Loads s := by
  cases layer with
  | delayReads duration => exact Iff.rfl
  | throttleReads rate => exact Iff.rfl
  | other layer buffered => cases layer <;> exact Iff.rfl

/-- A new one. -/
theorem holdsOver_makes [SmallRng G] (hold : holds taken t) (makes : layer.Makes env t s) :
    layer.holdsOver env holds taken s := by
  have new : layer.Loads s ∧ layer.inner s = t := by
    cases layer with
    | delayReads duration =>
      obtain ⟨created, rfl⟩ := makes
      exact ⟨trivial, rfl⟩
    | throttleReads rate =>
      obtain ⟨k, rfl⟩ := makes
      exact ⟨trivial, rfl⟩
    | other layer buffered =>
      cases layer with
      | sliceWrites size =>
        cases makes
        exact ⟨trivial, rfl⟩
      | shutdown =>
        cases makes
        exact ⟨trivial, rfl⟩
      | countReads => exact absurd rfl buffered
      | corrupt prob =>
        obtain ⟨rng, rfl⟩ := makes
        exact ⟨rfl, rfl⟩
      | _ =>
        obtain ⟨made, rfl⟩ := makes
        exact ⟨trivial, rfl⟩
  exact ⟨new.1, taken, .refl, new.2.symm ▸ hold⟩

/-- What others do to it is nothing to the bytes of its stream. -/
theorem holdsOver_outsideStep (h : layer.holdsOver env holds taken s) (stirs : layer.OutsideStep s s') :
    layer.holdsOver env holds taken s' := by
  cases layer with
  | delayReads duration => exact stirs.elim
  | throttleReads rate => exact stirs.elim
  | other layer buffered => cases stirs <;> exact h

/-- What becomes of its stream within what is known of that. -/
theorem holdsOver_withInner (h : layer.holdsOver env holds taken s)
    (stays : ∀ taken, holds taken (layer.inner s) → holds taken t) :
    layer.holdsOver env holds taken (layer.withInner s t) := by
  obtain ⟨loads, real, inlaid, hold⟩ := h
  exact ⟨loads_withInner.mpr loads, real, inlaid, inner_withInner.symm ▸ stays real hold⟩

end BufLayer

/-! ## Runs -/

section Runs

variable [AsyncBufRead S] {unread : S → List UInt8} {holds : List UInt8 → S → Prop}

/-- A buffered stream in the hands of an owner. -/
def bufOwned (S : Type) [AsyncBufRead S] (env : World) :
    Machine (Paced S) (ReaderMove S) (Poll IoError (List UInt8)) :=
  Polling.machine env ReaderMove.poll

/-- The bytes that the owner obtains: those that a read hands over, or the next ones, when they are
consumed. -/
def obtained (env : World) (unread : S → List UInt8) (s : Paced S) : ReaderMove S → List UInt8
  | .call (.read buf) => ((bufOwned S env).step s (.call (.read buf))).1.value?.getD []
  | .call (.consume amt) => (unread s.state).take amt
  | .call .fillBuf => []
  | .become _ => []

/-- What a look shows is what comes next. -/
def Foretells (env : World) (unread : S → List UInt8) (s : Paced S) (move : ReaderMove S) : Prop :=
  let d := (bufOwned S env).step s move
  match move with
  | .call .fillBuf => ∀ rem, d.1 = .ok rem → unread d.2.state = rem
  | _ => True

/-- **One move** leaves what is known, with what was obtained. -/
theorem Yields.step (h : Yields env unread holds) {s : Paced S} {taken : List UInt8}
    (hold : holds taken s.state) (move : ReaderMove S)
    (stays : ∀ t, move = .become t → holds taken t) :
    holds (taken ++ obtained env unread s move) ((bufOwned S env).step s move).2.state ∧
      Foretells env unread s move := by
  rcases move with (buf | _ | amt) | t
  · have read : ((ReadCall.read buf).poll : Io S _).wp env s.moment s.state fun r s' _ =>
        holds (taken ++ r.value?.getD []) s' := by
      simp only [ReadCall.poll, wp_map, wp_lend, Poll.map_map]
      refine wp_mono (h.read buf hold) ?_
      rintro r ⟨s', buf'⟩ - ⟨bytes, filled, none, left⟩
      cases r with
      | ok u =>
        have got : buf'.filled.drop buf.filled.length = bytes := by
          rw [show buf' = _ from filled, List.drop_left]
        show holds (taken ++ buf'.filled.drop buf.filled.length) s'
        rwa [got]
      | _ =>
        rw [none fun ok => by cases ok] at left
        exact left
    exact ⟨machine_step read, trivial⟩
  · have look : (pollFillBuf : Io S _).wp env s.moment s.state fun r s' _ =>
        (∀ rem, r = .ok rem → unread s' = rem) ∧ holds taken s' := h.look hold
    obtain ⟨shows, left⟩ := wp_iff.mp look
    refine ⟨?_, shows⟩
    rw [obtained, List.append_nil]
    exact left
  · exact ⟨h.consume amt hold, trivial⟩
  · refine ⟨?_, trivial⟩
    rw [obtained, List.append_nil]
    exact stays t rfl

/-- **The rule of buffered streams**: what is known of the stream holds after every move, with what was
obtained until then. -/
theorem Yields.run (h : Yields env unread holds) {changes : S → S → Prop}
    (stays : ∀ {taken s s'}, changes s s' → holds taken s → holds taken s') {k : Nat} {s : S}
    (hold : holds [] s) {moves : List (ReaderMove S)}
    (known : ((bufOwned S env).traced (obtained env unread)).Allowed
      (fun _ s move => ∀ t, move = .become t → changes s.1.state t) (⟨k, s⟩, []) moves) :
    ((bufOwned S env).traced (obtained env unread)).Throughout (fun _ s => holds s.2 s.1.state)
        (⟨k, s⟩, []) moves ∧
      ((bufOwned S env).traced (obtained env unread)).Allowed
        (fun _ s move => Foretells env unread s.1 move) (⟨k, s⟩, []) moves := by
  have one : ∀ (s : Paced S × List UInt8) (move : ReaderMove S), holds s.2 s.1.state →
      (∀ t, move = .become t → changes s.1.state t) →
      holds (s.2 ++ obtained env unread s.1 move) ((bufOwned S env).step s.1 move).2.state ∧
        Foretells env unread s.1 move :=
    fun s move hold known => h.step hold move fun t same => stays (known t same) hold
  have keep : ∀ (_ : History (ReaderMove S) (Poll IoError (List UInt8))) (s : Paced S × List UInt8)
      (move : ReaderMove S), holds s.2 s.1.state → (∀ t, move = .become t → changes s.1.state t) →
      holds (s.2 ++ obtained env unread s.1 move) ((bufOwned S env).step s.1 move).2.state :=
    fun _ s move hold known => (one s move hold known).1
  constructor
  · exact .imp (P := fun _ s => holds s.2 s.1.state) keep keep hold known
  · exact .imp (P := fun _ s => holds s.2 s.1.state) keep (fun _ s move hold known =>
      (one s move hold known).2) hold known

end Runs

/-! ## The stack -/

namespace BufStack

variable {G : Type} {k : Nat} {taken : List UInt8}

/-- One of the adapters may put bytes of its own into what is read. -/
def NoisyReads (env : World) (layers : List BufLayer) : Prop := ∃ layer ∈ layers, layer.NoisyReads env

/-- What is left of the source's stream. -/
def unread [OneStream T] (layers : List BufLayer) (s : BufStack (Reel T) G layers) : List UInt8 :=
  buffered (source layers s).value

/-- What is known of each adapter, from that of the next, down to the record of the source. -/
def known [OneStream T] (env : World) :
    (layers : List BufLayer) → List UInt8 → BufStack (Reel T) G layers → Prop
  | [] => Reel.Splits
  | layer :: layers => layer.holdsOver env (known env layers)

/-- A recorded source. -/
theorem reel_yields [OneStream T] : Yields env (fun s : Reel T => buffered s.value) Reel.Splits where
  read {k s taken} buf hold := by
    obtain ⟨bytes, filled, none, first⟩ := wp_iff.mp (OneStream.reads env k s.value buf)
    have got : (pollRead env k (s.value, buf)).state.2.filled.drop buf.filled.length = bytes := by
      rw [filled, List.drop_left]
    refine wp_iff.mpr ⟨bytes, filled, none, ?_⟩
    show Reel.Splits (taken ++ bytes) (s.after ((pollRead env k (s.value, buf)).state.2.filled.drop _) _)
    rw [got]
    exact hold.after first
  look hold := by
    refine wp_mono hold.look ?_
    rintro r s' - ⟨left, shows⟩
    exact ⟨shows, left⟩
  consume n hold := hold.consume n

/-- Any stack hands on what its source does. -/
theorem yields [SmallRng G] [OneStream T] : (layers : List BufLayer) →
    Yields env (unread (T := T) (G := G) layers) (known env layers)
  | [] => reel_yields
  | layer :: layers => layer.yields (yields layers)

/-- A new stack over a source that has just been recorded. -/
theorem known_made [SmallRng G] [OneStream T] {t : T} {layers : List BufLayer}
    {s : BufStack (Reel T) G layers} (made : Made env (.start t) layers s) : known env layers [] s := by
  induction layers with
  | nil =>
    cases made
    exact Reel.splits_start t
  | cons layer layers ih =>
    obtain ⟨u, made, makes⟩ := made
    exact BufLayer.holdsOver_makes (ih made) makes

/-- What others do to one adapter is within what is known of the stack. -/
theorem known_outsideStep [OneStream T] {layers : List BufLayer} {s s' : BufStack (Reel T) G layers}
    (stirs : OutsideStep layers s s') (h : known env layers taken s) : known env layers taken s' := by
  induction layers generalizing taken with
  | nil => exact stirs.elim
  | cons layer layers ih =>
    rcases stirs with stirs | ⟨t, stirs, rfl⟩
    · exact BufLayer.holdsOver_outsideStep h stirs
    · exact BufLayer.holdsOver_withInner h fun real hold => ih stirs hold

/-- What was obtained is what the source has handed over, but for what noisy adapters put in. -/
theorem known_source [OneStream T] {layers : List BufLayer} {s : BufStack (Reel T) G layers}
    (h : known env layers taken s) : ∃ real, Inlaid (NoisyReads env layers) real taken ∧
      real ++ unread layers s = (source layers s).stream := by
  induction layers generalizing taken with
  | nil => exact ⟨taken, .refl, h⟩
  | cons layer layers ih =>
    obtain ⟨-, inner, inlaid, hold⟩ := h
    obtain ⟨real, inlaid', splits⟩ := ih hold
    have below : NoisyReads env layers → NoisyReads env (layer :: layers) :=
      fun ⟨l, mem, noisy⟩ => ⟨l, List.mem_cons_of_mem _ mem, noisy⟩
    exact ⟨real, (inlaid'.louder below).trans
      (inlaid.louder fun noisy => ⟨layer, List.mem_cons_self, noisy⟩), splits⟩

/-- **Any stack of buffered adapters hands over its source's stream.** In every run of an owner over a
new stack, who reads, looks and consumes in any mixture, with messages and kills coming for the adapters
at any time, whatever fails and whatever is not ready: what the owner has obtained, but for what noisy
adapters put in, and what is unread are the stream that the source has shown, each byte once and in
order; and a look shows exactly what is unread. Only read injectors, and corrupters whose knob is ever
above zero, put bytes of their own in. -/
theorem hands_over [SmallRng G] [OneStream T] (layers : List BufLayer) {t : T}
    {s : BufStack (Reel T) G layers} (made : Made env (.start t) layers s)
    {moves : List (ReaderMove (BufStack (Reel T) G layers))}
    (stirred : ((bufOwned _ env).traced (obtained env (unread layers))).Allowed
      (fun _ s move => ∀ u, move = .become u → OutsideStep layers s.1.state u) (⟨k, s⟩, []) moves) :
    ((bufOwned _ env).traced (obtained env (unread layers))).Throughout
        (fun _ s => ∃ real, Inlaid (NoisyReads env layers) real s.2 ∧
          real ++ unread layers s.1.state = (source layers s.1.state).stream) (⟨k, s⟩, []) moves ∧
      ((bufOwned _ env).traced (obtained env (unread layers))).Allowed
        (fun _ s move => Foretells env (unread layers) s.1 move) (⟨k, s⟩, []) moves := by
  obtain ⟨holds, foretells⟩ := (yields layers).run known_outsideStep (known_made made) stirred
  exact ⟨holds.mono fun _ s hold => known_source hold, foretells⟩

/-- Every adapter for a buffered stream, with its knob at a zero cell. -/
def readers : List BufLayer :=
  [.other .injectRead (by decide), .other (.corrupt ⟨0⟩) (by decide), .delayReads ⟨0⟩, .throttleReads ⟨0⟩,
    .other .shutdown (by decide), .other (.terminate ⟨0⟩) (by decide), .other .injectWrite (by decide),
    .other (.sliceWrites ⟨0⟩) (by decide), .other (.throttleWrites ⟨0⟩) (by decide),
    .other (.delayWrites ⟨0⟩) (by decide)]

/-- Their constructors, one around the other. -/
def readersOf (t : Reel Arrivals) : BufStack (Reel Arrivals) Xoshiro readers :=
  let rng : Xoshiro := SmallRng.fromSeed Xoshiro.seed
  let delayed := DelayedWriter.new 0 t (⟨0⟩ : DynamicDuration)
  let throttled := ThrottledWriter.new World.still 0 delayed (⟨0⟩ : DynamicRate)
  let sliced := SlicedWriter.new throttled (⟨0⟩ : DynamicSize)
  let wrote := WriteInjector.new sliced ⟨[], false⟩
  let terminated := (Terminator.fromRng wrote (⟨0⟩ : DynamicProbability) rng).1
  let limited := ThrottledReader.new World.still 0 (Shutdowner.new terminated) (⟨0⟩ : DynamicRate)
  let burst := DelayedReader.new 0 limited (⟨0⟩ : DynamicDuration)
  ReadInjector.new (Corrupter.fromRng burst (⟨0⟩ : DynamicProbability) rng).1 ⟨[[33]], false⟩

/-- A message is read, then a byte is looked at and consumed, and then the rest is read. -/
def perusal : List (ReaderMove (BufStack (Reel Arrivals) Xoshiro readers)) :=
  [.call (.read ⟨[], 2⟩), .call .fillBuf, .call (.consume 1), .call (.read ⟨[], 8⟩)]

theorem perusal_handed_over :
    ((bufOwned _ World.still).traced (obtained World.still (unread readers))).Throughout
        (fun _ s => ∃ real, Inlaid (NoisyReads World.still readers) real s.2 ∧
          real ++ unread readers s.1.state = (source readers s.1.state).stream)
        (⟨0, readersOf (.start ⟨[1, 2, 3, 4], []⟩)⟩, []) perusal ∧
      ((bufOwned _ World.still).traced (obtained World.still (unread readers))).Allowed
        (fun _ s move => Foretells World.still (unread readers) s.1 move)
        (⟨0, readersOf (.start ⟨[1, 2, 3, 4], []⟩)⟩, []) perusal := by
  refine hands_over readers (t := ⟨[1, 2, 3, 4], []⟩) ?_ ?_
  · exact ⟨_, ⟨_, ⟨_, ⟨_, ⟨_, ⟨_, ⟨_, ⟨_, ⟨_, ⟨_, rfl, 0, rfl⟩, 0, rfl⟩, rfl⟩, _, rfl⟩, _, rfl⟩, rfl⟩, 0, rfl⟩,
      0, rfl⟩, _, rfl⟩, _, rfl⟩
  · refine ⟨fun u same => ?_, fun u same => ?_, fun u same => ?_, fun u same => ?_, trivial⟩
    all_goals cases same

end BufStack

end Trixter
