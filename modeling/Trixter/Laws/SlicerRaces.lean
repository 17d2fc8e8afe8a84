import Trixter.Laws.Slices
import Trixter.Laws.SlicerRuns

/-!
# Zero-length writes that the knob makes up

A sliced writer reads its size knob twice, once to see whether slicing is on and once for the slice.
When the knob turns to zero in between, the slice is empty: a scalar write answers zero by itself, and
a vectored one asks the inner writer to write nothing and hands the zero on. The count of a slice may
also be handed on much later, so the record keeps the write that the phase holds the count of.

`genuine_unless_hollow`: where no poll is hollow, every zero is the inner writer's. A hollow poll does
harm if it succeeds over an honest inner writer; over others it need not.
-/

namespace Trixter

open Trixter.Lib Polling

namespace SlicedWriter

variable {T S : Type} {env : World}

/-- The inner write that a poll from `s` to `s'` speaks for: one that it made, or else the one whose
count the phase held. -/
def spoken (held : Option Entry) (s s' : SlicedWriter (Trail T) S) : Option Entry :=
  (Trail.writesOf (s.inner.since s'.inner)).head?.or held

/-- The write whose count the phase holds after a poll. A poll that leaves phase `Writing` made it. -/
def hold (held : Option Entry) (s s' : SlicedWriter (Trail T) S) : Option Entry :=
  match s'.phase, s.phase with
  | .writing, _ => none
  | .flushing _, .writing => (Trail.writesOf (s.inner.since s'.inner)).head?
  | .flushing _, .flushing _ => held

/-- The phase's count is the answer of the write that is held, and phase `Writing` holds none. -/
def Holds (held : Option Entry) (s : SlicedWriter (Trail T) S) : Prop :=
  match s.phase with
  | .writing => held = none
  | .flushing n => ∃ e, held = some e ∧ e.answer = .ok n

section Poll

variable {held : Option Entry} {s s' : SlicedWriter (Trail T) S} {c : WriteCall} {limit : Nat}
  {off : Bool} {r : Poll IoError Nat}

/-- What is held stays the write whose count the phase holds. -/
theorem Traced.holds (h : Traced c limit off s r s') (holds : Holds held s) :
    Holds (hold held s s') s' := by
  cases h with
  | passed started why phase calls =>
    unfold Holds hold
    unfold Holds at holds
    rw [phase]
    cases eq : s.phase with
    | writing => rfl
    | flushing n => simpa only [eq] using holds
  | raced on full writing zero answer same =>
    subst same
    simp only [Holds, hold, writing]
  | refused started on writing still answer calls => simp only [Holds, hold, still]
  | took n started waits on writing flushing answer calls =>
    simp only [Holds, hold, writing, flushing, Trail.since_append calls, Trail.writesOf]
    exact ⟨_, rfl, rfl⟩
  | sliced n started waits on writing still answer calls => simp only [Holds, hold, still]
  | waited n started on flushing still answer calls =>
    simp only [Holds, hold, flushing, still] at holds ⊢
    exact holds
  | flushed n started on flushing writing answer calls => simp only [Holds, hold, writing]

/-- The poll of a write of some bytes, with slicing on, that has no byte to slice. -/
def Empty (held : Option Entry) (limit : Nat) (s : SlicedWriter (Trail T) S) : Prop :=
  match s.phase with
  | .writing => limit = 0
  | .flushing n => n = 0 ∧ ∃ e ∈ held, e.op.offer = []

/-- A poll that has some byte to slice, or that finds slicing off, does not make up a zero. -/
theorem Traced.genuine (h : Traced c limit off s r s') (holds : Holds held s)
    (full : c.content ≠ []) (solid : off = false → ¬Empty held limit s) (zero : r = .ok 0) :
    ∃ e ∈ spoken held s s', e.op.offer ≠ [] ∧ e.answer = .ok 0 := by
  cases h with
  | passed started why phase calls =>
    rw [spoken, Trail.since_append calls]
    exact ⟨_, rfl, full, zero⟩
  | raced on _ writing none answer same => exact absurd (by rw [Empty, writing]; exact none) (solid on)
  | refused started on writing still answer calls => exact absurd zero (answer 0)
  | took n started waits on writing flushing answer calls => exact absurd zero (answer 0)
  | sliced n started waits on writing still answer calls =>
    obtain rfl : n = 0 := by
      rw [answer] at zero
      exact Poll.ok.inj zero
    rw [spoken, Trail.since_append calls]
    refine ⟨_, rfl, ?_, rfl⟩
    show (c.sliced limit).content ≠ []
    intro empty
    rw [WriteCall.sliced_content, List.take_eq_nil_iff] at empty
    exact solid on (by rw [Empty, writing]; exact empty.resolve_right full)
  | waited n started on flushing still answer calls => exact absurd zero (answer 0)
  | flushed n started on flushing writing answer calls =>
    obtain rfl : n = 0 := by
      rw [answer] at zero
      exact Poll.ok.inj zero
    simp only [Holds, flushing] at holds
    obtain ⟨e, rfl, counted⟩ := holds
    rw [spoken, Trail.since_append calls]
    refine ⟨e, rfl, fun empty => solid on ?_, counted⟩
    rw [Empty, flushing]
    exact ⟨rfl, e, rfl, empty⟩

/-- A poll that has no byte to slice makes up the zero it answers. -/
theorem Traced.made_up (h : Traced c limit off s r s') (holds : Holds held s)
    (full : c.content ≠ []) (on : off = false) (empty : Empty held limit s)
    (fits : s.phase = .writing → ∀ n, r = .ok n → n ≤ limit) (ok : r.isOk = true) :
    r = .ok 0 ∧ ¬∃ e ∈ spoken held s s', e.op.offer ≠ [] ∧ e.answer = .ok 0 := by
  obtain ⟨n, eq⟩ := Poll.isOk_iff.mp ok
  cases h with
  | passed started why phase calls =>
    cases why with
    | inl off => cases on.symm.trans off
    | inr bare => exact absurd (WriteCall.content_of_bare bare) full
  | raced _ _ writing none answer same =>
    subst same
    simp only [Holds, writing] at holds
    refine ⟨answer, ?_⟩
    simp [spoken, Trail.since, Trail.writesOf, holds]
  | refused started _ writing still answer calls => exact absurd eq (answer n)
  | took n started waits _ writing flushing answer calls => exact absurd eq (answer _)
  | sliced m started waits _ writing still answer calls =>
    rw [Empty, writing] at empty
    obtain rfl : m = 0 := by
      have le := fits writing m answer
      rw [show limit = 0 from empty] at le
      exact Nat.le_zero.mp le
    refine ⟨answer, ?_⟩
    rintro ⟨e, mem, some, -⟩
    rw [spoken, Trail.since_append calls] at mem
    cases mem
    apply some
    show (c.sliced limit).content = []
    rw [WriteCall.sliced_content, show limit = 0 from empty, List.take_zero]
  | waited n started _ flushing still answer calls => exact absurd eq (answer _)
  | flushed m started _ flushing writing answer calls =>
    rw [Empty, flushing] at empty
    obtain ⟨rfl, e, rfl, none⟩ := empty
    refine ⟨answer, ?_⟩
    rintro ⟨e', mem, some, -⟩
    rw [spoken, Trail.since_append calls] at mem
    cases mem
    exact some none

end Poll

/-! ## Runs -/

section Runs

variable (T S) [AsyncWrite T] [Size S]

/-- A recorded sliced writer as a machine that also keeps the write its phase holds the count of. -/
def heldWrites (env : World) :
    Machine (Paced (SlicedWriter (Trail T) S) × Option Entry) WriteOp (Poll IoError Nat) :=
  (writes (SlicedWriter (Trail T) S) env).watched fun held s op =>
    hold held s.state ((writes (SlicedWriter (Trail T) S) env).step s op).2.state

end Runs

variable [AsyncWrite T] [Size S] {s : Paced (SlicedWriter (Trail T) S) × Option Entry}

/-- If a write of some bytes answers zero, then so did the inner write it speaks for, which was a
write of some bytes too. -/
def Genuine (env : World) (s : Paced (SlicedWriter (Trail T) S) × Option Entry) : WriteOp → Prop
  | .write c =>
    let d := (heldWrites T S env).step s (.write c)
    c.content ≠ [] → d.1 = .ok 0 →
      ∃ e ∈ spoken s.2 s.1.state d.2.1.state, e.op.offer ≠ [] ∧ e.answer = .ok 0
  | .flush => True
  | .shutdown => True

/-- A write of some bytes that finds slicing on and has no byte to slice: it would start a slice and
finds the size at zero, or it would report a slice that was empty. -/
def Hollow (env : World) (s : Paced (SlicedWriter (Trail T) S) × Option Entry) : WriteOp → Prop
  | .write c =>
    c.content ≠ [] ∧ Size.isZero env s.1.state.size s.1.moment = false ∧
      Empty s.2 (Size.size env s.1.state.size (s.1.moment + 1)).toNat s.1.state
  | .flush => False
  | .shutdown => False

instance : (op : WriteOp) → Decidable (Genuine env s op)
  | .write _ => inferInstanceAs (Decidable (_ → _ → ∃ e ∈ _, _))
  | .flush => inferInstanceAs (Decidable True)
  | .shutdown => inferInstanceAs (Decidable True)

instance {held : Option Entry} {limit : Nat} {s : SlicedWriter (Trail T) S} :
    Decidable (Empty held limit s) := by
  unfold Empty
  cases s.phase <;> infer_instance

instance : (op : WriteOp) → Decidable (Hollow env s op)
  | .write _ => inferInstanceAs (Decidable (_ ∧ _ ∧ _))
  | .flush => inferInstanceAs (Decidable False)
  | .shutdown => inferInstanceAs (Decidable False)

/-- A write poll of the machine, by its calls. -/
theorem step_traced (c : WriteCall) :
    Traced c (Size.size env s.1.state.size (s.1.moment + 1)).toNat
      (Size.isZero env s.1.state.size s.1.moment) s.1.state
      ((heldWrites T S env).step s (.write c)).1 ((heldWrites T S env).step s (.write c)).2.1.state :=
  (writes_step env s.1 (.write c) (poll_traced s.1.state c)).2

/-- Every poll keeps what is held. -/
theorem holds_step (h : Holds s.2 s.1.state) (op : WriteOp) :
    Holds ((heldWrites T S env).step s op).2.2 ((heldWrites T S env).step s op).2.1.state := by
  -- a flush and a shutdown leave the phase as it is
  have quiet : ∀ s' : SlicedWriter (Trail T) S, s'.phase = s.1.state.phase →
      Holds (hold s.2 s.1.state s') s' := by
    intro s' phase
    unfold Holds hold
    unfold Holds at h
    rw [phase]
    cases eq : s.1.state.phase with
    | writing => rfl
    | flushing n => simpa only [eq] using h
  cases op with
  | write c => exact (step_traced c).holds h
  | flush =>
    apply quiet
    refine writes_step env s.1 .flush
      (Q := fun _ (s' : SlicedWriter (Trail T) S) _ => s'.phase = s.1.state.phase) ?_
    rw [WriteOp.poll, wp_map, pollFlush_wp]
    exact wp_iff.mpr rfl
  | shutdown =>
    apply quiet
    refine writes_step env s.1 .shutdown
      (Q := fun _ (s' : SlicedWriter (Trail T) S) _ => s'.phase = s.1.state.phase) ?_
    rw [WriteOp.poll, wp_map, pollShutdown_wp]
    exact wp_iff.mpr rfl

omit [AsyncWrite T] [Size S] in
/-- An honest inner writer answers for no more than a slice. -/
theorem Sliced.within {received : T → List UInt8} {buf : List UInt8} {limit : Nat} {off : Bool}
    {s s' : SlicedWriter T S} {r : Poll IoError Nat} (h : Sliced received buf limit off s r s')
    (on : off = false) (full : buf ≠ []) (writing : s.phase = .writing) {n : Nat} (ok : r = .ok n) :
    n ≤ limit := by
  cases h with
  | passed why phase wrote =>
    rcases why with off | none
    · cases on.symm.trans off
    · exact absurd none full
  | raced writing zero answer same =>
    cases ok.symm.trans answer
    exact Nat.zero_le _
  | refused writing still answer same => exact absurd ok (answer n)
  | took m writing flushing answer le small moved => exact absurd ok (answer n)
  | sliced m writing still answer le small moved =>
    cases ok.symm.trans answer
    exact small
  | waited m flushing still answer same => cases writing.symm.trans flushing
  | flushed m flushing still answer same => cases writing.symm.trans flushing

/-- **When a knob update makes up a zero-length write.** In a run over any inner writer in which no
poll is hollow, a write of some bytes answers zero only for an inner write of some bytes that did. Over
an honest inner writer every hollow poll that succeeds is a zero made up. -/
theorem genuine_unless_hollow {U : Type} [Sink U] :
    (∀ (env : World) (k : Nat) (inner : T) (size : S) (ops : List WriteOp),
      (heldWrites T S env).Allowed (fun _ s op => ¬Hollow env s op)
        (⟨k, new (.start inner) size⟩, none) ops →
      (heldWrites T S env).Allowed (fun _ s op => Genuine env s op)
        (⟨k, new (.start inner) size⟩, none) ops) ∧
    ∀ (env : World) (k : Nat) (inner : U) (size : S) (ops : List WriteOp),
      (heldWrites U S env).Allowed
        (fun _ s op => Hollow env s op → ((heldWrites U S env).step s op).1.isOk = true →
          ¬Genuine env s op)
        (⟨k, new (.start inner) size⟩, none) ops := by
  constructor
  · intro env k inner size ops solid
    have start : Holds none (new (Trail.start inner) size) := rfl
    refine Machine.AllowedFrom.imp
      (P := fun _ (s : Paced (SlicedWriter (Trail T) S) × Option Entry) => Holds s.2 s.1.state)
      ?_ ?_ start solid
    · exact fun _ s op h _ => holds_step h op
    · intro _ s op h solid
      cases op with
      | write c =>
        intro full zero
        exact (step_traced c).genuine h full (fun on empty => solid ⟨full, on, empty⟩) zero
      | flush => trivial
      | shutdown => trivial
  · intro env k inner size ops
    have start : Holds none (new (Trail.start inner) size) := rfl
    refine Machine.allowedFrom_of_invariant
      (P := fun s : Paced (SlicedWriter (Trail U) S) × Option Entry => Holds s.2 s.1.state)
      (fun s op h => holds_step h op) ?_ start
    intro _ s op h hollow ok
    cases op with
    | write c =>
      obtain ⟨full, on, empty⟩ := hollow
      have fits : s.1.state.phase = .writing → ∀ n,
          ((heldWrites U S env).step s (.write c)).1 = .ok n →
          n ≤ (Size.size env s.1.state.size (s.1.moment + 1)).toNat := by
        intro writing n
        have sliced := writes_step env s.1 (.write c) (poll_sliced Sink.contract trivial c)
        exact sliced.2.2.2.within on full writing
      obtain ⟨zero, made_up⟩ := (step_traced c).made_up h full on empty fits ok
      exact fun genuine => made_up (genuine full zero)
    | flush => exact hollow.elim
    | shutdown => exact hollow.elim

/-- A run with a steady knob makes up no zero. -/
theorem genuine_steady_knob :
    (heldWrites Pipe DynamicSize (knob [2, 2, 3])).Allowed
      (fun _ s op => Genuine (knob [2, 2, 3]) s op) (⟨0, new (.start slow) (DynamicSize.mk 0)⟩, none)
      steady :=
  (genuine_unless_hollow (U := Pipe)).1 (knob [2, 2, 3]) 0 slow (DynamicSize.mk 0) steady (by decide)

/-- The failing runs. The knob turns to zero between the two reads of a write of three bytes: the
scalar one answers zero and makes no call, the vectored one asks for a write of nothing. -/
theorem raced_writes_answer_zero :
    ¬ (heldWrites Pipe DynamicSize (knob [2, 0])).Allowed (fun _ s op => Genuine (knob [2, 0]) s op)
        (⟨0, new (.start ⟨⟨[], []⟩, []⟩) (DynamicSize.mk 0)⟩, none) [.write (.scalar [1, 2, 3])] ∧
      ¬ (heldWrites Pipe DynamicSize (knob [2, 0])).Allowed (fun _ s op => Genuine (knob [2, 0]) s op)
        (⟨0, new (.start ⟨⟨[], []⟩, []⟩) (DynamicSize.mk 0)⟩, none)
        [.write (.vectored [[1], [2, 3]])] := by
  decide

end SlicedWriter

end Trixter
