import Trixter.Laws.Slices
import Trixter.Laws.SlicerRuns

/-!
# Slice, then flush

A sliced writer with a constant size never leaves more than a slice unflushed, reports a count only
once its bytes are flushed, and reports every byte once. The three are shown together
(`disciplined_throughout`): what is not flushed is part of what the slicer owes, and what it owes is at
most a slice.

Only the caller's own writes and flushes move the record. A flush that the caller asks for may come
early, and the slice is then flushed again before it is reported. A caller that gives up on a write and
starts another is not among those it holds for.
-/

namespace Trixter

open Trixter.Lib Polling

/-- The bytes accepted since the last successful flush, after one more call. -/
def Entry.unflushed (n : Nat) (e : Entry) : Nat :=
  match e.op, e.answer with
  | .write _, .ok m => n + m
  | .flush, .ok _ => 0
  | _, _ => n

/-- The bytes accepted since the last successful flush. -/
def unflushed (calls : List Entry) : Nat := calls.foldl Entry.unflushed 0

/-- At no moment of the record are more bytes unflushed than this. -/
def Bounded (limit : Nat) (calls : List Entry) : Prop :=
  ∀ before, before <+: calls → unflushed before ≤ limit

variable {limit : Nat} {calls : List Entry} {e : Entry}

@[simp] theorem unflushed_snoc : unflushed (calls ++ [e]) = e.unflushed (unflushed calls) := by
  simp only [unflushed, List.foldl_append, List.foldl_cons, List.foldl_nil]

theorem bounded_nil : Bounded limit [] := by
  intro before sub
  rw [List.prefix_nil.mp sub]
  exact Nat.zero_le _

theorem Bounded.snoc (h : Bounded limit calls) (le : e.unflushed (unflushed calls) ≤ limit) :
    Bounded limit (calls ++ [e]) := by
  intro before sub
  rcases List.prefix_concat_iff.mp sub with rfl | sub
  · rw [unflushed_snoc]
    exact le
  · exact h before sub

/-- A call that is not a success accepts and flushes nothing. -/
theorem unflushed_of_not_ok (h : ∀ n, e.answer ≠ .ok n) (n : Nat) : e.unflushed n = n := by
  obtain ⟨op, started, answer⟩ := e
  cases answer with
  | ok m => exact absurd rfl (h m)
  | _ => cases op <;> rfl

namespace SlicedWriter

variable {T : Type} [Sink T] {env : World} {k : Nat} {base : List UInt8} {past : Writes}
  {s s' : SlicedWriter (Trail T) UInt64}

/-- What holds after every poll: at every moment at most a slice was unflushed; in phase `Writing`
everything is, and the inner writer has received what was reported accepted. -/
structure Disciplined (base : List UInt8) (past : Writes) (s : SlicedWriter (Trail T) UInt64) :
    Prop where
  bounded : Bounded s.size.toNat s.inner.entries
  clean : s.phase = .writing → unflushed s.inner.entries = 0
  exact : s.phase = .writing → received s.inner = base ++ acceptedBytes past

/-- A count for a write of some bytes is reported right after a successful flush, in phase
`Writing`. -/
def FlushesFirst (env : World) (s : Paced (SlicedWriter (Trail T) UInt64)) : WriteOp → Prop
  | .write c =>
    let d := (writes (SlicedWriter (Trail T) UInt64) env).step s (.write c)
    c.content ≠ [] → d.1.isOk = true → d.2.state.phase = .writing ∧
      ∃ before started n, d.2.state.inner.entries = before ++ [⟨.flush, started, .ok n⟩]
  | _ => True

/-- What a run keeps beside its books. -/
structure Flushed (s : SlicedWriter (Trail T) UInt64) : Prop where
  on : s.size ≠ 0
  fits : s.inner.Fits
  bounded : Bounded s.size.toNat s.inner.entries
  within : unflushed s.inner.entries ≤ s.owes
  small : s.owes ≤ s.size.toNat

variable {c : WriteCall} {r : Poll IoError Nat}

omit [Sink T] in
theorem owes_writing (writing : s.phase = .writing) : s.owes = 0 := by
  rw [owes, writing]

omit [Sink T] in
theorem owes_flushing {n : Nat} (flushing : s.phase = .flushing n) : s.owes = n := by
  rw [owes, flushing]

omit [Sink T] in
/-- What the last call of a poll leaves unflushed is owed, and what is owed is at most a slice. -/
theorem Flushed.next (h : Flushed s) (same : s'.size = s.size) (fits : s'.inner.Fits)
    {before : List Entry} (bounded : Bounded s.size.toNat before)
    (calls : s'.inner.entries = before ++ [e]) (owed : e.unflushed (unflushed before) ≤ s'.owes)
    (small : s'.owes ≤ s.size.toNat) : Flushed s' where
  on := by rw [same]; exact h.on
  fits := fits
  bounded := by
    rw [calls, same]
    exact bounded.snoc (Nat.le_trans owed small)
  within := by
    rw [calls, unflushed_snoc]
    exact owed
  small := by rw [same]; exact small

omit [Sink T] in
/-- A poll that leaves the phase, and whose one call leaves no more unflushed than there was. -/
theorem Flushed.idle (h : Flushed s) (same : s'.size = s.size) (fits : s'.inner.Fits)
    (phase : s'.phase = s.phase) (calls : s'.inner.entries = s.inner.entries ++ [e])
    (moves : e.unflushed (unflushed s.inner.entries) ≤ unflushed s.inner.entries) :
    Flushed s' := by
  have owes : s'.owes = s.owes := by rw [SlicedWriter.owes, phase, SlicedWriter.owes]
  refine h.next same fits h.bounded calls ?_ (by rw [owes]; exact h.small)
  rw [owes]
  exact Nat.le_trans moves h.within

omit [Sink T] in
/-- **A write keeps the discipline**, whichever way it goes. -/
theorem Flushed.write (hs : Flushed s) (h : Traced c s.size.toNat false s r s')
    (same : s'.size = s.size) (fits : s'.inner.Fits) : Flushed s' := by
  have answered : ∀ e ∈ s'.inner.entries, ∀ n, e.answer = .ok n → n ≤ e.op.offer.length := fits
  -- a slice is added to a record with nothing unflushed
  have grown : ∀ n started, s.phase = .writing →
      ⟨.write (c.sliced s.size.toNat), started, .ok n⟩ ∈ s'.inner.entries →
      n ≤ s.size.toNat ∧ Entry.unflushed (unflushed s.inner.entries)
        ⟨.write (c.sliced s.size.toNat), started, .ok n⟩ = n := by
    intro n started writing mem
    have le := answered _ mem n rfl
    have none := hs.within
    rw [WriteOp.offer, WriteCall.sliced_content, List.length_take] at le
    rw [owes_writing writing, Nat.le_zero] at none
    refine ⟨by omega, ?_⟩
    rw [none]
    exact Nat.zero_add n
  cases h with
  | passed started why phase calls =>
    have empty := WriteCall.content_of_bare (why.resolve_left Bool.false_ne_true)
    refine hs.idle same fits phase calls ?_
    obtain ⟨m, rfl⟩ | refused := r.ok_or
    · have le := answered ⟨.write c, started, .ok m⟩ (by simp [calls]) m rfl
      rw [WriteOp.offer, empty] at le
      show unflushed s.inner.entries + m ≤ _
      rw [Nat.le_zero.mp le]
      exact Nat.le_refl _
    · exact Nat.le_of_eq (unflushed_of_not_ok refused _)
  | raced on full writing zero answer _ => exact absurd (UInt64.toNat_inj.mp zero) hs.on
  | refused started on writing still answer calls =>
    exact hs.idle same fits (still.trans writing.symm) calls
      (Nat.le_of_eq (unflushed_of_not_ok answer _))
  | took n started waits on writing flushing answer calls =>
    obtain ⟨small, eq⟩ := grown n started writing (by simp [calls])
    rw [List.append_cons] at calls
    refine hs.next same fits (hs.bounded.snoc (by rw [eq]; exact small)) calls ?_ ?_
    · apply Nat.le_of_eq
      rw [unflushed_of_not_ok answer, unflushed_snoc, eq, owes_flushing flushing]
    · rw [owes_flushing flushing]
      exact small
  | sliced n started waits on writing still answer calls =>
    obtain ⟨small, eq⟩ := grown n started writing (by simp [calls])
    rw [List.append_cons] at calls
    refine hs.next same fits (hs.bounded.snoc (by rw [eq]; exact small)) calls (Nat.zero_le _) ?_
    rw [owes_writing still]
    exact Nat.zero_le _
  | waited n started on flushing still answer calls =>
    exact hs.idle same fits (still.trans flushing.symm) calls
      (Nat.le_of_eq (unflushed_of_not_ok answer _))
  | flushed n started on flushing writing answer calls =>
    refine hs.next same fits hs.bounded calls (Nat.zero_le _) ?_
    rw [owes_writing writing]
    exact Nat.zero_le _

omit [Sink T] in
/-- A count for a write of some bytes comes right after a successful flush. -/
theorem Traced.flushes_first (h : Traced c limit false s r s') (pos : limit ≠ 0)
    (full : c.content ≠ []) (ok : r.isOk = true) : s'.phase = .writing ∧
      ∃ before started n, s'.inner.entries = before ++ [⟨.flush, started, .ok n⟩] := by
  obtain ⟨m, eq⟩ := Poll.isOk_iff.mp ok
  cases h with
  | passed started why phase calls =>
    exact absurd (WriteCall.content_of_bare (why.resolve_left Bool.false_ne_true)) full
  | raced on _ writing zero answer same => exact absurd zero pos
  | refused started on writing still answer calls => exact absurd eq (answer m)
  | took n started waits on writing flushing answer calls => exact absurd eq (answer m)
  | sliced n started waits on writing still answer calls =>
    rw [List.append_cons] at calls
    exact ⟨still, _, waits, 0, calls⟩
  | waited n started on flushing still answer calls => exact absurd eq (answer m)
  | flushed n started on flushing writing answer calls => exact ⟨writing, _, started, 0, calls⟩

/-- **One poll** keeps the discipline. -/
theorem flushed_step {s : Paced (SlicedWriter (Trail T) UInt64)} (hs : Flushed s.state)
    (op : WriteOp) :
    Flushed ((writes (SlicedWriter (Trail T) UInt64) env).step s op).2.state ∧
      FlushesFirst env s op := by
  have on : Size.isZero env s.state.size s.moment = false := beq_eq_false_iff_ne.mpr hs.on
  -- a call that accepts no byte, straight on
  have quiet : ∀ {op : WriteOp} {answer : Poll IoError Nat} {value : T},
      op = .flush ∨ op = .shutdown → Trail.Fits ⟨value, s.state.inner.entries ++ [⟨op, s.moment, answer⟩]⟩ →
      Flushed { s.state with inner := ⟨value, s.state.inner.entries ++ [⟨op, s.moment, answer⟩]⟩ } := by
    rintro op answer value (rfl | rfl) fits
    · refine hs.idle rfl fits rfl rfl ?_
      cases answer with
      | ok n => exact Nat.zero_le _
      | _ => exact Nat.le_refl _
    · refine hs.idle rfl fits rfl rfl ?_
      cases answer <;> exact Nat.le_refl _
  cases op with
  | write c =>
    have kept := writes_step env s (.write c)
      (poll_sliced (Trail.contract Sink.contract) hs.fits c)
    have traced := writes_step env s (.write c) (poll_traced s.state c)
    rw [on] at traced
    refine ⟨hs.write traced.2 traced.1 kept.1, fun full ok => ?_⟩
    exact traced.2.flushes_first (fun zero => hs.on (UInt64.toNat_inj.mp zero)) full ok
  | flush =>
    refine ⟨?_, trivial⟩
    refine writes_step env s .flush
      (Q := fun _ (s' : SlicedWriter (Trail T) UInt64) _ => Flushed s') ?_
    rw [WriteOp.poll, wp_map, pollFlush_wp, Trail.flush_wp]
    refine wp_iff.mpr (quiet (.inl rfl) (hs.fits.snoc fun _ => Trail.map_zero_fits))
  | shutdown =>
    refine ⟨?_, trivial⟩
    refine writes_step env s .shutdown
      (Q := fun _ (s' : SlicedWriter (Trail T) UInt64) _ => Flushed s') ?_
    rw [WriteOp.poll, wp_map, pollShutdown_wp, Trail.shutdown_wp]
    refine wp_iff.mpr (quiet (.inr rfl) (hs.fits.snoc fun _ => Trail.map_zero_fits))

/-- The discipline and the books give what holds after every poll. -/
theorem Flushed.disciplined (h : Flushed s) (books : Accounted base past s) :
    Disciplined base past s where
  bounded := h.bounded
  clean writing := by
    have none := h.within
    rw [owes_writing writing] at none
    exact Nat.le_zero.mp none
  exact writing := by
    obtain ⟨b, -, -, received⟩ := books
    rw [received, owes_writing writing, List.take_zero, List.append_nil]

/-- **Slice, then flush.** With a constant size, for a caller that after a write that was not accepted
offers the same bytes again, perhaps with more after them and perhaps through the other entry point,
and that flushes when it likes: the inner writer never holds more than a slice unflushed, and none in
phase `Writing`; a count is reported right after a successful flush; and in phase `Writing` the inner
writer has received what was reported accepted, once. -/
theorem disciplined_throughout (env : World) (k : Nat) (inner : T) (size : UInt64) (pos : 0 < size)
    (ops : List WriteOp)
    (caller : (writes (SlicedWriter (Trail T) UInt64) env).Allowed
      (fun past _ op => Reoffers past op) ⟨k, new (.start inner) size⟩ ops) :
    (writes (SlicedWriter (Trail T) UInt64) env).Throughout
        (fun past s => Disciplined (received inner) past s.state)
        ⟨k, new (.start inner) size⟩ ops ∧
      (writes (SlicedWriter (Trail T) UInt64) env).Allowed (fun _ s op => FlushesFirst env s op)
        ⟨k, new (.start inner) size⟩ ops := by
  let m := writes (SlicedWriter (Trail T) UInt64) env
  let P : Writes → Paced (SlicedWriter (Trail T) UInt64) → Prop := fun past s =>
    Accounted (received inner) past s.state ∧ Flushed s.state
  have start : P [] ⟨k, new (.start inner) size⟩ := by
    refine ⟨⟨[], .inl rfl, Nat.zero_le _, ?_⟩, ?_, nofun, bounded_nil, Nat.zero_le _, Nat.zero_le _⟩
    · simp [new, acceptedBytes, Trail.start, Sink.received]
    · exact UInt64.pos_iff_ne_zero.mp pos
  have keep : ∀ past s op, P past s → Reoffers past op →
      P (past ++ [(op, (m.step s op).1)]) (m.step s op).2 := by
    rintro past s op ⟨books, flushed⟩ again
    have on : ¬Diverted env s.moment s.state op := by
      cases op with
      | write c => exact fun diverted => flushed.on (beq_iff_eq.mp diverted.2.1)
      | flush => exact id
      | shutdown => exact id
    exact ⟨(writes_step env s op (accounted_step books again)).1 on, (flushed_step flushed op).1⟩
  constructor
  · refine Machine.AllowedFrom.imp (P := P) keep (fun past s op h again => ?_) start caller
    obtain ⟨books, flushed⟩ := keep past s op h again
    exact flushed.disciplined books
  · exact Machine.AllowedFrom.imp (P := P) keep (fun _ s op h _ => (flushed_step h.2 op).2) start
      caller

/-- A run through both entry points, with a flush that is late, one that fails and one that the caller
asks for. -/
theorem disciplined_pipe :
    let ops : List WriteOp :=
      [.write (.scalar [1, 2, 3]), .flush, .write (.vectored [[1], [2, 3]]),
        .write (.scalar [1, 2, 3, 4]), .write (.vectored [[3, 4]])]
    let pipe : Pipe := ⟨⟨[], []⟩, [.later, .ready 0, .fails 32]⟩
    (writes (SlicedWriter (Trail Pipe) UInt64) .still).Throughout
        (fun past s => Disciplined (received pipe) past s.state) ⟨0, new (.start pipe) 2⟩ ops ∧
      (writes (SlicedWriter (Trail Pipe) UInt64) .still).Allowed
        (fun _ s op => FlushesFirst .still s op) ⟨0, new (.start pipe) 2⟩ ops :=
  disciplined_throughout .still 0 (Pipe.mk ⟨[], []⟩ [.later, .ready 0, .fails 32]) 2 (by decide) _
    (by decide)

end SlicedWriter

end Trixter
