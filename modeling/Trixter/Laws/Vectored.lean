import Trixter.Laws.Slices
import Trixter.Laws.ThrottlerRuns

/-!
# Vectored and scalar writes agree

Both adapters trim a vectored write to a list of buffers and a scalar write to a prefix, with loops of
their own. Either way the inner writer is offered the same bytes, and from there on the two polls go
alike: if the inner writer answers alike, the adapter does, and it is left in the same state
(`vectored_agrees`). An inner writer that treats the two entry points differently is not ruled out.
-/

namespace Trixter

open Trixter.Lib Polling

/-- Two polls make one write each, a vectored and a scalar one, of the first bytes of these buffers up
to a limit. -/
def HandsOn (limit : Nat) (bufs : List (List UInt8)) (vectored scalar : List Entry) : Prop :=
  ∃ parts, parts.flatten = bufs.flatten.take (min limit bufs.flatten.length) ∧
    (Trail.writesOf vectored).map (·.op) = [.write (.vectored parts)] ∧
    (Trail.writesOf scalar).map (·.op) = [.write (.scalar parts.flatten)]

/-- The first bytes up to a limit are those up to the length. -/
theorem take_min_length {α : Type} (limit : Nat) (l : List α) :
    l.take (min limit l.length) = l.take limit := by
  rw [List.take_eq_take_iff]
  omega

namespace SlicedWriter

variable {T S : Type} {bufs : List (List UInt8)} {limit : Nat}
  {s s₁ s₂ : SlicedWriter (Trail T) S} {r₁ r₂ : Poll IoError Nat}

/-- In phase `Writing`, with some bytes to write, a poll is refused, leaves its slice unflushed, or
comes to its end. -/
theorem Traced.writing {c : WriteCall} {r : Poll IoError Nat} (h : Traced c limit false s r s₁)
    (writing : s.phase = .writing) (full : c.content ≠ []) (pos : limit ≠ 0) :
    (∃ k, s.inner.since s₁.inner = [⟨.write (c.sliced limit), k, r⟩] ∧ s₁.phase = .writing ∧
        ∀ n, r ≠ .ok n) ∨
      (∃ n k k', s.inner.since s₁.inner =
          [⟨.write (c.sliced limit), k, .ok n⟩, ⟨.flush, k', r⟩] ∧ s₁.phase = .flushing n ∧
        ∀ m, r ≠ .ok m) ∨
      ∃ n k k', s.inner.since s₁.inner =
          [⟨.write (c.sliced limit), k, .ok n⟩, ⟨.flush, k', .ok 0⟩] ∧ s₁.phase = .writing ∧
        r = .ok n := by
  cases h with
  | passed started why phase calls =>
    exact absurd (WriteCall.content_of_bare (why.resolve_left Bool.false_ne_true)) full
  | raced on _ _ zero answer same => exact absurd zero pos
  | refused started on _ still answer calls =>
    exact .inl ⟨started, Trail.since_append calls, still, answer⟩
  | took n started waits on _ flushing answer calls =>
    exact .inr (.inl ⟨n, started, waits, Trail.since_append calls, flushing, answer⟩)
  | sliced n started waits on _ still answer calls =>
    exact .inr (.inr ⟨n, started, waits, Trail.since_append calls, still, answer⟩)
  | waited n started on flushing still answer calls => cases writing.symm.trans flushing
  | flushed n started on flushing still answer calls => cases writing.symm.trans flushing

/-- Its one write is of the slice. -/
theorem Traced.writes_slice {c : WriteCall} {r : Poll IoError Nat} (h : Traced c limit false s r s₁)
    (writing : s.phase = .writing) (full : c.content ≠ []) (pos : limit ≠ 0) :
    (Trail.writesOf (s.inner.since s₁.inner)).map (·.op) = [.write (c.sliced limit)] := by
  obtain ⟨_, calls, -⟩ | ⟨_, _, _, calls, -⟩ | ⟨_, _, _, calls, -⟩ := h.writing writing full pos
  all_goals
    rw [calls]
    rfl

/-- **Two write paths, one slice.** -/
theorem Traced.agree (vectored : Traced (.vectored bufs) limit false s r₁ s₁)
    (scalar : Traced (.scalar bufs.flatten) limit false s r₂ s₂) (writing : s.phase = .writing)
    (full : bufs.flatten ≠ []) (pos : limit ≠ 0) :
    HandsOn limit bufs (s.inner.since s₁.inner) (s.inner.since s₂.inner) ∧
      ((s.inner.since s₁.inner).map (·.answer) = (s.inner.since s₂.inner).map (·.answer) →
        r₁ = r₂ ∧ s₁.phase = s₂.phase) := by
  constructor
  · refine ⟨limitSlices limit bufs, ?_, vectored.writes_slice writing full pos, ?_⟩
    · rw [limitSlices_flatten, take_min_length]
    · rw [scalar.writes_slice writing full pos, WriteCall.sliced, limitSlices_flatten, Nat.min_comm,
        take_min_length]
  · intro same
    obtain ⟨_, calls₁, phase₁, stop₁⟩ | ⟨n₁, _, _, calls₁, phase₁, stop₁⟩ |
        ⟨n₁, _, _, calls₁, phase₁, ok₁⟩ := vectored.writing writing full pos <;>
      obtain ⟨_, calls₂, phase₂, stop₂⟩ | ⟨n₂, _, _, calls₂, phase₂, stop₂⟩ |
        ⟨n₂, _, _, calls₂, phase₂, ok₂⟩ := scalar.writing writing full pos <;>
      rw [calls₁, calls₂] at same <;> rw [phase₁, phase₂]
    · cases same
      exact ⟨rfl, rfl⟩
    · cases same
    · cases same
    · cases same
    · cases same
      exact ⟨rfl, rfl⟩
    · cases same
      exact absurd rfl (stop₁ 0)
    · cases same
    · cases same
      exact absurd rfl (stop₂ 0)
    · cases same
      exact ⟨ok₁.trans ok₂.symm, rfl⟩

end SlicedWriter

namespace ThrottledWriter

variable {T R : Type} [Rate R] [AsyncWrite T] {env : World} {k : Nat}
  {s : ThrottledWriter (Trail T) R}

open LeakyBucket

/-- The bucket once an answer is paid for. -/
def paid (lb : LeakyBucket R) : Poll IoError Nat → LeakyBucket R
  | .ok n => lb.consume n
  | _ => lb

/-- One write under a limit, by the calls it makes: none while it waits for tokens, or one that is
trimmed to its grant and paid for. -/
def Throttled (env : World) (k : Nat) (s : ThrottledWriter (Trail T) R) (c : WriteCall)
    (r : Poll IoError Nat) (s' : ThrottledWriter (Trail T) R) : Prop :=
  let o := acquire c.wanted env k s.lb
  (o.result = .pending ∧ r = .pending ∧ s.inner.since s'.inner = [] ∧ s'.lb = o.state) ∨
    ∃ grant k', o.result = .ok grant ∧ s'.lb = paid o.state r ∧
      s.inner.since s'.inner = [⟨.write (c.limited (c.usable grant.tokens)), k', r⟩]

/-- A poll that gets tokens when some are wanted gets some. -/
theorem acquire_pos {want : Nat} {lb : LeakyBucket R} (pos : 0 < want) :
    (acquire want).wp env k lb fun r _ _ => r = .pending ∨ ∃ grant, r = .ok grant ∧ 0 < grant.tokens :=
  acquire_of (I := fun _ _ => True)
    { later := fun _ _ _ => trivial
      wakes := fun _ _ _ => trivial
      starves := fun _ _ _ _ _ _ => trivial
      grants := fun _ _ _ some => .inr ⟨_, rfl, some⟩
      pends := fun _ _ _ => .inl rfl
      unwanted := fun _ _ _ none => absurd none (Nat.pos_iff_ne_zero.mp pos)
      unlimited := fun _ _ _ _ => .inr ⟨_, rfl, pos⟩ } trivial

theorem write_throttled (c : WriteCall) (limited : Rate.isUnlimited env s.lb.rate k = false)
    (pos : 0 < c.wanted) (some : ∀ n, 0 < n → 0 < c.usable n) :
    c.poll.wp env k s fun r s' _ => Throttled env (k + 1) s c r s' := by
  rw [write_wp, if_neg (by rw [limited]; exact Bool.false_ne_true), wp_iff]
  unfold Throttled
  have grants : (acquire c.wanted).wp env (k + 1) s.lb fun r _ _ =>
      r = .pending ∨ ∃ grant, r = .ok grant ∧ 0 < grant.tokens := acquire_pos pos
  rw [wp_iff] at grants
  generalize acquire c.wanted env (k + 1) s.lb = o at grants ⊢
  obtain ⟨answer, lb, took⟩ := o
  obtain rfl | ⟨grant, rfl, tokens⟩ := grants
  · exact .inl ⟨rfl, rfl, by simp [Trail.since], rfl⟩
  · have nonzero : c.usable grant.tokens ≠ 0 := Nat.pos_iff_ne_zero.mp (some _ tokens)
    dsimp only
    rw [if_neg nonzero, forward_wp, Trail.write_wp, wp_iff]
    dsimp only
    rcases (c.limited (c.usable grant.tokens)).poll env (k + 1 + took) s.inner.value with ⟨r, value, n⟩
    cases r with
    | ok n => exact .inr ⟨grant, _, rfl, rfl, Trail.since_append rfl⟩
    | pending => exact .inr ⟨grant, _, rfl, rfl, Trail.since_append rfl⟩
    | err e => exact .inr ⟨grant, _, rfl, rfl, Trail.since_append rfl⟩
    | panicked m => exact .inr ⟨grant, _, rfl, rfl, Trail.since_append rfl⟩

variable {bufs : List (List UInt8)} {s₁ s₂ : ThrottledWriter (Trail T) R}
  {r₁ r₂ : Poll IoError Nat}

omit [AsyncWrite T] in
/-- **Two write paths, one grant.** -/
theorem Throttled.agree (fits : bufs.flatten.length < 2 ^ 64)
    (vectored : Throttled env k s (.vectored bufs) r₁ s₁)
    (scalar : Throttled env k s (.scalar bufs.flatten) r₂ s₂) :
    (match (pollAcquire bufs.flatten.length env k s.lb).result with
      | .ok grant => HandsOn grant bufs (s.inner.since s₁.inner) (s.inner.since s₂.inner)
      | _ => s.inner.since s₁.inner = [] ∧ s.inner.since s₂.inner = []) ∧
      ((s.inner.since s₁.inner).map (·.answer) = (s.inner.since s₂.inner).map (·.answer) →
        r₁ = r₂ ∧ s₁.lb = s₂.lb) := by
  have wants : (WriteCall.vectored bufs).wanted = bufs.flatten.length := Nat.mod_eq_of_lt fits
  have tokens : (pollAcquire bufs.flatten.length env k s.lb).result =
      (acquire bufs.flatten.length env k s.lb).result.map Grant.tokens := by
    have same : (pollAcquire bufs.flatten.length).wp env k s.lb fun r _ _ => r =
        (acquire bufs.flatten.length env k s.lb).result.map Grant.tokens := wp_map.mpr rfl
    exact same
  rw [tokens]
  unfold Throttled at vectored scalar
  rw [wants] at vectored
  obtain ⟨pends₁, rfl, calls₁, lb₁⟩ | ⟨grant₁, k₁, ok₁, lb₁, calls₁⟩ := vectored
  · obtain ⟨-, rfl, calls₂, lb₂⟩ | ⟨grant₂, k₂, ok₂, -⟩ := scalar
    · rw [pends₁, calls₁, calls₂, lb₁, lb₂]
      exact ⟨⟨rfl, rfl⟩, fun _ => ⟨rfl, rfl⟩⟩
    · cases pends₁.symm.trans ok₂
  · obtain ⟨pends₂, -⟩ | ⟨grant₂, k₂, ok₂, lb₂, calls₂⟩ := scalar
    · cases pends₂.symm.trans ok₁
    · obtain rfl : grant₁ = grant₂ := Poll.ok.inj (ok₁.symm.trans ok₂)
      rw [ok₁, calls₁, calls₂, lb₁, lb₂]
      constructor
      · refine ⟨limitSlices grant₁.tokens bufs, ?_, rfl, ?_⟩
        · rw [limitSlices_flatten, take_min_length]
        · rw [limitSlices_flatten, ← take_min_length]
          rfl
      · intro same
        cases same
        exact ⟨rfl, rfl⟩

end ThrottledWriter

/-- **Vectored and scalar writes agree.** For buffers with some bytes, of a length that fits in 64 bits,
however they are cut: a sliced writer in phase `Writing` whose size is on, and a throttled writer whose
rate is on, offer the inner writer the same first bytes through either entry point, up to the slice or
the grant. If the inner writer answers alike, so does the adapter, and it is left in the same state. -/
theorem vectored_agrees {T S R : Type} [AsyncWrite T] [Size S] [Rate R] (env : World) (k : Nat)
    (bufs : List (List UInt8)) (full : bufs.flatten ≠ []) (fits : bufs.flatten.length < 2 ^ 64) :
    (∀ s : SlicedWriter (Trail T) S, s.phase = .writing → Size.isZero env s.size k = false →
      0 < Size.size env s.size (k + 1) →
        let v := (WriteCall.vectored bufs).poll env k s
        let c := (WriteCall.scalar bufs.flatten).poll env k s
        HandsOn (Size.size env s.size (k + 1)).toNat bufs (s.inner.since v.state.inner)
            (s.inner.since c.state.inner) ∧
          ((s.inner.since v.state.inner).map (·.answer) =
              (s.inner.since c.state.inner).map (·.answer) →
            v.result = c.result ∧ v.state.phase = c.state.phase ∧ v.state.size = c.state.size)) ∧
    ∀ s : ThrottledWriter (Trail T) R, Rate.isUnlimited env s.lb.rate k = false →
      let v := (WriteCall.vectored bufs).poll env k s
      let c := (WriteCall.scalar bufs.flatten).poll env k s
      (match (LeakyBucket.pollAcquire bufs.flatten.length env (k + 1) s.lb).result with
        | .ok grant => HandsOn grant bufs (s.inner.since v.state.inner) (s.inner.since c.state.inner)
        | _ => s.inner.since v.state.inner = [] ∧ s.inner.since c.state.inner = []) ∧
        ((s.inner.since v.state.inner).map (·.answer) =
            (s.inner.since c.state.inner).map (·.answer) →
          v.result = c.result ∧ v.state.lb = c.state.lb) := by
  constructor
  · intro s writing on pos
    have nonzero : (Size.size env s.size (k + 1)).toNat ≠ 0 :=
      Nat.pos_iff_ne_zero.mp (UInt64.lt_iff_toNat_lt.mp pos)
    have traced (c : WriteCall) : c.poll.wp env k s fun r s' _ => s'.size = s.size ∧
        SlicedWriter.Traced c (Size.size env s.size (k + 1)).toNat (Size.isZero env s.size k) s r s' :=
      s.poll_traced c
    simp only [wp_iff, on] at traced
    have vectored := traced (.vectored bufs)
    have scalar := traced (.scalar bufs.flatten)
    obtain ⟨hands, alike⟩ := vectored.2.agree scalar.2 writing full nonzero
    refine ⟨hands, fun same => ⟨(alike same).1, (alike same).2, ?_⟩⟩
    exact vectored.1.trans scalar.1.symm
  · intro s limited
    have pos : 0 < bufs.flatten.length := List.length_pos_iff.mpr full
    have wants : (WriteCall.vectored bufs).wanted = bufs.flatten.length := Nat.mod_eq_of_lt fits
    have vectored := wp_iff.mp (ThrottledWriter.write_throttled (s := s) (.vectored bufs) limited
      (by rw [wants]; exact pos) fun _ some => some)
    have scalar := wp_iff.mp (ThrottledWriter.write_throttled (s := s) (.scalar bufs.flatten) limited
      pos fun _ some => Nat.lt_min.mpr ⟨some, pos⟩)
    exact vectored.agree fits scalar

/-- Five buffers, two of them empty, cut at the third byte by a slice of three and at the fourth by a
grant of four. -/
theorem vectored_agrees_five :
    let bufs : List (List UInt8) := [[1], [], [2, 3], [], [4, 5]]
    (let s : SlicedWriter (Trail Pipe) UInt64 := .new (.start ⟨⟨[], []⟩, [.later]⟩) 3
      let v := (WriteCall.vectored bufs).poll .still 0 s
      let c := (WriteCall.scalar bufs.flatten).poll .still 0 s
      HandsOn 3 bufs (s.inner.since v.state.inner) (s.inner.since c.state.inner) ∧
        v.result = c.result ∧ v.state.phase = c.state.phase ∧ v.state.size = c.state.size) ∧
      (let s : ThrottledWriter (Trail Pipe) UInt64 := .new .still 0 (.start ⟨⟨[], []⟩, []⟩) 4
        let v := (WriteCall.vectored bufs).poll .still 3 s
        let c := (WriteCall.scalar bufs.flatten).poll .still 3 s
        HandsOn 4 bufs (s.inner.since v.state.inner) (s.inner.since c.state.inner) ∧
          v.result = c.result ∧ v.state.lb = c.state.lb) := by
  intro bufs
  have sliced := (vectored_agrees (T := Pipe) (S := UInt64) (R := UInt64) .still 0 bufs (by decide)
    (by decide)).1 (.new (.start ⟨⟨[], []⟩, [.later]⟩) 3) rfl (by decide) (by decide)
  have throttled := (vectored_agrees (T := Pipe) (S := UInt64) (R := UInt64) .still 3 bufs (by decide)
    (by decide)).2 (.new .still 0 (.start ⟨⟨[], []⟩, []⟩) 4) (by decide)
  exact ⟨⟨sliced.1, sliced.2 (by decide)⟩, throttled.1, throttled.2 (by decide)⟩

end Trixter
