import Trixter.Backlog
import Trixter.Laws.Retried
import Trixter.Lib.Weave

/-!
# Draining a stored block

`drain_wp` is one drain. Over a writer that serves a retrying caller it never drops more than is stored:
each round offers exactly what is left of the block. That a drain comes to its end is not claimed.
-/

namespace Trixter

open Trixter.Lib Polling

namespace Backlog

variable {T : Type} [AsyncWrite T] {offering : List UInt8 → List UInt8 → T → Prop} {env : World}

/-- The end of a drain that found `block` stored: all of it is reported and anything may be offered
next, or `n` bytes of it are, and the rest is stored and on offer. -/
def Drained (offering : List UInt8 → List UInt8 → T → Prop) (log block : List UInt8)
    (r : Poll IoError Unit) (s : Backlog T) : Prop :=
  (r = .ok () ∧ ∀ next, offering (log ++ block) next s.inner) ∨
    ∃ n, n < block.length ∧ (∀ u, r ≠ .ok u) ∧ s.buffer = some (block.drop n) ∧
      offering (log ++ block.take n) (block.drop n) s.inner

omit [AsyncWrite T] in
/-- `Bytes::advance` within the block. -/
theorem advance_wp {k n : Nat} {s : Backlog T} {Q : Poll IoError Unit → Backlog T → Nat → Prop}
    (le : n ≤ s.stored.length) :
    (advance n).wp env k s Q ↔ Q (.ok ()) { s with buffer := some (s.stored.drop n) } k := by
  simp only [advance, wp_bind, wp_get, wp_ite, if_pos le, wp_modify]

theorem drainLoop_nil {rounds k : Nat} {s : Backlog T} {Q : Poll IoError Unit → Backlog T → Nat → Prop}
    (nil : s.stored = []) : (drainLoop rounds).wp env k s Q ↔ Q (.ok ()) s k := by
  cases rounds with
  | zero => rfl
  | succ rounds =>
    rw [drainLoop, wp_bind, wp_get]
    dsimp only
    rw [wp_ite, nil, if_pos (by rfl), wp_pure]

omit [AsyncWrite T] in
/-- Draining the rest after `n` bytes is draining the block. -/
theorem Drained.of_drop {log block : List UInt8} {n : Nat} {r : Poll IoError Unit} {s : Backlog T}
    (le : n ≤ block.length)
    (h : Drained offering (log ++ block.take n) (block.drop n) r s) :
    Drained offering log block r s := by
  obtain ⟨rfl, free⟩ | ⟨m, lt, refused, stored, offered⟩ := h
  · refine .inl ⟨rfl, fun next => ?_⟩
    have free := free next
    rwa [List.append_assoc, List.take_append_drop] at free
  · rw [List.length_drop] at lt
    refine .inr ⟨n + m, by omega, refused, ?_, ?_⟩
    · rw [stored, List.drop_drop]
    · rwa [List.append_assoc, ← List.take_add, List.drop_drop] at offered

/-- The loop, by induction on the rounds: what is stored shrinks, what is reported grows. -/
theorem drainLoop_wp (h : Retried T offering) :
    ∀ rounds k (s : Backlog T) log block, s.buffer = some block → block ≠ [] →
      block.length ≤ rounds → offering log block s.inner →
      (drainLoop rounds).wp env k s fun r s' _ => Calm r ∧ Drained offering log block r s' := by
  intro rounds
  induction rounds with
  | zero =>
    intro k s log block _ nonempty le _
    exact absurd (List.length_eq_zero_iff.mp (Nat.le_zero.mp le)) nonempty
  | succ rounds ih =>
    intro k s log block stored nonempty le offered
    have eq : s.stored = block := by rw [Backlog.stored, stored]; rfl
    have pos : 0 < block.length := List.length_pos_iff.mpr nonempty
    rw [drainLoop, wp_bind, wp_get]
    dsimp only
    rw [wp_ite, eq, if_neg (by simpa using nonempty), wp_bind, onInner, wp_zoom]
    refine wp_mono (h.write env k s.inner log block offered) fun r t k' ⟨calm, answered⟩ => ?_
    obtain ⟨n, rfl, fits, free⟩ | ⟨refused, still⟩ := answered
    · dsimp only
      rw [wp_ite]
      split
      · next zero =>
        -- the inner writer took nothing: an error, and the block stays
        subst zero
        exact ⟨calm_err _, .inr ⟨0, pos, fun _ h => (by cases h), stored, free _⟩⟩
      · next some =>
        have stored' : ({ s with inner := t } : Backlog T).stored = block := eq
        rw [wp_bind, advance_wp (by rw [stored']; exact fits), stored']
        dsimp only
        by_cases done : block.drop n = []
        · rw [drainLoop_nil (by rw [Backlog.stored, done]; rfl)]
          refine ⟨calm_ok (), .inl ⟨rfl, fun next => ?_⟩⟩
          have free := free next
          rwa [List.take_of_length_le (List.drop_eq_nil_iff.mp done)] at free
        · refine wp_mono (ih k' _ (log ++ block.take n) (block.drop n) rfl done ?_ (free _)) ?_
          · rw [List.length_drop]
            omega
          · exact fun r s' _ ⟨calm, drained⟩ => ⟨calm, drained.of_drop fits⟩
    · have stays : ∀ r : Poll IoError Unit, (∀ u, r ≠ .ok u) →
          Drained offering log block r { s with inner := t } := fun r refused =>
        .inr ⟨0, pos, refused, stored, by simpa using still⟩
      cases r with
      | ok n => exact absurd rfl (refused n)
      | pending => exact ⟨calm_pending, stays _ fun _ h => by cases h⟩
      | err e => exact ⟨calm_err e, stays _ fun _ h => by cases h⟩
      | panicked m => exact absurd rfl (calm m)

/-- **The drain** of a block that is not empty. Once it is done nothing is stored. -/
theorem drain_wp (h : Retried T offering) {k : Nat} {s : Backlog T} {log block : List UInt8}
    (stored : s.buffer = some block) (nonempty : block ≠ []) (offered : offering log block s.inner) :
    drain.wp env k s fun r s' _ =>
      Calm r ∧ Drained offering log block r s' ∧ (r = .ok () → s'.buffer = none) := by
  rw [drain, wp_bind, wp_get]
  dsimp only
  rw [stored]
  dsimp only
  rw [wp_bind]
  refine wp_mono (drainLoop_wp h _ k s log block stored nonempty (Nat.le_refl _) offered) ?_
  rintro r s' k' ⟨calm, drained⟩
  cases r with
  | ok u =>
    obtain ⟨-, free⟩ | ⟨n, -, refused, -⟩ := drained
    · exact ⟨calm_ok (), .inl ⟨rfl, free⟩, fun _ => rfl⟩
    · exact absurd rfl (refused u)
  | pending => exact ⟨calm_pending, drained, fun h => by cases h⟩
  | err e => exact ⟨calm_err e, drained, fun h => by cases h⟩
  | panicked m => exact absurd rfl (calm m)

/-- With nothing to write, only the store is cleared. -/
theorem drain_idle {k : Nat} {s : Backlog T} {Q : Poll IoError Unit → Backlog T → Nat → Prop}
    (nothing : s.stored = []) :
    drain.wp env k s Q ↔ Q (.ok ()) { s with buffer := none } k := by
  obtain ⟨inner, buffer⟩ := s
  cases buffer with
  | none => rfl
  | some block =>
    obtain rfl : block = [] := nothing
    rfl

/-! ## As a weave

The writer under a synthetic-data adapter, seen as a weave of the blocks with the caller's bytes. -/

/-- What is offered next: what is left of the stored block, or else the caller's buffer. -/
def target (buffer : Option (List UInt8)) (buf : List UInt8) : List UInt8 :=
  if buffer.getD [] = [] then buf else buffer.getD []

theorem target_empty {buffer : Option (List UInt8)} {buf : List UInt8} (h : buffer.getD [] = []) :
    target buffer buf = buf := if_pos h

theorem target_block {block buf : List UInt8} (h : block ≠ []) : target (some block) buf = block :=
  if_neg h

/-- The writer has reported what the weave holds, the store is what the weave has left to write, and
the writer may be offered what comes next. -/
structure Woven (offering : List UInt8 → List UInt8 → T → Prop) (base : List UInt8)
    (w : Weave UInt8) (buf : List UInt8) (s : Backlog T) : Prop where
  rest : w.rest = s.buffer
  offered : offering (base ++ w.bytes) (target s.buffer buf) s.inner

variable {base buf : List UInt8} {w : Weave UInt8} {k : Nat} {s : Backlog T}

omit [AsyncWrite T] in
/-- Taking up a block, when the writer may be offered anything. A block without bytes is never
offered. -/
theorem Woven.start {block : List UInt8} (hw : Woven offering base w buf s) (idle : s.buffer = none)
    (free : block ≠ [] → ∀ next, offering (base ++ w.bytes) next s.inner) :
    Woven offering base (w.start block) buf { s with buffer := some block } where
  rest := Weave.start_rest
  offered := by
    rw [Weave.start_bytes (hw.rest.trans idle)]
    by_cases empty : block = []
    · subst empty
      have offered := hw.offered
      rw [idle] at offered
      exact offered
    · exact free empty _

/-- A drain writes a part of what was stored; a drain that comes to its end writes all of it. -/
theorem drain_woven (h : Retried T offering) (hw : Woven offering base w buf s) :
    drain.wp env k s fun r s' _ => Calm r ∧ ∃ w', Weave.Grew w [] [] w' ∧
      Woven offering base w' buf s' ∧
      (r = .ok () → s'.buffer = none ∧ (s.stored = [] → base ++ w'.bytes = base ++ w.bytes ∧
        s'.inner = s.inner) ∧
        (s.stored ≠ [] → ∀ next, offering (base ++ w'.bytes) next s'.inner)) := by
  obtain ⟨rest, offered⟩ := hw
  by_cases nothing : s.stored = []
  · rw [drain_idle nothing]
    have offered' : offering (base ++ w.bytes) buf s.inner := by
      rw [target_empty nothing] at offered
      exact offered
    cases stored : s.buffer with
    | none =>
      exact ⟨calm_ok (), w, .refl, ⟨rest.trans stored, offered'⟩, fun _ =>
        ⟨rfl, fun _ => ⟨rfl, rfl⟩, fun some => absurd nothing some⟩⟩
    | some block =>
      obtain rfl : block = [] := by rw [Backlog.stored, stored] at nothing; exact nothing
      have done := rest.trans stored
      refine ⟨calm_ok (), w.finish, .finish done, ⟨Weave.finish_rest, ?_⟩, fun _ => ⟨rfl, ?_, ?_⟩⟩
      · rw [Weave.finish_bytes]
        exact offered'
      · rw [Weave.finish_bytes]
        exact fun _ => ⟨rfl, rfl⟩
      · exact fun some => absurd nothing some
  · obtain ⟨block, stored⟩ : ∃ block, s.buffer = some block := by
      cases stored : s.buffer with
      | none => exact absurd (by rw [Backlog.stored, stored]; rfl) nothing
      | some block => exact ⟨block, rfl⟩
    have nonempty : block ≠ [] := by rw [Backlog.stored, stored] at nothing; exact nothing
    rw [stored, target_block nonempty] at offered
    have rest : w.rest = some block := rest.trans stored
    refine wp_mono (drain_wp h stored nonempty offered) fun r s' k' ⟨calm, drained, clear⟩ => ?_
    refine ⟨calm, ?_⟩
    obtain ⟨rfl, free⟩ | ⟨n, lt, refused, left, offered⟩ := drained
    · have done : (w.write block.length).rest = some [] := by
        rw [Weave.write_rest rest, List.drop_length]
      have bytes : base ++ (w.write block.length).finish.bytes = base ++ w.bytes ++ block := by
        rw [Weave.finish_bytes, Weave.write_bytes rest, List.take_length, List.append_assoc]
      refine ⟨_, (Weave.Grew.write rest).trans (.finish done), ⟨?_, ?_⟩, fun _ =>
        ⟨clear rfl, fun nil => absurd nil nothing, ?_⟩⟩
      · rw [Weave.finish_rest, clear rfl]
      · rw [bytes]
        exact free _
      · rw [bytes]
        exact fun _ => free
    · have some : block.drop n ≠ [] := fun nil => by
        have := List.drop_eq_nil_iff.mp nil
        omega
      refine ⟨w.write n, .write rest, ⟨?_, ?_⟩, fun h => absurd h (refused ())⟩
      · rw [Weave.write_rest rest, left]
      · rw [Weave.write_bytes rest, left, ← List.append_assoc, target_block some]
        exact offered

/-- What may be offered after an answer: anything after a success, else the same buffer. -/
def OnOffer (r : Poll IoError Nat) (buf next : List UInt8) : Prop := (∃ n, r = .ok n) ∨ next = buf

theorem OnOffer.same {r : Poll IoError Nat} {next : List UInt8} (refused : ∀ n, r ≠ .ok n)
    (h : OnOffer r buf next) : next = buf :=
  h.resolve_left fun ⟨n, eq⟩ => refused n eq

/-- The end of a write poll that took up the blocks `drawn`: they join the blocks, the caller's bytes
are those reported, and the weave goes on. -/
def Written (offering : List UInt8 → List UInt8 → T → Prop) (base : List UInt8) (w : Weave UInt8)
    (drawn : List (List UInt8)) (buf : List UInt8) (r : Poll IoError Nat) (s : Backlog T) : Prop :=
  Calm r ∧ (∀ n, r = .ok n → n ≤ buf.length) ∧
    ∃ w', Weave.Grew w drawn (accepted r buf) w' ∧
      ∀ next, OnOffer r buf next → Woven offering base w' next s

variable {w' : Weave UInt8} {drawn : List (List UInt8)} {r : Poll IoError Nat}

omit [AsyncWrite T] in
/-- A poll that stops before the caller's buffer leaves it on offer. -/
theorem Woven.stopped (grew : Weave.Grew w drawn [] w') (hw : Woven offering base w' buf s)
    (calm : Calm r) (refused : ∀ n, r ≠ .ok n) : Written offering base w drawn buf r s := by
  refine ⟨calm, fun n eq => absurd eq (refused n), w', ?_, fun next onOffer => ?_⟩
  · rwa [accepted_of_not_ok refused]
  · obtain rfl := onOffer.same refused
    exact hw

omit [AsyncWrite T] in
/-- What came before the caller's buffer comes before it in the weave. -/
theorem Written.after (grew : Weave.Grew w drawn [] w')
    (h : Written offering base w' [] buf r s) : Written offering base w drawn buf r s := by
  obtain ⟨calm, fits, w'', grew', hw⟩ := h
  have grew := grew.trans grew'
  rw [List.append_nil] at grew
  exact ⟨calm, fits, w'', grew, hw⟩

/-- The caller's buffer, once nothing is stored. -/
theorem caller_woven (h : Retried T offering) (hw : Woven offering base w buf s)
    (idle : s.buffer = none) :
    (pollWrite buf).wp env k s.inner fun r t _ =>
      Written offering base w [] buf r { s with inner := t } := by
  have offered := hw.offered
  have rest : w.rest = none := hw.rest.trans idle
  rw [idle] at offered
  refine wp_mono (h.write env k s.inner _ buf offered) fun r t k' ⟨calm, answered⟩ => ?_
  obtain ⟨n, rfl, fits, free⟩ | ⟨refused, still⟩ := answered
  · refine ⟨calm, fun m eq => ?_, w.call (buf.take n), .call rest, fun next _ => ?_⟩
    · cases eq
      exact fits
    · refine ⟨rest.trans idle.symm, ?_⟩
      rw [Weave.call_bytes rest, ← List.append_assoc]
      exact free _
  · exact Woven.stopped .refl ⟨rest.trans idle.symm, by rw [idle]; exact still⟩ calm refused

/-- What may be offered after an operation, if `on` says what could be before it. A flush or a
shutdown changes nothing about it. -/
def Onward (on : List UInt8 → Prop) (op : WriteOp) (r : Poll IoError Nat)
    (next : List UInt8) : Prop :=
  match op with
  | .write c => OnOffer r c.content next
  | _ => on next

/-- The end of any operation that took up the blocks `drawn`. -/
def Operated (offering : List UInt8 → List UInt8 → T → Prop) (base : List UInt8) (w : Weave UInt8)
    (drawn : List (List UInt8)) (on : List UInt8 → Prop) (op : WriteOp) (r : Poll IoError Nat)
    (s : Backlog T) : Prop :=
  Calm r ∧ (∀ n, r = .ok n → n ≤ op.offer.length) ∧
    ∃ w', Weave.Grew w drawn (accepted r op.offer) w' ∧
      ∀ next, Onward on op r next → Woven offering base w' next s

omit [AsyncWrite T] in
/-- A flush or a shutdown takes up nothing and moves no byte. -/
theorem quiet_woven {on : List UInt8 → Prop} {call : Io T Unit} {op : WriteOp}
    (quiet : op = .flush ∨ op = .shutdown)
    (stays : ∀ log buf, offering log buf s.inner →
      call.wp env k s.inner fun r t _ => Calm r ∧ offering log buf t)
    (some : ∃ buf, on buf) (hw : ∀ buf, on buf → Woven offering base w buf s) :
    call.wp env k s.inner fun r t _ =>
      Operated offering base w [] on op (r.map fun _ => 0) { s with inner := t } := by
  obtain ⟨buf, onOffer⟩ := some
  have each := fun buf onOffer => wp_iff.mp (stays _ _ (hw buf onOffer).offered)
  have calm := (each buf onOffer).1
  have woven : ∀ next, on next → Woven offering base w next
      { s with inner := (call env k s.inner).state } :=
    fun next onOffer => ⟨(hw next onOffer).rest, (each next onOffer).2⟩
  rw [wp_iff]
  have none : op.offer = [] := by obtain rfl | rfl := quiet <;> rfl
  refine ⟨fun m eq => calm m (Poll.map_eq_panicked.mp eq), fun n eq => ?_, w, ?_, ?_⟩
  · generalize (call env k s.inner).result = r at eq
    cases r with
    | ok u => cases eq; exact Nat.zero_le _
    | _ => cases eq
  · rw [none, accepted_nil]
    exact .refl
  · obtain rfl | rfl := quiet <;> exact woven

end Backlog

end Trixter
