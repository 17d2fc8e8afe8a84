import Trixter.Corrupter
import Trixter.Laws.Backlog

/-!
# One poll of a corrupter

`drawn` is what a write poll adds to the blocks, read off the state before it. With that the poll is
a growth of the weave (`op_woven`): the drawn block is taken up, some of what is stored is written, and
the caller's bytes follow once nothing is stored. A vectored write looks at no block and is left out.
-/

namespace Trixter

open Trixter.Lib Polling

namespace Corrupter

variable {T P G : Type} [SmallRng G] [Probability P] {env : World} {k : Nat}
  {s : Corrupter T P G}

/-- The block that a generator fills. -/
def block (g : G) : List UInt8 :=
  let size := SmallRng.randomRange minRandomCorruptBufferSize maxRandomCorruptBufferSize g
  (SmallRng.fillBytes size.1 size.2).1

/-- The generator after it filled a block. -/
def filled (g : G) : G :=
  let size := SmallRng.randomRange minRandomCorruptBufferSize maxRandomCorruptBufferSize g
  (SmallRng.fillBytes size.1 size.2).2

/-- The draw of a poll made at this moment is below its threshold. -/
def Corrupts (env : World) (k : Nat) (s : Corrupter T P G) : Prop :=
  (SmallRng.nextU64 s.rng).1 < Probability.threshold env s.prob k

instance : Decidable (Corrupts env k s) := inferInstanceAs (Decidable (_ < _))

/-- The corrupter after a draw. -/
def drew (s : Corrupter T P G) : Corrupter T P G := { s with rng := (SmallRng.nextU64 s.rng).2 }

/-- The corrupter with a block drawn and stored. -/
def stocked (s : Corrupter T P G) : Corrupter T P G :=
  { s with rng := filled s.rng, writeBuffer := some (block s.rng) }

/-- The blocks that a write poll made at this moment draws: one, or none. -/
def drawn (env : World) (k : Nat) (s : Corrupter T P G) : List (List UInt8) :=
  if s.writeBuffer = none ∧ Corrupts env k s then [block s.drew.rng] else []

/-- **`should_corrupt`**: a threshold of zero draws nothing. -/
theorem shouldCorrupt_wp {Q : Poll IoError Bool → Corrupter T P G → Nat → Prop} :
    shouldCorrupt.wp env k s Q ↔
      if Probability.threshold env s.prob k = 0 then Q (.ok false) s (k + 1)
      else Q (.ok (decide (Corrupts env k s))) s.drew (k + 1) := by
  simp only [shouldCorrupt, wp_bind, wp_observe, wp_ite, wp_pure, onRng, nextU64, wp_zoom,
    wp_modifyGet]
  rfl

/-- Below a threshold of zero nothing is drawn. -/
theorem not_corrupts_of_zero (zero : Probability.threshold env s.prob k = 0) : ¬Corrupts env k s := by
  unfold Corrupts
  rw [zero]
  intro lt
  simp [UInt64.lt_iff_toNat_lt] at lt

variable [AsyncWrite T]

/-- The three ways of `synthesize`: a block is stored, a block is drawn, or there is none. -/
theorem synthesize_wp {Q : Poll IoError Unit → Corrupter T P G → Nat → Prop} :
    synthesize.wp env k s Q ↔
      if s.writeBuffer ≠ none then (onBacklog Backlog.drain).wp env k s Q
      else if Probability.threshold env s.prob k = 0 then Q (.ok ()) s (k + 1)
      else if Corrupts env k s then (onBacklog Backlog.drain).wp env (k + 1) s.drew.stocked Q
      else Q (.ok ()) s.drew (k + 1) := by
  rw [synthesize, wp_bind, wp_get]
  cases stored : s.writeBuffer with
  | some b => simp only [stored, ne_eq, reduceCtorEq, not_false_eq_true, if_true]
  | none =>
    simp only [stored, ne_eq, not_true_eq_false, if_false]
    rw [wp_bind, shouldCorrupt_wp]
    split
    · rfl
    · by_cases hits : Corrupts env k s
      · simp only [hits, decide_true, if_true, wp_bind, onRng, wp_zoom, randomData, randomDataSize,
          wp_modifyGet, wp_modify]
        rfl
      · simp only [hits, decide_false, if_false]
        rfl

variable {offering : List UInt8 → List UInt8 → T → Prop} {base buf : List UInt8}
  {w : Weave UInt8}

/-- The inner writer with the block stored for it. -/
def backlog (s : Corrupter T P G) : Backlog T := ⟨s.inner, s.writeBuffer⟩

omit [SmallRng G] [Probability P] [AsyncWrite T] in
theorem onBacklog_wp {α : Type} {m : Io (Backlog T) α}
    {Q : Poll IoError α → Corrupter T P G → Nat → Prop} :
    (onBacklog m).wp env k s Q ↔ m.wp env k s.backlog fun r t k' =>
      Q r { s with inner := t.inner, writeBuffer := t.buffer } k' := Iff.rfl

/-- What `synthesize` does to the weave, if a block is only drawn when the inner writer may be
offered anything. -/
theorem synthesize_woven (h : Retried T offering)
    (hw : Backlog.Woven offering base w buf s.backlog)
    (free : drawn env k s ≠ [] → ∀ next, offering (base ++ w.bytes) next s.inner) :
    synthesize.wp env k s fun r s' _ => Calm r ∧ ∃ w', Weave.Grew w (drawn env k s) [] w' ∧
      Backlog.Woven offering base w' buf s'.backlog ∧ (r = .ok () → s'.writeBuffer = none) := by
  rw [synthesize_wp]
  split
  · next stored =>
    have none : drawn env k s = [] := if_neg fun h => stored h.1
    rw [none, onBacklog_wp]
    refine wp_mono (Backlog.drain_woven h hw) ?_
    exact fun r t k' ⟨calm, w', grew, hw', idle⟩ => ⟨calm, w', grew, hw', fun ok => (idle ok).1⟩
  · next idle =>
    have idle : s.writeBuffer = none := not_not.mp idle
    split
    · next zero =>
      have none : drawn env k s = [] := if_neg fun h => not_corrupts_of_zero zero h.2
      rw [none]
      exact ⟨calm_ok (), w, .refl, hw, fun _ => idle⟩
    · split
      · next hits =>
        have one : drawn env k s = [block s.drew.rng] := if_pos ⟨idle, hits⟩
        have free := free (by rw [one]; exact List.cons_ne_nil _ _)
        have started : Backlog.Woven offering base (w.start (block s.drew.rng)) buf
            s.drew.stocked.backlog := hw.start idle fun _ => free
        rw [one, onBacklog_wp]
        refine wp_mono (Backlog.drain_woven h started) fun r t k' ⟨calm, w', grew, hw', idle'⟩ => ?_
        have grew := (Weave.Grew.start (hw.rest.trans idle)).trans grew
        exact ⟨calm, w', grew, hw', fun ok => (idle' ok).1⟩
      · next misses =>
        have none : drawn env k s = [] := if_neg fun h => misses h.2
        rw [none]
        exact ⟨calm_ok (), w, .refl, ⟨hw.rest, hw.offered⟩, fun _ => idle⟩

/-- **One write poll.** The drawn block joins the blocks, the bytes written before the caller's are
the next of the blocks, and the caller's bytes are those reported. -/
theorem pollWrite_woven (h : Retried T offering)
    (hw : Backlog.Woven offering base w buf s.backlog)
    (free : drawn env k s ≠ [] → ∀ next, offering (base ++ w.bytes) next s.inner) :
    (pollWrite buf).wp env k s fun r s' _ =>
      Backlog.Written offering base w (drawn env k s) buf r s'.backlog := by
  simp only [AsyncWrite.pollWrite]
  rw [wp_bind]
  refine wp_mono (synthesize_woven h hw free) fun r s' k' ⟨calm, w', grew, hw', idle⟩ => ?_
  cases r with
  | ok u =>
    dsimp only
    rw [onInner, wp_zoom]
    exact wp_mono (Backlog.caller_woven h hw' (idle rfl)) fun _ _ _ written => written.after grew
  | pending => exact hw'.stopped grew calm_pending fun _ h => by cases h
  | err e => exact hw'.stopped grew (calm_err e) fun _ h => by cases h
  | panicked m => exact absurd rfl (calm m)

theorem pollFlush_wp {Q : Poll IoError Unit → Corrupter T P G → Nat → Prop} :
    (pollFlush : Io (Corrupter T P G) Unit).wp env k s Q ↔
      pollFlush.wp env k s.inner fun r inner k' => Q r { s with inner } k' := Iff.rfl

theorem pollShutdown_wp {Q : Poll IoError Unit → Corrupter T P G → Nat → Prop} :
    (pollShutdown : Io (Corrupter T P G) Unit).wp env k s Q ↔
      pollShutdown.wp env k s.inner fun r inner k' => Q r { s with inner } k' := Iff.rfl

/-- The blocks that any operation made at this moment draws. -/
def drawnBy (env : World) (k : Nat) (s : Corrupter T P G) : WriteOp → List (List UInt8)
  | .write (.scalar _) => drawn env k s
  | _ => []

variable (env k) (on : List UInt8 → Prop) in
/-- **One operation**, a vectored write apart: it grows the weave by what it draws and what it
accepts. `on` says which buffers may be offered. -/
theorem op_woven (h : Retried T offering) {op : WriteOp} (scalar : op.Scalar)
    (some : ∃ buf, on buf) (offers : ∀ c, op = .write c → on c.content)
    (hw : ∀ buf, on buf → Backlog.Woven offering base w buf s.backlog)
    (free : drawnBy env k s op ≠ [] → ∀ next, offering (base ++ w.bytes) next s.inner) :
    op.poll.wp env k s fun r s' _ =>
      Backlog.Operated offering base w (drawnBy env k s op) on op r s'.backlog := by
  cases op with
  | write c =>
    cases c with
    | scalar b => exact pollWrite_woven h (hw b (offers _ rfl)) free
    | vectored bs => exact absurd scalar id
  | flush =>
    rw [WriteOp.poll, wp_map, pollFlush_wp]
    exact Backlog.quiet_woven (.inl rfl) (fun _ _ => h.flush env k s.inner _ _) some hw
  | shutdown =>
    rw [WriteOp.poll, wp_map, pollShutdown_wp]
    exact Backlog.quiet_woven (.inr rfl) (fun _ _ => h.shutdown env k s.inner _ _) some hw

end Corrupter

end Trixter
