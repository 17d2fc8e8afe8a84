import Trixter.Ledger

/-!
# Recording the calls of an inner writer

A writer with a record of every poll made to it: what was offered, when the poll started and what it
answered. It answers as the one inside it, so an adapter over it behaves as over the plain one, and
laws about what an adapter forwards are laws about the record.
-/

namespace Trixter

open Trixter.Lib

/-- One poll of the inner writer. A flush and a shutdown answer for no byte. -/
structure Entry where
  op : WriteOp
  started : Nat
  answer : Poll IoError Nat
  deriving DecidableEq, Repr

/-- A writer with the polls made to it, oldest first. -/
structure Trail (T : Type) where
  value : T
  entries : List Entry
  deriving DecidableEq, Repr

namespace Trail

variable {T : Type}

/-- Nothing polled yet. -/
def start (value : T) : Trail T := ⟨value, []⟩

/-- The writes among some polls. -/
def writesOf (calls : List Entry) : List Entry := calls.filter (·.op matches .write _)

/-- The polls made since an earlier state. -/
def since (before s : Trail T) : List Entry := s.entries.drop before.entries.length

theorem since_append {before s : Trail T} {calls : List Entry}
    (h : s.entries = before.entries ++ calls) : before.since s = calls := by
  rw [since, h, List.drop_left]

variable [AsyncWrite T]

/-- A recorded poll. -/
def recorded (op : WriteOp) : Io (Trail T) Nat := fun env k s =>
  let o := op.poll env k s.value
  ⟨o.result, ⟨o.state, s.entries ++ [⟨op, k, o.result⟩]⟩, o.took⟩

instance : AsyncWrite (Trail T) where
  pollWrite buf := recorded (.write (.scalar buf))
  pollWriteVectored bufs := recorded (.write (.vectored bufs))
  pollFlush := do
    let _ ← recorded .flush
    return ()
  pollShutdown := do
    let _ ← recorded .shutdown
    return ()

variable {env : World} {k : Nat} {s : Trail T}

theorem recorded_wp {op : WriteOp} {Q : Poll IoError Nat → Trail T → Nat → Prop} :
    (recorded op).wp env k s Q ↔
      op.poll.wp env k s.value fun r value k' => Q r ⟨value, s.entries ++ [⟨op, k, r⟩]⟩ k' :=
  Iff.rfl

theorem write_wp {c : WriteCall} {Q : Poll IoError Nat → Trail T → Nat → Prop} :
    c.poll.wp env k s Q ↔
      c.poll.wp env k s.value fun r value k' =>
        Q r ⟨value, s.entries ++ [⟨.write c, k, r⟩]⟩ k' := by
  cases c <;> rfl

theorem flush_wp {Q : Poll IoError Unit → Trail T → Nat → Prop} :
    (pollFlush : Io (Trail T) Unit).wp env k s Q ↔
      pollFlush.wp env k s.value fun r value k' =>
        Q r ⟨value, s.entries ++ [⟨.flush, k, r.map fun _ => 0⟩]⟩ k' := by
  simp only [AsyncWrite.pollFlush, Polling.wp_map, recorded_wp, WriteOp.poll, Poll.map_map]
  exact Iff.of_eq (congrArg _ (funext fun r => by cases r <;> rfl))

theorem shutdown_wp {Q : Poll IoError Unit → Trail T → Nat → Prop} :
    (pollShutdown : Io (Trail T) Unit).wp env k s Q ↔
      pollShutdown.wp env k s.value fun r value k' =>
        Q r ⟨value, s.entries ++ [⟨.shutdown, k, r.map fun _ => 0⟩]⟩ k' := by
  simp only [AsyncWrite.pollShutdown, Polling.wp_map, recorded_wp, WriteOp.poll, Poll.map_map]
  exact Iff.of_eq (congrArg _ (funext fun r => by cases r <;> rfl))

/-- **Every poll is recorded once**, whatever it answers, and answers as the writer inside. -/
theorem poll_wp {op : WriteOp} {Q : Poll IoError Nat → Trail T → Nat → Prop} :
    op.poll.wp env k s Q ↔
      op.poll.wp env k s.value fun r value k' => Q r ⟨value, s.entries ++ [⟨op, k, r⟩]⟩ k' := by
  cases op with
  | write c => exact write_wp
  | flush =>
    simp only [WriteOp.poll, Polling.wp_map, flush_wp]
  | shutdown =>
    simp only [WriteOp.poll, Polling.wp_map, shutdown_wp]

end Trail

namespace Trail

/-- No recorded answer claims more than its poll offered. -/
def Fits {T : Type} (s : Trail T) : Prop :=
  ∀ e ∈ s.entries, ∀ n, e.answer = .ok n → n ≤ e.op.offer.length

theorem Fits.snoc {T : Type} {s : Trail T} (h : s.Fits) {value : T} {e : Entry}
    (fits : ∀ n, e.answer = .ok n → n ≤ e.op.offer.length) : Fits ⟨value, s.entries ++ [e]⟩ := by
  intro e' mem
  rcases List.mem_append.mp mem with mem | mem
  · exact h e' mem
  · cases List.mem_singleton.mp mem
    exact fits

/-- A flush or a shutdown that is recorded claims no byte. -/
theorem map_zero_fits {r : Poll IoError Unit} {n : Nat} (h : (r.map fun _ => 0) = .ok n) :
    n ≤ ([] : List UInt8).length := by
  cases r <;> cases h
  exact Nat.le_refl 0

/-- **A recorded writer keeps the write contract** of the one inside, and its record fits. -/
theorem contract {T : Type} [AsyncWrite T] {received : T → List UInt8}
    (h : Contract T (fun _ => True) received) : Contract (Trail T) Fits fun s => received s.value where
  write env k s buf hs := by
    refine recorded_wp.mpr ?_
    exact Polling.wp_mono (h.write env k s.value buf trivial) fun _ _ _ ⟨_, wrote⟩ =>
      ⟨hs.snoc wrote.fits, wrote⟩
  vectored env k s bufs hs := by
    refine recorded_wp.mpr ?_
    exact Polling.wp_mono (h.vectored env k s.value bufs trivial) fun _ _ _ ⟨_, wrote⟩ =>
      ⟨hs.snoc wrote.fits, wrote⟩
  flush env k s hs := by
    rw [flush_wp]
    exact Polling.wp_mono (h.flush env k s.value trivial) fun _ _ _ ⟨_, same⟩ =>
      ⟨hs.snoc fun _ => map_zero_fits, same⟩
  shutdown env k s hs := by
    rw [shutdown_wp]
    exact Polling.wp_mono (h.shutdown env k s.value trivial) fun _ _ _ ⟨_, same⟩ =>
      ⟨hs.snoc fun _ => map_zero_fits, same⟩

end Trail

/-- A recorded sink is a sink. -/
instance {T : Type} [Sink T] : Sink (Trail T) where
  received s := received s.value
  contract :=
    { write := fun env k s buf _ => Trail.recorded_wp.mpr (Sink.contract.write env k s.value buf trivial)
      vectored := fun env k s bufs _ =>
        Trail.recorded_wp.mpr (Sink.contract.vectored env k s.value bufs trivial)
      flush := fun env k s _ => Trail.flush_wp.mpr (Sink.contract.flush env k s.value trivial)
      shutdown := fun env k s _ =>
        Trail.shutdown_wp.mpr (Sink.contract.shutdown env k s.value trivial) }

end Trixter
