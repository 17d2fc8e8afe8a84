import Trixter.Io

/-!
# The write contract, poll by poll

The ways a poll keeps the contract: it answers without moving a byte, it forwards a prefix of what
it was offered, or it offers the same bytes cut into other slices. Each adapter's contract is put together
from these three.
-/

namespace Trixter

open Trixter.Lib Polling

variable {before after buf : List UInt8} {r : Poll IoError Nat}

theorem calm_pending {α : Type} : Calm (.pending : Poll IoError α) := fun _ h => by cases h

theorem calm_err {α : Type} (e : IoError) : Calm (.err e : Poll IoError α) := fun _ h => by cases h

theorem calm_ok {α : Type} (a : α) : Calm (.ok a : Poll IoError α) := fun _ h => by cases h

@[simp] theorem calm_map {α β : Type} {f : α → β} {r : Poll IoError α} :
    Calm (r.map f) ↔ Calm r := by
  simp [Calm]

instance {α : Type} : (r : Poll IoError α) → Decidable (Calm r)
  | .panicked message => isFalse fun h => h message rfl
  | .pending => isTrue calm_pending
  | .err e => isTrue (calm_err e)
  | .ok a => isTrue (calm_ok a)

theorem accepted_of_not_ok (h : ∀ n, r ≠ .ok n) : accepted r buf = [] := by
  cases r with
  | ok n => exact absurd rfl (h n)
  | _ => rfl

@[simp] theorem accepted_nil : accepted r [] = [] := by
  cases r <;> simp

namespace Wrote

theorem pending : Wrote before buf .pending before :=
  ⟨fun _ h => (by cases h), by simp, calm_pending⟩

theorem err (e : IoError) : Wrote before buf (.err e) before :=
  ⟨fun _ h => (by cases h), by simp, calm_err e⟩

/-- Zero bytes accepted. -/
theorem zero : Wrote before buf (.ok 0) before :=
  ⟨fun n h => (by cases h; exact Nat.zero_le _), by simp, calm_ok 0⟩

/-- A success moves the first `n` bytes. -/
theorem ok_iff {n : Nat} :
    Wrote before buf (.ok n) after ↔ n ≤ buf.length ∧ after = before ++ buf.take n :=
  ⟨fun h => ⟨h.fits n rfl, h.moved⟩, fun h => ⟨fun m hm => (by cases hm; exact h.1), h.2, calm_ok n⟩⟩

/-- Only a success moves a byte. -/
theorem unmoved (h : Wrote before buf r after) (hr : ∀ n, r ≠ .ok n) : after = before := by
  rw [h.moved, accepted_of_not_ok hr, List.append_nil]

/-- A prefix was offered on the caller's behalf: the claim is a claim on the whole buffer. -/
theorem of_prefix {chunk : List UInt8} (sub : chunk <+: buf) (h : Wrote before chunk r after) :
    Wrote before buf r after := by
  cases r with
  | ok n =>
    obtain ⟨le, moved⟩ := ok_iff.mp h
    refine ok_iff.mpr ⟨Nat.le_trans le sub.length_le, ?_⟩
    obtain ⟨rest, rfl⟩ := sub
    rw [moved, List.take_append_of_le_length le]
  | pending => rw [h.unmoved fun _ hr => by cases hr]; exact pending
  | err e => rw [h.unmoved fun _ hr => by cases hr]; exact err e
  | panicked m => exact absurd rfl (h.calm m)

end Wrote

/-- The contract of either entry point. -/
theorem Contract.call {W : Type} [AsyncWrite W] {inv : W → Prop} {received : W → List UInt8}
    (h : Contract W inv received) {env : World} {k : Nat} {w : W} (c : WriteCall) (hw : inv w) :
    c.poll.wp env k w fun r w' _ => inv w' ∧ Wrote (received w) c.content r (received w') := by
  cases c with
  | scalar buf => exact h.write env k w buf hw
  | vectored bufs => exact h.vectored env k w bufs hw

/-- A flush or a shutdown, as an operation, answers for no byte. -/
theorem quiet_wp {W : Type} {env : World} {k : Nat} {w : W} {I : W → Prop} {call : Io W Unit}
    (h : call.wp env k w fun r w' _ => Calm r ∧ I w') :
    (do call; return 0 : Io W Nat).wp env k w fun r w' _ =>
      Calm r ∧ (∀ n, r = .ok n → n = 0) ∧ I w' := by
  rw [wp_map]
  refine wp_mono h fun r w' k' ⟨calm, hI⟩ => ⟨fun m eq => ?_, fun n eq => ?_, hI⟩
  · exact calm m (Poll.map_eq_panicked.mp eq)
  · cases r with
    | ok u => exact (Poll.ok.inj eq).symm
    | _ => cases eq

/-- The contract of any operation. -/
theorem Contract.op {W : Type} [AsyncWrite W] {inv : W → Prop} {received : W → List UInt8}
    (h : Contract W inv received) {env : World} {k : Nat} {w : W} (op : WriteOp) (hw : inv w) :
    op.poll.wp env k w fun r w' _ => inv w' ∧ Wrote (received w) op.offer r (received w') := by
  have quiet : ∀ call : Io W Unit,
      (call.wp env k w fun r w' _ => inv w' ∧ received w' = received w ∧ Calm r) →
      (do call; return 0 : Io W Nat).wp env k w fun r w' _ =>
        inv w' ∧ Wrote (received w) [] r (received w') := by
    intro call hcall
    have quiet : call.wp env k w fun r w' _ => Calm r ∧ inv w' ∧ received w' = received w :=
      wp_mono hcall fun _ _ _ ⟨hinv, same, calm⟩ => ⟨calm, hinv, same⟩
    refine wp_mono (quiet_wp quiet) ?_
    rintro r w' k' ⟨calm, zero, hinv, same⟩
    refine ⟨hinv, fun n eq => by rw [zero n eq]; exact Nat.zero_le _, ?_, calm⟩
    rw [same, accepted_nil, List.append_nil]
  cases op with
  | write c => exact h.call c hw
  | flush => exact quiet _ (h.flush env k w hw)
  | shutdown => exact quiet _ (h.shutdown env k w hw)

/-! ## Channels and read buffers -/

theorem proceeds_wp {σ : Type} {env : World} {k : Nat} {s : σ} {Q : Poll IoError Bool → σ → Nat → Prop} :
    proceeds.wp env k s Q ↔ Q (.ok (env.proceeds k)) s (k + 1) := Iff.rfl

/-- Bytes that fit are appended. -/
theorem ReadBuf.putSlice_wp {env : World} {k : Nat} {b : ReadBuf} {bytes : List UInt8}
    {Q : Poll IoError Unit → ReadBuf → Nat → Prop} (fits : bytes.length ≤ b.remaining) :
    (putSlice bytes).wp env k b Q ↔ Q (.ok ()) { b with filled := b.filled ++ bytes } k := by
  simp only [putSlice, wp_bind, wp_get, wp_ite, if_pos fits, wp_modify]

end Trixter
