import Trixter.Laws.Slicer

/-!
# Serving a caller that retries

A weaker contract than the write contract: it speaks only of a caller that offers a buffer until it
is accepted. `offering log buf w` says that the writer has reported `log` and may be offered `buf`
now. Every writer that keeps the write contract keeps this one (`Contract.retried`), and so does a sliced
writer over a writer whose flush may take its time (`SlicedWriter.retried`); what stands above a writer is
proved from this contract alone.
-/

namespace Trixter

open Trixter.Lib Polling

/-- The end of one poll: either part of the buffer was reported and anything may be offered next, or
nothing was reported and the same buffer is still on offer. -/
def Answered {W : Type} (offering : List UInt8 → List UInt8 → W → Prop) (log buf : List UInt8)
    (r : Poll IoError Nat) (w : W) : Prop :=
  (∃ n, r = .ok n ∧ n ≤ buf.length ∧ ∀ next, offering (log ++ buf.take n) next w) ∨
    (∀ n, r ≠ .ok n) ∧ offering log buf w

/-- `W` serves a caller that offers each buffer until it is accepted. -/
structure Retried (W : Type) [AsyncWrite W] (offering : List UInt8 → List UInt8 → W → Prop) :
    Prop where
  write : ∀ env k w log buf, offering log buf w →
    (pollWrite buf).wp env k w fun r w' _ => Calm r ∧ Answered offering log buf r w'
  flush : ∀ env k w log buf, offering log buf w →
    pollFlush.wp env k w fun r w' _ => Calm r ∧ offering log buf w'
  shutdown : ∀ env k w log buf, offering log buf w →
    pollShutdown.wp env k w fun r w' _ => Calm r ∧ offering log buf w'

variable {T : Type} [AsyncWrite T] {inv : T → Prop} {received : T → List UInt8}

/-- **A writer that keeps the write contract** may be offered anything at any time. -/
theorem Contract.retried (h : Contract T inv received) :
    Retried T fun log _ w => inv w ∧ received w = log where
  write env k w log buf := fun ⟨hw, eq⟩ => by
    refine wp_mono (h.write env k w buf hw) fun r w' k' ⟨hw', wrote⟩ => ⟨wrote.calm, ?_⟩
    subst eq
    obtain ⟨n, rfl⟩ | refused := r.ok_or
    · obtain ⟨le, moved⟩ := Wrote.ok_iff.mp wrote
      exact .inl ⟨n, rfl, le, fun _ => ⟨hw', moved⟩⟩
    · exact .inr ⟨refused, hw', wrote.unmoved refused⟩
  flush env k w log buf := fun ⟨hw, eq⟩ =>
    wp_mono (h.flush env k w hw) fun _ _ _ ⟨hw', same, calm⟩ => ⟨calm, hw', same.trans eq⟩
  shutdown env k w log buf := fun ⟨hw, eq⟩ =>
    wp_mono (h.shutdown env k w hw) fun _ _ _ ⟨hw', same, calm⟩ => ⟨calm, hw', same.trans eq⟩

namespace SlicedWriter

/-- A sliced writer with a constant size that may be offered `buf`: what it owes begins `buf`. -/
def Offering (inv : T → Prop) (received : T → List UInt8) (log buf : List UInt8)
    (s : SlicedWriter T UInt64) : Prop :=
  (s.size ≠ 0 ∧ inv s.inner) ∧ s.owes ≤ buf.length ∧
    received s.inner = log ++ buf.take s.owes

omit [AsyncWrite T] in
/-- A slicer that owes nothing may be offered anything. -/
theorem offering_of_idle {s : SlicedWriter T UInt64} {log buf : List UInt8}
    (h : Offering inv received log buf s) (idle : s.owes = 0) (next : List UInt8) :
    Offering inv received log next s := by
  obtain ⟨hs, -, moved⟩ := h
  rw [idle, List.take_zero] at moved
  exact ⟨hs, by rw [idle]; exact Nat.zero_le _, by rw [idle, List.take_zero, moved]⟩

/-- **A sliced writer serves a caller that retries**, however long the inner flush takes. -/
theorem retried (h : Contract T inv received) :
    Retried (SlicedWriter T UInt64) (Offering inv received) where
  write env k s log buf := fun ⟨⟨nonzero, hs⟩, le, moved⟩ => by
    have on : Size.isZero env s.size k = false := beq_eq_false_iff_ne.mpr nonzero
    refine wp_mono (poll_offered h hs (.scalar buf) on le moved) ?_
    rintro r s' k' ⟨hs', size, calm, n, le', moved', ⟨rfl, idle⟩ | ⟨refused, owes⟩⟩
    · refine ⟨calm, .inl ⟨n, rfl, le', fun next => ?_⟩⟩
      refine ⟨⟨by rw [size]; exact nonzero, hs'⟩, by rw [idle]; exact Nat.zero_le _, ?_⟩
      rw [idle, List.take_zero, List.append_nil]
      exact moved'
    · rw [← owes] at le' moved'
      exact ⟨calm, .inr ⟨refused, ⟨by rw [size]; exact nonzero, hs'⟩, le', moved'⟩⟩
  flush env k s log buf := fun ⟨⟨nonzero, hs⟩, le, moved⟩ => by
    rw [pollFlush_wp]
    exact wp_mono (h.flush env k s.inner hs) fun _ _ _ ⟨hs', same, calm⟩ =>
      ⟨calm, ⟨nonzero, hs'⟩, le, same.trans moved⟩
  shutdown env k s log buf := fun ⟨⟨nonzero, hs⟩, le, moved⟩ => by
    rw [pollShutdown_wp]
    exact wp_mono (h.shutdown env k s.inner hs) fun _ _ _ ⟨hs', same, calm⟩ =>
      ⟨calm, ⟨nonzero, hs'⟩, le, same.trans moved⟩

end SlicedWriter

end Trixter
