import Trixter.Laws.Corrupter
import Trixter.Laws.Injector
import Trixter.Ledger
import Trixter.Script
import Trixter.Xoshiro

/-!
# Synthetic data over a slicer

A corrupter or a write injector over a sliced writer, for a caller that polls the same buffer until
it is accepted. Every block arrives whole and the caller's bytes arrive once, in every run in which
no block is taken up while the slicer still owes the caller a count: `synthetic_of_unhurried`. It is not
claimed that something is lost in every other.
-/

namespace Trixter

open Trixter.Lib Polling WriteInjector

namespace Synthetic

variable {T : Type} [Sink T] {env : World} {base : List UInt8} {past : Writes}

/-- What may be offered after a history: the outstanding write again, or anything. -/
def MayOffer (past : Writes) (buf : List UInt8) : Prop := ∀ b ∈ outstanding past, b = buf

/-- The caller polls the same buffer until it is accepted. -/
def Repolls (past : Writes) : WriteOp → Prop
  | .write (.scalar buf) => MayOffer past buf
  | .write (.vectored _) => False
  | .flush => True
  | .shutdown => True

instance (past : Writes) : (op : WriteOp) → Decidable (Repolls past op)
  | .write (.scalar _) => inferInstanceAs (Decidable (∀ _ ∈ _, _ = _))
  | .write (.vectored _) => inferInstanceAs (Decidable False)
  | .flush => inferInstanceAs (Decidable True)
  | .shutdown => inferInstanceAs (Decidable True)

theorem Repolls.scalar {op : WriteOp} (h : Repolls past op) : op.Scalar := by
  rcases op with (buf | bufs) | _ | _
  · trivial
  · exact h
  · trivial
  · trivial

theorem Repolls.offers {op : WriteOp} (h : Repolls past op) :
    ∀ c, op = .write c → MayOffer past c.content := by
  rintro (buf | bufs) rfl
  · exact h
  · exact absurd h id

/-- Some buffer may always be offered. -/
theorem mayOffer_some (past : Writes) : MayOffer past ((outstanding past).getD []) := by
  intro b mem
  rw [mem]
  rfl

/-- What may be offered after a poll could go on from it. -/
theorem onward_of_mayOffer {op : WriteOp} {r : Poll IoError Nat} {next : List UInt8}
    (h : MayOffer (past ++ [(op, r)]) next) : Backlog.Onward (MayOffer past) op r next := by
  rw [MayOffer, outstanding_snoc] at h
  cases op with
  | write c =>
    obtain ⟨n, rfl⟩ | refused := r.ok_or
    · exact .inl ⟨n, rfl⟩
    · rw [settle_of_not_ok refused] at h
      exact .inr (h _ rfl).symm
  | flush => cases r <;> exact h
  | shutdown => cases r <;> exact h

/-- The weave of the blocks with the accepted bytes, and after it what the slicer owes: the next
bytes of what is on offer. -/
def Spliced (base : List UInt8) (blocks : List (List UInt8)) (past : Writes)
    (stored : Option (List UInt8)) (wire : List UInt8) : Prop :=
  ∃ (w : Weave UInt8) (owed : List UInt8), wire = base ++ w.bytes ++ owed ∧
    w.callers = acceptedBytes past ∧ w.blocks = blocks ∧ w.rest = stored ∧
    owed <+: Backlog.target stored ((outstanding past).getD [])

/-- What a run keeps. -/
def Sound (base : List UInt8) (blocks : List (List UInt8)) (past : Writes)
    (s : Backlog (SlicedWriter T UInt64)) : Prop :=
  ∃ w : Weave UInt8, w.callers = acceptedBytes past ∧ w.blocks = blocks ∧
    ∀ buf, MayOffer past buf →
      Backlog.Woven (SlicedWriter.Offering (fun _ => True) received) base w buf s

variable {blocks : List (List UInt8)} {s : Backlog (SlicedWriter T UInt64)}

theorem Sound.spliced (h : Sound base blocks past s) :
    Spliced base blocks past s.buffer (received s.inner.inner) := by
  obtain ⟨w, callers, blocks, hw⟩ := h
  obtain ⟨rest, -, -, moved⟩ := hw _ (mayOffer_some past)
  exact ⟨w, _, moved, callers, blocks, rest, List.take_prefix _ _⟩

/-- A fresh sliced writer with nothing stored. -/
theorem sound_start (inner : T) {size : UInt64} (pos : 0 < size) :
    Sound (received inner) [] [] ⟨.new inner size, none⟩ := by
  refine ⟨.empty, rfl, rfl, fun buf _ => ⟨rfl, ⟨⟨?_, trivial⟩, Nat.zero_le _, ?_⟩⟩⟩
  · rintro rfl
    exact absurd pos (by decide)
  · simp [SlicedWriter.new, SlicedWriter.owes, Weave.empty, Weave.bytes]

/-- A poll that takes up `drawn` carries the run on. -/
theorem Sound.step {w : Weave UInt8} {op : WriteOp} {r : Poll IoError Nat}
    {drawn : List (List UInt8)} (callers : w.callers = acceptedBytes past) (eq : w.blocks = blocks)
    (h : Backlog.Operated (SlicedWriter.Offering (fun _ => True) received) base w drawn
      (MayOffer past) op r s) :
    Calm r ∧ Sound base (blocks ++ drawn) (past ++ [(op, r)]) s := by
  obtain ⟨calm, -, w', grew, onward⟩ := h
  refine ⟨calm, w', ?_, ?_, fun next mayOffer => onward next (onward_of_mayOffer mayOffer)⟩
  · rw [grew.callers, callers, acceptedBytes_snoc]
  · rw [grew.blocks, eq]

/-! ## The corrupter -/

section Corrupter

variable {P G : Type} [SmallRng G] [Probability P]

/-- A corrupter's polls, with the blocks drawn so far beside the state. -/
def corrupting (T P G : Type) [Sink T] [SmallRng G] [Probability P] (env : World) :
    Machine (Paced (Corrupter (SlicedWriter T UInt64) P G) × List (List UInt8)) WriteOp
      (Poll IoError Nat) :=
  (writes (Corrupter (SlicedWriter T UInt64) P G) env).traced fun s op =>
    Corrupter.drawnBy env s.moment s.state op

/-- No block is drawn while the slicer owes a count. -/
def Unhurried (env : World) (s : Paced (Corrupter (SlicedWriter T UInt64) P G))
    (op : WriteOp) : Prop :=
  Corrupter.drawnBy env s.moment s.state op ≠ [] → s.state.inner.owes = 0

instance (s : Paced (Corrupter (SlicedWriter T UInt64) P G)) (op : WriteOp) :
    Decidable (Unhurried env s op) :=
  inferInstanceAs (Decidable (_ ≠ [] → _ = 0))

theorem corrupting_step {s : Paced (Corrupter (SlicedWriter T UInt64) P G) × List (List UInt8)}
    (h : Sound base s.2 past s.1.state.backlog) {op : WriteOp} (again : Repolls past op)
    (unhurried : Unhurried env s.1 op) :
    Calm ((corrupting T P G env).step s op).1 ∧
      Sound base ((corrupting T P G env).step s op).2.2
        (past ++ [(op, ((corrupting T P G env).step s op).1)])
        ((corrupting T P G env).step s op).2.1.state.backlog := by
  obtain ⟨w, callers, blocks, hw⟩ := h
  have retried : Retried (SlicedWriter T UInt64) _ := SlicedWriter.retried Sink.contract
  exact Sound.step callers blocks (machine_step (s := s.1)
    (Corrupter.op_woven env _ (MayOffer past) retried again.scalar ⟨_, mayOffer_some past⟩
      again.offers hw fun drawn => SlicedWriter.offering_of_idle
        (hw _ (mayOffer_some past)).offered (unhurried drawn)))

/-- A corrupter over a sliced writer, with nothing written yet. -/
def corrupted (k : Nat) (inner : T) (size : UInt64) (prob : P) (rng : G) :
    Paced (Corrupter (SlicedWriter T UInt64) P G) × List (List UInt8) :=
  (⟨k, ⟨.new inner size, prob, rng, none⟩⟩, [])

/-- No operation of the run panics, and after each the blocks are whole and the caller's bytes in
order. -/
def CorruptsSoundly (env : World) (base : List UInt8)
    (s : Paced (Corrupter (SlicedWriter T UInt64) P G) × List (List UInt8))
    (ops : List WriteOp) : Prop :=
  (corrupting T P G env).Allowed (fun _ s op => Calm ((corrupting T P G env).step s op).1) s ops ∧
    (corrupting T P G env).Throughout
      (fun past s => Spliced base s.2 past s.1.state.writeBuffer (received s.1.state.inner.inner))
      s ops

/-- **A corrupter over a slicer.** -/
theorem corrupting_spliced (env : World) (k : Nat) (inner : T) (size : UInt64) (pos : 0 < size)
    (prob : P) (rng : G) (ops : List WriteOp)
    (caller : (corrupting T P G env).Allowed (fun past _ op => Repolls past op)
      (corrupted k inner size prob rng) ops)
    (unhurried : (corrupting T P G env).Allowed (fun _ s op => Unhurried env s.1 op)
      (corrupted k inner size prob rng) ops) :
    CorruptsSoundly env (received inner) (corrupted k inner size prob rng) ops := by
  have both := Machine.allowedFrom_and.mpr ⟨caller, unhurried⟩
  have start := sound_start inner pos
  refine Machine.allowedFrom_and.mp (both.imp
    (P := fun past s => Sound (received inner) s.2 past s.1.state.backlog) ?_ ?_ start)
  · exact fun past s op h allowed => (corrupting_step h allowed.1 allowed.2).2
  · intro past s op h allowed
    obtain ⟨calm, next⟩ := corrupting_step h allowed.1 allowed.2
    exact ⟨calm, next.spliced⟩

end Corrupter

/-! ## The write injector -/

/-- The moves of an injector over a sliced writer. -/
abbrev injecting (T : Type) [Sink T] (env : World) := splicing (SlicedWriter T UInt64) env

/-- The caller polls the same buffer until it is accepted. Messages come when they come. -/
def InjectRepolls (past : History (InjectMove WriteOp) (Poll IoError Nat)) :
    InjectMove WriteOp → Prop
  | .caller op => Synthetic.Repolls (writesOf past) op
  | _ => True

instance (past : History (InjectMove WriteOp) (Poll IoError Nat)) :
    (move : InjectMove WriteOp) → Decidable (InjectRepolls past move)
  | .caller op => inferInstanceAs (Decidable (Synthetic.Repolls (writesOf past) op))
  | .arrive _ => inferInstanceAs (Decidable True)
  | .close => inferInstanceAs (Decidable True)

/-- No write finds a message with bytes in it while the slicer owes the caller a count. -/
def InjectUnhurried (s : WriteInjector (SlicedWriter T UInt64)) : InjectMove WriteOp → Prop
  | .caller (.write _) =>
    s.backlog.stored = [] → (∃ m ∈ s.injectRx.queue, m ≠ []) → s.inner.owes = 0
  | _ => True

instance (s : WriteInjector (SlicedWriter T UInt64)) : (move : InjectMove WriteOp) →
    Decidable (InjectUnhurried s move)
  | .caller (.write _) => inferInstanceAs (Decidable (_ = [] → (∃ m ∈ s.injectRx.queue, m ≠ []) → _ = 0))
  | .caller .flush => inferInstanceAs (Decidable True)
  | .caller .shutdown => inferInstanceAs (Decidable True)
  | .arrive _ => inferInstanceAs (Decidable True)
  | .close => inferInstanceAs (Decidable True)

theorem injecting_step {past : History (InjectMove WriteOp) (Poll IoError Nat)}
    {s : Paced (WriteInjector (SlicedWriter T UInt64)) × List (List UInt8)}
    (h : Sound base s.2 (writesOf past) s.1.state.backlog) {move : InjectMove WriteOp}
    (again : InjectRepolls past move) (unhurried : InjectUnhurried s.1.state move) :
    Calm ((injecting T env).step s move).1 ∧
      Sound base ((injecting T env).step s move).2.2
        (writesOf (past ++ [(move, ((injecting T env).step s move).1)]))
        ((injecting T env).step s move).2.1.state.backlog := by
  -- the channel is not part of the weave
  have channel : ∀ s' : Backlog (SlicedWriter T UInt64), s' = s.1.state.backlog →
      Sound base (s.2 ++ []) (writesOf past) s' := by
    rintro s' rfl
    rw [List.append_nil]
    exact h
  cases move with
  | arrive bytes =>
    rw [writesOf_quiet fun op h => by cases h]
    exact ⟨calm_ok 0, channel _ rfl⟩
  | close =>
    rw [writesOf_quiet fun op h => by cases h]
    exact ⟨calm_ok 0, channel _ rfl⟩
  | caller op =>
    rw [writesOf_caller]
    obtain ⟨w, callers, blocks, hw⟩ := h
    have retried : Retried (SlicedWriter T UInt64) _ := SlicedWriter.retried Sink.contract
    have clear : ∀ c, op = .write c → WriteInjector.Clear
        (SlicedWriter.Offering (fun _ => True) received) (base ++ w.bytes) s.1.state := by
      rintro c rfl idle some
      exact SlicedWriter.offering_of_idle (hw _ (mayOffer_some _)).offered (unhurried idle some)
    obtain ⟨messages, split, operated⟩ := machine_step (s := s.1)
      (WriteInjector.op_woven env _ (MayOffer (writesOf past)) retried again.scalar
        ⟨_, mayOffer_some _⟩ again.offers hw clear)
    have received : received? env s.1 (.caller op) = messages := take_of_append split
    have step := Sound.step callers blocks operated
    rw [← received] at step
    exact step

/-- An injector over a sliced writer, with nothing written yet. -/
def injected (k : Nat) (inner : T) (size : UInt64) (rx : InjectRx) :
    Paced (WriteInjector (SlicedWriter T UInt64)) × List (List UInt8) :=
  (⟨k, .new (.new inner size) rx⟩, [])

/-- No move of the run panics, and after each the messages are whole and the caller's bytes in
order. -/
def InjectsSoundly (env : World) (base : List UInt8)
    (s : Paced (WriteInjector (SlicedWriter T UInt64)) × List (List UInt8))
    (moves : List (InjectMove WriteOp)) : Prop :=
  (injecting T env).Allowed (fun _ s move => Calm ((injecting T env).step s move).1) s moves ∧
    (injecting T env).Throughout
      (fun past s => Spliced base s.2 (writesOf past) s.1.state.buffer
        (received s.1.state.inner.inner))
      s moves

/-- **A write injector over a slicer.** -/
theorem injecting_spliced (env : World) (k : Nat) (inner : T) (size : UInt64) (pos : 0 < size)
    (rx : InjectRx) (moves : List (InjectMove WriteOp))
    (caller : (injecting T env).Allowed (fun past _ move => InjectRepolls past move)
      (injected k inner size rx) moves)
    (unhurried : (injecting T env).Allowed (fun _ s move => InjectUnhurried s.1.state move)
      (injected k inner size rx) moves) :
    InjectsSoundly env (received inner) (injected k inner size rx) moves := by
  have both := Machine.allowedFrom_and.mpr ⟨caller, unhurried⟩
  have start := sound_start inner pos
  refine Machine.allowedFrom_and.mp (both.imp
    (P := fun past s => Sound (received inner) s.2 (writesOf past) s.1.state.backlog) ?_ ?_ start)
  · exact fun past s move h allowed => (injecting_step h allowed.1 allowed.2).2
  · intro past s move h allowed
    obtain ⟨calm, next⟩ := injecting_step h allowed.1 allowed.2
    exact ⟨calm, next.spliced⟩

/-! ## Both -/

/-- **Synthetic data over a slicer.** With a constant slice size and a caller that polls the same
buffer until it is accepted, a corrupter and a write injector never panic, write every block whole
and the caller's bytes once and in order, in every run in which no block is taken up while the
slicer owes the caller a count. -/
theorem synthetic_of_unhurried {P G : Type} [SmallRng G] [Probability P] (env : World) (k : Nat)
    (inner : T) (size : UInt64) (pos : 0 < size) :
    (∀ (prob : P) (rng : G) (ops : List WriteOp),
      (corrupting T P G env).Allowed (fun past _ op => Repolls past op)
          (corrupted k inner size prob rng) ops →
        (corrupting T P G env).Allowed (fun _ s op => Unhurried env s.1 op)
          (corrupted k inner size prob rng) ops →
        CorruptsSoundly env (received inner) (corrupted k inner size prob rng) ops) ∧
    ∀ (rx : InjectRx) (moves : List (InjectMove WriteOp)),
      (injecting T env).Allowed (fun past _ move => InjectRepolls past move)
          (injected k inner size rx) moves →
        (injecting T env).Allowed (fun _ s move => InjectUnhurried s.1.state move)
          (injected k inner size rx) moves →
        InjectsSoundly env (received inner) (injected k inner size rx) moves :=
  ⟨fun prob rng ops => corrupting_spliced env k inner size pos prob rng ops,
    fun rx moves => injecting_spliced env k inner size pos rx moves⟩

/-- A connection whose second flush is not ready, and one whose first is not. -/
def late : Pipe := ⟨⟨[], []⟩, [.ready 0, .later]⟩

def tardy : Pipe := ⟨⟨[], []⟩, [.later]⟩

/-- A generator whose second draw is below one half, and whose block then has one byte. -/
def dice : Xoshiro := SmallRng.fromSeed Xoshiro.seed

/-- Runs in which each block is taken up while nothing is owed, and then waits for its flush. -/
theorem synthetic_unhurried_runs :
    CorruptsSoundly .still [] (corrupted 0 late 4 half dice)
        [.write (.scalar [1, 2]), .write (.scalar [3]), .write (.scalar [3])] ∧
      InjectsSoundly .still [] (injected 0 late 4 ⟨[], false⟩)
        [.caller (.write (.scalar [1, 2])), .arrive [9], .caller (.write (.scalar [3])),
          .caller (.write (.scalar [3]))] :=
  ⟨(synthetic_of_unhurried .still 0 late 4 (by decide)).1 half dice _ (by decide) (by decide),
    (synthetic_of_unhurried (P := ConstProb) (G := Xoshiro) .still 0 late 4 (by decide)).2
      (InjectRx.mk [] false) _ (by decide) (by decide)⟩

/-- The operations of the failing runs: a write and its retry, and for the injector a message in
between. -/
def twice : List WriteOp := [.write (.scalar [1, 2, 3, 4]), .write (.scalar [1, 2, 3, 4])]

def interrupted : List (InjectMove WriteOp) :=
  [.caller (.write (.scalar [1, 2, 3, 4])), .arrive [9], .caller (.write (.scalar [1, 2, 3, 4]))]

/-- The failing runs. The slicer owes the caller four bytes when a block of one is drawn, or a
message of one byte arrives: it reports the four on behalf of the block, and `advance` panics. -/
theorem synthetic_panics_hurried :
    ((corrupting Pipe ConstProb Xoshiro .still).Allowed (fun past _ op => Repolls past op)
        (corrupted 0 tardy 4 half dice) twice ∧
      ((corrupting Pipe ConstProb Xoshiro .still).run (corrupted 0 tardy 4 half dice)
        twice).1.map Prod.snd = [.pending, .panicked "cannot advance past `remaining`"] ∧
      ¬CorruptsSoundly .still [] (corrupted 0 tardy 4 half dice) twice) ∧
    ((injecting Pipe .still).Allowed (fun past _ move => InjectRepolls past move)
        (injected 0 tardy 4 ⟨[], false⟩) interrupted ∧
      ((injecting Pipe .still).run (injected 0 tardy 4 ⟨[], false⟩) interrupted).1.map Prod.snd =
        [.pending, .ok 0, .panicked "cannot advance past `remaining`"] ∧
      ¬InjectsSoundly .still [] (injected 0 tardy 4 ⟨[], false⟩) interrupted) := by
  refine ⟨⟨by decide, by decide, fun h => ?_⟩, by decide, by decide, fun h => ?_⟩
  · exact absurd h.1 (by decide)
  · exact absurd h.1 (by decide)

end Synthetic

end Trixter
