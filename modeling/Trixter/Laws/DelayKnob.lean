import Mathlib.Data.Nat.GCD.Basic
import Trixter.Laws.DelayedWrites
import Trixter.Server

/-!
# What a delay in milliseconds becomes

`delay_kept`: a delay is set in milliseconds, kept as 64 bits of nanoseconds, and read back twice, by the
list of connections and by every delayed writer that arms its timer. Both read the same number: the
nanoseconds, with what does not fit in 64 bits cut off. So the knob is monotone up to the largest number
of milliseconds that fits, and turns the delay off at every multiple of `2 ^ 58`.
-/

namespace Trixter

open Trixter.Lib Polling

/-- A delay in nanoseconds as the knob keeps it. -/
def keptNanos (ms : UInt64) : Nat := ms.toNat * 1000000 % 2 ^ 64

/-- The largest number of milliseconds whose nanoseconds fit in 64 bits. -/
def fittingMs : Nat := 2 ^ 64 / 1000000

namespace DelayedWriter

/-- With the timer idle, one poll of the operation arms it for this duration; zero arms nothing. -/
def ArmsFor {T D : Type} [AsyncWrite T] [Duration D] (env : World) (k : Nat) (s : DelayedWriter T D)
    (op : WriteOp) (duration : Nat) : Prop :=
  (op.poll : Io (DelayedWriter T D) Nat).wp env k s fun _ s' _ =>
    s'.delay.sleep = if duration = 0 then s.delay.sleep else ⟨env.clock (k + 1) + duration⟩

variable {T D : Type} [AsyncWrite T] [Duration D] {env : World} {k : Nat} {s : DelayedWriter T D}
  {op : WriteOp}

/-- **A poll arms the timer for what the knob holds.** -/
theorem armsFor_duration [ShortDuration D] (delayed : op ≠ .flush) (idle : s.delay.state = .idle) :
    ArmsFor env k s op (Duration.duration env s.delay.delayDuration k) := by
  unfold ArmsFor
  rw [delayed_wp delayed, pollWithWriteDelay_wp, idle]
  dsimp only
  split
  · exact wp_mono (wp_later _) fun _ _ _ _ => rfl
  · rw [if_neg s.delay.not_overflows]
    split
    · exact wp_mono (wp_later _) fun _ _ _ _ => rfl
    · rfl

end DelayedWriter

/-- After a request for a delay of `ms` milliseconds the endpoint answers that it was accepted, the
list of connections reports `duration` nanoseconds, and that is what every delayed writer over the knob
of the connection arms its timer for. -/
structure Delays (s : ApiState) (id : ConnId) (ms : UInt64) (duration : Nat) : Prop where
  accepted : (Api.setDelay id ⟨ms⟩ s).1 = .ok .accepted
  reported : ∀ conn, s.connections.lookup id = some conn →
    ∃ status ∈ Api.listConnections (Api.setDelay id ⟨ms⟩ s).2,
      status.connInfo = conn.connInfo ∧ status.delay = duration
  armed : ∀ conn, s.connections.lookup id = some conn → ∀ (T : Type) [AsyncWrite T] (env : World)
    (k : Nat), (∀ a, env.atomics a k = (Api.setDelay id ⟨ms⟩ s).2.memory a) →
      ∀ (w : DelayedWriter T DynamicDuration), w.delay.delayDuration = conn.knobs.delay →
        w.delay.state = .idle → ∀ op, op ≠ .flush → w.ArmsFor env k op duration

variable {s : ApiState} {id : ConnId} {conn : ConnectionState}

/-- The word that the endpoint stores. -/
theorem setDelay_listed (ms : UInt64) (listed : s.connections.lookup id = some conn) :
    Api.setDelay id ⟨ms⟩ s =
      (.ok .accepted,
        { s with
          memory := Function.update s.memory conn.delay.cell
            (DynamicDuration.nanos (ms.toNat * 1000000)) }) := by
  simp only [Api.setDelay, ApiState.setDelay, ApiState.withConn, listed, ApiState.storing]

/-- **The report and the timer agree**: both show the nanoseconds that fit. -/
theorem setDelay_delays (ms : UInt64) (listed : s.connections.lookup id = some conn) :
    Delays s id ms (keptNanos ms) := by
  have word : (DynamicDuration.nanos (ms.toNat * 1000000)).toNat = keptNanos ms :=
    UInt64.toNat_ofNat
  have stored := setDelay_listed ms listed
  refine ⟨?_, ?_, ?_⟩
  · rw [stored]
  · intro conn' found
    rw [stored]
    cases listed.symm.trans found
    refine ⟨_, List.mem_map.mpr ⟨_, Keyed.mem_of_lookup listed, rfl⟩, rfl, ?_⟩
    show (Function.update s.memory conn.delay.cell _ conn.delay.cell).toNat = _
    rw [Function.update_self, word]
  · intro conn' found T _ env k holds w knob idle op delayed
    rw [stored] at holds
    cases listed.symm.trans found
    have duration : Duration.duration env w.delay.delayDuration k = keptNanos ms := by
      rw [knob]
      show (env.atomics conn.delay.cell k).toNat = _
      rw [holds]
      show (Function.update s.memory conn.delay.cell _ conn.delay.cell).toNat = _
      rw [Function.update_self, word]
    rw [← duration]
    exact DelayedWriter.armsFor_duration delayed idle

/-- Up to the largest number of milliseconds that fits, nothing is cut off. -/
theorem keptNanos_of_le {ms : UInt64} (fits : ms.toNat ≤ fittingMs) :
    keptNanos ms = ms.toNat * 1000000 := by
  unfold fittingMs at fits
  exact Nat.mod_eq_of_lt (by omega)

/-- Everything is cut off at the multiples of `2 ^ 58`. -/
theorem keptNanos_eq_zero {ms : UInt64} : keptNanos ms = 0 ↔ 2 ^ 58 ∣ ms.toNat := by
  unfold keptNanos
  rw [← Nat.dvd_iff_mod_eq_zero]
  rw [show (2 : Nat) ^ 64 = 2 ^ 58 * 2 ^ 6 by rfl,
    show ms.toNat * 1000000 = ms.toNat * 15625 * 2 ^ 6 by omega,
    Nat.mul_dvd_mul_iff_right (by decide)]
  exact Nat.Coprime.dvd_mul_right (by decide)

/-- **What a delay in milliseconds becomes.** For every connection of the list and every `delay_ms`, the
request is accepted, and the list of connections reports and every delayed writer arms for the same
duration: the nanoseconds modulo `2 ^ 64`. It is monotone and not zero up to `fittingMs`, and zero
exactly at the multiples of `2 ^ 58`. -/
theorem delay_kept (s : ApiState) (id : ConnId) (listed : (s.connections.lookup id).isSome = true) :
    (∀ ms : UInt64, Delays s id ms (keptNanos ms)) ∧
      (∀ a b : UInt64, a ≤ b → b.toNat ≤ fittingMs →
        keptNanos a ≤ keptNanos b ∧ (a ≠ 0 → keptNanos a ≠ 0)) ∧
      ∀ ms : UInt64, keptNanos ms = 0 ↔ 2 ^ 58 ∣ ms.toNat := by
  obtain ⟨conn, listed⟩ := Option.isSome_iff_exists.mp listed
  refine ⟨fun ms => setDelay_delays ms listed, fun a b le fits => ?_, fun ms => keptNanos_eq_zero⟩
  have le : a.toNat ≤ b.toNat := UInt64.le_iff_toNat_le.mp le
  rw [keptNanos_of_le (Nat.le_trans le fits), keptNanos_of_le fits]
  refine ⟨Nat.mul_le_mul_right _ le, fun some => ?_⟩
  have pos : a.toNat ≠ 0 := fun zero => some (UInt64.toNat_inj.mp zero)
  omega

/-- One connection, listed under `c`. -/
def oneListed : ApiState where
  connections := [("c", { Handles.block 0 with
    connInfo := { id := "c", downstream := "d", upstream := "u" }, tx := 0 })]
  memory := fun _ => 0
  next := 1

/-- A quarter of a second, the longest delay that fits, and a delay that is cut off entirely. -/
theorem delay_kept_listed :
    (∀ ms : UInt64, Delays oneListed "c" ms (keptNanos ms)) ∧
      (keptNanos 250 ≤ keptNanos 18446744073709 ∧ keptNanos 250 ≠ 0) ∧
      (keptNanos 288230376151711744 = 0 ↔ 2 ^ 58 ∣ (288230376151711744 : UInt64).toNat) := by
  have kept := delay_kept oneListed "c" (by decide)
  have order := kept.2.1 250 18446744073709 (by decide) (by decide)
  exact ⟨kept.1, ⟨order.1, order.2 (by decide)⟩, kept.2.2 _⟩

/-- The knob is not monotone, and a delay that is not zero can turn it off. One millisecond more than
fits is less than half a millisecond, and `2 ^ 58` milliseconds are none. -/
theorem delay_wraps :
    (¬∀ s id a b x y, a ≤ b → Delays s id a x → Delays s id b y → x ≤ y) ∧
      ¬∀ s id ms x, ms ≠ 0 → Delays s id ms x → x ≠ 0 := by
  have delays (ms : UInt64) : Delays oneListed "c" ms (keptNanos ms) := setDelay_delays ms rfl
  constructor
  · intro monotone
    have le := monotone _ _ 18446744073709 18446744073710 _ _ (by decide) (delays _) (delays _)
    exact absurd le (by decide)
  · intro some
    exact some _ _ 288230376151711744 _ (by decide) (delays _) (by decide)

end Trixter
