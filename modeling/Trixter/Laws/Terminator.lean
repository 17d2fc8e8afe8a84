import Trixter.Script
import Trixter.Tally
import Trixter.Terminator
import Trixter.Xoshiro

/-!
# The fuse

`trigger_wp` is the whole of `tryTrigger`. Five of the six polls ask it before anything else, and
`poll_wp` says so of all five at once; the sixth is `poll_fill_buf`, which does not.
-/

namespace Trixter

open Trixter.Lib Polling

namespace Terminator

variable {T P G : Type} [SmallRng G] [Probability P] {env : World} {k : Nat}
  {s : Terminator T P G}

/-- The terminator after a draw. -/
def drawn (s : Terminator T P G) : Terminator T P G :=
  { s with rng := (SmallRng.nextU64 s.rng).2 }

/-- The terminator with its fuse blown. -/
def blown (s : Terminator T P G) : Terminator T P G := { s with triggered := true }

/-- The draw of a poll made at this moment is below its threshold. -/
def Hits (env : World) (k : Nat) (s : Terminator T P G) : Prop :=
  (SmallRng.nextU64 s.rng).1 < Probability.threshold env s.prob k

instance : Decidable (Hits env k s) := inferInstanceAs (Decidable (_ < _))

/-- **`tryTrigger`**: a blown fuse draws nothing, a threshold of zero draws nothing. -/
theorem trigger_wp {Q : Poll IoError Bool → Terminator T P G → Nat → Prop} :
    trigger.wp env k s Q ↔
      if s.triggered then Q (.ok true) s k
      else if Probability.threshold env s.prob k = 0 then Q (.ok false) s (k + 1)
      else if Hits env k s then Q (.ok true) s.drawn.blown (k + 1)
      else Q (.ok false) s.drawn (k + 1) := by
  obtain ⟨inner, prob, rng, triggered⟩ := s
  simp only [trigger, tryTrigger, nextU64, wp_zoom, wp_bind, wp_get, wp_ite, wp_pure, wp_observe,
    wp_modifyGet, wp_modify]
  rfl

/-- What a guarded poll comes to: the error, or a call from the state the draw left. -/
def asked {α : Type} (env : World) (k : Nat) (s : Terminator T P G)
    (Q : Poll IoError α → Terminator T P G → Nat → Prop)
    (reach : Terminator T P G → Nat → Prop) : Prop :=
  if s.triggered then Q (.err terminatedError) s k
  else if Probability.threshold env s.prob k = 0 then reach s (k + 1)
  else if Hits env k s then Q (.err terminatedError) s.drawn.blown (k + 1)
  else reach s.drawn (k + 1)

theorem guarded_wp {α : Type} {call : Io T α} {Q : Poll IoError α → Terminator T P G → Nat → Prop} :
    (guarded call).wp env k s Q ↔ asked env k s Q fun s' k' =>
      call.wp env k' s'.inner fun r inner k'' => Q r { s' with inner } k'' := by
  rw [guarded, wp_bind, trigger_wp, asked]
  split
  · rfl
  · split
    · rfl
    · split <;> rfl

/-- A read is guarded as the other polls are. -/
theorem pollRead_wp [AsyncRead T] {buf : ReadBuf}
    {Q : Poll IoError Unit → Terminator T P G × ReadBuf → Nat → Prop} :
    pollRead.wp env k (s, buf) Q ↔ asked env k s (fun r s' => Q r (s', buf)) fun s' k' =>
      pollRead.wp env k' (s'.inner, buf) fun r (t : T × ReadBuf) k'' =>
        Q r ({ s' with inner := t.1 }, t.2) k'' := by
  simp only [pollRead, AsyncRead.pollRead, wp_bind, wp_zoom]
  rw [trigger_wp, asked]
  split
  · rfl
  · split
    · rfl
    · split <;> rfl

/-- What holds of the error, and of the call from every state with the same inner stream, holds of a
guarded poll. -/
theorem asked_of {α : Type} {Q : Poll IoError α → Terminator T P G → Nat → Prop}
    {reach : Terminator T P G → Nat → Prop}
    (refused : ∀ s' k', s'.inner = s.inner → Q (.err terminatedError) s' k')
    (passed : ∀ s' k', s'.inner = s.inner → reach s' k') : asked env k s Q reach := by
  unfold asked
  split
  · exact refused _ _ rfl
  · split
    · exact passed _ _ rfl
    · split
      · exact refused _ _ rfl
      · exact passed _ _ rfl

/-- **A terminator keeps the write contract** of the writer it guards. -/
theorem contract [AsyncWrite T] {inv : T → Prop} {received : T → List UInt8}
    (h : Contract T inv received) :
    Contract (Terminator T P G) (fun s => inv s.inner) (fun s => received s.inner) where
  write env k s buf hs := by
    refine guarded_wp.mpr (asked_of (fun s' _ same => ?_) fun s' k' same => ?_)
    · rw [same]; exact ⟨hs, .err _⟩
    · rw [← same] at hs ⊢; exact h.write env k' s'.inner buf hs
  vectored env k s bufs hs := by
    refine guarded_wp.mpr (asked_of (fun s' _ same => ?_) fun s' k' same => ?_)
    · rw [same]; exact ⟨hs, .err _⟩
    · rw [← same] at hs ⊢; exact h.vectored env k' s'.inner bufs hs
  flush env k s hs := by
    refine guarded_wp.mpr (asked_of (fun s' _ same => ?_) fun s' k' same => ?_)
    · rw [same]; exact ⟨hs, rfl, calm_err _⟩
    · rw [← same] at hs ⊢; exact h.flush env k' s'.inner hs
  shutdown env k s hs := by
    refine guarded_wp.mpr (asked_of (fun s' _ same => ?_) fun s' k' same => ?_)
    · rw [same]; exact ⟨hs, rfl, calm_err _⟩
    · rw [← same] at hs ⊢; exact h.shutdown env k' s'.inner hs

variable [AsyncBufRead T] [AsyncWrite T]

/-- **Five of the six polls ask the fuse**, and reach the inner stream only if it holds. -/
theorem poll_wp {call : IoCall} (checked : call ≠ .fillBuf)
    {Q : Poll IoError Reply → Terminator T P G → Nat → Prop} :
    call.poll.wp env k s Q ↔ asked env k s Q fun s' k' =>
      call.poll.wp env k' s'.inner fun r inner k'' => Q r { s' with inner } k'' := by
  cases call with
  | read buf =>
    simp only [IoCall.poll, wp_map, wp_lend]
    exact pollRead_wp
  | fillBuf => exact absurd rfl checked
  | write op =>
    cases op with
    | write c =>
      cases c with
      | scalar buf =>
        simp only [IoCall.poll, WriteOp.poll, WriteCall.poll, wp_map]
        exact guarded_wp
      | vectored bufs =>
        simp only [IoCall.poll, WriteOp.poll, WriteCall.poll, wp_map]
        exact guarded_wp
    | flush =>
      simp only [IoCall.poll, WriteOp.poll, wp_map]
      exact guarded_wp
    | shutdown =>
      simp only [IoCall.poll, WriteOp.poll, wp_map]
      exact guarded_wp

/-- The sixth poll does not ask: it reaches the inner stream whatever the fuse. -/
theorem fillBuf_wp {Q : Poll IoError Reply → Terminator T P G → Nat → Prop} :
    IoCall.fillBuf.poll.wp env k s Q ↔
      IoCall.fillBuf.poll.wp env k s.inner fun r inner k' => Q r { s with inner } k' := by
  simp only [IoCall.poll, wp_map]
  rfl

/-! ## Runs

The inner stream and the generator are counted, so that reaching either shows. -/

/-- The terminator's polls as a machine. -/
def polls (T P G : Type) [SmallRng G] [Probability P] [AsyncBufRead T] [AsyncWrite T]
    (env : World) :
    Machine (Paced (Terminator (Tally T) P (Tally G))) IoCall (Poll IoError Reply) :=
  Polling.machine env IoCall.poll

/-- Some poll has returned the termination error. -/
def Tripped (past : History IoCall (Poll IoError Reply)) : Prop :=
  ∃ poll ∈ past, poll.2 = .err terminatedError

instance (past : History IoCall (Poll IoError Reply)) : Decidable (Tripped past) :=
  inferInstanceAs (Decidable (∃ poll ∈ past, poll.2 = .err terminatedError))

/-- What a poll does on a blown fuse: the error, without reaching the inner stream and without a
draw. -/
def Refuses (env : World) (s : Paced (Terminator (Tally T) P (Tally G))) (call : IoCall) : Prop :=
  ((polls T P G env).step s call).1 = .err terminatedError ∧
    ((polls T P G env).step s call).2.state.inner.calls = s.state.inner.calls ∧
    ((polls T P G env).step s call).2.state.rng.calls = s.state.rng.calls

instance (s : Paced (Terminator (Tally T) P (Tally G))) (call : IoCall) :
    Decidable (Refuses env s call) :=
  inferInstanceAs (Decidable (_ ∧ _ ∧ _))

/-- A poll refuses exactly if it asks the fuse and finds it blown. -/
theorem refuses_iff {s : Paced (Terminator (Tally T) P (Tally G))} {call : IoCall} :
    Refuses env s call ↔ s.state.triggered = true ∧ call ≠ .fillBuf := by
  show (call.poll.wp env s.moment s.state fun r s' _ => r = .err terminatedError ∧
    s'.inner.calls = s.state.inner.calls ∧ s'.rng.calls = s.state.rng.calls) ↔ _
  by_cases checked : call = .fillBuf
  · subst checked
    rw [fillBuf_wp, Tally.poll_wp]
    refine iff_of_false (fun h => ?_) fun ⟨_, no⟩ => no rfl
    exact absurd h.2.1 (Nat.succ_ne_self _)
  · rw [poll_wp checked, asked]
    split
    · next blown => simp [blown, checked]
    · next intact =>
      refine iff_of_false (fun h => ?_) fun ⟨blown, _⟩ => intact blown
      split at h
      · rw [Tally.poll_wp] at h
        exact absurd h.2.1 (Nat.succ_ne_self _)
      · split at h
        · exact absurd h.2.2 (Nat.succ_ne_self _)
        · rw [Tally.poll_wp] at h
          exact absurd h.2.1 (Nat.succ_ne_self _)

/-- The inner stream never makes the termination error itself. -/
def Innocent (T : Type) [AsyncBufRead T] [AsyncWrite T] : Prop :=
  ∀ call : IoCall, Spares terminatedError (call.poll : Io T Reply)

/-- Over such a stream the error is only ever made by a fuse that has blown, and it stays blown. -/
theorem poll_blows (innocent : Innocent T) (call : IoCall) :
    call.poll.wp env k s fun r s' _ =>
      (s.triggered = true → s'.triggered = true) ∧
        (r = .err terminatedError → s'.triggered = true) := by
  by_cases checked : call = .fillBuf
  · subst checked
    rw [fillBuf_wp]
    exact ⟨id, fun h => absurd h (innocent .fillBuf env k s.inner)⟩
  · rw [poll_wp checked, asked]
    split
    · next blown => exact ⟨id, fun _ => blown⟩
    · split
      · exact ⟨id, fun h => absurd h (innocent call env _ s.inner)⟩
      · split
        · exact ⟨fun _ => rfl, fun _ => rfl⟩
        · exact ⟨id, fun h => absurd h (innocent call env _ s.inner)⟩

theorem innocent_tally (innocent : Innocent T) : Innocent (Tally T) := by
  intro call env k t
  have h : call.poll.wp env k t fun r _ _ => r ≠ .err terminatedError := by
    rw [Tally.poll_wp]
    exact innocent call env k t.value
  exact h

/-- **The fuse, over whole runs.** Once a poll has returned the error every later poll refuses,
exactly if each of these finds the fuse blown and is not `poll_fill_buf`; over an inner stream that
never makes the error itself, exactly if none of them is `poll_fill_buf`. -/
theorem refuses_once_tripped (env : World) (s : Paced (Terminator (Tally T) P (Tally G)))
    (calls : List IoCall) :
    ((polls T P G env).Allowed (fun past s call => Tripped past → Refuses env s call) s calls ↔
      (polls T P G env).Allowed
        (fun past s call => Tripped past → s.state.triggered = true ∧ call ≠ .fillBuf) s calls) ∧
    (Innocent T →
      ((polls T P G env).Allowed (fun past s call => Tripped past → Refuses env s call) s calls ↔
        (polls T P G env).Allowed (fun past _ call => Tripped past → call ≠ .fillBuf) s calls)) := by
  constructor
  · exact Machine.AllowedFrom.congr (P := fun _ _ => True) (fun _ _ _ _ _ => trivial)
      (fun past s call _ => imp_congr_right fun _ => refuses_iff) trivial
  · intro innocent
    refine Machine.AllowedFrom.congr (P := fun past s => Tripped past → s.state.triggered = true)
      ?_ ?_ ?_
    · -- the fuse is blown once the error has been returned
      rintro past s call blown - ⟨poll, mem, err⟩
      have kept : call.poll.wp env s.moment s.state _ := poll_blows (innocent_tally innocent) call
      obtain ⟨stays, blows⟩ := machine_step kept
      rcases List.mem_append.mp mem with mem | mem
      · exact stays (blown ⟨poll, mem, err⟩)
      · rw [List.mem_singleton.mp mem] at err
        exact blows err
    · intro past s call blown
      exact imp_congr_right fun tripped => refuses_iff.trans (and_iff_right (blown tripped))
    · rintro ⟨poll, mem, -⟩
      cases mem

/-- The errors of a scripted connection are the operating system's. -/
theorem innocent_duplex : Innocent Duplex := by
  have fill : Spares terminatedError Arrivals.fillBuf := by
    refine spares_bind spares_get fun s => spares_ite ?_ (spares_pure _)
    rcases s.coming with _ | ⟨_ | bytes, coming⟩
    · exact spares_pure _
    · exact spares_bind (spares_modify _) fun _ => spares_pend
    · exact spares_bind (spares_modify _) fun _ => spares_pure _
  have put : ∀ bytes, Spares terminatedError (ReadBuf.putSlice bytes) := fun bytes =>
    spares_bind spares_get fun b => spares_ite (spares_modify _) (spares_panic _)
  have turn : ∀ len turns, Turn.next len turns ≠ .err terminatedError := by
    intro len turns
    rcases turns with _ | ⟨_ | _ | _, turns⟩ <;> exact fun h => by cases h
  have write : ∀ buf, Spares terminatedError (Socket.write buf) := fun buf _ _ s =>
    turn buf.length s.writes
  have flush : Spares terminatedError Pipe.flush := by
    intro env k s h
    have turn := turn 0 s.flushes
    unfold Pipe.flush at h
    dsimp only at h
    split at h <;> simp_all
  have count : ∀ op : WriteOp, Spares terminatedError (op.poll : Io Duplex Nat) := by
    intro op
    rcases op with (buf | bufs) | _ | _
    · exact spares_zoom (spares_zoom (write buf))
    · exact spares_zoom (spares_zoom (write bufs.flatten))
    · exact spares_bind (spares_zoom flush) fun _ => spares_pure 0
    · exact spares_bind (spares_zoom (spares_pure _)) fun _ => spares_pure 0
  intro call
  cases call with
  | read buf =>
    refine spares_bind (spares_lend (spares_zoom ?_)) fun _ => spares_pure _
    refine spares_bind (spares_zoom fill) fun unread => ?_
    refine spares_bind spares_get fun s => spares_bind (spares_zoom (put _)) fun _ => spares_modify _
  | fillBuf => exact spares_bind (spares_zoom fill) fun _ => spares_pure _
  | write op => exact spares_bind (count op) fun _ => spares_pure _

/-- A terminator with probability one over a connection with two unread bytes. -/
def certain : Paced (Terminator (Tally Duplex) ConstProb (Tally Xoshiro)) :=
  ⟨0, fromSeed (.start ⟨⟨[1, 2], []⟩, ⟨⟨[], []⟩, []⟩⟩) ⟨0xffffffffffffffff⟩ (List.replicate 32 7)⟩

/-- A run in which `poll_fill_buf` comes before the error only. -/
theorem refuses_once_tripped_certain :
    (polls Duplex ConstProb Xoshiro .still).Allowed
      (fun past s call => Tripped past → Refuses .still s call) certain
      [.fillBuf, .write .flush, .read ⟨[], 8⟩, .write (.write (.scalar [3]))] :=
  ((refuses_once_tripped .still certain _).2 innocent_duplex).mpr (by decide)

/-- The failing run: a flush trips the fuse, and `poll_fill_buf` answers with the unread bytes. -/
theorem fillBuf_survives_fuse :
    ((polls Duplex ConstProb Xoshiro .still).run certain [.write .flush, .fillBuf]).1 =
        [(.write .flush, .err terminatedError), (.fillBuf, .ok (.bytes [1, 2]))] ∧
      ¬(polls Duplex ConstProb Xoshiro .still).Allowed
        (fun past s call => Tripped past → Refuses .still s call) certain
        [.write .flush, .fillBuf] := by
  decide

end Terminator

end Trixter
