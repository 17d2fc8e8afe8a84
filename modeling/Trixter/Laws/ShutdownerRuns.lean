import Trixter.Laws.Shutdowner
import Trixter.Ledger
import Trixter.Script

/-!
# Runs of the shutdowner

The channel and the six kinds of poll in any order. `Fuse` is what the wrapper is for, as a machine
of three states: it burns when the channel says so, and the poll that finds it burning is the only
one that learns why. The main theorem is `trips_once`.

A task that has used up its budget does not find out. Its polls go on to the inner stream while the
fuse burns, as if nothing had come; nothing is said here of how long that may last.
-/

namespace Trixter

open Trixter.Lib Polling

/-- What happens to a shutdowner: the sender sends an error or goes away, or the owner polls. -/
inductive Happening where
  | send (err : BError)
  | hangUp
  | poll (call : IoCall)
  deriving DecidableEq, Repr

/-- The fuse: intact, told why to blow, or blown. -/
inductive Fuse where
  | intact
  | burning (err : BError)
  | blown
  deriving DecidableEq, Repr

namespace Fuse

/-- The first thing the channel says lights the fuse, and the next poll that looks blows it. -/
def after (looks : Bool) : Fuse → Happening → Fuse
  | .intact, .send err => .burning err
  | .intact, .hangUp => .burning .shutdown
  | .burning err, .poll _ => if looks then .blown else .burning err
  | fuse, _ => fuse

end Fuse

namespace Shutdowner

variable {T : Type}

/-- The channel changes. -/
def signal (f : Oneshot → Oneshot) (s : Shutdowner T) : Shutdowner T :=
  { s with errRx := s.errRx.map f }

variable [AsyncBufRead T] [AsyncWrite T]

/-- One happening. Only a poll has an answer. -/
def happen : Happening → Io (Shutdowner T) (Option Reply)
  | .send err => do
    Polling.modify (signal (Oneshot.send err))
    return none
  | .hangUp => do
    Polling.modify (signal Oneshot.hangUp)
    return none
  | .poll call => do return some (← call.poll)

/-- The shutdowner and its channel as a machine. -/
def happenings (T : Type) [AsyncBufRead T] [AsyncWrite T] (env : World) :
    Machine (Paced (Shutdowner T)) Happening (Poll IoError (Option Reply)) :=
  Polling.machine env happen

variable {env : World} {k : Nat} {s : Shutdowner T}

/-- What a poll of any of the six kinds does is settled by the channel. -/
theorem call_wp {call : IoCall} {Q : Poll IoError Reply → Shutdowner T → Nat → Prop} :
    call.poll.wp env k s Q ↔
      Guarded env k s.errRx s { s with errRx := none } Q
        (call.poll.wp env (k + 1) s.inner fun r inner k' => Q r { s with inner } k') := by
  cases call with
  | read buf =>
    simp only [IoCall.poll, wp_map, wp_lend, read_wp]
    exact Guarded.congr (fun _ _ => .rfl) (fun _ _ => .rfl) (fun _ _ => .rfl) .rfl
  | fillBuf =>
    simp only [IoCall.poll, wp_map, AsyncBufRead.pollFillBuf, guarded_wp]
    exact Guarded.congr (fun _ _ => .rfl) (fun _ _ => .rfl) (fun _ _ => .rfl) .rfl
  | write op =>
    cases op with
    | write c =>
      cases c with
      | scalar buf =>
        simp only [IoCall.poll, WriteOp.poll, WriteCall.poll, wp_map, AsyncWrite.pollWrite, guarded_wp]
        exact Guarded.congr (fun _ _ => .rfl) (fun _ _ => .rfl) (fun _ _ => .rfl) .rfl
      | vectored bufs =>
        simp only [IoCall.poll, WriteOp.poll, WriteCall.poll, wp_map, AsyncWrite.pollWriteVectored,
          guarded_wp]
        exact Guarded.congr (fun _ _ => .rfl) (fun _ _ => .rfl) (fun _ _ => .rfl) .rfl
    | flush =>
      simp only [IoCall.poll, WriteOp.poll, wp_map, AsyncWrite.pollFlush, guarded_wp]
      exact Guarded.congr (fun _ _ => .rfl) (fun _ _ => .rfl) (fun _ _ => .rfl) .rfl
    | shutdown =>
      simp only [IoCall.poll, WriteOp.poll, wp_map, AsyncWrite.pollShutdown, guarded_wp]
      exact Guarded.congr (fun _ _ => .rfl) (fun _ _ => .rfl) (fun _ _ => .rfl) .rfl

/-- The shutdowner with its fuse beside it. -/
def fused (T : Type) [AsyncBufRead T] [AsyncWrite T] (env : World) :
    Machine (Paced (Shutdowner T) × Fuse) Happening (Poll IoError (Option Reply)) :=
  (happenings T env).watched fun fuse s ev => fuse.after (env.proceeds s.moment) ev

/-- The poll is one call on the inner stream. -/
def Passes (env : World) (s : Paced (Shutdowner T)) (call : IoCall)
    (answer : Poll IoError (Option Reply)) (s' : Paced (Shutdowner T)) : Prop :=
  let o := call.poll env (s.moment + 1) s.state.inner
  answer = o.result.map some ∧ s' = ⟨s.moment + 1 + o.took, { s.state with inner := o.state }⟩

/-- How a poll answers and what it leaves. With the fuse intact it passes; a burning fuse gives its
reason and a blown one `SHUTDOWN_ERROR`, both without touching the inner stream, and a blown one has no
receiver left to poll. A poll that does not look at the channel passes a burning fuse by. -/
def Obeys (env : World) (s : Paced (Shutdowner T) × Fuse) (call : IoCall)
    (answer : Poll IoError (Option Reply)) (s' : Paced (Shutdowner T)) : Prop :=
  match s.2 with
  | .intact => Passes env s.1 call answer s'
  | .burning err =>
    if env.proceeds s.1.moment then
      answer = .err (.other err) ∧ s' = ⟨s.1.moment + 1, { s.1.state with errRx := none }⟩
    else Passes env s.1 call answer s'
  | .blown => answer = .err (.other .shutdown) ∧ s' = s.1 ∧ s.1.state.errRx = none

/-- What the channel holds while the fuse is in each state. -/
def Fused (s : Paced (Shutdowner T) × Fuse) : Prop :=
  match s.2 with
  | .intact => s.1.state.errRx = some .waiting
  | .burning err =>
    s.1.state.errRx = some (.sent err) ∨ err = .shutdown ∧ s.1.state.errRx = some .dropped
  | .blown => s.1.state.errRx = none

omit [AsyncBufRead T] [AsyncWrite T] in
/-- A receiver that has completed is gone. -/
theorem Fused.not_complete {s : Paced (Shutdowner T) × Fuse} (h : Fused s) :
    s.1.state.errRx ≠ some .complete := by
  intro complete
  obtain ⟨⟨moment, inner, errRx⟩, fuse⟩ := s
  cases complete
  cases fuse with
  | intact => cases h
  | burning err =>
    rcases h with h | ⟨-, h⟩
    · cases h
    · cases h
  | blown => cases h

/-- A poll obeys the fuse. -/
theorem obeys_of_fused {s : Paced (Shutdowner T) × Fuse} (h : Fused s) (call : IoCall) :
    Obeys env s call ((fused T env).step s (.poll call)).1 ((fused T env).step s (.poll call)).2.1 := by
  have step : (happen (.poll call)).wp env s.1.moment s.1.state fun r t k' =>
      Obeys env s call r ⟨k', t⟩ := by
    rw [happen, wp_map, call_wp]
    obtain ⟨⟨moment, inner, errRx⟩, fuse⟩ := s
    cases fuse with
    | intact =>
      cases h
      exact ⟨rfl, rfl⟩
    | burning err =>
      have burns : ∀ {r : Poll IoError (Option Reply)} {t k'},
          (if env.proceeds moment then r = .err (.other err) ∧ (⟨k', t⟩ : Paced (Shutdowner T)) =
              ⟨moment + 1, ⟨inner, none⟩⟩
            else Passes env ⟨moment, inner, errRx⟩ call r ⟨k', t⟩) →
          Obeys env (⟨moment, inner, errRx⟩, .burning err) call r ⟨k', t⟩ := id
      rcases h with h | ⟨rfl, h⟩
      · cases h
        simp only [Guarded]
        split
        · next looks => exact burns (by rw [if_pos looks]; exact ⟨rfl, rfl⟩)
        · next held => exact burns (by rw [if_neg held]; exact ⟨rfl, rfl⟩)
      · cases h
        simp only [Guarded]
        split
        · next looks => exact burns (by rw [if_pos looks]; exact ⟨rfl, rfl⟩)
        · next held => exact burns (by rw [if_neg held]; exact ⟨rfl, rfl⟩)
    | blown =>
      cases h
      exact ⟨rfl, rfl, rfl⟩
  exact step

/-- A poll that passes leaves the channel alone. -/
theorem Passes.errRx {s s' : Paced (Shutdowner T)} {call : IoCall}
    {answer : Poll IoError (Option Reply)} (h : Passes env s call answer s') :
    s'.state.errRx = s.state.errRx := by rw [h.2]

/-- Each happening keeps the channel and the fuse together. -/
theorem fused_step {s : Paced (Shutdowner T) × Fuse} (h : Fused s) (ev : Happening) :
    Fused ((fused T env).step s ev).2 := by
  cases ev with
  | send err =>
    obtain ⟨⟨moment, inner, errRx⟩, fuse⟩ := s
    cases fuse with
    | intact =>
      cases h
      exact .inl rfl
    | burning err' =>
      rcases h with h | ⟨rfl, h⟩
      · cases h
        exact .inl rfl
      · cases h
        exact .inr ⟨rfl, rfl⟩
    | blown =>
      cases h
      rfl
  | hangUp =>
    obtain ⟨⟨moment, inner, errRx⟩, fuse⟩ := s
    cases fuse with
    | intact =>
      cases h
      exact .inr ⟨rfl, rfl⟩
    | burning err' =>
      rcases h with h | ⟨rfl, h⟩
      · cases h
        exact .inl rfl
      · cases h
        exact .inr ⟨rfl, rfl⟩
    | blown =>
      cases h
      rfl
  | poll call =>
    have obeys : Obeys env s call _ _ := obeys_of_fused h call
    obtain ⟨⟨moment, inner, errRx⟩, fuse⟩ := s
    cases fuse with
    | intact =>
      show ((fused T env).step _ (.poll call)).2.1.state.errRx = _
      exact (Passes.errRx obeys).trans h
    | burning err =>
      unfold Obeys at obeys
      dsimp only at obeys
      split at obeys
      · next looks =>
        have blown : ((fused T env).step (⟨moment, inner, errRx⟩, .burning err) (.poll call)).2.2 =
            .blown := if_pos looks
        rw [Fused, blown]
        show ((fused T env).step _ (.poll call)).2.1.state.errRx = _
        rw [obeys.2]
      · next held =>
        have burns : ((fused T env).step (⟨moment, inner, errRx⟩, .burning err) (.poll call)).2.2 =
            .burning err := if_neg held
        rw [Fused, burns]
        show ((fused T env).step _ (.poll call)).2.1.state.errRx = _ ∨
          _ ∧ ((fused T env).step _ (.poll call)).2.1.state.errRx = _
        rw [Passes.errRx obeys]
        exact h
    | blown =>
      obtain ⟨-, left, -⟩ := obeys
      show ((fused T env).step _ (.poll call)).2.1.state.errRx = _
      rw [left]
      exact h

/-- **The shutdowner trips once.** However channel and polls follow each other, each poll obeys the
fuse, and the receiver is dropped when it has completed. -/
theorem trips_once (env : World) (k : Nat) (inner : T) (run : List Happening) :
    (fused T env).Allowed
        (fun _ s ev => ∀ call, ev = .poll call →
          Obeys env s call ((fused T env).step s ev).1 ((fused T env).step s ev).2.1)
        (⟨k, new inner⟩, .intact) run ∧
      (fused T env).Throughout (fun _ s => s.1.state.errRx ≠ some .complete)
        (⟨k, new inner⟩, .intact) run := by
  have start : Fused ((⟨k, new inner⟩, .intact) : Paced (Shutdowner T) × Fuse) := rfl
  have keep : ∀ s ev, Fused s → Fused ((fused T env).step s ev).2 := fun s ev h => fused_step h ev
  constructor
  · apply Machine.allowedFrom_of_invariant keep _ start
    intro past s ev h call eq
    subst eq
    exact obeys_of_fused h call
  · apply Machine.allowedFrom_of_invariant keep _ start
    intro past s ev h
    exact (fused_step h ev).not_complete

/-- A task whose first look at the channel comes after its budget is used up. -/
def spent : World := { World.still with proceeds := fun k => decide (0 < k) }

/-- The poll after the event need not trip: without budget it reads from the inner stream, which is at
its end, and it is the poll after it that fails. -/
theorem passes_spent :
    ((happenings Duplex spent).run ⟨0, new ⟨⟨[], []⟩, ⟨⟨[], []⟩, []⟩⟩⟩
        [.send (.message "policy revoked"), .poll (.read ⟨[], 8⟩), .poll (.read ⟨[], 8⟩)]).1.map
          Prod.snd =
      [.ok none, .ok (some (.filled ⟨[], 8⟩)), .err (.other (.message "policy revoked"))] := by
  decide

end Shutdowner

end Trixter
