import Trixter.Laws.ShutdownerRuns

/-!
# Who a shutdown wakes

Two tasks share a shutdowner, one polling reads and one polling writes. A receiver that is not ready
keeps the waker of the poll that asked it last, and whatever the channel is told wakes that task
alone. The wakers are kept beside the state, where no poll reads them. `registered_iff_alone`: every
waiting task is woken exactly in the runs in which they wait one at a time.
-/

namespace Trixter

open Trixter.Lib Polling

/-- The two tasks. -/
inductive Side where
  | reader
  | writer
  deriving DecidableEq, Repr

namespace Side

/-- The other task. -/
def other : Side → Side
  | .reader => .writer
  | .writer => .reader

theorem other_ne (side : Side) : side.other ≠ side := by cases side <;> nofun

theorem eq_or_other (side s : Side) : s = side ∨ s = side.other := by
  cases side <;> cases s <;> simp [other]

end Side

/-- The task that makes the call. -/
def IoCall.side : IoCall → Side
  | .read _ => .reader
  | .fillBuf => .reader
  | .write _ => .writer

/-- The waker that the receiver keeps, and the tasks whose last poll was not ready. -/
structure Wakers where
  slot : Option Side
  waits : Side → Bool

namespace Wakers

/-- Nobody has polled. -/
def none : Wakers := ⟨.none, fun _ => false⟩

end Wakers

namespace Shutdowner

variable {T : Type} [AsyncBufRead T] [AsyncWrite T]

/-- The channel can still be told something. -/
def Open (s : Shutdowner T) : Prop := s.errRx = some .waiting

instance (s : Shutdowner T) : Decidable s.Open := inferInstanceAs (Decidable (_ = _))

/-- The wakers after a happening: `poll_error` hands the task's waker to the receiver whenever there
is one, and a receiver that has something to say keeps none. A poll that the runtime holds back counts
like any other; its task is woken by the runtime as well. -/
def rouse (env : World) (w : Wakers) (s : Paced (Shutdowner T)) : Happening → Wakers
  | .poll call =>
    { slot := if s.state.Open then some call.side else none
      waits := Function.update w.waits call.side
        (decide ((call.poll env s.moment s.state).result = .pending)) }
  | _ => w

/-- The shutdowner with its wakers beside it. -/
def woken (T : Type) [AsyncBufRead T] [AsyncWrite T] (env : World) :
    Machine (Paced (Shutdowner T) × Wakers) Happening (Poll IoError (Option Reply)) :=
  (happenings T env).watched (rouse env)

/-- While the channel is open, the receiver keeps the waker of each task that waits. -/
def AllRegistered (s : Paced (Shutdowner T) × Wakers) : Prop :=
  s.1.state.Open → ∀ side, s.2.waits side = true → s.2.slot = some side

/-- A task does not poll an open channel while the other one waits. -/
def Alone (s : Paced (Shutdowner T) × Wakers) : Happening → Prop
  | .poll call => s.1.state.Open → s.2.waits call.side.other = false
  | _ => True

variable {env : World}

/-- A poll does not close the channel. -/
theorem open_poll {s : Paced (Shutdowner T)} {call : IoCall} :
    ((happenings T env).step s (.poll call)).2.state.Open ↔ s.state.Open := by
  have step : (happen (.poll call)).wp env s.moment s.state fun _ t _ =>
      t.Open ↔ s.state.Open := by
    rw [happen, wp_map, call_wp]
    refine Guarded.of (fun _ => Iff.rfl) (fun err told => ?_) (fun _ => Iff.rfl) fun _ => Iff.rfl
    refine iff_of_false (fun h => by cases h) fun opened => ?_
    rcases told with told | ⟨-, told⟩
    · cases told.symm.trans opened
    · cases told.symm.trans opened
  exact step

omit [AsyncBufRead T] [AsyncWrite T] in
/-- Nothing more can be said once something has been. -/
theorem not_open_signal {s : Shutdowner T} {f : Oneshot → Oneshot} (told : ∀ rx, f rx ≠ .waiting) :
    ¬(s.signal f).Open := by
  intro opened
  obtain ⟨inner, _ | rx⟩ := s
  · cases opened
  · exact told rx (Option.some.inj opened)

/-- One happening leaves the waiting tasks registered exactly if it is not a poll of one task while
the other one waits. -/
theorem registered_step (s : Paced (Shutdowner T) × Wakers) (ev : Happening) :
    AllRegistered ((woken T env).step s ev).2 ↔ Alone s ev := by
  cases ev with
  | send err =>
    refine iff_of_true (fun opened => ?_) trivial
    have told : ∀ rx, Oneshot.send err rx ≠ .waiting := by
      intro rx
      cases rx <;> nofun
    exact absurd opened (not_open_signal told)
  | hangUp =>
    refine iff_of_true (fun opened => ?_) trivial
    have told : ∀ rx, Oneshot.hangUp rx ≠ .waiting := by
      intro rx
      cases rx <;> nofun
    exact absurd opened (not_open_signal told)
  | poll call =>
    by_cases opened : s.1.state.Open
    · have slot : ((woken T env).step s (.poll call)).2.2.slot = some call.side := if_pos opened
      have waits : ((woken T env).step s (.poll call)).2.2.waits call.side.other =
          s.2.waits call.side.other := Function.update_of_ne call.side.other_ne ..
      constructor
      · intro registered _
        by_contra waiting
        rw [Bool.not_eq_false, ← waits] at waiting
        have same := registered (open_poll.mpr opened) _ waiting
        rw [slot] at same
        exact call.side.other_ne (Option.some.inj same).symm
      · intro alone _ side waiting
        rcases call.side.eq_or_other side with rfl | rfl
        · exact slot
        · rw [waits, alone opened] at waiting
          cases waiting
    · refine iff_of_true (fun opened' => ?_) fun opened' => absurd opened' opened
      exact absurd (open_poll.mp opened') opened

/-- **A shutdown wakes every waiting task exactly in the runs in which they wait one at a time.** -/
theorem registered_iff_alone (env : World) (k : Nat) (inner : T) (run : List Happening) :
    (woken T env).Throughout (fun _ => AllRegistered) (⟨k, new inner⟩, Wakers.none) run ↔
      (woken T env).Allowed (fun _ => Alone) (⟨k, new inner⟩, Wakers.none) run :=
  Machine.AllowedFrom.congr (P := fun _ _ => True) (fun _ _ _ _ _ => trivial)
    (fun _ s ev _ => registered_step s ev) trivial

/-- A stream that has nothing to read and takes no byte. -/
def blocked : Duplex := ⟨⟨[], [none]⟩, ⟨⟨[], [.later]⟩, []⟩⟩

/-- A read and then a write, both of which have to wait. -/
def bothWait : List Happening := [.poll (.read ⟨[], 16⟩), .poll (.write (.write (.scalar [1])))]

/-- The writer's poll takes the reader's place in the receiver. -/
theorem registered_fails_both_wait :
    ¬(woken Duplex World.still).Throughout (fun _ => AllRegistered)
      (⟨0, new blocked⟩, Wakers.none) bothWait := by
  intro registered
  have lost := registered.2.1 rfl .reader rfl
  cases lost

end Shutdowner

end Trixter
