import Trixter.Laws.Bursts
import Trixter.Laws.Resets

/-!
# How long a connection lasts

`time_limit`: the limit of a connection counts from its accept. No connection is timed out before it, and
the first poll after it ends the task, if timers are prompt. That such a poll is made is the runtime's
affair.
-/

namespace Trixter

open Trixter.Lib Polling

variable {A B W G : Type}

/-- When the time of a connection accepted at this moment is up. -/
def Config.deadline (cfg : Config G) (env : World) (accepted : Nat) : Nat :=
  env.clock (accepted + 8) + cfg.connectionDurationMs * 1000000

section Errors

variable {env : World} {prob : DynamicProbability} {k : Nat} {b : Books} {e : IoError}

/-- No wrapped socket fails with a timeout. -/
theorem Pipeline.fails_in_time [Peer W] {s : Pipeline W G}
    (h : (law env prob (books W)).fails e k b s) : e ≠ .other .timeout := by
  obtain ⟨knob, inner, heard, said, failed⟩ := h
  rcases failed with (⟨rfl, -, -⟩ | ⟨⟨⟨code, rfl⟩, -⟩, -⟩) | ⟨⟨text, rfl⟩, -, -⟩
  · exact fun own => by cases own
  · exact fun own => by cases own
  · exact fun own => by cases own

/-- No copy does: the API sends another error. -/
theorem Task.copy_in_time [Peer W] {there : Transfer A (Shutdowner (Pipeline W G)) (Pipeline W G)}
    {back : Transfer B (Pipeline W G) (Shutdowner (Pipeline W G))} {t : Task A B W G}
    {c : Copying A B (Shutdowner (Pipeline W G)) (Pipeline W G)}
    (h : c.Fails there back (t.front (Pipeline.law env prob (Pipeline.books W)))
      (Pipeline.law env prob (Pipeline.books W)) e k) : e ≠ .other .timeout := by
  obtain ⟨bd, bu, -, ⟨⟨hd | ⟨word, -⟩, -⟩, -⟩ | ⟨-, hu⟩ | ⟨rfl, -⟩⟩ := h
  · exact Pipeline.fails_in_time hd
  · rcases word with rfl | ⟨err, ⟨reason, rfl⟩, rfl⟩
    · exact fun own => by cases own
    · exact fun own => by cases own
  · exact Pipeline.fails_in_time hu
  · exact fun own => by cases own

end Errors

namespace Task

variable (there : Transfer A (Shutdowner (Pipeline W G)) (Pipeline W G))
  (back : Transfer B (Pipeline W G) (Shutdowner (Pipeline W G))) (cfg : Config G) (env : World)

/-- A task accepted at moment `j` has the timer it was given then, and is timed out only once that has
elapsed. -/
structure OnTime [Peer W] (j k : Nat) (t : Task A B W G) : Prop where
  booked : KeepsBooks there back env k t
  timer : t.timer = if 0 < cfg.connectionDurationMs then some ⟨cfg.deadline env j⟩ else none
  due : t.TimedOut → 0 < cfg.connectionDurationMs ∧ cfg.deadline env j ≤ env.clock k

variable {there back cfg env} [SmallRng G] [Peer W] {j k : Nat} {t t' : Task A B W G}

omit [SmallRng G] in
/-- A timer that rings has elapsed. -/
theorem OnTime.rings (clockwork : Clockwork env) (h : OnTime there back cfg env j k t) {k' : Nat}
    (rings : Server.Rings env k' t) :
    0 < cfg.connectionDurationMs ∧ cfg.deadline env j ≤ env.clock k' := by
  obtain ⟨sleep, timer, elapsed⟩ := rings
  rw [h.timer] at timer
  split at timer
  · next pos =>
    cases timer
    exact ⟨pos, clockwork.alarm _ _ elapsed⟩
  · cases timer

omit [SmallRng G] in
/-- Nothing the API says is a timeout, or touches the timer. -/
theorem OnTime.told (h : OnTime there back cfg env j k t) (told : Signalled t t') :
    OnTime there back cfg env j k t' := by
  obtain ⟨prob, abides⟩ := h.booked
  have abides' := abides.told told
  rcases told with rfl | ⟨-, rx, rfl, -⟩
  · exact h
  · exact ⟨⟨prob, abides'⟩, h.timer, h.due⟩

/-- **A poll of a task.** It times out when its timer rings, and in no other way. -/
theorem OnTime.polled (clockwork : Clockwork env) (copiesThere : there.Copies)
    (copiesBack : back.Copies) (running : t.res = none) (h : OnTime there back cfg env j k t) :
    (copyBidirectional there back).Ends env k t.copying
      (Server.Polled (OnTime there back cfg env j) env t) := by
  obtain ⟨prob, abides⟩ := h.booked
  have upheld : Upholds env (Pipeline.law (G := G) env prob (Pipeline.books W)) :=
    Pipeline.upholds (Pipeline.books_upheld env)
  have stands := abides.polled copiesThere copiesBack upheld upheld running
  have hold : t.copying.Holds there back (t.front (Pipeline.law env prob (Pipeline.books W)))
      (Pipeline.law env prob (Pipeline.books W)) k := by
    unfold KeepsLaws at abides
    rw [running] at abides
    exact abides
  have copied := Copying.copy_ends copiesThere copiesBack (Shutdowner.upholds upheld) upheld hold
  refine ends_mono (ends_and stands copied) ?_ ?_ ?_
  · rintro _ k' c - ⟨left, -⟩
    exact ⟨⟨prob, left.1⟩, h.timer, fun timedOut => by cases timedOut⟩
  · rintro k' c - ⟨⟨goes, ends⟩, -⟩
    refine ⟨fun quiet => ⟨⟨prob, (goes quiet).1⟩, h.timer, ?_⟩, fun rings => ?_⟩
    · intro timedOut
      exact absurd (running.symm.trans timedOut) (fun eq => by cases eq)
    · exact ⟨⟨prob, (ends rings).1⟩, h.timer, fun _ => h.rings clockwork rings⟩
  · rintro e k' c - ⟨left, failed⟩
    refine ⟨⟨prob, left.1⟩, h.timer, fun timedOut => ?_⟩
    cases timedOut
    exact absurd rfl (copy_in_time failed)

end Task

namespace Server

variable {there : Transfer A (Shutdowner (Pipeline W G)) (Pipeline W G)}
  {back : Transfer B (Pipeline W G) (Shutdowner (Pipeline W G))} {cfg : Config G} {env : World}
  [SmallRng G] [Peer W]

theorem TaskLaw.onTime (clockwork : Clockwork env) (copiesThere : there.Copies)
    (copiesBack : back.Copies) (j : Nat) :
    TaskLaw there back env (Task.OnTime there back cfg env j) where
  later := fun later ⟨⟨prob, abides⟩, timer, due⟩ => ⟨⟨prob, abides.later later⟩, timer,
    fun timedOut => ⟨(due timedOut).1, Nat.le_trans (due timedOut).2 (clockwork.mono later)⟩⟩
  told told h := h.told told
  cleaned h := ⟨h.booked, h.timer, h.due⟩
  polled running h := h.polled clockwork copiesThere copiesBack running

/-- **A poll after the deadline ends the task.** -/
theorem pollTask_ends (clockwork : Clockwork env) (prompt : env.Prompt)
    (copiesThere : there.Copies) (copiesBack : back.Copies) {s : Server A B W G} {n j k : Nat}
    {t : Task A B W G} (task : s.tasks n = some t) (running : t.res = none)
    (h : Task.OnTime there back cfg env j k t) (limited : 0 < cfg.connectionDurationMs)
    (passed : cfg.deadline env j ≤ env.clock k) :
    (pollTask there back n).wp env k s fun _ s' _ => ∃ t', s'.tasks n = some t' ∧ t'.res ≠ none := by
  have ends : (copyBidirectional there back).Ends env k t.copying
      (Polled (fun _ t' => t'.res ≠ none) env t) := by
    refine ends_mono (h.polled clockwork copiesThere copiesBack running) ?_ ?_ ?_
    · exact fun _ _ _ _ _ none => by cases none
    · intro k' c later _
      have timer : t.timer = some ⟨cfg.deadline env j⟩ := h.timer.trans (if_pos limited)
      have rings : Rings env k' t :=
        ⟨_, timer, prompt _ k' (Nat.le_trans passed (clockwork.mono later))⟩
      exact ⟨fun quiet => absurd rings quiet, fun _ none => by cases none⟩
    · exact fun _ _ _ _ _ none => by cases none
  refine wp_mono (pollTask_of task running (fun _ _ h => h) ends) ?_
  rintro _ _ k' ⟨copied, t', -, rfl, -, ended⟩
  exact ⟨t', setTask_self _, ended⟩

variable (cfg env) in
/-- What an event may do under the limit of the configuration. -/
structure KeepsTime (s : Paced (Server A B W G) × (Nat → Nat)) (ev : Event W)
    (s' : Paced (Server A B W G) × (Nat → Nat)) : Prop where
  /-- A task that is timed out has had its time. -/
  early : ∀ n t, s'.1.state.tasks n = some t → t.TimedOut →
    0 < cfg.connectionDurationMs ∧ cfg.deadline env (s'.2 n) ≤ env.clock s'.1.moment
  /-- A task that has had its time does not outlive its poll. -/
  late : ∀ n t, ev = .poll n → s.1.state.tasks n = some t → t.res = none →
    0 < cfg.connectionDurationMs → cfg.deadline env (s.2 n) ≤ env.clock s.1.moment →
    ∃ t', s'.1.state.tasks n = some t' ∧ t'.res ≠ none

/-- **The time limit.** In every run, with timers that are never early and never late: no connection is
timed out before its time is up, or without a limit; and no connection outlives a poll made after its
time was up, whatever its copy is doing. -/
theorem time_limit (cfg : Config G) (clockwork : Clockwork env) (prompt : env.Prompt)
    (copiesThere : there.Copies) (copiesBack : back.Copies) (k : Nat) (events : List (Event W))
    (fresh : ∀ ev ∈ events, FreshSockets ev) :
    (dated cfg there back env).Allowed
      (fun _ s ev => KeepsTime cfg env s ev ((dated cfg there back env).step s ev).2)
      (⟨k, empty⟩, fun _ => 0) events := by
  have law : ∀ j, TaskLaw there back env (Task.OnTime there back cfg env j) :=
    fun j => .onTime clockwork copiesThere copiesBack j
  refine run_dated law k ?_ fun s ev h orderly welcome => ⟨fun n t task timedOut => ?_, ?_⟩
  · intro ev mem k
    cases ev with
    | accept id downstream upstream knobs =>
      refine ⟨welcomes_fresh copiesThere copiesBack (fresh _ mem) k, rfl, ?_⟩
      exact fun timedOut => by cases timedOut
    | _ => trivial
  · exact ((dated_step law s ev h orderly welcome).1 n t task).due timedOut
  · rintro n t rfl task running limited passed
    exact machine_step (pollTask_ends clockwork prompt copiesThere copiesBack task running
      (h n t task) limited passed)

/-- A clock that moves by a millisecond a moment, with timers to match. -/
def striding : World :=
  { World.still with
    clock := fun k => k * 1000000
    alarm := fun deadline k => decide (deadline ≤ k * 1000000) }

/-- A connection of a millisecond, between peers that say nothing. -/
def idling : List (Event Line) :=
  [.accept "a" (line [none]) (line [none]) knobsOff, .poll 0, .cleanUp 0, .leave 0]

theorem idling_limited :
    (dated { plain with connectionDurationMs := 1 } (CopyBuffer.transfer _ _)
        (CopyBuffer.transfer _ _) striding).Allowed
      (fun _ s ev => KeepsTime { plain with connectionDurationMs := 1 } striding s ev
        ((dated { plain with connectionDurationMs := 1 } (CopyBuffer.transfer _ _)
          (CopyBuffer.transfer _ _) striding).step s ev).2)
      (⟨0, empty⟩, fun _ => 0) idling := by
  refine time_limit { plain with connectionDurationMs := 1 } ⟨?_, ?_⟩ ?_ CopyBuffer.copies
    CopyBuffer.copies 0 idling ?_
  · exact fun _ _ le => Nat.mul_le_mul_right _ le
  · exact fun _ _ elapsed => of_decide_eq_true elapsed
  · exact fun _ _ passed => decide_eq_true passed
  · intro ev mem
    rcases mem with _ | ⟨_, _ | ⟨_, _ | ⟨_, _ | ⟨_, ⟨⟩⟩⟩⟩⟩
    · exact ⟨⟨rfl, rfl⟩, rfl, rfl⟩
    all_goals trivial

end Server

end Trixter
