import Trixter.Laws.Connections
import Trixter.Laws.Kill

/-!
# Laws of every task

A `TaskLaw` is kept by a poll of the task's copy, by its timeout, by whatever the API tells it, and by
time. It then holds of every task in every run of the server that starts under it (`run_dated`): the other
tasks and the API calls reach a task through its channel alone. Laws of two tasks at once do not fit in.
-/

namespace Trixter

open Trixter.Lib Polling

variable {A B W G : Type}

namespace Task

/-- What the server does to a task besides polling it: nothing, or a word through a channel that
waits. -/
def Signalled (t t' : Task A B W G) : Prop :=
  t' = t ∨ t.errRx = some .waiting ∧ ∃ rx, t' = { t with copying.downstream.errRx := some rx } ∧
    (rx = .dropped ∨ ∃ reason, rx = .sent (Server.shutdownError reason))

namespace Signalled

variable {t t' t'' : Task A B W G}

theorem refl : Signalled t t := .inl rfl

/-- Only the first word is heard. -/
theorem trans (h : Signalled t t') (h' : Signalled t' t'') : Signalled t t'' := by
  rcases h with rfl | ⟨waiting, rx, rfl, word⟩
  · exact h'
  · rcases h' with rfl | ⟨waiting', -⟩
    · exact .inr ⟨waiting, rx, rfl, word⟩
    · -- the channel does not wait any more
      have same : rx = .waiting := Option.some.inj waiting'
      rcases word with rfl | ⟨reason, rfl⟩
      · cases same
      · cases same

/-- A hang-up. -/
theorem hangUp : Signalled t (t.signal Oneshot.hangUp) := by
  obtain ⟨id, copying, timer, res, cleaned⟩ := t
  obtain ⟨aToB, bToA, ⟨inner, rx⟩, upstream⟩ := copying
  rcases rx with _ | _ | err | _ | _
  · exact .refl
  · exact .inr ⟨rfl, .dropped, rfl, .inl rfl⟩
  · exact .refl
  · exact .refl
  · exact .refl

/-- A send. -/
theorem send {reason : String} (waiting : t.errRx = some .waiting) :
    Signalled t (t.signal (Oneshot.send (Server.shutdownError reason))) := by
  refine .inr ⟨waiting, .sent (Server.shutdownError reason), ?_, .inr ⟨reason, rfl⟩⟩
  unfold Task.signal
  rw [waiting]
  rfl

end Signalled

end Task

namespace Server

/-- The same tasks, told something perhaps. -/
structure Signals (s s' : Server A B W G) : Prop where
  next : s'.next = s.next
  gone : ∀ n, s.tasks n = none → s'.tasks n = none
  told : ∀ n t, s.tasks n = some t → ∃ t', s'.tasks n = some t' ∧ Task.Signalled t t'

namespace Signals

variable {s s' s'' : Server A B W G}

theorem of_tasks (next : s'.next = s.next) (tasks : s'.tasks = s.tasks) : Signals s s' :=
  ⟨next, fun n h => by rw [tasks, h], fun n t h => ⟨t, by rw [tasks, h], .refl⟩⟩

theorem refl : Signals s s := .of_tasks rfl rfl

theorem trans (h : Signals s s') (h' : Signals s' s'') : Signals s s'' := by
  refine ⟨h'.next.trans h.next, fun n gone => h'.gone n (h.gone n gone), fun n t task => ?_⟩
  obtain ⟨t', task', told⟩ := h.told n t task
  obtain ⟨t'', task'', told'⟩ := h'.told n t' task'
  exact ⟨t'', task'', told.trans told'⟩

/-- A task after the operation was there before it. -/
theorem source (h : Signals s s') {n : Nat} {t' : Task A B W G} (task : s'.tasks n = some t') :
    ∃ t, s.tasks n = some t ∧ Task.Signalled t t' := by
  cases before : s.tasks n with
  | none =>
    rw [h.gone n before] at task
    cases task
  | some t =>
    obtain ⟨t'', task', told⟩ := h.told n t before
    rw [task] at task'
    cases task'
    exact ⟨t, rfl, told⟩

/-- One task is told something. -/
theorem setTask {n : Nat} {t t' : Task A B W G} (task : s.tasks n = some t) (told : Task.Signalled t t') :
    Signals s (s.setTask n (some t')) := by
  refine ⟨rfl, fun m gone => ?_, fun m u task' => ?_⟩
  · have other : m ≠ n := by
      rintro rfl
      rw [task] at gone
      cases gone
    rw [setTask_other _ other, gone]
  · by_cases same : m = n
    · subst same
      rw [task] at task'
      cases task'
      exact ⟨t', setTask_self _, told⟩
    · exact ⟨u, by rw [setTask_other _ same, task'], .refl⟩

theorem hangUp {n : Nat} : Signals s (s.hangUp n) := by
  cases task : s.tasks n with
  | none =>
    refine .of_tasks rfl ?_
    ext1 m
    by_cases same : m = n
    · subst same
      rw [Server.hangUp, setTask_self, task]
      rfl
    · rw [Server.hangUp, setTask_other _ same]
  | some t =>
    rw [Server.hangUp, task]
    exact .setTask task .hangUp

theorem send {n : Nat} {reason : String} : Signals s (s.send n (shutdownError reason)).2 := by
  cases task : s.tasks n with
  | none =>
    simp only [Server.send, task]
    exact .refl
  | some t =>
    by_cases waiting : t.errRx = some .waiting
    · simp only [Server.send, task, if_pos waiting]
      exact .setTask task (.send waiting)
    · simp only [Server.send, task, if_neg waiting]
      exact .refl

theorem insert {id : ConnId} {tx : Nat} : Signals s (s.insert id tx) := by
  unfold Server.insert
  split
  · exact hangUp.trans (.of_tasks rfl rfl)
  · exact .of_tasks rfl rfl

theorem discard {id : ConnId} : Signals s (s.discard id) := by
  unfold Server.discard
  split
  · exact (Signals.of_tasks rfl rfl : Signals s (s.forget id)).trans hangUp
  · exact .refl

/-- A step of an API call. -/
theorem of_steps {call : Nat} (h : Steps s call s') : Signals s s' := by
  cases h with
  | goes hand => exact .of_tasks rfl rfl
  | takes entry hand => exact .of_tasks rfl rfl
  | sends hand => exact send.trans (.of_tasks rfl rfl)

end Signals

section Calls

variable {s : Server A B W G} {call : Nat} {id : ConnId} {reason : String} {ids : List ConnId}
  {copied : Poll IoError Unit}

/-- An API call's steps answer no poll. -/
theorem shutdown_unpolled : (s.shutdownConnection call id reason).1 ≠ .polled copied := by
  unfold shutdownConnection
  split
  · split <;> nofun
  · nofun

theorem shutdownAll_unpolled : (s.shutdownAllConnections call reason).1 ≠ .polled copied := by
  unfold shutdownAllConnections
  split <;> nofun

theorem snapshot_unpolled : (s.snapshot call ids).1 ≠ .polled copied := by
  unfold snapshot
  split <;> nofun

theorem advance_unpolled : (s.advance call).1 ≠ .polled copied := by
  unfold advance
  split
  · nofun
  · split <;> nofun
  all_goals nofun

theorem cleanUp_unpolled {n : Nat} : (s.cleanUp n).1 ≠ .polled copied := by
  unfold cleanUp
  split <;> nofun

theorem leave_unpolled {n : Nat} : (s.leave n).1 ≠ .polled copied := by
  unfold leave
  split <;> nofun

end Calls

/-! ## The rule -/

variable [SmallRng G] (cfg : Config G)
  (there : Transfer A (Shutdowner (Pipeline W G)) (Pipeline W G))
  (back : Transfer B (Pipeline W G) (Shutdowner (Pipeline W G))) (env : World)

/-- The task of a connection accepted at a moment. -/
def newTask (k : Nat) (id : ConnId) (downstream upstream : W) (knobs : Knobs) : Task A B W G :=
  let downstream := Pipeline.new env k downstream knobs cfg.baseRng
  let upstream := Pipeline.new env (k + 4) upstream knobs downstream.2
  { id
    copying :=
      { aToB := there.start, bToA := back.start, downstream := Shutdowner.new downstream.1,
        upstream := upstream.1 }
    timer :=
      if 0 < cfg.connectionDurationMs then
        some ⟨env.clock (k + 8) + cfg.connectionDurationMs * 1000000⟩
      else none
    res := none
    cleaned := false }

variable {cfg there back env}

theorem accept_wp {k : Nat} {s : Server A B W G} {id : ConnId} {downstream upstream : W} {knobs : Knobs}
    {Q : Poll IoError Response → Server A B W G → Nat → Prop} :
    (accept cfg there back id downstream upstream knobs).wp env k s Q ↔
      Q (.ok .silent) (({ s with next := s.next + 1 }.setTask s.next
        (some (newTask cfg there back env k id downstream upstream knobs))).insert id s.next)
        (k + 9) := Iff.rfl

/-- The task's time is up. -/
def Rings (env : World) (k : Nat) (t : Task A B W G) : Prop :=
  ∃ sleep, t.timer = some sleep ∧ env.alarm sleep.deadline k = true

/-- The task after its copy was polled, and was done, or not, or failed. -/
def Polled (I : Nat → Task A B W G → Prop) (env : World) (t : Task A B W G) :
    Exit IoError (Copying A B (Shutdowner (Pipeline W G)) (Pipeline W G)) Unit where
  ok _ k c := I k { t with copying := c, res := some (.ok ()) }
  pending k c := (¬Rings env k t → I k { t with copying := c }) ∧
    (Rings env k t → I k { t with copying := c, res := some (.err (.other .timeout)) })
  err e k c := I k { t with copying := c, res := some (.err e) }

variable (cfg there back env)

/-- What a task keeps once it has started. -/
structure TaskLaw (I : Nat → Task A B W G → Prop) : Prop where
  later : ∀ {k k' t}, k ≤ k' → I k t → I k' t
  told : ∀ {k t t'}, Task.Signalled t t' → I k t → I k t'
  cleaned : ∀ {k t}, I k t → I k { t with cleaned := true }
  polled : ∀ {k t}, t.res = none → I k t →
    (copyBidirectional there back).Ends env k t.copying (Polled I env t)

/-- What a new connection has to bring. -/
def Welcomes (I : Nat → Task A B W G → Prop) (k : Nat) : Event W → Prop
  | .accept id downstream upstream knobs =>
    I (k + 9) (newTask cfg there back env k id downstream upstream knobs)
  | _ => True

variable {cfg there back env} {I : Nat → Task A B W G → Prop} {k n : Nat} {s : Server A B W G}

omit [SmallRng G] in
/-- **A poll of a task**: it answers with what the copy answers, and does not unwind. -/
theorem pollTask_of {t : Task A B W G} (task : s.tasks n = some t) (running : t.res = none)
    (later : ∀ k t, I k t → I (k + 1) t)
    (polled : (copyBidirectional there back).Ends env k t.copying (Polled I env t)) :
    (pollTask there back n).wp env k s fun r s' k' => ∃ copied t', r = .ok (.polled copied) ∧
      s' = s.setTask n (some t') ∧ Calm copied ∧ I k' t' := by
  obtain ⟨id, copying, timer, res, cleaned⟩ := t
  cases running
  rw [pollTask, wp_bind, wp_get]
  simp only [task]
  rw [wp_bind, wp_inside]
  refine wp_mono polled ?_
  rintro (_ | e | u | m) c k' left
  · obtain ⟨goes, ends⟩ := left
    dsimp only
    rw [wp_bind]
    cases timer with
    | none =>
      refine ⟨_, _, rfl, rfl, calm_pending, goes ?_⟩
      rintro ⟨sleep, none, -⟩
      cases none
    | some sleep =>
      rw [Task.timeout, wp_bind, wp_inside, Sleep.poll_wp]
      split
      · next elapsed => exact ⟨_, _, rfl, rfl, calm_pending, later _ _ (ends ⟨sleep, rfl, elapsed⟩)⟩
      · next early =>
        refine ⟨_, _, rfl, rfl, calm_pending, later _ _ (goes ?_)⟩
        rintro ⟨_, ⟨⟩, elapsed⟩
        exact early elapsed
  · exact ⟨_, _, rfl, rfl, calm_err e, left⟩
  · exact ⟨_, _, rfl, rfl, calm_ok u, left⟩
  · exact left.elim

/-- Every task is lawful. -/
def Tasked (I : Nat → Nat → Task A B W G → Prop) (k : Nat) (s : Server A B W G) : Prop :=
  ∀ n t, s.tasks n = some t → I n k t

/-- The answer of an event whose polls all come back. -/
def Answered (r : Poll IoError Response) : Prop :=
  ∃ response, r = .ok response ∧ ∀ copied, response = .polled copied → Calm copied

/-! ## Where the tasks come from -/

section Sources

variable {m : Nat} {t' : Task A B W G}

omit [SmallRng G] in
/-- A clean-up tells the others at most, and marks its own task. -/
theorem cleanUp_source (task : (cleanUp n s).2.tasks m = some t') :
    ∃ t u, s.tasks m = some t ∧ (u = t ∨ u = { t with cleaned := true }) ∧ Task.Signalled u t' := by
  unfold cleanUp at task
  split at task
  · next ended =>
    obtain ⟨u, before, told⟩ := Signals.discard.source task
    by_cases same : m = n
    · subst same
      rw [setTask_self] at before
      cases before
      exact ⟨_, _, ended, .inr rfl, told⟩
    · rw [setTask_other _ same] at before
      exact ⟨u, u, before, .inl rfl, told⟩
  · exact ⟨t', t', task, .inl rfl, .refl⟩

omit [SmallRng G] in
/-- A task that leaves is all that leaves. -/
theorem leave_source (task : (leave n s).2.tasks m = some t') : s.tasks m = some t' := by
  unfold leave at task
  split at task
  · by_cases same : m = n
    · subst same
      rw [setTask_self] at task
      cases task
    · rwa [setTask_other _ same] at task
  · exact task

end Sources

section Kept

variable {I : Nat → Nat → Task A B W G → Prop} {k' : Nat} {s' : Server A B W G}
  (law : ∀ n, TaskLaw there back env (I n)) (h : Tasked I k s) (later : k ≤ k')

include law h later

omit [SmallRng G] in
/-- Words and time leave every task lawful. -/
theorem Tasked.signals (tells : Signals s s') : Tasked I k' s' := by
  intro n t' task
  obtain ⟨t, before, told⟩ := tells.source task
  exact (law n).told told ((law n).later later (h n t before))

omit [SmallRng G] in
/-- So does a lawful change of one of them. -/
theorem Tasked.setTask {t' : Task A B W G} (h' : I n k' t') : Tasked I k' (s.setTask n (some t')) := by
  intro m u task
  by_cases same : m = n
  · subst same
    rw [setTask_self] at task
    cases task
    exact h'
  · rw [setTask_other _ same] at task
    exact (law m).later later (h m u task)

end Kept

section Events

variable {I : Nat → Nat → Task A B W G → Prop} (law : ∀ n, TaskLaw there back env (I n))
  (h : Tasked I k s)

include law h

/-- A new connection that is welcome. -/
theorem accept_tasked {id : ConnId} {downstream upstream : W} {knobs : Knobs}
    (welcome : I s.next (k + 9) (newTask cfg there back env k id downstream upstream knobs)) :
    (accept cfg there back id downstream upstream knobs).wp env k s fun r s' k' =>
      Tasked I k' s' ∧ Answered r := by
  refine accept_wp.mpr ⟨fun n t' task => ?_, .silent, rfl, fun _ h => by cases h⟩
  obtain ⟨t, before, told⟩ := Signals.insert.source task
  refine (law n).told told ?_
  by_cases new : n = s.next
  · subst new
    rw [setTask_self] at before
    cases before
    exact welcome
  · rw [setTask_other _ new] at before
    exact (law n).later (Nat.le_add_right k 9) (h n t before)

omit [SmallRng G] in
/-- A poll of one of them. -/
theorem pollTask_tasked (n : Nat) :
    (pollTask there back n).wp env k s fun r s' k' => Tasked I k' s' ∧ Answered r := by
  by_cases idle : ∀ t, s.tasks n = some t → t.res ≠ none
  · refine wp_mono (wp_and (pollTask_silent there back env k idle) (wp_later _)) ?_
    rintro _ _ k' ⟨⟨rfl, rfl⟩, later⟩
    exact ⟨h.signals law later .refl, .silent, rfl, fun _ h => by cases h⟩
  · simp only [not_forall, not_not] at idle
    obtain ⟨t, task, running⟩ := idle
    have stays := pollTask_of task running (fun k t => (law n).later (k := k) (t := t) (Nat.le_succ k))
      ((law n).polled running (h n t task))
    refine wp_mono (wp_and stays (wp_later _)) ?_
    rintro _ _ k' ⟨⟨copied, t', rfl, rfl, calm, h'⟩, later⟩
    exact ⟨h.setTask law later h', _, rfl, fun _ h => by cases h; exact calm⟩

/-- **One event keeps every task lawful**, and no poll unwinds. -/
theorem handle_tasked (ev : Event W) (welcome : Welcomes cfg there back env (I s.next) k ev) :
    (handle cfg there back ev).wp env k s fun r s' k' => Tasked I k' s' ∧ Answered r := by
  have answers : ∀ {call : Nat} {step : Server A B W G → Response × Server A B W G},
      Steps s call (step s).2 → (∀ copied, (step s).1 ≠ .polled copied) →
        (Polling.modifyGet step : Io (Server A B W G) Response).wp env k s fun r s' k' =>
          Tasked I k' s' ∧ Answered r :=
    fun steps silent => ⟨h.signals law (Nat.le_refl k) (.of_steps steps), _, rfl, fun copied eq =>
      absurd eq (silent copied)⟩
  cases ev with
  | accept id downstream upstream knobs => exact accept_tasked law h welcome
  | shutdown call id reason => exact answers .shutdown fun _ => shutdown_unpolled
  | shutdownAll call reason => exact answers .shutdownAll fun _ => shutdownAll_unpolled
  | snapshot call ids => exact answers .snapshot fun _ => snapshot_unpolled
  | advance call => exact answers .advance fun _ => advance_unpolled
  | poll n => exact pollTask_tasked law h n
  | cleanUp n =>
    refine ⟨fun m t' task => ?_, _, rfl, fun _ polled => absurd polled cleanUp_unpolled⟩
    obtain ⟨t, u, before, rfl | rfl, told⟩ := cleanUp_source task
    · exact (law m).told told (h m _ before)
    · exact (law m).told told ((law m).cleaned (h m t before))
  | leave n =>
    exact ⟨fun m t' task => h m t' (leave_source task), _, rfl, fun _ polled =>
      absurd polled leave_unpolled⟩

end Events

/-! ## Runs -/

/-- Tasks are listed once, and the numbers that are not given out are not in use. -/
def Orderly (s : Server A B W G) : Prop := ∃ marks, Sound s marks

theorem orderly_step (s : Paced (Server A B W G)) (ev : Event W) (h : Orderly s.state) :
    Orderly ((machine cfg there back env).step s ev).2.state := by
  obtain ⟨marks, sound⟩ := h
  exact ⟨_, sound_step cfg there back env ⟨s, marks⟩ ev sound⟩

/-- The moments at which the tasks were accepted. -/
def accepts (dates : Nat → Nat) (s : Paced (Server A B W G)) : Event W → Nat → Nat
  | .accept _ _ _ _ => Function.update dates s.state.next s.moment
  | _ => dates

variable (cfg there back env) in
/-- The server, with those moments. -/
def dated : Machine (Paced (Server A B W G) × (Nat → Nat)) (Event W) (Poll IoError Response) :=
  (machine cfg there back env).watched accepts

section Runs

variable {J : Nat → Nat → Task A B W G → Prop}

/-- A task is lawful as what was accepted at its date. -/
def Dated (J : Nat → Nat → Task A B W G → Prop) (s : Paced (Server A B W G) × (Nat → Nat)) : Prop :=
  Tasked (fun n => J (s.2 n)) s.1.moment s.1.state

/-- One event, with the date it may add. -/
theorem dated_step (law : ∀ j, TaskLaw there back env (J j))
    (s : Paced (Server A B W G) × (Nat → Nat)) (ev : Event W) (h : Dated J s) (orderly : Orderly s.1.state)
    (welcome : Welcomes cfg there back env (J s.1.moment) s.1.moment ev) :
    Dated J ((dated cfg there back env).step s ev).2 ∧
      Answered ((dated cfg there back env).step s ev).1 := by
  obtain ⟨s, dates⟩ := s
  obtain ⟨marks, sound⟩ := orderly
  have dates' : Tasked (fun n => J (accepts dates s ev n)) s.moment s.state := by
    intro n t task
    have same : accepts dates s ev n = dates n := by
      cases ev with
      | accept id downstream upstream knobs =>
        refine Function.update_of_ne ?_ _ _
        rintro rfl
        rw [sound.fresh s.state.next (Nat.le_refl _)] at task
        cases task
      | _ => rfl
    show J (accepts dates s ev n) s.moment t
    rw [same]
    exact h n t task
  refine machine_step (handle_tasked (fun n => law (accepts dates s ev n)) dates' ev ?_)
  cases ev with
  | accept id downstream upstream knobs =>
    show J (Function.update dates s.state.next s.moment s.state.next) (s.moment + 9) _
    rw [Function.update_self]
    exact welcome
  | _ => trivial

/-- **The rule of tasks.** In every run in which each new connection brings the law with it, each task
keeps it from then on. -/
theorem run_dated (law : ∀ j, TaskLaw there back env (J j)) (k : Nat) {events : List (Event W)}
    (welcome : ∀ ev ∈ events, ∀ k, Welcomes cfg there back env (J k) k ev)
    {D : Paced (Server A B W G) × (Nat → Nat) → Event W → Prop}
    (imp : ∀ s ev, Dated J s → Orderly s.1.state →
      Welcomes cfg there back env (J s.1.moment) s.1.moment ev → D s ev) :
    (dated cfg there back env).Allowed (fun _ => D) (⟨k, empty⟩, fun _ => 0) events := by
  have start : Dated J (⟨k, (empty : Server A B W G)⟩, fun _ => 0) ∧
      Orderly (empty : Server A B W G) := by
    refine ⟨fun n t task => ?_, _, Sound.empty⟩
    cases task
  have known : (dated cfg there back env).Allowed
      (fun _ _ ev => ∀ m, Welcomes cfg there back env (J m) m ev) (⟨k, empty⟩, fun _ => 0) events :=
    Machine.allowedFrom_of_mem welcome
  refine .imp (P := fun _ s => Dated J s ∧ Orderly s.1.state) ?_ ?_ start known
  · exact fun _ s ev h welcome =>
      ⟨(dated_step law s ev h.1 h.2 (welcome _)).1, orderly_step s.1 ev h.2⟩
  · exact fun _ s ev h welcome => imp s ev h.1 h.2 (welcome _)

/-- The same for a law that does not look at the date, of which each event also finds the tasks. -/
theorem run_tasked (law : TaskLaw there back env I) (k : Nat) {events : List (Event W)}
    (welcome : ∀ ev ∈ events, ∀ k, Welcomes cfg there back env I k ev)
    {D : Paced (Server A B W G) → Event W → Prop}
    (imp : ∀ s ev, Tasked (fun _ => I) s.moment s.state → Orderly s.state →
      Tasked (fun _ => I) ((machine cfg there back env).step s ev).2.moment
        ((machine cfg there back env).step s ev).2.state → D s ev) :
    (machine cfg there back env).Allowed (fun _ => D) ⟨k, empty⟩ events := by
  have run := run_dated (J := fun _ => I) (D := fun s => D s.1) (fun _ => law) k welcome
    fun s ev h orderly welcome =>
      imp s.1 ev h orderly (dated_step (fun _ => law) s ev h orderly welcome).1
  exact (Machine.allowedFrom_watched (m := machine cfg there back env) (C := fun _ => D)).mp run

end Runs

end Server

end Trixter
