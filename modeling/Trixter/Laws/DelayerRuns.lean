import Trixter.Laws.Delayer
import Trixter.Ledger
import Trixter.Script

/-!
# When a delayed reader panics

`poll_read` looks at the inner buffer twice, before its delay and after it, and the second look must
find something. The first assertion of the adapter always holds; the second fails exactly when the
inner buffer is gone by the time the timer fires. The main theorem is `calm_iff_unstarved`. It also
tells the assertions from the third way to unwind, a delay that leads past the last `Instant`: this
leaves the timer armed, but breaks no assertion later.
-/

namespace Trixter

open Trixter.Lib Polling

namespace DelayedReader

variable {T D : Type} [Source T] [Duration D] {env : World} {k : Nat} {s : DelayedReader T D}

/-- Nothing is unread in the inner reader, and nothing has come since. -/
def Dry (env : World) (k : Nat) (r : T) : Prop :=
  buffered r = [] ∧ (pollFillBuf env k r : Outcome IoError T _).result = .pending

/-- A read finds its timer elapsed and the inner reader dry: what it was armed for has been consumed.
With the timer idle it first has to be armed for an empty buffer, as a reader at its end shows. -/
def Starved (env : World) (k : Nat) (s : DelayedReader T D) : ReadCall → Prop
  | .read _ =>
    let first := pollFillBuf env k s.inner
    let armed := s.delay.armed env (k + first.took)
    (s.delay.state = .delayed ∧ env.alarm s.delay.sleep.deadline k = true ∧
        Dry env (k + 1) s.inner) ∨
      (s.delay.state = .idle ∧ first.result = .ok [] ∧ s.bufEmpty = true ∧
        Duration.duration env s.delay.delayDuration (k + first.took) ≠ 0 ∧
        ¬s.delay.Overflows env (k + first.took) ∧
        env.alarm armed.sleep.deadline (k + first.took + 2) = true ∧
        Dry env (k + first.took + 3) first.state)
  | _ => False

/-- A read finds a burst, and a delay for it that leads past the last `Instant`. -/
def Overruns (env : World) (k : Nat) (s : DelayedReader T D) : ReadCall → Prop
  | .read _ =>
    let first := pollFillBuf env k s.inner
    s.delay.state = .idle ∧ first.result.isOk = true ∧ s.bufEmpty = true ∧
      Duration.duration env s.delay.delayDuration (k + first.took) ≠ 0 ∧
      s.delay.Overflows env (k + first.took)
  | _ => False

instance {r : T} : Decidable (Dry env k r) := inferInstanceAs (Decidable (_ ∧ _))

instance : (call : ReadCall) → Decidable (Starved env k s call)
  | .read _ =>
    inferInstanceAs (Decidable ((_ ∧ _ ∧ Dry _ _ _) ∨ (_ ∧ _ ∧ _ ∧ _ ∧ _ ∧ _ ∧ Dry _ _ _)))
  | .fillBuf => inferInstanceAs (Decidable False)
  | .consume _ => inferInstanceAs (Decidable False)

/-- The poll fails neither assertion of the adapter. -/
def Unreached {α : Type} (r : Poll IoError α) : Prop :=
  r ≠ .panicked
      "internal error: entered unreachable code: trying to delay when state is already Delayed" ∧
    r ≠ .panicked "internal error: entered unreachable code: buffer can't be empty"

instance {α : Type} [DecidableEq α] {r : Poll IoError α} : Decidable (Unreached r) :=
  inferInstanceAs (Decidable (_ ∧ _))

/-- The poll unwinds in one of two ways. -/
def Panics {α : Type} (starved overruns : Prop) (r : Poll IoError α) : Prop :=
  ∀ message, r = .panicked message ↔
    starved ∧ message = "internal error: entered unreachable code: buffer can't be empty" ∨
      overruns ∧ message = "overflow when adding duration to instant"

theorem Panics.of_calm {α : Type} {starved overruns : Prop} {r : Poll IoError α} (calm : Calm r)
    (fed : ¬starved) (fits : ¬overruns) : Panics starved overruns r := fun message =>
  iff_of_false (calm message) fun h => h.elim (fun h => fed h.1) fun h => fits h.1

theorem Panics.starved {α : Type} {starved overruns : Prop} (h : starved) (fits : ¬overruns) :
    Panics starved overruns
      (.panicked "internal error: entered unreachable code: buffer can't be empty" :
        Poll IoError α) := by
  intro message
  simp only [Poll.panicked.injEq, h, true_and, fits, false_and, or_false]
  exact eq_comm

theorem Panics.overruns {α : Type} {starved overruns : Prop} (h : overruns) (fed : ¬starved) :
    Panics starved overruns (overflow : Poll IoError α) := by
  intro message
  simp only [overflow, Poll.panicked.injEq, h, true_and, fed, false_and, false_or]
  exact eq_comm

theorem Panics.map {α β : Type} {starved overruns : Prop} {f : α → β} {r : Poll IoError α}
    (h : Panics starved overruns r) : Panics starved overruns (r.map f) := fun message =>
  Poll.map_eq_panicked.trans (h message)

/-- The assertions hold unless it is starved. -/
theorem Panics.unreached_iff {α : Type} {starved overruns : Prop} {r : Poll IoError α}
    (h : Panics starved overruns r) : Unreached r ↔ ¬starved := by
  unfold Unreached
  rw [ne_eq, ne_eq, h, h]
  simp

/-- And it comes back unless it also has to overrun. -/
theorem Panics.calm_iff {α : Type} {starved overruns : Prop} {r : Poll IoError α}
    (h : Panics starved overruns r) : Calm r ↔ ¬starved ∧ ¬overruns := by
  constructor
  · intro calm
    exact ⟨fun starved => calm _ ((h _).mpr (.inl ⟨starved, rfl⟩)),
      fun overruns => calm _ ((h _).mpr (.inr ⟨overruns, rfl⟩))⟩
  · rintro ⟨fed, fits⟩ message panics
    exact ((h message).mp panics).elim (fun h => fed h.1) fun h => fits h.1

omit [Duration D] in
/-- A reader that holds something shows it. -/
theorem dry_iff {r : T} : (pollFillBuf env k r : Outcome IoError T _).result = .pending ↔
    Dry env k r := by
  refine ⟨fun pending => ⟨?_, pending⟩, fun dry => dry.2⟩
  by_contra some
  have stays := wp_iff.mp (Source.contract.stays env k r some)
  rw [pending] at stays
  cases stays

/-- A turn with the timer armed panics if the timer has elapsed and the inner reader is dry. -/
theorem readLoop_delayed_panics {buf : ReadBuf} {turns : Nat} (delayed : s.delay.state = .delayed) :
    (readLoop (turns + 1)).wp env k (s, buf) fun r _ _ =>
      Panics (env.alarm s.delay.sleep.deadline k = true ∧ Dry env (k + 1) s.inner) False r := by
  rw [readLoop_delayed delayed]
  split
  · next elapsed =>
    have calm := Source.contract.calm env (k + 1) s.inner
    rw [wp_iff] at calm ⊢
    rw [← dry_iff]
    cases answer : (pollFillBuf env (k + 1) s.inner).result with
    | ok rem => exact .of_calm (calm_ok ()) (fun h => by cases h.2) id
    | err e => exact .of_calm (calm_err e) (fun h => by cases h.2) id
    | pending => exact .starved ⟨elapsed, rfl⟩ id
    | panicked m => exact absurd answer (calm m)
  · next running => exact .of_calm calm_pending (fun h => running h.1) id

/-- A turn with the timer idle panics if arming it does, or if the turn after it does. -/
theorem readLoop_idle_panics {buf : ReadBuf} (idle : s.delay.state = .idle) :
    (readLoop 2).wp env k (s, buf) fun r _ _ =>
      Panics (Starved env k s (.read buf)) (Overruns env k s (.read buf)) r := by
  rw [readLoop_idle idle]
  have calm := Source.contract.calm env k s.inner
  have shows := Source.contract.shows env k s.inner
  rw [wp_iff] at calm shows ⊢
  simp only [Starved, Overruns, idle, reduceCtorEq, false_and, true_and, false_or]
  generalize pollFillBuf env k s.inner = o at calm shows ⊢
  obtain ⟨r, inner, n⟩ := o
  cases r with
  | ok rem =>
    dsimp only
    split
    · next first =>
      split
      · next none => exact .of_calm (calm_ok ()) (fun h => h.2.2.1 none) fun h => h.2.2.1 none
      · next some =>
        split
        · next far => exact .overruns ⟨rfl, first, some, far⟩ fun h => h.2.2.2.1 far
        · next near =>
          refine wp_mono (readLoop_delayed_panics (by rfl)) fun r _ _ panics message => ?_
          rw [panics]
          refine or_congr (and_congr_left' ?_) (and_congr_left' ?_)
          · refine ⟨fun h => ⟨?_, first, some, near, h.1, h.2⟩, fun h => ⟨h.2.2.2.2.1, h.2.2.2.2.2⟩⟩
            exact congrArg Poll.ok (shows.symm.trans h.2.1)
          · exact iff_of_false id fun h => near h.2.2.2
    · next later => exact .of_calm (calm_ok ()) (fun h => later h.2.1) fun h => later h.2.1
  | err e => exact .of_calm (calm_err e) (fun h => by cases h.1) fun h => by cases h.1
  | pending => exact .of_calm calm_pending (fun h => by cases h.1) fun h => by cases h.1
  | panicked m => exact absurd rfl (calm m)

/-- **A poll panics exactly if it is starved or overruns.** -/
theorem call_panics (call : ReadCall) :
    call.poll.wp env k s fun r _ _ => Panics (Starved env k s call) (Overruns env k s call) r := by
  cases call with
  | read buf =>
    simp only [ReadCall.poll, wp_map, wp_lend]
    show (readLoop 2).wp env k (s, buf) _
    cases state : s.delay.state with
    | idle => exact wp_mono (readLoop_idle_panics state) fun _ _ _ panics => panics.map.map
    | delayed =>
      simp only [Starved, Overruns, state, reduceCtorEq, false_and, true_and, or_false]
      exact wp_mono (readLoop_delayed_panics state) fun _ _ _ panics => panics.map.map
  | fillBuf => exact .of_calm (Source.contract.calm env k s.inner) id id
  | consume amt => exact .of_calm (calm_ok []) id id

/-! ## Over whole runs -/

/-- While the timer runs, the inner reader holds unread bytes. -/
def Fed (s : DelayedReader T D) : Prop := s.delay.state = .delayed → buffered s.inner ≠ []

/-- The bytes the timer was armed for stay: no `consume` takes the last of them while it runs, and it
is not armed for an empty buffer. -/
def Undisturbed (env : World) (k : Nat) (s : DelayedReader T D) : ReadCall → Prop
  | .read _ =>
    s.delay.state = .idle → s.bufEmpty = true →
      (pollFillBuf env k s.inner).result ≠ .ok []
  | .fillBuf => True
  | .consume amt => s.delay.state = .delayed → amt < (buffered s.inner).length

instance : (call : ReadCall) → Decidable (Undisturbed env k s call)
  | .read _ => inferInstanceAs (Decidable (_ = _ → _ = _ → _ ≠ _))
  | .fillBuf => inferInstanceAs (Decidable True)
  | .consume _ => inferInstanceAs (Decidable (_ = _ → _ < _))

omit [Duration D] in
/-- With the timer idle nothing is asked of the inner reader. -/
theorem fed_of_idle (idle : s.delay.state = .idle) : Fed s := fun delayed => by
  rw [idle] at delayed
  cases delayed

/-- A turn with the timer armed leaves the reader fed. -/
theorem readLoop_delayed_fed {buf : ReadBuf} {turns : Nat} (delayed : s.delay.state = .delayed)
    (fed : Fed s) : (readLoop (turns + 1)).wp env k (s, buf) fun _ s' _ => Fed s'.1 := by
  rw [readLoop_delayed delayed]
  split
  · rw [wp_iff]
    cases (pollFillBuf env (k + 1) s.inner).result <;> exact fed_of_idle rfl
  · exact fed

/-- A turn with the timer idle leaves the reader fed, if it is not armed for an empty buffer. -/
theorem readLoop_idle_fed {buf : ReadBuf} (idle : s.delay.state = .idle)
    (burst : s.bufEmpty = true → (pollFillBuf env k s.inner).result ≠ .ok []) :
    (readLoop 2).wp env k (s, buf) fun _ s' _ => Fed s'.1 := by
  rw [readLoop_idle idle]
  have shows := Source.contract.shows env k s.inner
  rw [wp_iff] at shows ⊢
  generalize pollFillBuf env k s.inner = o at shows burst ⊢
  obtain ⟨r, inner, n⟩ := o
  cases r with
  | ok rem =>
    dsimp only
    split
    · next first =>
      have unread : buffered inner ≠ [] := by
        rw [shows]
        exact fun empty => burst first (congrArg Poll.ok empty)
      split
      · exact fed_of_idle idle
      · split
        · exact fun _ => unread
        · exact readLoop_delayed_fed rfl fun _ => unread
    · exact fed_of_idle idle
  | _ => exact fed_of_idle idle

/-- One undisturbed call leaves the reader fed. -/
theorem fed_step (fed : Fed s) (call : ReadCall) (undisturbed : Undisturbed env k s call) :
    call.poll.wp env k s fun _ s' _ => Fed s' := by
  cases call with
  | read buf =>
    simp only [ReadCall.poll, wp_map, wp_lend]
    show (readLoop 2).wp env k (s, buf) _
    cases state : s.delay.state with
    | idle => exact readLoop_idle_fed state (undisturbed state)
    | delayed => exact readLoop_delayed_fed state fed
  | fillBuf =>
    intro delayed
    have some := fed delayed
    have stays := wp_iff.mp (Source.contract.stays env k s.inner some)
    have shows := wp_iff.mp (Source.contract.shows env k s.inner)
    rw [stays] at shows
    show buffered (pollFillBuf env k s.inner).state ≠ []
    rw [shows]
    exact some
  | consume amt =>
    intro delayed
    have short := undisturbed delayed
    show buffered (AsyncBufRead.consume amt s.inner) ≠ []
    rw [Source.contract.consumes]
    intro empty
    have := List.drop_eq_nil_iff.mp empty
    omega

/-- A fed reader is not starved by an undisturbed call. -/
theorem fed_not_starved (fed : Fed s) (call : ReadCall) (undisturbed : Undisturbed env k s call) :
    ¬Starved env k s call := by
  intro starved
  cases call with
  | read buf =>
    rcases starved with ⟨delayed, -, dry⟩ | ⟨idle, empty, first, -⟩
    · exact fed delayed dry.1
    · exact undisturbed idle first empty
  | fillBuf => exact starved
  | consume amt => exact starved

/-- **When a delayed reader panics.** Over an inner reader that keeps its contract, no call of a run
fails an assertion of the adapter exactly if none finds the timer elapsed and the inner reader dry; no
call unwinds at all exactly if, besides, none finds a delay that leads past the last `Instant`. And the
assertions hold if the bytes each timer was armed for stay until it fires. -/
theorem calm_iff_unstarved (env : World) (k created : Nat) (inner : T) (delay : D)
    (run : List ReadCall) :
    ((reads (DelayedReader T D) env).Allowed
        (fun _ s call => Unreached ((reads (DelayedReader T D) env).step s call).1)
        ⟨k, new created inner delay⟩ run ↔
      (reads (DelayedReader T D) env).Allowed (fun _ s call => ¬Starved env s.moment s.state call)
        ⟨k, new created inner delay⟩ run) ∧
    (AllCalm (reads (DelayedReader T D) env) ⟨k, new created inner delay⟩ run ↔
      (reads (DelayedReader T D) env).Allowed
        (fun _ s call => ¬Starved env s.moment s.state call ∧ ¬Overruns env s.moment s.state call)
        ⟨k, new created inner delay⟩ run) ∧
    ((reads (DelayedReader T D) env).Allowed (fun _ s call => Undisturbed env s.moment s.state call)
        ⟨k, new created inner delay⟩ run →
      (reads (DelayedReader T D) env).Allowed
        (fun _ s call => Unreached ((reads (DelayedReader T D) env).step s call).1)
        ⟨k, new created inner delay⟩ run) := by
  have panics (s : Paced (DelayedReader T D)) (call : ReadCall) :
      Panics (Starved env s.moment s.state call) (Overruns env s.moment s.state call)
        ((reads (DelayedReader T D) env).step s call).1 := machine_step (call_panics call)
  refine ⟨?_, ?_, ?_⟩
  · exact Machine.AllowedFrom.congr (P := fun _ _ => True) (fun _ _ _ _ _ => trivial)
      (fun _ s call _ => (panics s call).unreached_iff) trivial
  · exact Machine.AllowedFrom.congr (P := fun _ _ => True) (fun _ _ _ _ _ => trivial)
      (fun _ s call _ => (panics s call).calm_iff) trivial
  · refine Machine.AllowedFrom.imp (P := fun _ s => Fed s.state) ?_ ?_ (fed_of_idle rfl)
    · exact fun _ s call fed undisturbed => machine_step (fed_step fed call undisturbed)
    · exact fun _ s call fed undisturbed =>
        (panics s call).unreached_iff.mpr (fed_not_starved fed call undisturbed)

/-- A clock stuck at zero under timers that elapse at moment three. -/
def noon : World := { World.still with alarm := fun _ k => decide (3 ≤ k) }

/-- Two bytes have arrived, and the source is not ready after them. -/
def burst : Arrivals := ⟨[1, 2], [none]⟩

/-- A run that lets the timer fire. -/
theorem calm_left_alone :
    (reads (DelayedReader Arrivals Nat) noon).Allowed
      (fun _ s call => Unreached ((reads (DelayedReader Arrivals Nat) noon).step s call).1)
      ⟨0, new 0 burst 5⟩ [.read ⟨[], 8⟩, .fillBuf, .consume 1, .read ⟨[], 8⟩, .read ⟨[], 8⟩] :=
  (calm_iff_unstarved noon 0 0 burst 5 _).2.2 (by decide)

/-- The failing run. The bytes a timer is armed for are taken through the buffered interface, and
the read that finds the timer elapsed panics. -/
theorem starved_read_panics :
    ((reads (DelayedReader Arrivals Nat) noon).run ⟨0, new 0 burst 5⟩
        [.read ⟨[], 8⟩, .fillBuf, .consume 2, .read ⟨[], 8⟩]).1.map Prod.snd =
        [.pending, .ok [1, 2], .ok [],
          .panicked "internal error: entered unreachable code: buffer can't be empty"] ∧
      ¬(reads (DelayedReader Arrivals Nat) noon).Allowed
        (fun _ s call => Unreached ((reads (DelayedReader Arrivals Nat) noon).step s call).1)
        ⟨0, new 0 burst 5⟩ [.read ⟨[], 8⟩, .fillBuf, .consume 2, .read ⟨[], 8⟩] := by
  decide

end DelayedReader

end Trixter
