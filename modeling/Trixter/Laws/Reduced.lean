import Trixter.Laws.Registry
import Trixter.Shutdowns

/-!
# The server's calls are those of `Shutdowns`

`reduced`: a run of the server is one of `Shutdowns`, with each task reduced to how far it has come. The
two have the same map and the same calls, with what these have replied, so what `Laws.Shutdowns` shows of
map and calls in every run is so in every run of the server.

An event is one step or none; a poll is a step when it ends the copy. `Shutdowns` sends to a receiver that
is there, the server to one that waits. A sender that a call has was used by nobody, so they find the same:
this is what the invariants of `Laws.Registry` are for. The bytes of the copies are not in `Shutdowns`,
and nothing is said of them.
-/

namespace Trixter

open Trixter.Lib Polling

variable {A B W G : Type}

/-- How far the task has come. -/
def Task.progress (t : Task A B W G) : Progress :=
  match t.res, t.cleaned with
  | none, _ => .copying
  | some _, false => .copied
  | some _, true => .cleaned

namespace Server

/-- A task, and what it is reduced to. -/
inductive Reduced : Option (Task A B W G) → Option Conn → Prop
  | new : Reduced none none
  | gone (id : ConnId) (errRx : Oneshot) : Reduced none (some ⟨id, .gone, errRx⟩)
  | here (t : Task A B W G) (errRx : Oneshot) (waits : errRx = .waiting ↔ t.errRx = some .waiting)
      (copying : t.res = none → t.cleaned = false) : Reduced (some t) (some ⟨t.id, t.progress, errRx⟩)

theorem Reduced.of_none {conn : Option Conn} (h : Reduced (none : Option (Task A B W G)) conn) :
    conn = none ∨ ∃ id errRx, conn = some ⟨id, .gone, errRx⟩ := by
  cases h with
  | new => exact .inl rfl
  | gone id errRx => exact .inr ⟨id, errRx, rfl⟩

theorem Reduced.of_some {t : Task A B W G} {conn : Option Conn} (h : Reduced (some t) conn) :
    ∃ errRx, conn = some ⟨t.id, t.progress, errRx⟩ ∧ (errRx = .waiting ↔ t.errRx = some .waiting) ∧
      (t.res = none → t.cleaned = false) := by
  cases h with
  | here _ errRx waits copying => exact ⟨errRx, rfl, waits, copying⟩

/-- The server, and what it is reduced to. -/
structure Reduces (s : Server A B W G) (a : Shutdowns) : Prop where
  connections : ∀ id, a.connections id = s.connections.lookup id
  conns : ∀ n, Reduced (s.tasks n) (a.conns n)
  fresh : ∀ n, s.next ≤ n → a.conns n = none
  calls : a.calls = s.calls

variable {s : Server A B W G} {a : Shutdowns} {n call : Nat} {id : ConnId} {reason : String}

namespace Reduces

theorem empty : Reduces (empty : Server A B W G) .empty :=
  ⟨fun _ => rfl, fun _ => .new, fun _ _ => rfl, rfl⟩

/-! ## Operations -/

theorem setTask (h : Reduces s a) (known : n < s.next) {t : Option (Task A B W G)} {conn : Conn}
    (same : Reduced t (some conn)) : Reduces (s.setTask n t) (a.setConn n conn) where
  connections := h.connections
  conns m := by
    show Reduced _ (Function.update a.conns n (some conn) m)
    by_cases eq : m = n
    · subst eq
      rwa [setTask_self, Function.update_self]
    · rw [setTask_other _ eq, Function.update_of_ne eq]
      exact h.conns m
  fresh m le := by
    show Function.update a.conns n (some conn) m = none
    rw [Function.update_of_ne (Nat.ne_of_gt (Nat.lt_of_lt_of_le known le))]
    exact h.fresh m le
  calls := h.calls

/-- A change of a task that it is not reduced to. -/
theorem setTask_same (h : Reduces s a) {t : Option (Task A B W G)} (same : Reduced t (a.conns n)) :
    Reduces (s.setTask n t) a where
  connections := h.connections
  conns m := by
    by_cases eq : m = n
    · subst eq
      rwa [setTask_self]
    · rw [setTask_other _ eq]
      exact h.conns m
  fresh := h.fresh
  calls := h.calls

theorem forget (h : Reduces s a) : Reduces (s.forget id) (a.forget id) where
  connections j := by
    show Function.update a.connections id none j = (Keyed.without id s.connections).lookup j
    by_cases eq : j = id
    · subst eq
      rw [Function.update_self, Keyed.lookup_without_self]
    · rw [Function.update_of_ne eq, Keyed.lookup_without_of_ne eq]
      exact h.connections j
  conns := h.conns
  fresh := h.fresh
  calls := h.calls

theorem setCall (h : Reduces s a) {c : Call} : Reduces (s.setCall call c) (a.setCall call c) where
  connections := h.connections
  conns := h.conns
  fresh := h.fresh
  calls := by
    show Function.update a.calls call c = Function.update s.calls call c
    rw [h.calls]

/-- A connection that is known has its number. -/
theorem lt_next (h : Reduces s a) {conn : Conn} (known : a.conns n = some conn) : n < s.next := by
  by_contra beyond
  rw [h.fresh n (Nat.le_of_not_lt beyond)] at known
  cases known

theorem conn_of_task (h : Reduces s a) {t : Task A B W G} (task : s.tasks n = some t) :
    ∃ errRx, a.conns n = some ⟨t.id, t.progress, errRx⟩ ∧ (errRx = .waiting ↔ t.errRx = some .waiting) ∧
      (t.res = none → t.cleaned = false) :=
  Reduced.of_some (task ▸ h.conns n)

theorem conn_of_none (h : Reduces s a) (task : s.tasks n = none) :
    a.conns n = none ∨ ∃ id errRx, a.conns n = some ⟨id, .gone, errRx⟩ :=
  Reduced.of_none (task ▸ h.conns n)

theorem hangUp (h : Reduces s a) : Reduces (s.hangUp n) (a.hangUp n) := by
  unfold Server.hangUp Shutdowns.hangUp
  cases task : s.tasks n with
  | none =>
    rcases h.conn_of_none task with known | ⟨id, errRx, known⟩
    · rw [known]
      exact h.setTask_same (by rw [known]; exact .new)
    · rw [known]
      exact h.setTask (h.lt_next known) (.gone _ _)
  | some t =>
    obtain ⟨errRx, known, -, copying⟩ := h.conn_of_task task
    have never : ∀ rx : Oneshot, rx.hangUp ≠ .waiting := by
      intro rx
      cases rx <;> rintro ⟨⟩
    rw [known]
    refine h.setTask (h.lt_next known) (.here (t.signal Oneshot.hangUp) _ ?_ copying)
    refine iff_of_false (never _) fun waiting => ?_
    obtain ⟨rx, -, hung⟩ := Option.map_eq_some_iff.mp (waiting : t.errRx.map Oneshot.hangUp = _)
    exact never rx hung

/-- A task that is there is not reduced to one that is gone. -/
theorem not_gone (t : Task A B W G) : t.progress ≠ .gone := by
  unfold Task.progress
  split <;> rintro ⟨⟩

/-- Where the receiver waits or is gone, both sends find the same. -/
theorem send (h : Reduces s a) (reason : String)
    (held : s.tasks n = none ∨ ∃ id, s.Listens id n) :
    (a.send n reason).1 = (s.send n (shutdownError reason)).1 ∧
      Reduces (s.send n (shutdownError reason)).2 (a.send n reason).2 := by
  unfold Server.send Shutdowns.send
  rcases held with task | ⟨id, t, task, -, waiting⟩
  · rcases h.conn_of_none task with known | ⟨id, errRx, known⟩
    · rw [task, known]
      exact ⟨rfl, h⟩
    · rw [task, known]
      exact ⟨rfl, h⟩
  · obtain ⟨errRx, known, waits, copying⟩ := h.conn_of_task task
    rw [task, known]
    dsimp only
    rw [if_pos waiting, if_neg (not_gone t), waits.mpr waiting]
    refine ⟨rfl, h.setTask (h.lt_next known) (.here (t.signal _) _ ?_ copying)⟩
    rw [Task.signal, waiting]
    exact iff_of_false (by rintro ⟨⟩) (by rintro ⟨⟩)

/-! ## Steps -/

theorem shutdownConnection (h : Reduces s a) :
    Reduces (s.shutdownConnection call id reason).2 (a.shutdown call id reason).2 := by
  unfold Server.shutdownConnection Shutdowns.shutdown Server.removeConnection
  rw [h.calls, h.connections]
  cases s.calls call with
  | idle =>
    cases s.connections.lookup id with
    | none => exact h.setCall
    | some tx => exact h.forget.setCall
  | _ => exact h

theorem shutdownAllConnections (h : Reduces s a) :
    Reduces (s.shutdownAllConnections call reason).2 (a.shutdownAll call reason).2 := by
  unfold Server.shutdownAllConnections Shutdowns.shutdownAll
  rw [h.calls]
  cases s.calls call with
  | idle => exact h.setCall
  | _ => exact h

theorem snapshot (h : Reduces s a) {ids : List ConnId} :
    Reduces (s.snapshot call ids).2 (a.snapshot call ids).2 := by
  unfold Server.snapshot Shutdowns.snapshot
  rw [h.calls]
  cases s.calls call with
  | iterating reason => exact h.setCall
  | _ => exact h

theorem advance (h : Reduces s a) (map : Registered s) :
    Reduces (s.advance call).2 (a.advance call).2 := by
  have held : ∀ {n}, n ∈ (s.calls call).hand → s.tasks n = none ∨ ∃ id, s.Listens id n :=
    fun mem => map.held _ ⟨call, mem⟩
  unfold Server.advance Shutdowns.advance Server.removeConnection
  rw [h.calls]
  cases c : s.calls call with
  | sending reason tx =>
    rw [c] at held
    obtain ⟨sent, sends⟩ := h.send reason (held (List.mem_singleton_self tx))
    dsimp only
    rw [sent]
    exact sends.setCall
  | removing reason ids connections =>
    cases ids with
    | nil => exact h.setCall
    | cons id ids =>
      dsimp only
      rw [h.connections]
      cases s.connections.lookup id with
      | none => exact h.setCall
      | some tx => exact h.forget.setCall
  | sendingAll reason connections failed =>
    cases connections with
    | nil => exact h.setCall
    | cons tx connections =>
      rw [c] at held
      obtain ⟨sent, sends⟩ := h.send reason (held List.mem_cons_self)
      dsimp only
      rw [sent]
      exact sends.setCall
  | _ => exact h

/-- An id that is not listed. -/
theorem forget_unlisted (h : Reduces s a) (unlisted : s.connections.lookup id = none) :
    Reduces s (a.forget id) where
  connections j := by
    show Function.update a.connections id none j = _
    by_cases eq : j = id
    · subst eq
      rw [Function.update_self, unlisted]
    · rw [Function.update_of_ne eq]
      exact h.connections j
  conns := h.conns
  fresh := h.fresh
  calls := h.calls

theorem cleanUp (h : Reduces s a) : Reduces (s.cleanUp n).2 (a.cleanUp n).2 := by
  unfold Server.cleanUp Shutdowns.cleanUp
  cases task : s.tasks n with
  | none =>
    rcases h.conn_of_none task with known | ⟨id, errRx, known⟩
    · rw [known]
      exact h
    · rw [known]
      exact h
  | some t =>
    obtain ⟨errRx, known, waits, -⟩ := h.conn_of_task task
    rw [known]
    obtain ⟨id, copying, timer, _ | res, _ | _⟩ := t
    · exact h
    · exact h
    · have cleaned := h.setTask (h.lt_next known)
        (.here ⟨id, copying, timer, some res, true⟩ errRx waits (by rintro ⟨⟩))
      show Reduces (discard id _) _
      unfold discard
      dsimp only [Task.progress]
      rw [h.connections, show (s.setTask n _).connections = s.connections from rfl]
      cases listed : s.connections.lookup id with
      | none => exact cleaned.forget_unlisted listed
      | some tx => exact cleaned.forget.hangUp
    · exact h

theorem leave (h : Reduces s a) : Reduces (s.leave n).2 (a.dropReceiver n).2 := by
  unfold Server.leave Shutdowns.dropReceiver
  cases task : s.tasks n with
  | none =>
    rcases h.conn_of_none task with known | ⟨id, errRx, known⟩
    · rw [known]
      exact h
    · rw [known]
      exact h
  | some t =>
    obtain ⟨errRx, known, -, -⟩ := h.conn_of_task task
    rw [known]
    obtain ⟨id, copying, timer, _ | res, _ | _⟩ := t
    · exact h
    · exact h
    · exact h
    · exact h.setTask (h.lt_next known) (.gone _ _)

/-- A new task under an id. -/
theorem add (h : Reduces s a) {t : Task A B W G} (same : t.id = id) (running : t.progress = .copying)
    (waits : t.errRx = some .waiting) (uncleaned : t.cleaned = false) :
    Reduces
      { ({ s with next := s.next + 1 }.setTask s.next (some t)).forget id with
        connections := Keyed.put id s.next s.connections }
      ({ a with connections := Function.update a.connections id (some s.next) }.setConn s.next
        ⟨id, .copying, .waiting⟩) where
  connections j := by
    show Function.update a.connections id (some s.next) j = _
    by_cases eq : j = id
    · subst eq
      rw [Function.update_self, Keyed.lookup_put_self]
    · rw [Function.update_of_ne eq, Keyed.lookup_put_of_ne eq]
      exact h.connections j
  conns m := by
    show Reduced (Function.update s.tasks s.next (some t) m) (Function.update a.conns s.next _ m)
    by_cases eq : m = s.next
    · rw [eq, Function.update_self, Function.update_self, ← same, ← running]
      exact .here t .waiting (iff_of_true rfl waits) fun _ => uncleaned
    · rw [Function.update_of_ne eq, Function.update_of_ne eq]
      exact h.conns m
  fresh m le := by
    show Function.update a.conns s.next _ m = none
    rw [Function.update_of_ne (Nat.ne_of_gt le)]
    exact h.fresh m (Nat.le_of_lt le)
  calls := h.calls

theorem insert (h : Reduces s a) {t : Task A B W G} (same : t.id = id) (running : t.progress = .copying)
    (waits : t.errRx = some .waiting) (uncleaned : t.cleaned = false) :
    Reduces (({ s with next := s.next + 1 }.setTask s.next (some t)).insert id s.next)
      (a.insert s.next id).2 := by
  have added := h.add same running waits uncleaned
  have old : ({ s with next := s.next + 1 }.setTask s.next (some t)).connections.lookup id =
      s.connections.lookup id := rfl
  unfold Server.insert Shutdowns.insert
  rw [h.fresh s.next (Nat.le_refl _), old, h.connections]
  cases s.connections.lookup id with
  | none => exact added
  | some tx => exact added.hangUp

/-- A poll that leaves the task copying, or ends its copy. -/
theorem poll (h : Reduces s a) {t t' : Task A B W G} (task : s.tasks n = some t) (running : t.res = none)
    (same : t'.id = t.id) (cleaned : t'.cleaned = t.cleaned)
    (waits : t'.errRx = some .waiting ↔ t.errRx = some .waiting) :
    Reduces (s.setTask n (some t')) a ∨ Reduces (s.setTask n (some t')) (a.copied n).2 := by
  obtain ⟨errRx, known, waits', copying⟩ := h.conn_of_task task
  have uncleaned : t'.cleaned = false := cleaned.trans (copying running)
  have before : t.progress = .copying := by
    rw [Task.progress, running]
  have kept : errRx = .waiting ↔ t'.errRx = some .waiting := waits'.trans waits.symm
  cases res : t'.res with
  | none =>
    have after : t'.progress = .copying := by
      rw [Task.progress, res]
    refine .inl (h.setTask_same ?_)
    rw [known, ← same, before, ← after]
    exact .here t' errRx kept fun _ => uncleaned
  | some r =>
    have after : t'.progress = .copied := by
      rw [Task.progress, res, uncleaned]
    refine .inr ?_
    unfold Shutdowns.copied
    rw [known, before]
    dsimp only
    refine h.setTask (h.lt_next known) ?_
    rw [← same, ← after]
    exact .here t' errRx kept fun _ => uncleaned

end Reduces

/-! ## Runs -/

variable [Peer W] [SmallRng G] {there : Transfer A (Shutdowner (Pipeline W G)) (Pipeline W G)}
  {back : Transfer B (Pipeline W G) (Shutdowner (Pipeline W G))} {env : World} {k : Nat}
  (cfg : Config G) {misses : Nat → Bool}

/-- **One event** is one step at most. -/
theorem handle_reduces (copiesThere : there.Copies) (copiesBack : back.Copies) (ev : Event W)
    (inv : Invariants there back env k s misses) (h : Reduces s a) :
    (handle cfg there back ev).wp env k s fun _ s' _ =>
      ∃ steps, Reduces s' (Shutdowns.machine.run a steps).2 := by
  cases ev with
  | accept id downstream upstream knobs =>
    refine accept_wp.mpr ⟨[.insert s.next id], ?_⟩
    exact h.insert (t := newTask cfg there back env k id downstream upstream knobs) rfl rfl rfl rfl
  | shutdown call id reason => exact ⟨[.shutdown call id reason], h.shutdownConnection⟩
  | shutdownAll call reason => exact ⟨[.shutdownAll call reason], h.shutdownAllConnections⟩
  | snapshot call ids => exact ⟨[.snapshot call ids], h.snapshot⟩
  | advance call => exact ⟨[.advance call], h.advance inv.registered⟩
  | poll n =>
    by_cases idle : ∀ t, s.tasks n = some t → t.res ≠ none
    · refine wp_mono (pollTask_silent there back env k idle) ?_
      rintro _ _ _ ⟨-, rfl⟩
      exact ⟨[], h⟩
    · simp only [not_forall, not_not] at idle
      obtain ⟨t, task, running⟩ := idle
      refine wp_mono (pollTask_stays copiesThere copiesBack task running (inv.booked n t task)) ?_
      rintro _ _ _ ⟨-, t', -, rfl, -, same, cleaned, waits⟩
      rcases h.poll task running same cleaned waits with copying | copied
      · exact ⟨[], copying⟩
      · exact ⟨[.copied n], copied⟩
  | cleanUp n => exact ⟨[.cleanUp n], h.cleanUp⟩
  | leave n => exact ⟨[.dropReceiver n], h.leave⟩

variable (env) in
/-- **The server's shutdowns are those of `Shutdowns`.** After every event of every run there is a run of
`Shutdowns` with the same map, the same calls, and each task as far as it is. -/
theorem reduced (copiesThere : there.Copies) (copiesBack : back.Copies) (k : Nat)
    (events : List (Event W)) (fresh : ∀ ev ∈ events, FreshSockets ev) :
    (machine cfg there back env).Throughout
      (fun _ s => ∃ steps, Reduces s.state (Shutdowns.machine.run .empty steps).2) ⟨k, empty⟩
      events := by
  have known : (machine cfg there back env).Allowed (fun _ _ ev => FreshSockets ev) ⟨k, empty⟩
      events := Machine.allowedFrom_of_mem fresh
  have step : ∀ (s : Paced (Server A B W G)) (ev : Event W), FreshSockets ev →
      (∃ misses, Invariants there back env s.moment s.state misses) ∧
        (∃ steps, Reduces s.state (Shutdowns.machine.run .empty steps).2) →
      (∃ misses, Invariants there back env ((machine cfg there back env).step s ev).2.moment
          ((machine cfg there back env).step s ev).2.state misses) ∧
        ∃ steps, Reduces ((machine cfg there back env).step s ev).2.state
          (Shutdowns.machine.run .empty steps).2 := by
    rintro s ev fresh ⟨⟨misses, inv⟩, steps, h⟩
    refine ⟨⟨_, (machine_step (handle_invariants cfg copiesThere copiesBack fresh inv)).1⟩, ?_⟩
    obtain ⟨more, reduces⟩ := machine_step (handle_reduces cfg copiesThere copiesBack ev inv h)
    refine ⟨steps ++ more, ?_⟩
    rwa [Machine.run_append]
  refine .imp (P := fun _ s => (∃ misses, Invariants there back env s.moment s.state misses) ∧
    ∃ steps, Reduces s.state (Shutdowns.machine.run .empty steps).2) ?_ ?_ ?_ known
  · exact fun _ s ev h fresh => step s ev fresh h
  · exact fun _ s ev h fresh => (step s ev fresh h).2
  · exact ⟨⟨_, invariants_empty⟩, [], .empty⟩

end Server

end Trixter
