import Trixter.Shutdowns

/-!
# Every connection is signalled at most once and none is forgotten

`accounts`. The marks of a run tell what has happened to each sender. A sender is in the map, or in the
hands of the one call that took its entry, or that call has used it, or its own task has dropped it:
`Life` says so of every connection in every state. An entry that was there when a `shutdown_all` began has
left the map when it replies, though a call that took it meanwhile may still have to send. Every step of a
call is its own here, but a step of the map is one; the locks inside of it are not modelled.
-/

namespace Trixter

open Trixter.Lib

namespace Shutdowns

/-! ## Marks -/

/-- What has happened in a run. -/
def log (past : History Step (List Mark)) : List Mark := past.flatMap Prod.snd

/-- What has happened to one sender. -/
def about (n : Nat) (marks : List Mark) : List Mark := marks.filter fun mark => mark.tx = n

/-- Who took an entry out. -/
def takers (marks : List Mark) : List Party :=
  marks.filterMap fun
    | .took who _ => some who
    | _ => none

/-- Which calls sent, and whether it worked. -/
def uses (marks : List Mark) : List (Nat × Bool) :=
  marks.filterMap fun
    | .used call _ sent => some (call, sent)
    | _ => none

theorem log_append (past : History Step (List Mark)) (st : Step) (marks : List Mark) :
    log (past ++ [(st, marks)]) = log past ++ marks := by
  simp [log]

theorem about_append (n : Nat) (l marks : List Mark) :
    about n (l ++ marks) = about n l ++ about n marks := List.filter_append ..

theorem mem_about {n : Nat} {l : List Mark} {mark : Mark} :
    mark ∈ about n l ↔ mark ∈ l ∧ mark.tx = n := by
  rw [about, List.mem_filter, decide_eq_true_iff]

/-- Marks of one sender follow its own, -/
theorem about_append_self {n : Nat} {l marks : List Mark} (own : ∀ mark ∈ marks, mark.tx = n) :
    about n (l ++ marks) = about n l ++ marks := by
  rw [about_append]
  congr 1
  rw [about, List.filter_eq_self]
  intro mark mem
  exact decide_eq_true (own mark mem)

/-- and do not concern the others. -/
theorem about_append_other {n : Nat} {l marks : List Mark} (other : ∀ mark ∈ marks, mark.tx ≠ n) :
    about n (l ++ marks) = about n l := by
  have none : about n marks = [] := by
    rw [about, List.filter_eq_nil_iff]
    intro mark mem same
    exact other mark mem (of_decide_eq_true same)
  rw [about_append, none, List.append_nil]

/-! ## What is watched -/

/-- The map as it was when each `shutdown_all` began, and the keys that have been in it ever since. -/
structure Watch where
  before : Nat → Option (ConnId → Option Nat)
  steady : Nat → ConnId → Prop

namespace Watch

/-- Nothing has begun. -/
def none : Watch := ⟨fun _ => .none, fun _ _ => False⟩

end Watch

/-- The step begins this `shutdown_all`. -/
def Begins (s : Shutdowns) (call : Nat) : Step → Prop
  | .shutdownAll c _ => c = call ∧ s.calls call = .idle
  | _ => False

instance (s : Shutdowns) (call : Nat) : (st : Step) → Decidable (Begins s call st)
  | .shutdownAll _ _ => inferInstanceAs (Decidable (_ ∧ _))
  | .insert _ _ => inferInstanceAs (Decidable False)
  | .copied _ => inferInstanceAs (Decidable False)
  | .cleanUp _ => inferInstanceAs (Decidable False)
  | .dropReceiver _ => inferInstanceAs (Decidable False)
  | .shutdown _ _ _ => inferInstanceAs (Decidable False)
  | .snapshot _ _ => inferInstanceAs (Decidable False)
  | .advance _ => inferInstanceAs (Decidable False)

/-- What is watched, after a step. -/
def watch (w : Watch) (s : Shutdowns) (st : Step) : Watch where
  before call := if Begins s call st then some s.connections else w.before call
  steady call id := (Begins s call st ∨ w.steady call id) ∧ ((s.step st).2.connections id).isSome

/-- The machine with what is watched. -/
def watched : Machine (Shutdowns × Watch) Step (List Mark) := machine.watched watch

/-- What the run may rely on: a task draws an id that no other has drawn, and an iteration over the
map yields every key that was there all along. -/
def Permitted (s : Shutdowns × Watch) : Step → Prop
  | .insert n id => s.1.conns n = none → ∀ m conn, s.1.conns m = some conn → conn.id ≠ id
  | .snapshot call ids => ∀ id, s.2.steady call id → id ∈ ids
  | _ => True

/-- The calls and tasks have accounted for every sender, as the marks have it. -/
structure Accounted (marks : List Mark) (s : Shutdowns × Watch) : Prop where
  /-- An entry that has left the map was taken out by exactly one party, -/
  once : ∀ n conn, s.1.conns n = some conn →
    if s.1.connections conn.id = some n then takers (about n marks) = []
    else ∃ who, takers (about n marks) = [who]
  /-- and its sender is used at most once, by the call that took it. -/
  user : ∀ n, uses (about n marks) = [] ∨
    ∃ call sent, takers (about n marks) = [.call call] ∧ uses (about n marks) = [(call, sent)]
  /-- An entry that was there when a `shutdown_all` began is gone when it has replied. Its own task
  took it, or a call that has used its sender by the time it replies itself. -/
  swept : ∀ call before res, s.2.before call = some before → s.1.calls call = .replied res →
    ∀ id n, before id = some n → s.1.connections id = none ∧
      (takers (about n marks) = [.task n] ∨
        ∃ taker, takers (about n marks) = [.call taker] ∧
          ∀ res, s.1.calls taker = .replied res →
            ∃ sent, uses (about n marks) = [(taker, sent)])
  /-- The sender of a task that still copies has not been dropped. -/
  copying : ∀ n conn, s.1.conns n = some conn → conn.progress = .copying → .dropped n ∉ marks
  /-- A `shutdown_all` that has replied has used every sender it took, -/
  thorough : ∀ call before res, s.2.before call = some before → s.1.calls call = .replied res →
    ∀ n, takers (about n marks) = [.call call] → ∃ sent, uses (about n marks) = [(call, sent)]
  /-- and it replies that it succeeded exactly if all of them did. -/
  replies : ∀ call before res, s.2.before call = some before → s.1.calls call = .replied res →
    (res = .ok .accepted ∨ res = .error .internal) ∧
      (res = .ok .accepted ↔ ∀ n sent, .used call n sent ∈ marks → sent = true)
  /-- A task takes no entry but its own. -/
  own : ∀ m n, .took (.task m) n ∈ marks → m = n

/-! ## The life of a sender -/

/-- The connection is the same, and its task has not gone back to copying. -/
inductive Kin : Option Conn → Option Conn → Prop where
  | none : Kin none none
  | some {conn conn' : Conn} (id : conn'.id = conn.id)
      (stays : conn.progress ≠ .copying → conn'.progress ≠ .copying) : Kin (some conn) (some conn')

theorem Kin.refl : (conn : Option Conn) → Kin conn conn
  | .none => .none
  | .some _ => .some rfl fun h => h

/-- A connection that was known is, -/
theorem Kin.after {before after : Option Conn} {conn : Conn} (kin : Kin before after)
    (known : before = Option.some conn) : ∃ conn', after = Option.some conn' ∧ conn'.id = conn.id ∧
      (conn.progress ≠ .copying → conn'.progress ≠ .copying) := by
  cases kin with
  | none => cases known
  | some id stays =>
    cases known
    exact ⟨_, rfl, id, stays⟩

/-- and one that is known was. -/
theorem Kin.before {before after : Option Conn} {conn : Conn} (kin : Kin before after)
    (known : after = Option.some conn) : ∃ conn', before = Option.some conn' ∧ conn'.id = conn.id := by
  cases kin with
  | none => cases known
  | some id stays =>
    cases known
    exact ⟨_, rfl, id.symm⟩

theorem Kin.new {before after : Option Conn} (kin : Kin before after) (new : before = Option.none) :
    after = Option.none := by
  cases kin with
  | none => rfl
  | some id stays => cases new

/-- The call holds the sender. -/
def Holds (s : Shutdowns) (n call : Nat) : Prop := n ∈ (s.calls call).hand

/-- The life of a sender so far: its marks, and where it is. -/
inductive Life (s : Shutdowns) (n : Nat) : List Mark → Prop where
  | unlisted (new : s.conns n = none) (free : ∀ call, ¬Holds s n call) : Life s n []
  | listed (conn : Conn) (known : s.conns n = some conn) (here : s.connections conn.id = some n)
      (free : ∀ call, ¬Holds s n call) : Life s n []
  | held (conn : Conn) (call : Nat) (known : s.conns n = some conn)
      (away : s.connections conn.id ≠ some n) (held : ∀ c, Holds s n c ↔ c = call) :
      Life s n [.took (.call call) n]
  | used (conn : Conn) (call : Nat) (sent : Bool) (known : s.conns n = some conn)
      (away : s.connections conn.id ≠ some n) (free : ∀ call, ¬Holds s n call) :
      Life s n [.took (.call call) n, .used call n sent]
  | dropped (conn : Conn) (known : s.conns n = some conn) (away : s.connections conn.id ≠ some n)
      (free : ∀ call, ¬Holds s n call) (ended : conn.progress ≠ .copying) :
      Life s n [.took (.task n) n, .dropped n]

variable {s s' : Shutdowns} {n call : Nat} {marks : List Mark}

theorem holds_congr (hand : ∀ call, (s'.calls call).hand = (s.calls call).hand) (n call : Nat) :
    Holds s' n call ↔ Holds s n call := by
  unfold Holds
  rw [hand]

/-- A step that does not concern a sender leaves its life as it is. -/
theorem Life.frame (kin : Kin (s.conns n) (s'.conns n))
    (entry : ∀ id, s'.connections id = some n ↔ s.connections id = some n)
    (hand : ∀ call, Holds s' n call ↔ Holds s n call) (life : Life s n marks) :
    Life s' n marks := by
  have free : (∀ call, ¬Holds s n call) → ∀ call, ¬Holds s' n call := by
    intro free call holds
    exact free call ((hand call).mp holds)
  cases life with
  | unlisted new none => exact .unlisted (kin.new new) (free none)
  | listed conn known here none =>
    obtain ⟨conn', known', id, -⟩ := kin.after known
    exact .listed conn' known' (id ▸ (entry _).mpr here) (free none)
  | held conn call known away held =>
    obtain ⟨conn', known', id, -⟩ := kin.after known
    refine .held conn' call known' ?_ fun c => (hand c).trans (held c)
    rw [id]
    exact fun here => away ((entry _).mp here)
  | used conn call sent known away none =>
    obtain ⟨conn', known', id, -⟩ := kin.after known
    refine .used conn' call sent known' ?_ (free none)
    rw [id]
    exact fun here => away ((entry _).mp here)
  | dropped conn known away none ended =>
    obtain ⟨conn', known', id, stays⟩ := kin.after known
    refine .dropped conn' known' ?_ (free none) (stays ended)
    rw [id]
    exact fun here => away ((entry _).mp here)

/-- A sender in somebody's hands was taken by them, and by nobody else. -/
theorem Life.of_holds (life : Life s n marks) (holds : Holds s n call) :
    marks = [.took (.call call) n] ∧ (∀ c, Holds s n c ↔ c = call) ∧
      ∃ conn, s.conns n = some conn ∧ s.connections conn.id ≠ some n := by
  cases life with
  | unlisted new free => exact absurd holds (free call)
  | listed conn known here free => exact absurd holds (free call)
  | held conn c known away held =>
    obtain rfl := (held call).mp holds
    exact ⟨rfl, held, conn, known, away⟩
  | used conn c sent known away free => exact absurd holds (free call)
  | dropped conn known away free ended => exact absurd holds (free call)

/-- A sender in the map has no mark. -/
theorem Life.of_here {conn : Conn} (life : Life s n marks) (known : s.conns n = some conn)
    (here : s.connections conn.id = some n) : marks = [] ∧ ∀ call, ¬Holds s n call := by
  have same : ∀ conn', s.conns n = some conn' → conn' = conn := by
    intro conn' known'
    rw [known] at known'
    exact (Option.some.inj known').symm
  cases life with
  | unlisted new free => exact ⟨rfl, free⟩
  | listed conn' known' here' free => exact ⟨rfl, free⟩
  | held conn' call known' away held =>
    rw [same conn' known'] at away
    exact absurd here away
  | used conn' call sent known' away free =>
    rw [same conn' known'] at away
    exact absurd here away
  | dropped conn' known' away free ended =>
    rw [same conn' known'] at away
    exact absurd here away

/-- A task that has not listed itself has no mark. -/
theorem Life.of_new (life : Life s n marks) (new : s.conns n = none) :
    marks = [] ∧ ∀ call, ¬Holds s n call := by
  have nobody : ∀ conn, s.conns n ≠ some conn := by
    intro conn known
    rw [new] at known
    cases known
  cases life with
  | unlisted new free => exact ⟨rfl, free⟩
  | listed conn known here free => exact absurd known (nobody conn)
  | held conn call known away held => exact absurd known (nobody conn)
  | used conn call sent known away free => exact absurd known (nobody conn)
  | dropped conn known away free ended => exact absurd known (nobody conn)

/-! ## What a step does with the senders -/

/-- All that a step can do with the senders. -/
inductive Moved (s s' : Shutdowns) : List Mark → Prop where
  | still (kin : ∀ n, Kin (s.conns n) (s'.conns n)) (map : s'.connections = s.connections)
      (hand : ∀ call, (s'.calls call).hand = (s.calls call).hand) : Moved s s' []
  | listed (n : Nat) (conn : Conn) (new : s.conns n = none)
      (fresh : ∀ m conn', s.conns m = some conn' → conn'.id ≠ conn.id)
      (known : s'.conns n = some conn) (kin : ∀ m, m ≠ n → Kin (s.conns m) (s'.conns m))
      (map : s'.connections = Function.update s.connections conn.id (some n))
      (hand : ∀ call, (s'.calls call).hand = (s.calls call).hand) : Moved s s' []
  | taken (call tx : Nat) (id : ConnId) (here : s.connections id = some tx)
      (kin : ∀ n, Kin (s.conns n) (s'.conns n))
      (map : s'.connections = Function.update s.connections id none)
      (hand : (s'.calls call).hand = (s.calls call).hand ++ [tx])
      (others : ∀ c, c ≠ call → (s'.calls c).hand = (s.calls c).hand) :
      Moved s s' [.took (.call call) tx]
  | used (call tx : Nat) (sent : Bool) (kin : ∀ n, Kin (s.conns n) (s'.conns n))
      (map : s'.connections = s.connections)
      (hand : (s.calls call).hand = tx :: (s'.calls call).hand)
      (others : ∀ c, c ≠ call → (s'.calls c).hand = (s.calls c).hand) :
      Moved s s' [.used call tx sent]
  | dropped (n : Nat) (id : ConnId) (here : s.connections id = some n)
      (ended : ∀ conn, s'.conns n = some conn → conn.progress ≠ .copying)
      (kin : ∀ n, Kin (s.conns n) (s'.conns n))
      (map : s'.connections = Function.update s.connections id none)
      (hand : ∀ call, (s'.calls call).hand = (s.calls call).hand) :
      Moved s s' [.took (.task n) n, .dropped n]

/-- Each entry is the one of its task, ids are unique, every sender has a life, and no call holds a
sender twice. -/
structure Custody (marks : List Mark) (s : Shutdowns) : Prop where
  known : ∀ id n, s.connections id = some n → ∃ conn, s.conns n = some conn ∧ conn.id = id
  unique : ∀ m n conn conn', s.conns m = some conn → s.conns n = some conn' → conn.id = conn'.id →
    m = n
  life : ∀ n, Life s n (about n marks)
  distinct : ∀ call, (s.calls call).hand.Nodup

namespace Custody

/-- An entry is under one key. -/
theorem key (h : Custody marks s) {id id' : ConnId} (here : s.connections id = some n)
    (here' : s.connections id' = some n) : id = id' := by
  obtain ⟨conn, known, rfl⟩ := h.known id n here
  obtain ⟨conn', known', rfl⟩ := h.known id' n here'
  rw [known] at known'
  cases known'
  rfl

/-- Where the connections are the ones from before, ids are as they were. -/
theorem unique_of_kin (h : Custody marks s) (kin : ∀ n, Kin (s.conns n) (s'.conns n)) :
    ∀ m n conn conn', s'.conns m = some conn → s'.conns n = some conn' → conn.id = conn'.id →
      m = n := by
  intro m n conn conn' known known' same
  obtain ⟨before, known, id⟩ := (kin m).before known
  obtain ⟨before', known', id'⟩ := (kin n).before known'
  exact h.unique m n before before' known known' (id.trans (same.trans id'.symm))

/-- Where entries only leave the map, each entry is still the one of its task. -/
theorem known_of_kin (h : Custody marks s) (kin : ∀ n, Kin (s.conns n) (s'.conns n))
    (sub : ∀ id n, s'.connections id = some n → s.connections id = some n) :
    ∀ id n, s'.connections id = some n → ∃ conn, s'.conns n = some conn ∧ conn.id = id := by
  intro id n here
  obtain ⟨conn, known, rfl⟩ := h.known id n (sub id n here)
  obtain ⟨conn', known', same, -⟩ := (kin n).after known
  exact ⟨conn', known', same⟩

theorem forget_sub {id : ConnId} (map : s'.connections = Function.update s.connections id none) :
    ∀ id' n, s'.connections id' = some n → s.connections id' = some n := by
  intro id' n here
  rw [map] at here
  by_cases same : id' = id
  · rw [same, Function.update_self] at here
    cases here
  · rwa [Function.update_of_ne same] at here

/-- An entry that leaves the map leaves the others where they are. -/
theorem forget_others {id : ConnId} {tx : Nat} (here : s.connections id = some tx)
    (map : s'.connections = Function.update s.connections id none) (ne : n ≠ tx) :
    ∀ id', s'.connections id' = some n ↔ s.connections id' = some n := by
  intro id'
  refine ⟨forget_sub map id' n, fun here' => ?_⟩
  have other : id' ≠ id := by
    rintro rfl
    rw [here] at here'
    exact ne (Option.some.inj here').symm
  rw [map, Function.update_of_ne other]
  exact here'

/-- An entry that leaves the map is in it under no key. -/
theorem forget_away (h : Custody marks s) {id : ConnId} {tx : Nat} (here : s.connections id = some tx)
    (map : s'.connections = Function.update s.connections id none) (id' : ConnId) :
    s'.connections id' ≠ some tx := by
  intro still
  obtain rfl := h.key here (forget_sub map id' tx still)
  rw [map, Function.update_self] at still
  cases still

/-- A connection under a fresh id keeps ids unique, -/
theorem unique_of_fresh (h : Custody marks s) {conn : Conn}
    (fresh : ∀ m conn', s.conns m = some conn' → conn'.id ≠ conn.id)
    (known : s'.conns n = some conn) (kin : ∀ m, m ≠ n → Kin (s.conns m) (s'.conns m)) :
    ∀ m m' conn₁ conn₂, s'.conns m = some conn₁ → s'.conns m' = some conn₂ →
      conn₁.id = conn₂.id → m = m' := by
  have back : ∀ m conn', s'.conns m = some conn' → (m = n ∧ conn' = conn) ∨
      ∃ before, s.conns m = some before ∧ before.id = conn'.id := by
    intro m conn' known'
    by_cases same : m = n
    · rw [same, known] at known'
      exact .inl ⟨same, (Option.some.inj known').symm⟩
    · exact .inr ((kin m same).before known')
  intro m m' conn₁ conn₂ known₁ known₂ same
  rcases back m conn₁ known₁ with ⟨rfl, rfl⟩ | ⟨before₁, first, id₁⟩
  · rcases back m' conn₂ known₂ with ⟨rfl, -⟩ | ⟨before₂, second, id₂⟩
    · rfl
    · exact absurd (id₂.trans same.symm) (fresh m' before₂ second)
  · rcases back m' conn₂ known₂ with ⟨rfl, rfl⟩ | ⟨before₂, second, id₂⟩
    · exact absurd (id₁.trans same) (fresh m before₁ first)
    · exact h.unique m m' before₁ before₂ first second (id₁.trans (same.trans id₂.symm))

/-- each entry the one of its task, -/
theorem known_of_fresh (h : Custody marks s) {conn : Conn} (new : s.conns n = none)
    (known : s'.conns n = some conn) (kin : ∀ m, m ≠ n → Kin (s.conns m) (s'.conns m))
    (map : s'.connections = Function.update s.connections conn.id (some n)) :
    ∀ id m, s'.connections id = some m → ∃ conn, s'.conns m = some conn ∧ conn.id = id := by
  intro id m here
  rw [map] at here
  by_cases same : id = conn.id
  · rw [same, Function.update_self] at here
    cases here
    exact ⟨conn, known, same.symm⟩
  · rw [Function.update_of_ne same] at here
    obtain ⟨conn', known', rfl⟩ := h.known id m here
    have ne : m ≠ n := by
      rintro rfl
      rw [new] at known'
      cases known'
    obtain ⟨conn'', known'', same', -⟩ := (kin m ne).after known'
    exact ⟨conn'', known'', same'⟩

/-- and the other entries where they are. -/
theorem fresh_others (h : Custody marks s) {conn : Conn} {m : Nat}
    (fresh : ∀ m conn', s.conns m = some conn' → conn'.id ≠ conn.id)
    (map : s'.connections = Function.update s.connections conn.id (some n)) (ne : m ≠ n)
    (id : ConnId) : s'.connections id = some m ↔ s.connections id = some m := by
  rw [map]
  by_cases key : id = conn.id
  · rw [key, Function.update_self]
    constructor
    · intro here
      exact absurd (Option.some.inj here).symm ne
    · intro here
      obtain ⟨conn', known', id⟩ := h.known _ m here
      exact absurd id (fresh m conn' known')
  · rw [Function.update_of_ne key]

/-- Where a step concerns one sender, the lives of the others go on as they were. -/
theorem life_of_one (h : Custody marks s) (tx : Nat) {out : List Mark}
    (own : ∀ mark ∈ out, mark.tx = tx) (kin : ∀ m, m ≠ tx → Kin (s.conns m) (s'.conns m))
    (entry : ∀ m, m ≠ tx → ∀ id, s'.connections id = some m ↔ s.connections id = some m)
    (hand : ∀ m, m ≠ tx → ∀ call, Holds s' m call ↔ Holds s m call)
    (self : Life s' tx (about tx marks ++ out)) (m : Nat) : Life s' m (about m (marks ++ out)) := by
  by_cases same : m = tx
  · rw [same, about_append_self own]
    exact self
  · rw [about_append_other fun mark mem eq => same (eq.symm.trans (own mark mem))]
    exact (h.life m).frame (kin m same) (entry m same) (hand m same)

/-- Nothing of the senders moves. -/
theorem still (h : Custody marks s) (kin : ∀ n, Kin (s.conns n) (s'.conns n))
    (map : s'.connections = s.connections)
    (hand : ∀ call, (s'.calls call).hand = (s.calls call).hand) : Custody marks s' where
  known := h.known_of_kin kin fun id n here => map ▸ here
  unique := h.unique_of_kin kin
  life n := (h.life n).frame (kin n) (fun id => by rw [map]) (holds_congr hand n)
  distinct call := by
    rw [hand]
    exact h.distinct call

/-- A new task lists its sender. -/
theorem listed (h : Custody marks s) {n : Nat} {conn : Conn} (new : s.conns n = none)
    (fresh : ∀ m conn', s.conns m = some conn' → conn'.id ≠ conn.id)
    (known : s'.conns n = some conn) (kin : ∀ m, m ≠ n → Kin (s.conns m) (s'.conns m))
    (map : s'.connections = Function.update s.connections conn.id (some n))
    (hand : ∀ call, (s'.calls call).hand = (s.calls call).hand) : Custody (marks ++ []) s' := by
  refine ⟨h.known_of_fresh new known kin map, h.unique_of_fresh fresh known kin, ?_, ?_⟩
  · refine h.life_of_one n nofun kin (fun m ne => h.fresh_others fresh map ne)
      (fun m _ => holds_congr hand m) ?_
    obtain ⟨nil, free⟩ := (h.life n).of_new new
    rw [nil]
    refine .listed conn known (by rw [map, Function.update_self]) ?_
    intro call held
    exact free call ((holds_congr hand n call).mp held)
  · intro call
    rw [hand]
    exact h.distinct call

/-- A call takes a sender out of the map. -/
theorem taken (h : Custody marks s) {call tx : Nat} {id : ConnId} (here : s.connections id = some tx)
    (kin : ∀ n, Kin (s.conns n) (s'.conns n))
    (map : s'.connections = Function.update s.connections id none)
    (hand : (s'.calls call).hand = (s.calls call).hand ++ [tx])
    (others : ∀ c, c ≠ call → (s'.calls c).hand = (s.calls c).hand) :
    Custody (marks ++ [.took (.call call) tx]) s' := by
  obtain ⟨conn, known, rfl⟩ := h.known id tx here
  obtain ⟨conn', known', -⟩ := (kin tx).after known
  obtain ⟨nil, free⟩ := (h.life tx).of_here known here
  have holds : ∀ m c, Holds s' m c ↔ Holds s m c ∨ (m = tx ∧ c = call) := by
    intro m c
    unfold Holds
    by_cases same : c = call
    · rw [same, hand, List.mem_append, List.mem_singleton, and_iff_left rfl]
    · rw [others c same, or_iff_left fun both => same both.2]
  refine ⟨h.known_of_kin kin (forget_sub map), h.unique_of_kin kin, ?_, ?_⟩
  · refine h.life_of_one tx (by simp [Mark.tx]) (fun m _ => kin m)
      (fun m ne => forget_others here map ne) ?_ ?_
    · intro m ne c
      rw [holds, or_iff_left fun both => ne both.1]
    · rw [nil]
      refine .held conn' call known' (h.forget_away here map _) fun c => ?_
      rw [holds, or_iff_right (free c), and_iff_right rfl]
  · intro c
    by_cases same : c = call
    · rw [same, hand]
      exact (h.distinct call).append (List.nodup_singleton tx)
        (List.disjoint_singleton.mpr (free call))
    · rw [others c same]
      exact h.distinct c

/-- A call uses the next sender in its hands. -/
theorem used (h : Custody marks s) {call tx : Nat} (sent : Bool)
    (kin : ∀ n, Kin (s.conns n) (s'.conns n)) (map : s'.connections = s.connections)
    (hand : (s.calls call).hand = tx :: (s'.calls call).hand)
    (others : ∀ c, c ≠ call → (s'.calls c).hand = (s.calls c).hand) :
    Custody (marks ++ [.used call tx sent]) s' := by
  have held : Holds s tx call := by
    unfold Holds
    rw [hand]
    exact List.mem_cons_self
  obtain ⟨taken, only, conn, known, away⟩ := (h.life tx).of_holds held
  obtain ⟨conn', known', id, -⟩ := (kin tx).after known
  have distinct := h.distinct call
  rw [hand, List.nodup_cons] at distinct
  refine ⟨h.known_of_kin kin fun id n here => map ▸ here, h.unique_of_kin kin, ?_, ?_⟩
  · refine h.life_of_one tx (by simp [Mark.tx]) (fun m _ => kin m)
      (fun m _ id => by rw [map]) ?_ ?_
    · intro m ne c
      unfold Holds
      by_cases same : c = call
      · rw [same, hand, List.mem_cons, or_iff_right ne]
      · rw [others c same]
    · rw [taken]
      refine .used conn' call sent known' ?_ ?_
      · rw [map, id]
        exact away
      · intro c still
        by_cases same : c = call
        · rw [same] at still
          exact distinct.1 still
        · unfold Holds at still
          rw [others c same] at still
          exact same ((only c).mp still)
  · intro c
    by_cases same : c = call
    · rw [same]
      exact distinct.2
    · rw [others c same]
      exact h.distinct c

/-- A task that has ended takes its own sender out and drops it. -/
theorem dropped (h : Custody marks s) {n : Nat} {id : ConnId} (here : s.connections id = some n)
    (ended : ∀ conn, s'.conns n = some conn → conn.progress ≠ .copying)
    (kin : ∀ n, Kin (s.conns n) (s'.conns n))
    (map : s'.connections = Function.update s.connections id none)
    (hand : ∀ call, (s'.calls call).hand = (s.calls call).hand) :
    Custody (marks ++ [.took (.task n) n, .dropped n]) s' := by
  obtain ⟨conn, known, rfl⟩ := h.known id n here
  obtain ⟨conn', known', -⟩ := (kin n).after known
  obtain ⟨nil, free⟩ := (h.life n).of_here known here
  refine ⟨h.known_of_kin kin (forget_sub map), h.unique_of_kin kin, ?_, ?_⟩
  · refine h.life_of_one n (by simp [Mark.tx]) (fun m _ => kin m)
      (fun m ne => forget_others here map ne) (fun m _ => holds_congr hand m) ?_
    rw [nil]
    refine .dropped conn' known' (h.forget_away here map _) ?_ (ended conn' known')
    intro call held
    exact free call ((holds_congr hand n call).mp held)
  · intro call
    rw [hand]
    exact h.distinct call

/-- **A step keeps the custody of the senders**, whatever it does with them. -/
theorem moved (h : Custody marks s) {out : List Mark} (moved : Moved s s' out) :
    Custody (marks ++ out) s' := by
  cases moved with
  | still kin map hand =>
    rw [List.append_nil]
    exact h.still kin map hand
  | listed n conn new fresh known kin map hand => exact h.listed new fresh known kin map hand
  | taken call tx id here kin map hand others => exact h.taken here kin map hand others
  | used call tx sent kin map hand others => exact h.used sent kin map hand others
  | dropped n id here ended kin map hand => exact h.dropped here ended kin map hand

end Custody

/-! ## The steps -/

theorem kin_setConn {conn conn' : Conn} (known : s.conns n = some conn) (id : conn'.id = conn.id)
    (stays : conn.progress ≠ .copying → conn'.progress ≠ .copying) (m : Nat) :
    Kin (s.conns m) ((s.setConn n conn').conns m) := by
  show Kin (s.conns m) (Function.update s.conns n (some conn') m)
  by_cases same : m = n
  · rw [same, Function.update_self, known]
    exact .some id stays
  · rw [Function.update_of_ne same]
    exact .refl _

theorem hangUp_spec (tx : Nat) (s : Shutdowns) :
    (s.hangUp tx).connections = s.connections ∧ (s.hangUp tx).calls = s.calls ∧
      ∀ n, Kin (s.conns n) ((s.hangUp tx).conns n) := by
  unfold hangUp
  cases known : s.conns tx with
  | none => exact ⟨rfl, rfl, fun _ => .refl _⟩
  | some conn => exact ⟨rfl, rfl, kin_setConn known rfl fun h => h⟩

theorem send_spec (tx : Nat) (reason : String) (s : Shutdowns) :
    (s.send tx reason).2.connections = s.connections ∧ (s.send tx reason).2.calls = s.calls ∧
      ∀ n, Kin (s.conns n) ((s.send tx reason).2.conns n) := by
  unfold send
  cases known : s.conns tx with
  | none => exact ⟨rfl, rfl, fun _ => .refl _⟩
  | some conn =>
    dsimp only
    split
    · exact ⟨rfl, rfl, fun _ => .refl _⟩
    · exact ⟨rfl, rfl, kin_setConn known rfl fun h => h⟩

theorem Kin.trans {a b c : Option Conn} (first : Kin a b) (second : Kin b c) : Kin a c := by
  cases first with
  | none => exact second
  | some id stays =>
    cases second with
    | some id' stays' => exact .some (id'.trans id) fun h => stays' (stays h)

@[simp] theorem setCall_calls_self {c : Call} : (s.setCall call c).calls call = c :=
  Function.update_self ..

theorem setCall_calls_of_ne {c : Call} {call' : Nat} (ne : call' ≠ call) :
    (s.setCall call c).calls call' = s.calls call' := Function.update_of_ne ne ..

/-- A call that goes on with the same senders in hand. -/
theorem hand_setCall {c : Call} (same : c.hand = (s.calls call).hand) (call' : Nat) :
    ((s.setCall call c).calls call').hand = (s.calls call').hand := by
  by_cases eq : call' = call
  · rw [eq, setCall_calls_self, same]
  · rw [setCall_calls_of_ne eq]

theorem Moved.stay : Moved s s [] := .still (fun _ => .refl _) rfl fun _ => rfl

/-- A call that goes on and leaves the rest alone. -/
theorem Moved.setCall {c : Call} (same : c.hand = (s.calls call).hand) :
    Moved s (s.setCall call c) [] :=
  .still (fun _ => .refl _) rfl (hand_setCall same)

/-- A task that goes on and leaves the rest alone. -/
theorem Moved.setConn {conn conn' : Conn} (known : s.conns n = some conn) (id : conn'.id = conn.id)
    (stays : conn.progress ≠ .copying → conn'.progress ≠ .copying) :
    Moved s (s.setConn n conn') [] :=
  .still (kin_setConn known id stays) rfl fun _ => rfl

/-- A call that takes an entry out. -/
theorem Moved.forget {id : ConnId} {tx : Nat} {c : Call} (here : s.connections id = some tx)
    (more : c.hand = (s.calls call).hand ++ [tx]) :
    Moved s ((s.forget id).setCall call c) [.took (.call call) tx] :=
  .taken call tx id here (fun _ => .refl _) rfl (by rw [setCall_calls_self, more])
    fun c' ne => congrArg Call.hand (setCall_calls_of_ne ne)

/-- A call that sends. -/
theorem Moved.send {tx : Nat} {reason : String} {c : Call}
    (less : (s.calls call).hand = tx :: c.hand) :
    Moved s ((s.send tx reason).2.setCall call c) [.used call tx (s.send tx reason).1] := by
  obtain ⟨map, calls, kin⟩ := send_spec tx reason s
  refine .used call tx _ kin map ?_ ?_
  · rw [setCall_calls_self, less]
  · intro c' ne
    rw [setCall_calls_of_ne ne, calls]

theorem moved_insert (h : Custody marks s) {id : ConnId}
    (fresh : s.conns n = none → ∀ m conn, s.conns m = some conn → conn.id ≠ id) :
    Moved s (s.insert n id).2 (s.insert n id).1 := by
  unfold insert
  cases new : s.conns n with
  | some conn => exact .stay
  | none =>
    cases here : s.connections id with
    | some old =>
      obtain ⟨conn, known, same⟩ := h.known id old here
      exact absurd same (fresh new old conn known)
    | none =>
      refine .listed n ⟨id, .copying, .waiting⟩ new (fresh new) (Function.update_self ..) ?_ rfl
        fun _ => rfl
      intro m ne
      show Kin (s.conns m) (Function.update s.conns n _ m)
      rw [Function.update_of_ne ne]
      exact .refl _

theorem moved_copied : Moved s (s.copied n).2 (s.copied n).1 := by
  unfold copied
  split
  · next known => exact .setConn known rfl fun h => absurd rfl h
  · exact .stay

theorem moved_cleanUp (h : Custody marks s) : Moved s (s.cleanUp n).2 (s.cleanUp n).1 := by
  unfold cleanUp
  split
  · next id errRx known =>
    have kin : ∀ m, Kin (s.conns m) ((s.setConn n ⟨id, .cleaned, errRx⟩).conns m) :=
      kin_setConn known rfl nofun
    cases here : s.connections id with
    | none =>
      refine .still kin ?_ fun _ => rfl
      show Function.update s.connections id none = s.connections
      rw [← here, Function.update_eq_self]
    | some tx =>
      obtain ⟨conn, known', same⟩ := h.known id tx here
      obtain rfl := h.unique n tx _ conn known known' same.symm
      obtain ⟨map, calls, kin'⟩ := hangUp_spec n ((s.setConn n ⟨id, .cleaned, errRx⟩).forget id)
      refine .dropped n id here ?_ (fun m => (kin m).trans (kin' m)) map fun call => by rw [calls]; rfl
      intro conn' after
      have cleaned : ((s.setConn n ⟨id, .cleaned, errRx⟩).forget id).conns n =
          some ⟨id, .cleaned, errRx⟩ := Function.update_self ..
      have same := kin' n
      rw [cleaned, after] at same
      cases same with
      | some id stays => exact stays nofun
  · exact .stay

theorem moved_dropReceiver : Moved s (s.dropReceiver n).2 (s.dropReceiver n).1 := by
  unfold dropReceiver
  split
  · next known => exact .setConn known rfl nofun
  · exact .stay

theorem moved_shutdown {id : ConnId} {reason : String} :
    Moved s (s.shutdown call id reason).2 (s.shutdown call id reason).1 := by
  unfold shutdown
  split
  · next tx idle here => exact .forget here (by rw [idle]; rfl)
  · next idle gone => exact .setCall (by rw [idle]; rfl)
  · exact .stay

theorem moved_shutdownAll {reason : String} :
    Moved s (s.shutdownAll call reason).2 (s.shutdownAll call reason).1 := by
  unfold shutdownAll
  split
  · next idle => exact .setCall (by rw [idle]; rfl)
  · exact .stay

theorem moved_snapshot {ids : List ConnId} :
    Moved s (s.snapshot call ids).2 (s.snapshot call ids).1 := by
  unfold snapshot
  split
  · next iterating => exact .setCall (by rw [iterating]; rfl)
  · exact .stay

theorem moved_advance : Moved s (s.advance call).2 (s.advance call).1 := by
  unfold advance
  split
  · next reason tx sending => exact .send (by rw [sending]; rfl)
  · next reason id ids connections removing =>
    cases here : s.connections id with
    | some tx => exact .forget here (by rw [removing]; rfl)
    | none => exact .setCall (by rw [removing]; rfl)
  · next removing => exact .setCall (by rw [removing]; rfl)
  · next reason tx connections sendFailed sendingAll => exact .send (by rw [sendingAll]; rfl)
  · next sendingAll => exact .setCall (by rw [sendingAll]; rfl)
  · exact .stay

/-- Every permitted step moves the senders in one of these ways. -/
theorem moved_step (h : Custody marks s) {w : Watch} {st : Step} (permitted : Permitted (s, w) st) :
    Moved s (s.step st).2 (s.step st).1 := by
  cases st with
  | insert n id => exact moved_insert h permitted
  | copied n => exact moved_copied
  | cleanUp n => exact moved_cleanUp h
  | dropReceiver n => exact moved_dropReceiver
  | shutdown call id reason => exact moved_shutdown
  | shutdownAll call reason => exact moved_shutdownAll
  | snapshot call ids => exact moved_snapshot
  | advance call => exact moved_advance

/-! ## The calls -/

/-- The call that takes the step, if a call does. -/
def Step.caller : Step → Option Nat
  | .shutdown call _ _ => some call
  | .shutdownAll call _ => some call
  | .snapshot call _ => some call
  | .advance call => some call
  | _ => none

/-- A step of a task moves no call. -/
theorem calls_of_task {st : Step} (nobody : st.caller = none) : (s.step st).2.calls = s.calls := by
  cases st with
  | insert n id =>
    show (s.insert n id).2.calls = _
    unfold insert
    split
    · split
      · rw [(hangUp_spec ..).2.1]
        rfl
      · rfl
    · rfl
  | copied n =>
    show (s.copied n).2.calls = _
    unfold copied
    split
    · rfl
    · rfl
  | cleanUp n =>
    show (s.cleanUp n).2.calls = _
    unfold cleanUp
    split
    · split
      · rw [(hangUp_spec ..).2.1]
        rfl
      · rfl
    · rfl
  | dropReceiver n =>
    show (s.dropReceiver n).2.calls = _
    unfold dropReceiver
    split
    · rfl
    · rfl
  | _ => cases nobody

/-- A turn of another call's loop leaves a call where it is. -/
theorem calls_of_advance {c : Nat} (other : call ≠ c) : (s.advance c).2.calls call = s.calls call := by
  unfold advance
  split
  · rw [setCall_calls_of_ne other, (send_spec ..).2.1]
  · split
    · exact setCall_calls_of_ne other
    · exact setCall_calls_of_ne other
  · exact setCall_calls_of_ne other
  · rw [setCall_calls_of_ne other, (send_spec ..).2.1]
  · exact setCall_calls_of_ne other
  · rfl

/-- A call stays where it is in a step that it does not take. -/
theorem calls_elsewhere {st : Step} (ne : st.caller ≠ some call) :
    (s.step st).2.calls call = s.calls call := by
  have other : ∀ c, some c ≠ some call → call ≠ c := fun c ne same => ne (congrArg some same.symm)
  cases st with
  | shutdown c id reason =>
    show (s.shutdown c id reason).2.calls call = _
    unfold shutdown
    split
    · exact setCall_calls_of_ne (other c ne)
    · exact setCall_calls_of_ne (other c ne)
    · rfl
  | shutdownAll c reason =>
    show (s.shutdownAll c reason).2.calls call = _
    unfold shutdownAll
    split
    · exact setCall_calls_of_ne (other c ne)
    · rfl
  | snapshot c ids =>
    show (s.snapshot c ids).2.calls call = _
    unfold snapshot
    split
    · exact setCall_calls_of_ne (other c ne)
    · rfl
  | advance c => exact calls_of_advance (other c ne)
  | _ => rw [calls_of_task rfl]

/-- A call sends only in a step of its own. -/
theorem unused_elsewhere {st : Step} (ne : st.caller ≠ some call) {sent : Bool} :
    .used call n sent ∉ (s.step st).1 := by
  cases st with
  | insert m id =>
    show _ ∉ (s.insert m id).1
    unfold insert
    repeat' split
    all_goals simp
  | copied m =>
    show _ ∉ (s.copied m).1
    unfold copied
    split
    all_goals simp
  | cleanUp m =>
    show _ ∉ (s.cleanUp m).1
    unfold cleanUp
    repeat' split
    all_goals simp
  | dropReceiver m =>
    show _ ∉ (s.dropReceiver m).1
    unfold dropReceiver
    split
    all_goals simp
  | shutdown c id reason =>
    show _ ∉ (s.shutdown c id reason).1
    unfold shutdown
    split
    all_goals simp
  | shutdownAll c reason =>
    show _ ∉ (s.shutdownAll c reason).1
    unfold shutdownAll
    split
    all_goals simp
  | snapshot c ids =>
    show _ ∉ (s.snapshot c ids).1
    unfold snapshot
    split
    all_goals simp
  | advance c =>
    have other : call ≠ c := fun same => ne (congrArg some same.symm)
    show _ ∉ (s.advance c).1
    unfold advance
    repeat' split
    all_goals simp [other]

theorem not_begins {st : Step} (ne : st.caller ≠ some call) : ¬Begins s call st := by
  cases st with
  | shutdownAll c reason => exact fun begins => ne (congrArg some begins.1)
  | insert m id => exact not_false
  | copied m => exact not_false
  | cleanUp m => exact not_false
  | dropReceiver m => exact not_false
  | shutdown c id reason => exact not_false
  | snapshot c ids => exact not_false
  | advance c => exact not_false

/-- What the marks and the watch say of a call, by how far it has come. -/
def Status (marks : List Mark) (w : Watch) (call : Nat) : Call → Prop
  | .idle => w.before call = none ∧ ∀ n sent, .used call n sent ∉ marks
  | .sending _ _ => w.before call = none
  | .iterating _ => ∀ n sent, .used call n sent ∉ marks
  | .removing _ _ _ => ∀ n sent, .used call n sent ∉ marks
  | .sendingAll _ _ sendFailed => sendFailed = true ↔ ∃ n, .used call n false ∈ marks
  | .replied res => w.before call ≠ none →
      ∃ sendFailed, res = Call.response sendFailed ∧ (sendFailed = true ↔ ∃ n, .used call n false ∈ marks)

/-- Where a `shutdown_all` still has to come past an entry. -/
def Due (steady : ConnId → Prop) (id : ConnId) : Call → Prop
  | .iterating _ => steady id
  | .removing _ ids _ => id ∈ ids
  | _ => False

/-- What the run keeps. -/
structure Sound (marks : List Mark) (s : Shutdowns × Watch) : Prop where
  custody : Custody marks s.1
  status : ∀ call, Status marks s.2 call (s.1.calls call)
  due : ∀ call before, s.2.before call = some before → ∀ id n, before id = some n →
    (∃ conn, s.1.conns n = some conn ∧ conn.id = id) ∧
      (about n marks ≠ [] ∨ Due (s.2.steady call) id (s.1.calls call))

theorem Status.congr {marks' : List Mark} {w w' : Watch} {c : Call}
    (before : w'.before call = w.before call)
    (used : ∀ n sent, .used call n sent ∈ marks' ↔ .used call n sent ∈ marks)
    (status : Status marks w call c) : Status marks' w' call c := by
  cases c with
  | idle => exact ⟨before.trans status.1, fun n sent mem => status.2 n sent ((used n sent).mp mem)⟩
  | sending reason tx => exact before.trans status
  | iterating reason => exact fun n sent mem => status n sent ((used n sent).mp mem)
  | removing reason ids connections => exact fun n sent mem => status n sent ((used n sent).mp mem)
  | sendingAll reason connections sendFailed =>
    exact status.trans (exists_congr fun n => (used n false).symm)
  | replied res =>
    intro all
    rw [before] at all
    obtain ⟨sendFailed, eq, failed⟩ := status all
    exact ⟨sendFailed, eq, failed.trans (exists_congr fun n => (used n false).symm)⟩

theorem before_watch {w : Watch} {st : Step} (not : ¬Begins s call st) :
    (watch w s st).before call = w.before call := if_neg not

/-- Marks that tell of no send leave a call's as they are. -/
theorem used_append {marks out : List Mark} (none : ∀ n sent, .used call n sent ∉ out) (n : Nat)
    (sent : Bool) : .used call n sent ∈ marks ++ out ↔ .used call n sent ∈ marks := by
  rw [List.mem_append, or_iff_left (none n sent)]

/-- A shutdown of one connection keeps what is said of its call. -/
theorem status_shutdown {w : Watch} {id : ConnId} {reason : String}
    (h : Status marks w call (s.calls call)) :
    Status (marks ++ (s.step (.shutdown call id reason)).1) (watch w s (.shutdown call id reason)) call
      ((s.step (.shutdown call id reason)).2.calls call) := by
  show Status (marks ++ (s.shutdown call id reason).1) _ call
    ((s.shutdown call id reason).2.calls call)
  unfold shutdown
  split
  · next tx idle here =>
    rw [idle] at h
    rw [setCall_calls_self]
    exact h.1
  · next idle gone =>
    rw [idle] at h
    rw [setCall_calls_self]
    exact fun all => absurd h.1 all
  · exact h.congr rfl (used_append nofun)

/-- So does the start of a shutdown of all, -/
theorem status_shutdownAll {w : Watch} {reason : String} (h : Status marks w call (s.calls call)) :
    Status (marks ++ (s.step (.shutdownAll call reason)).1) (watch w s (.shutdownAll call reason)) call
      ((s.step (.shutdownAll call reason)).2.calls call) := by
  show Status (marks ++ (s.shutdownAll call reason).1) _ call
    ((s.shutdownAll call reason).2.calls call)
  unfold shutdownAll
  split
  · next idle =>
    rw [idle] at h
    rw [setCall_calls_self, List.append_nil]
    exact h.2
  · next busy =>
    exact h.congr (before_watch fun begins => busy begins.2) (used_append nofun)

/-- its look at the ids, -/
theorem status_snapshot {w : Watch} {ids : List ConnId} (h : Status marks w call (s.calls call)) :
    Status (marks ++ (s.step (.snapshot call ids)).1) (watch w s (.snapshot call ids)) call
      ((s.step (.snapshot call ids)).2.calls call) := by
  show Status (marks ++ (s.snapshot call ids).1) _ call ((s.snapshot call ids).2.calls call)
  unfold snapshot
  split
  · next iterating =>
    rw [iterating] at h
    rw [setCall_calls_self, List.append_nil]
    exact h
  · exact h.congr rfl (used_append nofun)

/-- and every turn of a loop. -/
theorem status_advance {w : Watch} (h : Status marks w call (s.calls call)) :
    Status (marks ++ (s.step (.advance call)).1) (watch w s (.advance call)) call
      ((s.step (.advance call)).2.calls call) := by
  show Status (marks ++ (s.advance call).1) _ call ((s.advance call).2.calls call)
  unfold advance
  split
  · next sending =>
    rw [sending] at h
    rw [setCall_calls_self]
    exact fun all => absurd h all
  · next removing =>
    rw [removing] at h
    split
    · rw [setCall_calls_self]
      intro n sent mem
      exact h n sent ((used_append (by simp) n sent).mp mem)
    · rw [setCall_calls_self, List.append_nil]
      exact h
  · next removing =>
    rw [removing] at h
    rw [setCall_calls_self, List.append_nil]
    refine iff_of_false Bool.false_ne_true ?_
    rintro ⟨n, mem⟩
    exact h n false mem
  · next reason tx connections sendFailed sendingAll =>
    rw [sendingAll] at h
    rw [setCall_calls_self]
    show (sendFailed || !(s.send tx reason).1) = true ↔
      ∃ n, .used call n false ∈ marks ++ [.used call tx (s.send tx reason).1]
    have last : ∀ n, .used call n false ∈ marks ++ [.used call tx (s.send tx reason).1] ↔
        .used call n false ∈ marks ∨ (n = tx ∧ (s.send tx reason).1 = false) := by
      intro n
      rw [List.mem_append, List.mem_singleton, Mark.used.injEq, and_iff_right rfl,
        @eq_comm _ false]
    change sendFailed = true ↔ ∃ n, .used call n false ∈ marks at h
    simp only [last, exists_or, Bool.or_eq_true, Bool.not_eq_true', exists_eq_left, h]
  · next reason sendFailed sendingAll =>
    rw [sendingAll] at h
    rw [setCall_calls_self, List.append_nil]
    exact fun _ => ⟨sendFailed, rfl, h⟩
  · exact h.congr rfl (used_append nofun)

/-- **A step keeps what is said of every call**, its own and the others'. -/
theorem status_step {w : Watch} {st : Step} (status : ∀ call, Status marks w call (s.calls call))
    (call : Nat) :
    Status (marks ++ (s.step st).1) (watch w s st) call ((s.step st).2.calls call) := by
  by_cases own : st.caller = some call
  · cases st with
    | insert n id => cases own
    | copied n => cases own
    | cleanUp n => cases own
    | dropReceiver n => cases own
    | shutdown c id reason =>
      cases own
      exact status_shutdown (status call)
    | shutdownAll c reason =>
      cases own
      exact status_shutdownAll (status call)
    | snapshot c ids =>
      cases own
      exact status_snapshot (status call)
    | advance c =>
      cases own
      exact status_advance (status call)
  · rw [calls_elsewhere own]
    refine (status call).congr (before_watch (not_begins own)) fun n sent => ?_
    rw [List.mem_append, or_iff_left (unused_elsewhere own)]

/-- A connection that is known stays known. -/
theorem Moved.known {out : List Mark} {conn : Conn} (moved : Moved s s' out)
    (known : s.conns n = some conn) : ∃ conn', s'.conns n = some conn' ∧ conn'.id = conn.id := by
  have after : Kin (s.conns n) (s'.conns n) := by
    cases moved with
    | still kin map hand => exact kin n
    | listed m conn' new fresh known' kin map hand =>
      refine kin n ?_
      rintro rfl
      rw [new] at known
      cases known
    | taken call tx id here kin map hand others => exact kin n
    | used call tx sent kin map hand others => exact kin n
    | dropped m id here ended kin map hand => exact kin n
  obtain ⟨conn', known', same, -⟩ := after.after known
  exact ⟨conn', known', same⟩

/-- A sender without a mark is in the map. -/
theorem Life.here {conn : Conn} (life : Life s n []) (known : s.conns n = some conn) :
    s.connections conn.id = some n := by
  cases life with
  | unlisted new free =>
    rw [new] at known
    cases known
  | listed conn' known' here free =>
    rw [known] at known'
    cases known'
    exact here

theorem Due.mono {steady steady' : ConnId → Prop} {id : ConnId} {c : Call}
    (imp : steady id → steady' id) (due : Due steady id c) : Due steady' id c := by
  cases c with
  | iterating reason => exact imp due
  | removing reason ids connections => exact due
  | idle => cases due
  | sending reason tx => cases due
  | sendingAll reason connections sendFailed => cases due
  | replied res => cases due

/-- A turn of a loop leaves the ids after the one it looked at. -/
theorem due_advance {w : Watch} {steady : ConnId → Prop} {id : ConnId}
    (here : (s.advance call).2.connections id = some n) (due : Due (w.steady call) id (s.calls call))
    (imp : w.steady call id → steady id) : Due steady id ((s.advance call).2.calls call) := by
  unfold advance at here ⊢
  split at here
  · next sending =>
    rw [sending] at due
    cases due
  · next reason id' ids connections removing =>
    rw [removing] at due
    have other : id ≠ id' := by
      rintro rfl
      cases found : s.connections id with
      | some tx =>
        simp only [found] at here
        change Function.update s.connections id none id = some n at here
        rw [Function.update_self] at here
        cases here
      | none =>
        simp only [found] at here
        change s.connections id = some n at here
        rw [found] at here
        cases here
    have later : id ∈ ids := (List.mem_cons.mp due).resolve_left other
    split
    · rw [setCall_calls_self]
      exact later
    · rw [setCall_calls_self]
      exact later
  · next removing =>
    rw [removing] at due
    cases due
  · next sendingAll =>
    rw [sendingAll] at due
    cases due
  · next sendingAll =>
    rw [sendingAll] at due
    cases due
  · exact due.mono imp

/-- A call still has to come past an entry that its step leaves in the map. -/
theorem due_calls {w : Watch} {st : Step} {steady : ConnId → Prop} {id : ConnId}
    (permitted : Permitted (s, w) st) (begins : ¬Begins s call st)
    (here : (s.step st).2.connections id = some n) (due : Due (w.steady call) id (s.calls call))
    (imp : w.steady call id → steady id) : Due steady id ((s.step st).2.calls call) := by
  by_cases own : st.caller = some call
  · cases st with
    | insert m id => cases own
    | copied m => cases own
    | cleanUp m => cases own
    | dropReceiver m => cases own
    | shutdown c id' reason =>
      cases own
      show Due _ _ ((s.shutdown call id' reason).2.calls call)
      unfold shutdown
      split
      · next tx idle found =>
        rw [idle] at due
        cases due
      · next idle gone =>
        rw [idle] at due
        cases due
      · exact due.mono imp
    | shutdownAll c reason =>
      cases own
      show Due _ _ ((s.shutdownAll call reason).2.calls call)
      unfold shutdownAll
      split
      · next idle => exact absurd ⟨rfl, idle⟩ begins
      · exact due.mono imp
    | snapshot c ids =>
      cases own
      show Due _ _ ((s.snapshot call ids).2.calls call)
      unfold snapshot
      split
      · next reason iterating =>
        rw [iterating] at due
        rw [setCall_calls_self]
        exact permitted id due
      · exact due.mono imp
    | advance c =>
      cases own
      exact due_advance here due imp
  · rw [calls_elsewhere own]
    exact due.mono imp

/-- A `shutdown_all` that begins has everything in the map still to do. -/
theorem due_begins {w : Watch} {reason : String} {id : ConnId} (idle : s.calls call = .idle)
    (there : s.connections id = some n) :
    Due ((watch w s (.shutdownAll call reason)).steady call) id
      ((s.step (.shutdownAll call reason)).2.calls call) := by
  have iterating : (s.step (.shutdownAll call reason)).2 = s.setCall call (.iterating reason) := by
    show (s.shutdownAll call reason).2 = _
    rw [shutdownAll, idle]
  rw [iterating, setCall_calls_self]
  refine ⟨.inl ⟨rfl, idle⟩, ?_⟩
  rw [iterating]
  show (s.connections id).isSome
  rw [there]
  rfl

/-- A step keeps what a `shutdown_all` still has to do. -/
theorem due_step {w : Watch} {st : Step} (h : Sound marks (s, w)) (permitted : Permitted (s, w) st)
    (call : Nat) (before : ConnId → Option Nat) (begun : (watch w s st).before call = some before)
    (id : ConnId) (n : Nat) (there : before id = some n) :
    (∃ conn, (s.step st).2.conns n = some conn ∧ conn.id = id) ∧
      (about n (marks ++ (s.step st).1) ≠ [] ∨
        Due ((watch w s st).steady call) id ((s.step st).2.calls call)) := by
  have moved := moved_step h.custody permitted
  have custody := h.custody.moved moved
  -- the entry is taken, or still in the map after the step
  have still : ∀ conn, (s.step st).2.conns n = some conn → conn.id = id →
      about n (marks ++ (s.step st).1) ≠ [] ∨ (s.step st).2.connections id = some n := by
    intro conn known same
    by_cases nil : about n (marks ++ (s.step st).1) = []
    · right
      have life := custody.life n
      rw [nil] at life
      rw [← same]
      exact life.here known
    · exact .inl nil
  by_cases begins : Begins s call st
  · cases st with
    | shutdownAll c reason =>
      obtain ⟨rfl, idle⟩ := begins
      have now : (watch w s (.shutdownAll c reason)).before c = some s.connections :=
        if_pos ⟨rfl, idle⟩
      rw [now] at begun
      cases begun
      obtain ⟨conn, known, same⟩ := h.custody.known id n there
      obtain ⟨conn', known', same'⟩ := moved.known known
      exact ⟨⟨conn', known', same'.trans same⟩, .inr (due_begins idle there)⟩
    | insert m id => cases begins
    | copied m => cases begins
    | cleanUp m => cases begins
    | dropReceiver m => cases begins
    | shutdown c id reason => cases begins
    | snapshot c ids => cases begins
    | advance c => cases begins
  · rw [before_watch begins] at begun
    obtain ⟨⟨conn, known, same⟩, due⟩ := h.due call before begun id n there
    obtain ⟨conn', known', same'⟩ := moved.known known
    refine ⟨⟨conn', known', same'.trans same⟩, ?_⟩
    rcases due with taken | due
    · left
      rw [about_append]
      exact fun nil => taken (List.append_eq_nil_iff.mp nil).1
    · rcases still conn' known' (same'.trans same) with taken | here
      · exact .inl taken
      · right
        have steady : w.steady call id → (watch w s st).steady call id := by
          intro so
          refine ⟨.inr so, ?_⟩
          rw [here]
          rfl
        exact due_calls permitted begins here due steady

/-- A permitted step keeps the invariant. -/
theorem Sound.step {w : Watch} (h : Sound marks (s, w)) {st : Step} (permitted : Permitted (s, w) st) :
    Sound (marks ++ (s.step st).1) (watched.step (s, w) st).2 where
  custody := h.custody.moved (moved_step h.custody permitted)
  status := status_step h.status
  due := due_step h permitted

/-- What the invariant says of one sender. -/
theorem Custody.whereabouts (h : Custody marks s) (n : Nat) :
    (about n marks = [] ∧ ∀ conn, s.conns n = some conn → s.connections conn.id = some n) ∨
      ((∀ conn, s.conns n = some conn → s.connections conn.id ≠ some n) ∧
        ((∃ call, about n marks = [.took (.call call) n] ∧ Holds s n call) ∨
          (∃ call sent, about n marks = [.took (.call call) n, .used call n sent]) ∨
            (about n marks = [.took (.task n) n, .dropped n] ∧
              ∀ conn, s.conns n = some conn → conn.progress ≠ .copying))) := by
  have only : ∀ {P : Conn → Prop} {conn : Conn}, s.conns n = some conn → P conn →
      ∀ conn', s.conns n = some conn' → P conn' := by
    intro P conn known holds conn' known'
    rw [known] at known'
    cases known'
    exact holds
  have life := h.life n
  generalize about n marks = l at life
  cases life with
  | unlisted new free =>
    refine .inl ⟨rfl, fun conn known => ?_⟩
    rw [new] at known
    cases known
  | listed conn known here free =>
    exact .inl ⟨rfl, only known here⟩
  | held conn call known away held =>
    exact .inr ⟨only known away, .inl ⟨call, rfl, (held call).mpr rfl⟩⟩
  | used conn call sent known away free =>
    exact .inr ⟨only known away, .inr (.inl ⟨call, sent, rfl⟩)⟩
  | dropped conn known away free ended =>
    exact .inr ⟨only known away, .inr (.inr ⟨rfl, only known ended⟩)⟩

/-- A call that has replied holds no sender. -/
theorem not_holds {res : Except ApiError StatusCode} (replied : s.calls call = .replied res) :
    ¬Holds s n call := by
  unfold Holds
  rw [replied]
  exact List.not_mem_nil

/-- What a `shutdown_all` that has replied had still to do was taken. -/
theorem Sound.swept {w : Watch} (h : Sound marks (s, w)) {before : ConnId → Option Nat}
    {res : Except ApiError StatusCode} (begun : w.before call = some before)
    (replied : s.calls call = .replied res) {id : ConnId} (there : before id = some n) :
    s.connections id = none ∧
      (takers (about n marks) = [.task n] ∨
        ∃ taker, takers (about n marks) = [.call taker] ∧
          ∀ res, s.calls taker = .replied res →
            ∃ sent, uses (about n marks) = [(taker, sent)]) := by
  obtain ⟨⟨conn, known, rfl⟩, due⟩ := h.due call before begun id n there
  have taken : about n marks ≠ [] := by
    refine due.resolve_right ?_
    show ¬Due _ _ (s.calls call)
    rw [replied]
    exact not_false
  rcases h.custody.whereabouts n with ⟨nil, -⟩ | ⟨away, life⟩
  · exact absurd nil taken
  · constructor
    · cases found : s.connections conn.id with
      | none => rfl
      | some m =>
        obtain ⟨conn', known', same⟩ := h.custody.known conn.id m found
        obtain rfl := h.custody.unique m n conn' conn known' known same
        exact absurd found (away conn known)
    · rcases life with ⟨taker, eq, held⟩ | ⟨taker, sent, eq⟩ | ⟨eq, -⟩
      · rw [eq]
        exact .inr ⟨taker, rfl, fun res replied => absurd held (not_holds replied)⟩
      · rw [eq]
        exact .inr ⟨taker, rfl, fun res replied => ⟨sent, rfl⟩⟩
      · rw [eq]
        exact .inl rfl

/-- Its reply says whether every sender it used was heard. -/
theorem Sound.replies {w : Watch} (h : Sound marks (s, w)) {before : ConnId → Option Nat}
    {res : Except ApiError StatusCode} (begun : w.before call = some before)
    (replied : s.calls call = .replied res) :
    (res = .ok .accepted ∨ res = .error .internal) ∧
      (res = .ok .accepted ↔ ∀ n sent, .used call n sent ∈ marks → sent = true) := by
  have status := h.status call
  change Status _ _ _ (s.calls call) at status
  rw [replied] at status
  obtain ⟨sendFailed, rfl, failed⟩ := status (by rw [begun]; nofun)
  have all : (∀ n sent, .used call n sent ∈ marks → sent = true) ↔ sendFailed = false := by
    rw [← Bool.not_eq_true, failed]
    constructor
    · rintro all ⟨n, mem⟩
      cases all n false mem
    · intro none n sent mem
      cases sent with
      | false => exact absurd ⟨n, mem⟩ none
      | true => rfl
  rw [all]
  cases sendFailed with
  | false => exact ⟨.inl rfl, iff_of_true rfl rfl⟩
  | true => exact ⟨.inr rfl, iff_of_false nofun nofun⟩

/-- The invariant accounts for every sender. -/
theorem Sound.accounted {w : Watch} (h : Sound marks (s, w)) : Accounted marks (s, w) where
  once n conn known := by
    rcases h.custody.whereabouts n with ⟨nil, here⟩ | ⟨away, ⟨call, eq, -⟩ | ⟨call, sent, eq⟩ | ⟨eq, -⟩⟩
    · rw [if_pos (here conn known), nil]
      rfl
    · rw [if_neg (away conn known), eq]
      exact ⟨_, rfl⟩
    · rw [if_neg (away conn known), eq]
      exact ⟨_, rfl⟩
    · rw [if_neg (away conn known), eq]
      exact ⟨_, rfl⟩
  user n := by
    rcases h.custody.whereabouts n with ⟨eq, -⟩ | ⟨-, ⟨call, eq, -⟩ | ⟨call, sent, eq⟩ | ⟨eq, -⟩⟩
    · exact .inl (by rw [eq]; rfl)
    · exact .inl (by rw [eq]; rfl)
    · exact .inr ⟨call, sent, by rw [eq]; exact ⟨rfl, rfl⟩⟩
    · exact .inl (by rw [eq]; rfl)
  swept call before res begun replied id n there := h.swept begun replied there
  copying n conn known copies mem := by
    have own : .dropped n ∈ about n marks := mem_about.mpr ⟨mem, rfl⟩
    rcases h.custody.whereabouts n with ⟨eq, -⟩ | ⟨-, ⟨call, eq, -⟩ | ⟨call, sent, eq⟩ | ⟨eq, ended⟩⟩
    · simp [eq] at own
    · simp [eq] at own
    · simp [eq] at own
    · exact ended conn known copies
  thorough call before res begun replied n taken := by
    rcases h.custody.whereabouts n with ⟨eq, -⟩ | ⟨-, ⟨c, eq, held⟩ | ⟨c, sent, eq⟩ | ⟨eq, -⟩⟩
    · rw [eq] at taken
      cases taken
    · rw [eq] at taken
      cases taken
      exact absurd held (not_holds replied)
    · rw [eq] at taken ⊢
      cases taken
      exact ⟨sent, rfl⟩
    · rw [eq] at taken
      cases taken
  replies call before res begun replied := h.replies begun replied
  own m n mem := by
    have own : .took (.task m) n ∈ about n marks := mem_about.mpr ⟨mem, rfl⟩
    rcases h.custody.whereabouts n with ⟨eq, -⟩ | ⟨-, ⟨call, eq, -⟩ | ⟨call, sent, eq⟩ | ⟨eq, ended⟩⟩
    · simp [eq] at own
    · simp [eq] at own
    · simp [eq] at own
    · simpa [eq] using own

/-- **Every connection is signalled at most once and none is forgotten**, however the steps of the
calls and tasks follow each other. -/
theorem accounts {steps : List Step}
    (permitted : watched.Allowed (fun _ => Permitted) (empty, Watch.none) steps) :
    watched.Throughout (fun past s => Accounted (log past) s) (empty, Watch.none) steps := by
  have start : Sound (log []) (empty, Watch.none) := by
    refine ⟨⟨nofun, nofun, fun n => .unlisted rfl fun call => List.not_mem_nil,
      fun call => List.nodup_nil⟩, fun call => ⟨rfl, fun n sent => List.not_mem_nil⟩, nofun⟩
  have keep : ∀ past s st, Sound (log past) s → Permitted s st →
      Sound (log (past ++ [(st, (watched.step s st).1)])) (watched.step s st).2 := by
    intro past s st sound permitted
    rw [log_append]
    exact sound.step permitted
  exact Machine.AllowedFrom.imp keep (fun past s st sound permitted =>
    (keep past s st sound permitted).accounted) start permitted

/-- The entries that a `shutdown_all` found when it began have all been used when it replies. -/
def SweptAtOnce (marks : List Mark) (s : Shutdowns × Watch) : Prop :=
  ∀ call before res, s.2.before call = some before → s.1.calls call = .replied res →
    ∀ id n, before id = some n → s.1.connections id = none ∧
      (takers (about n marks) = [.task n] ∨
        ∃ taker sent, takers (about n marks) = [.call taker] ∧ uses (about n marks) = [(taker, sent)])

/-- A `shutdown_connection` takes the entry out while a `shutdown_all` iterates, and has not sent yet
when that one replies. -/
def overtaken : List Step :=
  [.insert 0 "a", .shutdownAll 0 "all", .shutdown 1 "a" "one", .snapshot 0 [], .advance 0, .advance 0]

theorem overtaken_permitted :
    watched.Allowed (fun _ => Permitted) (empty, Watch.none) overtaken := by
  refine ⟨fun _ m conn known => (by cases known), trivial, trivial, ?_, trivial, trivial, trivial⟩
  intro id steady
  have here : (Function.update (Function.update (fun _ => none) "a" (some 0)) "a" none id :
      Option Nat).isSome := steady.2
  rw [Function.update_idem] at here
  by_cases same : id = "a"
  · rw [same, Function.update_self] at here
    cases here
  · rw [Function.update_of_ne same] at here
    cases here

theorem accounts_overtaken :
    watched.Throughout (fun past s => Accounted (log past) s) (empty, Watch.none) overtaken :=
  accounts overtaken_permitted

/-- The entry has left the map and nobody has sent anything. -/
theorem swept_fails_overtaken :
    watched.Allowed (fun _ => Permitted) (empty, Watch.none) overtaken ∧
      ¬watched.Throughout (fun past s => SweptAtOnce (log past) s) (empty, Watch.none) overtaken := by
  refine ⟨overtaken_permitted, fun swept => ?_⟩
  obtain ⟨-, -, -, -, -, last, -⟩ := swept
  rcases (last 0 _ (.ok .accepted) rfl rfl "a" 0 rfl).2 with own | ⟨taker, sent, -, used⟩
  · cases own
  · cases used

end Shutdowns

end Trixter
