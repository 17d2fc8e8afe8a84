import Trixter.Copy

/-!
# A copy whose client refuses

When every poll of `downstream` fails, a poll of the copy is over as soon as one direction turns to
it. Neither does when the direction to `upstream` is held up by its writer, or has come to its end,
and the other has come to its end too or waits for its reader with nothing left to write: `over_iff`. One
poll of the copy is one turn of both directions; the runtime's budget does not cut it short.
-/

namespace Trixter

open Trixter.Lib Polling

section Refused

variable {W : Type} [AsyncWrite W] {e : IoError} {env : World} {k : Nat} {w : W}

theorem pushAll_refused {unsent : List UInt8} (some : unsent ≠ []) (refuses : Refuses env e w) :
    (pushAll unsent.length unsent).wp env k w fun r _ _ => r = .err e := by
  obtain ⟨byte, rest, rfl⟩ := List.exists_cons_of_ne_nil some
  rw [List.length_cons, pushAll, if_neg (List.cons_ne_nil _ _)]
  exact wp_bind_err (refuses.write k _)

/-- A direction that has something to say to a writer that refuses fails. -/
theorem Stage.writeOut_refused {p : Stage} (writing : p.Writing) (open' : p ≠ .finished)
    (some : p ≠ .full []) (refuses : Refuses env e w) :
    p.writeOut.wp env k w fun r _ _ => r = .err e := by
  cases p with
  | reading unsent due => exact absurd rfl (writing unsent due)
  | full unsent => exact pushAll_refused (fun none => some (congrArg _ none)) refuses
  | draining unsent =>
    by_cases none : unsent = []
    · subst none
      rw [writeOut, wp_bind]
      exact wp_bind_err (refuses.flush k)
    · exact wp_bind_err (pushAll_refused none refuses)
  | closing => exact refuses.shutdown k
  | finished => exact absurd rfl open'

end Refused

namespace Transfer.Lawful

variable {S R W : Type} [AsyncRead R] [AsyncWrite W] {d : Transfer S R W} {e : IoError} {env : World}
  {k : Nat} {s : S} {r : R} {w : W}

/-- A direction at its end answers so at once. -/
theorem finished (lawful : d.Lawful) (stage : d.stage s = .finished) :
    (d.poll env k (s, r, w)).result = .ok () := by
  refine lawful.writes env k s r w (fun a _ _ => a = .ok ()) ?_ ?_
  · rw [stage]
    exact fun _ _ h => by cases h
  · rw [stage]
    exact ⟨fun _ ⟨_, h⟩ => (by cases h), rfl⟩

/-- A direction neither idle nor at its end fails with its reader, or else turns to its writer. -/
theorem turns (lawful : d.Lawful) (refuses : Refuses env e w) (busy : ¬d.Idle env k s r)
    (open' : d.stage s ≠ .finished) :
    (d.poll env k (s, r, w)).result = .err e ∨
      (d.poll env k (s, r, w)).result = d.reads env k s r ∧ d.reads env k s r ≠ .pending ∧
        d.reads env k s r ≠ .ok () := by
  by_cases writing : (d.stage s).Writing
  · left
    refine lawful.writes env k s r w (fun a _ _ => a = .err e) writing ?_
    refine wp_mono (Stage.writeOut_refused writing open' (lawful.full_ne s) refuses) ?_
    rintro _ w' k' rfl
    exact ⟨fun h => (by cases h), rfl⟩
  · simp only [Stage.Writing, ne_eq, not_forall, not_not] at writing
    obtain ⟨unsent, due, stage⟩ := writing
    have speaks := lawful.speaks env k s r w e unsent due stage refuses
    by_cases waits : d.reads env k s r = .pending
    · refine .inl (speaks (.inr ⟨waits, ?_⟩))
      by_contra nothing
      rw [not_or, not_not, Bool.not_eq_true] at nothing
      obtain ⟨rfl, rfl⟩ := nothing
      exact busy ⟨stage, waits⟩
    · by_cases finds : d.reads env k s r = .ok ()
      · exact .inl (speaks (.inl finds))
      · exact .inr ⟨lawful.stops env k s r w unsent due stage waits finds, waits, finds⟩

end Transfer.Lawful

namespace Copying

variable {A B D U : Type}

/-- The answer of a copy, from those of its directions. -/
def join : Poll IoError Unit → Poll IoError Unit → Poll IoError Unit
  | .ok _, b => b
  | .pending, .ok _ => .pending
  | .pending, b => b
  | a, _ => a

theorem join_pending {b : Poll IoError Unit} (h : b ≠ .ok ()) : join .pending b = b := by
  cases b with
  | ok u => exact absurd rfl h
  | _ => rfl

/-- The answer of a copy is that of its directions, one after the other. -/
theorem copy_result {there : Transfer A D U} {back : Transfer B U D} {env : World} {k : Nat}
    {c : Copying A B D U} (P : Poll IoError Unit → Prop) :
    P (copyBidirectional there back env k c).result ↔
      there.poll.wp env k (c.aToB, c.downstream, c.upstream) fun a t k' =>
        P (join a (back.poll env k' (c.bToA, t.2.2, t.2.1)).result) := by
  change (copyBidirectional there back).wp env k c (fun r _ _ => P r) ↔ _
  rw [copyBidirectional, wp_bind, wp_orPending, onThere, wp_zoom, wp_iff, wp_iff]
  generalize there.poll env k (c.aToB, c.downstream, c.upstream) = o
  obtain ⟨a, t, n⟩ := o
  cases a with
  | err e => rfl
  | panicked m => rfl
  | ok u =>
    dsimp only
    rw [wp_bind, wp_orPending, onBack, wp_zoom, wp_iff]
    dsimp only
    cases (back.poll env (k + n) (c.bToA, t.2.2, t.2.1)).result <;> rfl
  | pending =>
    dsimp only
    rw [wp_bind, wp_orPending, onBack, wp_zoom, wp_iff]
    dsimp only
    cases (back.poll env (k + n) (c.bToA, t.2.2, t.2.1)).result <;> rfl

/-- A copy fails with its first direction. -/
theorem copy_fails {there : Transfer A D U} {back : Transfer B U D} {env : World} {k : Nat}
    {c : Copying A B D U} {e : IoError}
    (fails : (there.poll env k (c.aToB, c.downstream, c.upstream)).result = .err e) :
    (copyBidirectional there back env k c).result = .err e := by
  rw [copy_result fun r => r = .err e, wp_iff, fails]
  rfl

variable [AsyncRead U] [AsyncWrite U]

/-- The upstream writer's polls that come first when the direction to it does not read first. -/
def wrote (there : Transfer A D U) (env : World) (k : Nat) (c : Copying A B D U) :
    Outcome IoError U Unit :=
  (there.stage c.aToB).writeOut env k c.upstream

/-- The next poll does not get to `downstream`: the direction to `upstream` has no room or nothing
left to read, and is held up by its writer or gets to its end; the other one is idle, or was at its
end before. -/
def Deaf (there : Transfer A D U) (back : Transfer B U D) (env : World) (k : Nat)
    (c : Copying A B D U) : Prop :=
  let o := wrote there env k c
  (there.stage c.aToB).Writing ∧
    (o.result = .pending ∧
        (back.stage c.bToA = .finished ∨ back.Idle env (k + o.took) c.bToA o.state) ∨
      o.result = .ok () ∧ ¬(there.stage c.aToB).Full ∧
        back.Idle env (k + o.took) c.bToA o.state)

/-- The copy is over, with `e` unless both directions have ended or `upstream` has failed. -/
def Over (there : Transfer A D U) (back : Transfer B U D) (env : World) (k : Nat)
    (c : Copying A B D U) (e : IoError) (res : Poll IoError Unit) : Prop :=
  let o := wrote there env k c
  res ≠ .pending ∧
    (res = .err e ∨ res = .ok () ∨ res = o.result ∨
      res = back.reads env (k + o.took) c.bToA o.state)

variable {there : Transfer A D U} {back : Transfer B U D} {env : World} {k : Nat}
  {c : Copying A B D U} {e : IoError}

theorem over_of_fails {res : Poll IoError Unit} (fails : res = .err e) :
    Over there back env k c e res :=
  ⟨by rw [fails]; nofun, .inl fails⟩

variable [AsyncRead D]

omit [AsyncRead U] in
/-- A direction to `upstream` that does not read leaves `downstream` to the other as it was. -/
theorem copy_writing (lawful : there.Lawful) (writing : (there.stage c.aToB).Writing)
    (held : (wrote there env k c).result = .ok () → ¬(there.stage c.aToB).Full) :
    (copyBidirectional there back env k c).result =
      join (wrote there env k c).result
        (back.poll env (k + (wrote there env k c).took)
          (c.bToA, (wrote there env k c).state, c.downstream)).result := by
  rw [copy_result fun r => r = _]
  refine lawful.writes env k _ _ _
    (fun a t k' => join a (back.poll env k' (c.bToA, t.2, t.1)).result = _) writing ?_
  exact ⟨held, rfl⟩

variable [AsyncWrite D]

omit [AsyncRead D] in
/-- What the other direction makes of it, once the first has written what it holds. -/
theorem over_back (lawful : back.Lawful) (refuses : Refuses env e c.downstream)
    (writing : (there.stage c.aToB).Writing)
    (held : (wrote there env k c).result = .ok () → ¬(there.stage c.aToB).Full) :
    Over there back env k c e (join (wrote there env k c).result
        (back.poll env (k + (wrote there env k c).took)
          (c.bToA, (wrote there env k c).state, c.downstream)).result) ↔
      ¬Deaf there back env k c := by
  unfold Over Deaf
  generalize wrote there env k c = o at held ⊢
  obtain ⟨a, u, n⟩ := o
  dsimp only at held ⊢
  cases a with
  | err x => simp [join]
  | panicked m => simp [join]
  | pending =>
    by_cases idle : back.Idle env (k + n) c.bToA u
    · simp [lawful.idles _ _ _ _ _ idle, join, idle, writing]
    · by_cases finished : back.stage c.bToA = .finished
      · simp [lawful.finished finished, join, finished, writing]
      · rcases lawful.turns refuses idle finished with fails | ⟨reads, waits, finds⟩
        · simp [fails, join, idle, finished]
        · simp [reads, join_pending finds, idle, finished, waits]
  | ok x =>
    by_cases idle : back.Idle env (k + n) c.bToA u
    · simp [lawful.idles _ _ _ _ _ idle, join, idle, writing, held]
    · by_cases finished : back.stage c.bToA = .finished
      · simp [lawful.finished finished, join, idle]
      · rcases lawful.turns refuses idle finished with fails | ⟨reads, waits, finds⟩
        · simp [fails, join, idle]
        · simp [reads, join, idle, waits]

/-- **A poll of a copy whose client refuses is over exactly when it is not deaf.** -/
theorem over_iff (lawfulThere : there.Lawful) (lawfulBack : back.Lawful)
    (refusesReads : RefusesReads env e c.downstream) (refuses : Refuses env e c.downstream) :
    Over there back env k c e (copyBidirectional there back env k c).result ↔
      ¬Deaf there back env k c := by
  by_cases writing : (there.stage c.aToB).Writing
  · by_cases refill : (wrote there env k c).result = .ok () ∧ (there.stage c.aToB).Full
    · -- the buffer is free again, and the next read is refused
      have fails : (copyBidirectional there back env k c).result = .err e :=
        copy_fails (lawfulThere.refills env k _ _ _ _ refill.2 refusesReads refill.1)
      refine ⟨fun _ deaf => ?_, fun _ => over_of_fails fails⟩
      rcases deaf.2 with ⟨waits, -⟩ | ⟨-, room, -⟩
      · rw [refill.1] at waits
        cases waits
      · exact room refill.2
    · have held : (wrote there env k c).result = .ok () → ¬(there.stage c.aToB).Full :=
        fun ok full => refill ⟨ok, full⟩
      rw [copy_writing lawfulThere writing held]
      exact over_back lawfulBack refuses writing held
  · -- it reads first, and is refused
    have first : ¬Deaf there back env k c := fun deaf => writing deaf.1
    simp only [Stage.Writing, ne_eq, not_forall, not_not] at writing
    obtain ⟨unsent, due, stage⟩ := writing
    have refused : there.reads env k c.aToB c.downstream = .err e := refusesReads k _
    refine ⟨fun _ => first, fun _ => over_of_fails (copy_fails ?_)⟩
    rw [lawfulThere.stops env k _ _ _ unsent due stage (by rw [refused]; nofun)
      (by rw [refused]; nofun), refused]

end Copying

end Trixter
