import Trixter.Copy
import Trixter.Laws.Contract
import Trixter.Shutdowner

/-!
# Laws of the shutdowner

What each entry point does is settled by the channel alone, and by whether the task has the budget to
look at it: `pollError_wp`. An error that has been sent and not yet received fails the next poll that
looks, whichever it is.
-/

namespace Trixter

open Trixter.Lib Polling

variable {env : World} {k : Nat}

theorem Oneshot.poll_wp {rx : Oneshot} {Q : Poll IoError (Option BError) → Oneshot → Nat → Prop} :
    Oneshot.poll.wp env k rx Q ↔
      match rx with
      | .waiting => Q .pending .waiting (k + 1)
      | .sent err =>
        if env.proceeds k then Q (.ok (some err)) .complete (k + 1) else Q .pending (.sent err) (k + 1)
      | .dropped =>
        if env.proceeds k then Q (.ok none) .complete (k + 1) else Q .pending .dropped (k + 1)
      | .complete => Q (.panicked "called after complete") .complete k := by
  cases rx <;>
    simp only [Oneshot.poll, wp_bind, wp_get, wp_ite, wp_panic, proceeds_wp, wp_modify, wp_pure,
      wp_pend, reduceCtorEq, if_false, if_true, ite_self]

namespace Shutdowner

variable {T α : Type} {s : Shutdowner T}

theorem pollError_wp {Q : Poll IoError Unit → Shutdowner T → Nat → Prop} :
    (pollError : Io (Shutdowner T) Unit).wp env k s Q ↔
      match s.errRx with
      | none => Q (.err (.other .shutdown)) s k
      | some .waiting => Q .pending s (k + 1)
      | some (.sent err) =>
        if env.proceeds k then Q (.err (.other err)) { s with errRx := none } (k + 1)
        else Q .pending s (k + 1)
      | some .dropped =>
        if env.proceeds k then Q (.err (.other .shutdown)) { s with errRx := none } (k + 1)
        else Q .pending s (k + 1)
      | some .complete => Q (.panicked "called after complete") s k := by
  rw [pollError, wp_bind, wp_get]
  obtain ⟨inner, _ | rx⟩ := s
  · rfl
  · dsimp only
    rw [wp_bind, wp_inside, Oneshot.poll_wp]
    cases rx with
    | sent err => dsimp only; split <;> rfl
    | dropped => dsimp only; split <;> rfl
    | _ => rfl

/-- What a guarded poll does: it goes on to the inner stream while nothing has come that it looks at,
and else fails untouched. -/
def Guarded {β σ : Type} (env : World) (k : Nat) (errRx : Option Oneshot) (s tripped : σ)
    (Q : Poll IoError β → σ → Nat → Prop) (through : Prop) : Prop :=
  match errRx with
  | none => Q (.err (.other .shutdown)) s k
  | some .waiting => through
  | some (.sent err) => if env.proceeds k then Q (.err (.other err)) tripped (k + 1) else through
  | some .dropped =>
    if env.proceeds k then Q (.err (.other .shutdown)) tripped (k + 1) else through
  | some .complete => Q (.panicked "called after complete") s k

/-- Two ways to say what follows. -/
theorem Guarded.congr {β γ σ τ : Type} {errRx : Option Oneshot} {s tripped : σ} {s' tripped' : τ}
    {Q : Poll IoError β → σ → Nat → Prop} {Q' : Poll IoError γ → τ → Nat → Prop}
    {through through' : Prop} (stays : ∀ e k, Q (.err e) s k ↔ Q' (.err e) s' k)
    (trips : ∀ e k, Q (.err e) tripped k ↔ Q' (.err e) tripped' k)
    (panics : ∀ m k, Q (.panicked m) s k ↔ Q' (.panicked m) s' k) (same : through ↔ through') :
    Guarded env k errRx s tripped Q through ↔ Guarded env k errRx s' tripped' Q' through' := by
  obtain _ | _ | err | _ | _ := errRx
  · exact stays _ _
  · exact same
  · simp only [Guarded]
    split
    · exact trips _ _
    · exact same
  · simp only [Guarded]
    split
    · exact trips _ _
    · exact same
  · exact panics _ _

/-- It is enough to know what follows in each case. -/
theorem Guarded.of {β σ : Type} {errRx : Option Oneshot} {s tripped : σ}
    {Q : Poll IoError β → σ → Nat → Prop} {through : Prop}
    (gone : errRx = none → Q (.err (.other .shutdown)) s k)
    (trips : ∀ err, errRx = some (.sent err) ∨ err = .shutdown ∧ errRx = some .dropped →
      Q (.err (.other err)) tripped (k + 1))
    (panics : errRx = some .complete → Q (.panicked "called after complete") s k)
    (passes : errRx ≠ some .complete → through) : Guarded env k errRx s tripped Q through := by
  obtain _ | _ | err | _ | _ := errRx
  · exact gone rfl
  · exact passes nofun
  · simp only [Guarded]
    split
    · exact trips _ (.inl rfl)
    · exact passes nofun
  · simp only [Guarded]
    split
    · exact trips _ (.inr ⟨rfl, rfl⟩)
    · exact passes nofun
  · exact panics rfl

/-- A guarded call is one call on the inner stream, or fails. -/
theorem guarded_wp {call : Io T α} {Q : Poll IoError α → Shutdowner T → Nat → Prop} :
    (guarded call).wp env k s Q ↔
      Guarded env k s.errRx s { s with errRx := none } Q
        (call.wp env (k + 1) s.inner fun r inner k' => Q r { s with inner } k') := by
  rw [guarded, wp_bind, wp_orPending, pollError_wp]
  obtain ⟨inner, _ | _ | err | _ | _⟩ := s
  all_goals rfl

/-- A read is one read of the inner stream, or fails. -/
theorem read_wp [AsyncRead T] {buf : ReadBuf}
    {Q : Poll IoError Unit → Shutdowner T × ReadBuf → Nat → Prop} :
    (pollRead : Io (Shutdowner T × ReadBuf) Unit).wp env k (s, buf) Q ↔
      Guarded env k s.errRx (s, buf) ({ s with errRx := none }, buf) Q
        ((pollRead : Io (T × ReadBuf) Unit).wp env (k + 1) (s.inner, buf) fun r t k' =>
          Q r ({ s with inner := t.1 }, t.2) k') := by
  simp only [AsyncRead.pollRead, wp_bind, wp_orPending, wp_zoom, pollError_wp]
  obtain ⟨inner, _ | _ | err | _ | _⟩ := s
  all_goals rfl

variable {err : BError}

/-- An error in the channel fails a guarded call that looks. -/
theorem guarded_refused {call : Io T α} (sent : s.errRx = some (.sent err)) (looks : env.proceeds k) :
    (guarded call env k s).result = .err (.other err) := by
  have refused : (guarded call).wp env k s fun r _ _ => r = .err (.other err) := by
    rw [guarded_wp, sent, Guarded, if_pos looks]
  exact refused

/-- An error in the channel fails every poll of the writer, if the channel is never held back. -/
theorem refuses [AsyncWrite T] (sent : s.errRx = some (.sent err)) (looks : ∀ k, env.proceeds k) :
    Refuses env (.other err) s where
  write k _ := guarded_refused sent (looks k)
  flush k := guarded_refused sent (looks k)
  shutdown k := guarded_refused sent (looks k)

/-- And every read. -/
theorem refusesReads [AsyncRead T] (sent : s.errRx = some (.sent err)) (looks : ∀ k, env.proceeds k) :
    RefusesReads env (.other err) s := by
  intro k buf
  have refused : (pollRead : Io (Shutdowner T × ReadBuf) Unit).wp env k (s, buf) fun r _ _ =>
      r = .err (.other err) := by
    rw [read_wp, sent, Guarded, if_pos (looks k)]
  exact refused

end Shutdowner

end Trixter
