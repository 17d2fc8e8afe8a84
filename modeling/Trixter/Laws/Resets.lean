import Trixter.Laws.Relay
import Trixter.ResetLinger

/-!
# Which connections are reset

`resets_iff`: a fuse that blows ends the copy with its own error, at once, and nothing else brings that
error. So the clean-up asks for a reset of both sockets if one of the fuses is blown or the time is up,
and in no other case. What a socket makes of the request is its own affair.
-/

namespace Trixter

open Trixter.Lib Polling

variable {A B W G : Type}

namespace Pipeline

variable {env : World} {prob : DynamicProbability} {k : Nat} {b : Books} {e : IoError}
  {s : Pipeline W G}

/-- The fuse of the wrapped socket. -/
def blown (s : Pipeline W G) : Bool := s.inner.triggered

/-- A wrapped socket with another one in it. -/
def onSocket (f : W → W) (s : Pipeline W G) : Pipeline W G :=
  { s with inner.inner.inner.inner.inner := f s.socket }

theorem whole_of_holds {throttled : Law (ThrottledWriter (DelayedWriter W DynamicDuration) DynamicRate)}
    (h : (law env prob throttled).holds k b s) : s.blown = false := by
  obtain ⟨knob, stored, inner, heard, said, sliced, whole⟩ := h
  exact whole

/-- A wrapped socket fails with the terminator's error when the fuse has blown, and only then. -/
theorem blown_of_fails [Peer W] (h : (law env prob (books W)).fails e k b s) :
    e = terminatedError ↔ s.blown = true := by
  obtain ⟨knob, inner, heard, said, failed⟩ := h
  rcases failed with (⟨own, -, blown⟩ | ⟨⟨⟨code, rfl⟩, -⟩, whole⟩) | ⟨⟨text, rfl⟩, -, whole⟩
  · exact iff_of_true own blown
  · refine iff_of_false (fun own => by cases own) ?_
    rw [Pipeline.blown, whole]
    exact Bool.false_ne_true
  · refine iff_of_false (fun own => by cases own) ?_
    rw [Pipeline.blown, whole]
    exact Bool.false_ne_true

/-- The request goes through to the socket. -/
theorem setResetLinger_eq [ResetLinger W] (s : Pipeline W G) :
    (setResetLinger s).2 = s.onSocket fun w => (setResetLinger w).2 := rfl

end Pipeline

namespace Task

variable {there : Transfer A (Shutdowner (Pipeline W G)) (Pipeline W G)}
  {back : Transfer B (Pipeline W G) (Shutdowner (Pipeline W G))} {env : World} {k : Nat}
  {t : Task A B W G}

/-- One of the connection's fuses is blown. -/
def Blown (t : Task A B W G) : Prop :=
  t.copying.downstream.inner.blown = true ∨ t.copying.upstream.blown = true

/-- The connection has used up its time. -/
def TimedOut (t : Task A B W G) : Prop := t.res = some (.err (.other .timeout))

instance : Decidable t.Blown := inferInstanceAs (Decidable (_ ∨ _))

instance : Decidable t.TimedOut := inferInstanceAs (Decidable (_ = _))

/-- The same copy, between other sockets. -/
def onSockets (f : W → W) (c : Copying A B (Shutdowner (Pipeline W G)) (Pipeline W G)) :
    Copying A B (Shutdowner (Pipeline W G)) (Pipeline W G) :=
  { c with downstream.inner := c.downstream.inner.onSocket f, upstream := c.upstream.onSocket f }

/-- The downstream side fails with the terminator's error when its fuse has blown, and only then: the
API sends another one. -/
theorem front_blown [Peer W] {prob : DynamicProbability} {b : Books} {e : IoError}
    {d : Shutdowner (Pipeline W G)}
    (h : (t.front (Pipeline.law env prob (Pipeline.books W))).fails e k b d) :
    e = terminatedError ↔ d.inner.blown = true := by
  obtain ⟨failed | ⟨word, hold⟩, -⟩ := h
  · exact Pipeline.blown_of_fails failed
  · have whole := Pipeline.whole_of_holds hold
    refine iff_of_false ?_ (by rw [whole]; exact Bool.false_ne_true)
    rcases word with rfl | ⟨err, ⟨reason, rfl⟩, rfl⟩
    · exact fun own => by cases own
    · exact fun own => by cases own

/-- **A task fails with the terminator's error when a fuse is blown, and only then.** -/
theorem KeepsBooks.blown_iff [Peer W] (h : KeepsBooks there back env k t) :
    t.res = some (.err terminatedError) ↔ t.Blown := by
  obtain ⟨prob, h⟩ := h
  have whole : t.copying.Holds there back (t.front (Pipeline.law env prob (Pipeline.books W)))
      (Pipeline.law env prob (Pipeline.books W)) k → ¬t.Blown := by
    rintro ⟨bd, bu, -, hd, hu⟩
    rw [Blown, Pipeline.whole_of_holds hd.1, Pipeline.whole_of_holds hu]
    simp
  have fuses : ∀ e, t.copying.Fails there back (t.front (Pipeline.law env prob (Pipeline.books W)))
      (Pipeline.law env prob (Pipeline.books W)) e k → (e = terminatedError ↔ t.Blown) := by
    rintro e ⟨bd, bu, -, ⟨hd, hu⟩ | ⟨hd, hu⟩ | ⟨rfl, hd, hu⟩⟩
    · rw [front_blown hd, Blown, Pipeline.whole_of_holds hu]
      simp
    · rw [Pipeline.blown_of_fails hu, Blown, Pipeline.whole_of_holds hd.1]
      simp
    · rw [Blown, Pipeline.whole_of_holds hd.1, Pipeline.whole_of_holds hu]
      refine iff_of_false (fun own => by cases own) (by simp)
  obtain ⟨id, copying, timer, res⟩ := t
  rcases res with _ | _ | e | u | m
  · exact iff_of_false (fun own => by cases own) (whole h)
  · exact h.elim
  · rcases h with failed | ⟨rfl, hold⟩
    · rw [← fuses e failed]
      simp
    · exact iff_of_false (fun own => by cases own) (whole hold)
  · exact iff_of_false (fun own => by cases own) (whole h.1)
  · exact h.elim

/-- What the clean-up makes of the sockets. -/
theorem release_eq [ResetLinger W] (blown : t.res = some (.err terminatedError) ↔ t.Blown) :
    t.release = if t.Blown ∨ t.TimedOut then onSockets (fun w => (setResetLinger w).2) t.copying
      else t.copying := by
  have lingers : (∃ res, t.res = some res ∧ Server.lingers res = true) ↔ t.Blown ∨ t.TimedOut := by
    rw [← blown, TimedOut]
    constructor
    · rintro ⟨res, ended, lingers⟩
      rw [ended]
      unfold Server.lingers at lingers
      split at lingers
      · exact .inl rfl
      · exact .inr rfl
      · cases lingers
    · rintro (ended | ended)
      · exact ⟨_, ended, rfl⟩
      · exact ⟨_, ended, rfl⟩
  unfold release
  split
  · next res ended =>
    by_cases l : Server.lingers res = true
    · rw [if_pos l, if_pos (lingers.mp ⟨res, ended, l⟩), onSockets, ← Pipeline.setResetLinger_eq,
        ← Pipeline.setResetLinger_eq]
      rfl
    · rw [if_neg l, if_neg]
      intro reset
      obtain ⟨res', ended', l'⟩ := lingers.mpr reset
      rw [ended] at ended'
      cases ended'
      exact l l'
  · next running =>
    rw [if_neg]
    intro reset
    obtain ⟨res, ended, -⟩ := lingers.mpr reset
    rw [running] at ended
    cases ended

end Task

namespace Server

variable {there : Transfer A (Shutdowner (Pipeline W G)) (Pipeline W G)}
  {back : Transfer B (Pipeline W G) (Shutdowner (Pipeline W G))}

/-- **A connection is reset when a fuse is blown or its time is up.** In every run, at every moment: no
fuse of a task that still copies is blown, and the clean-up asks both sockets for a reset if one of the
fuses is blown or the task has timed out, and else leaves all as it is. -/
theorem resets_iff [SmallRng G] [Peer W] [ResetLinger W] (cfg : Config G) (env : World)
    (copiesThere : there.Copies) (copiesBack : back.Copies) (k : Nat) (events : List (Event W))
    (fresh : ∀ ev ∈ events, FreshSockets ev) :
    (machine cfg there back env).Throughout
      (fun _ s => ∀ n t, s.state.tasks n = some t → (t.res = none → ¬t.Blown) ∧
        t.release = if t.Blown ∨ t.TimedOut then
            Task.onSockets (fun w => (setResetLinger w).2) t.copying
          else t.copying) ⟨k, empty⟩ events := by
  refine run_keepsBooks cfg env copiesThere copiesBack k fresh fun s ev _ _ booked n t task => ?_
  have h := booked n t task
  refine ⟨fun running blown => ?_, Task.release_eq h.blown_iff⟩
  have ended := h.blown_iff.mpr blown
  rw [running] at ended
  cases ended

/-- A line that is reset has nothing more to give. -/
instance : ResetLinger Line where
  setResetLinger s := (.ok (), { s with coming := [] })

/-- Every draw of a terminator whose knob is the seventh cell hits. -/
def brittle : World :=
  { World.still with atomics := fun cell _ => if cell = 7 then 0xFFFFFFFFFFFFFFFF else 0 }

/-- A connection whose fuse blows at its first poll. -/
def blowing : List (Event Line) :=
  [.accept "a" (line [some [104, 105], none]) (line [])
    { knobsOff with terminateProbabilityRate := ⟨7⟩ }, .poll 0, .cleanUp 0]

theorem blowing_resets :
    (machine plain (CopyBuffer.transfer _ _) (CopyBuffer.transfer _ _) brittle).Throughout
      (fun _ s => ∀ n t, s.state.tasks n = some t → (t.res = none → ¬t.Blown) ∧
        t.release = if t.Blown ∨ t.TimedOut then
            Task.onSockets (fun w => (setResetLinger w).2) t.copying
          else t.copying) ⟨0, empty⟩ blowing := by
  refine resets_iff plain brittle CopyBuffer.copies CopyBuffer.copies 0 blowing ?_
  intro ev mem
  rcases mem with _ | ⟨_, _ | ⟨_, _ | ⟨_, ⟨⟩⟩⟩⟩
  · exact ⟨⟨rfl, rfl⟩, rfl, rfl⟩
  · trivial
  · trivial

end Server

end Trixter
