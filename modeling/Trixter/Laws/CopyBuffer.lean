import Trixter.CopyBuffer

/-!
# Laws of a direction of a copy

`lawful`: `CopyBuffer.transfer` goes about its work as `Transfer.Lawful` says. The writer's part of a poll
is compared with `Stage.writeOut`, turn by turn.
-/

namespace Trixter

open Trixter.Lib Polling

namespace CopyBuffer

variable {R W : Type} {env : World} {k : Nat} {b : CopyBuffer} {r : R} {w : W}

section Writer

variable [AsyncWrite W] {e : IoError}

/-- The writes of `drain` are those of `pushAll`, and when they are done the buffer is empty. -/
theorem drain_wp {turns : Nat} (enough : b.unsent.length ≤ turns)
    {Q : Poll IoError Unit → CopyBuffer × R × W → Nat → Prop}
    (h : (pushAll turns b.unsent).wp env k w fun a w' k' =>
      ∀ b' : CopyBuffer, (a = .ok () → b'.unsent = []) → b'.readDone = b.readDone →
        b'.state = b.state → Q a (b', r, w') k') :
    (drain turns).wp env k (b, r, w) Q := by
  induction turns generalizing b w k with
  | zero => exact h b (fun _ => List.length_eq_zero_iff.mp (Nat.le_zero.mp enough)) rfl rfl
  | succ turns ih =>
    rw [drain, wp_bind, wp_get]
    by_cases none : b.unsent = []
    · rw [pushAll, if_pos none] at h
      simp only [if_pos none, wp_pure]
      exact h b (fun _ => none) rfl rfl
    · rw [pushAll, if_neg none, wp_bind] at h
      simp only [if_neg none]
      rw [wp_bind, onWriter, wp_zoom]
      refine wp_mono h ?_
      rintro (_ | x | n | m) w' k' h
      · exact h b (fun eq => by cases eq) rfl rfl
      · exact h b (fun eq => by cases eq) rfl rfl
      · dsimp only at h ⊢
        by_cases zero : n = 0
        · rw [if_pos zero] at h ⊢
          exact h b (fun eq => by cases eq) rfl rfl
        · rw [if_neg zero] at h ⊢
          rw [wp_bind, wp_modify]
          refine ih (b := b.advance n) ?_ h
          have shorter : (b.unsent.drop n).length ≤ turns := by
            rw [List.length_drop]
            omega
          exact shorter
      · exact h b (fun eq => by cases eq) rfl rfl

/-- What is held is offered to the writer. -/
theorem drain_refused (some : b.unsent ≠ []) (refuses : Refuses env e w) :
    (drain b.unsent.length).wp env k (b, r, w) fun a _ _ => a = .err e := by
  refine drain_wp (Nat.le_refl _) (wp_mono (Q := fun a _ _ => a = .err e) ?_ ?_)
  · obtain ⟨byte, rest, eq⟩ := List.exists_cons_of_ne_nil some
    rw [eq, List.length_cons, pushAll, if_neg (List.cons_ne_nil _ _)]
    exact wp_bind_err (refuses.write k _)
  · exact fun a w' k' h b' _ _ _ => h

theorem close_wp {Q : Poll IoError Unit → R × W → Nat → Prop} :
    (close : Io (CopyBuffer × R × W) Unit).wp env k (b, r, w) (fun a t k' => Q a t.2 k') ↔
      pollShutdown.wp env k w fun a w' k' => Q a (r, w') k' := by
  rw [close, wp_bind, onWriter, wp_zoom]
  dsimp only
  unfold wp
  cases (pollShutdown env k w).result <;> rfl

end Writer

variable [AsyncRead R] [AsyncWrite W]

/-- With no room, or after the end of the stream, nothing is read. -/
theorem readFirst_skips (skip : (b.hasRoom && !b.readDone) = false)
    {Q : Poll IoError Unit → CopyBuffer × R × W → Nat → Prop} :
    readFirst.wp env k (b, r, w) Q ↔ Q (.ok ()) (b, r, w) k := by
  rw [readFirst, wp_bind, wp_get]
  simp only [skip]
  rfl

/-- With room, what comes next is for the reader to say. -/
theorem readFirst_wp (room : (b.hasRoom && !b.readDone) = true)
    {Q : Poll IoError Unit → CopyBuffer × R × W → Nat → Prop} :
    readFirst.wp env k (b, r, w) Q ↔
      (pollRead : Io (R × ReadBuf) Unit).wp env k (r, b.window) fun a t k' =>
        match a with
        | .ok _ => Q (.ok ()) (b.refill t.2, t.1, w) k'
        | .pending => rest.wp env k' (b, t.1, w) Q
        | .err e => Q (.err e) (b, t.1, w) k'
        | .panicked m => Q (.panicked m) (b, t.1, w) k' := by
  rw [readFirst, wp_bind, wp_get]
  simp only [room, if_true]
  rw [wp_bind, wp_orPending, fill, wp_bind, wp_get]
  dsimp only
  rw [wp_bind, wp_zoom, wp_lend]
  dsimp only
  unfold wp
  cases (pollRead env k (r, b.window)).result <;> rfl

theorem poll_closing (closing : b.state = .shuttingDown)
    {Q : Poll IoError Unit → CopyBuffer × R × W → Nat → Prop} :
    poll.wp env k (b, r, w) Q ↔ close.wp env k (b, r, w) Q := by
  rw [poll, wp_bind, wp_get]
  simp only [closing]

theorem poll_done (done : b.state = .done)
    {Q : Poll IoError Unit → CopyBuffer × R × W → Nat → Prop} :
    poll.wp env k (b, r, w) Q ↔ Q (.ok ()) (b, r, w) k := by
  rw [poll, wp_bind, wp_get]
  simp only [done]
  rfl

theorem poll_running (running : b.state = .running)
    {Q : Poll IoError Unit → CopyBuffer × R × W → Nat → Prop} :
    poll.wp env k (b, r, w) Q ↔
      (do
        copy 128
        Polling.modify fun s => ({ s.1 with state := .shuttingDown }, s.2)
        close).wp env k (b, r, w) Q := by
  rw [poll, wp_bind, wp_get]
  simp only [running]

/-! ## Stages -/

theorem stage_reading {unsent : List UInt8} {due : Bool} (h : b.stage = .reading unsent due) :
    b.state = .running ∧ (b.hasRoom && !b.readDone) = true ∧ b.unsent = unsent ∧
      b.needFlush = due := by
  obtain ⟨written, held, readDone, needFlush, state, reset⟩ := b
  cases state with
  | running =>
    cases readDone with
    | true => cases h
    | false =>
      simp only [stage, Bool.false_eq_true, if_false] at h
      split at h
      · next room =>
        cases h
        exact ⟨rfl, by simpa using room, rfl, rfl⟩
      · cases h
  | shuttingDown => cases h
  | done => cases h

theorem stage_full (h : b.stage.Full) :
    b.state = .running ∧ b.readDone = false ∧ b.hasRoom = false ∧ b.stage = .full b.unsent := by
  obtain ⟨unsent, h⟩ := h
  obtain ⟨written, held, readDone, needFlush, state, reset⟩ := b
  cases state with
  | running =>
    cases readDone with
    | true => cases h
    | false =>
      have h' := h
      simp only [stage, Bool.false_eq_true, if_false] at h
      split at h
      · cases h
      · next room =>
        cases h
        exact ⟨rfl, rfl, by simpa using room, h'⟩
  | shuttingDown => cases h
  | done => cases h

/-- An empty buffer has room. -/
theorem hasRoom_of_empty (none : b.unsent = []) : b.hasRoom = true := by
  rw [hasRoom, b.reset none, none]
  rfl

theorem stage_full_ne : b.stage ≠ .full [] := by
  intro h
  obtain ⟨-, -, room, stage⟩ := stage_full ⟨[], h⟩
  have none : b.unsent = [] := Stage.full.inj (stage.symm.trans h)
  rw [hasRoom_of_empty none] at room
  cases room

/-! ## The laws -/

variable {e : IoError}

/-- A read that fails ends the turn. -/
theorem copy_stops {turns : Nat} (room : (b.hasRoom && !b.readDone) = true) {a : Poll IoError Unit}
    (reads : (pollRead env k (r, b.window)).result = a) (waits : a ≠ .pending) (finds : a ≠ .ok ()) :
    (copy (turns + 1)).wp env k (b, r, w) fun c _ _ => c = a := by
  refine wp_bind_stop (readFirst_wp (Q := fun c _ _ => c = a) room |>.mpr ?_) fun _ h => finds h
  refine wp_mono (Q := fun c _ _ => c = a) reads ?_
  rintro (_ | x | u | m) t k' rfl
  · exact absurd rfl waits
  · rfl
  · exact absurd rfl finds
  · rfl

omit [AsyncRead R] in
/-- When something is held or the reader has ended, what follows the read is for the writer. -/
theorem writeTurn_refused {onwards : Io (CopyBuffer × R × W) Unit} (refuses : Refuses env e w)
    (due : b.unsent = [] → b.readDone = true) :
    (writeTurn onwards).wp env k (b, r, w) fun c _ _ => c = .err e := by
  rw [writeTurn, wp_bind, wp_get]
  by_cases none : b.unsent = []
  · dsimp only
    rw [none, List.length_nil, drain, wp_bind, wp_pure]
    dsimp only
    rw [wp_bind, wp_get]
    dsimp only
    rw [due none, if_pos rfl]
    exact refuses.flush k
  · exact wp_bind_err (drain_refused none refuses)

omit [AsyncRead R] in
/-- With nothing held and something to flush, the wait begins with the writer. -/
theorem rest_refused (none : b.unsent = []) (flush : b.needFlush = true) (refuses : Refuses env e w) :
    rest.wp env k (b, r, w) fun c _ _ => c = .err e := by
  rw [rest, wp_bind, wp_get]
  simp only [none, if_true, flush]
  exact wp_bind_err (refuses.flush k)

/-- With something held, or something left to flush, the turn goes to the writer. -/
theorem copy_speaks {turns : Nat} (room : (b.hasRoom && !b.readDone) = true)
    (refuses : Refuses env e w)
    (reads : (pollRead env k (r, b.window)).result = .ok () ∨
      (pollRead env k (r, b.window)).result = .pending ∧ (b.unsent ≠ [] ∨ b.needFlush = true)) :
    (copy (turns + 1)).wp env k (b, r, w) fun c _ _ => c = .err e := by
  rw [copy, wp_bind, readFirst_wp room, wp_iff]
  generalize pollRead env k (r, b.window) = o at reads
  obtain ⟨a, t, n⟩ := o
  rcases reads with rfl | ⟨rfl, held⟩
  · refine writeTurn_refused refuses fun none => ?_
    obtain ⟨-, nothing⟩ := List.append_eq_nil_iff.mp none
    exact List.isEmpty_iff.mpr nothing
  · dsimp only
    by_cases none : b.unsent = []
    · have flush : b.needFlush = true := held.resolve_left (fun some => some none)
      refine wp_mono (rest_refused none flush refuses) ?_
      rintro _ s k' rfl
      rfl
    · rw [rest, wp_bind, wp_get]
      simp only [none, if_false, wp_pure]
      exact writeTurn_refused refuses fun h => absurd h none

/-- With nothing held and nothing to flush, a turn waits for the reader. -/
theorem copy_waits {turns : Nat} (room : (b.hasRoom && !b.readDone) = true) (none : b.unsent = [])
    (flush : b.needFlush = false) (reads : (pollRead env k (r, b.window)).result = .pending) :
    (copy (turns + 1)).wp env k (b, r, w) fun c _ _ => c = .pending := by
  refine wp_bind_stop (readFirst_wp (Q := fun c _ _ => c = .pending) room |>.mpr ?_) nofun
  refine wp_mono (Q := fun c _ _ => c = .pending) reads ?_
  rintro _ t k' rfl
  dsimp only
  rw [rest, wp_bind, wp_get]
  simp [none, flush]

/-- A turn that does not read writes first what is held. -/
theorem copy_skips {turns : Nat} (skip : (b.hasRoom && !b.readDone) = false)
    {Q : Poll IoError Unit → CopyBuffer × R × W → Nat → Prop}
    (h : (pushAll b.unsent.length b.unsent).wp env k w fun a w' k' =>
      ∀ b' : CopyBuffer, (a = .ok () → b'.unsent = []) → b'.readDone = b.readDone →
        match a with
        | .ok _ =>
          (if b.readDone = true then (onWriter pollFlush).wp env k' (b', r, w') Q
            else (copy turns).wp env k' (b', r, w') Q)
        | .pending => Q .pending (b', r, w') k'
        | .err e => Q (.err e) (b', r, w') k'
        | .panicked m => Q (.panicked m) (b', r, w') k') :
    (copy (turns + 1)).wp env k (b, r, w) Q := by
  rw [copy, wp_bind, readFirst_skips skip]
  dsimp only
  rw [writeTurn, wp_bind, wp_get]
  dsimp only
  rw [wp_bind]
  refine drain_wp (Nat.le_refl _) (wp_mono h ?_)
  rintro (_ | x | u | m) w' k' h b' empty readDone state
  · exact h b' empty readDone
  · exact h b' empty readDone
  · have h := h b' empty readDone
    dsimp only at h ⊢
    rw [wp_bind, wp_get]
    dsimp only
    rw [wp_ite, readDone]
    exact h
  · exact h b' empty readDone

/-- With the reader at its end, what is held is written and flushed, and the writer is shut down. -/
theorem poll_draining (running : b.state = .running) (ended : b.readDone = true)
    (Q : Poll IoError Unit → R × W → Nat → Prop)
    (h : (Stage.draining b.unsent).writeOut.wp env k w fun a w' k' => Q a (r, w') k') :
    poll.wp env k (b, r, w) fun a t k' => Q a t.2 k' := by
  rw [poll_running running, wp_bind]
  refine copy_skips (by rw [ended, Bool.not_true, Bool.and_false]) ?_
  rw [Stage.writeOut, wp_bind] at h
  refine wp_mono h ?_
  rintro (_ | x | u | m) w' k' h b' - -
  · exact h
  · exact h
  · dsimp only at h ⊢
    rw [if_pos ended, onWriter, wp_zoom]
    rw [wp_bind] at h
    refine wp_mono h ?_
    rintro (_ | x | u | m) w' k' h
    · exact h
    · exact h
    · dsimp only
      rw [wp_bind, wp_modify]
      exact close_wp.mpr h
    · exact h
  · exact h

/-- With a full buffer, what is held is written. -/
theorem poll_full (full : b.stage.Full) (Q : Poll IoError Unit → R × W → Nat → Prop)
    (h : (pushAll b.unsent.length b.unsent).wp env k w fun a w' k' =>
      a ≠ .ok () ∧ Q a (r, w') k') :
    poll.wp env k (b, r, w) fun a t k' => Q a t.2 k' := by
  obtain ⟨running, -, room, -⟩ := stage_full full
  rw [poll_running running, wp_bind]
  refine copy_skips (by rw [room, Bool.false_and]) (wp_mono h ?_)
  rintro (_ | x | u | m) w' k' ⟨held, h⟩ b' - -
  · exact h
  · exact h
  · exact absurd rfl held
  · exact h

/-- A full buffer that has been written is filled again. -/
theorem poll_refills (full : b.stage.Full) (refuses : RefusesReads env e r)
    (wrote : (pushAll b.unsent.length b.unsent env k w).result = .ok ()) :
    poll.wp env k (b, r, w) fun a _ _ => a = .err e := by
  obtain ⟨running, reading, room, -⟩ := stage_full full
  rw [poll_running running]
  refine wp_bind_err (copy_skips (Q := fun a _ _ => a = .err e)
    (by rw [room, Bool.false_and]) (wp_mono (Q := fun a _ _ => a = .ok ()) wrote ?_))
  rintro _ w' k' rfl b' empty readDone
  dsimp only
  rw [if_neg (by rw [reading]; nofun)]
  exact copy_stops (by rw [hasRoom_of_empty (empty rfl), readDone, reading]; rfl)
    (refuses k' _) nofun nofun

/-- **The direction goes about its work as it should.** -/
theorem lawful : (transfer R W).Lawful where
  full_ne _ := stage_full_ne
  stops env k b r w unsent due stage waits finds := by
    obtain ⟨running, room, -, -⟩ := stage_reading stage
    refine (poll_running (R := R) (W := W) (Q := fun a _ _ => a = _) running).mpr ?_
    exact wp_bind_stop (copy_stops room rfl waits finds) fun _ h => finds h
  idles := by
    rintro env k b r w ⟨stage, waits⟩
    obtain ⟨running, room, none, flush⟩ := stage_reading stage
    refine (poll_running (R := R) (W := W) (Q := fun a _ _ => a = .pending) running).mpr ?_
    exact wp_bind_stop (copy_waits room none flush waits) nofun
  speaks env k b r w e unsent due stage refuses reads := by
    obtain ⟨running, room, rfl, rfl⟩ := stage_reading stage
    refine (poll_running (R := R) (W := W) (Q := fun a _ _ => a = .err e) running).mpr ?_
    exact wp_bind_err (copy_speaks room refuses reads)
  writes env k b r w Q writing h := by
    change b.stage.Writing at writing
    change b.stage.writeOut.wp env k w (fun a w' k' =>
      (a = .ok () → ¬b.stage.Full) ∧ Q a (r, w') k') at h
    cases running : b.state with
    | running =>
      cases ended : b.readDone with
      | true =>
        have stage : b.stage = .draining b.unsent := by simp [stage, running, ended]
        rw [stage] at h
        exact poll_draining running ended Q (wp_mono h fun _ _ _ h => h.2)
      | false =>
        cases room : b.hasRoom with
        | true => exact absurd (by simp [stage, running, ended, room]) (writing b.unsent b.needFlush)
        | false =>
          have stage : b.stage = .full b.unsent := by simp [stage, running, ended, room]
          refine poll_full ⟨_, stage⟩ Q ?_
          rw [stage] at h
          exact wp_mono h fun _ _ _ h => ⟨fun ok => h.1 ok ⟨_, rfl⟩, h.2⟩
    | shuttingDown =>
      have stage : b.stage = .closing := by simp [stage, running]
      rw [stage] at h
      refine (poll_closing running).mpr ?_
      exact close_wp.mpr (wp_mono h fun _ _ _ h => h.2)
    | done =>
      have stage : b.stage = .finished := by simp [stage, running]
      rw [stage] at h
      exact (poll_done running).mpr h.2
  refills env k b r w e full refuses wrote := by
    refine poll_refills full refuses ?_
    rw [← wrote]
    change _ = (b.stage.writeOut env k w).result
    rw [(stage_full full).2.2.2]
    rfl

end CopyBuffer

end Trixter
