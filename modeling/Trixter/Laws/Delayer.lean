import Trixter.Delayer
import Trixter.Laws.Contract

/-!
# What one poll of a delay adapter does

`Delay.poll` and `Delay.maybeDelay` are settled first, one equation for each state of the timer.
`pollWithWriteDelay_wp` then says everything one delayed poll can do, and the write contract of
`DelayedWriter` follows from it. The contract is only for delays that fit into a `u64` of nanoseconds,
as those of a shared knob do: a longer `Duration` can overflow the clock, and the poll unwinds.
-/

namespace Trixter

open Trixter.Lib Polling

variable {D : Type} {env : World} {k : Nat}

/-- Polling a sleep asks the alarm once. -/
theorem Sleep.poll_wp {s : Sleep} {Q : Poll IoError Unit → Sleep → Nat → Prop} :
    Sleep.poll.wp env k s Q ↔
      if env.alarm s.deadline k then Q (.ok ()) s (k + 1) else Q .pending s (k + 1) := by
  simp only [Sleep.poll, wp_bind, wp_observe, wp_ite, wp_pure, wp_pend]

/-- How an addition to an `Instant` unwinds. -/
def overflow {α : Type} : Poll IoError α := .panicked "overflow when adding duration to instant"

theorem fromNow_wp {σ : Type} {duration : Nat} {s : σ} {Q : Poll IoError Nat → σ → Nat → Prop} :
    (fromNow duration).wp env k s Q ↔
      if env.horizon k < duration then Q overflow s (k + 1)
      else Q (.ok (env.clock k + duration)) s (k + 1) := by
  simp only [fromNow, wp_bind, wp_observe, wp_ite, wp_pure, wp_panic, overflow]

/-- Delays that fit into a `u64` of nanoseconds. -/
class ShortDuration (D : Type) [Duration D] : Prop where
  short : ∀ (env : World) (d : D) (k : Nat), Duration.duration env d k < 2 ^ 64

/-- A shared knob holds such a number. -/
instance : ShortDuration DynamicDuration where
  short env d k := (env.atomics d.cell k).toNat_lt

/-- A plain delay that can be added to every `Instant` there is. -/
def Addable (env : World) (d : Nat) : Prop := ∀ k, d ≤ env.horizon k

theorem Addable.of_lt {d : Nat} (short : d < 2 ^ 64) : Addable env d := fun k =>
  Nat.le_trans (Nat.le_of_lt short) (env.far k)

/-- `Duration::MAX`, in nanoseconds. -/
def longest : Nat := 2 ^ 64 * 1000000000 - 1

namespace Delay

theorem poll_idle {d : Delay D} {Q : Poll IoError Action → Delay D → Nat → Prop}
    (idle : d.state = .idle) : Delay.poll.wp env k d Q ↔ Q (.ok .beforeDelay) d k := by
  simp only [Delay.poll, wp_bind, wp_get, idle, wp_pure]

theorem poll_delayed {d : Delay D} {Q : Poll IoError Action → Delay D → Nat → Prop}
    (delayed : d.state = .delayed) : Delay.poll.wp env k d Q ↔
      if env.alarm d.sleep.deadline k then Q (.ok .afterDelay) { d with state := .idle } (k + 1)
      else Q .pending d (k + 1) := by
  obtain ⟨state, sleep, delayDuration⟩ := d
  cases delayed
  simp only [Delay.poll, wp_bind, wp_get, wp_zoom, Sleep.poll_wp, wp_modify, wp_pure]

/-- The timer armed at moment `k`, for the duration the knob then holds. -/
def armed [Duration D] (env : World) (k : Nat) (d : Delay D) : Delay D :=
  { d with
    state := .delayed
    sleep := ⟨env.clock (k + 1) + Duration.duration env d.delayDuration k⟩ }

/-- What the knob holds at moment `k` leads past the last `Instant`. -/
def Overflows [Duration D] (env : World) (k : Nat) (d : Delay D) : Prop :=
  env.horizon (k + 1) < Duration.duration env d.delayDuration k

instance [Duration D] {d : Delay D} : Decidable (d.Overflows env k) :=
  inferInstanceAs (Decidable (_ < _))

theorem not_overflows [Duration D] [ShortDuration D] (d : Delay D) : ¬d.Overflows env k :=
  Nat.not_lt.mpr (Nat.le_trans (Nat.le_of_lt (ShortDuration.short env d.delayDuration k))
    (env.far (k + 1)))

/-- The timer after an overflow: `Delayed`, behind the sleep of an earlier delay. -/
def stuck (d : Delay D) : Delay D := { d with state := .delayed }

theorem maybeDelay_idle [Duration D] {d : Delay D} {Q : Poll IoError Bool → Delay D → Nat → Prop}
    (idle : d.state = .idle) : Delay.maybeDelay.wp env k d Q ↔
      if Duration.duration env d.delayDuration k = 0 then Q (.ok false) d (k + 1)
      else if d.Overflows env k then Q overflow d.stuck (k + 2)
      else Q (.ok true) (d.armed env k) (k + 2) := by
  simp only [Delay.maybeDelay, wp_bind, wp_get, idle, wp_observe, wp_ite, wp_pure, fromNow_wp, wp_modify,
    Sleep.reset]
  rfl

/-- The timer after it fired. -/
def fired (d : Delay D) : Delay D := { d with state := .idle }

/-- The timers one poll of an adapter armed, told by the deadline. A poll that arms the timer then polls
it and is pending or makes its call, so it arms one at most. -/
def armings (before after : Delay D) : Nat := if after.sleep = before.sleep then 0 else 1

end Delay

theorem Addable.not_overflows {d : Nat} (fits : Addable env d) {delay : Delay Nat}
    (same : delay.delayDuration = d) : ¬delay.Overflows env k :=
  Nat.not_lt.mpr (same ▸ fits (k + 1))

namespace DelayedWriter

variable {T α : Type} [Duration D]

theorem delayLoop_delayed {f : Io T α} {s : DelayedWriter T D} {turns : Nat}
    {Q : Poll IoError α → DelayedWriter T D → Nat → Prop} (delayed : s.delay.state = .delayed) :
    (delayLoop f (turns + 1)).wp env k s Q ↔
      if env.alarm s.delay.sleep.deadline k then
        f.wp env (k + 1) s.inner fun r t k' => Q r ⟨t, s.delay.fired⟩ k'
      else Q .pending s (k + 1) := by
  simp only [delayLoop, onDelay, onInner, wp_bind, wp_zoom, Delay.poll_delayed delayed]
  split <;> rfl

theorem delayLoop_idle {f : Io T α} {s : DelayedWriter T D} {turns : Nat}
    {Q : Poll IoError α → DelayedWriter T D → Nat → Prop} (idle : s.delay.state = .idle) :
    (delayLoop f (turns + 1)).wp env k s Q ↔
      if Duration.duration env s.delay.delayDuration k = 0 then
        f.wp env (k + 1) s.inner fun r t k' => Q r ⟨t, s.delay⟩ k'
      else if s.delay.Overflows env k then Q overflow { s with delay := s.delay.stuck } (k + 2)
      else (delayLoop f turns).wp env (k + 2) { s with delay := s.delay.armed env k } Q := by
  simp only [delayLoop, onDelay, onInner, wp_bind, wp_zoom, Delay.poll_idle idle,
    Delay.maybeDelay_idle idle]
  split
  · rfl
  · split <;> rfl

/-- A third turn never comes: more turns change nothing. -/
theorem delayLoop_two {f : Io T α} {s : DelayedWriter T D} {turns : Nat}
    {Q : Poll IoError α → DelayedWriter T D → Nat → Prop} :
    (delayLoop f (turns + 2)).wp env k s Q ↔ (pollWithWriteDelay f).wp env k s Q := by
  unfold pollWithWriteDelay
  cases h : s.delay.state with
  | idle =>
    rw [delayLoop_idle h, delayLoop_idle h, delayLoop_delayed (by rfl), delayLoop_delayed (by rfl)]
  | delayed => rw [delayLoop_delayed h, delayLoop_delayed h]

/-- **One delayed poll.** With the timer idle and no delay configured the call goes through; with a
delay configured the timer is armed and then polled, if there is an `Instant` to arm it for; with the
timer armed it is polled. -/
theorem pollWithWriteDelay_wp {f : Io T α} {s : DelayedWriter T D}
    {Q : Poll IoError α → DelayedWriter T D → Nat → Prop} :
    (pollWithWriteDelay f).wp env k s Q ↔
      match s.delay.state with
      | .idle =>
        if Duration.duration env s.delay.delayDuration k = 0 then
          f.wp env (k + 1) s.inner fun r t k' => Q r ⟨t, s.delay⟩ k'
        else if s.delay.Overflows env k then
          Q overflow { s with delay := s.delay.stuck } (k + 2)
        else if env.alarm (s.delay.armed env k).sleep.deadline (k + 2) then
          f.wp env (k + 3) s.inner fun r t k' => Q r ⟨t, (s.delay.armed env k).fired⟩ k'
        else Q .pending { s with delay := s.delay.armed env k } (k + 3)
      | .delayed =>
        if env.alarm s.delay.sleep.deadline k then
          f.wp env (k + 1) s.inner fun r t k' => Q r ⟨t, s.delay.fired⟩ k'
        else Q .pending s (k + 1) := by
  unfold pollWithWriteDelay
  cases h : s.delay.state with
  | idle =>
    rw [delayLoop_idle h, delayLoop_delayed (by rfl)]
  | delayed => exact delayLoop_delayed h

/-- What holds of a pending poll that only touched the timer, and of every poll of `f` on the inner
writer, holds of the delayed poll. -/
theorem pollWithWriteDelay_of [ShortDuration D] {f : Io T α} {s : DelayedWriter T D}
    {Q : Poll IoError α → DelayedWriter T D → Nat → Prop}
    (waits : ∀ delay k', Q .pending { s with delay } k')
    (calls : ∀ delay k', f.wp env k' s.inner fun r t k'' => Q r ⟨t, delay⟩ k'') :
    (pollWithWriteDelay f).wp env k s Q := by
  rw [pollWithWriteDelay_wp]
  cases s.delay.state with
  | idle =>
    dsimp only
    rw [if_neg s.delay.not_overflows]
    split
    · exact calls _ _
    · split
      · exact calls _ _
      · exact waits _ _
  | delayed =>
    dsimp only
    split
    · exact calls _ _
    · exact waits _ _

variable [AsyncWrite T] {inv : T → Prop} {received : T → List UInt8}

/-- **A delayed writer keeps the write contract** of the writer it delays. -/
theorem contract [ShortDuration D] (h : Contract T inv received) :
    Contract (DelayedWriter T D) (fun s => inv s.inner) (fun s => received s.inner) where
  write env _ s buf hs :=
    pollWithWriteDelay_of (fun _ _ => ⟨hs, .pending⟩)
      fun _ k' => h.write env k' s.inner buf hs
  vectored env _ s bufs hs :=
    pollWithWriteDelay_of (fun _ _ => ⟨hs, .pending⟩)
      fun _ k' => h.vectored env k' s.inner bufs hs
  flush env k s hs := h.flush env k s.inner hs
  shutdown env _ s hs :=
    pollWithWriteDelay_of (fun _ _ => ⟨hs, rfl, calm_pending⟩)
      fun _ k' => h.shutdown env k' s.inner hs

/-- A flush is not delayed. -/
theorem flushReady (h : FlushReady T inv) :
    FlushReady (DelayedWriter T D) (fun s => inv s.inner) :=
  fun env k s hs => h env k s.inner hs

end DelayedWriter

namespace DelayedReader

variable {T α : Type} {s : DelayedReader T D} {buf : ReadBuf}

theorem onDelay_wp {m : Io (Delay D) α}
    {Q : Poll IoError α → DelayedReader T D × ReadBuf → Nat → Prop} :
    (onDelay m).wp env k (s, buf) Q ↔
      m.wp env k s.delay fun r delay k' => Q r ({ s with delay }, buf) k' := Iff.rfl

theorem onInner_wp {m : Io T α} {Q : Poll IoError α → DelayedReader T D × ReadBuf → Nat → Prop} :
    (onInner m).wp env k (s, buf) Q ↔
      m.wp env k s.inner fun r inner k' => Q r ({ s with inner }, buf) k' := Iff.rfl

variable [AsyncBufRead T]

/-- How many of the unread bytes a read hands over. -/
def handed (rem : List UInt8) (buf : ReadBuf) : Nat := min rem.length buf.remaining

/-- The reader after it handed over what fits of `rem`. -/
def delivered (s : DelayedReader T D) (rem : List UInt8) (buf : ReadBuf) : DelayedReader T D :=
  { s with
    inner := AsyncBufRead.consume (handed rem buf) s.inner
    bufEmpty := rem.length == handed rem buf }

/-- The caller's buffer after that. -/
def filled (rem : List UInt8) (buf : ReadBuf) : ReadBuf :=
  { buf with filled := buf.filled ++ rem.take (handed rem buf) }

theorem deliver_wp {rem : List UInt8}
    {Q : Poll IoError Unit → DelayedReader T D × ReadBuf → Nat → Prop} :
    (deliver rem).wp env k (s, buf) Q ↔ Q (.ok ()) (s.delivered rem buf, filled rem buf) k := by
  simp only [deliver, wp_bind, wp_get, onBuf, wp_zoom]
  rw [ReadBuf.putSlice_wp (by rw [List.length_take]; omega)]
  rfl

variable [Duration D]

/-- A turn with the timer armed: wait for it, or look at the buffer again. -/
theorem readLoop_delayed {turns : Nat}
    {Q : Poll IoError Unit → DelayedReader T D × ReadBuf → Nat → Prop}
    (delayed : s.delay.state = .delayed) :
    (readLoop (turns + 1)).wp env k (s, buf) Q ↔
      if env.alarm s.delay.sleep.deadline k then
        pollFillBuf.wp env (k + 1) s.inner fun r inner k' =>
          let s' := { s with inner, delay := s.delay.fired }
          match r with
          | .ok rem => Q (.ok ()) (s'.delivered rem buf, filled rem buf) k'
          | .pending =>
            Q (.panicked "internal error: entered unreachable code: buffer can't be empty")
              (s', buf) k'
          | .err e => Q (.err e) (s', buf) k'
          | .panicked m => Q (.panicked m) (s', buf) k'
      else Q .pending (s, buf) (k + 1) := by
  rw [readLoop, wp_bind, onDelay_wp, Delay.poll_delayed delayed]
  split
  · dsimp only
    rw [wp_bind, wp_orPending, onInner_wp, wp_iff, wp_iff]
    rcases pollFillBuf env (k + 1) s.inner with ⟨r, inner, n⟩
    cases r with
    | ok rem => exact deliver_wp
    | _ => rfl
  · rfl

/-- A turn with the timer idle: look at the buffer, and arm the timer or hand over. -/
theorem readLoop_idle {turns : Nat}
    {Q : Poll IoError Unit → DelayedReader T D × ReadBuf → Nat → Prop}
    (idle : s.delay.state = .idle) :
    (readLoop (turns + 1)).wp env k (s, buf) Q ↔
      pollFillBuf.wp env k s.inner fun r inner k' =>
        let s' := { s with inner }
        match r with
        | .ok rem =>
          if s.bufEmpty then
            if Duration.duration env s.delay.delayDuration k' = 0 then
              Q (.ok ()) (s'.delivered rem buf, filled rem buf) (k' + 1)
            else if s.delay.Overflows env k' then
              Q overflow ({ s' with delay := s.delay.stuck }, buf) (k' + 2)
            else (readLoop turns).wp env (k' + 2) ({ s' with delay := s.delay.armed env k' }, buf) Q
          else Q (.ok ()) (s'.delivered rem buf, filled rem buf) k'
        | .pending => Q .pending (s', buf) k'
        | .err e => Q (.err e) (s', buf) k'
        | .panicked m => Q (.panicked m) (s', buf) k' := by
  rw [readLoop, wp_bind, onDelay_wp, Delay.poll_idle idle]
  dsimp only
  rw [wp_bind, onInner_wp, wp_iff, wp_iff]
  rcases pollFillBuf env k s.inner with ⟨r, inner, n⟩
  cases r with
  | ok rem =>
    dsimp only
    rw [wp_bind, wp_get]
    dsimp only
    cases s.bufEmpty with
    | true =>
      simp only [if_true]
      rw [wp_bind, onDelay_wp, Delay.maybeDelay_idle idle]
      split
      · exact deliver_wp
      · split <;> rfl
    | false =>
      simp only [Bool.false_eq_true, if_false]
      rw [wp_bind, wp_pure]
      exact deliver_wp
  | _ => rfl

end DelayedReader

end Trixter
