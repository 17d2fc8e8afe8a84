import Trixter.Laws.Copies
import Trixter.Laws.Tasks

/-!
# What a connection relays

`connections_relay`: each socket of a connection has received what the other gave, in order, but for what
the copy still holds and what a corrupter puts in.

A task keeps the laws of its two wrapped sockets (`KeepsLaws.polled`): while it copies they hold, with
both books balanced, and when it has ended they hold, or one of them has failed as the result says. When a
byte is relayed is not said.
-/

namespace Trixter

open Trixter.Lib Polling

variable {A B W G : Type}

/-! ## A word to the copy's downstream stream -/

namespace Copying

variable {D U : Type} {there : Transfer A D U} {back : Transfer B U D} {ld ld' : Law D} {lu : Law U}
  {k : Nat} {c : Copying A B D U} {d : D}

theorem Holds.downstream (h : Holds there back ld lu k c)
    (holds : ∀ b, ld.holds k b c.downstream → ld'.holds k b d) :
    Holds there back ld' lu k { c with downstream := d } := by
  obtain ⟨bd, bu, balanced, hd, hu⟩ := h
  exact ⟨bd, bu, balanced, holds bd hd, hu⟩

theorem Fails.downstream {e : IoError} (h : Fails there back ld lu e k c)
    (holds : ∀ b, ld.holds k b c.downstream → ld'.holds k b d)
    (fails : ∀ b, ld.fails e k b c.downstream → ld'.fails e k b d) :
    Fails there back ld' lu e k { c with downstream := d } := by
  obtain ⟨bd, bu, balanced, failed⟩ := h
  refine ⟨bd, bu, balanced, ?_⟩
  rcases failed with ⟨hd, hu⟩ | ⟨hd, hu⟩ | ⟨zero, hd, hu⟩
  · exact .inl ⟨fails bd hd, hu⟩
  · exact .inr (.inl ⟨holds bd hd, hu⟩)
  · exact .inr (.inr ⟨zero, holds bd hd, hu⟩)

end Copying

namespace Task

variable (there : Transfer A (Shutdowner (Pipeline W G)) (Pipeline W G))
  (back : Transfer B (Pipeline W G) (Shutdowner (Pipeline W G))) (lpd lpu : Law (Pipeline W G))

/-- The law of a task's downstream side. -/
def front (t : Task A B W G) : Law (Shutdowner (Pipeline W G)) :=
  lpd.signalled (fun err => ∃ reason, err = Server.shutdownError reason) (t.errRx = some .waiting)

/-- How a task stands whose sockets keep these laws. -/
def KeepsLaws (k : Nat) (t : Task A B W G) : Prop :=
  match t.res with
  | none => t.copying.Holds there back (t.front lpd) lpu k
  | some (.ok _) => t.copying.Holds there back (t.front lpd) lpu k ∧
      there.unsent t.copying.aToB = [] ∧ back.unsent t.copying.bToA = []
  | some (.err e) => t.copying.Fails there back (t.front lpd) lpu e k ∨
      e = .other .timeout ∧ t.copying.Holds there back (t.front lpd) lpu k
  | some .pending => False
  | some (.panicked _) => False

variable {there back lpd lpu} {k : Nat} {t t' : Task A B W G}

/-- The law of the downstream side is the same while the channel is. -/
theorem front_congr (res : Option (Poll IoError Unit))
    {c : Copying A B (Shutdowner (Pipeline W G)) (Pipeline W G)}
    (same : c.downstream.errRx = some .waiting ↔ t.errRx = some .waiting) :
    front lpd { t with copying := c, res } = t.front lpd := by
  unfold front
  rw [← propext same]
  rfl

/-- Between two polls the two sockets hold, or after a failure one of them does not. -/
theorem KeepsLaws.copying_cases (h : KeepsLaws there back lpd lpu k t) :
    t.copying.Holds there back (t.front lpd) lpu k ∨
      ∃ e, t.res = some (.err e) ∧ t.copying.Fails there back (t.front lpd) lpu e k := by
  obtain ⟨id, copying, timer, res, cleaned⟩ := t
  rcases res with _ | _ | e | u | m
  · exact .inl h
  · exact h.elim
  · rcases h with failed | ⟨-, hold⟩
    · exact .inr ⟨e, rfl, failed⟩
    · exact .inl hold
  · exact .inl h.1
  · exact h.elim

/-- Whatever follows from either side of the two laws is so of the two wrapped sockets, with books that
balance. -/
theorem KeepsLaws.sides {P Q : Books → Pipeline W G → Prop} (h : KeepsLaws there back lpd lpu k t)
    (down : ∀ b s, lpd.holds k b s → P b s) (up : ∀ b s, lpu.holds k b s → Q b s)
    (downFails : ∀ e b s, lpd.fails e k b s → P b s) (upFails : ∀ e b s, lpu.fails e k b s → Q b s) :
    ∃ bd bu, t.copying.Balanced there back bd bu ∧ P bd t.copying.downstream.inner ∧
      Q bu t.copying.upstream := by
  rcases h.copying_cases with ⟨bd, bu, balanced, hd, hu⟩ | ⟨e, -, bd, bu, balanced, failed⟩
  · exact ⟨bd, bu, balanced, down _ _ hd.1, up _ _ hu⟩
  · refine ⟨bd, bu, balanced, ?_⟩
    rcases failed with ⟨⟨hd | ⟨-, hd⟩, -⟩, hu⟩ | ⟨hd, hu⟩ | ⟨-, hd, hu⟩
    · exact ⟨downFails _ _ _ hd, up _ _ hu⟩
    · exact ⟨down _ _ hd, up _ _ hu⟩
    · exact ⟨down _ _ hd.1, upFails _ _ _ hu⟩
    · exact ⟨down _ _ hd.1, up _ _ hu⟩

/-- Other laws that the two wrapped sockets keep as they stand. -/
theorem KeepsLaws.change {lpd' lpu' : Law (Pipeline W G)} (h : KeepsLaws there back lpd lpu k t)
    (down : ∀ b, lpd.holds k b t.copying.downstream.inner → lpd'.holds k b t.copying.downstream.inner)
    (up : ∀ b, lpu.holds k b t.copying.upstream → lpu'.holds k b t.copying.upstream)
    (downFails : ∀ e b, lpd.fails e k b t.copying.downstream.inner →
      lpd'.fails e k b t.copying.downstream.inner)
    (upFails : ∀ e b, lpu.fails e k b t.copying.upstream → lpu'.fails e k b t.copying.upstream) :
    KeepsLaws there back lpd' lpu' k t := by
  have holds : t.copying.Holds there back (t.front lpd) lpu k →
      t.copying.Holds there back (t.front lpd') lpu' k := by
    rintro ⟨bd, bu, balanced, hd, hu⟩
    exact ⟨bd, bu, balanced, ⟨down bd hd.1, hd.2⟩, up bu hu⟩
  have fails : ∀ e, t.copying.Fails there back (t.front lpd) lpu e k →
      t.copying.Fails there back (t.front lpd') lpu' e k := by
    rintro e ⟨bd, bu, balanced, failed⟩
    refine ⟨bd, bu, balanced, ?_⟩
    rcases failed with ⟨⟨failed, channel⟩, hu⟩ | ⟨hd, failed⟩ | ⟨zero, hd, hu⟩
    · refine .inl ⟨⟨failed.imp (downFails e bd) ?_, channel⟩, up bu hu⟩
      exact fun ⟨word, hold⟩ => ⟨word, down bd hold⟩
    · exact .inr (.inl ⟨⟨down bd hd.1, hd.2⟩, upFails e bu failed⟩)
    · exact .inr (.inr ⟨zero, ⟨down bd hd.1, hd.2⟩, up bu hu⟩)
  unfold KeepsLaws at h ⊢
  split at h
  · exact holds h
  · exact ⟨holds h.1, h.2⟩
  · exact h.imp (fails _) fun h => ⟨h.1, holds h.2⟩
  · exact h
  · exact h

theorem KeepsLaws.later {k' : Nat} (later : k ≤ k') (h : KeepsLaws there back lpd lpu k t) :
    KeepsLaws there back lpd lpu k' t := by
  obtain ⟨id, copying, timer, res, cleaned⟩ := t
  rcases res with _ | _ | e | u | m
  · exact Copying.Holds.later later h
  · exact h
  · exact h.imp (Copying.Fails.later later) fun h => ⟨h.1, h.2.later later⟩
  · exact ⟨h.1.later later, h.2⟩
  · exact h

/-- What the API says to a task is within its law. -/
theorem KeepsLaws.told (h : KeepsLaws there back lpd lpu k t) (told : Signalled t t') :
    KeepsLaws there back lpd lpu k t' := by
  rcases told with rfl | ⟨waiting, rx, rfl, word⟩
  · exact h
  · -- the channel of the new task brings the word
    have channel : Channel (fun err => ∃ reason, err = Server.shutdownError reason)
        (some rx = some Oneshot.waiting) (some rx) := by
      refine ⟨Iff.rfl, ?_⟩
      rintro r ⟨⟩
      rcases word with rfl | ⟨reason, rfl⟩
      · trivial
      · exact ⟨reason, rfl⟩
    obtain ⟨id, copying, timer, res, cleaned⟩ := t
    have holds : ∀ b, (front lpd ⟨id, copying, timer, res, cleaned⟩).holds k b copying.downstream →
        (front lpd ⟨id, { copying with downstream.errRx := some rx }, timer, res, cleaned⟩).holds k b
          { copying.downstream with errRx := some rx } :=
      fun b hold => ⟨hold.1, channel⟩
    have fails : ∀ e b, (front lpd ⟨id, copying, timer, res, cleaned⟩).fails e k b copying.downstream →
        (front lpd ⟨id, { copying with downstream.errRx := some rx }, timer, res, cleaned⟩).fails e k b
          { copying.downstream with errRx := some rx } :=
      fun e b failed => ⟨failed.1, channel⟩
    rcases res with _ | _ | e | u | m
    · exact Copying.Holds.downstream h holds
    · exact h
    · exact h.imp (fun failed => failed.downstream holds (fails e)) fun h => ⟨h.1, h.2.downstream holds⟩
    · exact ⟨h.1.downstream holds, h.2⟩
    · exact h

/-- A copy that keeps the books leaves the channel waiting if it was. -/
theorem holds_waiting {c : Copying A B (Shutdowner (Pipeline W G)) (Pipeline W G)}
    (h : c.Holds there back (t.front lpd) lpu k) :
    c.downstream.errRx = some .waiting ↔ t.errRx = some .waiting := by
  obtain ⟨bd, bu, balanced, hd, hu⟩ := h
  exact hd.2.1

theorem fails_waiting {c : Copying A B (Shutdowner (Pipeline W G)) (Pipeline W G)} {e : IoError}
    (h : c.Fails there back (t.front lpd) lpu e k) :
    c.downstream.errRx = some .waiting ↔ t.errRx = some .waiting := by
  obtain ⟨bd, bu, balanced, ⟨failed, -⟩ | ⟨hd, -⟩ | ⟨-, hd, -⟩⟩ := h
  · exact failed.2.1
  · exact hd.2.1
  · exact hd.2.1

/-- **A poll of a task that keeps its laws.** It stays the task it is, as listed as it is, and its channel
as open as it was. -/
theorem KeepsLaws.polled [SmallRng G] [AsyncRead W] [AsyncWrite W] {env : World}
    (copiesThere : there.Copies) (copiesBack : back.Copies) (hd : Upholds env lpd)
    (hu : Upholds env lpu) (running : t.res = none) (h : KeepsLaws there back lpd lpu k t) :
    (copyBidirectional there back).Ends env k t.copying
      (Server.Polled (fun k' t' => KeepsLaws there back lpd lpu k' t' ∧ t'.id = t.id ∧
        t'.cleaned = t.cleaned ∧ (t'.errRx = some .waiting ↔ t.errRx = some .waiting)) env t) := by
  obtain ⟨id, copying, timer, res, cleaned⟩ := t
  cases running
  have hold : copying.Holds there back (front lpd ⟨id, copying, timer, none, cleaned⟩) lpu k := h
  refine ends_mono (Copying.copy_ends copiesThere copiesBack (Shutdowner.upholds hd) hu hold) ?_ ?_ ?_
  · rintro _ k' c - ⟨hold', empty⟩
    have waits := holds_waiting hold'
    refine ⟨⟨?_, empty⟩, rfl, rfl, waits⟩
    rw [front_congr _ waits]
    exact hold'
  · intro k' c _ hold'
    have waits := holds_waiting hold'
    have goes : ∀ res, c.Holds there back (front lpd (⟨id, c, timer, res, cleaned⟩ : Task A B W G)) lpu k' := by
      intro res
      rw [front_congr res waits]
      exact hold'
    exact ⟨fun _ => ⟨goes none, rfl, rfl, waits⟩, fun _ => ⟨.inr ⟨rfl, goes _⟩, rfl, rfl, waits⟩⟩
  · intro e k' c _ failed
    have waits := fails_waiting failed
    refine ⟨.inl ?_, rfl, rfl, waits⟩
    rw [front_congr _ waits]
    exact failed

end Task

namespace Server

variable {there : Transfer A (Shutdowner (Pipeline W G)) (Pipeline W G)}
  {back : Transfer B (Pipeline W G) (Shutdowner (Pipeline W G))} {env : World}

/-- Abiding by two laws is a law of tasks. -/
theorem TaskLaw.keepsLaws [SmallRng G] [AsyncRead W] [AsyncWrite W] {lpd lpu : Law (Pipeline W G)}
    (copiesThere : there.Copies) (copiesBack : back.Copies) (hd : Upholds env lpd)
    (hu : Upholds env lpu) : TaskLaw there back env (Task.KeepsLaws there back lpd lpu) where
  later later h := h.later later
  told told h := h.told told
  cleaned h := h
  polled running h := by
    refine ends_mono (h.polled copiesThere copiesBack hd hu running) ?_ ?_ ?_
    · exact fun _ _ _ _ left => left.1
    · exact fun _ _ _ left => ⟨fun quiet => (left.1 quiet).1, fun rings => (left.2 rings).1⟩
    · exact fun _ _ _ _ left => left.1

/-- One of a family of laws. -/
theorem TaskLaw.some {ι : Type} {I : ι → Nat → Task A B W G → Prop} [AsyncRead W] [AsyncWrite W]
    [SmallRng G] (law : ∀ i, TaskLaw there back env (I i)) :
    TaskLaw there back env fun k t => ∃ i, I i k t where
  later later := fun ⟨i, h⟩ => ⟨i, (law i).later later h⟩
  told told := fun ⟨i, h⟩ => ⟨i, (law i).told told h⟩
  cleaned := fun ⟨i, h⟩ => ⟨i, (law i).cleaned h⟩
  polled running := fun ⟨i, h⟩ => ends_mono ((law i).polled running h) (fun _ _ _ _ left => ⟨i, left⟩)
    (fun _ _ _ left => ⟨fun quiet => ⟨i, left.1 quiet⟩, fun rings => ⟨i, left.2 rings⟩⟩)
    fun _ _ _ _ left => ⟨i, left⟩

end Server

/-! ## The two sockets -/

namespace Pipeline

variable {env : World} {prob : DynamicProbability} {k : Nat} {b : Books} {s : Pipeline W G}

/-- The owner's books are the socket's, but for what was put in. -/
structure Keeps [Peer W] (env : World) (prob : DynamicProbability) (b : Books) (s : Pipeline W G) :
    Prop where
  knob : s.prob = prob
  heard : Inlaid (Loud env prob) (given s.socket) b.heard
  said : Inlaid (Loud env prob) b.said (received s.socket)

theorem keeps_of_holds [Peer W] (h : (law env prob (books W)).holds k b s) : Keeps env prob b s := by
  obtain ⟨knob, stored, inner, heard, said, ⟨⟨⟨heard', said'⟩, writing⟩, whole⟩⟩ := h
  exact ⟨knob, heard' ▸ heard, said' ▸ said⟩

theorem keeps_of_fails [Peer W] {e : IoError} (h : (law env prob (books W)).fails e k b s) :
    Keeps env prob b s := by
  obtain ⟨knob, inner, heard, said, failed⟩ := h
  have books : given s.socket = inner.heard ∧ received s.socket = inner.said := by
    rcases failed with (⟨-, ⟨hold, -⟩, -⟩ | ⟨⟨-, hold⟩, -⟩) | ⟨-, ⟨hold, -⟩, -⟩
    · exact hold
    · exact hold
    · exact hold
  exact ⟨knob, books.1 ▸ heard, books.2 ▸ said⟩

/-- A wrapped socket that nothing has passed through. -/
theorem new_holds [SmallRng G] [Peer W] (env : World) (j : Nat) (knobs : Knobs) (baseRng : G) {w : W}
    (fresh : Peer.Fresh w) :
    (law env knobs.corruptProbabilityRate (books W)).holds k .blank
      (new env j w knobs baseRng).1 :=
  ⟨rfl, fun some => absurd rfl some, .blank, .refl, .refl, ⟨fresh, rfl⟩, rfl⟩

end Pipeline

namespace Task

variable {there : Transfer A (Shutdowner (Pipeline W G)) (Pipeline W G)}
  {back : Transfer B (Pipeline W G) (Shutdowner (Pipeline W G))} {env : World} {k : Nat}
  {t : Task A B W G}

variable (there back env) in
/-- A task that keeps its sockets' books, with one knob for corruption on both sides. -/
def KeepsBooks [Peer W] (k : Nat) (t : Task A B W G) : Prop :=
  ∃ prob, KeepsLaws there back (Pipeline.law env prob (Pipeline.books W))
    (Pipeline.law env prob (Pipeline.books W)) k t

/-- The connection's knob for corruption is above zero at some moment. -/
def Noisy (env : World) (t : Task A B W G) : Prop := Loud env t.copying.upstream.prob

variable (there back env) in
/-- What each socket has given is, in order, what the other has received and what the copy still holds
for it; with the connection's own bytes in between, if it is noisy. -/
structure Relays [Peer W] (t : Task A B W G) : Prop where
  aToB : Inlaid (t.Noisy env) (given t.copying.downstream.inner.socket)
    (received t.copying.upstream.socket ++ there.unsent t.copying.aToB)
  bToA : Inlaid (t.Noisy env) (given t.copying.upstream.socket)
    (received t.copying.downstream.inner.socket ++ back.unsent t.copying.bToA)
  done : t.res = some (.ok ()) → there.unsent t.copying.aToB = [] ∧ back.unsent t.copying.bToA = []

/-- **A task that keeps its sockets' books relays.** -/
theorem KeepsBooks.relays [Peer W] (h : KeepsBooks there back env k t) : Relays there back env t := by
  obtain ⟨prob, h⟩ := h
  obtain ⟨bd, bu, ⟨aToB, bToA⟩, down, up⟩ := h.sides (P := Pipeline.Keeps env prob)
    (Q := Pipeline.Keeps env prob) (fun _ _ => Pipeline.keeps_of_holds)
    (fun _ _ => Pipeline.keeps_of_holds) (fun _ _ _ => Pipeline.keeps_of_fails)
    fun _ _ _ => Pipeline.keeps_of_fails
  have noisy : t.Noisy env = Loud env prob := by rw [Noisy, up.knob]
  refine ⟨?_, ?_, ?_⟩
  · rw [noisy]
    exact (aToB ▸ down.heard).trans (up.said.append _)
  · rw [noisy]
    exact (bToA ▸ up.heard).trans (down.said.append _)
  · intro done
    unfold KeepsLaws at h
    rw [done] at h
    exact h.2

end Task

namespace Server

variable {there : Transfer A (Shutdowner (Pipeline W G)) (Pipeline W G)}
  {back : Transfer B (Pipeline W G) (Shutdowner (Pipeline W G))}

/-- New connections come with sockets that nothing has passed through. -/
def FreshSockets [Peer W] : Event W → Prop
  | .accept _ downstream upstream _ => Peer.Fresh downstream ∧ Peer.Fresh upstream
  | _ => True

/-- A new connection keeps the laws of its wrapped sockets. -/
theorem keepsLaws_new [SmallRng G] {cfg : Config G} {env : World} {lpd lpu : Law (Pipeline W G)} {k : Nat}
    {id : ConnId} {downstream upstream : W} {knobs : Knobs}
    (startsThere : there.unsent there.start = []) (startsBack : back.unsent back.start = [])
    (hd : lpd.holds (k + 9) .blank (Pipeline.new env k downstream knobs cfg.baseRng).1)
    (hu : lpu.holds (k + 9) .blank (Pipeline.new env (k + 4) upstream knobs
      (Pipeline.new env k downstream knobs cfg.baseRng).2).1) :
    Task.KeepsLaws there back lpd lpu (k + 9)
      (newTask cfg there back env k id downstream upstream knobs) := by
  refine ⟨.blank, .blank, ⟨?_, ?_⟩, ⟨hd, Iff.rfl, ?_⟩, hu⟩
  · rw [newTask, startsThere]
    rfl
  · rw [newTask, startsBack]
    rfl
  · rintro r ⟨⟩
    trivial

section Fresh

variable [SmallRng G] [Peer W] {cfg : Config G} {env : World}

/-- Abiding by the sockets' books is a law of tasks. -/
theorem TaskLaw.keepsBooks (copiesThere : there.Copies) (copiesBack : back.Copies) :
    TaskLaw there back env (Task.KeepsBooks there back env) := by
  have upheld : ∀ prob, Upholds env (Pipeline.law (G := G) env prob (Pipeline.books W)) :=
    fun prob => Pipeline.upholds (Pipeline.books_upheld env)
  exact .some fun prob => .keepsLaws copiesThere copiesBack (upheld prob) (upheld prob)

/-- A connection between fresh sockets keeps their books. -/
theorem welcomes_fresh (copiesThere : there.Copies) (copiesBack : back.Copies) {ev : Event W}
    (fresh : FreshSockets ev) (k : Nat) :
    Welcomes cfg there back env (Task.KeepsBooks there back env) k ev := by
  cases ev with
  | accept id downstream upstream knobs =>
    exact ⟨knobs.corruptProbabilityRate, keepsLaws_new copiesThere.starts copiesBack.starts
      (Pipeline.new_holds env k knobs _ fresh.1) (Pipeline.new_holds env (k + 4) knobs _ fresh.2)⟩
  | _ => trivial

/-- **The rule of fresh sockets.** Every event of a run finds tasks that abide by their sockets' books,
and leaves such tasks. -/
theorem run_keepsBooks (cfg : Config G) (env : World) (copiesThere : there.Copies)
    (copiesBack : back.Copies) (k : Nat) {events : List (Event W)}
    (fresh : ∀ ev ∈ events, FreshSockets ev) {D : Paced (Server A B W G) → Event W → Prop}
    (imp : ∀ s ev, Tasked (fun _ => Task.KeepsBooks there back env) s.moment s.state → Orderly s.state →
      Tasked (fun _ => Task.KeepsBooks there back env) ((machine cfg there back env).step s ev).2.moment
        ((machine cfg there back env).step s ev).2.state → D s ev) :
    (machine cfg there back env).Allowed (fun _ => D) ⟨k, empty⟩ events :=
  run_tasked (.keepsBooks copiesThere copiesBack) k
    (fun ev mem k => welcomes_fresh copiesThere copiesBack (fresh ev mem) k) imp

end Fresh

/-- **Connections relay.** After every event of every run, whatever calls, polls, failures and other
connections it holds, each socket of each connection has received what the other gave, in order, but
for what the copy still holds; with nothing put in between, unless the connection's knob for
corruption is above zero. A copy that has ended well holds nothing. -/
theorem connections_relay [SmallRng G] [Peer W] (cfg : Config G) (env : World)
    (copiesThere : there.Copies) (copiesBack : back.Copies) (k : Nat) (events : List (Event W))
    (fresh : ∀ ev ∈ events, FreshSockets ev) :
    (machine cfg there back env).Throughout
      (fun _ s => ∀ n t, s.state.tasks n = some t → Task.Relays there back env t)
      ⟨k, empty⟩ events := by
  exact run_keepsBooks cfg env copiesThere copiesBack k fresh
    fun s ev _ _ booked n t task => (booked n t task).relays

/-- A line that has said nothing and heard nothing. -/
def line (coming : List (Option (List UInt8))) : Line := ⟨[], coming, ⟨[], []⟩⟩

/-- Two greetings, over a connection that is then polled and shut down. -/
def greetings : List (Event Line) :=
  [.accept "a" (line [some [104, 105], none]) (line [some [121, 111], none]) knobsOff, .poll 0,
    .shutdown 0 "a" "policy revoked", .advance 0, .poll 0, .cleanUp 0, .leave 0]

theorem greetings_relayed :
    (machine plain (CopyBuffer.transfer _ _) (CopyBuffer.transfer _ _) World.still).Throughout
      (fun _ s => ∀ n t, s.state.tasks n = some t →
        Task.Relays (CopyBuffer.transfer _ _) (CopyBuffer.transfer _ _) World.still t)
      ⟨0, empty⟩ greetings := by
  refine connections_relay plain World.still CopyBuffer.copies CopyBuffer.copies 0 greetings ?_
  intro ev mem
  rcases mem with _ | ⟨_, _ | ⟨_, _ | ⟨_, _ | ⟨_, _ | ⟨_, _ | ⟨_, _ | ⟨_, ⟨⟩⟩⟩⟩⟩⟩⟩⟩
  · exact ⟨⟨rfl, rfl⟩, rfl, rfl⟩
  all_goals trivial

end Server

end Trixter
