import Trixter.Laws.Registry
import Trixter.Laws.Transparent
import Trixter.Lib.Mirror

/-!
# A connection with its knobs at zero

`plain_relays`: in every run of the server, a connection with its knobs at zero is a plain copy. Poll
for poll it answers what the copy between the two bare sockets answers, and does to the sockets what that
does, for as long as nobody has told it to stop.

The adapters take moments of their own, so the plain copy runs in a world of its own; the sockets are
those that do not look at the world. Nothing is said of a knob that is set back to zero: what an adapter
holds by then is still to come.
-/

namespace Trixter

open Trixter.Lib Polling

/-! ## The copy -/

section Likened

variable {S T : Type} [AsyncRead S] [AsyncWrite S] [AsyncRead T] [AsyncWrite T]

/-- A copy cannot tell the one stream from the other. -/
structure Likened (env : World) (since : Nat) (env' : World) (P : S → T → Prop) : Prop where
  read : Mirrors env since env' (fun s t => P s.1 t.1 ∧ s.2 = t.2)
    (pollRead : Io (S × ReadBuf) Unit) (pollRead : Io (T × ReadBuf) Unit)
  write : ∀ buf, Mirrors env since env' P (pollWrite buf : Io S Nat) (pollWrite buf : Io T Nat)
  flush : Mirrors env since env' P (pollFlush : Io S Unit) (pollFlush : Io T Unit)
  shutdown : Mirrors env since env' P (pollShutdown : Io S Unit) (pollShutdown : Io T Unit)

end Likened

/-- A socket decides by its own state what it answers: it reads neither clocks nor knobs. -/
def Timeless (W : Type) [AsyncRead W] [AsyncWrite W] : Prop :=
  ∀ env since env', Likened env since env' fun w w' : W => w = w'

section Alike

variable {C R R' W W' : Type} [AsyncRead R] [AsyncWrite R] [AsyncRead W] [AsyncWrite W] [AsyncRead R']
  [AsyncWrite R'] [AsyncRead W'] [AsyncWrite W']

/-- A direction's state beside its two streams, and beside two others. -/
def Beside (P : R → R' → Prop) (Q : W → W' → Prop) (s : C × R × W) (t : C × R' × W') : Prop :=
  s.1 = t.1 ∧ P s.2.1 t.2.1 ∧ Q s.2.2 t.2.2

/-- The same direction of a copy between other streams: it knows them by their polls alone. -/
structure Transfer.Alike (d : Transfer C R W) (d' : Transfer C R' W') : Prop where
  start : d.start = d'.start
  poll : ∀ {env since env'} {P : R → R' → Prop} {Q : W → W' → Prop}, Likened env since env' P →
    Likened env since env' Q → Mirrors env since env' (Beside P Q) d.poll d'.poll

end Alike

namespace CopyBuffer

variable {R R' W W' α : Type} {env : World} {since : Nat} {env' : World} {P : R → R' → Prop}
  {Q : W → W' → Prop}

theorem onWriter_mirrors {m : Io W α} {m' : Io W' α} (h : Mirrors env since env' Q m m') :
    Mirrors env since env' (Beside P Q) (onWriter m : Io (CopyBuffer × R × W) α)
      (onWriter m' : Io (CopyBuffer × R' × W') α) :=
  mirrors_zoom h (fun _ _ hs => hs.2.2) fun _ _ _ _ hs ht => ⟨hs.1, hs.2.1, ht⟩

theorem modify_mirrors (f : CopyBuffer → CopyBuffer) :
    Mirrors env since env' (Beside P Q)
      (modify fun s => (f s.1, s.2) : Io (CopyBuffer × R × W) Unit)
      (modify fun s => (f s.1, s.2) : Io (CopyBuffer × R' × W') Unit) :=
  mirrors_modify fun _ _ hs => ⟨congrArg f hs.1, hs.2⟩

variable [AsyncRead W] [AsyncWrite W] [AsyncRead W'] [AsyncWrite W']

theorem rest_mirrors (writer : Likened env since env' Q) :
    Mirrors env since env' (Beside P Q) (rest : Io (CopyBuffer × R × W) Unit)
      (rest : Io (CopyBuffer × R' × W') Unit) := by
  refine mirrors_get ?_
  rintro ⟨b, r, w⟩ ⟨_, r', w'⟩ ⟨rfl, -⟩
  refine mirrors_ite (mirrors_ite ?_ mirrors_pend) (mirrors_pure ())
  refine mirrors_bind (onWriter_mirrors writer.flush) fun _ => ?_
  exact mirrors_bind (modify_mirrors fun b => { b with needFlush := false }) fun _ => mirrors_pend

theorem drain_mirrors (writer : Likened env since env' Q) (turns : Nat) :
    Mirrors env since env' (Beside P Q) (drain turns : Io (CopyBuffer × R × W) Unit)
      (drain turns : Io (CopyBuffer × R' × W') Unit) := by
  induction turns with
  | zero => exact mirrors_pure ()
  | succ turns ih =>
    refine mirrors_get ?_
    rintro ⟨b, r, w⟩ ⟨_, r', w'⟩ ⟨rfl, -⟩
    refine mirrors_ite (mirrors_pure ()) ?_
    refine mirrors_bind (onWriter_mirrors (writer.write b.unsent)) fun n => ?_
    exact mirrors_ite (mirrors_fail _) (mirrors_bind (modify_mirrors (advance n)) fun _ => ih)

theorem writeTurn_mirrors {onwards : Io (CopyBuffer × R × W) Unit}
    {onwards' : Io (CopyBuffer × R' × W') Unit} (writer : Likened env since env' Q)
    (h : Mirrors env since env' (Beside P Q) onwards onwards') :
    Mirrors env since env' (Beside P Q) (writeTurn onwards) (writeTurn onwards') := by
  refine mirrors_get ?_
  rintro ⟨b, r, w⟩ ⟨_, r', w'⟩ ⟨rfl, -⟩
  refine mirrors_bind (drain_mirrors writer _) fun _ => mirrors_get ?_
  rintro ⟨b, r, w⟩ ⟨_, r', w'⟩ ⟨rfl, -⟩
  exact mirrors_ite (onWriter_mirrors writer.flush) h

theorem close_mirrors (writer : Likened env since env' Q) :
    Mirrors env since env' (Beside P Q) (close : Io (CopyBuffer × R × W) Unit)
      (close : Io (CopyBuffer × R' × W') Unit) :=
  mirrors_bind (onWriter_mirrors writer.shutdown) fun _ =>
    modify_mirrors fun b => { b with state := .done }

variable [AsyncRead R] [AsyncWrite R] [AsyncRead R'] [AsyncWrite R']

theorem readFirst_mirrors (reader : Likened env since env' P) (writer : Likened env since env' Q) :
    Mirrors env since env' (Beside P Q) (readFirst : Io (CopyBuffer × R × W) Unit)
      (readFirst : Io (CopyBuffer × R' × W') Unit) := by
  have fills : Mirrors env since env' (Beside P Q) (fill : Io (CopyBuffer × R × W) Unit)
      (fill : Io (CopyBuffer × R' × W') Unit) := by
    refine mirrors_get ?_
    rintro ⟨b, r, w⟩ ⟨_, r', w'⟩ ⟨rfl, -⟩
    refine mirrors_bind ?_ fun buf => modify_mirrors (refill buf)
    exact mirrors_zoom (mirrors_lend reader.read) (fun _ _ hs => hs.2.1)
      fun _ _ _ _ hs ht => ⟨hs.1, ht, hs.2.2⟩
  refine mirrors_get ?_
  rintro ⟨b, r, w⟩ ⟨_, r', w'⟩ ⟨rfl, -⟩
  refine mirrors_ite ?_ (mirrors_pure ())
  refine mirrors_bind (mirrors_orPending fills) fun found => ?_
  cases found with
  | none => exact rest_mirrors writer
  | some _ => exact mirrors_pure ()

theorem copy_mirrors (reader : Likened env since env' P) (writer : Likened env since env' Q)
    (turns : Nat) :
    Mirrors env since env' (Beside P Q) (copy turns : Io (CopyBuffer × R × W) Unit)
      (copy turns : Io (CopyBuffer × R' × W') Unit) := by
  induction turns with
  | zero => exact mirrors_pend
  | succ turns ih =>
    exact mirrors_bind (readFirst_mirrors reader writer) fun _ => writeTurn_mirrors writer ih

/-- **A direction knows its streams by their polls alone.** -/
theorem alike : (transfer R W).Alike (transfer R' W') where
  start := rfl
  poll reader writer := by
    refine mirrors_get ?_
    rintro ⟨b, r, w⟩ ⟨_, r', w'⟩ ⟨rfl, -⟩
    dsimp only
    cases b.state with
    | running =>
      refine mirrors_bind (copy_mirrors reader writer 128) fun _ => ?_
      exact mirrors_bind (modify_mirrors fun b => { b with state := .shuttingDown }) fun _ =>
        close_mirrors writer
    | shuttingDown => exact close_mirrors writer
    | done => exact mirrors_pure ()

end CopyBuffer

namespace Copying

variable {A B D D' U U' : Type}

/-- Both directions beside both directions between two other streams. -/
def Beside (P : D → D' → Prop) (Q : U → U' → Prop) (c : Copying A B D U) (c' : Copying A B D' U') :
    Prop :=
  c.aToB = c'.aToB ∧ c.bToA = c'.bToA ∧ P c.downstream c'.downstream ∧ Q c.upstream c'.upstream

variable [AsyncRead D] [AsyncWrite D] [AsyncRead U] [AsyncWrite U] [AsyncRead D'] [AsyncWrite D']
  [AsyncRead U'] [AsyncWrite U'] {there : Transfer A D U} {there' : Transfer A D' U'}
  {back : Transfer B U D} {back' : Transfer B U' D'} {env : World} {since : Nat} {env' : World}
  {P : D → D' → Prop} {Q : U → U' → Prop}

/-- **So does a copy.** -/
theorem copy_mirrors (alikeThere : there.Alike there') (alikeBack : back.Alike back')
    (down : Likened env since env' P) (up : Likened env since env' Q) :
    Mirrors env since env' (Beside P Q) (copyBidirectional there back)
      (copyBidirectional there' back') := by
  have goesThere : Mirrors env since env' (Beside P Q)
      (onThere there.poll : Io (Copying A B D U) Unit) (onThere there'.poll) :=
    mirrors_zoom (alikeThere.poll down up) (fun _ _ h => ⟨h.1, h.2.2⟩)
      fun _ _ _ _ h ht => ⟨ht.1, h.2.1, ht.2⟩
  have comesBack : Mirrors env since env' (Beside P Q)
      (onBack back.poll : Io (Copying A B D U) Unit) (onBack back'.poll) :=
    mirrors_zoom (alikeBack.poll up down) (fun _ _ h => ⟨h.2.1, h.2.2.2, h.2.2.1⟩)
      fun _ _ _ _ h ht => ⟨h.1, ht.1, ht.2.2, ht.2.1⟩
  refine mirrors_bind (mirrors_orPending goesThere) fun aToB => ?_
  refine mirrors_bind (mirrors_orPending comesBack) fun bToA => ?_
  cases aToB <;> cases bToA
  · exact mirrors_pend
  · exact mirrors_pend
  · exact mirrors_pend
  · exact mirrors_pure ()

end Copying

/-! ## The wrapped sockets -/

section Wrapped

variable {T U : Type} [AsyncRead T] [AsyncWrite T] [AsyncRead U] [AsyncWrite U] {env : World}
  {since : Nat} {env' : World} {P : T → U → Prop} {α : Type}

namespace Shutdowner

/-- A shutdowner that has been told nothing, beside what its inner stream is beside. -/
def Untold (P : T → U → Prop) (s : Shutdowner T) (u : U) : Prop :=
  s.errRx = some .waiting ∧ P s.inner u

omit [AsyncRead T] [AsyncWrite T] [AsyncRead U] [AsyncWrite U] in
theorem guarded_mirrors {call : Io T α} {call' : Io U α} (h : Mirrors env since env' P call call') :
    Mirrors env since env' (Untold P) (guarded call) call' := by
  rintro k k' s u later ⟨waiting, hs⟩
  obtain ⟨result, states⟩ := h (k + 1) k' s.inner u (Nat.le_succ_of_le later) hs
  have through : (guarded call).wp env k s fun r s' _ =>
      r = (call' env' k' u).result ∧ Untold P s' (call' env' k' u).state := by
    rw [guarded_wp, waiting]
    exact ⟨result, rfl, states⟩
  exact through

/-- It is not noticed. -/
theorem likened (h : Likened env since env' P) : Likened env since env' (Untold P) where
  read := by
    rintro k k' ⟨s, buf⟩ ⟨u, _⟩ later ⟨⟨waiting, hs⟩, rfl⟩
    obtain ⟨result, states, same⟩ :=
      h.read (k + 1) k' (s.inner, buf) (u, buf) (Nat.le_succ_of_le later) ⟨hs, rfl⟩
    have through : (pollRead : Io (Shutdowner T × ReadBuf) Unit).wp env k (s, buf) fun r s' _ =>
        r = (pollRead env' k' (u, buf)).result ∧
          Untold P s'.1 (pollRead env' k' (u, buf)).state.1 ∧
            s'.2 = (pollRead env' k' (u, buf)).state.2 := by
      rw [read_wp, waiting]
      exact ⟨result, ⟨rfl, states⟩, same⟩
    exact through
  write buf := guarded_mirrors (h.write buf)
  flush := guarded_mirrors h.flush
  shutdown := guarded_mirrors h.shutdown

end Shutdowner

end Wrapped

namespace Pipeline

variable {W G : Type} {knobs : Knobs} {env : World} {k since : Nat}

/-- A wrapped socket in which nothing is left over and no fuse is blown, beside the socket. -/
def Bare (knobs : Knobs) (s : Pipeline W G) (w : W) : Prop :=
  s.socket = w ∧ Intact knobs s ∧ Clear s

/-- The socket may change. -/
theorem Bare.withSocket {s : Pipeline W G} {w : W} (h : Bare knobs s w) (w' : W) :
    Bare knobs (s.withSocket w') w' where
  left := rfl
  right := by
    obtain ⟨-, ⟨below, prob⟩, stored, idle⟩ := h
    exact ⟨⟨⟨below.delay, below.throttleRate, below.sliceSize, below.terminateProbabilityRate,
      below.untripped⟩, prob⟩, stored, idle⟩

/-- A socket that has just been wrapped. -/
theorem new_bare [SmallRng G] (env : World) (k : Nat) (w : W) (knobs : Knobs) (baseRng : G) :
    Bare knobs (new env k w knobs baseRng).1 w :=
  ⟨rfl, ⟨⟨rfl, rfl, rfl, rfl, rfl⟩, rfl⟩, rfl, rfl⟩

/-- With its knobs at zero each adapter gets out of the way. -/
theorem Bare.bypassed [AsyncBufRead W] [AsyncWrite W] [SmallRng G] (zero : Zeroed env k knobs)
    {s : Pipeline W G} {w : W} (h : Bare knobs s w) : Bypassed env k s w s.withSocket True := by
  obtain ⟨rfl, intact, clear⟩ := h
  have corrupter : Bypassed env k s s.inner _ (s.writeBuffer = none) :=
    Corrupter.bypassed (intact.corruptProbabilityRate ▸ zero.corruptProbabilityRate)
  have whole : Bypassed env k s s.socket s.withSocket (s.writeBuffer = none) := by
    refine corrupter.trans fun j le => ?_
    refine (below_bypassed (zero.later le) intact.below).trans fun i le' => ?_
    exact DelayedWriter.bypassed clear.idle (intact.below.delay ▸ ((zero.later le).later le').delay)
  exact { whole with write := fun _ => whole.write clear.stored }

variable [AsyncRead W] [AsyncWrite W] [SmallRng G] {α : Type}

omit [AsyncRead W] [AsyncWrite W] [SmallRng G] in
/-- One poll that is one poll of the socket. -/
theorem Bare.forwarded {s : Pipeline W G} {w : W} (h : Bare knobs s w) {m : Io (Pipeline W G) α}
    {m' : Io W α} {env' : World} {j k' : Nat} (forwards : Forwards m m' env k s j w s.withSocket)
    (same : Mirrors env 0 env' (fun w w' : W => w = w') m' m') :
    (m env k s).result = (m' env' k' w).result ∧
      Bare knobs (m env k s).state (m' env' k' w).state := by
  obtain ⟨result, state⟩ := same j k' w w (Nat.zero_le j) rfl
  rw [forwards.result, forwards.state, result, state]
  exact ⟨rfl, h.withSocket _⟩

/-- A socket that is not read through a buffer. -/
abbrev unbuffered (W : Type) [AsyncRead W] : AsyncBufRead W where
  pollFillBuf := pend
  consume _ w := w

/-- **With its knobs at zero a wrapped socket is not told from the socket.** -/
theorem likened (timeless : Timeless W) (zero : Zeroed env since knobs) (env' : World) :
    Likened env since env' (Bare (G := G) knobs : Pipeline W G → W → Prop) := by
  have socket := timeless env 0 env'
  let _ : AsyncBufRead W := unbuffered W
  refine ⟨?_, fun buf => ?_, ?_, ?_⟩
  · rintro k k' ⟨s, buf⟩ ⟨w, _⟩ later ⟨h, rfl⟩
    obtain ⟨j, forwards⟩ := (h.bypassed (zero.later later)).read buf
    obtain ⟨result, state, same⟩ := socket.read j k' (w, buf) (w, buf) (Nat.zero_le j) ⟨rfl, rfl⟩
    refine ⟨forwards.result.trans result, ?_⟩
    rw [forwards.state]
    exact ⟨state ▸ h.withSocket _, same⟩
  · intro k k' s w later h
    obtain ⟨j, forwards⟩ := (h.bypassed (zero.later later)).write trivial buf
    exact h.forwarded forwards (socket.write buf)
  · intro k k' s w later h
    obtain ⟨j, forwards⟩ := (h.bypassed (zero.later later)).flush
    exact h.forwarded forwards socket.flush
  · intro k k' s w later h
    obtain ⟨j, forwards⟩ := (h.bypassed (zero.later later)).shutdown
    exact h.forwarded forwards socket.shutdown

end Pipeline

/-! ## The plain copy -/

namespace Copying

variable {A B W : Type} (there : Transfer A W W) (back : Transfer B W W) (env : World) (k : Nat)
  (downstream upstream : W)

/-- A copy between two streams as a machine: each step is one poll. -/
def machine : Machine (Paced (Copying A B W W)) Unit (Poll IoError Unit) :=
  Polling.machine env fun _ => copyBidirectional there back

/-- So many polls of it, begun at a moment. -/
def polled (n : Nat) : History Unit (Poll IoError Unit) × Paced (Copying A B W W) :=
  (machine there back env).run
    ⟨k, { aToB := there.start, bToA := back.start, downstream, upstream }⟩ (List.replicate n ())

/-- Its polls have given these answers and left this. -/
structure Ran (answers : List (Poll IoError Unit)) (c : Copying A B W W) : Prop where
  answered : (polled there back env k downstream upstream answers.length).1.map Prod.snd = answers
  left : (polled there back env k downstream upstream answers.length).2.state = c

variable {there back env k downstream upstream}

/-- One more poll. -/
theorem Ran.poll {answers : List (Poll IoError Unit)} {c : Copying A B W W}
    (h : Ran there back env k downstream upstream answers c) :
    ∃ k', Ran there back env k downstream upstream
      (answers ++ [(copyBidirectional there back env k' c).result])
      (copyBidirectional there back env k' c).state := by
  obtain ⟨same, rfl⟩ := h
  let s := (polled there back env k downstream upstream answers.length).2
  have next : polled there back env k downstream upstream (answers.length + 1) =
      ((polled there back env k downstream upstream answers.length).1 ++
        [((), ((machine there back env).step s ()).1)], ((machine there back env).step s ()).2) := by
    unfold polled
    rw [List.replicate_succ']
    exact Machine.runFrom_concat
  refine ⟨s.moment, ?_, ?_⟩
  · rw [List.length_append, List.length_singleton, next, List.map_append, same]
    rfl
  · rw [List.length_append, List.length_singleton, next]
    rfl

end Copying

/-! ## The server -/

variable {A B W G : Type}

namespace Task

variable {t : Task A B W G} {knobs : Knobs}

/-- The task's copy without the adapters. -/
def bare (t : Task A B W G) : Copying A B W W where
  aToB := t.copying.aToB
  bToA := t.copying.bToA
  downstream := t.copying.downstream.inner.socket
  upstream := t.copying.upstream.socket

/-- Nothing has been told to it, and nothing is left over in its adapters. -/
def Clean (knobs : Knobs) (t : Task A B W G) : Prop :=
  Copying.Beside (Shutdowner.Untold (Pipeline.Bare knobs)) (Pipeline.Bare knobs) t.copying t.bare

/-- It is beside no other copy. -/
theorem bare_of_beside {c : Copying A B W W}
    (h : Copying.Beside (Shutdowner.Untold (Pipeline.Bare knobs)) (Pipeline.Bare knobs) t.copying c) :
    t.bare = c := by
  obtain ⟨aToB, bToA, downstream, upstream⟩ := c
  obtain ⟨rfl, rfl, ⟨-, rfl, -⟩, rfl, -⟩ := h
  rfl

end Task

/-- A word that leaves the channel waiting is none. -/
theorem Task.Signalled.untold {t t' : Task A B W G} (h : Task.Signalled t t')
    (waiting : t'.errRx = some .waiting) : t' = t := by
  rcases h with same | ⟨-, rx, rfl, word⟩
  · exact same
  · have same : rx = .waiting := Option.some.inj waiting
    rcases word with rfl | ⟨reason, rfl⟩ <;> cases same

namespace Server

/-- The sockets and the knobs of the connections accepted so far, in order. -/
def opened (past : History (Event W) (Poll IoError Response)) : List (W × W × Knobs) :=
  past.filterMap fun e =>
    match e.1 with
    | .accept _ downstream upstream knobs => some (downstream, upstream, knobs)
    | _ => none

/-- What this event's poll of the connection's copy has answered, if it is one. -/
def answerOf (n : Nat) : Event W × Poll IoError Response → Option (Poll IoError Unit)
  | (.poll m, .ok (.polled copied)) => if m = n then some copied else none
  | _ => none

/-- What the polls of the connection's copy have answered so far. -/
def answersOf (n : Nat) (past : History (Event W) (Poll IoError Response)) :
    List (Poll IoError Unit) := past.filterMap (answerOf n)

variable [SmallRng G] [Peer W] {cfg : Config G}
  {there : Transfer A (Shutdowner (Pipeline W G)) (Pipeline W G)}
  {back : Transfer B (Pipeline W G) (Shutdowner (Pipeline W G))} {there' : Transfer A W W}
  {back' : Transfer B W W} {env env' : World} {k k' n : Nat} {t : Task A B W G}
  {past : History (Event W) (Poll IoError Response)} {s s' : Paced (Server A B W G)}

variable (there' back' env env' k k') in
/-- With its knobs at zero the connection has been a plain copy. -/
def PlainSoFar (past : History (Event W) (Poll IoError Response)) (n : Nat) (t : Task A B W G) : Prop :=
  ∃ downstream upstream knobs, (opened past)[n]? = some (downstream, upstream, knobs) ∧
    (Zeroed env k knobs → t.Clean knobs ∧
      Copying.Ran there' back' env' k' downstream upstream (answersOf n past) t.bare)

omit [SmallRng G] [Peer W] in
/-- It goes by the task's copy alone. -/
theorem PlainSoFar.congr {t' : Task A B W G} (same : t'.copying = t.copying)
    (h : PlainSoFar there' back' env env' k k' past n t) :
    PlainSoFar there' back' env env' k k' past n t' := by
  have bare : t'.bare = t.bare := by rw [Task.bare, same, Task.bare]
  unfold PlainSoFar Task.Clean at h ⊢
  rw [same, bare]
  exact h

variable (there back there' back' env env' k k') in
/-- What a run keeps: what the server keeps, and that each connection which still waits for a word has
been a plain copy so far. -/
structure PlainInvariants (past : History (Event W) (Poll IoError Response))
    (s : Paced (Server A B W G)) : Prop where
  server : ∃ misses, Invariants there back env s.moment s.state misses
  later : k ≤ s.moment
  numbered : (opened past).length = s.state.next
  unasked : ∀ n, s.state.next ≤ n → answersOf n past = []
  plain : ∀ n t, s.state.tasks n = some t → t.errRx = some .waiting →
    PlainSoFar there' back' env env' k k' past n t

omit [SmallRng G] in
/-- An event that neither accepts nor polls a connection. -/
theorem PlainInvariants.quiet {e : Event W × Poll IoError Response}
    (h : PlainInvariants there back there' back' env env' k k' past s)
    (server : ∃ misses, Invariants there back env s'.moment s'.state misses)
    (later : s.moment ≤ s'.moment) (next : s'.state.next = s.state.next)
    (source : ∀ n t', s'.state.tasks n = some t' → t'.errRx = some .waiting →
      ∃ t, s.state.tasks n = some t ∧ t'.copying = t.copying)
    (opens : opened [e] = []) (answers : ∀ n, answerOf n e = none) :
    PlainInvariants there back there' back' env env' k k' (past ++ [e]) s' := by
  have same : opened (past ++ [e]) = opened past := by
    rw [opened, List.filterMap_append, ← opened, ← opened, opens, List.append_nil]
  have same' : ∀ n, answersOf n (past ++ [e]) = answersOf n past := by
    intro n
    rw [answersOf, List.filterMap_append, List.filterMap_cons_none (answers n), List.filterMap_nil,
      List.append_nil, answersOf]
  refine ⟨server, Nat.le_trans h.later later, ?_, fun n unused => ?_, fun n t' task waiting => ?_⟩
  · rw [same, next, h.numbered]
  · rw [same', h.unasked n (next ▸ unused)]
  · obtain ⟨t, before, copying⟩ := source n t' task waiting
    have waited : t.errRx = some .waiting := by
      rw [Task.errRx, ← copying]
      exact waiting
    have plain := (h.plain n t before waited).congr copying
    unfold PlainSoFar at plain ⊢
    rwa [same, same']

/-- A new connection has nothing left over. -/
theorem PlainInvariants.accept {id : ConnId} {downstream upstream : W} {knobs : Knobs}
    (h : PlainInvariants there back there' back' env env' k k' past s) (alikeThere : there.Alike there')
    (alikeBack : back.Alike back')
    (server : ∃ misses, Invariants there back env s'.moment s'.state misses) (later : s.moment ≤ s'.moment)
    (state : s'.state = ({ s.state with next := s.state.next + 1 }.setTask s.state.next
      (some (newTask cfg there back env s.moment id downstream upstream knobs))).insert id
        s.state.next) :
    PlainInvariants there back there' back' env env' k k'
      (past ++ [(.accept id downstream upstream knobs, .ok .silent)]) s' := by
  have opens : opened (past ++ [(.accept id downstream upstream knobs, .ok .silent)]) =
      opened past ++ [(downstream, upstream, knobs)] := by
    rw [opened, List.filterMap_append]
    rfl
  have same : ∀ n, answersOf n (past ++ [(.accept id downstream upstream knobs, .ok .silent)]) =
      answersOf n past := by
    intro n
    rw [answersOf, List.filterMap_append]
    exact List.append_nil _
  have next : s'.state.next = s.state.next + 1 := by rw [state, Signals.insert.next]; rfl
  refine ⟨server, Nat.le_trans h.later later, ?_, fun n unused => ?_, fun n t' task waiting => ?_⟩
  · rw [opens, List.length_append, next, h.numbered]
    rfl
  · rw [next] at unused
    rw [same, h.unasked n (Nat.le_of_succ_le unused)]
  · rw [state] at task
    obtain ⟨t, before, told⟩ := Signals.insert.source task
    cases told.untold waiting
    rw [PlainSoFar, opens, same]
    by_cases new : n = s.state.next
    · subst new
      rw [setTask_self] at before
      cases before
      refine ⟨downstream, upstream, knobs, ?_, fun _ => ⟨⟨rfl, rfl, ⟨rfl, ?_⟩, ?_⟩, ?_⟩⟩
      · rw [← h.numbered]
        exact List.getElem?_concat_length
      · exact Pipeline.new_bare env s.moment downstream knobs cfg.baseRng
      · exact Pipeline.new_bare env (s.moment + 4) upstream knobs _
      · rw [h.unasked _ (Nat.le_refl _)]
        refine ⟨rfl, ?_⟩
        show Copying.mk there'.start back'.start downstream upstream =
          Copying.mk there.start back.start downstream upstream
        rw [alikeThere.start, alikeBack.start]
    · rw [setTask_other _ new] at before
      obtain ⟨d, u, knobs', found, plain⟩ := h.plain n t' before waiting
      refine ⟨d, u, knobs', ?_, plain⟩
      rw [List.getElem?_append_left (List.getElem?_eq_some_iff.mp found).1]
      exact found

variable (there back env k) in
omit [SmallRng G] [Peer W] in
/-- A poll of a task leaves it with what the copy leaves. -/
theorem pollTask_leaves [AsyncRead W] [AsyncWrite W] {s : Server A B W G} (task : s.tasks n = some t)
    (running : t.res = none) :
    (pollTask there back n).wp env k s fun _ s' _ => ∃ t', s' = s.setTask n t' ∧
      ∀ u, t' = some u → u.copying = (copyBidirectional there back env k t.copying).state := by
  obtain ⟨id, copying, timer, res⟩ := t
  cases running
  rw [pollTask, wp_bind, wp_get]
  simp only [task]
  rw [wp_bind, wp_inside, wp_iff]
  dsimp only
  rw [wp_bind]
  refine timeout_wp fun res k' => ?_
  refine ⟨_, rfl, fun u settled => ?_⟩
  cases res <;> cases settled <;> rfl

/-- **A poll of a connection** that has been a plain copy. -/
theorem PlainInvariants.poll (h : PlainInvariants there back there' back' env env' k k' past s)
    (timeless : Timeless W) (alikeThere : there.Alike there') (alikeBack : back.Alike back')
    (task : s.state.tasks n = some t)
    (server : ∃ misses, Invariants there back env s'.moment s'.state misses) (later : s.moment ≤ s'.moment)
    {t' : Option (Task A B W G)} (state : s'.state = s.state.setTask n t')
    (leaves : ∀ u, t' = some u →
      u.copying = (copyBidirectional there back env s.moment t.copying).state)
    (waited : ∀ u, t' = some u → u.errRx = some .waiting → t.errRx = some .waiting) :
    PlainInvariants there back there' back' env env' k k'
      (past ++ [(.poll n, .ok (.polled (copyBidirectional there back env s.moment t.copying).result))])
      s' := by
  have opens : ∀ r, opened (past ++ [(.poll n, r)]) = opened past := by
    intro r
    rw [opened, List.filterMap_append]
    exact List.append_nil _
  have answers : ∀ m r, answersOf m (past ++ [(.poll n, .ok (.polled r))]) =
      answersOf m past ++ if n = m then [r] else [] := by
    intro m r
    rw [answersOf, List.filterMap_append, answersOf]
    by_cases same : n = m <;> simp [answerOf, same]
  refine ⟨server, Nat.le_trans h.later later, ?_, fun m unused => ?_, fun m u task' waiting => ?_⟩
  · rw [opens, state, h.numbered]
    rfl
  · rw [state] at unused
    have other : n ≠ m := by
      rintro rfl
      obtain ⟨misses, server⟩ := h.server
      obtain ⟨marks, sound⟩ := server.orderly
      rw [sound.fresh n unused] at task
      cases task
    rw [answers, if_neg other, h.unasked m unused]
    rfl
  · rw [PlainSoFar, opens, answers]
    by_cases same : n = m
    · subst same
      rw [state, setTask_self] at task'
      obtain ⟨down, up, knobs, found, plain⟩ := h.plain n t task (waited u task' waiting)
      refine ⟨down, up, knobs, found, fun zero => ?_⟩
      obtain ⟨clean, ran⟩ := plain zero
      obtain ⟨j, ran⟩ := ran.poll
      have socket := Pipeline.likened (G := G) timeless zero env'
      obtain ⟨result, beside⟩ := Copying.copy_mirrors alikeThere alikeBack
        (Shutdowner.likened socket) socket s.moment j t.copying t.bare h.later clean
      rw [← leaves u task'] at beside
      rw [if_pos rfl, result, Task.Clean, Task.bare_of_beside beside]
      exact ⟨beside, ran⟩
    · rw [state, setTask_other _ (Ne.symm same)] at task'
      rw [if_neg same, List.append_nil]
      exact h.plain m u task' waiting

/-- **One event.** -/
theorem plain_step (cfg : Config G) (timeless : Timeless W) (copiesThere : there.Copies)
    (copiesBack : back.Copies) (alikeThere : there.Alike there') (alikeBack : back.Alike back')
    {ev : Event W} (fresh : FreshSockets ev)
    (h : PlainInvariants there back there' back' env env' k k' past s) :
    PlainInvariants there back there' back' env env' k k'
      (past ++ [(ev, ((machine cfg there back env).step s ev).1)])
      ((machine cfg there back env).step s ev).2 := by
  obtain ⟨misses, before⟩ := h.server
  have server : ∃ misses, Invariants there back env ((machine cfg there back env).step s ev).2.moment
      ((machine cfg there back env).step s ev).2.state misses :=
    ⟨_, (machine_step (handle_invariants cfg copiesThere copiesBack fresh before)).1⟩
  have later : s.moment ≤ ((machine cfg there back env).step s ev).2.moment :=
    Nat.le_add_right _ _
  have tells : ∀ {e}, Signals s.state ((machine cfg there back env).step s ev).2.state →
      opened [e] = [] → (∀ n, answerOf n e = none) → PlainInvariants there back there' back' env env' k k'
        (past ++ [e]) ((machine cfg there back env).step s ev).2 := by
    intro e tells opens answers
    refine h.quiet server later tells.next (fun n t' task waiting => ?_) opens answers
    obtain ⟨t, before, told⟩ := tells.source task
    exact ⟨t, before, congrArg Task.copying (told.untold waiting)⟩
  cases ev with
  | accept id downstream upstream knobs => exact h.accept alikeThere alikeBack server later rfl
  | shutdown call id reason => exact tells (.of_steps .shutdown) rfl fun _ => rfl
  | shutdownAll call reason => exact tells (.of_steps .shutdownAll) rfl fun _ => rfl
  | snapshot call ids => exact tells (.of_steps .snapshot) rfl fun _ => rfl
  | advance call => exact tells (.of_steps .advance) rfl fun _ => rfl
  | poll n =>
    by_cases idle : ∀ t, s.state.tasks n = some t → t.res ≠ none
    · obtain ⟨silent, same⟩ := wp_iff.mp (pollTask_silent there back env s.moment idle)
      refine tells ?_ rfl fun m => ?_
      · show Signals s.state (pollTask there back n env s.moment s.state).state
        rw [same]
        exact .refl
      · show answerOf m (.poll n, (pollTask there back n env s.moment s.state).result) = none
        rw [silent]
        rfl
    · simp only [not_forall, not_not] at idle
      obtain ⟨t, task, running⟩ := idle
      have copied := (wp_iff.mp (pollTask_copies there back env s.moment task running)).1
      obtain ⟨t', state, leaves⟩ :=
        wp_iff.mp (pollTask_leaves there back env s.moment task running)
      obtain ⟨-, u, -, stays, -, -, -, waits⟩ := wp_iff.mp
        (pollTask_stays copiesThere copiesBack task running (before.booked n t task))
      have same : t' = some u := by
        rw [← setTask_self (s := s.state) (n := n) t', ← state, stays, setTask_self]
      have polled := h.poll timeless alikeThere alikeBack task server later state leaves fun v left => by
        cases same.symm.trans left
        exact waits.mp
      rw [← copied] at polled
      exact polled
  | cleanUp n =>
    have next : (cleanUp n s.state).2.next = s.state.next := by
      unfold cleanUp
      split
      · exact (Signals.discard (s := s.state.setTask n _)).next
      · rfl
    refine h.quiet server later next (fun m t' task waiting => ?_) rfl fun _ => rfl
    obtain ⟨t, u, before, same, told⟩ := cleanUp_source task
    cases told.untold waiting
    refine ⟨t, before, ?_⟩
    rcases same with rfl | rfl
    · rfl
    · rfl
  | leave n =>
    have next : (leave n s.state).2.next = s.state.next := by
      unfold leave
      split <;> rfl
    exact h.quiet server later next (fun m t' task _ => ⟨t', leave_source task, rfl⟩) rfl fun _ => rfl

/-- **With its knobs at zero a connection is a plain copy.** After every event of every run of the server,
whatever its other connections are and whatever the API does to them: each connection that has not been
told to stop, if its five knobs hold zero, has answered its polls as the copy between the two bare
sockets answers them, in any world, and has left the sockets and both buffers as that does. -/
theorem plain_relays (cfg : Config G) (env env' : World) (timeless : Timeless W)
    (copiesThere : there.Copies) (copiesBack : back.Copies) (alikeThere : there.Alike there')
    (alikeBack : back.Alike back') (k k' : Nat) (events : List (Event W))
    (fresh : ∀ ev ∈ events, FreshSockets ev) :
    (machine cfg there back env).Throughout
      (fun past s => ∀ n t, s.state.tasks n = some t → t.errRx = some .waiting →
        ∃ downstream upstream knobs, (opened past)[n]? = some (downstream, upstream, knobs) ∧
          (Zeroed env k knobs →
            Copying.Ran there' back' env' k' downstream upstream (answersOf n past) t.bare))
      ⟨k, empty⟩ events := by
  have known : (machine cfg there back env).Allowed (fun _ _ ev => FreshSockets ev) ⟨k, empty⟩
      events := Machine.allowedFrom_of_mem fresh
  have step : ∀ past (s : Paced (Server A B W G)) ev,
      PlainInvariants there back there' back' env env' k k' past s → FreshSockets ev →
      PlainInvariants there back there' back' env env' k k'
        (past ++ [(ev, ((machine cfg there back env).step s ev).1)])
        ((machine cfg there back env).step s ev).2 :=
    fun past s ev h fresh =>
      plain_step cfg timeless copiesThere copiesBack alikeThere alikeBack fresh h
  refine .imp (P := PlainInvariants there back there' back' env env' k k') step ?_ ?_ known
  · intro past s ev h fresh n t task waiting
    obtain ⟨d, u, knobs, found, plain⟩ := (step past s ev h fresh).plain n t task waiting
    exact ⟨d, u, knobs, found, fun zero => (plain zero).2⟩
  · refine ⟨⟨_, invariants_empty⟩, Nat.le_refl k, rfl, fun _ _ => rfl, fun n t task => ?_⟩
    cases task

/-- A scripted socket goes by its script alone. -/
theorem timeless_line : Timeless Line := by
  intro env since env'
  refine ⟨?_, fun buf => ?_, ?_, ?_⟩
  · refine mirrors_get ?_
    rintro ⟨s, buf⟩ ⟨_, _⟩ ⟨rfl, rfl⟩
    dsimp only
    rcases s.coming with _ | ⟨_ | bytes, coming⟩
    · exact mirrors_pure ()
    · refine mirrors_bind (mirrors_modify ?_) fun _ => mirrors_pend
      exact fun s t h => ⟨by rw [h.1], h.2⟩
    · have puts : Mirrors env since env' (fun b b' : ReadBuf => b = b')
          (ReadBuf.putSlice (bytes.take buf.remaining))
          (ReadBuf.putSlice (bytes.take buf.remaining)) := by
        refine mirrors_get ?_
        rintro b _ rfl
        exact mirrors_ite (mirrors_modify fun _ _ h => h ▸ rfl) (mirrors_panic _)
      have fills : Mirrors env since env' (fun s t : Line × ReadBuf => s.1 = t.1 ∧ s.2 = t.2)
          ((ReadBuf.putSlice (bytes.take buf.remaining)).zoom (·.2) fun s buf => (s.1, buf))
          ((ReadBuf.putSlice (bytes.take buf.remaining)).zoom (·.2) fun s buf => (s.1, buf)) :=
        mirrors_zoom puts (fun _ _ h => h.2) fun _ _ _ _ h ht => ⟨h.1, ht⟩
      refine mirrors_bind fills fun _ => ?_
      exact mirrors_modify fun _ _ h => ⟨by rw [h.1], h.2⟩
  · rintro k k' s _ - rfl
    exact ⟨rfl, rfl⟩
  · rintro k k' s _ - rfl
    exact ⟨rfl, rfl⟩
  · rintro k k' s _ - rfl
    exact ⟨rfl, rfl⟩

/-- Two connections, one of which is shut down while the other goes on. -/
def sideBySide : List (Event Line) :=
  [.accept "a" (line [some [104, 105], none]) (line [some [121, 111], none]) knobsOff,
    .accept "b" (line [some [104], none]) (line [none]) knobsOff, .poll 0, .poll 1,
    .shutdown 0 "b" "policy revoked", .advance 0, .poll 1, .cleanUp 1, .leave 1, .poll 0]

theorem sideBySide_plain :
    (machine plain (CopyBuffer.transfer _ _) (CopyBuffer.transfer _ _) World.still).Throughout
      (fun past s => ∀ n t, s.state.tasks n = some t → t.errRx = some .waiting →
        ∃ downstream upstream knobs, (opened past)[n]? = some (downstream, upstream, knobs) ∧
          (Zeroed World.still 0 knobs → Copying.Ran (CopyBuffer.transfer _ _) (CopyBuffer.transfer _ _)
            metronome 7 downstream upstream (answersOf n past) t.bare))
      ⟨0, empty⟩ sideBySide := by
  refine plain_relays plain World.still metronome timeless_line CopyBuffer.copies CopyBuffer.copies
    CopyBuffer.alike CopyBuffer.alike 0 7 sideBySide ?_
  simp only [sideBySide, List.forall_mem_cons]
  exact ⟨⟨⟨rfl, rfl⟩, rfl, rfl⟩, ⟨⟨rfl, rfl⟩, rfl, rfl⟩, trivial, trivial, trivial, trivial, trivial,
    trivial, trivial, trivial, fun ev none => by cases none⟩

end Server

end Trixter
