import Trixter.Books
import Trixter.Laws.Contract
import Trixter.Lib.Runs

/-!
# The owner of a stream

Whoever owns a stream reads from it, writes to it, flushes and shuts it down, in any order, while things
happen to the stream that the owner does not do. The books of a run are what its answers say. A law that
every poll upholds, and that nothing breaks that happens in between, holds of the stream with the books of
the run, as long as no call has failed: `Upholds.throughout`. What a failed call leaves behind is outside
of it.
-/

namespace Trixter

open Trixter.Lib Polling

variable {T : Type}

/-- A call of the owner, or what becomes of the stream by itself. -/
inductive OwnerMove (T : Type) where
  | read (buf : ReadBuf)
  | write (buf : List UInt8)
  | flush
  | shutdown
  | become (t : T)

namespace OwnerMove

variable [AsyncRead T] [AsyncWrite T]

/-- One poll of the call. -/
def poll : OwnerMove T → Io T Reply
  | .read buf => do return .filled (← Polling.lend buf pollRead)
  | .write buf => do return .count (← pollWrite buf)
  | .flush => do
    pollFlush
    return .count 0
  | .shutdown => do
    pollShutdown
    return .count 0
  | .become t => do
    Polling.modify fun _ => t
    return .count 0

omit [AsyncRead T] [AsyncWrite T] in
/-- The books after an answer. -/
def settle (b : Books) : OwnerMove T → Poll IoError Reply → Books
  | .read buf, .ok (.filled buf') => b.hear (buf'.filled.drop buf.filled.length)
  | .write buf, .ok (.count n) => b.say (buf.take n)
  | _, _ => b

end OwnerMove

/-- The books of a history. -/
def booksOf (past : History (OwnerMove T) (Poll IoError Reply)) : Books :=
  past.foldl (fun b e => e.1.settle b e.2) .blank

/-- The stream in the hands of an owner. -/
def owned (T : Type) [AsyncRead T] [AsyncWrite T] (env : World) :
    Machine (Paced T) (OwnerMove T) (Poll IoError Reply) :=
  Polling.machine env OwnerMove.poll

/-- No call has failed. -/
def Unfailed {ι α : Type} (past : History ι (Poll IoError α)) : Prop := ∀ e ∈ past, ∀ err, e.2 ≠ .err err

theorem booksOf_snoc {past : History (OwnerMove T) (Poll IoError Reply)} {turn : OwnerMove T}
    {r : Poll IoError Reply} : booksOf (past ++ [(turn, r)]) = turn.settle (booksOf past) r := by
  rw [booksOf, List.foldl_append]
  rfl

section Owned

variable [AsyncRead T] [AsyncWrite T] {env : World} {law : Law T} {k : Nat} {b : Books} {t : T}

/-- **One turn** comes back, and unless it fails it leaves the law, with the books brought up to date. -/
theorem Upholds.turn (h : Upholds env law) (hold : law.holds k b t) {turn : OwnerMove T}
    (stays : ∀ t', turn = .become t' → law.holds k b t') :
    turn.poll.Ends env k t ⟨fun reply k' t' => law.holds k' (turn.settle b (.ok reply)) t',
      fun k' t' => law.holds k' b t', fun _ _ _ => True⟩ := by
  cases turn with
  | read buf =>
    rw [OwnerMove.poll, ends_bind, ends_lend]
    refine ends_mono (h.read buf hold) ?_ (fun _ _ _ left => left) (fun _ _ _ _ _ => trivial)
    rintro _ k' ⟨t', buf'⟩ - ⟨bytes, rfl, left⟩
    show law.holds k' (b.hear ((buf.filled ++ bytes).drop buf.filled.length)) t'
    rwa [List.drop_left]
  | write buf =>
    rw [OwnerMove.poll, ends_bind]
    exact ends_mono (h.write buf hold) (fun _ _ _ _ left => left.2) (fun _ _ _ left => left)
      (fun _ _ _ _ _ => trivial)
  | flush =>
    rw [OwnerMove.poll, ends_bind]
    exact ends_mono (h.flush hold) (fun _ _ _ _ left => left) (fun _ _ _ left => left)
      (fun _ _ _ _ _ => trivial)
  | shutdown =>
    rw [OwnerMove.poll, ends_bind]
    exact ends_mono (h.shutdown hold) (fun _ _ _ _ left => left) (fun _ _ _ left => left)
      (fun _ _ _ _ _ => trivial)
  | become t' => exact stays t' rfl

omit [AsyncRead T] [AsyncWrite T] in
/-- A turn that is not ready leaves the books. -/
theorem settle_pending {turn : OwnerMove T} : turn.settle b .pending = b := by
  cases turn <;> rfl

variable (law) in
/-- After a history without a failure: no call has unwound, and the law holds with the books of it. -/
def OwnerKept (past : History (OwnerMove T) (Poll IoError Reply)) (s : Paced T) : Prop :=
  Unfailed past → (∀ e ∈ past, Calm e.2) ∧ law.holds s.moment (booksOf past) s.state

omit [AsyncRead T] [AsyncWrite T] in
/-- Before the first turn. -/
theorem ownerKept_nil (hold : law.holds k .blank t) : OwnerKept law [] ⟨k, t⟩ :=
  fun _ => ⟨fun e mem => (by cases mem), hold⟩

variable {changes : T → T → Prop}

/-- One turn more. -/
theorem Upholds.kept_step (h : Upholds env law)
    (stays : ∀ {k b t t'}, changes t t' → law.holds k b t → law.holds k b t')
    (past : History (OwnerMove T) (Poll IoError Reply)) (s : Paced T) (turn : OwnerMove T)
    (kept : OwnerKept law past s) (known : ∀ t', turn = .become t' → changes s.state t') :
    OwnerKept law (past ++ [(turn, ((owned T env).step s turn).1)]) ((owned T env).step s turn).2 := by
  intro unfailed
  obtain ⟨calm, hold⟩ := kept fun e mem => unfailed e (List.mem_append_left _ mem)
  have one := machine_step (h.turn hold fun t' same => stays (known t' same) hold)
  have last := unfailed _ (List.mem_append_right past (List.mem_singleton_self _))
  rw [booksOf_snoc]
  change Exit.post _ ((owned T env).step s turn).1 _ _ at one
  have both : Calm ((owned T env).step s turn).1 ∧
      law.holds ((owned T env).step s turn).2.moment
        (turn.settle (booksOf past) ((owned T env).step s turn).1)
        ((owned T env).step s turn).2.state := by
    generalize ((owned T env).step s turn).1 = r at one last
    cases r with
    | ok reply => exact ⟨calm_ok reply, one⟩
    | pending => exact ⟨calm_pending, settle_pending ▸ one⟩
    | err e => exact absurd rfl (last e)
    | panicked message => exact one.elim
  refine ⟨fun e mem => ?_, both.2⟩
  rcases List.mem_append.mp mem with mem | mem
  · exact calm e mem
  · cases List.mem_singleton.mp mem
    exact both.1

variable {turns : List (OwnerMove T)}

/-- **The rule of laws**, at every step of a run. -/
theorem Upholds.throughout (h : Upholds env law)
    (stays : ∀ {k b t t'}, changes t t' → law.holds k b t → law.holds k b t')
    (hold : law.holds k .blank t)
    (known : (owned T env).Allowed (fun _ s turn => ∀ t', turn = .become t' → changes s.state t') ⟨k, t⟩
      turns) : (owned T env).Throughout (OwnerKept law) ⟨k, t⟩ turns :=
  .imp (h.kept_step stays) (h.kept_step stays) (ownerKept_nil hold) known

/-- The rule at the end of a run. -/
theorem Upholds.at_end (h : Upholds env law)
    (stays : ∀ {k b t t'}, changes t t' → law.holds k b t → law.holds k b t')
    (hold : law.holds k .blank t)
    (known : (owned T env).Allowed (fun _ s turn => ∀ t', turn = .become t' → changes s.state t') ⟨k, t⟩
      turns) :
    OwnerKept law ((owned T env).run ⟨k, t⟩ turns).1 ((owned T env).run ⟨k, t⟩ turns).2 :=
  Machine.run_induction (ownerKept_nil hold) (h.kept_step stays) known

end Owned

end Trixter
