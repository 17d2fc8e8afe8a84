import Trixter.Laws.Upheld
import Trixter.Peer
import Trixter.ApiState

/-!
# Laws of a connection

`copy_ends`: what the two wrapped sockets of a connection uphold, the copy between them upholds, with both
books balanced. The copy is any pair of transfers that copy, and the laws are any at all.
-/

namespace Trixter

open Trixter.Lib Polling

/-! ## The copy -/

namespace Copying

variable {A B D U : Type} (there : Transfer A D U) (back : Transfer B U D) (ld : Law D) (lu : Law U)

/-- The books of the two streams balance: what each has accepted is what the other was heard to say, but
for what the copy holds. -/
def Balanced (c : Copying A B D U) (bd bu : Books) : Prop :=
  bd.heard = bu.said ++ there.unsent c.aToB ∧ bu.heard = bd.said ++ back.unsent c.bToA

/-- Between two polls. -/
def Holds (k : Nat) (c : Copying A B D U) : Prop :=
  ∃ bd bu, Balanced there back c bd bu ∧ ld.holds k bd c.downstream ∧ lu.holds k bu c.upstream

/-- After a failed poll: one of the streams has failed, or has taken no byte. -/
def Fails (e : IoError) (k : Nat) (c : Copying A B D U) : Prop :=
  ∃ bd bu, Balanced there back c bd bu ∧
    (ld.fails e k bd c.downstream ∧ lu.holds k bu c.upstream ∨
      ld.holds k bd c.downstream ∧ lu.fails e k bu c.upstream ∨
      e = writeZeroError ∧ ld.holds k bd c.downstream ∧ lu.holds k bu c.upstream)

/-- The ways out of a poll of the copy. -/
def exit : Exit IoError (Copying A B D U) Unit where
  ok _ k c := Holds there back ld lu k c ∧ there.unsent c.aToB = [] ∧ back.unsent c.bToA = []
  pending := Holds there back ld lu
  err := Fails there back ld lu

variable {there back ld lu} {env : World} {k : Nat} {c : Copying A B D U}

theorem Holds.later {k' : Nat} (later : k ≤ k') (h : Holds there back ld lu k c) :
    Holds there back ld lu k' c := by
  obtain ⟨bd, bu, balanced, hd, hu⟩ := h
  exact ⟨bd, bu, balanced, ld.holds_later later hd, lu.holds_later later hu⟩

theorem Fails.later {e : IoError} {k' : Nat} (later : k ≤ k') (h : Fails there back ld lu e k c) :
    Fails there back ld lu e k' c := by
  obtain ⟨bd, bu, balanced, failed⟩ := h
  refine ⟨bd, bu, balanced, failed.imp ?_ (Or.imp ?_ ?_)⟩
  · exact fun ⟨hd, hu⟩ => ⟨ld.fails_later later hd, lu.holds_later later hu⟩
  · exact fun ⟨hd, hu⟩ => ⟨ld.holds_later later hd, lu.fails_later later hu⟩
  · exact fun ⟨zero, hd, hu⟩ => ⟨zero, ld.holds_later later hd, lu.holds_later later hu⟩

variable [AsyncRead D] [AsyncWrite D] [AsyncRead U] [AsyncWrite U]

/-- The direction to the upstream keeps the books balanced. -/
theorem onThere_ends (copies : there.Copies) (hd : Upholds env ld) (hu : Upholds env lu)
    (h : Holds there back ld lu k c) :
    (onThere there.poll : Io (Copying A B D U) Unit).Ends env k c
      ⟨fun _ k' c' => Holds there back ld lu k' c' ∧ there.unsent c'.aToB = [],
        Holds there back ld lu, Fails there back ld lu⟩ := by
  obtain ⟨bd, bu, ⟨there_, back_⟩, hold, hold'⟩ := h
  have balanced : ∀ {aToB d u got put}, there.unsent c.aToB ++ got = put ++ there.unsent aToB →
      Balanced there back ⟨aToB, c.bToA, d, u⟩ (bd.hear got) (bu.say put) := by
    intro aToB d u got put same
    refine ⟨?_, back_⟩
    show bd.heard ++ got = (bu.said ++ put) ++ there.unsent aToB
    rw [there_, List.append_assoc, same, List.append_assoc]
  rw [onThere, ends_zoom]
  refine ends_mono (copies.copies env ⟨ld, lu, bd, bu⟩ hd.toReadsUphold hu.toWritesUphold k c.aToB
    c.downstream c.upstream hold hold') ?_ ?_ ?_
  · rintro _ k' t - ⟨empty, got, put, same, hd', hu'⟩
    exact ⟨⟨_, _, balanced same, hd', hu'⟩, empty⟩
  · rintro k' t - ⟨got, put, same, hd', hu'⟩
    exact ⟨_, _, balanced same, hd', hu'⟩
  · rintro e k' t - ⟨got, put, same, failed⟩
    exact ⟨_, _, balanced same, failed⟩

/-- The direction to the downstream does too. -/
theorem onBack_ends (copies : back.Copies) (hd : Upholds env ld) (hu : Upholds env lu)
    (h : Holds there back ld lu k c) :
    (onBack back.poll : Io (Copying A B D U) Unit).Ends env k c
      ⟨fun _ k' c' => Holds there back ld lu k' c' ∧ back.unsent c'.bToA = [] ∧ c'.aToB = c.aToB,
        Holds there back ld lu, Fails there back ld lu⟩ := by
  obtain ⟨bd, bu, ⟨there_, back_⟩, hold, hold'⟩ := h
  have balanced : ∀ {bToA d u got put}, back.unsent c.bToA ++ got = put ++ back.unsent bToA →
      Balanced there back ⟨c.aToB, bToA, d, u⟩ (bd.say put) (bu.hear got) := by
    intro bToA d u got put same
    refine ⟨there_, ?_⟩
    show bu.heard ++ got = (bd.said ++ put) ++ back.unsent bToA
    rw [back_, List.append_assoc, same, List.append_assoc]
  rw [onBack, ends_zoom]
  refine ends_mono (copies.copies env ⟨lu, ld, bu, bd⟩ hu.toReadsUphold hd.toWritesUphold k c.bToA
    c.upstream c.downstream hold' hold) ?_ ?_ ?_
  · rintro _ k' t - ⟨empty, got, put, same, hu', hd'⟩
    exact ⟨⟨_, _, balanced same, hd', hu'⟩, empty, rfl⟩
  · rintro k' t - ⟨got, put, same, hu', hd'⟩
    exact ⟨_, _, balanced same, hd', hu'⟩
  · rintro e k' t - ⟨got, put, same, failed⟩
    refine ⟨_, _, balanced same, ?_⟩
    rcases failed with ⟨hu', hd'⟩ | ⟨hu', hd'⟩ | ⟨zero, hu', hd'⟩
    · exact .inr (.inl ⟨hd', hu'⟩)
    · exact .inl ⟨hd', hu'⟩
    · exact .inr (.inr ⟨zero, hd', hu'⟩)

/-- **A poll of the copy keeps the books balanced**, and when it is done nothing is unsent. -/
theorem copy_ends (copiesThere : there.Copies) (copiesBack : back.Copies) (hd : Upholds env ld)
    (hu : Upholds env lu) (h : Holds there back ld lu k c) :
    (copyBidirectional there back).Ends env k c (exit there back ld lu) := by
  rw [copyBidirectional, ends_bind, ends_orPending]
  refine ends_mono (onThere_ends copiesThere hd hu h) ?_ ?_ (fun _ _ _ _ failed => failed)
  · -- the first direction is done
    rintro _ k' c' - ⟨h', empty⟩
    dsimp only
    rw [ends_bind, ends_orPending]
    refine ends_mono (onBack_ends copiesBack hd hu h') ?_ (fun _ _ _ h'' => h'')
      (fun _ _ _ _ failed => failed)
    rintro _ k'' c'' - ⟨h'', empty', same⟩
    exact ⟨h'', same ▸ empty, empty'⟩
  · intro k' c' _ h'
    dsimp only
    rw [ends_bind, ends_orPending]
    exact ends_mono (onBack_ends copiesBack hd hu h') (fun _ _ _ _ left => left.1)
      (fun _ _ _ h'' => h'') (fun _ _ _ _ failed => failed)

end Copying

/-! ## The sockets -/

namespace Pipeline

variable {W G : Type} {env : World}

/-- The law of a wrapped socket, from that of its throttled one. -/
def law (env : World) (prob : DynamicProbability)
    (throttled : Law (ThrottledWriter (DelayedWriter W DynamicDuration) DynamicRate)) :
    Law (Pipeline W G) :=
  throttled.sliced.fused.corrupted env prob

/-- A wrapped socket upholds it, as the throttled one does. -/
theorem upholds [SmallRng G] [AsyncRead W] [ReadySink W] {prob : DynamicProbability}
    {throttled : Law (ThrottledWriter (DelayedWriter W DynamicDuration) DynamicRate)}
    (h : Upholds env throttled) : Upholds env (law (G := G) env prob throttled) := by
  have ready : FlushReady W fun _ => True := ReadySink.flushReady
  have below : FlushReady (ThrottledWriter (DelayedWriter W DynamicDuration) DynamicRate)
      fun _ => True := ThrottledWriter.flushReady (DelayedWriter.flushReady ready)
  exact Corrupter.upholds (Terminator.upholds (SlicedWriter.upholds h (h.prompt below)))

/-- What its socket's books say of it, limits and delays apart. -/
def books (W : Type) [Peer W] :
    Law (ThrottledWriter (DelayedWriter W DynamicDuration) DynamicRate) :=
  ((Law.ledger (W := W) given received).of DelayedWriter.inner).of ThrottledWriter.inner

theorem books_upheld [Peer W] (env : World) : Upholds env (books W) :=
  ThrottledWriter.upholds (DelayedWriter.upholds (Peer.honest env))

end Pipeline

end Trixter
