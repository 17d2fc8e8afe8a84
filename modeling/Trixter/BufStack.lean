import Trixter.Stack

/-!
# Stacks of buffered adapters

Every adapter but the counting reader hands the buffered interface of its stream on, and the two that
read through a buffer come in where there is one. A stack of them over a buffered stream is a buffered
stream again, with three ways to take its bytes: a read, and a look followed by a consume. The knobs are
those of a `Stack`: its delays are at most `u64::MAX` nanoseconds.
-/

namespace Trixter

open Trixter.Lib

/-- The buffered interface of an adapter. A counting reader has none. -/
@[reducible] def Layer.asyncBufRead {T G : Type} [SmallRng G] [AsyncBufRead T] :
    (layer : Layer) → layer ≠ .countReads → AsyncBufRead (layer.Over T G)
  | .delayWrites _, _ => inferInstanceAs (AsyncBufRead (DelayedWriter T DynamicDuration))
  | .throttleWrites _, _ => inferInstanceAs (AsyncBufRead (ThrottledWriter T DynamicRate))
  | .sliceWrites _, _ => inferInstanceAs (AsyncBufRead (SlicedWriter T DynamicSize))
  | .injectWrite, _ => inferInstanceAs (AsyncBufRead (WriteInjector T))
  | .injectRead, _ => inferInstanceAs (AsyncBufRead (ReadInjector T))
  | .terminate _, _ => inferInstanceAs (AsyncBufRead (Terminator T DynamicProbability G))
  | .corrupt _, _ => inferInstanceAs (AsyncBufRead (Corrupter T DynamicProbability G))
  | .shutdown, _ => inferInstanceAs (AsyncBufRead (Shutdowner T))
  | .countReads, buffered => absurd rfl buffered

/-- An adapter for a buffered stream, with its knob. -/
inductive BufLayer where
  | delayReads (duration : DynamicDuration)
  | throttleReads (rate : DynamicRate)
  | other (layer : Layer) (buffered : layer ≠ .countReads)
  deriving DecidableEq

namespace BufLayer

/-- What the adapter makes of a stream. -/
def Over (T G : Type) : BufLayer → Type
  | .delayReads _ => DelayedReader T DynamicDuration
  | .throttleReads _ => ThrottledReader T DynamicRate
  | .other layer _ => layer.Over T G

variable {T G : Type}

instance asyncBufRead [SmallRng G] [AsyncBufRead T] : (layer : BufLayer) → AsyncBufRead (layer.Over T G)
  | .delayReads _ => inferInstanceAs (AsyncBufRead (DelayedReader T DynamicDuration))
  | .throttleReads _ => inferInstanceAs (AsyncBufRead (ThrottledReader T DynamicRate))
  | .other layer buffered => layer.asyncBufRead buffered

/-- The stream under the adapter. -/
def inner : (layer : BufLayer) → layer.Over T G → T
  | .delayReads _ => DelayedReader.inner
  | .throttleReads _ => ThrottledReader.inner
  | .other layer _ => layer.inner

/-- The adapter around another stream. -/
def withInner : (layer : BufLayer) → layer.Over T G → T → layer.Over T G
  | .delayReads _, (s : DelayedReader T DynamicDuration), inner => { s with inner }
  | .throttleReads _, (s : ThrottledReader T DynamicRate), inner => { s with inner }
  | .other layer _, s, inner => layer.withInner s inner

/-- The adapter as its constructor makes it around a stream. -/
def Makes [SmallRng G] (env : World) (t : T) : (layer : BufLayer) → layer.Over T G → Prop
  | .delayReads duration, s => ∃ created, s = DelayedReader.new created t duration
  | .throttleReads rate, s => ∃ k, s = ThrottledReader.new env k t rate
  | .other layer _, s => layer.Makes env t s

/-- What others do to the adapter between two polls of its owner. -/
def OutsideStep : (layer : BufLayer) → layer.Over T G → layer.Over T G → Prop
  | .delayReads _, _, _ => False
  | .throttleReads _, _, _ => False
  | .other layer _, s, s' => layer.OutsideStep s s'

end BufLayer

/-- A buffered stream under these adapters, the outermost first. -/
def BufStack (T G : Type) : List BufLayer → Type
  | [] => T
  | layer :: layers => layer.Over (BufStack T G layers) G

namespace BufStack

variable {T G : Type}

instance asyncBufRead [SmallRng G] [AsyncBufRead T] :
    (layers : List BufLayer) → AsyncBufRead (BufStack T G layers)
  | [] => (inferInstance : AsyncBufRead T)
  | layer :: layers =>
    have := asyncBufRead layers
    (inferInstance : AsyncBufRead (layer.Over (BufStack T G layers) G))

/-- The stream at the bottom. -/
def source : (layers : List BufLayer) → BufStack T G layers → T
  | [], t => t
  | layer :: layers, s => source layers (layer.inner s)

/-- What others do to one adapter of the stack. -/
def OutsideStep : (layers : List BufLayer) → BufStack T G layers → BufStack T G layers → Prop
  | [], _, _ => False
  | layer :: layers, s, s' =>
    layer.OutsideStep (T := BufStack T G layers) (G := G) s s' ∨
      ∃ t, OutsideStep layers (layer.inner s) t ∧
        s' = layer.withInner (T := BufStack T G layers) (G := G) s t

/-- The stack that its constructors make around a stream. -/
def Made [SmallRng G] (env : World) (t : T) : (layers : List BufLayer) → BufStack T G layers → Prop
  | [], s => s = t
  | layer :: layers, s => ∃ u, Made env t layers u ∧ layer.Makes env u s

end BufStack

/-- A call of the owner of a buffered stream, or what becomes of the stream by itself. -/
inductive ReaderMove (S : Type) where
  | call (c : ReadCall)
  | become (s : S)

/-- One poll of the call. -/
def ReaderMove.poll {S : Type} [AsyncBufRead S] : ReaderMove S → Io S (List UInt8)
  | .call c => c.poll
  | .become s => do
    Polling.modify fun _ => s
    return []

end Trixter
