import Trixter.Corrupter
import Trixter.Delayer
import Trixter.Injector
import Trixter.RateCountingReader
import Trixter.Shutdowner
import Trixter.Slicer
import Trixter.Terminator
import Trixter.Throttler

/-!
# Stacks of adapters

The extension traits of `io.rs` and the constructors of the other adapters each wrap one more of them
around a stream. A stack is what they make of a socket, one adapter over another in any order. A plain
rate, size or probability is a shared one that nobody sets, and so is a plain delay of at most
`u64::MAX` nanoseconds, which is all that a shared one holds: a longer one, which the clock may not be able
to add, is no stack's. The two adapters that read through a buffer, `DelayedReader` and `ThrottledReader`,
need a buffered stream and are not among them.
-/

namespace Trixter

open Trixter.Lib

/-- An adapter, with its knob. -/
inductive Layer where
  | delayWrites (duration : DynamicDuration)
  | throttleWrites (rate : DynamicRate)
  | sliceWrites (size : DynamicSize)
  | injectWrite
  | injectRead
  | terminate (prob : DynamicProbability)
  | corrupt (prob : DynamicProbability)
  | shutdown
  | countReads
  deriving DecidableEq, Repr

/-- What the adapter makes of a stream. -/
def Layer.Over (T G : Type) : Layer → Type
  | .delayWrites _ => DelayedWriter T DynamicDuration
  | .throttleWrites _ => ThrottledWriter T DynamicRate
  | .sliceWrites _ => SlicedWriter T DynamicSize
  | .injectWrite => WriteInjector T
  | .injectRead => ReadInjector T
  | .terminate _ => Terminator T DynamicProbability G
  | .corrupt _ => Corrupter T DynamicProbability G
  | .shutdown => Shutdowner T
  | .countReads => RateCountingReader T

namespace Layer

variable {T G : Type} [SmallRng G]

instance [AsyncRead T] : (layer : Layer) → AsyncRead (layer.Over T G)
  | .delayWrites _ => inferInstanceAs (AsyncRead (DelayedWriter T DynamicDuration))
  | .throttleWrites _ => inferInstanceAs (AsyncRead (ThrottledWriter T DynamicRate))
  | .sliceWrites _ => inferInstanceAs (AsyncRead (SlicedWriter T DynamicSize))
  | .injectWrite => inferInstanceAs (AsyncRead (WriteInjector T))
  | .injectRead => inferInstanceAs (AsyncRead (ReadInjector T))
  | .terminate _ => inferInstanceAs (AsyncRead (Terminator T DynamicProbability G))
  | .corrupt _ => inferInstanceAs (AsyncRead (Corrupter T DynamicProbability G))
  | .shutdown => inferInstanceAs (AsyncRead (Shutdowner T))
  | .countReads => inferInstanceAs (AsyncRead (RateCountingReader T))

instance [AsyncWrite T] : (layer : Layer) → AsyncWrite (layer.Over T G)
  | .delayWrites _ => inferInstanceAs (AsyncWrite (DelayedWriter T DynamicDuration))
  | .throttleWrites _ => inferInstanceAs (AsyncWrite (ThrottledWriter T DynamicRate))
  | .sliceWrites _ => inferInstanceAs (AsyncWrite (SlicedWriter T DynamicSize))
  | .injectWrite => inferInstanceAs (AsyncWrite (WriteInjector T))
  | .injectRead => inferInstanceAs (AsyncWrite (ReadInjector T))
  | .terminate _ => inferInstanceAs (AsyncWrite (Terminator T DynamicProbability G))
  | .corrupt _ => inferInstanceAs (AsyncWrite (Corrupter T DynamicProbability G))
  | .shutdown => inferInstanceAs (AsyncWrite (Shutdowner T))
  | .countReads => inferInstanceAs (AsyncWrite (RateCountingReader T))

/-- The stream under the adapter. -/
def inner {T G : Type} : (layer : Layer) → layer.Over T G → T
  | .delayWrites _ => DelayedWriter.inner
  | .throttleWrites _ => ThrottledWriter.inner
  | .sliceWrites _ => SlicedWriter.inner
  | .injectWrite => WriteInjector.inner
  | .injectRead => ReadInjector.inner
  | .terminate _ => Terminator.inner
  | .corrupt _ => Corrupter.inner
  | .shutdown => Shutdowner.inner
  | .countReads => RateCountingReader.inner

/-- The adapter around another stream. -/
def withInner {T G : Type} : (layer : Layer) → layer.Over T G → T → layer.Over T G
  | .delayWrites _, (s : DelayedWriter T DynamicDuration), inner => { s with inner }
  | .throttleWrites _, (s : ThrottledWriter T DynamicRate), inner => { s with inner }
  | .sliceWrites _, (s : SlicedWriter T DynamicSize), inner => { s with inner }
  | .injectWrite, (s : WriteInjector T), inner => { s with inner }
  | .injectRead, (s : ReadInjector T), inner => { s with inner }
  | .terminate _, (s : Terminator T DynamicProbability G), inner => { s with inner }
  | .corrupt _, (s : Corrupter T DynamicProbability G), inner => { s with inner }
  | .shutdown, (s : Shutdowner T), inner => { s with inner }
  | .countReads, (s : RateCountingReader T), inner => { s with inner }

/-- The adapter as its constructor makes it around a stream. -/
def Makes {T G : Type} [SmallRng G] (env : World) (t : T) : (layer : Layer) → layer.Over T G → Prop
  | .delayWrites duration, s => ∃ created, s = DelayedWriter.new created t duration
  | .throttleWrites rate, s => ∃ k, s = ThrottledWriter.new env k t rate
  | .sliceWrites size, s => s = SlicedWriter.new t size
  | .injectWrite, s => ∃ injectRx, s = WriteInjector.new t injectRx
  | .injectRead, s => ∃ injectRx, s = ReadInjector.new t injectRx
  | .terminate prob, s => ∃ rng, s = (Terminator.fromRng t prob rng).1
  | .corrupt prob, s => ∃ rng, s = (Corrupter.fromRng t prob rng).1
  | .shutdown, s => s = Shutdowner.new t
  | .countReads, s => s = RateCountingReader.new t

/-- What others do to the adapter between two polls of its owner: messages come for an injector, or the
last of its senders goes, a shutdowner is told to stop, or its handle is dropped, and a count is reset. -/
inductive OutsideStep {T G : Type} : (layer : Layer) → layer.Over T G → layer.Over T G → Prop
  | messageToWrite (s : WriteInjector T) (injectRx : InjectRx) :
      OutsideStep .injectWrite s { s with injectRx }
  | messageToRead (s : ReadInjector T) (injectRx : InjectRx) : OutsideStep .injectRead s { s with injectRx }
  | stop (s : Shutdowner T) (err : BError) : OutsideStep .shutdown s { s with errRx := s.errRx.map (·.send err) }
  | drop (s : Shutdowner T) : OutsideStep .shutdown s { s with errRx := s.errRx.map (·.hangUp) }
  | reset (s : RateCountingReader T) : OutsideStep .countReads s s.reset

end Layer

/-- A socket under these adapters, the outermost first. -/
def Stack (W G : Type) : List Layer → Type
  | [] => W
  | layer :: layers => layer.Over (Stack W G layers) G

namespace Stack

variable {W G : Type} [SmallRng G]

instance asyncRead [AsyncRead W] : (layers : List Layer) → AsyncRead (Stack W G layers)
  | [] => (inferInstance : AsyncRead W)
  | layer :: layers =>
    have := asyncRead layers
    (inferInstance : AsyncRead (layer.Over (Stack W G layers) G))

instance asyncWrite [AsyncWrite W] : (layers : List Layer) → AsyncWrite (Stack W G layers)
  | [] => (inferInstance : AsyncWrite W)
  | layer :: layers =>
    have := asyncWrite layers
    (inferInstance : AsyncWrite (layer.Over (Stack W G layers) G))

/-- The socket at the bottom. -/
def socket {W G : Type} : (layers : List Layer) → Stack W G layers → W
  | [], w => w
  | layer :: layers, s => socket layers (layer.inner s)

/-- What others do to one adapter of the stack. -/
def OutsideStep {W G : Type} : (layers : List Layer) → Stack W G layers → Stack W G layers → Prop
  | [], _, _ => False
  | layer :: layers, s, s' =>
    layer.OutsideStep (T := Stack W G layers) (G := G) s s' ∨
      ∃ t, OutsideStep layers (layer.inner s) t ∧ s' = layer.withInner (T := Stack W G layers) (G := G) s t

/-- The stack that its constructors make around a socket. -/
def Made (env : World) (w : W) : (layers : List Layer) → Stack W G layers → Prop
  | [], s => s = w
  | layer :: layers, s => ∃ t, Made env w layers t ∧ layer.Makes env t s

end Stack

end Trixter
