import Trixter.Lib.Runs
import Trixter.Lib.Poll
import Trixter.Lib.Twin
import Trixter.Lib.Bucket
import Trixter.Lib.Weave
import Trixter.Lib.Keyed
import Trixter.Lib.Collector
import Trixter.Lib.Mirror
import Trixter.Io
import Trixter.Ledger
import Trixter.Script
import Trixter.Xoshiro
import Trixter.Delayer
import Trixter.Throttler
import Trixter.Slicer
import Trixter.F64
import Trixter.Probability
import Trixter.ProbabilityAtomics
import Trixter.Terminator
import Trixter.Tally
import Trixter.Backlog
import Trixter.Corrupter
import Trixter.Injector
import Trixter.ApiState
import Trixter.Laws.Contract
import Trixter.Laws.Delayer
import Trixter.Laws.DelayerRuns
import Trixter.Laws.Throttler
import Trixter.Laws.ThrottlerRuns
import Trixter.Laws.Accrual
import Trixter.Laws.Bursts
import Trixter.Laws.Stacked
import Trixter.Laws.Slicer
import Trixter.Laws.SlicerRuns
import Trixter.Laws.Retried
import Trixter.Laws.Backlog
import Trixter.Laws.Corrupter
import Trixter.Laws.Injector
import Trixter.Laws.Synthetic
import Trixter.Laws.ReadInjector
import Trixter.Laws.InjectorRuns
import Trixter.Laws.Framing
import Trixter.Laws.Pipeline
import Trixter.Laws.Transparent
import Trixter.Laws.Terminator
import Trixter.Laws.Draws
import Trixter.Laws.Hesitant
import Trixter.Laws.Chaos
import Trixter.Shutdowner
import Trixter.Copy
import Trixter.CopyBuffer
import Trixter.Server
import Trixter.Shutdowns
import Trixter.Laws.Shutdowner
import Trixter.Laws.Copy
import Trixter.Laws.CopyBuffer
import Trixter.Laws.Kill
import Trixter.Laws.ShutdownerRuns
import Trixter.Laws.Wakers
import Trixter.Laws.Setters
import Trixter.Laws.ApiState
import Trixter.Laws.Shutdowns
import Trixter.Laws.Caps
import Trixter.Trail
import Trixter.Tape
import Trixter.Laws.Slices
import Trixter.Laws.SlicerRaces
import Trixter.Laws.Blocks
import Trixter.Laws.EndOfFile
import Trixter.Laws.Discipline
import Trixter.Laws.Vectored
import Trixter.Laws.DelayedReads
import Trixter.Laws.DelayedWrites
import Trixter.Laws.Backpressure
import Trixter.Laws.DelayKnob
import Trixter.Laws.Starvation
import Trixter.Reel
import Trixter.Lib.Exit
import Trixter.Books
import Trixter.Peer
import Trixter.Laws.Copies
import Trixter.Laws.Upheld
import Trixter.Laws.ThrottledReads
import Trixter.Laws.Bypass
import Trixter.Laws.Threshold
import Trixter.Laws.Connections
import Trixter.Laws.Tasks
import Trixter.Laws.Relay
import Trixter.ResetLinger
import Trixter.Laws.Resets
import Trixter.Laws.Bandwidth
import Trixter.Laws.TimeLimit
import Trixter.Laws.Latency
import Trixter.Laws.Registry
import Trixter.Laws.Reduced
import Trixter.Laws.Plain
import Trixter.Laws.Flushes
import Trixter.Laws.Node
import Trixter.Laws.Settings
import Trixter.Laws.Stack
import Trixter.BufStack
import Trixter.Laws.BufStack
