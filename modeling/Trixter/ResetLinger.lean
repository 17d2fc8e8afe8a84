import Trixter.Injector
import Trixter.Server

/-!
# Abortive close

`ResetLinger` of `io.rs`: the request that a stream reset its connection when it is closed. Every adapter
hands it to what it wraps. `handle_connection` makes it of both its sockets after a termination or a
timeout.
-/

namespace Trixter

/-- `ResetLinger`. -/
class ResetLinger (T : Type) where
  setResetLinger : T → Except IoError Unit × T

export ResetLinger (setResetLinger)

/-- The request is handed to the wrapped stream. -/
def passReset {σ T : Type} [ResetLinger T] (inner : σ → T) (setInner : σ → T → σ) (s : σ) :
    Except IoError Unit × σ :=
  let (res, t) := setResetLinger (inner s)
  (res, setInner s t)

variable {T : Type} [ResetLinger T]

instance {D : Type} : ResetLinger (DelayedReader T D) where
  setResetLinger := passReset (·.inner) fun s inner => { s with inner }

instance {D : Type} : ResetLinger (DelayedWriter T D) where
  setResetLinger := passReset (·.inner) fun s inner => { s with inner }

instance {R : Type} : ResetLinger (ThrottledReader T R) where
  setResetLinger := passReset (·.inner) fun s inner => { s with inner }

instance {R : Type} : ResetLinger (ThrottledWriter T R) where
  setResetLinger := passReset (·.inner) fun s inner => { s with inner }

instance {S : Type} : ResetLinger (SlicedWriter T S) where
  setResetLinger := passReset (·.inner) fun s inner => { s with inner }

instance {P G : Type} : ResetLinger (Terminator T P G) where
  setResetLinger := passReset (·.inner) fun s inner => { s with inner }

instance {P G : Type} : ResetLinger (Corrupter T P G) where
  setResetLinger := passReset (·.inner) fun s inner => { s with inner }

instance : ResetLinger (ReadInjector T) where
  setResetLinger := passReset (·.inner) fun s inner => { s with inner }

instance : ResetLinger (WriteInjector T) where
  setResetLinger := passReset (·.inner) fun s inner => { s with inner }

instance : ResetLinger (Shutdowner T) where
  setResetLinger := passReset (·.inner) fun s inner => { s with inner }

/-- The end of `handle_connection`: the two streams as they are dropped. The requests are best effort,
and the second is made whatever became of the first. -/
def Task.release {A B W G : Type} [ResetLinger W] (t : Task A B W G) :
    Copying A B (Shutdowner (Pipeline W G)) (Pipeline W G) :=
  match t.res with
  | some res =>
    if Server.lingers res then
      let (_, downstream) := setResetLinger t.copying.downstream
      let (_, upstream) := setResetLinger t.copying.upstream
      { t.copying with downstream, upstream }
    else t.copying
  | none => t.copying

end Trixter
