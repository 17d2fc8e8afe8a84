import Trixter.Io

/-!
# Throttling adapters

`throttler.rs`. Both adapters hold a `LeakyBucket`: tokens accrue with the clock at the rate the
knob reports, up to one second of them, and each forwarded byte costs one. A rate of zero switches
the bucket off.

The fields are the source's `usize` and `Instant`: `budget` is 64 bits wide, the product in
`updateBudget` is taken modulo 2^128 and the new budget is cast back, as the source casts.
-/

namespace Trixter

open Trixter.Lib

/-- `trait Rate`: bytes per second, zero for unlimited. The two methods are two reads. -/
class Rate (R : Type) where
  rate : World → R → Nat → UInt64
  isUnlimited : World → R → Nat → Bool

/-- A plain `usize`. -/
instance : Rate UInt64 where
  rate _ r _ := r
  isUnlimited _ r _ := r == 0

/-- A shared rate knob: the address of its atomic. -/
structure DynamicRate where
  cell : Nat
  deriving DecidableEq, Repr

instance : Rate DynamicRate where
  rate env r k := env.atomics r.cell k
  isUnlimited env r k := env.atomics r.cell k == 0

structure LeakyBucket (R : Type) where
  rate : R
  budget : UInt64
  lastUpdate : Nat
  sleep : Sleep
  sleeping : Bool
  deriving DecidableEq, Repr

/-- Tokens handed out by `poll_acquire`. `reading` is the clock reading of the refill they were
taken after, and is `none` when no bucket was asked: nothing wanted, or no limit. The source
returns the tokens alone. -/
structure Grant where
  tokens : Nat
  reading : Option Nat
  deriving DecidableEq, Repr

/-- Unsigned division, which the source's build checks. -/
def checkedDiv {σ : Type} (a b : Nat) : Io σ Nat :=
  if b = 0 then Polling.panic "attempt to divide by zero" else pure (a / b)

namespace LeakyBucket

variable {R α : Type}

/-- A bucket created at moment `k`, holding one second of tokens. -/
def new [Rate R] (env : World) (k : Nat) (rate : R) : LeakyBucket R :=
  { rate, budget := Rate.rate env rate k, lastUpdate := env.clock (k + 1),
    sleep := ⟨env.clock (k + 2)⟩, sleeping := false }

/-- `self.rate.rate()`. -/
def readRate [Rate R] : Io (LeakyBucket R) UInt64 :=
  Polling.observe fun env k lb => Rate.rate env lb.rate k

/-- `self.sleep.poll_unpin(cx)`. -/
def pollSleep : Io (LeakyBucket R) Unit :=
  Sleep.poll.zoom (fun lb : LeakyBucket R => lb.sleep) fun lb sleep => { lb with sleep }

/-- The tokens accrued over `since` nanoseconds: the `u128` expression of `update_budget`. -/
def accrued (since : Nat) (rate : UInt64) : Nat :=
  since * rate.toNat % 2 ^ 128 / 1000000000

/-- The `u128` sum, saturating and capped at one second of tokens, cast back to `usize`. -/
def refilled (budget : UInt64) (added : Nat) (rate : UInt64) : UInt64 :=
  UInt64.ofNat (min (min (budget.toNat + added) (2 ^ 128 - 1)) rate.toNat)

/-- Add the tokens accrued since the last update; less than one token is left to accrue. Answers
with its clock reading, which the source drops. -/
def updateBudget [Rate R] : Io (LeakyBucket R) Nat := do
  let reading ← now
  let rate ← readRate
  let lb ← Polling.get
  let added := accrued (reading - lb.lastUpdate) rate
  if 0 < added then
    Polling.modify fun lb =>
      { lb with lastUpdate := reading, budget := refilled lb.budget added rate }
    return reading
  else
    return reading

/-- One turn of the loop in `poll_acquire`: the tokens on hand, or an armed sleep. -/
def acquireTurn [Rate R] (want : Nat) (rate : UInt64) : Io (LeakyBucket R) (Option Grant) := do
  let reading ← updateBudget
  let grant := min want (← Polling.get).budget.toNat
  if 0 < grant then
    return some ⟨grant, some reading⟩
  else
    let msFor1kib := max (← checkedDiv (1024 * 1000) rate.toNat) 1
    let wakeUp := min 100 msFor1kib * 1000000
    let start ← now
    Polling.modify fun lb => { lb with sleep := lb.sleep.reset (start + wakeUp), sleeping := true }
    return none

/-- The loop of `poll_acquire`: it goes round while its own sleep has already elapsed and the
runtime's budget lasts. -/
def acquireLoop [Rate R] (want : Nat) (rate : UInt64) : Nat → Io (LeakyBucket R) Grant
  | 0 => do
    match ← acquireTurn want rate with
    | some grant => return grant
    | none => Polling.pend
  | turns + 1 => do
    match ← acquireTurn want rate with
    | some grant => return grant
    | none =>
      pollSleep
      acquireLoop want rate turns

/-- Sit out a sleep that an earlier poll armed. -/
def wake : Io (LeakyBucket R) Unit := do
  if (← Polling.get).sleeping then
    pollSleep
    Polling.modify fun lb => { lb with sleeping := false }
  else
    return ()

/-- `poll_acquire` with the clock reading of its grant. -/
def acquire [Rate R] (want : Nat) : Io (LeakyBucket R) Grant := do
  wake
  if want = 0 then
    return ⟨0, none⟩
  else
    let rate ← readRate
    if rate = 0 then
      return ⟨want, none⟩
    else
      let turns ← Polling.observe fun env k _ => env.coop k
      acquireLoop want rate turns

/-- Ask for `want` tokens. -/
def pollAcquire [Rate R] (want : Nat) : Io (LeakyBucket R) Nat := do
  let grant ← acquire want
  return grant.tokens

/-- Deduct `used` tokens after actual I/O. -/
def consume (lb : LeakyBucket R) (used : Nat) : LeakyBucket R :=
  { lb with budget := UInt64.ofNat (lb.budget.toNat - used) }

end LeakyBucket

/-- Limits the bytes written per second. -/
structure ThrottledWriter (T R : Type) where
  inner : T
  lb : LeakyBucket R
  deriving DecidableEq, Repr

namespace ThrottledWriter

variable {T R α : Type}

def new [Rate R] (env : World) (k : Nat) (inner : T) (rate : R) : ThrottledWriter T R :=
  { inner, lb := LeakyBucket.new env k rate }

/-- A call on `this.inner`. -/
def onInner (m : Io T α) : Io (ThrottledWriter T R) α :=
  m.zoom (·.inner) fun s inner => { s with inner }

/-- A call on `this.lb`. -/
def onLb (m : Io (LeakyBucket R) α) : Io (ThrottledWriter T R) α :=
  m.zoom (·.lb) fun s lb => { s with lb }

/-- `this.lb.rate.is_unlimited()`. -/
def isUnlimited [Rate R] : Io (ThrottledWriter T R) Bool :=
  Polling.observe fun env k s => Rate.isUnlimited env s.lb.rate k

/-- The loop that trims the caller's buffers to the grant. -/
def limitSlices : Nat → List (List UInt8) → List (List UInt8)
  | _, [] => []
  | remaining, s :: bufs =>
    if remaining = 0 then []
    else
      let take := min s.length remaining
      s.take take :: limitSlices (remaining - take) bufs

/-- The last lines of both write paths: the inner call, and its bytes off the budget. -/
def forward [Rate R] (call : Io T Nat) : Io (ThrottledWriter T R) Nat := do
  let n ← onInner call
  onLb (Polling.modify fun lb => lb.consume n)
  return n

instance [Rate R] [AsyncWrite T] : AsyncWrite (ThrottledWriter T R) where
  pollWrite buf := do
    if ← isUnlimited then
      onInner (pollWrite buf)
    else
      let grant ← onLb (LeakyBucket.pollAcquire buf.length)
      let grant := min grant buf.length
      if grant = 0 then
        return 0 -- buf is zero
      else
        forward (pollWrite (buf.take grant))
  pollWriteVectored bufs := do
    if ← isUnlimited then
      onInner (pollWriteVectored bufs)
    else
      -- the sum is a `usize`
      let grant ← onLb (LeakyBucket.pollAcquire (bufs.flatten.length % 2 ^ 64))
      if grant = 0 then
        return 0 -- buf is zero
      else
        forward (pollWriteVectored (limitSlices grant bufs))
  pollFlush := onInner pollFlush
  pollShutdown := onInner pollShutdown

instance [AsyncRead T] : AsyncRead (ThrottledWriter T R) where
  pollRead := passRead (·.inner) fun s inner => { s with inner }

instance [AsyncBufRead T] : AsyncBufRead (ThrottledWriter T R) where
  pollFillBuf := onInner pollFillBuf
  consume amt s := { s with inner := AsyncBufRead.consume amt s.inner }

end ThrottledWriter

/-- Limits the bytes read per second by how much of the inner buffer each read consumes. -/
structure ThrottledReader (T R : Type) where
  inner : T
  lb : LeakyBucket R
  deriving DecidableEq, Repr

namespace ThrottledReader

variable {T R α : Type}

def new [Rate R] (env : World) (k : Nat) (inner : T) (rate : R) : ThrottledReader T R :=
  { inner, lb := LeakyBucket.new env k rate }

/-- A call on `this.inner`. -/
def onInner (m : Io T α) : Io (ThrottledReader T R × ReadBuf) α :=
  m.zoom (·.1.inner) fun s inner => ({ s.1 with inner }, s.2)

/-- A call on `this.lb`. -/
def onLb (m : Io (LeakyBucket R) α) : Io (ThrottledReader T R × ReadBuf) α :=
  m.zoom (·.1.lb) fun s lb => ({ s.1 with lb }, s.2)

/-- A call on the caller's buffer. -/
def onBuf (m : Io ReadBuf α) : Io (ThrottledReader T R × ReadBuf) α :=
  m.zoom (·.2) fun s buf => (s.1, buf)

/-- `this.lb.rate.is_unlimited()`. -/
def isUnlimited [Rate R] : Io (ThrottledReader T R × ReadBuf) Bool :=
  Polling.observe fun env k s => Rate.isUnlimited env s.1.lb.rate k

/-- Hand over `grant` bytes of the inner buffer and pay for them. -/
def deliver [AsyncBufRead T] (rem : List UInt8) (grant : Nat) :
    Io (ThrottledReader T R × ReadBuf) Unit := do
  onBuf (ReadBuf.putSlice (rem.take grant))
  Polling.modify fun s =>
    ({ s.1 with inner := AsyncBufRead.consume grant s.1.inner, lb := s.1.lb.consume grant }, s.2)

instance [Rate R] [AsyncBufRead T] : AsyncRead (ThrottledReader T R) where
  pollRead := do
    if ← isUnlimited then
      passRead (·.inner) fun s inner => { s with inner }
    else
      let rem ← onInner pollFillBuf -- waiting for buffer
      let grant ← onLb (LeakyBucket.pollAcquire rem.length) -- ask for capacity
      let grant := min grant (← Polling.get).2.remaining
      if grant = 0 then
        return () -- buf is 0
      else
        deliver rem grant

/-- The buffered interface goes to the inner reader untouched. -/
instance [Rate R] [AsyncBufRead T] : AsyncBufRead (ThrottledReader T R) where
  pollFillBuf := pollFillBuf.zoom (·.inner) fun s inner => { s with inner }
  consume amt s := { s with inner := AsyncBufRead.consume amt s.inner }

/-- Writes go to the inner stream untouched. -/
instance [AsyncWrite T] : AsyncWrite (ThrottledReader T R) where
  pollWrite buf := (pollWrite buf).zoom (·.inner) fun s inner => { s with inner }
  pollWriteVectored bufs := (pollWriteVectored bufs).zoom (·.inner) fun s inner => { s with inner }
  pollFlush := pollFlush.zoom (·.inner) fun s inner => { s with inner }
  pollShutdown := pollShutdown.zoom (·.inner) fun s inner => { s with inner }

end ThrottledReader

end Trixter
