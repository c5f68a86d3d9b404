import SerialPlatform.Protocol

/-!
# The control lease of one port

`ControlState` is the fenced lease which authorizes writes on one port.  The
protocol timestamps of a lease are informational; only the monotonic deadline
kept beside it authorizes expiry.  Every operation takes the clock readings
and the fresh lease id which the source reads from its environment.
-/

namespace SerialPlatform

/-- Minimum TTL a client can request, and the floor of the configured ceiling. -/
def minTtlMs : ℕ := 5000

/-- Default lease TTL ceiling. -/
def maxTtlMs : ℕ := 60000

/-- Hard ceiling for a configured control lease. -/
def maxControlTtlMs : ℕ := 24 * 60 * 60 * 1000

/-- Legacy queue bound, kept for configuration compatibility. -/
def maxWaiters : ℕ := 128

/-- Default lifetime of a pending Run-start approval. -/
def waitTimeout : ℕ := fromMillis 60000

/-- Hard ceiling for a configured Run-start approval lifetime. -/
def maxControlWaitTimeout : ℕ := fromMillis (60 * 60 * 1000)

structure ControlLimits where
  maxTtlMs : ℕ := SerialPlatform.maxTtlMs
  waitTimeout : ℕ := SerialPlatform.waitTimeout
  maxWaiters : ℕ := SerialPlatform.maxWaiters
  deriving DecidableEq

/-- Applies the runtime safety bounds to limits built by any caller. -/
def ControlLimits.bounded (limits : ControlLimits) : ControlLimits where
  maxTtlMs := max minTtlMs (min limits.maxTtlMs maxControlTtlMs)
  waitTimeout := min limits.waitTimeout maxControlWaitTimeout
  maxWaiters := limits.maxWaiters

structure ActiveLease where
  lease : ControlLease
  deadline : ℕ
  deriving DecidableEq

/-- `instantMax` is the last `Instant` the platform can represent. -/
structure ControlState where
  daemonEpoch : Uuid
  generation : ℕ
  nextFence : ℕ
  current : Option ActiveLease
  limits : ControlLimits
  instantMax : ℕ
  deriving DecidableEq

inductive AcquireOutcome where
  | granted (lease : ControlLease)
  | alreadyHeld (lease : ControlLease)
  | busy (lease : ControlLease)
  | takenOver (revoked granted : ControlLease)
  deriving DecidableEq

structure ReleaseOutcome where
  released : ControlLease
  promoted : Option ControlLease
  deriving DecidableEq

inductive ControlError where
  | notOwner
  | staleFence
  | expired
  | busy
  deriving DecidableEq

namespace ControlState

def new (daemonEpoch : Uuid) (generation : ℕ) (limits : ControlLimits)
    (instantMax : ℕ) : ControlState where
  daemonEpoch := daemonEpoch
  generation := generation
  nextFence := 1
  current := none
  limits := limits.bounded
  instantMax := instantMax

def currentLease (state : ControlState) : Option ControlLease :=
  state.current.map ActiveLease.lease

def clampTtl (state : ControlState) (ttlMs : ℕ) : ℕ :=
  min (max ttlMs minTtlMs) (max state.limits.maxTtlMs minTtlMs)

def wallExpiry (state : ControlState) (nowNs : ℤ) (ttlMs : ℕ) : ℤ :=
  satAddI64 nowNs
    (min ((min (state.clampTtl ttlMs * 1000000) u64Max : ℕ) : ℤ) i64Max)

/-- Immediate expiry is the conservative fallback where the platform cannot
represent the deadline. -/
def monotonicDeadline (instantMax now duration : ℕ) : ℕ :=
  if now + duration ≤ instantMax then now + duration else now

def monotonicExpiry (state : ControlState) (now : ℕ) (ttlMs : ℕ) : ℕ :=
  monotonicDeadline state.instantMax now (fromMillis (state.clampTtl ttlMs))

def grant (state : ControlState) (actor : Actor) (ttlMs : ℕ) (wallNowNs : ℤ)
    (monotonicNow : ℕ) (freshId : Uuid) : ControlState × ControlLease :=
  let ttlMs := state.clampTtl ttlMs
  let lease : ControlLease := {
    id := freshId
    owner := actor
    epoch := state.daemonEpoch
    generation := state.generation
    fence := state.nextFence
    issuedWallTimeNs := wallNowNs
    expiresWallTimeNs := state.wallExpiry wallNowNs ttlMs }
  ({ state with
      nextFence := satAdd u64Max state.nextFence 1
      current := some {
        lease := lease
        deadline := state.monotonicExpiry monotonicNow ttlMs } }, lease)

def acquire (state : ControlState) (actor : Actor) (mode : ControlMode) (ttlMs : ℕ)
    (wallNowNs : ℤ) (monotonicNow : ℕ) (freshId : Uuid) :
    ControlState × AcquireOutcome :=
  match state.current with
  | some current =>
      if current.lease.owner.id = actor.id then
        (state, .alreadyHeld current.lease)
      else if mode = .queue then
        (state, .busy current.lease)
      else
        let (state, granted) :=
          { state with current := none }.grant actor ttlMs wallNowNs monotonicNow freshId
        (state, .takenOver current.lease granted)
  | none =>
      let (state, granted) := state.grant actor ttlMs wallNowNs monotonicNow freshId
      (state, .granted granted)

/-- Grants a lease only while the slot is idle. -/
def grantIfIdle (state : ControlState) (actor : Actor) (ttlMs : ℕ) (wallNowNs : ℤ)
    (monotonicNow : ℕ) (freshId : Uuid) :
    ControlState × Except ControlError ControlLease :=
  if state.current.isSome then
    (state, .error .busy)
  else
    let (state, lease) := state.grant actor ttlMs wallNowNs monotonicNow freshId
    (state, .ok lease)

def validate (state : ControlState) (actorId : String) (controlId : Uuid) (fence : ℕ)
    (monotonicNow : ℕ) : Except ControlError ControlLease :=
  match state.current with
  | none => .error .notOwner
  | some current =>
      if current.lease.id ≠ controlId ∨ current.lease.fence ≠ fence ∨
          current.lease.epoch ≠ state.daemonEpoch ∨
          current.lease.generation ≠ state.generation then
        .error .staleFence
      else if current.lease.owner.id ≠ actorId then
        .error .notOwner
      else if current.deadline ≤ monotonicNow then
        .error .expired
      else
        .ok current.lease

/-- Replaces one exact, still-live lease with a lease for `actor`. -/
def transferExact (state : ControlState) (expectedOwnerId : String)
    (expectedControlId : Uuid) (expectedFence : ℕ) (actor : Actor) (ttlMs : ℕ)
    (wallNowNs : ℤ) (monotonicNow : ℕ) (freshId : Uuid) :
    ControlState × Except ControlError (ControlLease × ControlLease) :=
  match state.validate expectedOwnerId expectedControlId expectedFence monotonicNow with
  | .error error => (state, .error error)
  | .ok revoked =>
      let (state, granted) :=
        { state with current := none }.grant actor ttlMs wallNowNs monotonicNow freshId
      (state, .ok (revoked, granted))

def approvalTimeout (state : ControlState) : ℕ :=
  state.limits.waitTimeout

def renew (state : ControlState) (actorId : String) (controlId : Uuid) (fence : ℕ)
    (ttlMs : ℕ) (wallNowNs : ℤ) (monotonicNow : ℕ) :
    ControlState × Except ControlError ControlLease :=
  match state.validate actorId controlId fence monotonicNow with
  | .error error => (state, .error error)
  | .ok lease =>
      let ttlMs := state.clampTtl ttlMs
      let lease := { lease with expiresWallTimeNs := state.wallExpiry wallNowNs ttlMs }
      ({ state with
          current := some {
            lease := lease
            deadline := state.monotonicExpiry monotonicNow ttlMs } }, .ok lease)

def release (state : ControlState) (actorId : String) (controlId : Uuid) (fence : ℕ)
    (monotonicNow : ℕ) : ControlState × Except ControlError ReleaseOutcome :=
  match state.validate actorId controlId fence monotonicNow with
  | .error error => (state, .error error)
  | .ok released =>
      ({ state with current := none }, .ok { released := released, promoted := none })

/-- Monotonic time remaining on a validated lease. -/
def remainingTtl (state : ControlState) (actorId : String) (controlId : Uuid)
    (fence : ℕ) (monotonicNow : ℕ) : Except ControlError ℕ :=
  match state.validate actorId controlId fence monotonicNow, state.current with
  | .ok _, some current => .ok (current.deadline - monotonicNow)
  | .ok _, none => .error .notOwner
  | .error error, _ => .error error

/-- Monotonic time remaining on whichever lease is current. -/
def currentRemainingTtl (state : ControlState) (monotonicNow : ℕ) :
    Except ControlError ℕ :=
  match state.current with
  | none => .error .notOwner
  | some current =>
      if current.lease.epoch ≠ state.daemonEpoch ∨
          current.lease.generation ≠ state.generation then
        .error .staleFence
      else if current.deadline ≤ monotonicNow then
        .error .expired
      else
        .ok (current.deadline - monotonicNow)

def expire (state : ControlState) (monotonicNow : ℕ) :
    ControlState × Option ReleaseOutcome :=
  match state.current with
  | none => (state, none)
  | some active =>
      if monotonicNow < active.deadline then
        (state, none)
      else
        ({ state with current := none },
          some { released := active.lease, promoted := none })

def disconnect (state : ControlState) (actorId : String) :
    ControlState × Option ReleaseOutcome :=
  match state.current with
  | none => (state, none)
  | some active =>
      if active.lease.owner.id ≠ actorId then
        (state, none)
      else
        ({ state with current := none },
          some { released := active.lease, promoted := none })

def changeGeneration (state : ControlState) (generation : ℕ) :
    ControlState × Option ReleaseOutcome :=
  match state.current with
  | none => ({ state with generation := generation }, none)
  | some active =>
      ({ state with generation := generation, current := none },
        some { released := active.lease, promoted := none })

/-- Generic acquire queueing is disabled, so nothing is ever removed. -/
def cancel (_state : ControlState) (_actorId : String) : Bool := false

end ControlState
end SerialPlatform
