import Brook.Limits.Codes

namespace Brook.Attempts

open Limits (BoundedLRU prune ceil)

/-! The auth limiter's tiers for every credential check: `check` before it, `failure` or
`success` after. -/

abbrev Ip := String

abbrev Handle := String

def hour : ℚ := 3600

structure IpState where
  /-- `none`: not used yet. -/
  tokens : Option ℚ
  refilledAt : ℚ
  /-- Failures since the last success. -/
  consecutive : Nat
  lastFailure : ℚ
  /-- The oldest first. -/
  recent : List ℚ
  tier : Nat

structure HandleState where
  failures : List ℚ
  lastFailure : ℚ

def IpState.new : IpState := ⟨none, 0, 0, 0, [], 0⟩

def HandleState.new : HandleState := ⟨[], 0⟩

/-- The tunables.  A refused attempt is told when the bucket has refilled, so it refills. -/
structure LimitConfig where
  maxKeys : Nat := 10000
  bucketCapacity : ℚ := 10
  refillPerS : ℚ := 10 / 60
  backoffAfter : Int := 5
  maxBackoffS : ℚ := 3600
  goAwayPerHour : Nat := 50
  handleWindowS : ℚ := 15 * 60
  handleSlowAfter : Int := 10
  handleMaxDelayS : ℚ := 60
  trustedIpsPerHandle : Nat := 8
  trustTtlS : ℚ := 30 * 24 * 3600
  refillPerS_pos : 0 < refillPerS

def defaultConfig : LimitConfig where
  refillPerS_pos := by norm_num

structure AuthLimiter where
  ips : BoundedLRU Ip IpState
  handles : BoundedLRU Handle HandleState
  /-- When an address last signed in to the handle; the last first. -/
  trusted : BoundedLRU Handle (Table Ip ℚ)

/-- The tier that refuses an attempt. -/
inductive Tier
  | goAway
  | backoff
  | handle
  | bucket
deriving DecidableEq

/-- A `deque` with a bounded length. -/
def append (maxlen : Nat) (times : List ℚ) (time : ℚ) : List ℚ :=
  (times ++ [time]).drop (times.length + 1 - maxlen)

/-- `_escalate` -/
def IpState.escalate (state : IpState) (tier : Nat) : IpState :=
  { state with tier := max state.tier tier }

/-- What is left to wait until a time that lies ahead. -/
def waitUntil (until' now : ℚ) : Option Int :=
  if now < until' then some (ceil (until' - now)) else none

variable (config : LimitConfig)

def goAway (state : IpState) (now : ℚ) : Option Int :=
  match state.recent with
  | oldest :: rest =>
      if config.goAwayPerHour < (oldest :: rest).length then some (ceil (oldest + hour - now))
      else none
  | [] => none

def backoff (state : IpState) (now : ℚ) : Option Int :=
  if config.backoffAfter ≤ state.consecutive then
    let exponent := min (state.consecutive - config.backoffAfter) 40
    waitUntil (state.lastFailure + min (2 ^ exponent.toNat) config.maxBackoffS) now
  else none

def slowdown (state : HandleState) (now : ℚ) : Option Int :=
  let more := state.failures.length - config.handleSlowAfter
  if 0 ≤ more then
    waitUntil (state.lastFailure + min (2 ^ (min more 40).toNat) config.handleMaxDelayS) now
  else none

/-- The bucket, refilled. -/
def IpState.refilled (state : IpState) (now : ℚ) : ℚ :=
  match state.tokens with
  | none => config.bucketCapacity
  | some tokens =>
      min config.bucketCapacity (tokens + (now - state.refilledAt) * config.refillPerS)

/-- Pace an attempt: what it has to wait, and the bucket after it. -/
def IpState.take (state : IpState) (now : ℚ) : Option Int × IpState :=
  let tokens := state.refilled config now
  if tokens < 1 then
    (some (ceil ((1 - tokens) / config.refillPerS)),
      { state with
        tokens := some tokens
        refilledAt := now })
  else
    (none,
      { state with
        tokens := some (tokens - 1)
        refilledAt := now })

/-- The tiers, one after the other: what refuses the attempt, and the entry of the address after
it.  `slow` is the entry of the handle, where it slows this address. -/
def IpState.answer (state : IpState) (slow : Option HandleState) (consume : Bool) (now : ℚ) :
    Option (Tier × Int) × IpState :=
  match goAway config state now with
  | some wait => (some (.goAway, wait), state.escalate 2)
  | none =>
      match backoff config state now with
      | some wait => (some (.backoff, wait), state.escalate 1)
      | none =>
          match slow.bind fun slow => slowdown config slow now with
          | some wait => (some (.handle, wait), state)
          | none =>
              if consume then ((state.take config now).1.map (.bucket, ·), (state.take config now).2)
              else (none, state)

namespace AuthLimiter

def start : AuthLimiter := ⟨⟨config.maxKeys, ∅⟩, ⟨config.maxKeys, ∅⟩, ⟨config.maxKeys, ∅⟩⟩

/-- `_is_trusted` -/
def isTrusted (limiter : AuthLimiter) (handle : Handle) (ip : Ip) (now : ℚ) : Bool :=
  ((limiter.trusted.peek handle).bind (·.get? ip)).any fun since =>
    now - since ≤ config.trustTtlS

/-- The entry of the handle, where it may slow this address, pruned.  The clock is read once more
for the trust of the address. -/
def slowing (limiter : AuthLimiter) (ip : Ip) (handle : Option Handle) (now trustedAt : ℚ) :
    Option (Handle × HandleState) :=
  handle.bind fun handle =>
    if limiter.isTrusted config handle ip trustedAt then none
    else
      (limiter.handles.peek handle).map fun state =>
        (handle, { state with failures := prune state.failures (now - config.handleWindowS) })

/-- `check`: the tier that refuses the attempt and the seconds to wait. -/
def check (limiter : AuthLimiter) (ip : Ip) (handle : Option Handle) (consume : Bool)
    (now trustedAt : ℚ) : Option (Tier × Int) × AuthLimiter :=
  let (entry, ips) := limiter.ips.get .new ip
  let state := { entry with recent := prune entry.recent (now - hour) }
  -- The handle is looked at only where the address itself is not refused.
  let slowing :=
    if (goAway config state now).isSome ∨ (backoff config state now).isSome then none
    else limiter.slowing config ip handle now trustedAt
  let (refused, state) := state.answer config (slowing.map Prod.snd) consume now
  (refused,
    { limiter with
      ips := ips.modify ip fun _ => state
      handles := match slowing with
        | some (handle, slow) => limiter.handles.modify handle fun _ => slow
        | none => limiter.handles })

def failure (limiter : AuthLimiter) (ip : Ip) (handle : Option Handle) (now : ℚ) :
    AuthLimiter :=
  let (state, ips) := limiter.ips.get .new ip
  let limiter := { limiter with
    ips := ips.modify ip fun _ =>
      { state with
        consecutive := state.consecutive + 1
        lastFailure := now
        recent := append (config.goAwayPerHour + 1) state.recent now } }
  match handle with
  | none => limiter
  | some handle =>
      let (state, handles) := limiter.handles.get .new handle
      { limiter with
        handles := handles.modify handle fun _ =>
          { failures := append 512 state.failures now
            lastFailure := now } }

def success (limiter : AuthLimiter) (ip : Ip) (handle : Option Handle) (now : ℚ) :
    AuthLimiter :=
  let (state, ips) := limiter.ips.get .new ip
  let limiter := { limiter with
    ips := ips.modify ip fun _ =>
      { state with
        consecutive := 0
        tier := 0 } }
  match handle with
  | none => limiter
  | some handle =>
      let (since, trusted) := limiter.trusted.get ∅ handle
      { limiter with
        trusted := trusted.modify handle fun _ =>
          { rows := (since.put ip now).rows.take config.trustedIpsPerHandle
            keysNodup := ((List.take_sublist _ _).map Prod.fst).nodup
              (since.put ip now).keysNodup } }

end AuthLimiter

inductive Action
  | check (ip : Ip) (handle : Option Handle) (consume : Bool) (now trustedAt : ℚ)
  | failure (ip : Ip) (handle : Option Handle) (now : ℚ)
  | success (ip : Ip) (handle : Option Handle) (now : ℚ)

def Action.ip : Action → Ip
  | .check ip _ _ _ _ | .failure ip _ _ | .success ip _ _ => ip

def Action.handle : Action → Option Handle
  | .check _ handle _ _ _ | .failure _ handle _ | .success _ handle _ => handle

/-- The limiter, with what it has been asked. -/
structure System where
  limiter : AuthLimiter
  /-- The last reading of the clock. -/
  now : ℚ
  /-- Every failure, the oldest first. -/
  recorded : List (Ip × ℚ)
  /-- Every attempt that took a token and was let through, the last first. -/
  passed : List (Ip × ℚ)

def System.start (now : ℚ) : System := ⟨.start config, now, [], []⟩

def step (system : System) : Action → Option System
  | .check ip handle consume now trustedAt =>
      if system.now ≤ now ∧ now ≤ trustedAt then
        let (refused, limiter) := system.limiter.check config ip handle consume now trustedAt
        some { system with
          limiter
          now := trustedAt
          passed :=
            if consume ∧ refused = none then (ip, now) :: system.passed else system.passed }
      else none
  | .failure ip handle now =>
      if system.now ≤ now then
        some { system with
          limiter := system.limiter.failure config ip handle now
          now
          recorded := system.recorded ++ [(ip, now)] }
      else none
  | .success ip handle now =>
      if system.now ≤ now then
        some { system with
          limiter := system.limiter.success config ip handle now
          now }
      else none

/-- The times of an address. -/
def timesOf (ip : Ip) (entries : List (Ip × ℚ)) : List ℚ :=
  entries.filterMap fun entry => if entry.1 = ip then some entry.2 else none

/-- An entry that is asked for is there, or there is room for it. -/
def Roomy {Value : Type} (lru : BoundedLRU String Value) (key : String) : Bool :=
  lru.data.contains key || lru.data.rows.length < lru.max

/-- Nothing is evicted. -/
def Action.keeps (system : System) (action : Action) : Bool :=
  Roomy system.limiter.ips action.ip &&
    action.handle.all fun handle =>
      Roomy system.limiter.handles handle && Roomy system.limiter.trusted handle

end Brook.Attempts
