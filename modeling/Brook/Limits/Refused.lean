import Brook.Limits.Throttled

namespace Brook.Attempts

open Limits (BoundedLRU prune ceil)
open Transition Meter

/-! How long the tiers refuse, and whom the go-away tier refuses. -/

variable {config : LimitConfig} {limiter : AuthLimiter} {entry : IpState} {ip : Ip}
  {handle : Option Handle} {now trustedAt : ℚ} {consume : Bool} {wait : Int}
  {slow : Option HandleState}

theorem le_ceil (seconds : ℚ) : seconds ≤ (ceil seconds : ℚ) :=
  le_trans (Int.le_ceil seconds) (Int.cast_le.mpr (le_max_right _ _))

theorem lt_of_lt_ceil {seconds : ℚ} (positive : 0 < seconds) {sooner : Int}
    (less : sooner < ceil seconds) : (sooner : ℚ) < seconds := by
  have whole : ceil seconds = ⌈seconds⌉ := max_eq_right (Int.one_le_ceil_iff.mpr positive)
  rw [whole] at less
  exact Int.lt_ceil.mp less

theorem waitUntil_le {until' : ℚ} (waits : waitUntil until' now = some wait) :
    until' ≤ now + wait := by
  rw [waitUntil] at waits
  split at waits
  case isTrue =>
    cases waits
    have enough := le_ceil (until' - now)
    linarith
  case isFalse => cases waits

theorem waitUntil_none {until' : ℚ} (reached : until' ≤ now) : waitUntil until' now = none :=
  if_neg (not_lt.mpr reached)

/-! ### The go-away tier -/

theorem goAway_isSome : (goAway config entry now).isSome = true ↔
    config.goAwayPerHour < entry.recent.length := by
  rw [goAway]
  split
  case h_1 oldest rest recent =>
    rw [recent]
    split
    case isTrue more => simpa using more
    case isFalse fewer => simpa using fewer
  case h_2 none => simp [none]

theorem goAway_wait (away : goAway config entry now = some wait) :
    ∃ oldest rest, entry.recent = oldest :: rest ∧ wait = ceil (oldest + hour - now) := by
  rw [goAway] at away
  split at away
  case h_1 oldest rest recent =>
    split at away
    case isTrue =>
      cases away
      exact ⟨oldest, rest, recent, rfl⟩
    case isFalse => cases away
  case h_2 => cases away

/-- The tier refuses exactly while more failures than it allows lie within the last hour. -/
theorem check_goAway_iff {system : System} (sane : Sane config system ip)
    (after : system.now ≤ now) :
    (system.limiter.check config ip handle consume now trustedAt).1.map Prod.fst =
        some .goAway ↔
      config.goAwayPerHour <
        (timesOf ip system.recorded).countP fun time => decide (now - hour < time) := by
  obtain ⟨slow, _, answer, _⟩ :=
    @check_eq config system.limiter ip handle consume now trustedAt
  rw [answer, answer_goAway, goAway_isSome]
  have remembers := (sane.remembers.later (sub_le_sub_right after hour)).prune
  have pruned := after_dropWhile sane.remembers.kept_sorted (now - hour)
  have full := remembers.full_iff pruned
  have bounded := remembers.bounded
  rw [← Nat.succ_le_iff, ← Nat.succ_le_iff, Nat.succ_eq_add_one, ← full]
  constructor
  · exact fun more => Nat.le_antisymm bounded more
  · exact fun same => same.ge

/-! ### Tier after tier -/

theorem goAway_ends {rest : List ℚ} {oldest : ℚ} (recent : entry.recent = oldest :: rest)
    (bounded : entry.recent.length ≤ config.goAwayPerHour + 1)
    (over' : oldest + hour ≤ now) : goAway config (entry.pruned now) now = none := by
  rw [← Option.not_isSome_iff_eq_none, goAway_isSome, not_lt, IpState.pruned]
  dsimp only
  rw [recent, prune, List.dropWhile_cons, if_pos (decide_eq_true (by linarith))]
  rw [recent, List.length_cons] at bounded
  exact le_trans (List.dropWhile_sublist _).length_le (Nat.le_of_succ_le_succ bounded)

theorem goAway_stays {rest : List ℚ} {oldest : ℚ} (recent : entry.recent = oldest :: rest)
    (more : config.goAwayPerHour < entry.recent.length) (early : now < oldest + hour) :
    (goAway config (entry.pruned now) now).isSome = true := by
  rw [goAway_isSome, IpState.pruned]
  dsimp only
  have stops : ¬ decide (oldest ≤ now - hour) = true := by
    rw [decide_eq_true_eq, not_le]
    linarith
  rw [recent, prune, List.dropWhile_cons, if_neg stops, ← recent]
  exact more

theorem backoff_ends {later : IpState} (backs : backoff config entry now = some wait)
    (consecutive : later.consecutive = entry.consecutive)
    (lastFailure : later.lastFailure = entry.lastFailure) :
    backoff config later (now + wait) = none := by
  rw [backoff] at backs ⊢
  rw [consecutive, lastFailure]
  split at backs
  case isTrue many =>
    rw [if_pos many]
    exact waitUntil_none (waitUntil_le backs)
  case isFalse => cases backs

/-- Fewer failures in the window only shorten the delay. -/
theorem slowdown_ends {slow later : HandleState} (slows : slowdown config slow now = some wait)
    (fewer : later.failures.length ≤ slow.failures.length)
    (lastFailure : later.lastFailure = slow.lastFailure) :
    slowdown config later (now + wait) = none := by
  rw [slowdown] at slows ⊢
  rw [lastFailure]
  split at slows
  case isTrue =>
    split
    case isTrue =>
      refine waitUntil_none (le_trans ?_ (waitUntil_le slows))
      have exponent : (min ((later.failures.length : Int) - config.handleSlowAfter) 40).toNat ≤
          (min ((slow.failures.length : Int) - config.handleSlowAfter) 40).toNat := by
        omega
      have power : (2 : ℚ) ^ (min ((later.failures.length : Int) -
            config.handleSlowAfter) 40).toNat ≤
          2 ^ (min ((slow.failures.length : Int) - config.handleSlowAfter) 40).toNat :=
        pow_le_pow_right₀ one_le_two exponent
      exact add_le_add_right (min_le_min_right _ power) _
    case isFalse => rfl
  case isFalse => cases slows

theorem answer_bucket_wait
    (refused : (entry.answer config slow consume now).1 = some (.bucket, wait)) :
    (entry.answer config slow consume now).2.tokens = some (entry.refilled config now) ∧
      (entry.answer config slow consume now).2.refilledAt = now ∧
      wait = ceil ((1 - entry.refilled config now) / config.refillPerS) := by
  rw [IpState.answer] at refused ⊢
  split at refused
  case h_1 => cases refused
  case h_2 =>
    split at refused
    case h_1 => cases refused
    case h_2 =>
      split at refused
      case h_1 => cases refused
      case h_2 =>
        split at refused
        case isTrue consuming =>
          rw [IpState.take] at refused
          dsimp only at refused
          split at refused
          case isTrue low =>
            cases refused
            simp only [consuming, if_true, IpState.take, if_pos low, and_self]
          case isFalse => cases refused
        case isFalse => cases refused

theorem take_ends {later : IpState} {tokens : ℚ} (holds : 1 ≤ config.bucketCapacity)
    (held : later.tokens = some tokens) (refilledAt : later.refilledAt = now)
    (enough : (1 - tokens) / config.refillPerS ≤ wait) :
    (later.take config (now + wait)).1 = none := by
  have poured : 1 - tokens ≤ wait * config.refillPerS :=
    (div_le_iff₀ config.refillPerS_pos).mp enough
  have full : ¬ later.refilled config (now + wait) < 1 := by
    rw [not_lt, IpState.refilled, held, refilledAt]
    refine le_min holds ?_
    rw [add_sub_cancel_left]
    linarith
  rw [IpState.take, if_neg full]

/-! ### Until the attempt is made again -/

/-- The call is about another address, and another handle. -/
def Action.apart (ip : Ip) (handle : Option Handle) (action : Action) : Bool :=
  action.ip ≠ ip && handle.all fun name => action.handle ≠ some name

variable {system next later : System} {action : Action}

/-- The limiter has the same of the address and the handle. -/
structure Same (ip : Ip) (handle : Option Handle) (limiter next : AuthLimiter) : Prop where
  state : next.state ip = limiter.state ip
  slow : ∀ name, handle = some name → next.handles.peek name = limiter.handles.peek name

theorem Same.refl (ip : Ip) (handle : Option Handle) (limiter : AuthLimiter) :
    Same ip handle limiter limiter :=
  ⟨rfl, fun _ _ => rfl⟩

theorem Same.trans {middle last : AuthLimiter} (first : Same ip handle limiter middle)
    (second : Same ip handle middle last) : Same ip handle limiter last :=
  ⟨second.state.trans first.state,
    fun name named => (second.slow name named).trans (first.slow name named)⟩

theorem same_failure {other : Ip} {otherHandle : Option Handle}
    (roomy : Roomy limiter.ips other = true)
    (roomyHandle : ∀ name, otherHandle = some name → Roomy limiter.handles name = true)
    (different : other ≠ ip)
    (apart : ∀ name, handle = some name → otherHandle ≠ some name) :
    Same ip handle limiter (limiter.failure config other otherHandle now) := by
  refine ⟨?_, fun name named => ?_⟩
  · rw [failure_state roomy, if_neg (Ne.symm different)]
  · cases otherHandle with
    | none => rfl
    | some asked =>
        have isOther : name ≠ asked := fun same => apart name named (same ▸ rfl)
        have kept : (((limiter.handles.get .new asked).2.modify asked fun _ =>
            { failures := append 512 (limiter.handles.get .new asked).1.failures now
              lastFailure := now }).peek name) = limiter.handles.peek name := by
          rw [BoundedLRU.peek_modify, if_neg isOther, peek_get (roomyHandle asked rfl),
            if_neg isOther]
        exact kept

theorem same_step (keeps : action.keeps system = true)
    (apart : action.apart ip handle = true) (stepped : step config system action = some next) :
    Same ip handle system.limiter next.limiter := by
  rw [Action.apart, Bool.and_eq_true_iff, decide_eq_true_eq, Option.all_eq_true] at apart
  obtain ⟨different, elsewhere⟩ := apart
  have elsewhere : ∀ name, handle = some name → action.handle ≠ some name :=
    fun name named => of_decide_eq_true (elsewhere name named)
  have roomy := Action.keeps_ip keeps
  have roomyHandle : ∀ name, action.handle = some name →
      Roomy system.limiter.handles name = true := by
    intro name named
    have both := (Option.all_eq_true _ _).mp (Bool.and_eq_true_iff.mp keeps).2 name named
    exact (Bool.and_eq_true_iff.mp both).1
  cases action with
  | check other otherHandle consume now trustedAt =>
      rw [step] at stepped
      split at stepped
      case isTrue =>
        cases stepped
        obtain ⟨slow, slows, _, _⟩ :=
          @check_eq config system.limiter other otherHandle consume now trustedAt
        obtain ⟨_, _, states⟩ :=
          @check_state config system.limiter other roomy otherHandle consume now trustedAt
        exact ⟨(states ip).trans (if_neg (Ne.symm different)),
          fun name named => slows.others name (elsewhere name named)⟩
      case isFalse => cases stepped
  | failure other otherHandle now =>
      rw [step] at stepped
      split at stepped
      case isTrue =>
        cases stepped
        exact same_failure roomy roomyHandle different elsewhere
      case isFalse => cases stepped
  | success other otherHandle now =>
      rw [step] at stepped
      split at stepped
      case isTrue =>
        cases stepped
        refine ⟨?_, fun name named => ?_⟩
        · exact (@success_state config _ other roomy otherHandle now ip).trans
            (if_neg (Ne.symm different))
        · cases otherHandle <;> rfl
      case isFalse => cases stepped

theorem same_run {actions : List Action} (reached : run (step config) next actions = some later)
    (apart : Along (step config) (fun system action =>
      action.keeps system = true ∧ action.apart ip handle = true) next actions) :
    Same ip handle next.limiter later.limiter :=
  @run_invariant _ _ (step config) _ (fun system => Same ip handle next.limiter system.limiter)
    (fun same guard stepped => same.trans (same_step guard.1 guard.2 stepped)) _ _ _
    (.refl ip handle next.limiter) apart reached

/-- The same attempt after the wait: the tier that refused it does not. -/
theorem not_refused_again {tier : Tier} {consume' : Bool} {trustedAt' : ℚ}
    (holds : 1 ≤ config.bucketCapacity) (sane : Sane config system ip)
    (roomy : Roomy system.limiter.ips ip = true)
    (refused : (system.limiter.check config ip handle consume now trustedAt).1 =
      some (tier, wait))
    (same : Same ip handle (system.limiter.check config ip handle consume now trustedAt).2
      limiter) :
    (limiter.check config ip handle consume' (now + wait) trustedAt').1.map Prod.fst ≠
      some tier := by
  obtain ⟨slow, slows, answer, ips⟩ :=
    @check_eq config system.limiter ip handle consume now trustedAt
  obtain ⟨slow', slows', answer', _⟩ :=
    @check_eq config limiter ip handle consume' (now + wait) trustedAt'
  have stored : limiter.state ip =
      (((system.limiter.state ip).pruned now).answer config slow consume now).2 := by
    rw [same.state, AuthLimiter.state, ips, state_modify roomy, if_pos rfl]
  have kept := @answer_keeps config ((system.limiter.state ip).pruned now) now consume slow
  rw [answer] at refused
  rw [answer']
  intro again
  obtain ⟨⟨tier', wait'⟩, refused', isTier⟩ := Option.map_eq_some_iff.mp again
  have isTier : tier' = tier := isTier
  subst isTier
  have waits := answer_wait refused
  have waits' := answer_wait refused'
  cases tier' with
  | goAway =>
      obtain ⟨oldest, rest, recent, isWait⟩ := goAway_wait waits
      have enough := le_ceil (oldest + hour - now)
      have bounded : ((system.limiter.state ip).pruned now).recent.length ≤
          config.goAwayPerHour + 1 :=
        le_trans (List.dropWhile_sublist _).length_le sane.remembers.bounded
      have ends : goAway config ((limiter.state ip).pruned (now + wait)) (now + wait) = none := by
        have left : (limiter.state ip).recent = oldest :: rest := by rw [stored, kept.1, recent]
        refine goAway_ends left ?_ ?_
        · rw [stored, kept.1]
          exact bounded
        · rw [isWait]
          linarith
      rw [tierWait, ends] at waits'
      cases waits'
  | backoff =>
      have ends : backoff config ((limiter.state ip).pruned (now + wait)) (now + wait) = none := by
        refine backoff_ends waits ?_ ?_
        · rw [IpState.pruned, stored]
          exact kept.2.1
        · rw [IpState.pruned, stored]
          exact kept.2.2
      rw [tierWait, ends] at waits'
      cases waits'
  | handle =>
      obtain ⟨hs, isSlow, slowed⟩ := Option.bind_eq_some_iff.mp waits
      obtain ⟨hs', isSlow', slowed'⟩ := Option.bind_eq_some_iff.mp waits'
      obtain ⟨name, old, named, held, pruned⟩ := slows'.stored hs' isSlow'
      have left := slows.kept hs isSlow name named
      rw [same.slow name named, left] at held
      cases held
      have ends : slowdown config hs' (now + wait) = none := by
        rw [pruned]
        exact slowdown_ends slowed (List.dropWhile_sublist _).length_le rfl
      rw [ends] at slowed'
      cases slowed'
  | bucket =>
      obtain ⟨tokens, refilledAt, isWait⟩ := answer_bucket_wait refused
      have ends : (((limiter.state ip).pruned (now + wait)).take config (now + wait)).1 = none := by
        have held : ((limiter.state ip).pruned (now + wait)).tokens =
            some (((system.limiter.state ip).pruned now).refilled config now) := by
          rw [IpState.pruned, stored]
          exact tokens
        refine take_ends holds held ?_ ?_
        · rw [IpState.pruned, stored]
          exact refilledAt
        · rw [isWait]
          exact le_ceil _
      rw [tierWait, ends] at waits'
      cases waits'

/-- Sooner than that, the go-away tier refuses the attempt again. -/
theorem refused_sooner {consume' : Bool} {trustedAt' : ℚ} {sooner : Int}
    (sane : Sane config system ip) (roomy : Roomy system.limiter.ips ip = true)
    (refused : (system.limiter.check config ip handle consume now trustedAt).1 =
      some (.goAway, wait))
    (same : Same ip handle (system.limiter.check config ip handle consume now trustedAt).2
      limiter)
    (less : sooner < wait) :
    (limiter.check config ip handle consume' (now + sooner) trustedAt').1.map Prod.fst =
      some .goAway := by
  obtain ⟨slow, _, answer, ips⟩ :=
    @check_eq config system.limiter ip handle consume now trustedAt
  obtain ⟨slow', _, answer', _⟩ :=
    @check_eq config limiter ip handle consume' (now + sooner) trustedAt'
  have stored : limiter.state ip =
      (((system.limiter.state ip).pruned now).answer config slow consume now).2 := by
    rw [same.state, AuthLimiter.state, ips, state_modify roomy, if_pos rfl]
  have kept := @answer_keeps config ((system.limiter.state ip).pruned now) now consume slow
  rw [answer] at refused
  have waits : goAway config ((system.limiter.state ip).pruned now) now = some wait :=
    answer_wait refused
  obtain ⟨oldest, rest, recent, isWait⟩ := goAway_wait waits
  have more : config.goAwayPerHour < ((system.limiter.state ip).pruned now).recent.length :=
    goAway_isSome.mp (by rw [waits]; rfl)
  have fresh : now - hour < oldest := by
    refine after_dropWhile sane.remembers.kept_sorted (now - hour) oldest ?_
    rw [show ((system.limiter.state ip).recent.dropWhile fun time =>
      decide (time ≤ now - hour)) = oldest :: rest from recent]
    exact List.mem_cons_self
  have before : (sooner : ℚ) < oldest + hour - now :=
    lt_of_lt_ceil (by linarith) (isWait ▸ less)
  rw [answer', answer_goAway]
  have later : (limiter.state ip).recent = oldest :: rest := by rw [stored, kept.1, recent]
  refine goAway_stays later ?_ ?_
  · rw [stored, kept.1]
    exact more
  · linarith

/-- The calls after an attempt: nothing is evicted, and none is about its address or handle. -/
def Between (config : LimitConfig) (ip : Ip) (handle : Option Handle) (system : System)
    (actions : List Action) : Prop :=
  Along (step config) (fun system action =>
    action.keeps system = true ∧ action.apart ip handle = true) system actions

/-- What the limiter promises from here on. -/
structure Throttles (config : LimitConfig) (system : System) : Prop where
  /-- In a stretch of time. -/
  paced : ∀ ip start span, 0 ≤ span →
    ((timesOf ip system.passed).countP (fun time =>
      decide (start ≤ time) && decide (time ≤ start + span)) : ℚ) ≤
        config.bucketCapacity + span * config.refillPerS
  goneAway : ∀ ip handle consume now trustedAt, system.now ≤ now →
    ((system.limiter.check config ip handle consume now trustedAt).1.map Prod.fst =
        some .goAway ↔
      config.goAwayPerHour <
        (timesOf ip system.recorded).countP fun time => decide (now - hour < time))
  enough : ∀ ip handle consume now trustedAt next tier wait,
    (Action.check ip handle consume now trustedAt).keeps system = true →
    step config system (.check ip handle consume now trustedAt) = some next →
    (system.limiter.check config ip handle consume now trustedAt).1 = some (tier, wait) →
    ∀ actions later, run (step config) next actions = some later →
      Between config ip handle next actions → ∀ consume' trustedAt',
        (later.limiter.check config ip handle consume' (now + wait) trustedAt').1.map Prod.fst ≠
          some tier
  least : ∀ ip handle consume now trustedAt next wait,
    (Action.check ip handle consume now trustedAt).keeps system = true →
    step config system (.check ip handle consume now trustedAt) = some next →
    (system.limiter.check config ip handle consume now trustedAt).1 = some (.goAway, wait) →
    ∀ actions later, run (step config) next actions = some later →
      Between config ip handle next actions → ∀ sooner : Int, 1 ≤ sooner → sooner < wait →
        ∀ consume' trustedAt',
          (later.limiter.check config ip handle consume' (now + sooner) trustedAt').1.map
            Prod.fst = some .goAway

theorem limiter_of_check {ip : Ip} {next : System}
    (stepped : step config system (.check ip handle consume now trustedAt) = some next) :
    next.limiter = (system.limiter.check config ip handle consume now trustedAt).2 := by
  rw [step] at stepped
  split at stepped
  case isTrue =>
    cases stepped
    rfl
  case isFalse => cases stepped

theorem throttles_of_sane (holds : 1 ≤ config.bucketCapacity)
    (sane : ∀ ip, Sane config system ip) : Throttles config system where
  paced ip start span long := by
    have positive : (0 : ℚ) ≤ config.bucketCapacity := le_trans zero_le_one holds
    have filled := (sane ip).filled
    rw [Filled] at filled
    split at filled
    case h_1 =>
      rw [filled]
      have gained := mul_nonneg long config.refillPerS_pos.le
      simp only [List.countP_nil, Nat.cast_zero]
      linarith
    case h_2 =>
      exact filled.1.metered.count_le positive config.refillPerS_pos.le start long
  goneAway ip handle consume now trustedAt after := check_goAway_iff (sane ip) after
  enough ip handle consume now trustedAt next tier wait keeps stepped refused actions later
      reached between consume' trustedAt' := by
    have same := same_run reached between
    rw [limiter_of_check stepped] at same
    exact not_refused_again holds (sane ip) (Action.keeps_ip keeps) refused same
  least ip handle consume now trustedAt next wait keeps stepped refused actions later
      reached between sooner _ less consume' trustedAt' := by
    have same := same_run reached between
    rw [limiter_of_check stepped] at same
    exact refused_sooner (sane ip) (Action.keeps_ip keeps) refused same less

/-- A burst of attempts that all fail: the next one is too soon for the bucket. -/
def guessing : List Action :=
  (List.replicate 4 [.check "a" none true 0 0, .failure "a" none 0]).flatten ++
    List.replicate 6 (.check "a" none true 1 1)

/-- A bucket that never holds an attempt. -/
def halfConfig : LimitConfig where
  bucketCapacity := 1 / 2
  refillPerS_pos := defaultConfig.refillPerS_pos

end Brook.Attempts
