import Brook.Limits.Attempts
import Brook.Limits.Meter

namespace Brook.Attempts

open Limits (BoundedLRU prune ceil)
open Transition

/-! What the tiers let through, and how long they refuse. -/

variable {config : LimitConfig} {limiter : AuthLimiter} {entry : IpState} {ip other : Ip}
  {handle : Option Handle} {now : ℚ}

/-! ### The entries -/

/-- The entry of an address, as it is or will be made. -/
def AuthLimiter.state (limiter : AuthLimiter) (ip : Ip) : IpState :=
  (limiter.ips.peek ip).getD .new

theorem peek_get {Value : Type} {lru : BoundedLRU String Value} {key : String}
    (roomy : Roomy lru key = true) (factory : Value) (other : String) :
    (lru.get factory key).2.peek other =
      if other = key then some ((lru.peek key).getD factory) else lru.peek other := by
  unfold BoundedLRU.get
  split
  case h_1 value held =>
    rw [BoundedLRU.peek, Table.get?_put]
    split
    · rw [held, Option.getD_some]
    · rfl
  case h_2 missing =>
    have room : (lru.data.put key factory).rows.length ≤ lru.max := by
      have absent : lru.data.contains key = false := by
        rw [Table.contains, show lru.data.get? key = none from missing]
        rfl
      rw [Roomy, absent, Bool.false_or, decide_eq_true_eq] at roomy
      refine le_trans ?_ (Nat.succ_le_of_lt roomy)
      rw [Table.put, List.length_cons]
      exact Nat.succ_le_succ (List.length_filter_le _ _)
    have whole : (lru.data.put key factory).rows.take lru.max =
        (lru.data.put key factory).rows := List.take_of_length_le room
    have looked : (lru.data.put key factory).get? other =
        if other = key then some ((lru.peek key).getD factory) else lru.peek other := by
      rw [Table.get?_put, missing]
      rfl
    rw [← looked, BoundedLRU.peek, Table.get?, Table.get?]
    simp only [whole]

theorem get_state (limiter : AuthLimiter) (ip : Ip) :
    (limiter.ips.get .new ip).1 = limiter.state ip :=
  BoundedLRU.get_fst _

/-- The entry of the address as `check` looks at it. -/
def IpState.pruned (state : IpState) (now : ℚ) : IpState :=
  { state with recent := prune state.recent (now - hour) }

variable {consume : Bool} {trustedAt : ℚ}

theorem state_modify (roomy : Roomy limiter.ips ip = true) (entry : IpState) (other : Ip) :
    ((((limiter.ips.get .new ip).2.modify ip fun _ => entry).peek other).getD .new) =
      if other = ip then entry else limiter.state other := by
  rw [BoundedLRU.peek_modify, peek_get roomy]
  split
  · rfl
  · rfl

/-- The entry of the handle that a check looks at is stored, and is stored pruned. -/
structure Slows (config : LimitConfig) (limiter next : AuthLimiter) (handle : Option Handle)
    (now : ℚ) (slow : Option HandleState) : Prop where
  stored : ∀ hs, slow = some hs → ∃ name old, handle = some name ∧
    limiter.handles.peek name = some old ∧
    hs = { old with failures := prune old.failures (now - config.handleWindowS) }
  kept : ∀ hs, slow = some hs → ∀ name, handle = some name → next.handles.peek name = some hs
  others : ∀ name, handle ≠ some name → next.handles.peek name = limiter.handles.peek name

/-- What `check` does, with the entry of the handle that it looks at. -/
theorem check_parts (limiter : AuthLimiter) (ip : Ip) (handle : Option Handle) (consume : Bool)
    (now trustedAt : ℚ) : ∃ looked : Option (Handle × HandleState),
      (∀ found, looked = some found →
        limiter.slowing config ip handle now trustedAt = some found) ∧
      (limiter.check config ip handle consume now trustedAt).1 =
        (((limiter.state ip).pruned now).answer config (looked.map Prod.snd) consume now).1 ∧
      (limiter.check config ip handle consume now trustedAt).2.ips =
        (limiter.ips.get .new ip).2.modify ip (fun _ =>
          (((limiter.state ip).pruned now).answer config (looked.map Prod.snd) consume now).2) ∧
      (limiter.check config ip handle consume now trustedAt).2.handles =
        match looked with
        | some (name, slow) => limiter.handles.modify name fun _ => slow
        | none => limiter.handles := by
  rw [← get_state]
  exact ⟨_, fun found same => (Option.ite_none_left_eq_some.mp same).2, rfl, rfl, rfl⟩

theorem slowing_spec {name : Handle} {slow : HandleState}
    (found : limiter.slowing config ip handle now trustedAt = some (name, slow)) :
    handle = some name ∧ ∃ old, limiter.handles.peek name = some old ∧
      slow = { old with failures := prune old.failures (now - config.handleWindowS) } := by
  obtain ⟨asked, isHandle, looked⟩ := Option.bind_eq_some_iff.mp found
  split at looked
  case isTrue => cases looked
  case isFalse =>
    obtain ⟨old, stored, same⟩ := Option.map_eq_some_iff.mp looked
    cases same
    exact ⟨isHandle, old, stored, rfl⟩

/-- `check` answers from the pruned entry of the address, and writes it. -/
theorem check_eq (limiter : AuthLimiter) (ip : Ip) (handle : Option Handle) (consume : Bool)
    (now trustedAt : ℚ) : ∃ slow : Option HandleState,
      Slows config limiter (limiter.check config ip handle consume now trustedAt).2 handle now
        slow ∧
      (limiter.check config ip handle consume now trustedAt).1 =
        (((limiter.state ip).pruned now).answer config slow consume now).1 ∧
      (limiter.check config ip handle consume now trustedAt).2.ips =
        (limiter.ips.get .new ip).2.modify ip fun _ =>
          (((limiter.state ip).pruned now).answer config slow consume now).2 := by
  obtain ⟨looked, isSlowing, answer, ips, handles⟩ :=
    @check_parts config limiter ip handle consume now trustedAt
  refine ⟨looked.map Prod.snd, ?_, answer, ips⟩
  cases looked with
  | none =>
      exact ⟨fun hs none => (by cases none), fun hs none => (by cases none),
        fun name _ => by rw [handles]⟩
  | some found =>
      obtain ⟨name, slow⟩ := found
      obtain ⟨isHandle, old, stored, pruned⟩ := slowing_spec (isSlowing _ rfl)
      refine ⟨fun hs same => ?_, fun hs same other isOther => ?_, fun other isOther => ?_⟩
      · cases same
        exact ⟨name, old, isHandle, stored, pruned⟩
      · cases same
        cases isHandle.symm.trans isOther
        rw [handles, BoundedLRU.peek_modify, if_pos rfl, stored]
        rfl
      · rw [handles, BoundedLRU.peek_modify, if_neg]
        rintro rfl
        exact isOther isHandle

/-! ### What an answer leaves of the entry -/

/-- What each tier makes the attempt wait. -/
def tierWait (config : LimitConfig) (entry : IpState) (slow : Option HandleState) (now : ℚ) :
    Tier → Option Int
  | .goAway => goAway config entry now
  | .backoff => backoff config entry now
  | .handle => slow.bind fun slow => slowdown config slow now
  | .bucket => (entry.take config now).1

theorem answer_wait {slow : Option HandleState} {tier : Tier} {wait : Int}
    (refused : (entry.answer config slow consume now).1 = some (tier, wait)) :
    tierWait config entry slow now tier = some wait := by
  rw [IpState.answer] at refused
  split at refused
  case h_1 away =>
    cases refused
    exact away
  case h_2 =>
    split at refused
    case h_1 backs =>
      cases refused
      exact backs
    case h_2 =>
      split at refused
      case h_1 slows =>
        cases refused
        exact slows
      case h_2 =>
        split at refused
        case isTrue =>
          obtain ⟨left, taken, same⟩ := Option.map_eq_some_iff.mp refused
          cases same
          exact taken
        case isFalse => cases refused

theorem answer_goAway {slow : Option HandleState} :
    (entry.answer config slow consume now).1.map Prod.fst = some .goAway ↔
      (goAway config entry now).isSome = true := by
  constructor
  · intro refused
    obtain ⟨⟨tier, wait⟩, answer, same⟩ := Option.map_eq_some_iff.mp refused
    cases same
    rw [show goAway config entry now = some wait from answer_wait answer]
    rfl
  · intro away
    obtain ⟨wait, away⟩ := Option.isSome_iff_exists.mp away
    rw [IpState.answer, away]
    rfl

theorem answer_keeps (slow : Option HandleState) :
    (entry.answer config slow consume now).2.recent = entry.recent ∧
      (entry.answer config slow consume now).2.consecutive = entry.consecutive ∧
      (entry.answer config slow consume now).2.lastFailure = entry.lastFailure := by
  rw [IpState.answer]
  split
  case h_1 => exact ⟨rfl, rfl, rfl⟩
  case h_2 =>
    split
    case h_1 => exact ⟨rfl, rfl, rfl⟩
    case h_2 =>
      split
      case h_1 => exact ⟨rfl, rfl, rfl⟩
      case h_2 =>
        split
        case isTrue =>
          rw [IpState.take]
          dsimp only
          split
          · exact ⟨rfl, rfl, rfl⟩
          · exact ⟨rfl, rfl, rfl⟩
        case isFalse => exact ⟨rfl, rfl, rfl⟩

/-- The bucket of the entry is not looked at, refilled, or refilled and taken from. -/
theorem answer_bucket (slow : Option HandleState) :
    ((entry.answer config slow consume now).2.tokens = entry.tokens ∧
        (entry.answer config slow consume now).2.refilledAt = entry.refilledAt ∧
        ¬ (consume = true ∧ (entry.answer config slow consume now).1 = none)) ∨
      (entry.answer config slow consume now).2.refilledAt = now ∧
        ((entry.refilled config now < 1 ∧
            (entry.answer config slow consume now).2.tokens = some (entry.refilled config now) ∧
            (entry.answer config slow consume now).1 ≠ none) ∨
          1 ≤ entry.refilled config now ∧
            (entry.answer config slow consume now).2.tokens =
              some (entry.refilled config now - 1) ∧
            consume = true ∧ (entry.answer config slow consume now).1 = none) := by
  rw [IpState.answer]
  split
  case h_1 => exact Or.inl ⟨rfl, rfl, by simp⟩
  case h_2 =>
    split
    case h_1 => exact Or.inl ⟨rfl, rfl, by simp⟩
    case h_2 =>
      split
      case h_1 => exact Or.inl ⟨rfl, rfl, by simp⟩
      case h_2 =>
        split
        case isTrue consuming =>
          right
          rw [IpState.take]
          dsimp only
          split
          case isTrue low => exact ⟨rfl, Or.inl ⟨low, rfl, by simp⟩⟩
          case isFalse enough => exact ⟨rfl, Or.inr ⟨not_lt.mp enough, rfl, consuming, rfl⟩⟩
        case isFalse idle => exact Or.inl ⟨rfl, rfl, fun both => idle both.1⟩

/-! ### What the limiter knows of an address -/

theorem check_state (roomy : Roomy limiter.ips ip = true) (handle : Option Handle)
    (consume : Bool) (now trustedAt : ℚ) : ∃ slow : Option HandleState,
      (limiter.check config ip handle consume now trustedAt).1 =
        (((limiter.state ip).pruned now).answer config slow consume now).1 ∧
      ∀ other, (limiter.check config ip handle consume now trustedAt).2.state other =
        if other = ip then (((limiter.state ip).pruned now).answer config slow consume now).2
        else limiter.state other := by
  obtain ⟨slow, -, answer, ips⟩ := @check_eq config limiter ip handle consume now trustedAt
  refine ⟨slow, answer, fun other => ?_⟩
  rw [AuthLimiter.state, ips]
  exact state_modify roomy _ other

theorem failure_state (roomy : Roomy limiter.ips ip = true) (handle : Option Handle) (now : ℚ)
    (other : Ip) : (limiter.failure config ip handle now).state other =
      if other = ip then
        { limiter.state ip with
          consecutive := (limiter.state ip).consecutive + 1
          lastFailure := now
          recent := append (config.goAwayPerHour + 1) (limiter.state ip).recent now }
      else limiter.state other := by
  rw [← get_state limiter ip]
  cases handle <;> exact state_modify roomy _ other

theorem success_state (roomy : Roomy limiter.ips ip = true) (handle : Option Handle) (now : ℚ)
    (other : Ip) : (limiter.success config ip handle now).state other =
      if other = ip then
        { limiter.state ip with
          consecutive := 0
          tier := 0 }
      else limiter.state other := by
  rw [← get_state limiter ip]
  cases handle <;> exact state_modify roomy _ other

open Meter

/-- The bucket of the entry holds what the attempts that passed have left in it. -/
def Filled (config : LimitConfig) (now : ℚ) (entry : IpState) (passed : List ℚ) : Prop :=
  match entry.tokens with
  | none => passed = []
  | some tokens =>
      Level config.bucketCapacity config.refillPerS tokens entry.refilledAt passed ∧
        entry.refilledAt ≤ now

structure Sane (config : LimitConfig) (system : System) (ip : Ip) : Prop where
  remembers : Remembers (config.goAwayPerHour + 1) (system.now - hour)
    (timesOf ip system.recorded) (system.limiter.state ip).recent
  latest : ∀ time ∈ timesOf ip system.recorded, time ≤ system.now
  filled : Filled config system.now (system.limiter.state ip) (timesOf ip system.passed)

theorem Filled.mono {passed : List ℚ} (filled : Filled config now entry passed) {later : ℚ}
    (after : now ≤ later) {next : IpState} (tokens : next.tokens = entry.tokens)
    (refilledAt : next.refilledAt = entry.refilledAt) : Filled config later next passed := by
  rw [Filled, tokens, refilledAt]
  rw [Filled] at filled
  cases held : entry.tokens with
  | none =>
      rw [held] at filled
      exact filled
  | some level =>
      rw [held] at filled
      exact ⟨filled.1, le_trans filled.2 after⟩

theorem Filled.refilled {passed : List ℚ} (holds : 0 ≤ config.bucketCapacity) {last : ℚ}
    (filled : Filled config last entry passed) (after : last ≤ now) :
    Level config.bucketCapacity config.refillPerS (entry.refilled config now) now passed := by
  rw [Filled] at filled
  rw [IpState.refilled]
  cases held : entry.tokens with
  | none =>
      rw [held] at filled
      rw [filled]
      exact Level.full now holds config.refillPerS_pos.le
  | some level =>
      rw [held] at filled
      exact filled.1.fill config.refillPerS_pos.le (le_trans filled.2 after)

theorem Filled.answer {passed : List ℚ} (holds : 0 ≤ config.bucketCapacity) {last : ℚ}
    (filled : Filled config last entry passed) (after : last ≤ now)
    (slow : Option HandleState) :
    Filled config now (entry.answer config slow consume now).2
      (if consume = true ∧ (entry.answer config slow consume now).1 = none then now :: passed
      else passed) := by
  have level := filled.refilled holds after
  rcases @answer_bucket config entry now consume slow with
    ⟨tokens, refilledAt, not_passed⟩ | ⟨refilledAt, ⟨-, tokens, refused⟩ |
      ⟨enough, tokens, consuming, answer⟩⟩
  · rw [if_neg not_passed]
    exact filled.mono after tokens refilledAt
  · rw [if_neg fun both => refused both.2, Filled, tokens, refilledAt]
    exact ⟨level, le_refl now⟩
  · rw [if_pos ⟨consuming, answer⟩, Filled, tokens, refilledAt]
    exact ⟨level.take enough, le_refl now⟩

theorem timesOf_append (ip : Ip) (entries : List (Ip × ℚ)) (entry : Ip × ℚ) :
    timesOf ip (entries ++ [entry]) =
      timesOf ip entries ++ if entry.1 = ip then [entry.2] else [] := by
  rw [timesOf, List.filterMap_append]
  congr 1
  split
  case isTrue same => simp [same]
  case isFalse different => simp [different]

theorem timesOf_cons (ip : Ip) (entries : List (Ip × ℚ)) (entry : Ip × ℚ) :
    timesOf ip (entry :: entries) =
      if entry.1 = ip then entry.2 :: timesOf ip entries else timesOf ip entries := by
  rw [timesOf, List.filterMap_cons]
  split
  case h_1 none =>
    split at none
    · cases none
    · rename_i different
      rw [if_neg different]
      rfl
  case h_2 time some =>
    split at some
    · rename_i same
      cases some
      rw [if_pos same]
      rfl
    · cases some

variable {system next : System} {action : Action}

theorem Action.keeps_ip (keeps : action.keeps system = true) :
    Roomy system.limiter.ips action.ip = true :=
  (Bool.and_eq_true_iff.mp keeps).1

theorem Sane.check (sane : Sane config system other) (holds : 0 ≤ config.bucketCapacity)
    (roomy : Roomy system.limiter.ips ip = true) (after : system.now ≤ now)
    (trusting : now ≤ trustedAt) (handle : Option Handle) (consume : Bool) :
    Sane config
      { system with
        limiter := (system.limiter.check config ip handle consume now trustedAt).2
        now := trustedAt
        passed :=
          if consume ∧ (system.limiter.check config ip handle consume now trustedAt).1 = none then
            (ip, now) :: system.passed
          else system.passed } other := by
  obtain ⟨slow, answer, state⟩ := @check_state config _ ip roomy handle consume now trustedAt
  have later : system.now ≤ trustedAt := le_trans after trusting
  have cutoff : now - hour ≤ trustedAt - hour := sub_le_sub_right trusting hour
  refine ⟨?_, fun time mem => le_trans (sane.latest time mem) later, ?_⟩
  · dsimp only
    rw [state other]
    split
    case isTrue same =>
      subst same
      rw [(answer_keeps slow).1]
      exact ((sane.remembers.later (sub_le_sub_right after hour)).prune).later cutoff
    case isFalse => exact sane.remembers.later (sub_le_sub_right later hour)
  · dsimp only
    rw [state other, answer]
    split
    case isTrue same =>
      subst same
      have filled : Filled config system.now ((system.limiter.state other).pruned now)
          (timesOf other system.passed) := sane.filled.mono (le_refl _) rfl rfl
      have answered := @Filled.answer config _ now consume _ holds _ filled after slow
      refine Filled.mono ?_ trusting rfl rfl
      convert answered using 1
      split
      · rw [timesOf_cons, if_pos rfl]
      · rfl
    case isFalse different =>
      have same : timesOf other
          (if consume = true ∧ (((system.limiter.state ip).pruned now).answer config slow consume
            now).1 = none then (ip, now) :: system.passed else system.passed) =
          timesOf other system.passed := by
        split
        · rw [timesOf_cons, if_neg (Ne.symm different)]
        · rfl
      rw [same]
      exact sane.filled.mono later rfl rfl

theorem Sane.failure (sane : Sane config system other)
    (roomy : Roomy system.limiter.ips ip = true) (after : system.now ≤ now)
    (handle : Option Handle) :
    Sane config
      { system with
        limiter := system.limiter.failure config ip handle now
        now := now
        recorded := system.recorded ++ [(ip, now)] } other := by
  have state := @failure_state config system.limiter ip roomy handle now other
  have cutoff := sub_le_sub_right after hour
  refine ⟨?_, ?_, ?_⟩
  · dsimp only
    rw [state, timesOf_append]
    by_cases same : other = ip
    · subst same
      rw [if_pos rfl, if_pos rfl]
      exact (sane.remembers.later cutoff).append (Nat.succ_pos _)
        fun time mem => le_trans (sane.latest time mem) after
    · rw [if_neg same, if_neg (Ne.symm same), List.append_nil]
      exact sane.remembers.later cutoff
  · intro time mem
    rw [timesOf_append, List.mem_append] at mem
    rcases mem with before | new
    · exact le_trans (sane.latest time before) after
    · split at new
      · rw [List.mem_singleton.mp new]
      · cases new
  · dsimp only
    rw [state]
    split
    case isTrue same =>
      subst same
      exact sane.filled.mono after rfl rfl
    case isFalse => exact sane.filled.mono after rfl rfl

theorem Sane.success (sane : Sane config system other)
    (roomy : Roomy system.limiter.ips ip = true) (after : system.now ≤ now)
    (handle : Option Handle) :
    Sane config
      { system with
        limiter := system.limiter.success config ip handle now
        now := now } other := by
  have state := @success_state config system.limiter ip roomy handle now other
  refine ⟨?_, fun time mem => le_trans (sane.latest time mem) after, ?_⟩
  · dsimp only
    rw [state]
    split
    case isTrue same =>
      subst same
      exact sane.remembers.later (sub_le_sub_right after hour)
    case isFalse => exact sane.remembers.later (sub_le_sub_right after hour)
  · dsimp only
    rw [state]
    split
    case isTrue same =>
      subst same
      exact sane.filled.mono after rfl rfl
    case isFalse => exact sane.filled.mono after rfl rfl

theorem Sane.step (sane : ∀ ip, Sane config system ip) (holds : 0 ≤ config.bucketCapacity)
    (keeps : action.keeps system = true) (stepped : step config system action = some next) :
    ∀ ip, Sane config next ip := by
  intro other
  have roomy := Action.keeps_ip keeps
  cases action with
  | check ip handle consume now trustedAt =>
      rw [Attempts.step] at stepped
      split at stepped
      case isTrue times =>
        cases stepped
        exact (sane other).check holds roomy times.1 times.2 handle consume
      case isFalse => cases stepped
  | failure ip handle now =>
      rw [Attempts.step] at stepped
      split at stepped
      case isTrue after =>
        cases stepped
        exact (sane other).failure roomy after handle
      case isFalse => cases stepped
  | success ip handle now =>
      rw [Attempts.step] at stepped
      split at stepped
      case isTrue after =>
        cases stepped
        exact (sane other).success roomy after handle
      case isFalse => cases stepped

theorem sane_start (now : ℚ) (ip : Ip) : Sane config (.start config now) ip where
  remembers := .nil
  latest time mem := by cases mem
  filled := rfl

end Brook.Attempts
