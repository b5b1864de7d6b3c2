import Brook.Table.Basic
import Brook.Transition.Run

namespace Brook.SyncNow

/-! The calls of `sync_now` on one cache, between their atomic operations: the
flag `again`, the lock `running`, and the retry that a network failure asks for. -/

abbrev CallId := Nat
abbrev RetryId := Nat

inductive StoreError
  | alreadyOpen
  | io
  | sql
  | closed
deriving DecidableEq

/-- The client's errors, as far as a sync tells them apart. -/
inductive ClientError
  | http
  | timeout
  | disconnected
  | other
deriving DecidableEq

inductive SyncError
  | store (error : StoreError)
  | net (error : ClientError)
  | malformed
deriving DecidableEq

def isNetworkFailure : SyncError → Bool
  | .net .http => true
  | .net .timeout => true
  | .net .disconnected => true
  | _ => false

abbrev Outcome := Except SyncError Unit

def Outcome.offline : Outcome → Bool
  | .error error => isNetworkFailure error
  | .ok _ => false

/-- How the pages of a run end. -/
inductive Synced
  | done
  | reset
  | failed (error : SyncError)
deriving DecidableEq

def Synced.outcome : Synced → Outcome
  | .failed error => .error error
  | _ => .ok ()

/-- Where a call of `sync_now` stands. -/
inductive Phase
  /-- The cache is open; `again` is to be set. -/
  | entering
  /-- At the top of the loop. -/
  | trying
  /-- The lock is held; `again` is to be swapped. -/
  | holding
  /-- In `run_into`. -/
  | running
  /-- In `reset_rows`. -/
  | resetting
  /-- Out of the inner loop; the lock is to be dropped. -/
  | dropping
  /-- The lock is dropped; `again` is to be read. -/
  | checking
  | scheduling
  /-- `retry_scheduled` was set here; the retry is to be spawned. -/
  | spawning
  | returned
deriving DecidableEq

structure SyncCall where
  phase : Phase
  result : Outcome

/-- The task that `schedule_retry` spawns. -/
inductive Retry
  | sleeping
  /-- `retry_scheduled` was cleared; `offline` is to be read. -/
  | woken
  | done
deriving DecidableEq

structure Flight where
  closed : Bool
  again : Bool
  running : Option CallId
  retryScheduled : Bool
  retryMs : Nat
  /-- The retry waits: start and cap, in ms. -/
  bounds : Nat × Nat
  syncing : Bool
  offline : Bool
  lastSynced : Option Nat
  calls : Table CallId SyncCall
  retries : Table RetryId Retry

inductive Action
  | ask (call : CallId)
  | record (call : CallId)
  | tryLock (call : CallId)
  | swap (call : CallId)
  | fetched (call : CallId) (ending : Synced) (now : Nat)
  /-- `reset_rows` ends, with the cursor that it replaced. -/
  | rowsReset (call : CallId) (was : Except StoreError String)
  | unlock (call : CallId)
  | check (call : CallId)
  | schedule (call : CallId)
  | spawn (call : CallId) (retry : RetryId)
  | wake (retry : RetryId)
  /-- The woken retry calls `sync_now`, or has nothing to do. -/
  | retry (retry : RetryId) (call : CallId)

/-- `start` after a success, then double the wait before, at most `cap`. -/
def retryDelay (last start cap : Nat) : Nat :=
  match last with
  | 0 => start
  | last => min (last * 2) cap

namespace Flight

def opened : Flight where
  closed := false
  again := false
  running := none
  retryScheduled := false
  retryMs := 0
  bounds := (2000, 30000)
  syncing := false
  offline := false
  lastSynced := none
  calls := ∅
  retries := ∅

def move (flight : Flight) (call : CallId) (phase : Phase) (result : Outcome) : Flight :=
  { flight with calls := flight.calls.put call ⟨phase, result⟩ }

/-- The result so far of a call that stands there. -/
def standing (flight : Flight) (call : CallId) (phase : Phase) : Option Outcome :=
  (flight.calls.get? call).bind fun row => if row.phase = phase then some row.result else none

def syncNow (flight : Flight) (call : CallId) : Flight :=
  if flight.closed then
    flight.move call .returned (.ok ())
  else
    flight.move call .entering (.ok ())

/-- The pages of a run are through: its own state changes, then its outcome. -/
def fetched (flight : Flight) (call : CallId) (result : Outcome) (ending : Synced)
    (now : Nat) : Flight :=
  let state := { flight with offline := ending.outcome.offline }
  match ending with
  | .done =>
      { state with lastSynced := some now, retryMs := 0, syncing := false }.move call .holding
        (.ok ())
  | .reset =>
      { state with lastSynced := some now, retryMs := 0 }.move call .resetting result
  | .failed error => { state with syncing := false }.move call .dropping (.error error)

def rowsReset (flight : Flight) (call : CallId) (was : Except StoreError String) : Flight :=
  match was with
  | .error error =>
      { flight with syncing := false }.move call .dropping (.error (.store error))
  | .ok was =>
      { flight with syncing := false, again := flight.again || was != "0" }.move call .holding
        (.ok ())

def step (flight : Flight) : Action → Option Flight
  | .ask call =>
      if flight.calls.contains call then none else some (flight.syncNow call)
  | .record call =>
      (flight.standing call .entering).map fun result =>
        { flight with again := true }.move call .trying result
  | .tryLock call =>
      (flight.standing call .trying).map fun result =>
        match flight.running with
        | some _ => flight.move call .returned result
        | none => { flight with running := some call }.move call .holding result
  | .swap call =>
      (flight.standing call .holding).map fun result =>
        if flight.again then
          { flight with again := false, syncing := true }.move call .running result
        else
          flight.move call .dropping result
  | .fetched call ending now =>
      (flight.standing call .running).map fun result => flight.fetched call result ending now
  | .rowsReset call was =>
      (flight.standing call .resetting).map fun _ => flight.rowsReset call was
  | .unlock call =>
      (flight.standing call .dropping).map fun result =>
        { flight with running := none }.move call .checking result
  | .check call =>
      (flight.standing call .checking).map fun result =>
        if flight.again then
          flight.move call .trying result
        else if result.offline then
          flight.move call .scheduling result
        else
          flight.move call .returned result
  | .schedule call =>
      (flight.standing call .scheduling).map fun result =>
        if flight.closed || flight.retryScheduled then
          flight.move call .returned result
        else
          { flight with retryScheduled := true }.move call .spawning result
  | .spawn call retry =>
      if flight.retries.contains retry then none
      else
        (flight.standing call .spawning).map fun result =>
          { flight with
            retryMs := retryDelay flight.retryMs flight.bounds.1 flight.bounds.2
            retries := flight.retries.put retry .sleeping }.move call .returned result
  | .wake retry =>
      if flight.retries.get? retry = some .sleeping then
        some { flight with
          retryScheduled := false
          retries := flight.retries.put retry .woken }
      else none
  | .retry retry call =>
      if flight.retries.get? retry = some .woken && !flight.calls.contains call then
        let settled := { flight with retries := flight.retries.put retry .done }
        some (if flight.offline then settled.syncNow call else settled)
      else none

end Flight

/-! ### What happened, in order -/

inductive Event
  | recorded (call : CallId)
  | began (run : Nat)
  | ended (run : Nat) (outcome : Outcome)

def Event.isBegan : Event → Bool
  | .began _ => true
  | _ => false

/-- The calls, with what happened and how many runs there were. -/
structure Log where
  flight : Flight
  events : List Event
  runs : Nat

def Log.start : Log where
  flight := Flight.opened
  events := []
  runs := 0

/-- What an action does that the log keeps. -/
def Log.notes (log : Log) : Action → List Event
  | .record call => [.recorded call]
  | .swap _ => if log.flight.again then [.began (log.runs + 1)] else []
  | .fetched _ ending _ =>
      if ending = .reset then [] else [.ended log.runs ending.outcome]
  | .rowsReset _ (.ok _) => [.ended log.runs (.ok ())]
  | .rowsReset _ (.error error) => [.ended log.runs (.error (.store error))]
  | _ => []

def Log.step (log : Log) (action : Action) : Option Log :=
  (log.flight.step action).map fun flight =>
    { flight := flight
      events := log.events ++ log.notes action
      runs := if (log.notes action).any Event.isBegan then log.runs + 1 else log.runs }

/-! ### What a step can do -/

/-- The branches of a step, each with what it needs. -/
inductive Stepped (flight : Flight) : Action → Flight → Prop
  | asked {call} (fresh : flight.calls.get? call = none) :
      Stepped flight (.ask call) (flight.syncNow call)
  | recorded {call result} (there : flight.calls.get? call = some ⟨.entering, result⟩) :
      Stepped flight (.record call) ({ flight with again := true }.move call .trying result)
  | refused {call result owner} (there : flight.calls.get? call = some ⟨.trying, result⟩)
      (busy : flight.running = some owner) :
      Stepped flight (.tryLock call) (flight.move call .returned result)
  | locked {call result} (there : flight.calls.get? call = some ⟨.trying, result⟩)
      (free : flight.running = none) :
      Stepped flight (.tryLock call)
        ({ flight with running := some call }.move call .holding result)
  | began {call result} (there : flight.calls.get? call = some ⟨.holding, result⟩)
      (asked : flight.again = true) :
      Stepped flight (.swap call)
        ({ flight with again := false, syncing := true }.move call .running result)
  | idle {call result} (there : flight.calls.get? call = some ⟨.holding, result⟩)
      (quiet : flight.again = false) :
      Stepped flight (.swap call) (flight.move call .dropping result)
  | fetched {call result} (there : flight.calls.get? call = some ⟨.running, result⟩)
      (ending : Synced) (now : Nat) :
      Stepped flight (.fetched call ending now) (flight.fetched call result ending now)
  | rowsReset {call result} (there : flight.calls.get? call = some ⟨.resetting, result⟩)
      (was : Except StoreError String) :
      Stepped flight (.rowsReset call was) (flight.rowsReset call was)
  | unlocked {call result} (there : flight.calls.get? call = some ⟨.dropping, result⟩) :
      Stepped flight (.unlock call) ({ flight with running := none }.move call .checking result)
  | looped {call result} (there : flight.calls.get? call = some ⟨.checking, result⟩)
      (asked : flight.again = true) :
      Stepped flight (.check call) (flight.move call .trying result)
  | failed {call result} (there : flight.calls.get? call = some ⟨.checking, result⟩)
      (quiet : flight.again = false) (offline : result.offline = true) :
      Stepped flight (.check call) (flight.move call .scheduling result)
  | left {call result} (there : flight.calls.get? call = some ⟨.checking, result⟩)
      (quiet : flight.again = false) (online : result.offline = false) :
      Stepped flight (.check call) (flight.move call .returned result)
  | joined {call result} (there : flight.calls.get? call = some ⟨.scheduling, result⟩)
      (already : flight.closed = true ∨ flight.retryScheduled = true) :
      Stepped flight (.schedule call) (flight.move call .returned result)
  | claimed {call result} (there : flight.calls.get? call = some ⟨.scheduling, result⟩) :
      Stepped flight (.schedule call)
        ({ flight with retryScheduled := true }.move call .spawning result)
  | spawned {call result retry} (there : flight.calls.get? call = some ⟨.spawning, result⟩)
      (fresh : flight.retries.get? retry = none) :
      Stepped flight (.spawn call retry)
        ({ flight with
          retryMs := retryDelay flight.retryMs flight.bounds.1 flight.bounds.2
          retries := flight.retries.put retry .sleeping }.move call .returned result)
  | woke {retry} (slept : flight.retries.get? retry = some .sleeping) :
      Stepped flight (.wake retry)
        { flight with retryScheduled := false, retries := flight.retries.put retry .woken }
  | retried {retry call} (woken : flight.retries.get? retry = some .woken)
      (fresh : flight.calls.get? call = none) (offline : flight.offline = true) :
      Stepped flight (.retry retry call)
        ({ flight with retries := flight.retries.put retry .done }.syncNow call)
  | settled {retry call} (woken : flight.retries.get? retry = some .woken)
      (online : flight.offline = false) :
      Stepped flight (.retry retry call)
        { flight with retries := flight.retries.put retry .done }

namespace Flight

variable {flight next : Flight}

theorem standing_eq_some {call : CallId} {phase : Phase} {result : Outcome} :
    flight.standing call phase = some result ↔
      flight.calls.get? call = some ⟨phase, result⟩ := by
  unfold standing
  rw [Option.bind_eq_some_iff]
  constructor
  · rintro ⟨row, there, same⟩
    split at same
    case isTrue here =>
      cases same
      rw [there, ← here]
    case isFalse => cases same
  · intro there
    exact ⟨_, there, if_pos rfl⟩

theorem fresh_of_not_contains {call : CallId} (absent : ¬ flight.calls.contains call = true) :
    flight.calls.get? call = none := by
  rw [Table.contains, Option.not_isSome_iff_eq_none] at absent
  exact absent

theorem step_cases {action : Action} (stepped : flight.step action = some next) :
    Stepped flight action next := by
  cases action with
  | ask call =>
      simp only [step] at stepped
      split at stepped
      case isTrue => cases stepped
      case isFalse absent =>
        cases stepped
        exact .asked (fresh_of_not_contains absent)
  | record call =>
      obtain ⟨result, there, rfl⟩ := Option.map_eq_some_iff.mp stepped
      exact .recorded (standing_eq_some.mp there)
  | tryLock call =>
      obtain ⟨result, there, taken⟩ := Option.map_eq_some_iff.mp stepped
      rw [standing_eq_some] at there
      split at taken
      case h_1 owner busy =>
        cases taken
        exact .refused there busy
      case h_2 free =>
        cases taken
        exact .locked there free
  | swap call =>
      obtain ⟨result, there, swapped⟩ := Option.map_eq_some_iff.mp stepped
      rw [standing_eq_some] at there
      split at swapped
      case isTrue asked =>
        cases swapped
        exact .began there asked
      case isFalse quiet =>
        cases swapped
        exact .idle there (Bool.eq_false_iff.mpr quiet)
  | fetched call ending now =>
      obtain ⟨result, there, rfl⟩ := Option.map_eq_some_iff.mp stepped
      exact .fetched (standing_eq_some.mp there) ending now
  | rowsReset call was =>
      obtain ⟨result, there, rfl⟩ := Option.map_eq_some_iff.mp stepped
      exact .rowsReset (standing_eq_some.mp there) was
  | unlock call =>
      obtain ⟨result, there, rfl⟩ := Option.map_eq_some_iff.mp stepped
      exact .unlocked (standing_eq_some.mp there)
  | check call =>
      obtain ⟨result, there, checked⟩ := Option.map_eq_some_iff.mp stepped
      rw [standing_eq_some] at there
      split at checked
      case isTrue asked =>
        cases checked
        exact .looped there asked
      case isFalse quiet =>
        rw [Bool.not_eq_true] at quiet
        split at checked
        case isTrue offline =>
          cases checked
          exact .failed there quiet offline
        case isFalse online =>
          cases checked
          exact .left there quiet (Bool.eq_false_iff.mpr online)
  | schedule call =>
      obtain ⟨result, there, scheduled⟩ := Option.map_eq_some_iff.mp stepped
      rw [standing_eq_some] at there
      split at scheduled
      case isTrue already =>
        cases scheduled
        exact .joined there (Bool.or_eq_true_iff.mp already)
      case isFalse =>
        cases scheduled
        exact .claimed there
  | spawn call retry =>
      simp only [step] at stepped
      split at stepped
      case isTrue => cases stepped
      case isFalse absent =>
        obtain ⟨result, there, rfl⟩ := Option.map_eq_some_iff.mp stepped
        rw [Table.contains, Option.not_isSome_iff_eq_none] at absent
        exact .spawned (standing_eq_some.mp there) absent
  | wake retry =>
      simp only [step] at stepped
      split at stepped
      case isTrue slept =>
        cases stepped
        exact .woke slept
      case isFalse => cases stepped
  | retry retry call =>
      simp only [step] at stepped
      split at stepped
      case isFalse => cases stepped
      case isTrue both =>
        rw [Bool.and_eq_true, decide_eq_true_eq, Bool.not_eq_true'] at both
        have fresh := fresh_of_not_contains (Bool.eq_false_iff.mp both.2)
        split at stepped
        case isTrue offline =>
          cases stepped
          exact .retried both.1 fresh offline
        case isFalse online =>
          cases stepped
          exact .settled both.1 (Bool.eq_false_iff.mpr online)

end Flight

end Brook.SyncNow
