import Brook.Sync.SyncNow

namespace Brook.SyncNow

/-! No request is dropped: whoever holds the lock, or is about to try it, looks at
`again` once more. -/

abbrev Calls := Table CallId SyncCall

/-- Under the lock. -/
def Phase.holds : Phase → Bool
  | .holding | .running | .resetting | .dropping => true
  | _ => false

def Phase.inRun : Phase → Bool
  | .running | .resetting => true
  | _ => false

theorem Phase.holds_of_inRun {phase : Phase} (runs : phase.inRun = true) :
    phase.holds = true := by
  cases phase <;> first | rfl | cases runs

/-- `again` is read once more before the call returns. -/
def Phase.attentive : Phase → Bool
  | .trying | .holding | .running | .resetting | .dropping | .checking => true
  | _ => false

/-- The call is to record its request, or to ask for a retry unless it finds another
request. -/
def SyncCall.pending (row : SyncCall) : Bool :=
  match row.phase with
  | .entering => true
  | .dropping | .checking | .scheduling => row.result.offline
  | _ => false

/-- Some call's row meets the test. -/
def Has (calls : Calls) (test : SyncCall → Bool) : Prop :=
  ∃ call row, calls.get? call = some row ∧ test row = true

section Has

variable {calls : Calls} {test : SyncCall → Bool} {call : CallId} {old new : SyncCall}

theorem Has.put_self (meets : test new = true) : Has (calls.put call new) test :=
  ⟨call, new, Table.get?_put_self calls call new, meets⟩

theorem Has.put (has : Has calls test) (there : calls.get? call = some old)
    (kept : test old = true → test new = true) : Has (calls.put call new) test := by
  obtain ⟨other, row, found, meets⟩ := has
  by_cases same : other = call
  · subst same
    cases there.symm.trans found
    exact Has.put_self (kept meets)
  · exact ⟨other, row, by rw [Table.get?_put_ne _ _ same, found], meets⟩

theorem Has.put_fresh (has : Has calls test) (fresh : calls.get? call = none) :
    Has (calls.put call new) test := by
  obtain ⟨other, row, found, meets⟩ := has
  refine ⟨other, row, ?_, meets⟩
  rw [Table.get?_put_ne _ _ fun same => ?_, found]
  rw [same, fresh] at found
  cases found

end Has

/-! ### The lock -/

/-- The lock is held by the one call that stands under it. -/
structure Locked (flight : Flight) : Prop where
  opened : flight.closed = false
  owner : ∀ call row, flight.calls.get? call = some row →
    (row.phase.holds = true ↔ flight.running = some call)
  owned : ∀ call, flight.running = some call → (flight.calls.get? call).isSome

variable {flight next : Flight} {action : Action}

theorem Locked.moved (locked : Locked flight) {call : CallId} {old : SyncCall} {phase : Phase}
    {result : Outcome} (there : flight.calls.get? call = some old)
    (same : phase.holds = old.phase.holds) : Locked (flight.move call phase result) where
  opened := locked.opened
  owner other row found := by
    rw [Flight.move, Table.get?_put] at found
    split at found
    case isTrue here =>
      cases found
      subst here
      rw [same]
      exact locked.owner other old there
    case isFalse => exact locked.owner other row found
  owned other owns := by
    rw [Flight.move, Table.get?_put]
    split
    · rfl
    · exact locked.owned other owns

theorem Locked.syncNow (locked : Locked flight) {call : CallId}
    (fresh : flight.calls.get? call = none) : Locked (flight.syncNow call) := by
  rw [Flight.syncNow, if_neg (by rw [locked.opened]; decide)]
  refine ⟨locked.opened, fun other row found => ?_, fun other owns => ?_⟩
  · rw [Flight.move, Table.get?_put] at found
    split at found
    case isTrue here =>
      cases found
      subst here
      refine iff_of_false (by decide) fun owns => ?_
      have there := locked.owned other owns
      rw [fresh] at there
      cases there
    case isFalse => exact locked.owner other row found
  · rw [Flight.move, Table.get?_put]
    split
    · rfl
    · exact locked.owned other owns

/-- The other fields of the state have no part in the lock. -/
theorem Locked.of_same (locked : Locked flight) (closed : next.closed = flight.closed)
    (running : next.running = flight.running) (calls : next.calls = flight.calls) :
    Locked next where
  opened := closed.trans locked.opened
  owner := by
    rw [calls, running]
    exact locked.owner
  owned := by
    rw [calls, running]
    exact locked.owned

theorem Locked.step (locked : Locked flight) (stepped : Stepped flight action next) :
    Locked next := by
  cases stepped with
  | asked fresh => exact locked.syncNow fresh
  | recorded there =>
      exact (locked.of_same rfl rfl rfl : Locked { flight with again := true }).moved there rfl
  | refused there => exact locked.moved there rfl
  | @locked call result there free =>
      refine ⟨locked.opened, fun other row found => ?_, fun other owns => ?_⟩
      · rw [Flight.move, Table.get?_put] at found
        split at found
        case isTrue here =>
          cases found
          rw [here]
          exact iff_of_true rfl rfl
        case isFalse apart =>
          have unheld := locked.owner other row found
          rw [free] at unheld
          refine iff_of_false (fun holds => ?_) fun owns => apart (Option.some.inj owns).symm
          cases unheld.mp holds
      · rw [Flight.move, Table.get?_put]
        rw [if_pos (Option.some.inj owns).symm]
        rfl
  | began there =>
      exact (locked.of_same rfl rfl rfl :
        Locked { flight with again := false, syncing := true }).moved there rfl
  | idle there => exact locked.moved there rfl
  | fetched there ending now =>
      cases ending with
      | done =>
          exact (locked.of_same rfl rfl rfl : Locked { flight with
            offline := _, lastSynced := some now, retryMs := 0, syncing := false }).moved
              there rfl
      | reset =>
          exact (locked.of_same rfl rfl rfl : Locked { flight with
            offline := _, lastSynced := some now, retryMs := 0 }).moved there rfl
      | failed error =>
          exact (locked.of_same rfl rfl rfl : Locked { flight with
            offline := _, syncing := false }).moved there rfl
  | rowsReset there was =>
      cases was with
      | error error =>
          exact (locked.of_same rfl rfl rfl :
            Locked { flight with syncing := false }).moved there rfl
      | ok was =>
          exact (locked.of_same rfl rfl rfl :
            Locked { flight with syncing := false, again := _ }).moved there rfl
  | @unlocked call result there =>
      have owns := (locked.owner call _ there).mp rfl
      refine ⟨locked.opened, fun other row found => ?_, fun other owns => ?_⟩
      · rw [Flight.move, Table.get?_put] at found
        refine iff_of_false (fun holds => ?_) fun held => ?_
        · split at found
          case isTrue =>
            cases found
            cases holds
          case isFalse apart =>
            exact apart (Option.some.inj (owns.symm.trans
              ((locked.owner other row found).mp holds))).symm
        · cases held
      · cases owns
  | looped there => exact locked.moved there rfl
  | failed there => exact locked.moved there rfl
  | left there => exact locked.moved there rfl
  | joined there => exact locked.moved there rfl
  | claimed there =>
      exact (locked.of_same rfl rfl rfl :
        Locked { flight with retryScheduled := true }).moved there rfl
  | spawned there =>
      exact (locked.of_same rfl rfl rfl : Locked { flight with
        retryMs := _, retries := flight.retries.put _ .sleeping }).moved there rfl
  | woke => exact locked.of_same rfl rfl rfl
  | retried _ fresh =>
      exact (locked.of_same rfl rfl rfl : Locked { flight with
        retries := flight.retries.put _ .done }).syncNow fresh
  | settled => exact locked.of_same rfl rfl rfl

/-- At most one run is in progress. -/
theorem Locked.single (locked : Locked flight) {first second : CallId} {a b : SyncCall}
    (here : flight.calls.get? first = some a) (there : flight.calls.get? second = some b)
    (runs : a.phase.inRun = true) (also : b.phase.inRun = true) : first = second := by
  have one := (locked.owner first a here).mp (Phase.holds_of_inRun runs)
  have two := (locked.owner second b there).mp (Phase.holds_of_inRun also)
  exact Option.some.inj (one.symm.trans two)

/-! ### The flag -/

def Flight.attended (flight : Flight) : Prop :=
  Has flight.calls fun row => row.phase.attentive

def Flight.inRun (flight : Flight) : Prop :=
  Has flight.calls fun row => row.phase.inRun

theorem Phase.attentive_of_holds {phase : Phase} (holds : phase.holds = true) :
    phase.attentive = true := by
  cases phase <;> first | rfl | cases holds

/-- A set flag is seen by some call. -/
theorem attended_step (locked : Locked flight) (attended : flight.again = true → flight.attended)
    (stepped : Stepped flight action next) : next.again = true → next.attended := by
  cases stepped with
  | asked fresh =>
      rw [Flight.syncNow, if_neg (by rw [locked.opened]; decide)]
      exact fun asked => (attended asked).put_fresh fresh
  | recorded there => exact fun _ => Has.put_self rfl
  | @refused call result owner there busy =>
      intro asked
      obtain ⟨row, found⟩ := Option.isSome_iff_exists.mp (locked.owned owner busy)
      have holds := (locked.owner owner row found).mpr busy
      have apart : owner ≠ call := by
        intro same
        subst same
        cases there.symm.trans found
        cases holds
      exact ⟨owner, row, by rw [Flight.move, Table.get?_put_ne _ _ apart, found],
        Phase.attentive_of_holds holds⟩
  | locked there => exact fun asked => (attended asked).put there fun _ => rfl
  | began => exact fun asked => Bool.noConfusion asked
  | idle there => exact fun asked => (attended asked).put there fun _ => rfl
  | fetched there ending now =>
      cases ending with
      | done => exact fun asked => (attended asked).put there fun _ => rfl
      | reset => exact fun asked => (attended asked).put there fun _ => rfl
      | failed => exact fun asked => (attended asked).put there fun _ => rfl
  | rowsReset there was =>
      cases was with
      | error => exact fun asked => (attended asked).put there fun _ => rfl
      | ok => exact fun _ => Has.put_self rfl
  | unlocked there => exact fun asked => (attended asked).put there fun _ => rfl
  | looped there => exact fun asked => (attended asked).put there fun _ => rfl
  | failed there quiet => exact fun asked => Bool.noConfusion (quiet.symm.trans asked)
  | left there quiet => exact fun asked => Bool.noConfusion (quiet.symm.trans asked)
  | joined there => exact fun asked => (attended asked).put there fun met => Bool.noConfusion met
  | claimed there => exact fun asked => (attended asked).put there fun met => Bool.noConfusion met
  | spawned there => exact fun asked => (attended asked).put there fun met => Bool.noConfusion met
  | woke => exact attended
  | retried _ fresh =>
      rw [Flight.syncNow, if_neg (by rw [locked.opened]; decide)]
      exact fun asked => (attended asked).put_fresh fresh
  | settled => exact attended

/-! ### The requests -/

/-- A run that began after the request has ended. -/
def Covered (events : List Event) (call : CallId) : Prop :=
  ∃ run outcome, List.Sublist [.recorded call, .began run, .ended run outcome] events

/-- What is known of a recorded request. -/
inductive Known (log : Log) (call : CallId) : Prop
  | asked (again : log.flight.again = true)
  | going (runs : log.flight.inRun)
      (began : List.Sublist [.recorded call, .began log.runs] log.events)
  | covered (ended : Covered log.events call)

def Requested (log : Log) : Prop :=
  ∀ call, .recorded call ∈ log.events → Known log call

theorem Covered.append {events : List Event} {call : CallId} (covered : Covered events call)
    (later : List Event) : Covered (events ++ later) call := by
  obtain ⟨run, outcome, happened⟩ := covered
  exact ⟨run, outcome, happened.trans (List.sublist_append_left _ _)⟩

variable {log after : Log}

theorem Requested.quiet (requested : Requested log) (events : after.events = log.events)
    (runs : after.runs = log.runs) (again : log.flight.again = true → after.flight.again = true)
    (inRun : log.flight.inRun → after.flight.inRun) : Requested after := by
  intro call recorded
  rw [events] at recorded
  cases requested call recorded with
  | asked asked => exact .asked (again asked)
  | going going began =>
      refine .going (inRun going) ?_
      rw [events, runs]
      exact began
  | covered covered =>
      refine .covered ?_
      rw [events]
      exact covered

theorem Requested.ended (requested : Requested log) {outcome : Outcome}
    (events : after.events = log.events ++ [.ended log.runs outcome])
    (again : log.flight.again = true → after.flight.again = true) : Requested after := by
  intro call recorded
  rw [events, List.mem_append] at recorded
  have before : .recorded call ∈ log.events := by
    rcases recorded with before | new
    · exact before
    · cases List.mem_singleton.mp new
  cases requested call before with
  | asked asked => exact .asked (again asked)
  | going _ began =>
      refine .covered ⟨log.runs, outcome, ?_⟩
      rw [events]
      exact began.append (List.Sublist.refl [Event.ended log.runs outcome])
  | covered covered =>
      refine .covered ?_
      rw [events]
      exact covered.append _

/-- The run that begins is after every request there is. -/
theorem Requested.began (events : after.events = log.events ++ [.began (log.runs + 1)])
    (runs : after.runs = log.runs + 1) (inRun : after.flight.inRun) : Requested after := by
  intro call recorded
  rw [events, List.mem_append] at recorded
  rcases recorded with before | new
  · refine .going inRun ?_
    rw [events, runs]
    exact (List.singleton_sublist.mpr before).append
      (List.Sublist.refl [Event.began (log.runs + 1)])
  · cases List.mem_singleton.mp new

theorem Log.step_eq_some {action : Action} :
    log.step action = some after ↔ ∃ flight, log.flight.step action = some flight ∧
      after = ⟨flight, log.events ++ log.notes action,
        if (log.notes action).any Event.isBegan then log.runs + 1 else log.runs⟩ := by
  unfold Log.step
  rw [Option.map_eq_some_iff]
  constructor
  · rintro ⟨flight, moved, rfl⟩
    exact ⟨flight, moved, rfl⟩
  · rintro ⟨flight, moved, rfl⟩
    exact ⟨flight, moved, rfl⟩

theorem requested_step (locked : Locked log.flight) (requested : Requested log)
    (stepped : Stepped log.flight action next)
    (noted : after = ⟨next, log.events ++ log.notes action,
      if (log.notes action).any Event.isBegan then log.runs + 1 else log.runs⟩) :
    Requested after := by
  subst noted
  have unchanged : log.events ++ [] = log.events := List.append_nil _
  cases stepped with
  | asked fresh =>
      refine requested.quiet unchanged rfl ?_ ?_
      · rw [Flight.syncNow, if_neg (by rw [locked.opened]; decide)]
        exact id
      · rw [Flight.syncNow, if_neg (by rw [locked.opened]; decide)]
        exact fun runs => runs.put_fresh fresh
  | recorded => exact fun call _ => .asked rfl
  | refused there =>
      exact requested.quiet unchanged rfl id fun runs =>
        runs.put there fun met => Bool.noConfusion met
  | locked there =>
      exact requested.quiet unchanged rfl id fun runs =>
        runs.put there fun met => Bool.noConfusion met
  | @began call result there asked =>
      have notes : log.notes (.swap call) = [.began (log.runs + 1)] := if_pos asked
      rw [notes]
      exact Requested.began rfl rfl (Has.put_self rfl)
  | @idle call result there quiet =>
      have notes : log.notes (.swap call) = [] := if_neg (by rw [quiet]; decide)
      rw [notes]
      exact requested.quiet unchanged rfl id fun runs =>
        runs.put there fun met => Bool.noConfusion met
  | fetched there ending now =>
      cases ending with
      | done => exact requested.ended rfl id
      | reset =>
          exact requested.quiet unchanged rfl id fun runs => runs.put there fun _ => rfl
      | failed => exact requested.ended rfl id
  | rowsReset there was =>
      cases was with
      | error => exact requested.ended rfl id
      | ok was =>
          refine requested.ended rfl fun asked => ?_
          exact Bool.or_eq_true_iff.mpr (Or.inl asked)
  | unlocked there =>
      exact requested.quiet unchanged rfl id fun runs =>
        runs.put there fun met => Bool.noConfusion met
  | looped there =>
      exact requested.quiet unchanged rfl id fun runs =>
        runs.put there fun met => Bool.noConfusion met
  | failed there =>
      exact requested.quiet unchanged rfl id fun runs =>
        runs.put there fun met => Bool.noConfusion met
  | left there =>
      exact requested.quiet unchanged rfl id fun runs =>
        runs.put there fun met => Bool.noConfusion met
  | joined there =>
      exact requested.quiet unchanged rfl id fun runs =>
        runs.put there fun met => Bool.noConfusion met
  | claimed there =>
      exact requested.quiet unchanged rfl id fun runs =>
        runs.put there fun met => Bool.noConfusion met
  | spawned there =>
      exact requested.quiet unchanged rfl id fun runs =>
        runs.put there fun met => Bool.noConfusion met
  | woke => exact requested.quiet unchanged rfl id id
  | retried _ fresh =>
      refine requested.quiet unchanged rfl ?_ ?_
      · rw [Flight.syncNow, if_neg (by rw [locked.opened]; decide)]
        exact id
      · rw [Flight.syncNow, if_neg (by rw [locked.opened]; decide)]
        exact fun runs => runs.put_fresh fresh
  | settled => exact requested.quiet unchanged rfl id id

/-! ### The retry -/

def Event.outcome : Event → Option Outcome
  | .ended _ outcome => some outcome
  | _ => none

/-- How the last run ended. -/
def lastOutcome (events : List Event) : Option Outcome :=
  (events.filterMap Event.outcome).getLast?

def endedOffline (events : List Event) : Bool :=
  (lastOutcome events).any Outcome.offline

theorem endedOffline_append {events : List Event} {run : Nat} {outcome : Outcome} :
    endedOffline (events ++ [.ended run outcome]) = outcome.offline := by
  simp [endedOffline, lastOutcome, Event.outcome]

theorem endedOffline_recorded {events : List Event} {call : CallId} :
    endedOffline (events ++ [.recorded call]) = endedOffline events := by
  simp [endedOffline, lastOutcome, Event.outcome]

/-- What is known between two runs, and what the flag of the retry says. -/
structure Retried (log : Log) : Prop where
  resetting : ∀ call row, log.flight.calls.get? call = some row → row.phase = .resetting →
    log.flight.offline = false
  offline : ¬ log.flight.inRun → log.flight.offline = endedOffline log.events
  asked : ¬ log.flight.inRun → endedOffline log.events = true →
    log.flight.again = true ∨ log.flight.retryScheduled = true ∨
      (∃ retry, log.flight.retries.get? retry = some .woken) ∨
      Has log.flight.calls SyncCall.pending
  waiting : log.flight.retryScheduled = true →
    (∃ retry, log.flight.retries.get? retry = some .sleeping) ∨
      Has log.flight.calls fun row => row.phase = .spawning

/-- A call that starts no run and ends none. -/
theorem Retried.moved (retried : Retried log) {call : CallId} {old new : SyncCall}
    {runs : Nat} {flight : Flight} {events : List Event}
    (there : log.flight.calls.get? call = some old)
    (calls : flight.calls = log.flight.calls.put call new)
    (same : endedOffline events = endedOffline log.events) (offline : flight.offline = log.flight.offline)
    (retries : flight.retries = log.flight.retries)
    (set : log.flight.retryScheduled = true → flight.retryScheduled = true)
    (waiting : flight.retryScheduled = true →
      log.flight.retryScheduled = true ∨ new.phase = .spawning)
    (again : log.flight.again = true → flight.again = true)
    (notResetting : new.phase ≠ .resetting)
    (inRun : old.phase.inRun = true → new.phase.inRun = true)
    (pending : old.pending = true → flight.again = true ∨ flight.retryScheduled = true ∨
      new.pending = true)
    (spawning : old.phase ≠ .spawning) :
    Retried ⟨flight, events, runs⟩ := by
  have before : ¬ flight.inRun → ¬ log.flight.inRun := by
    intro idle going
    apply idle
    rw [Flight.inRun, calls]
    exact Has.put going there inRun
  refine ⟨fun other row found resets => ?_, fun idle => ?_, fun idle ended => ?_,
    fun scheduled => ?_⟩
  · rw [offline]
    rw [calls, Table.get?_put] at found
    split at found
    case isTrue =>
      cases found
      exact absurd resets notResetting
    case isFalse => exact retried.resetting other row found resets
  · rw [offline, same]
    exact retried.offline (before idle)
  · rw [same] at ended
    rcases retried.asked (before idle) ended with
      asked | scheduled | woken | ⟨other, row, found, waits⟩
    · exact Or.inl (again asked)
    · exact Or.inr (Or.inl (set scheduled))
    · exact Or.inr (Or.inr (Or.inl (retries ▸ woken)))
    · by_cases here : other = call
      · subst here
        cases there.symm.trans found
        rcases pending waits with asked | set | stays
        · exact Or.inl asked
        · exact Or.inr (Or.inl set)
        · right; right; right
          rw [calls]
          exact Has.put_self stays
      · right; right; right
        rw [calls]
        exact ⟨other, row, by rw [Table.get?_put_ne _ _ here, found], waits⟩
  · rcases waiting scheduled with before | spawns
    · rcases retried.waiting before with sleeps | spawns
      · exact Or.inl (retries ▸ sleeps)
      · right
        rw [calls]
        exact spawns.put there fun met => absurd (of_decide_eq_true met) spawning
    · right
      rw [calls]
      exact Has.put_self (decide_eq_true spawns)

/-- A run ends. -/
theorem Retried.ended (retried : Retried log) {call : CallId} {old new : SyncCall}
    {runs run : Nat} {outcome : Outcome} {flight : Flight}
    (there : log.flight.calls.get? call = some old)
    (calls : flight.calls = log.flight.calls.put call new)
    (offline : flight.offline = outcome.offline)
    (retries : flight.retries = log.flight.retries)
    (flag : flight.retryScheduled = log.flight.retryScheduled)
    (alone : ∀ other row, log.flight.calls.get? other = some row → row.phase = .resetting →
      other = call)
    (notResetting : new.phase ≠ .resetting)
    (pending : outcome.offline = true → new.pending = true)
    (spawning : old.phase ≠ .spawning) :
    Retried ⟨flight, log.events ++ [.ended run outcome], runs⟩ := by
  refine ⟨fun other row found resets => ?_, fun _ => ?_, fun _ ended => ?_, fun set => ?_⟩
  · rw [calls, Table.get?_put] at found
    split at found
    case isTrue =>
      cases found
      exact absurd resets notResetting
    case isFalse apart => exact absurd (alone other row found resets) apart
  · rw [endedOffline_append]
    exact offline
  · rw [endedOffline_append] at ended
    right; right; right
    rw [calls]
    exact Has.put_self (pending ended)
  · rw [flag] at set
    rcases retried.waiting set with sleeps | spawns
    · exact Or.inl (retries ▸ sleeps)
    · right
      rw [calls]
      exact spawns.put there fun met => absurd (of_decide_eq_true met) spawning

/-- A call that is made: it is to record its request. -/
theorem Retried.syncNow (retried : Retried log) {call : CallId} {runs : Nat}
    {flight : Flight} {events : List Event} (fresh : log.flight.calls.get? call = none)
    (calls : flight.calls = log.flight.calls.put call ⟨.entering, .ok ()⟩)
    (same : endedOffline events = endedOffline log.events) (offline : flight.offline = log.flight.offline)
    (flag : flight.retryScheduled = log.flight.retryScheduled)
    (sleeping : (∃ retry, log.flight.retries.get? retry = some .sleeping) →
      ∃ retry, flight.retries.get? retry = some .sleeping) :
    Retried ⟨flight, events, runs⟩ := by
  have before : ¬ flight.inRun → ¬ log.flight.inRun := by
    intro idle going
    apply idle
    rw [Flight.inRun, calls]
    exact Has.put_fresh going fresh
  refine ⟨fun other row found resets => ?_, fun idle => ?_, fun _ _ => ?_, fun set => ?_⟩
  · rw [offline]
    rw [calls, Table.get?_put] at found
    split at found
    case isTrue =>
      cases found
      cases resets
    case isFalse => exact retried.resetting other row found resets
  · rw [offline, same]
    exact retried.offline (before idle)
  · right; right; right
    rw [calls]
    exact Has.put_self rfl
  · rw [flag] at set
    rcases retried.waiting set with sleeps | spawns
    · exact Or.inl (sleeping sleeps)
    · right
      rw [calls]
      exact spawns.put_fresh fresh

/-- A call that goes into a run, or further in it. -/
theorem Retried.runs (retried : Retried log) {call : CallId} {old new : SyncCall} {runs : Nat}
    {flight : Flight} {events : List Event} (there : log.flight.calls.get? call = some old)
    (calls : flight.calls = log.flight.calls.put call new)
    (retries : flight.retries = log.flight.retries)
    (flag : flight.retryScheduled = log.flight.retryScheduled)
    (resetting : ∀ other row, flight.calls.get? other = some row → row.phase = .resetting →
      flight.offline = false)
    (inRun : new.phase.inRun = true) (spawning : old.phase ≠ .spawning) :
    Retried ⟨flight, events, runs⟩ := by
  have going : flight.inRun := by
    rw [Flight.inRun, calls]
    exact Has.put_self inRun
  refine ⟨resetting, fun idle => absurd going idle, fun idle => absurd going idle,
    fun set => ?_⟩
  rw [flag] at set
  rcases retried.waiting set with sleeps | spawns
  · exact Or.inl (retries ▸ sleeps)
  · right
    rw [calls]
    exact spawns.put there fun met => absurd (of_decide_eq_true met) spawning

theorem get?_retry_put {retries : Table RetryId Retry} {retry : RetryId} {was now at' : Retry}
    (there : retries.get? retry = some was) (apart : at' ≠ was)
    (stands : ∃ other, retries.get? other = some at') :
    ∃ other, (retries.put retry now).get? other = some at' := by
  obtain ⟨other, found⟩ := stands
  refine ⟨other, ?_⟩
  rw [Table.get?_put_ne _ _ fun same => ?_, found]
  rw [same, there] at found
  exact apart (Option.some.inj found).symm

theorem retried_step (locked : Locked log.flight) (retried : Retried log)
    (stepped : Stepped log.flight action next)
    (noted : after = ⟨next, log.events ++ log.notes action,
      if (log.notes action).any Event.isBegan then log.runs + 1 else log.runs⟩) :
    Retried after := by
  subst noted
  have unchanged : endedOffline (log.events ++ []) = endedOffline log.events := by
    rw [List.append_nil]
  cases stepped with
  | asked fresh =>
      rw [Flight.syncNow, if_neg (by rw [locked.opened]; decide)]
      exact retried.syncNow fresh rfl unchanged rfl rfl id
  | recorded there =>
      exact retried.moved there rfl endedOffline_recorded rfl rfl id Or.inl (fun _ => rfl)
        (by rintro ⟨⟩) id (fun _ => Or.inl rfl) (by rintro ⟨⟩)
  | refused there =>
      exact retried.moved there rfl unchanged rfl rfl id Or.inl id (by rintro ⟨⟩) id
        (fun met => Bool.noConfusion met) (by rintro ⟨⟩)
  | locked there =>
      exact retried.moved there rfl unchanged rfl rfl id Or.inl id (by rintro ⟨⟩) id
        (fun met => Bool.noConfusion met) (by rintro ⟨⟩)
  | @began call result there asked =>
      refine retried.runs there rfl rfl rfl (fun other row found resets => ?_) rfl
        (by rintro ⟨⟩)
      rw [Flight.move, Table.get?_put] at found
      split at found
      case isTrue =>
        cases found
        cases resets
      case isFalse => exact retried.resetting other row found resets
  | @idle call result there quiet =>
      have notes : log.notes (.swap call) = [] := if_neg (by rw [quiet]; decide)
      rw [notes]
      exact retried.moved there rfl unchanged rfl rfl id Or.inl id (by rintro ⟨⟩) id
        (fun met => Bool.noConfusion met) (by rintro ⟨⟩)
  | @fetched call result there ending now =>
      have alone : ∀ other row, log.flight.calls.get? other = some row →
          row.phase = .resetting → other = call := fun other row found resets =>
        locked.single found there (by rw [resets]; rfl) rfl
      cases ending with
      | done =>
          exact retried.ended there rfl rfl rfl rfl alone (by rintro ⟨⟩)
            (fun met => Bool.noConfusion met) (by rintro ⟨⟩)
      | reset =>
          exact retried.runs there rfl rfl rfl (fun _ _ _ _ => rfl) rfl (by rintro ⟨⟩)
      | failed error =>
          exact retried.ended there rfl rfl rfl rfl alone (by rintro ⟨⟩) id (by rintro ⟨⟩)
  | @rowsReset call result there was =>
      have online := retried.resetting call _ there rfl
      have alone : ∀ other row, log.flight.calls.get? other = some row →
          row.phase = .resetting → other = call := fun other row found resets =>
        locked.single found there (by rw [resets]; rfl) rfl
      cases was with
      | error error =>
          exact retried.ended there rfl online rfl rfl alone (by rintro ⟨⟩) id (by rintro ⟨⟩)
      | ok was =>
          exact retried.ended there rfl online rfl rfl alone (by rintro ⟨⟩)
            (fun met => Bool.noConfusion met) (by rintro ⟨⟩)
  | unlocked there =>
      exact retried.moved there rfl unchanged rfl rfl id Or.inl id (by rintro ⟨⟩)
        (fun met => Bool.noConfusion met) (fun met => Or.inr (Or.inr met)) (by rintro ⟨⟩)
  | looped there asked =>
      exact retried.moved there rfl unchanged rfl rfl id Or.inl id (by rintro ⟨⟩) id
        (fun _ => Or.inl asked) (by rintro ⟨⟩)
  | failed there =>
      exact retried.moved there rfl unchanged rfl rfl id Or.inl id (by rintro ⟨⟩) id
        (fun met => Or.inr (Or.inr met)) (by rintro ⟨⟩)
  | left there quiet online =>
      exact retried.moved there rfl unchanged rfl rfl id Or.inl id (by rintro ⟨⟩) id
        (fun met => Bool.noConfusion (online.symm.trans met)) (by rintro ⟨⟩)
  | joined there already =>
      refine retried.moved there rfl unchanged rfl rfl id Or.inl id (by rintro ⟨⟩) id
        (fun _ => Or.inr (Or.inl ?_)) (by rintro ⟨⟩)
      rcases already with closed | set
      · exact absurd (locked.opened.symm.trans closed) (by decide)
      · exact set
  | claimed there =>
      exact retried.moved there rfl unchanged rfl rfl (fun _ => rfl) (fun _ => Or.inr rfl) id
        (by rintro ⟨⟩) id (fun _ => Or.inr (Or.inl rfl)) (by rintro ⟨⟩)
  | @spawned call result retry there fresh =>
      have sleeps : (log.flight.retries.put retry .sleeping).get? retry = some .sleeping :=
        Table.get?_put_self _ _ _
      refine ⟨fun other row found resets => ?_, fun idle => ?_, fun idle ended => ?_,
        fun _ => Or.inl ⟨retry, sleeps⟩⟩
      · rw [Flight.move, Table.get?_put] at found
        split at found
        case isTrue =>
          cases found
          cases resets
        case isFalse => exact retried.resetting other row found resets
      · refine (retried.offline fun going => idle ?_).trans unchanged.symm
        exact Has.put going there fun met => Bool.noConfusion met
      · have before : ¬ log.flight.inRun := fun going =>
          idle (Has.put going there fun met => Bool.noConfusion met)
        rcases retried.asked before (unchanged.symm.trans ended) with
          asked | set | ⟨other, woken⟩ | waits
        · exact Or.inl asked
        · exact Or.inr (Or.inl set)
        · refine Or.inr (Or.inr (Or.inl ⟨other, ?_⟩))
          have apart : other ≠ retry := by
            intro same
            rw [same, fresh] at woken
            cases woken
          exact (Table.get?_put_ne _ _ apart).trans woken
        · exact Or.inr (Or.inr (Or.inr (waits.put there fun met => Bool.noConfusion met)))
  | @woke retry slept =>
      refine ⟨retried.resetting, fun idle => (retried.offline idle).trans unchanged.symm,
        fun _ _ => ?_, fun set => Bool.noConfusion set⟩
      exact Or.inr (Or.inr (Or.inl ⟨retry, Table.get?_put_self _ _ _⟩))
  | retried woken fresh offline =>
      rw [Flight.syncNow, if_neg (by exact ne_true_of_eq_false locked.opened)]
      exact retried.syncNow fresh rfl unchanged rfl rfl
        (get?_retry_put woken (by rintro ⟨⟩))
  | settled woken online =>
      refine ⟨retried.resetting, fun idle => (retried.offline idle).trans unchanged.symm,
        fun idle ended => ?_, fun set => ?_⟩
      · have before := unchanged.symm.trans ended
        rw [← retried.offline idle, online] at before
        cases before
      · rcases retried.waiting set with sleeps | spawns
        · exact Or.inl (get?_retry_put woken (by rintro ⟨⟩) sleeps)
        · exact Or.inr spawns

/-! ### Runs -/

/-- Every call that is past its first step has recorded its request. -/
def Recorded (log : Log) : Prop :=
  ∀ call row, log.flight.calls.get? call = some row → row.phase ≠ .entering →
    .recorded call ∈ log.events

theorem Recorded.moved (recorded : Recorded log) {call : CallId} {old new : SyncCall}
    {runs : Nat} {flight : Flight} {later : List Event}
    (there : log.flight.calls.get? call = some old)
    (calls : flight.calls = log.flight.calls.put call new) (past : old.phase ≠ .entering) :
    Recorded ⟨flight, log.events ++ later, runs⟩ := by
  intro other row found apart
  rw [calls, Table.get?_put] at found
  split at found
  case isTrue same =>
    rw [same]
    exact List.mem_append_left _ (recorded call old there past)
  case isFalse => exact List.mem_append_left _ (recorded other row found apart)

theorem Recorded.syncNow (recorded : Recorded log) {call : CallId} {runs : Nat}
    {flight : Flight} {later : List Event} {result : Outcome}
    (calls : flight.calls = log.flight.calls.put call ⟨.entering, result⟩) :
    Recorded ⟨flight, log.events ++ later, runs⟩ := by
  intro other row found apart
  rw [calls, Table.get?_put] at found
  split at found
  case isTrue =>
    cases found
    exact absurd rfl apart
  case isFalse => exact List.mem_append_left _ (recorded other row found apart)

theorem recorded_step (locked : Locked log.flight) (recorded : Recorded log)
    (stepped : Stepped log.flight action next)
    (noted : after = ⟨next, log.events ++ log.notes action,
      if (log.notes action).any Event.isBegan then log.runs + 1 else log.runs⟩) :
    Recorded after := by
  subst noted
  cases stepped with
  | asked fresh =>
      rw [Flight.syncNow, if_neg (by exact ne_true_of_eq_false locked.opened)]
      exact recorded.syncNow rfl
  | @recorded call result there =>
      intro other row found apart
      rw [Flight.move, Table.get?_put] at found
      split at found
      case isTrue same =>
        rw [same]
        exact List.mem_append_right _ (List.mem_singleton_self _)
      case isFalse => exact List.mem_append_left _ (recorded other row found apart)
  | refused there => exact recorded.moved there rfl (by rintro ⟨⟩)
  | locked there => exact recorded.moved there rfl (by rintro ⟨⟩)
  | began there => exact recorded.moved there rfl (by rintro ⟨⟩)
  | idle there => exact recorded.moved there rfl (by rintro ⟨⟩)
  | fetched there ending =>
      cases ending with
      | done => exact recorded.moved there rfl (by rintro ⟨⟩)
      | reset => exact recorded.moved there rfl (by rintro ⟨⟩)
      | failed => exact recorded.moved there rfl (by rintro ⟨⟩)
  | rowsReset there was =>
      cases was with
      | error => exact recorded.moved there rfl (by rintro ⟨⟩)
      | ok => exact recorded.moved there rfl (by rintro ⟨⟩)
  | unlocked there => exact recorded.moved there rfl (by rintro ⟨⟩)
  | looped there => exact recorded.moved there rfl (by rintro ⟨⟩)
  | failed there => exact recorded.moved there rfl (by rintro ⟨⟩)
  | left there => exact recorded.moved there rfl (by rintro ⟨⟩)
  | joined there => exact recorded.moved there rfl (by rintro ⟨⟩)
  | claimed there => exact recorded.moved there rfl (by rintro ⟨⟩)
  | spawned there => exact recorded.moved there rfl (by rintro ⟨⟩)
  | woke => exact fun call row found apart => List.mem_append_left _ (recorded call row found apart)
  | retried =>
      rw [Flight.syncNow, if_neg (by exact ne_true_of_eq_false locked.opened)]
      exact recorded.syncNow rfl
  | settled =>
      exact fun call row found apart => List.mem_append_left _ (recorded call row found apart)

structure Sound (log : Log) : Prop where
  locked : Locked log.flight
  attended : log.flight.again = true → log.flight.attended
  requested : Requested log
  retried : Retried log
  recorded : Recorded log

theorem Sound.start : Sound Log.start where
  locked := {
    opened := rfl
    owner := fun _ _ found => (by cases found)
    owned := fun _ owns => (by cases owns) }
  attended asked := Bool.noConfusion asked
  requested _ recorded := absurd recorded List.not_mem_nil
  retried := {
    resetting := fun _ _ found => (by cases found)
    offline := fun _ => rfl
    asked := fun _ ended => Bool.noConfusion ended
    waiting := fun set => Bool.noConfusion set }
  recorded _ _ found := (by cases found)

theorem Sound.step (sound : Sound log) (stepped : log.step action = some after) :
    Sound after := by
  obtain ⟨flight, moved, noted⟩ := Log.step_eq_some.mp stepped
  have cases := Flight.step_cases moved
  have kept := requested_step sound.locked sound.requested cases noted
  have retried := retried_step sound.locked sound.retried cases noted
  have recorded := recorded_step sound.locked sound.recorded cases noted
  subst noted
  exact ⟨sound.locked.step cases, attended_step sound.locked sound.attended cases, kept,
    retried, recorded⟩

/-- No call is going on, and no retry is about to make one. -/
structure AllReturned (flight : Flight) : Prop where
  calls : ∀ call row, flight.calls.get? call = some row → row.phase = .returned
  retries : ∀ retry, flight.retries.get? retry ≠ some .woken

theorem AllReturned.none (all : AllReturned flight) {test : SyncCall → Bool}
    (misses : ∀ result, test ⟨.returned, result⟩ = false) : ¬ Has flight.calls test := by
  rintro ⟨call, ⟨phase, result⟩, found, meets⟩
  obtain rfl : phase = .returned := all.calls call _ found
  rw [misses result] at meets
  cases meets

/-- Two runs are never in progress together; once every call has returned, each of them is
covered by a run that began after its request; and a retry waits if the last run could not
reach the server. -/
theorem requests_are_covered (actions : List Action) (log : Log)
    (reached : Transition.run Log.step Log.start actions = some log) :
    (∀ first second a b, log.flight.calls.get? first = some a →
        log.flight.calls.get? second = some b → a.phase.inRun = true →
        b.phase.inRun = true → first = second) ∧
      (AllReturned log.flight → ∀ call, log.flight.calls.contains call = true →
        Covered log.events call) ∧
      (AllReturned log.flight → endedOffline log.events = true →
        log.flight.retryScheduled = true ∧
          ∃ retry, log.flight.retries.get? retry = some .sleeping) := by
  have sound : Sound log :=
    Transition.run_invariant_of_step (fun sound stepped => Sound.step sound stepped)
      Sound.start reached
  have quiet : AllReturned log.flight → log.flight.again = false := by
    intro all
    rw [Bool.eq_false_iff]
    exact fun asked => all.none (fun _ => rfl) (sound.attended asked)
  refine ⟨fun _ _ _ _ => sound.locked.single, fun all call there => ?_, fun all ended => ?_⟩
  · obtain ⟨row, found⟩ := Option.isSome_iff_exists.mp there
    have past : row.phase ≠ .entering := by
      rw [all.calls call row found]
      rintro ⟨⟩
    cases sound.requested call (sound.recorded call row found past) with
    | asked asked =>
        rw [quiet all] at asked
        cases asked
    | going going => exact absurd going (all.none fun _ => rfl)
    | covered covered => exact covered
  · have set : log.flight.retryScheduled = true := by
      rcases sound.retried.asked (all.none fun _ => rfl) ended with
        asked | set | ⟨retry, woken⟩ | waits
      · rw [quiet all] at asked
        cases asked
      · exact set
      · exact absurd woken (all.retries retry)
      · exact absurd waits (all.none fun _ => rfl)
    refine ⟨set, ?_⟩
    rcases sound.retried.waiting set with sleeps | spawns
    · exact sleeps
    · exact absurd spawns (all.none fun _ => rfl)

/-- A run without network is followed by one that works, for another call that came. -/
def backOnline : List Action :=
  [.ask 1, .record 1, .tryLock 1, .swap 1, .ask 2, .record 2, .tryLock 2,
    .fetched 1 (.failed (.net .http)) 0, .unlock 1, .check 1, .tryLock 1, .swap 1,
    .fetched 1 .done 1, .swap 1, .unlock 1, .check 1]

theorem AllReturned.of_rows
    (calls : flight.calls.rows.all (fun entry => entry.2.phase = .returned) = true)
    (retries : flight.retries.rows.all (fun entry => entry.2 ≠ .woken) = true) :
    AllReturned flight where
  calls call row found := by
    rw [List.all_eq_true] at calls
    exact of_decide_eq_true (calls (call, row) (Table.mem_rows.mpr found))
  retries retry found := by
    rw [List.all_eq_true] at retries
    exact of_decide_eq_true (retries (retry, .woken) (Table.mem_rows.mpr found)) rfl

theorem backOnline_returned {log : Log}
    (reached : Transition.run Log.step Log.start backOnline = some log) :
    AllReturned log.flight := by
  have calls : (Transition.run Log.step Log.start backOnline).all (fun log =>
      log.flight.calls.rows.all fun entry => entry.2.phase = .returned) = true := rfl
  have retries : (Transition.run Log.step Log.start backOnline).all (fun log =>
      log.flight.retries.rows.all fun entry => entry.2 ≠ .woken) = true := rfl
  rw [reached, Option.all_some] at calls retries
  exact AllReturned.of_rows calls retries

theorem no_retry_after_failure : ∃ log before run error later,
    Transition.run Log.step Log.start backOnline = some log ∧ AllReturned log.flight ∧
      log.events = before ++ .ended run (.error error) :: later ∧
      isNetworkFailure error = true ∧ endedOffline later = false ∧
      log.flight.retryScheduled = false ∧ log.flight.retries = ∅ :=
  ⟨_, [.recorded 1, .began 1, .recorded 2], 1, .net .http, [.began 2, .ended 2 (.ok ())],
    rfl, backOnline_returned rfl, rfl, rfl, rfl, rfl, rfl⟩

/-- The run that works covers both calls. -/
theorem backOnline_covered : ∃ log,
    Transition.run Log.step Log.start backOnline = some log ∧ Covered log.events 1 ∧
      Covered log.events 2 :=
  ⟨_, rfl, (requests_are_covered backOnline _ rfl).2.1 (backOnline_returned rfl) 1 rfl,
    (requests_are_covered backOnline _ rfl).2.1 (backOnline_returned rfl) 2 rfl⟩

end Brook.SyncNow
