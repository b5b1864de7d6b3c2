import Brook.Calls.Locks

namespace Brook.Calls

variable {manager rest : CallManager} {id : TaskId} {task : Task}

/-! ### One case analysis for every invariant -/

/-- The join behind a task that has passed the membership check. -/
def Task.admitted : Task → Option Join
  | .member join => some join
  | .waiting join => some join
  | .creating join => some join
  | .seating join _ => some join
  | _ => none

/-- The steps that move a join on, end memberships, write the dictionaries or
give a participant a socket. -/
def CallAction.plain : CallAction → Bool
  | .removeMember _ _ _ | .deleteChannel _ _ | .checkMember _ | .checkChannel _
  | .enter _ | .created _ | .seat _ | .giveUp _ | .settle _ | .runResume _
  | .janusLost _ => false
  | _ => true

/-- The task that starts or runs on. -/
def CallAction.runs : CallAction → Option TaskId
  | .createChannel _ | .setArchived _ _ | .addMember _ _ | .disconnect _ => none
  | .removeMember id _ _ | .deleteChannel id _ | .runEnd id | .join id _
  | .checkMember id | .checkChannel id | .enter id | .created id | .seat id
  | .seatFails id | .giveUp id | .release id | .raise id | .leave id _ _
  | .graceExpires id _ _ | .takeOut id | .settle id | .resume id _
  | .runResume id | .janusLost id | .loseNext id => some id

/-- What holds on through everything the plain steps do with tasks of `mine`. -/
structure Closed (mine : TaskId → Prop) (inv : CallManager → Prop) : Prop where
  sound : ∀ {manager}, inv manager → Sound manager
  tables : ∀ {manager members channels}, inv manager →
    manager.members ⊆ members → inv { manager with members, channels }
  finish : ∀ {manager id}, mine id → inv manager → inv (manager.finish id)
  setTask : ∀ {manager id task}, mine id → inv manager → task.admitted = none →
    Sound (manager.setTask id task) → inv (manager.setTask id task)
  lock : ∀ {manager channel}, inv manager → Unheld manager channel →
    ∀ id, inv (manager.lock id channel)
  unlock : ∀ {manager channel}, inv manager → Unheld manager channel →
    inv (manager.unlock channel)
  shrink : ∀ {manager call old row}, inv manager →
    manager.calls.get? call = some old → row.Within old →
    inv (manager.setCall call row)
  disconnect : ∀ {manager} conn, inv manager →
    inv { manager with
      calls := manager.calls.mapRows fun id row =>
        if id ∈ manager.byId then row.onDisconnect conn else row }

namespace Closed

variable {mine : TaskId → Prop} {inv : CallManager → Prop}
variable {next : CallManager}

theorem setIdle (closed : Closed mine inv) (own : mine id) (kept : inv manager)
    (plain : task.admitted = none) (holds : task.holds = none)
    (target : task.target = none) : inv (manager.setTask id task) :=
  closed.setTask own kept plain ((closed.sound kept).setIdle holds target)

theorem spawn (closed : Closed mine inv) (own : mine id) (kept : inv manager)
    (plain : task.admitted = none) (holds : task.holds = none)
    (target : task.target = none) (taken : manager.spawn id task = some next) :
    inv next := by
  obtain ⟨-, rfl⟩ := spawn_eq_some.mp taken
  exact closed.setIdle own kept plain holds target

/-- A task that waits for the lock to remove a participant of a call. -/
theorem setRemoving (closed : Closed mine inv) (own : mine id)
    (kept : inv manager)
    {channel : ChannelId} {call : CallId} {p : ParticipantId}
    {onlyIfDetached : Bool} {left : List ParticipantId}
    (aimed : ∃ row, manager.calls.get? call = some row ∧
      row.channelId = channel) :
    inv (manager.setTask id (.removing channel call p onlyIfDetached left)) := by
  refine closed.setTask own kept rfl ((closed.sound kept).setTask ?_ ?_)
  · intro _ impossible
    cases impossible
  · intro _ _ aims
    cases aims
    exact aimed

theorem continueWith (closed : Closed mine inv) (own : mine id)
    (kept : inv manager) {channel : ChannelId} {call : CallId}
    (aimed : ∃ row, manager.calls.get? call = some row ∧ row.channelId = channel)
    (left : List ParticipantId) :
    inv (manager.continueWith id channel call left) := by
  cases left with
  | nil => exact kept
  | cons p left => exact closed.setRemoving own kept aimed

/-- The end of a removal, and of a join that the SFU refused. -/
theorem setClosing (closed : Closed mine inv) (own : mine id)
    {channel : ChannelId} {call : CallId}
    (kept : inv (manager.destroyIfEmpty channel call))
    (held : manager.locks.get? channel = some id)
    (aimed : ∃ row, manager.calls.get? call = some row ∧ row.channelId = channel)
    (left : List ParticipantId) :
    inv ((manager.destroyIfEmpty channel call).setTask id
      (.closing channel call left)) := by
  refine closed.setTask own kept rfl ((closed.sound kept).setTask ?_ ?_)
  · intro _ holds
    cases holds
    simpa using held
  · intro _ _ aims
    cases aims
    simpa using aimed

theorem stopGrace (closed : Closed mine inv) (kept : inv manager) (call : CallId)
    (p : ParticipantId) : inv (manager.stopGrace call p) := by
  unfold CallManager.stopGrace
  split
  case h_1 => exact kept
  case h_2 stored =>
    exact closed.shrink kept stored
      (Call.Within.update (fun _ => rfl) fun _ => rfl)

theorem endParticipants (closed : Closed mine inv) (own : mine id)
    (kept : inv manager) (channel : ChannelId) (ends : UserId → Bool) :
    inv (manager.endParticipants id channel ends) := by
  unfold CallManager.endParticipants
  split
  case h_1 => exact kept
  case h_2 call registered =>
    have known := (closed.sound kept).known channel call registered
    split
    case h_1 => exact kept
    case h_2 => exact closed.continueWith own kept known _

theorem takeOut (closed : Closed mine inv) (own : mine id) (kept : inv manager)
    {channel : ChannelId} {call : CallId} {p : ParticipantId}
    {onlyIfDetached : Bool} {left : List ParticipantId}
    (unheld : Unheld manager channel)
    (aimed : ∃ row, manager.calls.get? call = some row ∧ row.channelId = channel) :
    inv (manager.takeOut id channel call p onlyIfDetached left) := by
  have skipped := closed.continueWith own kept aimed left
  obtain ⟨row, stored, ours⟩ := aimed
  unfold CallManager.takeOut
  simp only [stored]
  split
  case h_1 => exact skipped
  case h_2 =>
    split
    case isTrue => exact skipped
    case isFalse =>
      have popped := closed.shrink kept stored (Call.Within.pop p)
      have locked := closed.lock popped unheld id
      refine closed.setTask own locked rfl ((closed.sound locked).setTask ?_ ?_)
      · intro _ holds
        cases holds
        exact Table.get?_put_self _ _ _
      · intro _ _ aims
        cases aims
        exact ⟨row.pop p, Table.get?_put_self _ _ _, ours⟩

/-- A task is taken off, with what it held. -/
theorem pop (closed : Closed mine inv) (own : mine id) (kept : inv manager)
    (popped : manager.popTask id = some (task, rest)) :
    inv rest ∧ manager.tasks.get? id = some task ∧
      (∀ channel, task.holds = some channel →
        Unheld rest channel ∧ rest.locks.get? channel = some id) ∧
      ∀ channel call, task.target = some (channel, call) →
        ∃ row, rest.calls.get? call = some row ∧ row.channelId = channel := by
  obtain ⟨stored, rfl⟩ := popTask_eq_some.mp popped
  have sound := closed.sound kept
  refine ⟨closed.finish own kept, stored, ?_, ?_⟩
  · intro channel holds
    exact ⟨unheld_of_holder sound stored holds,
      sound.held id task channel stored holds⟩
  · intro channel call aims
    exact sound.target id task channel call stored aims

theorem step (closed : Closed mine inv) (kept : inv manager)
    {action : CallAction} (own : ∀ id, action.runs = some id → mine id)
    (plain : action.plain = true)
    (taken : callStep manager action = some next) : inv next := by
  cases action with
  | createChannel channel =>
      simp only [callStep] at taken
      split at taken
      case isTrue => cases taken
      case isFalse =>
        cases taken
        exact closed.tables kept (List.Subset.refl _)
  | setArchived channel archived =>
      simp only [callStep] at taken
      split at taken
      case isTrue =>
        cases taken
        exact closed.tables kept (List.Subset.refl _)
      case isFalse => cases taken
  | addMember channel user =>
      simp only [callStep] at taken
      split at taken
      case isTrue =>
        cases taken
        exact closed.tables kept (List.subset_cons_self _ _)
      case isFalse => cases taken
  | runEnd id =>
      simp only [callStep] at taken
      split at taken
      case h_1 popped =>
        cases taken
        exact closed.endParticipants (own id rfl)
          (closed.pop (own id rfl) kept popped).1 _ _
      case h_2 popped =>
        cases taken
        exact closed.endParticipants (own id rfl)
          (closed.pop (own id rfl) kept popped).1 _ _
      case h_3 => cases taken
  | join id join => exact closed.spawn (own id rfl) kept rfl rfl rfl taken
  | seatFails id =>
      simp only [callStep] at taken
      split at taken
      case h_1 popped =>
        cases taken
        obtain ⟨left, -, held, aimed⟩ := closed.pop (own id rfl) kept popped
        refine closed.setTask (own id rfl) left rfl ((closed.sound left).setTask ?_ ?_)
        · intro channel holds
          cases holds
          exact (held _ rfl).2
        · intro channel call aims
          cases aims
          exact aimed _ _ rfl
      case h_2 => cases taken
  | release id =>
      simp only [callStep] at taken
      split at taken
      case h_1 popped =>
        cases taken
        obtain ⟨left, -, held, aimed⟩ := closed.pop (own id rfl) kept popped
        exact closed.continueWith (own id rfl)
          (closed.unlock left (held _ rfl).1) (aimed _ _ rfl) _
      case h_2 => cases taken
  | raise id =>
      simp only [callStep] at taken
      split at taken
      case h_1 popped =>
        cases taken
        exact (closed.pop (own id rfl) kept popped).1
      case h_2 popped =>
        obtain ⟨left, -, held, -⟩ := closed.pop (own id rfl) kept popped
        obtain ⟨channel, holds, rfl⟩ := Option.map_eq_some_iff.mp taken
        exact closed.unlock left (held channel holds).1
      case h_3 => cases taken
  | leave id conn call =>
      simp only [callStep] at taken
      split at taken
      case isTrue =>
        split at taken
        case h_1 => cases taken
        case h_2 row stored =>
          split at taken
          case h_1 => cases taken
          case h_2 =>
            obtain ⟨-, rfl⟩ := spawn_eq_some.mp taken
            exact closed.setRemoving (own id rfl) kept ⟨row, stored, rfl⟩
      case isFalse => cases taken
  | graceExpires id call p =>
      simp only [callStep] at taken
      split at taken
      case h_1 => cases taken
      case h_2 row stored =>
        split at taken
        case isTrue =>
          obtain ⟨-, rfl⟩ := spawn_eq_some.mp taken
          refine closed.setRemoving (own id rfl)
            (closed.stopGrace kept call p) ?_
          simp only [CallManager.stopGrace, stored]
          exact ⟨_, Table.get?_put_self _ _ _, rfl⟩
        case isFalse => cases taken
  | takeOut id =>
      simp only [callStep] at taken
      split at taken
      case h_1 popped =>
        split at taken
        case isTrue free =>
          cases taken
          obtain ⟨left, -, -, aimed⟩ := closed.pop (own id rfl) kept popped
          obtain ⟨-, rfl⟩ := popTask_eq_some.mp popped
          have unheld := unheld_of_free (closed.sound kept) free
          exact closed.takeOut (own id rfl) left unheld.finish (aimed _ _ rfl)
        case isFalse => cases taken
      case h_2 => cases taken
  | disconnect conn =>
      cases taken
      exact closed.disconnect conn kept
  | resume id resume =>
      simp only [callStep] at taken
      split at taken
      case isTrue => exact closed.spawn (own id rfl) kept rfl rfl rfl taken
      case isFalse => cases taken
  | loseNext id =>
      simp only [callStep] at taken
      split at taken
      case h_1 popped =>
        cases taken
        exact (closed.pop (own id rfl) kept popped).1
      case h_2 popped =>
        cases taken
        have left := (closed.pop (own id rfl) kept popped).1
        exact closed.setIdle (own id rfl) (closed.stopGrace left _ _) rfl rfl rfl
      case h_3 => cases taken
  | _ => cases plain

end Closed

/-- What is left to show for the other steps, each where its guard holds. -/
structure Carried (mine : TaskId → Prop) (inv : CallManager → Prop)
    (guard : CallManager → CallAction → Prop) : Prop where
  removeMember : ∀ {manager id channel user}, inv manager →
    guard manager (.removeMember id channel user) →
    inv { manager with
      members := manager.members.filter (· ≠ (channel, user)) }
  deleteChannel : ∀ {manager id channel}, inv manager →
    guard manager (.deleteChannel id channel) →
    inv { manager with
      channels := manager.channels.filter fun other _ => other ≠ channel
      members := manager.members.filter (·.1 ≠ channel) }
  checkMember : ∀ {manager id join}, mine id → inv manager →
    (join.channel, join.user) ∈ manager.members →
    inv (manager.setTask id (.member join))
  checkChannel : ∀ {manager id join}, mine id → inv manager →
    manager.tasks.get? id = some (.member join) →
    inv (manager.finish id) →
    inv ((manager.finish id).setTask id (.waiting join))
  enter : ∀ {manager id join}, mine id → inv manager →
    manager.tasks.get? id = some (.waiting join) →
    inv (manager.finish id) → Unheld (manager.finish id) join.channel →
    inv ((manager.finish id).enter id join)
  created : ∀ {manager id join}, mine id → inv manager →
    manager.tasks.get? id = some (.creating join) →
    inv (manager.finish id) → Unheld (manager.finish id) join.channel →
    manager.locks.get? join.channel = some id →
    inv ((manager.finish id).created id join)
  seat : ∀ {manager id join call row}, inv manager →
    manager.tasks.get? id = some (.seating join call) →
    inv (manager.finish id) → Unheld (manager.finish id) join.channel →
    manager.calls.get? call = some row → row.channelId = join.channel →
    inv ((manager.finish id).seat join call row)
  settle : ∀ {manager id channel call left}, inv manager →
    guard manager (.settle id) →
    manager.tasks.get? id = some (.removed channel call left) →
    inv (manager.finish id) →
    (∃ row, manager.calls.get? call = some row ∧ row.channelId = channel) →
    inv ((manager.finish id).destroyIfEmpty channel call)
  giveUp : ∀ {manager id channel call}, inv manager →
    guard manager (.giveUp id) →
    manager.tasks.get? id = some (.refused channel call) →
    inv (manager.finish id) →
    (∃ row, manager.calls.get? call = some row ∧ row.channelId = channel) →
    inv ((manager.finish id).destroyIfEmpty channel call)
  runResume : ∀ {manager id resume row}, inv manager →
    guard manager (.runResume id) →
    manager.tasks.get? id = some (.resuming resume) →
    inv (manager.finish id) → manager.free row.channelId = true →
    Unheld (manager.finish id) row.channelId →
    manager.calls.get? resume.call = some row →
    inv ((manager.finish id).runResume resume row)
  janusLost : ∀ {manager}, inv manager →
    inv { manager with
      byChannel := ∅
      byId := [] }

/-- Every step keeps the invariant, by one lemma for each that is not plain. -/
theorem Closed.step_of_carried {mine : TaskId → Prop}
    {inv : CallManager → Prop} {guard : CallManager → CallAction → Prop}
    {next : CallManager} (closed : Closed mine inv)
    (carried : Carried mine inv guard) (kept : inv manager)
    {action : CallAction} (own : ∀ id, action.runs = some id → mine id)
    (guarded : guard manager action)
    (taken : callStep manager action = some next) : inv next := by
  cases plain : action.plain with
  | true => exact closed.step kept own plain taken
  | false =>
      have sound := closed.sound kept
      cases action with
      | removeMember id channel user =>
          simp only [callStep] at taken
          split at taken
          case isTrue =>
            have removed := carried.removeMember kept guarded
            exact closed.spawn (own id rfl) removed rfl rfl rfl taken
          case isFalse => cases taken
      | deleteChannel id channel =>
          simp only [callStep] at taken
          split at taken
          case isTrue =>
            have deleted := carried.deleteChannel kept guarded
            exact closed.spawn (own id rfl) deleted rfl rfl rfl taken
          case isFalse => cases taken
      | checkMember id =>
          simp only [callStep] at taken
          split at taken
          case h_1 popped =>
            have left := (closed.pop (own id rfl) kept popped).1
            obtain ⟨-, rfl⟩ := popTask_eq_some.mp popped
            split at taken
            case isTrue isMember =>
              cases taken
              exact carried.checkMember (own id rfl) left isMember
            case isFalse =>
              cases taken
              exact left
          case h_2 => cases taken
      | checkChannel id =>
          simp only [callStep] at taken
          split at taken
          case h_1 popped =>
            obtain ⟨left, running, -, -⟩ := closed.pop (own id rfl) kept popped
            obtain ⟨-, rfl⟩ := popTask_eq_some.mp popped
            split at taken
            case isTrue =>
              cases taken
              exact carried.checkChannel (own id rfl) kept running left
            case isFalse =>
              cases taken
              exact left
          case h_2 => cases taken
      | enter id =>
          simp only [callStep] at taken
          split at taken
          case h_1 popped =>
            split at taken
            case isTrue free =>
              cases taken
              obtain ⟨left, running, -, -⟩ :=
                closed.pop (own id rfl) kept popped
              obtain ⟨-, rfl⟩ := popTask_eq_some.mp popped
              exact carried.enter (own id rfl) kept running left
                (unheld_of_free sound free).finish
            case isFalse => cases taken
          case h_2 => cases taken
      | created id =>
          simp only [callStep] at taken
          split at taken
          case h_1 popped =>
            cases taken
            obtain ⟨left, running, held, -⟩ :=
              closed.pop (own id rfl) kept popped
            obtain ⟨-, rfl⟩ := popTask_eq_some.mp popped
            obtain ⟨unheld, holder⟩ := held _ rfl
            exact carried.created (own id rfl) kept running left unheld holder
          case h_2 => cases taken
      | seat id =>
          simp only [callStep] at taken
          split at taken
          case h_1 popped =>
            obtain ⟨left, running, held, aimed⟩ :=
              closed.pop (own id rfl) kept popped
            obtain ⟨-, rfl⟩ := popTask_eq_some.mp popped
            obtain ⟨row, stored, rfl⟩ := Option.map_eq_some_iff.mp taken
            obtain ⟨_, same, ours⟩ := aimed _ _ rfl
            rw [show manager.calls.get? _ = _ from same, Option.some.injEq]
              at stored
            subst stored
            exact carried.seat kept running left (held _ rfl).1 same ours
          case h_2 => cases taken
      | giveUp id =>
          simp only [callStep] at taken
          split at taken
          case h_1 popped =>
            cases taken
            obtain ⟨left, running, held, aimed⟩ :=
              closed.pop (own id rfl) kept popped
            obtain ⟨-, rfl⟩ := popTask_eq_some.mp popped
            have destroyed := carried.giveUp kept guarded running left
              (aimed _ _ rfl)
            exact closed.setClosing (own id rfl) destroyed (held _ rfl).2
              (aimed _ _ rfl) _
          case h_2 => cases taken
      | settle id =>
          simp only [callStep] at taken
          split at taken
          case h_1 popped =>
            cases taken
            obtain ⟨left, running, held, aimed⟩ :=
              closed.pop (own id rfl) kept popped
            obtain ⟨-, rfl⟩ := popTask_eq_some.mp popped
            have destroyed := carried.settle kept guarded running left
              (aimed _ _ rfl)
            exact closed.setClosing (own id rfl) destroyed (held _ rfl).2
              (aimed _ _ rfl) _
          case h_2 => cases taken
      | runResume id =>
          simp only [callStep] at taken
          split at taken
          case h_1 popped =>
            obtain ⟨left, running, -, -⟩ := closed.pop (own id rfl) kept popped
            obtain ⟨-, rfl⟩ := popTask_eq_some.mp popped
            split at taken
            case h_1 => cases taken
            case h_2 row stored =>
              split at taken
              case isTrue free =>
                cases taken
                exact carried.runResume kept guarded running left free
                  (unheld_of_free sound free).finish stored
              case isFalse => cases taken
          case h_2 => cases taken
      | janusLost id =>
          obtain ⟨-, rfl⟩ := spawn_eq_some.mp taken
          exact closed.setIdle (own id rfl) (carried.janusLost kept) rfl rfl rfl
      | _ => cases plain

end Brook.Calls
