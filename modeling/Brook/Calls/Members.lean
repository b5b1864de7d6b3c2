import Brook.Calls.Steps
import Brook.Transition.Run

namespace Brook.Calls

open Transition

/-! Who is in a channel's call, and who is in the channel. -/

/-- With no command, removal or spawned task pending, each participant of each
registered call is a member of its channel. -/
def MembersOnly (manager : CallManager) : Prop :=
  manager.tasks.rows = [] →
  ∀ channel id call p row, manager.byChannel.get? channel = some id →
    manager.calls.get? id = some call →
    call.participants.get? p = some row →
    (channel, row.userId) ∈ manager.members

/-- What the loop of `end_for_user` or `end_channel` has left. -/
def Task.left : Task → List ParticipantId
  | .removed _ _ left => left
  | .closing _ _ left => left
  | _ => []

/-- A membership does not end while a join of that user for the channel is
between its check and its registration, and no loop is cut short. -/
def JoinsSettled (manager : CallManager) : CallAction → Prop
  | .removeMember _ channel user =>
      ∀ task ∈ manager.tasks.values, ∀ join ∈ task.admitted,
        join.channel = channel → join.user ≠ user
  | .deleteChannel _ channel =>
      ∀ task ∈ manager.tasks.values, ∀ join ∈ task.admitted,
        join.channel ≠ channel
  | .raise id => ∀ task ∈ manager.tasks.get? id, task.left = []
  | _ => True

instance (manager : CallManager) (action : CallAction) :
    Decidable (JoinsSettled manager action) :=
  match action with
  | .removeMember _ channel user =>
      inferInstanceAs (Decidable
        (∀ task ∈ manager.tasks.values, ∀ join ∈ task.admitted,
          join.channel = channel → join.user ≠ user))
  | .deleteChannel _ channel =>
      inferInstanceAs (Decidable
        (∀ task ∈ manager.tasks.values, ∀ join ∈ task.admitted,
          join.channel ≠ channel))
  | .raise id =>
      inferInstanceAs (Decidable
        (∀ task ∈ manager.tasks.get? id, task.left = []))
  | .createChannel _ | .setArchived _ _ | .addMember _ _ | .runEnd _ | .join _ _
  | .checkMember _ | .checkChannel _ | .enter _ | .created _ | .seat _
  | .seatFails _ | .giveUp _ | .release _ | .leave _ _ _ | .graceExpires _ _ _
  | .takeOut _ | .settle _ | .disconnect _ | .resume _ _ | .runResume _
  | .janusLost _ | .loseNext _ => isTrue trivial

/-- The task is going to take the participant out of the call. -/
def Task.Dooms (task : Task) (channel : ChannelId) (call : CallId)
    (p : ParticipantId) (user : UserId) : Prop :=
  match task with
  | .endUser other ended => other = channel ∧ ended = user
  | .endChannel other => other = channel
  | .removing _ other q onlyIfDetached left =>
      other = call ∧ (q = p ∧ onlyIfDetached = false ∨ p ∈ left)
  | .removed _ other left => other = call ∧ p ∈ left
  | .closing _ other left => other = call ∧ p ∈ left
  | _ => False

def Doomed (manager : CallManager) (channel : ChannelId) (call : CallId)
    (p : ParticipantId) (user : UserId) : Prop :=
  ∃ id task, manager.tasks.get? id = some task ∧ task.Dooms channel call p user

/-- Admitted joins are of members; so are the participants of registered calls,
apart from those in `doomed`. -/
structure Covered
    (doomed : ChannelId → CallId → ParticipantId → UserId → Prop)
    (manager : CallManager) : Prop where
  sound : Sound manager
  admitted : ∀ id task join, manager.tasks.get? id = some task →
    task.admitted = some join → (join.channel, join.user) ∈ manager.members
  participants : ∀ channel id call p row,
    manager.byChannel.get? channel = some id →
    manager.calls.get? id = some call →
    call.participants.get? p = some row →
    (channel, row.userId) ∈ manager.members ∨ doomed channel id p row.userId

variable {manager rest next : CallManager} {id : TaskId} {task : Task}
variable {doomed : ChannelId → CallId → ParticipantId → UserId → Prop}

namespace Covered

theorem setTask (covered : Covered doomed manager)
    (sound : Sound (manager.setTask id task))
    (admitted : ∀ join, task.admitted = some join →
      (join.channel, join.user) ∈ manager.members) :
    Covered doomed (manager.setTask id task) where
  sound := sound
  admitted := by
    intro other current join stored past
    obtain ⟨-, rfl⟩ | earlier := mem_setTask stored
    · exact admitted join past
    · exact covered.admitted other current join earlier past
  participants := covered.participants

/-- A call is written, with participants that it had or that are members. -/
theorem setCall (covered : Covered doomed manager) {call : CallId}
    {old row : Call} (stored : manager.calls.get? call = some old)
    (ours : row.channelId = old.channelId)
    (kept : ∀ p new, row.participants.get? p = some new →
      (old.channelId, new.userId) ∈ manager.members ∨
        ∃ earlier, old.participants.get? p = some earlier ∧
          new.userId = earlier.userId) :
    Covered doomed (manager.setCall call row) where
  sound := covered.sound.setCall stored row ours
  admitted := covered.admitted
  participants := by
    intro channel id current p new registered found member
    simp only [CallManager.setCall, Table.get?_put] at found
    split at found
    case isTrue this =>
      cases found
      subst this
      obtain ⟨_, again, same⟩ := covered.sound.known channel id registered
      rw [stored, Option.some.injEq] at again
      subst again
      obtain isMember | ⟨earlier, was, user⟩ := kept p new member
      · left
        rw [← same]
        exact isMember
      · rw [user]
        exact covered.participants channel id old p earlier registered stored was
    case isFalse =>
      exact covered.participants channel id current p new registered found member

theorem disconnect (covered : Covered doomed manager) (conn : SocketId) :
    Covered doomed { manager with
      calls := manager.calls.mapRows fun id row =>
        if id ∈ manager.byId then row.onDisconnect conn else row } where
  sound := covered.sound.disconnect conn
  admitted := covered.admitted
  participants := by
    intro channel id call p row registered found member
    rw [Table.get?_mapRows, Option.map_eq_some_iff] at found
    obtain ⟨old, stored, rfl⟩ := found
    have within : Call.Within (if id ∈ manager.byId then old.onDisconnect conn
        else old) old := by
      split
      · exact Call.Within.onDisconnect conn
      · exact Call.Within.refl old
    obtain ⟨earlier, was, user, -⟩ := within.kept p row member
    rw [user]
    exact covered.participants channel id old p earlier registered stored was

theorem later (covered : Covered doomed manager) {fresh : Nat}
    (grows : manager.fresh ≤ fresh) : Covered doomed { manager with fresh } :=
  { covered with sound := covered.sound.later grows }

/-- The dictionaries only lose calls. -/
theorem dropCalls (covered : Covered doomed manager)
    {byChannel : Table ChannelId CallId} {byId : List CallId}
    (sound : Sound { manager with byChannel, byId })
    (fewer : ∀ channel id, byChannel.get? channel = some id →
      manager.byChannel.get? channel = some id) :
    Covered doomed { manager with byChannel, byId } where
  sound := sound
  admitted := covered.admitted
  participants := fun channel id call p row registered =>
    covered.participants channel id call p row (fewer channel id registered)

end Covered

theorem closed_covered : Closed (fun _ => True) (Covered doomed) where
  sound := Covered.sound
  tables := fun covered grown =>
    { sound := { covered.sound with }
      admitted := fun id task join stored past =>
        grown (covered.admitted id task join stored past)
      participants := fun channel id call p row registered stored member =>
        (covered.participants channel id call p row registered stored member).imp
          (fun isMember => grown isMember) fun known => known }
  finish := fun {_ id} _ covered =>
    { covered with
      sound := covered.sound.finish id
      admitted := fun other task join stored =>
        covered.admitted other task join (mem_finish.mp stored).1 }
  setTask := by
    intro manager id task _ covered plain sound
    refine covered.setTask sound ?_
    intro join past
    rw [plain] at past
    cases past
  lock := fun covered unheld id =>
    { covered with sound := covered.sound.lock unheld id }
  unlock := fun covered unheld =>
    { covered with sound := covered.sound.unlock unheld }
  shrink := by
    intro manager call old row covered stored within
    refine covered.setCall stored within.channelId ?_
    intro p new member
    obtain ⟨earlier, was, user, -⟩ := within.kept p new member
    exact Or.inr ⟨earlier, was, user⟩
  disconnect := fun conn covered => covered.disconnect conn

def CallAction.endsMembership : CallAction → Bool
  | .removeMember _ _ _ | .deleteChannel _ _ => true
  | _ => false

namespace Covered

theorem enter (covered : Covered doomed manager) {join : Join}
    (isMember : (join.channel, join.user) ∈ manager.members)
    (unheld : Unheld manager join.channel) :
    Covered doomed (manager.enter id join) := by
  have sound := covered.sound.enter unheld id
  have locked : Covered doomed (manager.lock id join.channel) :=
    closed_covered.lock covered unheld id
  obtain same | ⟨-, next⟩ | ⟨call, row, -, -, -, next⟩ :=
    enter_cases manager id join
  · rw [same]
    exact covered
  · rw [next] at sound ⊢
    refine locked.setTask sound ?_
    intro _ same
    cases same
    exact isMember
  · rw [next] at sound ⊢
    refine locked.setTask sound ?_
    intro _ same
    cases same
    exact isMember

theorem created (covered : Covered doomed manager) {join : Join}
    (isMember : (join.channel, join.user) ∈ manager.members)
    (held : manager.locks.get? join.channel = some id) :
    Covered doomed (manager.created id join) where
  sound := covered.sound.created held
  admitted := by
    intro other current task stored past
    obtain ⟨-, rfl⟩ | earlier := mem_setTask stored
    · cases past
      exact isMember
    · exact covered.admitted other current task earlier past
  participants := by
    intro channel call row p participant registered found member
    simp only [CallManager.created, CallManager.setCall, CallManager.setTask,
      Table.get?_put] at registered found
    split at found
    case isTrue =>
      cases found
      simp at member
    case isFalse different =>
      split at registered
      case isTrue =>
        cases registered
        exact absurd rfl different
      case isFalse =>
        exact covered.participants channel call row p participant registered
          found member

theorem seat (covered : Covered doomed manager) {join : Join} {call : CallId}
    {row : Call} (isMember : (join.channel, join.user) ∈ manager.members)
    (stored : manager.calls.get? call = some row)
    (ours : row.channelId = join.channel)
    (unheld : Unheld manager join.channel) :
    Covered doomed (manager.seat join call row) := by
  have seated : Covered doomed (manager.setCall call (row.add ⟨manager.fresh,
      join.user, some join.conn, manager.fresh + 1, none, false⟩)) := by
    refine covered.setCall stored rfl ?_
    intro p new member
    simp only [Call.add, Table.get?_put] at member
    split at member
    case isTrue =>
      cases member
      left
      rw [ours]
      exact isMember
    case isFalse => exact Or.inr ⟨new, member, rfl⟩
  exact (closed_covered.unlock seated unheld).later
    (Nat.le_add_right manager.fresh 2)

theorem runResume (covered : Covered doomed manager) {resume : Resume}
    {row : Call} (stored : manager.calls.get? resume.call = some row) :
    Covered doomed (manager.runResume resume row) := by
  unfold CallManager.runResume
  split
  case h_1 => exact covered
  case h_2 =>
    split
    case isTrue =>
      have resumed : Covered doomed (manager.setCall resume.call
          (row.update resume.participant
            (·.resume resume.conn resume.token manager.fresh))) := by
        refine covered.setCall stored rfl ?_
        intro p new member
        simp only [Call.update, Table.get?_mapRows,
          Option.map_eq_some_iff] at member
        obtain ⟨earlier, was, rfl⟩ := member
        refine Or.inr ⟨earlier, was, ?_⟩
        split <;> rfl
      exact resumed.later (Nat.le_add_right manager.fresh 1)
    case isFalse => exact covered

theorem destroyIfEmpty (covered : Covered doomed manager)
    (channel : ChannelId) (call : CallId) :
    Covered doomed (manager.destroyIfEmpty channel call) := by
  have sound := covered.sound.destroyCall channel call
  unfold CallManager.destroyIfEmpty
  split
  case h_1 =>
    split
    case isTrue =>
      refine covered.dropCalls sound ?_
      intro other id registered
      rw [Table.get?_filter, Option.filter_eq_some_iff] at registered
      exact registered.1
    case isFalse => exact covered
  case h_2 => exact covered

end Covered

theorem carried_covered : Carried (fun _ => True) (Covered doomed)
    fun _ action => action.endsMembership = false where
  removeMember := by
    intro _ _ _ _ _ impossible
    cases impossible
  deleteChannel := by
    intro _ _ _ _ impossible
    cases impossible
  checkMember := by
    intro manager id join _ covered isMember
    refine covered.setTask (covered.sound.setIdle rfl rfl) ?_
    intro _ same
    cases same
    exact isMember
  checkChannel := by
    intro manager id join _ covered running left
    refine left.setTask (left.sound.setIdle rfl rfl) ?_
    intro _ same
    cases same
    exact covered.admitted id _ join running rfl
  enter := fun {_ id join} _ covered running left unheld =>
    left.enter (covered.admitted id _ join running rfl) unheld
  created := fun {_ id join} _ covered running left _ held =>
    left.created (covered.admitted id _ join running rfl) held
  seat := fun {_ id join _ _} covered running left unheld stored ours =>
    left.seat (covered.admitted id _ join running rfl) stored ours unheld
  settle := fun _ _ _ left _ => left.destroyIfEmpty _ _
  giveUp := fun _ _ _ left _ => left.destroyIfEmpty _ _
  runResume := fun _ _ _ left _ _ stored => left.runResume stored
  janusLost := fun covered =>
    covered.dropCalls covered.sound.janusLost (by simp)

/-! ### A removal on its way arrives -/

/-- A task that is not the one that runs stays as it is. -/
def Resting (id : TaskId) (task : Task) (manager : CallManager) : Prop :=
  Sound manager ∧ manager.tasks.get? id = some task

theorem Resting.setTask {other : TaskId} {current : Task}
    (resting : Resting id task manager) (different : other ≠ id)
    (sound : Sound (manager.setTask other current)) :
    Resting id task (manager.setTask other current) := by
  refine ⟨sound, ?_⟩
  rw [CallManager.setTask, Table.get?_put_ne _ _ different.symm]
  exact resting.2

theorem Resting.of_tasks {later : CallManager} (resting : Resting id task manager)
    (sound : Sound later) (same : later.tasks = manager.tasks) :
    Resting id task later := by
  refine ⟨sound, ?_⟩
  rw [same]
  exact resting.2

theorem closed_resting : Closed (· ≠ id) (Resting id task) where
  sound := And.left
  tables := fun resting _ => resting.of_tasks { resting.1 with } rfl
  finish := fun different resting =>
    ⟨resting.1.finish _, mem_finish.mpr ⟨resting.2, different.symm⟩⟩
  setTask := fun different resting _ sound => resting.setTask different sound
  lock := fun resting unheld id => resting.of_tasks (resting.1.lock unheld id) rfl
  unlock := fun resting unheld => resting.of_tasks (resting.1.unlock unheld) rfl
  shrink := fun resting stored within =>
    resting.of_tasks (resting.1.setCall stored _ within.channelId) rfl
  disconnect := fun conn resting =>
    resting.of_tasks (resting.1.disconnect conn) rfl

theorem tasks_enter_ne {other : TaskId} {join : Join} (different : id ≠ other) :
    (manager.enter other join).tasks.get? id = manager.tasks.get? id := by
  unfold CallManager.enter
  split
  case h_1 => exact Table.get?_put_ne _ _ different
  case h_2 =>
    split
    case h_1 => rfl
    case h_2 =>
      split
      case isTrue => rfl
      case isFalse =>
        split
        case isTrue => rfl
        case isFalse => exact Table.get?_put_ne _ _ different

theorem tasks_runResume (resume : Resume) (row : Call) :
    (manager.runResume resume row).tasks = manager.tasks := by
  unfold CallManager.runResume
  split
  case h_1 => rfl
  case h_2 => split <;> rfl

theorem carried_resting :
    Carried (· ≠ id) (Resting id task) fun _ _ => True where
  removeMember := fun resting _ => resting.of_tasks { resting.1 with } rfl
  deleteChannel := fun resting _ => resting.of_tasks { resting.1 with } rfl
  checkMember := fun different resting _ =>
    resting.setTask different (resting.1.setIdle rfl rfl)
  checkChannel := fun different _ _ left =>
    left.setTask different (left.1.setIdle rfl rfl)
  enter := fun different _ _ left unheld =>
    ⟨left.1.enter unheld _, (tasks_enter_ne different.symm).trans left.2⟩
  created := fun different _ _ left _ held =>
    ⟨left.1.created held, (Table.get?_put_ne _ _ different.symm).trans left.2⟩
  seat := fun _ _ left unheld stored _ =>
    left.of_tasks (left.1.seat stored unheld) rfl
  settle := fun _ _ _ left _ =>
    left.of_tasks (left.1.destroyIfEmpty _ _) (destroyIfEmpty_tasks _ _)
  giveUp := fun _ _ _ left _ =>
    left.of_tasks (left.1.destroyIfEmpty _ _) (destroyIfEmpty_tasks _ _)
  runResume := fun _ _ _ left _ _ stored =>
    left.of_tasks (left.1.runResume stored) (tasks_runResume _ _)
  janusLost := fun resting => resting.of_tasks resting.1.janusLost rfl

section

variable {channel : ChannelId} {call : CallId} {p : ParticipantId}
variable {user : UserId}

theorem doomed_setTask (dooms : task.Dooms channel call p user) :
    Doomed (manager.setTask id task) channel call p user :=
  ⟨id, task, Table.get?_put_self _ _ _, dooms⟩

theorem doomed_continueWith {left : List ParticipantId} (listed : p ∈ left)
    (id : TaskId) (within : ChannelId) :
    Doomed (manager.continueWith id within call left) channel call p user := by
  cases left with
  | nil => cases listed
  | cons q left =>
      refine doomed_setTask ⟨rfl, ?_⟩
      obtain rfl | later := List.mem_cons.mp listed
      · exact Or.inl ⟨rfl, rfl⟩
      · exact Or.inr later

/-- `end_for_user` takes every participant of its user in the registered call. -/
theorem doomed_endParticipants {row : Call} {participant : Participant}
    {ends : UserId → Bool} (registered : manager.byChannel.get? channel = some call)
    (stored : manager.calls.get? call = some row)
    (member : row.participants.get? p = some participant)
    (ended : ends participant.userId = true) (id : TaskId) :
    Doomed (manager.endParticipants id channel ends) channel call p user := by
  unfold CallManager.endParticipants
  simp only [registered, stored]
  apply doomed_continueWith
  apply List.mem_map.mpr
  refine ⟨(p, participant), ?_, rfl⟩
  rw [List.mem_filter, List.mem_reverse, Table.mem_rows]
  exact ⟨member, ended⟩

theorem endParticipants_tables (id : TaskId) (ends : UserId → Bool) :
    (manager.endParticipants id channel ends).byChannel = manager.byChannel ∧
      (manager.endParticipants id channel ends).calls = manager.calls := by
  have continued (call : CallId) (left : List ParticipantId) :
      (manager.continueWith id channel call left).byChannel =
          manager.byChannel ∧
        (manager.continueWith id channel call left).calls = manager.calls := by
    cases left <;> exact ⟨rfl, rfl⟩
  unfold CallManager.endParticipants
  split
  case h_1 => exact ⟨rfl, rfl⟩
  case h_2 =>
    split
    case h_1 => exact ⟨rfl, rfl⟩
    case h_2 => exact continued _ _

theorem continueWith_tables (id : TaskId) (within : ChannelId)
    (left : List ParticipantId) :
    (manager.continueWith id within call left).byChannel = manager.byChannel ∧
      (manager.continueWith id within call left).calls = manager.calls := by
  cases left <;> exact ⟨rfl, rfl⟩

/-- The participant whose turn it is goes now; the others stay on the list. -/
theorem doomed_takeOut {q : ParticipantId} {onlyIfDetached : Bool}
    {left : List ParticipantId} {row : Call} {participant : Participant}
    (id : TaskId) (within : ChannelId)
    (listed : q = p ∧ onlyIfDetached = false ∨ p ∈ left)
    (stored : (manager.takeOut id within call q onlyIfDetached
      left).calls.get? call = some row)
    (member : row.participants.get? p = some participant) :
    Doomed (manager.takeOut id within call q onlyIfDetached left) channel call p
      user := by
  unfold CallManager.takeOut at stored ⊢
  have continued : (manager.continueWith id within call left).calls =
      manager.calls := (continueWith_tables id within left).2
  split at stored
  case h_1 missing =>
    rw [continued, missing] at stored
    cases stored
  case h_2 old found =>
    split at stored
    case h_1 missing =>
      rw [continued, found, Option.some.injEq] at stored
      subst stored
      obtain ⟨rfl, -⟩ | later := listed
      · rw [missing] at member
        cases member
      · exact doomed_continueWith later id within
    case h_2 current present =>
      split at stored
      case isTrue kept =>
        rw [if_pos kept]
        obtain ⟨-, rfl⟩ | later := listed
        · exact absurd kept.1 Bool.false_ne_true
        · exact doomed_continueWith later id within
      case isFalse gone =>
        rw [if_neg gone]
        refine doomed_setTask ⟨rfl, ?_⟩
        obtain ⟨rfl, -⟩ | later := listed
        · have popped : some (old.pop q) = some row :=
            (Table.get?_put_self _ _ _).symm.trans stored
          cases popped
          simp [Call.pop] at member
        · exact later

/-- Whoever is doomed stays doomed for as long as it is in the call. -/
theorem doomed_step {action : CallAction} {row : Call} {participant : Participant}
    (sound : Sound manager) (guard : JoinsSettled manager action)
    (taken : callStep manager action = some next)
    (doomed : Doomed manager channel call p participant.userId)
    (registered : next.byChannel.get? channel = some call)
    (stored : next.calls.get? call = some row)
    (member : row.participants.get? p = some participant) :
    Doomed next channel call p participant.userId := by
  obtain ⟨id, task, running, dooms⟩ := doomed
  by_cases own : action.runs = some id
  case neg =>
    have before : Resting id task manager := ⟨sound, running⟩
    have resting := closed_resting.step_of_carried carried_resting before
      (fun other mine same => own (same ▸ mine)) trivial taken
    exact ⟨id, task, resting.2, dooms⟩
  case pos =>
    -- A task that starts is none of those that dooms.
    have started {after : CallManager} {current : Task}
        (spawned : after.spawn id current = some next)
        (tasks : after.tasks = manager.tasks) : False := by
      obtain ⟨absent, -⟩ := spawn_eq_some.mp spawned
      rw [tasks, running] at absent
      cases absent
    have popping {current : Task} {rest : CallManager}
        (popped : manager.popTask id = some (current, rest)) :
        task = current ∧ rest = manager.finish id := by
      obtain ⟨same, rfl⟩ := popTask_eq_some.mp popped
      rw [running, Option.some.injEq] at same
      exact ⟨same, rfl⟩
    cases action with
    | createChannel | setArchived | addMember | disconnect => cases own
    | removeMember other | deleteChannel other =>
        cases own
        simp only [callStep] at taken
        split at taken
        case isTrue => exact (started taken rfl).elim
        case isFalse => cases taken
    | join other | janusLost other =>
        cases own
        exact (started taken rfl).elim
    | resume other =>
        cases own
        simp only [callStep] at taken
        split at taken
        case isTrue => exact (started taken rfl).elim
        case isFalse => cases taken
    | leave other =>
        cases own
        simp only [callStep] at taken
        split at taken
        case isTrue =>
          split at taken
          case h_1 => cases taken
          case h_2 =>
            split at taken
            case h_1 => cases taken
            case h_2 => exact (started taken rfl).elim
        case isFalse => cases taken
    | graceExpires other lost =>
        cases own
        simp only [callStep] at taken
        split at taken
        case h_1 => cases taken
        case h_2 =>
          split at taken
          case isTrue =>
            refine (started taken ?_).elim
            unfold CallManager.stopGrace
            split <;> rfl
          case isFalse => cases taken
    | checkMember other | checkChannel other | enter other | created other
    | seat other | seatFails other | giveUp other | runResume other =>
        cases own
        simp only [callStep] at taken
        split at taken
        case h_1 popped =>
          obtain ⟨rfl, -⟩ := popping popped
          cases dooms
        case h_2 => cases taken
    | loseNext other =>
        cases own
        simp only [callStep] at taken
        split at taken
        case h_3 => cases taken
        all_goals
          rename_i popped
          obtain ⟨rfl, -⟩ := popping popped
          cases dooms
    | runEnd other =>
        cases own
        have ending (ends : UserId → Bool)
            (same : (manager.finish id).endParticipants id channel ends = next)
            (ended : ends participant.userId = true) :
            Doomed next channel call p participant.userId := by
          subst same
          rw [(endParticipants_tables id ends).1] at registered
          rw [(endParticipants_tables id ends).2] at stored
          exact doomed_endParticipants registered stored member ended id
        simp only [callStep] at taken
        split at taken
        case h_1 popped =>
          obtain ⟨rfl, rfl⟩ := popping popped
          obtain ⟨rfl, rfl⟩ := dooms
          exact ending _ (Option.some.inj taken) (by simp)
        case h_2 popped =>
          obtain ⟨rfl, rfl⟩ := popping popped
          cases dooms
          exact ending _ (Option.some.inj taken) rfl
        case h_3 => cases taken
    | takeOut other =>
        cases own
        simp only [callStep] at taken
        split at taken
        case h_1 popped =>
          obtain ⟨rfl, rfl⟩ := popping popped
          split at taken
          case isTrue =>
            cases taken
            obtain ⟨rfl, listed⟩ := dooms
            exact doomed_takeOut id _ listed stored member
          case isFalse => cases taken
        case h_2 => cases taken
    | settle other =>
        cases own
        simp only [callStep] at taken
        split at taken
        case h_1 popped =>
          obtain ⟨rfl, rfl⟩ := popping popped
          cases taken
          exact doomed_setTask dooms
        case h_2 => cases taken
    | release other =>
        cases own
        simp only [callStep] at taken
        split at taken
        case h_1 popped =>
          obtain ⟨rfl, rfl⟩ := popping popped
          cases taken
          obtain ⟨rfl, listed⟩ := dooms
          exact doomed_continueWith listed id _
        case h_2 => cases taken
    | raise other =>
        cases own
        have none_left := guard task running
        simp only [callStep] at taken
        split at taken
        case h_1 popped =>
          obtain ⟨rfl, -⟩ := popping popped
          cases dooms
        case h_2 popped =>
          obtain ⟨rfl, -⟩ := popping popped
          obtain ⟨within, holds, -⟩ := Option.map_eq_some_iff.mp taken
          cases task with
          | removed _ _ left | closing _ _ left =>
              have empty : left = [] := none_left
              obtain ⟨-, listed⟩ := dooms
              rw [empty] at listed
              cases listed
          | endUser | endChannel | removing => cases holds
          | _ => cases dooms
        case h_3 => cases taken

end

namespace Covered

theorem weaken {wider : ChannelId → CallId → ParticipantId → UserId → Prop}
    (covered : Covered doomed manager)
    (implies : ∀ {channel call p user}, doomed channel call p user →
      wider channel call p user) : Covered wider manager :=
  { covered with
    participants := fun channel id call p row registered stored member =>
      (covered.participants channel id call p row registered stored member).imp
        (fun isMember => isMember) implies }

/-- A membership ends, and a task starts that ends its participants. -/
theorem endMembership (covered : Covered (Doomed manager) manager)
    {members : List (ChannelId × UserId)} {channels : Table ChannelId Bool}
    {after : Task} (idle : after.holds = none) (aimless : after.target = none)
    (plain : after.admitted = none) (unused : manager.tasks.get? id = none)
    (joins : ∀ other task join, manager.tasks.get? other = some task →
      task.admitted = some join → (join.channel, join.user) ∈ members)
    (ended : ∀ channel user, (channel, user) ∈ manager.members →
      (channel, user) ∈ members ∨
        ∀ call p, after.Dooms channel call p user) :
    Covered (Doomed ({ manager with members, channels }.setTask id after))
      ({ manager with members, channels }.setTask id after) where
  sound := by
    have sound : Sound { manager with members, channels } :=
      { covered.sound with }
    exact sound.setIdle idle aimless
  admitted := by
    intro other task join stored past
    obtain ⟨-, rfl⟩ | earlier := mem_setTask stored
    · rw [plain] at past
      cases past
    · exact joins other task join earlier past
  participants := by
    intro channel call row p participant registered stored member
    obtain isMember | ⟨other, task, running, dooms⟩ :=
      covered.participants channel call row p participant registered stored member
    · refine (ended channel participant.userId isMember).imp
        (fun still => still) ?_
      intro dooms
      exact doomed_setTask (dooms call p)
    · have different : other ≠ id := by
        rintro rfl
        rw [unused] at running
        cases running
      right
      refine ⟨other, task, ?_, dooms⟩
      exact (Table.get?_put_ne _ _ different).trans running

theorem step (covered : Covered (Doomed manager) manager) {action : CallAction}
    (guard : JoinsSettled manager action)
    (taken : callStep manager action = some next) :
    Covered (Doomed next) next := by
  cases ends : action.endsMembership with
  | false =>
      have either : Covered (fun channel call p user =>
          Doomed manager channel call p user ∨ Doomed next channel call p user)
          manager := covered.weaken Or.inl
      have later := closed_covered.step_of_carried carried_covered either
        (fun _ _ => trivial) ends taken
      exact
        { later with
          participants := by
            intro channel call row p participant registered stored member
            obtain isMember | earlier | doomed := later.participants channel
              call row p participant registered stored member
            · exact Or.inl isMember
            · exact Or.inr (doomed_step covered.sound guard taken earlier
                registered stored member)
            · exact Or.inr doomed }
  | true =>
      cases action with
      | removeMember id channel user =>
          simp only [callStep] at taken
          split at taken
          case isTrue =>
            obtain ⟨unused, rfl⟩ := spawn_eq_some.mp taken
            refine covered.endMembership rfl rfl rfl unused ?_ ?_
            · intro other task join running past
              rw [List.mem_filter, decide_eq_true_eq]
              refine ⟨covered.admitted other task join running past, ?_⟩
              intro same
              cases same
              exact guard task (Table.mem_values.mpr ⟨other, running⟩) join past
                rfl rfl
            · intro other member kept
              by_cases same : (other, member) = (channel, user)
              · cases same
                exact Or.inr fun _ _ => ⟨rfl, rfl⟩
              · exact Or.inl (by simp [kept, same])
          case isFalse => cases taken
      | deleteChannel id channel =>
          simp only [callStep] at taken
          split at taken
          case isTrue =>
            obtain ⟨unused, rfl⟩ := spawn_eq_some.mp taken
            refine covered.endMembership rfl rfl rfl unused ?_ ?_
            · intro other task join running past
              rw [List.mem_filter, decide_eq_true_eq]
              exact ⟨covered.admitted other task join running past,
                guard task (Table.mem_values.mpr ⟨other, running⟩) join past⟩
            · intro other member kept
              by_cases same : other = channel
              · cases same
                exact Or.inr fun _ _ => rfl
              · exact Or.inl (by simp [kept, same])
          case isFalse => cases taken
      | _ => cases ends

theorem start : Covered (Doomed CallManager.start) CallManager.start where
  sound := Sound.start
  admitted := by simp [CallManager.start]
  participants := by simp [CallManager.start]

theorem membersOnly (covered : Covered (Doomed manager) manager) :
    MembersOnly manager := by
  intro quiet channel id call p row registered stored member
  obtain isMember | ⟨other, task, running, -⟩ :=
    covered.participants channel id call p row registered stored member
  · exact isMember
  · rw [← Table.mem_rows, quiet] at running
    cases running

end Covered

/-- While no membership ends under a join that has passed its check, the calls
hold members only whenever all is quiet. -/
theorem members_only_of_joinsSettled {actions : List CallAction}
    (settled : Along callStep JoinsSettled CallManager.start actions)
    (reached : run callStep CallManager.start actions = some manager) :
    MembersOnly manager := by
  have covered : Covered (Doomed manager) manager :=
    run_invariant (fun covered guard taken => Covered.step covered guard taken)
      Covered.start settled reached
  exact covered.membersOnly

/-- Two members are in a call, and one of them is removed from the channel. -/
def removedInCall : List CallAction :=
  [.createChannel 1, .addMember 1 10, .addMember 1 11,
    .join 1 ⟨100, 10, 1⟩, .checkMember 1, .checkChannel 1, .enter 1, .created 1,
    .seat 1,
    .join 2 ⟨101, 11, 1⟩, .checkMember 2, .checkChannel 2, .enter 2, .seat 2,
    .removeMember 3 1 10, .runEnd 3, .takeOut 3, .settle 3, .release 3]

theorem members_only_of_joinsSettled_removed :
    ∃ manager, run callStep CallManager.start removedInCall = some manager ∧
      manager.tasks.rows = [] ∧ manager.byChannel.get? 1 = some 0 ∧
      MembersOnly manager := by
  have settled : Along callStep JoinsSettled CallManager.start removedInCall := by
    decide +kernel
  obtain ⟨manager, reached, quiet, registered⟩ : ∃ manager,
      run callStep CallManager.start removedInCall = some manager ∧
        manager.tasks.rows = [] ∧ manager.byChannel.get? 1 = some 0 := by
    refine ⟨_, rfl, ?_⟩
    decide +kernel
  exact ⟨manager, reached, quiet, registered,
    members_only_of_joinsSettled settled reached⟩

/-- The membership ends after the join has read it, and `end_for_user` finds no
call yet. -/
def removedWhileJoining : List CallAction :=
  [.createChannel 1, .addMember 1 10,
    .join 1 ⟨100, 10, 1⟩, .checkMember 1, .checkChannel 1,
    .removeMember 2 1 10, .runEnd 2,
    .enter 1, .created 1, .seat 1]

theorem call_keeps_removed_member :
    ¬ ∀ (actions : List CallAction) (manager : CallManager),
      run callStep CallManager.start actions = some manager →
      MembersOnly manager := by
  intro claimed
  obtain ⟨manager, reached, quiet, none_left, registered, call, stored, row,
      member⟩ : ∃ manager,
      run callStep CallManager.start removedWhileJoining = some manager ∧
        manager.tasks.rows = [] ∧ manager.members = [] ∧
        manager.byChannel.get? 1 = some 0 ∧
        ∃ call, manager.calls.get? 0 = some call ∧
          ∃ row, call.participants.get? 1 = some row :=
    ⟨_, rfl, rfl, rfl, rfl, _, rfl, _, rfl⟩
  have isMember := claimed removedWhileJoining manager reached quiet 1 0 call 1
    row registered stored member
  rw [none_left] at isMember
  cases isMember

end Brook.Calls
