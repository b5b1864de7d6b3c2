import Brook.Calls.Steps
import Brook.Transition.Run

namespace Brook.Calls

open Transition

/-! `by_channel` and `by_id`. -/

/-- The two dictionaries hold the same calls, one for a channel. -/
structure OneCall (manager : CallManager) : Prop where
  same : ∀ id row, manager.calls.get? id = some row →
    (id ∈ manager.byId ↔ manager.byChannel.get? row.channelId = some id)
  one : ∀ first second row other,
    first ∈ manager.byId → second ∈ manager.byId →
    manager.calls.get? first = some row → manager.calls.get? second = some other →
    row.channelId = other.channelId → first = second

/-- An empty call that goes is the one of its channel, if the channel has one. -/
def GoesAsCurrent (manager : CallManager) (channel : ChannelId)
    (call : CallId) : Prop :=
  ∀ row, manager.calls.get? call = some row →
    row.participants.rows.isEmpty = true →
    ∀ other, manager.byChannel.get? channel = some other → other = call

/-- `_destroy_call` runs on no call object that another call of its channel has
replaced. -/
def DestroysCurrent (manager : CallManager) : CallAction → Prop
  | .settle id =>
      ∀ channel call left,
        manager.tasks.get? id = some (.removed channel call left) →
        GoesAsCurrent manager channel call
  | .giveUp id =>
      ∀ channel call, manager.tasks.get? id = some (.refused channel call) →
        GoesAsCurrent manager channel call
  | _ => True

structure Registered (manager : CallManager) : Prop where
  sound : Sound manager
  same : ∀ id row, manager.calls.get? id = some row →
    (id ∈ manager.byId ↔ manager.byChannel.get? row.channelId = some id)
  listed : ∀ id ∈ manager.byId, ∃ row, manager.calls.get? id = some row
  /-- A call is only created for a channel that has none. -/
  creating : ∀ id join, manager.tasks.get? id = some (.creating join) →
    manager.byChannel.get? join.channel = none

variable {manager rest next : CallManager} {id : TaskId} {task : Task}

namespace Registered

theorem oneCall (registered : Registered manager) : OneCall manager where
  same := registered.same
  one := by
    intro first second row other firstListed secondListed stored found ours
    have current := (registered.same first row stored).mp firstListed
    have also := (registered.same second other found).mp secondListed
    rw [ours, also, Option.some.injEq] at current
    exact current.symm

theorem setTask (registered : Registered manager)
    (sound : Sound (manager.setTask id task))
    (creating : ∀ join, task = .creating join →
      manager.byChannel.get? join.channel = none) :
    Registered (manager.setTask id task) where
  sound := sound
  same := registered.same
  listed := registered.listed
  creating := by
    intro other join stored
    obtain ⟨-, new⟩ | earlier := mem_setTask stored
    · exact creating join new.symm
    · exact registered.creating other join earlier

theorem setCall (registered : Registered manager) {call : CallId} {old : Call}
    (stored : manager.calls.get? call = some old) (row : Call)
    (ours : row.channelId = old.channelId) :
    Registered (manager.setCall call row) where
  sound := registered.sound.setCall stored row ours
  same := by
    intro id current found
    simp only [CallManager.setCall, Table.get?_put] at found
    split at found
    case isTrue this =>
      cases found
      subst this
      rw [ours]
      exact registered.same id old stored
    case isFalse => exact registered.same id current found
  listed := by
    intro id member
    simp only [CallManager.setCall, Table.get?_put]
    split
    case isTrue => exact ⟨row, rfl⟩
    case isFalse => exact registered.listed id member
  creating := registered.creating

theorem disconnect (registered : Registered manager) (conn : SocketId) :
    Registered { manager with
      calls := manager.calls.mapRows fun id row =>
        if id ∈ manager.byId then row.onDisconnect conn else row } where
  sound := registered.sound.disconnect conn
  same := by
    intro id current found
    rw [Table.get?_mapRows, Option.map_eq_some_iff] at found
    obtain ⟨earlier, stored, rfl⟩ := found
    have same := registered.same id earlier stored
    split <;> exact same
  listed := by
    intro id member
    obtain ⟨row, stored⟩ := registered.listed id member
    rw [Table.get?_mapRows, stored, Option.map_some]
    exact ⟨_, rfl⟩
  creating := registered.creating

theorem later (registered : Registered manager) {fresh : Nat}
    (grows : manager.fresh ≤ fresh) : Registered { manager with fresh } :=
  { registered with sound := registered.sound.later grows }

end Registered

theorem closed_registered : Closed (fun _ => True) Registered where
  sound := Registered.sound
  tables := fun registered _ =>
    { registered with sound := { registered.sound with } }
  finish := fun {_ id} _ registered =>
    { registered with
      sound := registered.sound.finish id
      creating := fun other join stored =>
        registered.creating other join (mem_finish.mp stored).1 }
  setTask := by
    intro manager id task _ registered plain sound
    refine registered.setTask sound ?_
    rintro join rfl
    cases plain
  lock := fun registered unheld id =>
    { registered with sound := registered.sound.lock unheld id }
  unlock := fun registered unheld =>
    { registered with sound := registered.sound.unlock unheld }
  shrink := fun registered stored within =>
    registered.setCall stored _ within.channelId
  disconnect := fun conn registered => registered.disconnect conn

namespace Registered

theorem enter (registered : Registered manager) {join : Join}
    (unheld : Unheld manager join.channel) :
    Registered (manager.enter id join) := by
  have sound := registered.sound.enter unheld id
  have locked : Registered (manager.lock id join.channel) :=
    { registered with sound := registered.sound.lock unheld id }
  obtain same | ⟨none_, next⟩ | ⟨call, row, -, -, -, next⟩ :=
    enter_cases manager id join
  · rw [same]
    exact registered
  · rw [next] at sound ⊢
    refine locked.setTask sound ?_
    intro other same
    cases same
    exact none_
  · rw [next] at sound ⊢
    refine locked.setTask sound ?_
    intro _ impossible
    cases impossible

theorem created (registered : Registered manager) {join : Join}
    (empty : manager.byChannel.get? join.channel = none)
    (unheld : Unheld manager join.channel)
    (mine : manager.locks.get? join.channel = some id) :
    Registered (manager.created id join) where
  sound := registered.sound.created mine
  same := by
    intro call row found
    simp only [CallManager.created, CallManager.setCall, CallManager.setTask,
      Table.get?_put, List.mem_cons] at found ⊢
    split at found
    case isTrue same =>
      cases found
      simp [same]
    case isFalse different =>
      have earlier := registered.same call row found
      simp only [different, false_or]
      split
      case isTrue ours =>
        -- The channel had no call, so an older object of it is in neither.
        rw [ours, empty] at earlier
        simp [earlier, Ne.symm different]
      case isFalse => exact earlier
  listed := by
    intro call member
    simp only [CallManager.created, CallManager.setCall, CallManager.setTask,
      Table.get?_put]
    obtain rfl | older := List.mem_cons.mp member
    · exact ⟨_, if_pos rfl⟩
    · split
      case isTrue => exact ⟨_, rfl⟩
      case isFalse => exact registered.listed call older
  creating := by
    intro other current stored
    obtain ⟨-, impossible⟩ | earlier := mem_setTask stored
    · cases impossible
    · have different : current.channel ≠ join.channel := by
        intro same
        exact unheld other (.creating current) earlier (congrArg some same)
      simp only [CallManager.created, Table.get?_put_ne _ _ different]
      exact registered.creating other current earlier

theorem seat (registered : Registered manager) {join : Join} {call : CallId}
    {row : Call} (stored : manager.calls.get? call = some row)
    (unheld : Unheld manager join.channel) :
    Registered (manager.seat join call row) := by
  have seated := closed_registered.unlock (registered.setCall stored
    (row.add ⟨manager.fresh, join.user, some join.conn, manager.fresh + 1, none,
      false⟩) rfl) unheld
  exact seated.later (Nat.le_add_right manager.fresh 2)

theorem runResume (registered : Registered manager) {resume : Resume}
    {row : Call} (stored : manager.calls.get? resume.call = some row) :
    Registered (manager.runResume resume row) := by
  unfold CallManager.runResume
  split
  case h_1 => exact registered
  case h_2 =>
    split
    case isTrue =>
      have resumed := registered.setCall stored (row.update resume.participant
        (·.resume resume.conn resume.token manager.fresh)) rfl
      exact resumed.later (Nat.le_add_right manager.fresh 1)
    case isFalse => exact registered

theorem destroyCall (registered : Registered manager) {channel : ChannelId}
    {call : CallId} {row : Call} (stored : manager.calls.get? call = some row)
    (ours : row.channelId = channel)
    (current : ∀ other, manager.byChannel.get? channel = some other →
      other = call) :
    Registered (manager.destroyCall channel call) where
  sound := registered.sound.destroyCall channel call
  same := by
    intro id other found
    have earlier := registered.same id other found
    simp only [CallManager.destroyCall, List.mem_filter, decide_eq_true_eq,
      Table.get?_filter, Option.filter_eq_some_iff, earlier]
    constructor
    · rintro ⟨listed, different⟩
      refine ⟨listed, ?_⟩
      intro same
      rw [same] at listed
      exact different (current id listed)
    · rintro ⟨listed, apart⟩
      refine ⟨listed, ?_⟩
      rintro rfl
      have again : manager.calls.get? id = some other := found
      rw [stored] at again
      cases again
      exact apart ours
  listed := fun id member =>
    registered.listed id (List.mem_of_mem_filter member)
  creating := by
    intro id join running
    have empty := registered.creating id join running
    simp [CallManager.destroyCall, empty]

theorem destroyIfEmpty (registered : Registered manager) {channel : ChannelId}
    {call : CallId}
    (aimed : ∃ row, manager.calls.get? call = some row ∧ row.channelId = channel)
    (current : GoesAsCurrent manager channel call) :
    Registered (manager.destroyIfEmpty channel call) := by
  obtain ⟨row, stored, ours⟩ := aimed
  unfold CallManager.destroyIfEmpty
  simp only [stored]
  split
  case isTrue empty =>
    exact registered.destroyCall stored ours (current row stored empty)
  case isFalse => exact registered

theorem start : Registered CallManager.start where
  sound := Sound.start
  same := by simp [CallManager.start]
  listed := by simp [CallManager.start]
  creating := by simp [CallManager.start]

end Registered

theorem Registered.setJoin (registered : Registered manager) {join : Join}
    (either : task = .member join ∨ task = .waiting join) :
    Registered (manager.setTask id task) := by
  have sound := registered.sound
  obtain rfl | rfl := either
  all_goals
    refine registered.setTask (sound.setIdle rfl rfl) ?_
    intro _ impossible
    cases impossible

theorem carried_registered :
    Carried (fun _ => True) Registered DestroysCurrent where
  removeMember := fun registered _ =>
    { registered with sound := { registered.sound with } }
  deleteChannel := fun registered _ =>
    { registered with sound := { registered.sound with } }
  checkMember := fun _ registered _ => registered.setJoin (Or.inl rfl)
  checkChannel := fun _ _ _ left => left.setJoin (Or.inr rfl)
  enter := fun _ _ _ left unheld => left.enter unheld
  created := fun {_ id join} _ registered stored left unheld mine =>
    left.created (registered.creating id join stored) unheld mine
  seat := fun _ _ left unheld stored _ => left.seat stored unheld
  settle := fun _ guard stored left aimed =>
    left.destroyIfEmpty aimed (guard _ _ _ stored)
  giveUp := fun _ guard stored left aimed =>
    left.destroyIfEmpty aimed (guard _ _ stored)
  runResume := fun _ _ _ left _ _ stored => left.runResume stored
  janusLost := fun registered =>
    { sound := registered.sound.janusLost
      same := by simp
      listed := by simp
      creating := by simp }

/-- Destroying a call that another one has replaced leaves the other one without
its channel. -/
theorem goesAsCurrent_of_oneCall (registered : Registered manager)
    {channel : ChannelId} {call : CallId} {after : Task}
    (oneCall : OneCall (((manager.finish id).destroyIfEmpty channel call).setTask
      id after)) :
    GoesAsCurrent manager channel call := by
  intro row stored empty other current
  obtain ⟨kept, found, ours⟩ := registered.sound.known channel other current
  have listed : other ∈ manager.byId := by
    apply (registered.same other kept found).mpr
    rw [ours]
    exact current
  by_contra different
  have still := oneCall.same other kept
  simp only [CallManager.setTask, CallManager.destroyIfEmpty, CallManager.finish,
    stored, empty, if_true, CallManager.destroyCall, List.mem_filter, listed,
    ours, Table.get?_filter] at still
  simp [found, different] at still

theorem destroysCurrent_of_oneCall {action : CallAction}
    (registered : Registered manager)
    (taken : callStep manager action = some next) (oneCall : OneCall next) :
    DestroysCurrent manager action := by
  cases action with
  | settle id =>
      intro channel call left stored
      simp only [callStep, CallManager.popTask, stored, Option.map_some,
        Option.some.injEq] at taken
      subst taken
      exact goesAsCurrent_of_oneCall registered oneCall
  | giveUp id =>
      intro channel call stored
      simp only [callStep, CallManager.popTask, stored, Option.map_some,
        Option.some.injEq] at taken
      subst taken
      exact goesAsCurrent_of_oneCall registered oneCall
  | _ => trivial

theorem destroysCurrent_of_stuck {action : CallAction}
    (stuck : callStep manager action = none) :
    DestroysCurrent manager action := by
  cases action with
  | settle id =>
      intro channel call left stored
      simp [callStep, CallManager.popTask, stored] at stuck
  | giveUp id =>
      intro channel call stored
      simp [callStep, CallManager.popTask, stored] at stuck
  | _ => trivial

/-- The dictionaries describe the same calls in every state of a run exactly
when the run never destroys a call that has been replaced. -/
theorem one_call_iff_destroysCurrent (actions : List CallAction) :
    Throughout callStep OneCall CallManager.start actions ↔
      Along callStep DestroysCurrent CallManager.start actions :=
  throughout_iff_along Registered.oneCall
    (fun kept guard taken =>
      closed_registered.step_of_carried carried_registered kept
        (fun _ _ => trivial) guard taken)
    destroysCurrent_of_oneCall destroysCurrent_of_stuck Registered.start

/-- `end_for_user` is at the first of two devices when Janus is lost; another
member, who waits for the lock, starts the channel's next call in between. -/
def staleRemoval : List CallAction :=
  [.createChannel 1, .addMember 1 10, .addMember 1 11,
    .join 1 ⟨100, 10, 1⟩, .checkMember 1, .checkChannel 1, .enter 1, .created 1,
    .seat 1,
    .join 2 ⟨101, 10, 1⟩, .checkMember 2, .checkChannel 2, .enter 2, .seat 2,
    .removeMember 3 1 10, .runEnd 3, .takeOut 3,
    .join 4 ⟨102, 11, 1⟩, .checkMember 4, .checkChannel 4,
    .janusLost 5, .settle 3, .release 3,
    .enter 4, .created 4, .seat 4,
    .takeOut 3, .settle 3]

theorem next_call_unregistered :
    ¬ ∀ (actions : List CallAction) (manager : CallManager),
      run callStep CallManager.start actions = some manager →
      OneCall manager := by
  intro claimed
  obtain ⟨manager, reached, row, stored, listed, gone⟩ : ∃ manager,
      run callStep CallManager.start staleRemoval = some manager ∧
        ∃ row, manager.calls.get? 5 = some row ∧ 5 ∈ manager.byId ∧
          manager.byChannel.get? row.channelId = none := by
    refine ⟨_, rfl, _, rfl, ?_⟩
    decide +kernel
  have oneCall := claimed staleRemoval manager reached
  have current := (oneCall.same 5 row stored).mp listed
  rw [gone] at current
  cases current

end Brook.Calls
