import Brook.Calls.Manager

namespace Brook.Calls

/-! A task that holds a channel's lock is alone in what it does there, and a
call object keeps its channel. -/

/-- The call a task works on, with the channel it takes it for. -/
def Task.target : Task → Option (ChannelId × CallId)
  | .seating join call => some (join.channel, call)
  | .refused channel call => some (channel, call)
  | .removing channel call _ _ _ => some (channel, call)
  | .removed channel call _ => some (channel, call)
  | .closing channel call _ => some (channel, call)
  | _ => none

structure Sound (manager : CallManager) : Prop where
  held : ∀ id task channel, manager.tasks.get? id = some task →
    task.holds = some channel → manager.locks.get? channel = some id
  target : ∀ id task channel call, manager.tasks.get? id = some task →
    task.target = some (channel, call) →
    ∃ row, manager.calls.get? call = some row ∧ row.channelId = channel
  known : ∀ channel call, manager.byChannel.get? channel = some call →
    ∃ row, manager.calls.get? call = some row ∧ row.channelId = channel
  fresh : ∀ id row, manager.calls.get? id = some row → id < manager.fresh

/-- No task works under the channel's lock. -/
def Unheld (manager : CallManager) (channel : ChannelId) : Prop :=
  ∀ id task, manager.tasks.get? id = some task → task.holds ≠ some channel

/-- Later participants of a call are earlier ones, on the socket they had or on
none. -/
structure Call.Within (later earlier : Call) : Prop where
  channelId : later.channelId = earlier.channelId
  kept : ∀ p row, later.participants.get? p = some row →
    ∃ old, earlier.participants.get? p = some old ∧ row.userId = old.userId ∧
      ∀ conn, row.conn = some conn → old.conn = some conn

variable {manager rest : CallManager} {id : TaskId} {task : Task}

theorem popTask_eq_some :
    manager.popTask id = some (task, rest) ↔
      manager.tasks.get? id = some task ∧ manager.finish id = rest := by
  simp [CallManager.popTask]

theorem mem_finish {other : TaskId} {current : Task} :
    (manager.finish id).tasks.get? other = some current ↔
      manager.tasks.get? other = some current ∧ other ≠ id := by
  simp [CallManager.finish, Option.filter_eq_some_iff]

theorem mem_setTask {other : TaskId} {current : Task}
    (stored : (manager.setTask id task).tasks.get? other = some current) :
    other = id ∧ current = task ∨ manager.tasks.get? other = some current := by
  simp only [CallManager.setTask, Table.get?_put] at stored
  split at stored
  case isTrue same =>
    left
    exact ⟨same, (Option.some.inj stored).symm⟩
  case isFalse => exact Or.inr stored

theorem spawn_eq_some {next : CallManager} :
    manager.spawn id task = some next ↔
      manager.tasks.get? id = none ∧ manager.setTask id task = next := by
  cases stored : manager.tasks.get? id <;>
    simp [CallManager.spawn, Table.contains, stored]

@[simp] theorem destroyIfEmpty_locks (channel : ChannelId) (call : CallId) :
    (manager.destroyIfEmpty channel call).locks = manager.locks := by
  unfold CallManager.destroyIfEmpty
  split
  · split <;> rfl
  · rfl

@[simp] theorem destroyIfEmpty_calls (channel : ChannelId) (call : CallId) :
    (manager.destroyIfEmpty channel call).calls = manager.calls := by
  unfold CallManager.destroyIfEmpty
  split
  · split <;> rfl
  · rfl

@[simp] theorem destroyIfEmpty_tasks (channel : ChannelId) (call : CallId) :
    (manager.destroyIfEmpty channel call).tasks = manager.tasks := by
  unfold CallManager.destroyIfEmpty
  split
  · split <;> rfl
  · rfl

namespace Call.Within

variable {call : Call}

theorem refl (call : Call) : call.Within call where
  channelId := rfl
  kept := fun _ row stored => ⟨row, stored, rfl, fun _ same => same⟩

theorem pop (p : ParticipantId) : (call.pop p).Within call where
  channelId := rfl
  kept := by
    intro other row stored
    simp only [Call.pop, Table.get?_filter, Option.filter_eq_some_iff] at stored
    exact ⟨row, stored.1, rfl, fun _ same => same⟩

theorem update {p : ParticipantId} {write : Participant → Participant}
    (user : ∀ row, (write row).userId = row.userId)
    (conn : ∀ row, (write row).conn = row.conn) :
    (call.update p write).Within call where
  channelId := rfl
  kept := by
    intro other row stored
    simp only [Call.update, Table.get?_mapRows, Option.map_eq_some_iff] at stored
    obtain ⟨old, earlier, rfl⟩ := stored
    refine ⟨old, earlier, ?_, ?_⟩
    · split
      · exact user old
      · rfl
    · intro socket held
      split at held
      · rw [← conn old]
        exact held
      · exact held

theorem onDisconnect (conn : SocketId) : (call.onDisconnect conn).Within call where
  channelId := rfl
  kept := by
    intro other row stored
    simp only [Call.onDisconnect, Table.get?_mapRows,
      Option.map_eq_some_iff] at stored
    obtain ⟨old, earlier, rfl⟩ := stored
    refine ⟨old, earlier, Participant.onDisconnect_userId conn, ?_⟩
    intro socket held
    exact (Participant.onDisconnect_conn.mp held).1

end Call.Within

theorem unheld_of_free {channel : ChannelId} (sound : Sound manager)
    (free : manager.free channel = true) : Unheld manager channel := by
  intro other current stored holds
  have holder := sound.held other current channel stored holds
  simp [CallManager.free, Table.contains, holder] at free

theorem Unheld.finish {channel : ChannelId} (unheld : Unheld manager channel) :
    Unheld (manager.finish id) channel := by
  intro other current stored
  exact unheld other current (mem_finish.mp stored).1

/-- The lock that a task held is no other task's. -/
theorem unheld_of_holder {channel : ChannelId} (sound : Sound manager)
    (stored : manager.tasks.get? id = some task)
    (holds : task.holds = some channel) :
    Unheld (manager.finish id) channel := by
  intro other current running same
  obtain ⟨running, different⟩ := mem_finish.mp running
  have mine := sound.held id task channel stored holds
  have theirs := sound.held other current channel running same
  rw [mine, Option.some.injEq] at theirs
  exact different theirs.symm

/-- A join is refused, creates the call, or goes on to its seat. -/
theorem enter_cases (manager : CallManager) (id : TaskId) (join : Join) :
    manager.enter id join = manager ∨
      (manager.byChannel.get? join.channel = none ∧
        manager.enter id join =
          (manager.lock id join.channel).setTask id (.creating join)) ∨
      ∃ call row, manager.byChannel.get? join.channel = some call ∧
        manager.calls.get? call = some row ∧
        row.values.any (·.conn = some join.conn) = false ∧
        manager.enter id join =
          (manager.lock id join.channel).setTask id (.seating join call) := by
  unfold CallManager.enter
  cases registered : manager.byChannel.get? join.channel with
  | none => exact Or.inr (Or.inl ⟨rfl, rfl⟩)
  | some call =>
      cases stored : manager.calls.get? call with
      | none => simp only [stored, true_or]
      | some row =>
          simp only [stored]
          split
          case isTrue => exact Or.inl rfl
          case isFalse apart =>
            split
            case isTrue => exact Or.inl rfl
            case isFalse =>
              exact Or.inr (Or.inr
                ⟨call, row, rfl, stored, Bool.eq_false_iff.mpr apart, rfl⟩)

namespace Sound

theorem finish (sound : Sound manager) (id : TaskId) :
    Sound (manager.finish id) where
  held := by
    intro other current channel stored
    exact sound.held other current channel (mem_finish.mp stored).1
  target := by
    intro other current channel call stored
    exact sound.target other current channel call (mem_finish.mp stored).1
  known := sound.known
  fresh := sound.fresh

theorem setTask (sound : Sound manager)
    (held : ∀ channel, task.holds = some channel →
      manager.locks.get? channel = some id)
    (target : ∀ channel call, task.target = some (channel, call) →
      ∃ row, manager.calls.get? call = some row ∧ row.channelId = channel) :
    Sound (manager.setTask id task) where
  held := by
    intro other current channel stored holds
    obtain ⟨rfl, rfl⟩ | earlier := mem_setTask stored
    · exact held channel holds
    · exact sound.held other current channel earlier holds
  target := by
    intro other current channel call stored aims
    obtain ⟨rfl, rfl⟩ | earlier := mem_setTask stored
    · exact target channel call aims
    · exact sound.target other current channel call earlier aims
  known := sound.known
  fresh := sound.fresh

/-- A task that neither holds a lock nor works on a call. -/
theorem setIdle (sound : Sound manager) (holds : task.holds = none)
    (target : task.target = none) : Sound (manager.setTask id task) := by
  refine sound.setTask ?_ ?_
  · intro channel held
    rw [holds] at held
    cases held
  · intro channel call aims
    rw [target] at aims
    cases aims

theorem lock (sound : Sound manager) {channel : ChannelId}
    (unheld : Unheld manager channel) (id : TaskId) :
    Sound (manager.lock id channel) where
  held := by
    intro other current held stored holds
    simp only [CallManager.lock, Table.get?_put]
    split
    case isTrue same =>
      subst same
      exact absurd holds (unheld other current stored)
    case isFalse => exact sound.held other current held stored holds
  target := sound.target
  known := sound.known
  fresh := sound.fresh

theorem unlock (sound : Sound manager) {channel : ChannelId}
    (unheld : Unheld manager channel) : Sound (manager.unlock channel) where
  held := by
    intro other current held stored holds
    have holder := sound.held other current held stored holds
    have different : held ≠ channel := by
      intro same
      subst same
      exact unheld other current stored holds
    simp [CallManager.unlock, holder, different]
  target := sound.target
  known := sound.known
  fresh := sound.fresh

/-- A call is written, and stays a call of its channel. -/
theorem setCall (sound : Sound manager) {call : CallId} {old : Call}
    (stored : manager.calls.get? call = some old) (row : Call)
    (same : row.channelId = old.channelId) :
    Sound (manager.setCall call row) := by
  have kept : ∀ channel id,
      (∃ row, manager.calls.get? id = some row ∧ row.channelId = channel) →
      ∃ row', (manager.setCall call row).calls.get? id = some row' ∧
        row'.channelId = channel := by
    rintro channel id ⟨earlier, found, ours⟩
    simp only [CallManager.setCall, Table.get?_put]
    split
    case isTrue this =>
      subst this
      rw [stored] at found
      cases found
      exact ⟨row, rfl, same.trans ours⟩
    case isFalse => exact ⟨earlier, found, ours⟩
  exact
    { held := sound.held
      target := fun other current channel aimed running aims =>
        kept channel aimed (sound.target other current channel aimed running aims)
      known := fun channel aimed registered =>
        kept channel aimed (sound.known channel aimed registered)
      fresh := by
        intro other current found
        simp only [CallManager.setCall, Table.get?_put] at found
        split at found
        case isTrue this =>
          subst this
          exact sound.fresh other old stored
        case isFalse => exact sound.fresh other current found }

theorem later (sound : Sound manager) {fresh : Nat}
    (grows : manager.fresh ≤ fresh) : Sound { manager with fresh } :=
  { sound with
    fresh := fun id row stored =>
      Nat.lt_of_lt_of_le (sound.fresh id row stored) grows }

theorem destroyCall (sound : Sound manager) (channel : ChannelId)
    (call : CallId) : Sound (manager.destroyCall channel call) :=
  { sound with
    known := by
      intro other id registered
      simp only [CallManager.destroyCall, Table.get?_filter,
        Option.filter_eq_some_iff] at registered
      exact sound.known other id registered.1 }

theorem destroyIfEmpty (sound : Sound manager) (channel : ChannelId)
    (call : CallId) : Sound (manager.destroyIfEmpty channel call) := by
  unfold CallManager.destroyIfEmpty
  split
  case h_1 =>
    split
    case isTrue => exact sound.destroyCall channel call
    case isFalse => exact sound
  case h_2 => exact sound

theorem enter (sound : Sound manager) {join : Join}
    (unheld : Unheld manager join.channel) (id : TaskId) :
    Sound (manager.enter id join) := by
  have entered := sound.lock unheld id
  have mine : (manager.lock id join.channel).locks.get? join.channel = some id :=
    Table.get?_put_self _ _ _
  obtain same | ⟨-, next⟩ | ⟨call, row, registered, -, -, next⟩ :=
    enter_cases manager id join
  · rw [same]
    exact sound
  · rw [next]
    refine entered.setTask ?_ ?_
    · intro channel holds
      cases holds
      exact mine
    · intro _ _ impossible
      cases impossible
  · rw [next]
    refine entered.setTask ?_ ?_
    · intro channel holds
      cases holds
      exact mine
    · intro channel aimed aims
      cases aims
      exact sound.known join.channel call registered

theorem created (sound : Sound manager) {join : Join}
    (mine : manager.locks.get? join.channel = some id) :
    Sound (manager.created id join) := by
  have moved : ∀ channel call,
      (∃ row, manager.calls.get? call = some row ∧ row.channelId = channel) →
      ∃ row, (manager.created id join).calls.get? call = some row ∧
        row.channelId = channel := by
    rintro channel call ⟨row, found, ours⟩
    have older := sound.fresh call row found
    refine ⟨row, ?_, ours⟩
    simpa [CallManager.created, CallManager.setCall, CallManager.setTask,
      Table.get?_put_ne _ _ (Nat.ne_of_lt older)] using found
  have new : ∃ row, (manager.created id join).calls.get? manager.fresh = some row ∧
      row.channelId = join.channel :=
    ⟨⟨join.channel, ∅⟩, Table.get?_put_self _ _ _, rfl⟩
  exact
    { held := by
        intro other task channel stored holds
        obtain ⟨rfl, rfl⟩ | earlier := mem_setTask stored
        · cases holds
          exact mine
        · exact sound.held other task channel earlier holds
      target := by
        intro other task channel call stored aims
        obtain ⟨rfl, rfl⟩ | earlier := mem_setTask stored
        · cases aims
          exact new
        · exact moved channel call
            (sound.target other task channel call earlier aims)
      known := by
        intro channel call registered
        simp only [CallManager.created, Table.get?_put] at registered
        split at registered
        case isTrue same =>
          cases registered
          rw [same]
          exact new
        case isFalse =>
          exact moved channel call (sound.known channel call registered)
      fresh := by
        intro call row found
        simp only [CallManager.created, CallManager.setCall,
          CallManager.setTask, Table.get?_put] at found
        split at found
        case isTrue same =>
          rw [same]
          exact Nat.lt_succ_self _
        case isFalse => exact Nat.lt_succ_of_lt (sound.fresh call row found) }

theorem seat (sound : Sound manager) {join : Join} {call : CallId}
    {row : Call} (stored : manager.calls.get? call = some row)
    (unheld : Unheld manager join.channel) :
    Sound (manager.seat join call row) := by
  have seated := (sound.setCall stored (row.add ⟨manager.fresh, join.user,
    some join.conn, manager.fresh + 1, none, false⟩) rfl).unlock unheld
  exact seated.later (Nat.le_add_right manager.fresh 2)

theorem runResume (sound : Sound manager) {resume : Resume} {row : Call}
    (stored : manager.calls.get? resume.call = some row) :
    Sound (manager.runResume resume row) := by
  unfold CallManager.runResume
  split
  case h_1 => exact sound
  case h_2 =>
    split
    case isTrue =>
      have resumed := sound.setCall stored (row.update resume.participant
        (·.resume resume.conn resume.token manager.fresh)) rfl
      exact resumed.later (Nat.le_add_right manager.fresh 1)
    case isFalse => exact sound

theorem disconnect (sound : Sound manager) (conn : SocketId) :
    Sound { manager with
      calls := manager.calls.mapRows fun id row =>
        if id ∈ manager.byId then row.onDisconnect conn else row } := by
  have kept : ∀ channel call,
      (∃ row, manager.calls.get? call = some row ∧ row.channelId = channel) →
      ∃ row, (manager.calls.mapRows fun id row =>
        if id ∈ manager.byId then row.onDisconnect conn else row).get? call =
          some row ∧ row.channelId = channel := by
    rintro channel call ⟨row, found, ours⟩
    rw [Table.get?_mapRows, found, Option.map_some]
    refine ⟨_, rfl, ?_⟩
    split <;> exact ours
  exact
    { held := sound.held
      target := fun other task channel call running aims =>
        kept channel call (sound.target other task channel call running aims)
      known := fun channel call registered =>
        kept channel call (sound.known channel call registered)
      fresh := by
        intro call row found
        rw [Table.get?_mapRows, Option.map_eq_some_iff] at found
        obtain ⟨earlier, stored, -⟩ := found
        exact sound.fresh call earlier stored }

theorem janusLost (sound : Sound manager) :
    Sound { manager with
      byChannel := ∅
      byId := [] } :=
  { sound with known := by simp }

theorem start : Sound CallManager.start where
  held := by simp [CallManager.start]
  target := by simp [CallManager.start]
  known := by simp [CallManager.start]
  fresh := by simp [CallManager.start]

end Sound

end Brook.Calls
