import Brook.Calls.Steps
import Brook.Transition.Run

namespace Brook.Calls

open Transition

/-! Which participants a socket holds. -/

/-- No two participants of the call are on one socket. -/
def Call.Alone (call : Call) : Prop :=
  ∀ p q row other conn, call.participants.get? p = some row →
    call.participants.get? q = some other → row.conn = some conn →
    other.conn = some conn → p = q

/-- A socket holds one participant of a call at most, and its commands for the
call resolve to that one. -/
structure OneParticipant (manager : CallManager) : Prop where
  alone : ∀ id call, manager.calls.get? id = some call → call.Alone
  resolves : ∀ id call p row conn, manager.calls.get? id = some call →
    call.participants.get? p = some row → row.conn = some conn →
    participantOf call.values conn = some row

/-- A `call.resume` is only accepted from a socket that holds no other
participant of the call. -/
def ResumesApart (manager : CallManager) : CallAction → Prop
  | .runResume id =>
      ∀ resume call row, manager.tasks.get? id = some (.resuming resume) →
        manager.calls.get? resume.call = some call →
        manager.free call.channelId = true →
        call.participants.get? resume.participant = some row →
        row.admits resume.user resume.token = true →
        ∀ q other, call.participants.get? q = some other →
          other.conn = some resume.conn → q = resume.participant
  | _ => True

/-- No participant of the call is on the socket. -/
def Call.Without (call : Call) (conn : SocketId) : Prop :=
  ∀ p row, call.participants.get? p = some row → row.conn ≠ some conn

structure Seated (manager : CallManager) : Prop where
  sound : Sound manager
  alone : ∀ id call, manager.calls.get? id = some call → call.Alone
  /-- A join that is about to seat its socket has the call to itself. -/
  seating : ∀ id join call row,
    manager.tasks.get? id = some (.seating join call) →
    manager.calls.get? call = some row → row.Without join.conn

variable {manager next : CallManager} {id : TaskId} {task : Task}

theorem Call.mem_values {call : Call} {row : Participant} :
    row ∈ call.values ↔ ∃ p, call.participants.get? p = some row := by
  rw [Call.values, List.mem_reverse, Table.mem_values]

theorem Call.Alone.resolves {call : Call} (alone : call.Alone)
    {p : ParticipantId} {row : Participant} {conn : SocketId}
    (stored : call.participants.get? p = some row)
    (held : row.conn = some conn) :
    participantOf call.values conn = some row := by
  cases found : participantOf call.values conn with
  | none =>
      have free := participantOf_eq_none.mp found row
        (Call.mem_values.mpr ⟨p, stored⟩)
      exact absurd held free
  | some other =>
      have member := List.mem_of_find?_eq_some found
      obtain ⟨q, also⟩ := Call.mem_values.mp member
      have same : other.conn = some conn := by
        simpa using List.find?_some found
      have equal := alone p q row other conn stored also held same
      subst equal
      rw [stored] at also
      exact also.symm

theorem Call.Within.alone {later earlier : Call} (within : later.Within earlier)
    (alone : earlier.Alone) : later.Alone := by
  intro p q row other conn stored also held same
  obtain ⟨old, was, -, kept⟩ := within.kept p row stored
  obtain ⟨another, wasAlso, -, keptAlso⟩ := within.kept q other also
  exact alone p q old another conn was wasAlso (kept conn held)
    (keptAlso conn same)

theorem Call.Within.without {later earlier : Call} {conn : SocketId}
    (within : later.Within earlier) (without : earlier.Without conn) :
    later.Without conn := by
  intro p row stored held
  obtain ⟨old, was, -, kept⟩ := within.kept p row stored
  exact without p old was (kept conn held)

theorem Call.Alone.add {call : Call} (alone : call.Alone) {p : Participant}
    {conn : SocketId} (held : p.conn = some conn) (without : call.Without conn) :
    (call.add p).Alone := by
  intro first second row other socket stored also here there
  simp only [Call.add, Table.get?_put] at stored also
  split at stored
  case isTrue new =>
    cases stored
    split at also
    case isTrue same => rw [new, same]
    case isFalse =>
      rw [held, Option.some.injEq] at here
      subst here
      exact absurd there (without second other also)
  case isFalse =>
    split at also
    case isTrue =>
      cases also
      rw [held, Option.some.injEq] at there
      subst there
      exact absurd here (without first row stored)
    case isFalse => exact alone first second row other socket stored also here there

theorem Call.Alone.resume {call : Call} (alone : call.Alone)
    {p : ParticipantId} {conn : SocketId}
    (apart : ∀ q other, call.participants.get? q = some other →
      other.conn = some conn → q = p) (token fresh : Token) :
    (call.update p (·.resume conn token fresh)).Alone := by
  -- Whoever is on the socket now is the one that resumed.
  have on : ∀ q row socket, (call.update p
      (·.resume conn token fresh)).participants.get? q = some row →
      row.conn = some socket →
      q = p ∧ socket = conn ∨
        q ≠ p ∧ ∃ old, call.participants.get? q = some old ∧
          old.conn = some socket := by
    intro q row socket stored held
    simp only [Call.update, Table.get?_mapRows, Option.map_eq_some_iff] at stored
    obtain ⟨old, was, rfl⟩ := stored
    split at held
    case isTrue same => exact Or.inl ⟨same, (Option.some.inj held).symm⟩
    case isFalse different => exact Or.inr ⟨different, old, was, held⟩
  intro first second row other socket stored also here there
  obtain ⟨rfl, rfl⟩ | ⟨different, old, was, held⟩ := on first row socket stored here
  · obtain ⟨rfl, -⟩ | ⟨different, old, was, held⟩ := on second other _ also there
    · rfl
    · exact absurd (apart second old was held) different
  · obtain ⟨rfl, rfl⟩ | ⟨-, another, wasAlso, heldAlso⟩ :=
      on second other socket also there
    · exact absurd (apart first old was held) different
    · exact alone first second old another socket was wasAlso held heldAlso

namespace Seated

theorem oneParticipant (seated : Seated manager) : OneParticipant manager where
  alone := seated.alone
  resolves := fun id call _ _ _ stored member held =>
    (seated.alone id call stored).resolves member held

theorem setTask (seated : Seated manager)
    (sound : Sound (manager.setTask id task))
    (seating : ∀ join call row, task = .seating join call →
      manager.calls.get? call = some row → row.Without join.conn) :
    Seated (manager.setTask id task) where
  sound := sound
  alone := seated.alone
  seating := by
    intro other join call row stored found
    obtain ⟨-, new⟩ | earlier := mem_setTask stored
    · exact seating join call row new.symm found
    · exact seated.seating other join call row earlier found

/-- A call is written whose channel nobody else is working on. -/
theorem setCall (seated : Seated manager) {call : CallId} {old row : Call}
    (stored : manager.calls.get? call = some old) (alone : row.Alone)
    (ours : row.channelId = old.channelId)
    (unheld : Unheld manager old.channelId) :
    Seated (manager.setCall call row) where
  sound := seated.sound.setCall stored row ours
  alone := by
    intro id current found
    simp only [CallManager.setCall, Table.get?_put] at found
    split at found
    case isTrue =>
      cases found
      exact alone
    case isFalse => exact seated.alone id current found
  seating := by
    intro id join aimed current running found
    simp only [CallManager.setCall, Table.get?_put] at found
    split at found
    case isTrue this =>
      subst this
      obtain ⟨kept, was, channel⟩ :=
        seated.sound.target id _ join.channel aimed running rfl
      rw [stored, Option.some.injEq] at was
      subst was
      exact absurd (congrArg some channel.symm) (unheld id _ running)
    case isFalse => exact seated.seating id join aimed current running found

theorem shrink (seated : Seated manager) {call : CallId} {old row : Call}
    (stored : manager.calls.get? call = some old) (within : row.Within old) :
    Seated (manager.setCall call row) where
  sound := seated.sound.setCall stored row within.channelId
  alone := by
    intro id current found
    simp only [CallManager.setCall, Table.get?_put] at found
    split at found
    case isTrue =>
      cases found
      exact within.alone (seated.alone call old stored)
    case isFalse => exact seated.alone id current found
  seating := by
    intro id join aimed current running found
    simp only [CallManager.setCall, Table.get?_put] at found
    split at found
    case isTrue this =>
      cases found
      subst this
      exact within.without (seated.seating id join aimed old running stored)
    case isFalse => exact seated.seating id join aimed current running found

theorem disconnect (seated : Seated manager) (conn : SocketId) :
    Seated { manager with
      calls := manager.calls.mapRows fun id row =>
        if id ∈ manager.byId then row.onDisconnect conn else row } := by
  have within : ∀ id row, (manager.calls.mapRows fun id row =>
      if id ∈ manager.byId then row.onDisconnect conn else row).get? id =
        some row →
      ∃ old, manager.calls.get? id = some old ∧ row.Within old := by
    intro id row found
    rw [Table.get?_mapRows, Option.map_eq_some_iff] at found
    obtain ⟨old, stored, rfl⟩ := found
    refine ⟨old, stored, ?_⟩
    split
    · exact Call.Within.onDisconnect conn
    · exact Call.Within.refl old
  exact
    { sound := seated.sound.disconnect conn
      alone := by
        intro id row found
        obtain ⟨old, stored, kept⟩ := within id row found
        exact kept.alone (seated.alone id old stored)
      seating := by
        intro id join call row running found
        obtain ⟨old, stored, kept⟩ := within call row found
        exact kept.without (seated.seating id join call old running stored) }

theorem later (seated : Seated manager) {fresh : Nat}
    (grows : manager.fresh ≤ fresh) : Seated { manager with fresh } :=
  { seated with sound := seated.sound.later grows }

end Seated

theorem closed_seated : Closed (fun _ => True) Seated where
  sound := Seated.sound
  tables := fun seated _ => { seated with sound := { seated.sound with } }
  finish := fun {_ id} _ seated =>
    { seated with
      sound := seated.sound.finish id
      seating := fun other join call row stored =>
        seated.seating other join call row (mem_finish.mp stored).1 }
  setTask := by
    intro manager id task _ seated plain sound
    refine seated.setTask sound ?_
    rintro join call row rfl
    cases plain
  lock := fun seated unheld id =>
    { seated with sound := seated.sound.lock unheld id }
  unlock := fun seated unheld =>
    { seated with sound := seated.sound.unlock unheld }
  shrink := fun seated stored within => seated.shrink stored within
  disconnect := fun conn seated => seated.disconnect conn

theorem Call.without_of_values {call : Call} {conn : SocketId}
    (free : ¬ call.values.any (·.conn = some conn) = true) :
    call.Without conn := by
  intro p row stored held
  apply free
  rw [List.any_eq_true]
  exact ⟨row, Call.mem_values.mpr ⟨p, stored⟩, by simp [held]⟩

namespace Seated

theorem enter (seated : Seated manager) {join : Join}
    (unheld : Unheld manager join.channel) :
    Seated (manager.enter id join) := by
  have sound := seated.sound.enter unheld id
  have locked : Seated (manager.lock id join.channel) :=
    closed_seated.lock seated unheld id
  obtain same | ⟨-, next⟩ | ⟨call, row, -, stored, apart, next⟩ :=
    enter_cases manager id join
  · rw [same]
    exact seated
  · rw [next] at sound ⊢
    refine locked.setTask sound ?_
    intro _ _ _ impossible
    cases impossible
  · rw [next] at sound ⊢
    refine locked.setTask sound ?_
    intro _ _ found same also
    cases same
    rw [show manager.calls.get? call = some found from also,
      Option.some.injEq] at stored
    subst stored
    exact Call.without_of_values (Bool.eq_false_iff.mp apart)

theorem created (seated : Seated manager) {join : Join}
    (mine : manager.locks.get? join.channel = some id) :
    Seated (manager.created id join) where
  sound := seated.sound.created mine
  alone := by
    intro call row found
    simp only [CallManager.created, CallManager.setCall, CallManager.setTask,
      Table.get?_put] at found
    split at found
    case isTrue =>
      cases found
      intro p _ row _ _ impossible
      simp at impossible
    case isFalse => exact seated.alone call row found
  seating := by
    intro other current call row stored found
    obtain ⟨-, new⟩ | earlier := mem_setTask stored
    · cases new
      have empty : some (Call.mk join.channel ∅) = some row :=
        (Table.get?_put_self _ _ _).symm.trans found
      cases empty
      intro p row impossible
      simp at impossible
    · obtain ⟨kept, was, -⟩ :=
        seated.sound.target other _ current.channel call earlier rfl
      have older := Nat.ne_of_lt (seated.sound.fresh call kept was)
      have still : manager.calls.get? call = some row :=
        (Table.get?_put_ne _ _ older).symm.trans found
      exact seated.seating other current call row earlier still

theorem seat (seated : Seated manager) {join : Join} {call : CallId} {row : Call}
    (stored : manager.calls.get? call = some row)
    (ours : row.channelId = join.channel)
    (unheld : Unheld manager join.channel) (without : row.Without join.conn) :
    Seated (manager.seat join call row) := by
  have alone := (seated.alone call row stored).add
    (p := ⟨manager.fresh, join.user, some join.conn, manager.fresh + 1, none,
      false⟩) rfl without
  have sitting := seated.setCall stored alone rfl (ours ▸ unheld)
  have done := closed_seated.unlock sitting unheld
  exact done.later (Nat.le_add_right manager.fresh 2)

theorem runResume (seated : Seated manager) {resume : Resume} {row : Call}
    (stored : manager.calls.get? resume.call = some row)
    (unheld : Unheld manager row.channelId)
    (apart : ∀ p, row.participants.get? resume.participant = some p →
      p.admits resume.user resume.token = true →
      ∀ q other, row.participants.get? q = some other →
        other.conn = some resume.conn → q = resume.participant) :
    Seated (manager.runResume resume row) := by
  unfold CallManager.runResume
  split
  case h_1 => exact seated
  case h_2 p member =>
    split
    case isTrue admitted =>
      have alone := (seated.alone resume.call row stored).resume
        (apart p member admitted) resume.token manager.fresh
      have resumed := seated.setCall stored alone rfl unheld
      exact resumed.later (Nat.le_add_right manager.fresh 1)
    case isFalse => exact seated

theorem destroyIfEmpty (seated : Seated manager) (channel : ChannelId)
    (call : CallId) : Seated (manager.destroyIfEmpty channel call) where
  sound := seated.sound.destroyIfEmpty channel call
  alone := by simpa using seated.alone
  seating := by simpa using seated.seating

theorem start : Seated CallManager.start where
  sound := Sound.start
  alone := by simp [CallManager.start]
  seating := by simp [CallManager.start]

end Seated

theorem Seated.setJoin (seated : Seated manager) {join : Join}
    (either : task = .member join ∨ task = .waiting join) :
    Seated (manager.setTask id task) := by
  have sound := seated.sound
  obtain rfl | rfl := either
  all_goals
    refine seated.setTask (sound.setIdle rfl rfl) ?_
    intro _ _ _ impossible
    cases impossible

theorem carried_seated : Carried (fun _ => True) Seated ResumesApart where
  removeMember := fun seated _ =>
    { seated with sound := { seated.sound with } }
  deleteChannel := fun seated _ =>
    { seated with sound := { seated.sound with } }
  checkMember := fun _ seated _ => seated.setJoin (Or.inl rfl)
  checkChannel := fun _ _ _ left => left.setJoin (Or.inr rfl)
  enter := fun _ _ _ left unheld => left.enter unheld
  created := fun _ _ _ left _ mine => left.created mine
  seat := fun {_ id join call row} seated running left unheld stored ours =>
    left.seat stored ours unheld
      (seated.seating id join call row running stored)
  settle := fun _ _ _ left _ => left.destroyIfEmpty _ _
  giveUp := fun _ _ _ left _ => left.destroyIfEmpty _ _
  runResume := fun {_ _ resume row} _ guard running left free unheld stored =>
    left.runResume stored unheld fun p member admitted =>
      guard resume row p running stored free member admitted
  janusLost := fun seated =>
    { seated with sound := seated.sound.janusLost }

theorem resumesApart_of_oneParticipant {action : CallAction}
    (_ : Seated manager) (taken : callStep manager action = some next)
    (oneParticipant : OneParticipant next) : ResumesApart manager action := by
  cases action with
  | runResume id =>
      intro resume call row running stored free member admitted q other also held
      simp only [callStep, CallManager.popTask, running, Option.map_some, stored,
        free, if_true, Option.some.injEq, CallManager.runResume, member,
        admitted] at taken
      subst taken
      by_contra different
      have alone := oneParticipant.alone resume.call _
        (Table.get?_put_self _ _ _)
      have resumed : (call.update resume.participant
          (·.resume resume.conn resume.token manager.fresh)).participants.get?
            resume.participant =
          some (row.resume resume.conn resume.token manager.fresh) := by
        simp [Call.update, member]
      have still : (call.update resume.participant
          (·.resume resume.conn resume.token manager.fresh)).participants.get?
            q = some other := by
        simp [Call.update, also, different]
      exact different (alone q resume.participant other _ resume.conn still
        resumed held rfl)
  | _ => trivial

theorem resumesApart_of_stuck {action : CallAction}
    (stuck : callStep manager action = none) : ResumesApart manager action := by
  cases action with
  | runResume id =>
      intro resume call row running stored free
      simp [callStep, CallManager.popTask, running, stored, free] at stuck
  | _ => trivial

/-- In every state of a run a socket holds one participant of a call at most,
exactly when no socket resumes beside another participant that it holds. -/
theorem one_participant_iff_resumesApart (actions : List CallAction) :
    Throughout callStep OneParticipant CallManager.start actions ↔
      Along callStep ResumesApart CallManager.start actions :=
  throughout_iff_along Seated.oneParticipant
    (fun kept guard taken =>
      closed_seated.step_of_carried carried_seated kept
        (fun _ _ => trivial) guard taken)
    resumesApart_of_oneParticipant resumesApart_of_stuck Seated.start

/-- A user joins from two sockets, and resumes the first participant on the
second socket. -/
def resumedBeside : List CallAction :=
  [.createChannel 1, .addMember 1 10,
    .join 1 ⟨100, 10, 1⟩, .checkMember 1, .checkChannel 1, .enter 1, .created 1,
    .seat 1,
    .join 2 ⟨101, 10, 1⟩, .checkMember 2, .checkChannel 2, .enter 2, .seat 2,
    .resume 3 ⟨101, 10, 0, 1, 2⟩, .runResume 3]

theorem two_participants_on_one_socket :
    ¬ ∀ (actions : List CallAction) (manager : CallManager),
      run callStep CallManager.start actions = some manager →
      OneParticipant manager := by
  intro claimed
  obtain ⟨manager, reached, call, stored, row, other, first, second, here,
      there⟩ : ∃ manager,
      run callStep CallManager.start resumedBeside = some manager ∧
        ∃ call, manager.calls.get? 0 = some call ∧
          ∃ row other, call.participants.get? 1 = some row ∧
            call.participants.get? 3 = some other ∧
            row.conn = some 101 ∧ other.conn = some 101 :=
    ⟨_, rfl, _, rfl, _, _, rfl, rfl, rfl, rfl⟩
  have oneParticipant := claimed resumedBeside manager reached
  have alone := oneParticipant.alone 0 call stored
  have same := alone 1 3 row other 101 first second here there
  cases same

end Brook.Calls
