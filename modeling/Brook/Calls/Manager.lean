import Brook.Calls.Participant
import Brook.Table.Basic

namespace Brook.Calls

/-! The call manager between its awaits: the calls and their participants, the
channel locks, the commands, removals and spawned tasks that are going on, and
the rows that a join reads.  A call object lives on in its tasks after both
dictionaries have dropped it, so all of them are kept. -/

abbrev TaskId := Nat

structure Call where
  channelId : ChannelId
  participants : Table ParticipantId Participant

/-- A `call.join`: the socket, its user and the channel. -/
structure Join where
  conn : SocketId
  user : UserId
  channel : ChannelId
deriving DecidableEq

structure Resume where
  conn : SocketId
  user : UserId
  call : CallId
  participant : ParticipantId
  token : Token
deriving DecidableEq

/-- Where a task stands.  `rest` is what the loop of `end_for_user` or
`end_channel` has left. -/
inductive Task
  | joining (join : Join)
  /-- The membership was read, the channel is next. -/
  | member (join : Join)
  | waiting (join : Join)
  /-- In `_create_call`. -/
  | creating (join : Join)
  | seating (join : Join) (call : CallId)
  /-- The SFU refused the join, and its session is being destroyed. -/
  | refused (channel : ChannelId) (call : CallId)
  /-- A removal that waits for the lock. -/
  | removing (channel : ChannelId) (call : CallId)
      (participant : ParticipantId) (onlyIfDetached : Bool)
      (rest : List ParticipantId)
  /-- The participant is out of the call, its session is being destroyed. -/
  | removed (channel : ChannelId) (call : CallId) (rest : List ParticipantId)
  /-- The last awaits under the lock. -/
  | closing (channel : ChannelId) (call : CallId) (rest : List ParticipantId)
  /-- A member's removal is committed, `end_for_user` has not run yet. -/
  | endUser (channel : ChannelId) (user : UserId)
  | endChannel (channel : ChannelId)
  | resuming (resume : Resume)
  /-- `_on_janus_lost`: the participants it has yet to tell. -/
  | losing (rest : List (CallId × ParticipantId))
deriving DecidableEq

structure CallManager where
  /-- The tables: memberships, and the channels with whether they are archived. -/
  members : List (ChannelId × UserId)
  channels : Table ChannelId Bool
  calls : Table CallId Call
  byChannel : Table ChannelId CallId
  byId : List CallId
  locks : Table ChannelId TaskId
  tasks : Table TaskId Task
  /-- Ids and tokens from here on were never drawn. -/
  fresh : Nat

inductive CallAction
  | createChannel (channel : ChannelId)
  | setArchived (channel : ChannelId) (archived : Bool)
  | addMember (channel : ChannelId) (user : UserId)
  | removeMember (task : TaskId) (channel : ChannelId) (user : UserId)
  | deleteChannel (task : TaskId) (channel : ChannelId)
  | runEnd (task : TaskId)
  | join (task : TaskId) (join : Join)
  | checkMember (task : TaskId)
  | checkChannel (task : TaskId)
  | enter (task : TaskId)
  | created (task : TaskId)
  | seat (task : TaskId)
  | seatFails (task : TaskId)
  | giveUp (task : TaskId)
  /-- The lock is let go at the end, or by an exception. -/
  | release (task : TaskId)
  | raise (task : TaskId)
  | leave (task : TaskId) (conn : SocketId) (call : CallId)
  | graceExpires (task : TaskId) (call : CallId) (participant : ParticipantId)
  | takeOut (task : TaskId)
  | settle (task : TaskId)
  | disconnect (conn : SocketId)
  | resume (task : TaskId) (resume : Resume)
  | runResume (task : TaskId)
  | janusLost (task : TaskId)
  | loseNext (task : TaskId)

/-- The channel whose lock the task holds. -/
def Task.holds : Task → Option ChannelId
  | .creating join => some join.channel
  | .seating join _ => some join.channel
  | .refused channel _ => some channel
  | .removed channel _ _ => some channel
  | .closing channel _ _ => some channel
  | _ => none

def maxParticipants : Nat := 8

namespace Call

/-- `call.participants.values()`, in the order of insertion. -/
def values (call : Call) : List Participant :=
  call.participants.values.reverse

def update (call : Call) (p : ParticipantId)
    (write : Participant → Participant) : Call :=
  { call with
    participants := call.participants.mapRows fun other row =>
      if other = p then write row else row }

def add (call : Call) (p : Participant) : Call :=
  { call with participants := call.participants.put p.participantId p }

def pop (call : Call) (p : ParticipantId) : Call :=
  { call with
    participants := call.participants.filter fun other _ => other ≠ p }

def onDisconnect (call : Call) (conn : SocketId) : Call :=
  { call with
    participants := call.participants.mapRows fun _ row =>
      row.onDisconnect conn }

end Call

namespace CallManager

def start : CallManager := ⟨[], ∅, ∅, ∅, [], ∅, ∅, 0⟩

def free (manager : CallManager) (channel : ChannelId) : Bool :=
  !manager.locks.contains channel

def setTask (manager : CallManager) (id : TaskId) (task : Task) : CallManager :=
  { manager with tasks := manager.tasks.put id task }

def finish (manager : CallManager) (id : TaskId) : CallManager :=
  { manager with tasks := manager.tasks.filter fun other _ => other ≠ id }

/-- A task that runs on from its await: where it stood, and the rest. -/
def popTask (manager : CallManager) (id : TaskId) :
    Option (Task × CallManager) :=
  (manager.tasks.get? id).map fun task => (task, manager.finish id)

def spawn (manager : CallManager) (id : TaskId) (task : Task) :
    Option CallManager :=
  if manager.tasks.contains id then none else some (manager.setTask id task)

def lock (manager : CallManager) (id : TaskId) (channel : ChannelId) :
    CallManager :=
  { manager with locks := manager.locks.put channel id }

def unlock (manager : CallManager) (channel : ChannelId) : CallManager :=
  { manager with locks := manager.locks.filter fun other _ => other ≠ channel }

def setCall (manager : CallManager) (id : CallId) (call : Call) : CallManager :=
  { manager with calls := manager.calls.put id call }

/-- The loop of `end_for_user` and `end_channel`; any other removal ends. -/
def continueWith (manager : CallManager) (id : TaskId) (channel : ChannelId)
    (call : CallId) : List ParticipantId → CallManager
  | [] => manager
  | p :: rest => manager.setTask id (.removing channel call p false rest)

/-- `_destroy_call`, up to its first await. -/
def destroyCall (manager : CallManager) (channel : ChannelId) (call : CallId) :
    CallManager :=
  { manager with
    byChannel := manager.byChannel.filter fun other _ => other ≠ channel
    byId := manager.byId.filter (· ≠ call) }

/-- `if not call.participants: await self._destroy_call(call)` -/
def destroyIfEmpty (manager : CallManager) (channel : ChannelId)
    (call : CallId) : CallManager :=
  match manager.calls.get? call with
  | some row =>
      if row.participants.rows.isEmpty then manager.destroyCall channel call
      else manager
  | none => manager

/-- `join` once it has the lock, up to its first await. -/
def enter (manager : CallManager) (id : TaskId) (join : Join) : CallManager :=
  match manager.byChannel.get? join.channel with
  | none => (manager.lock id join.channel).setTask id (.creating join)
  | some call =>
      match manager.calls.get? call with
      | none => manager
      | some row =>
          if row.values.any (·.conn = some join.conn) then manager
          else if maxParticipants ≤ row.values.length then manager
          else (manager.lock id join.channel).setTask id (.seating join call)

def created (manager : CallManager) (id : TaskId) (join : Join) : CallManager :=
  let call := manager.fresh
  { (manager.setCall call ⟨join.channel, ∅⟩).setTask id (.seating join call) with
    byChannel := manager.byChannel.put join.channel call
    byId := call :: manager.byId
    fresh := manager.fresh + 1 }

def seat (manager : CallManager) (join : Join) (call : CallId)
    (row : Call) : CallManager :=
  let p : Participant := ⟨manager.fresh, join.user, some join.conn,
    manager.fresh + 1, none, false⟩
  { (manager.setCall call (row.add p)).unlock join.channel with
    fresh := manager.fresh + 2 }

/-- `remove` once it has the lock, up to its first await. -/
def takeOut (manager : CallManager) (id : TaskId) (channel : ChannelId)
    (call : CallId) (p : ParticipantId) (onlyIfDetached : Bool)
    (rest : List ParticipantId) : CallManager :=
  match manager.calls.get? call with
  | none => manager.continueWith id channel call rest
  | some row =>
      match row.participants.get? p with
      | none => manager.continueWith id channel call rest
      | some participant =>
          if onlyIfDetached ∧ participant.conn.isSome then
            manager.continueWith id channel call rest
          else
            ((manager.setCall call (row.pop p)).lock id channel).setTask id
              (.removed channel call rest)

/-- `end_for_user` up to its first await; every user, for `end_channel`. -/
def endParticipants (manager : CallManager) (id : TaskId) (channel : ChannelId)
    (ends : UserId → Bool) : CallManager :=
  match manager.byChannel.get? channel with
  | none => manager
  | some call =>
      match manager.calls.get? call with
      | none => manager
      | some row =>
          manager.continueWith id channel call
            ((row.participants.rows.reverse.filter fun entry =>
              ends entry.2.userId).map Prod.fst)

/-- The grace task of a participant runs out, or is cancelled. -/
def stopGrace (manager : CallManager) (call : CallId) (p : ParticipantId) :
    CallManager :=
  match manager.calls.get? call with
  | none => manager
  | some row => manager.setCall call
      (row.update p fun participant => { participant with grace := false })

/-- The participants of the calls in `by_id`, in their order. -/
def listed (manager : CallManager) : List (CallId × ParticipantId) :=
  manager.byId.reverse.flatMap fun id =>
    match manager.calls.get? id with
    | none => []
    | some row => row.participants.rows.reverse.map fun entry => (id, entry.1)

/-- `resume` once it has the lock. -/
def runResume (manager : CallManager) (resume : Resume)
    (row : Call) : CallManager :=
  match row.participants.get? resume.participant with
  | none => manager
  | some p =>
      if p.admits resume.user resume.token then
        { manager.setCall resume.call (row.update resume.participant
            (·.resume resume.conn resume.token manager.fresh)) with
          fresh := manager.fresh + 1 }
      else manager

end CallManager

def callStep (manager : CallManager) : CallAction → Option CallManager
  | .createChannel channel =>
      if manager.channels.contains channel then none
      else some { manager with channels := manager.channels.put channel false }
  | .setArchived channel archived =>
      if manager.channels.contains channel then
        some { manager with channels := manager.channels.put channel archived }
      else none
  | .addMember channel user =>
      if manager.channels.contains channel then
        some { manager with members := (channel, user) :: manager.members }
      else none
  | .removeMember id channel user =>
      if (channel, user) ∈ manager.members then
        { manager with
          members := manager.members.filter (· ≠ (channel, user)) }.spawn id
            (.endUser channel user)
      else none
  | .deleteChannel id channel =>
      if manager.channels.contains channel then
        { manager with
          channels := manager.channels.filter fun other _ => other ≠ channel
          members := manager.members.filter (·.1 ≠ channel) }.spawn id
            (.endChannel channel)
      else none
  | .runEnd id =>
      match manager.popTask id with
      | some (.endUser channel user, rest) =>
          some (rest.endParticipants id channel (· = user))
      | some (.endChannel channel, rest) =>
          some (rest.endParticipants id channel fun _ => true)
      | _ => none
  | .join id join => manager.spawn id (.joining join)
  | .checkMember id =>
      match manager.popTask id with
      | some (.joining join, rest) =>
          if (join.channel, join.user) ∈ manager.members then
            some (rest.setTask id (.member join))
          else some rest
      | _ => none
  | .checkChannel id =>
      match manager.popTask id with
      | some (.member join, rest) =>
          if manager.channels.get? join.channel = some false then
            some (rest.setTask id (.waiting join))
          else some rest
      | _ => none
  | .enter id =>
      match manager.popTask id with
      | some (.waiting join, rest) =>
          if manager.free join.channel then some (rest.enter id join) else none
      | _ => none
  | .created id =>
      match manager.popTask id with
      | some (.creating join, rest) => some (rest.created id join)
      | _ => none
  | .seat id =>
      match manager.popTask id with
      | some (.seating join call, rest) =>
          (manager.calls.get? call).map (rest.seat join call)
      | _ => none
  | .seatFails id =>
      match manager.popTask id with
      | some (.seating join call, rest) =>
          some (rest.setTask id (.refused join.channel call))
      | _ => none
  | .giveUp id =>
      match manager.popTask id with
      | some (.refused channel call, rest) =>
          some ((rest.destroyIfEmpty channel call).setTask id
            (.closing channel call []))
      | _ => none
  | .release id =>
      match manager.popTask id with
      | some (.closing channel call left, rest) =>
          some ((rest.unlock channel).continueWith id channel call left)
      | _ => none
  | .raise id =>
      match manager.popTask id with
      | some (.losing _, rest) => some rest
      | some (task, rest) => task.holds.map rest.unlock
      | none => none
  | .leave id conn call =>
      if call ∈ manager.byId then
        match manager.calls.get? call with
        | none => none
        | some row =>
            match participantOf row.values conn with
            | none => none
            | some p => manager.spawn id
                (.removing row.channelId call p.participantId false [])
      else none
  | .graceExpires id call p =>
      match manager.calls.get? call with
      | none => none
      | some row =>
          if (row.participants.get? p).any (·.grace) then
            (manager.stopGrace call p).spawn id
              (.removing row.channelId call p true [])
          else none
  | .takeOut id =>
      match manager.popTask id with
      | some (.removing channel call p onlyIfDetached left, rest) =>
          if manager.free channel then
            some (rest.takeOut id channel call p onlyIfDetached left)
          else none
      | _ => none
  | .settle id =>
      match manager.popTask id with
      | some (.removed channel call left, rest) =>
          some ((rest.destroyIfEmpty channel call).setTask id
            (.closing channel call left))
      | _ => none
  | .disconnect conn =>
      some { manager with
        calls := manager.calls.mapRows fun id row =>
          if id ∈ manager.byId then row.onDisconnect conn else row }
  | .resume id resume =>
      if resume.call ∈ manager.byId then manager.spawn id (.resuming resume)
      else none
  | .runResume id =>
      match manager.popTask id with
      | some (.resuming resume, rest) =>
          match manager.calls.get? resume.call with
          | none => none
          | some row =>
              if manager.free row.channelId then some (rest.runResume resume row)
              else none
      | _ => none
  | .janusLost id =>
      { manager with
        byChannel := ∅
        byId := [] }.spawn id (.losing manager.listed)
  | .loseNext id =>
      match manager.popTask id with
      | some (.losing [], rest) => some rest
      | some (.losing ((call, p) :: left), rest) =>
          some ((rest.stopGrace call p).setTask id (.losing left))
      | _ => none

end Brook.Calls
