import Brook.Streams.Labels
import Mathlib.Data.Finset.Basic

namespace Brook.Streams

/-! The subscriptions of one call: `publish`, `reconcile`, the offers and their answers,
joining and leaving, between their awaits.  Who holds a participant's lock is kept with the
participant; every other task that has not ended is in `tasks`. -/

abbrev ParticipantId := Nat

abbrev FeedId := Nat

abbrev TaskId := Nat

/-- A publisher's stream. -/
abbrev Stream := FeedId × Mid

/-- A stream as Janus lists it with an offer. -/
structure Listed where
  feed : FeedId
  feedMid : Mid
  active : Bool
  kind : Option Kind
deriving DecidableEq

structure Offered where
  stream : Stream
  participant : ParticipantId
  kind : Kind
  source : Source
deriving DecidableEq

/-- A `call.subscribe.offer`. -/
structure Offer where
  version : Nat
  streams : List Offered
deriving DecidableEq

/-- What the task that holds a participant's lock awaits. -/
inductive Hold
  | attaching (desired : Finset Stream)
  | joining (desired : Finset Stream)
  | updating (desired : Finset Stream)
  /-- The subscriber's join has failed. -/
  | detaching
  /-- The update has failed. -/
  | resubscribing
  | sending
  | starting
  /-- The answer was refused. -/
  | resetting
  | destroying
deriving DecidableEq

structure Participant where
  feedId : FeedId
  conn : Bool
  streamSources : Sources
  pubMids : List Mid
  mediaUp : Bool
  subHid : Bool
  subStreams : Finset Stream
  subVersion : Nat
  subPending : Option Offer
  subDirty : Bool
  lock : Option Hold
  /-- The last offer that was made. -/
  offered : Option Offer
deriving DecidableEq

/-- A spawned task, a command or a listener, by what it awaits. -/
inductive Task
  | reconcile (p : ParticipantId)
  /-- An offer that Janus makes on its own. -/
  | offer (p : ParticipantId) (streams : List Listed)
  | answer (p : ParticipantId) (version : Nat)
  | configuring (p : ParticipantId) (mids : List Mid) (sources : Sources)
  /-- `publish` tells the others. -/
  | announcing
  | join (p : ParticipantId)
  | seating (p : ParticipantId)
  /-- `call.joined` is sent. -/
  | replying
  | remove (p : ParticipantId) (onlyIfDetached : Bool)
  /-- `remove` has taken the participant out, and waits for its lock. -/
  | closing (p : ParticipantId)
  | destroying (p : ParticipantId)
  | telling
  | ending
  /-- `remove` tells the channel. -/
  | leaving
deriving DecidableEq

structure Call where
  /-- Every `Participant` there ever was. -/
  people : Table ParticipantId Participant
  participants : List ParticipantId
  tasks : Table TaskId Task
  spawned : TaskId
  /-- The channel's lock is held. -/
  locked : Bool
  ended : Bool
deriving DecidableEq

/-- Each `ok` says whether Janus answers with success. -/
inductive Action
  | join (p : ParticipantId)
  | seat (task : TaskId)
  | seated (task : TaskId) (ok : Bool) (feed : FeedId)
  | replied (task : TaskId)
  | publish (p : ParticipantId) (mlines : List MLine) (tracks : Option (List Track))
  | configured (task : TaskId) (ok : Bool)
  | announced (task : TaskId)
  /-- `webrtcup` or `hangup`. -/
  | media (p : ParticipantId) (up : Bool)
  | answer (p : ParticipantId) (version : Nat)
  | renegotiate (p : ParticipantId) (streams : List Listed)
  | lock (task : TaskId)
  | attached (p : ParticipantId) (ok : Bool)
  /-- `offer`: what Janus's answer lists, if it has an offer. -/
  | subscribed (p : ParticipantId) (ok : Bool) (offer : Option (List Listed))
  | detached (p : ParticipantId)
  | sent (p : ParticipantId)
  | started (p : ParticipantId) (ok : Bool)
  /-- `call.leave`, the end of the grace, or that of a membership. -/
  | remove (p : ParticipantId) (onlyIfDetached : Bool)
  | removing (task : TaskId)
  | destroyed (task : TaskId)
  | told (task : TaskId)
  | callEnded (task : TaskId)
  /-- `read`: the members could be read, to tell them. -/
  | left (task : TaskId) (read : Bool)
  | disconnect (p : ParticipantId)
  | resume (p : ParticipantId)

def maxParticipants : Nat := 8

def Participant.new : Participant :=
  ⟨0, true, ∅, [], false, false, ∅, 0, none, false, none, none⟩

namespace Call

def start : Call := ⟨∅, [], ∅, 0, false, false⟩

def update (call : Call) (p : ParticipantId) (write : Participant → Participant) : Call :=
  { call with people := call.people.mapRows fun other row => if other = p then write row else row }

/-- `_spawn` -/
def spawn (call : Call) (task : Task) : Call :=
  { call with
    tasks := call.tasks.put call.spawned task
    spawned := call.spawned + 1 }

def ends (call : Call) (task : TaskId) : Call :=
  { call with tasks := call.tasks.filter fun other _ => other ≠ task }

def becomes (call : Call) (task : TaskId) (next : Task) : Call :=
  { call with tasks := call.tasks.put task next }

/-- `_reconcile_all` -/
def reconcileAll (call : Call) : Call :=
  call.participants.foldl (fun call p => call.spawn (.reconcile p)) call

/-- The streams of a participant, once its media is up. -/
def streamsOf (call : Call) (p : ParticipantId) : List Stream :=
  (call.people.get? p).elim [] fun row =>
    if row.mediaUp then row.streamSources.rows.map fun stream => (row.feedId, stream.1) else []

/-- The streams of every other participant whose media is up. -/
def desired (call : Call) (p : ParticipantId) : Finset Stream :=
  ((call.participants.filter (· ≠ p)).flatMap call.streamsOf).toFinset

def hasFeed (call : Call) (feed : FeedId) (p : ParticipantId) : Bool :=
  (call.people.get? p).any (·.feedId = feed)

/-- `by_feed` -/
def byFeed (call : Call) (feed : FeedId) : Option ParticipantId :=
  call.participants.reverse.find? (call.hasFeed feed)

/-- What the offer says of a stream that Janus lists. -/
def describe (call : Call) (stream : Listed) : Option Offered :=
  match call.byFeed stream.feed, stream.kind with
  | some owner, some kind =>
      if stream.active then
        some ⟨(stream.feed, stream.feedMid), owner, kind,
          ((call.people.get? owner).bind (·.streamSources.get? stream.feedMid)).getD kind.usual⟩
      else none
  | _, _ => none

/-- `_offer`, up to its send. -/
def offer (call : Call) (p : ParticipantId) (streams : List Listed) : Call :=
  call.update p fun row =>
    let offer : Offer := ⟨row.subVersion + 1, streams.filterMap call.describe⟩
    { row with
      subVersion := row.subVersion + 1
      subPending := some offer
      offered := some offer
      lock := some .sending }

def unlock (call : Call) (p : ParticipantId) : Call :=
  call.update p fun row => { row with lock := none }

def hold (call : Call) (p : ParticipantId) (hold : Hold) : Call :=
  call.update p fun row => { row with lock := some hold }

/-- `reconcile`, from the lock to its first await. -/
def reconcile (call : Call) (p : ParticipantId) (row : Participant) : Call :=
  if p ∉ call.participants then call
  else if row.subPending.isSome then call.update p fun row => { row with subDirty := true }
  else if call.desired p = row.subStreams then call
  else if row.subHid then call.hold p (.updating (call.desired p))
  else call.hold p (.attaching (call.desired p))

/-- Janus has taken the subscription. -/
def subscribed (call : Call) (p : ParticipantId) (desired : Finset Stream)
    (offer : Option (List Listed)) : Call :=
  let call := call.update p fun row =>
    { row with
      subHid := true
      subStreams := desired
      lock := none }
  match offer with
  | some streams => call.offer p streams
  | none => call

/-- `subscribe_answer`, from the lock to its first await. -/
def answer (call : Call) (p : ParticipantId) (row : Participant) (version : Nat) : Call :=
  if row.subPending.isNone ∨ version ≠ row.subVersion ∨ row.subHid = false then call
  else call.hold p .starting

/-- The answer was taken: what was put off while it was awaited is done now. -/
def started (call : Call) (p : ParticipantId) (row : Participant) : Call :=
  let call := call.update p fun row =>
    { row with
      subPending := none
      subDirty := false
      lock := none }
  if row.subDirty then call.spawn (.reconcile p) else call

/-- The subscribe PC is dropped, to be made again. -/
def resubscribe (call : Call) (p : ParticipantId) : Call :=
  (call.update p fun row =>
    { row with
      subHid := false
      subStreams := ∅
      lock := none }).spawn (.reconcile p)

/-- An m-line that was published keeps its mid. -/
def keepsMids (row : Participant) (mlines : List MLine) : Bool :=
  (row.pubMids.zip mlines).all fun pair => pair.1 = pair.2.mid

end Call

def step (call : Call) : Action → Option Call
  | .join p =>
      if call.people.contains p ∨ call.ended then none
      else some ({ call with people := call.people.put p .new }.spawn (.join p))
  | .seat task =>
      match call.tasks.get? task with
      | some (.join p) =>
          if call.locked then none
          -- A new call is made for whoever comes later.
          else if call.ended ∨ maxParticipants ≤ call.participants.length then
            some (call.ends task)
          else some { call.becomes task (.seating p) with locked := true }
      | _ => none
  | .seated task ok feed =>
      match call.tasks.get? task with
      | some (.seating p) =>
          if ok then
            -- Janus gives no feed id twice in a room.
            if call.participants.any (call.hasFeed feed) then none
            else (call.people.get? p).map fun row =>
              { call.becomes task .replying with
                people := call.people.put p { row with feedId := feed }
                participants := call.participants ++ [p]
                locked := false }
          else
            some { call.ends task with
              locked := false
              ended := call.ended || call.participants.isEmpty }
      | _ => none
  | .replied task =>
      match call.tasks.get? task with
      | some .replying => some (call.ends task).reconcileAll
      | _ => none
  | .publish p mlines tracks =>
      match call.people.get? p with
      | some row =>
          if p ∈ call.participants ∧ row.conn ∧ Call.keepsMids row mlines then
            (labelStreams mlines tracks row.streamSources).map fun sources =>
              call.spawn (.configuring p (mlines.map (·.mid)) sources)
          else none
      | none => none
  | .configured task ok =>
      match call.tasks.get? task with
      | some (.configuring p mids sources) =>
          some (if ok then
              (call.update p fun row =>
                { row with
                  streamSources := sources
                  pubMids := mids }).becomes task .announcing
            else call.ends task)
      | _ => none
  | .announced task =>
      match call.tasks.get? task with
      | some .announcing => some (call.ends task).reconcileAll
      | _ => none
  | .media p up =>
      some (call.update p fun row => { row with mediaUp := up }).reconcileAll
  | .answer p version =>
      if p ∈ call.participants ∧ (call.people.get? p).any (·.conn) then
        some (call.spawn (.answer p version))
      else none
  | .renegotiate p streams => some (call.spawn (.offer p streams))
  | .lock task =>
      match call.tasks.get? task with
      | some (.reconcile p) =>
          (call.people.get? p).bind fun row =>
            if row.lock = none then some ((call.ends task).reconcile p row) else none
      | some (.offer p streams) =>
          (call.people.get? p).bind fun row =>
            if row.lock = none then some ((call.ends task).offer p streams) else none
      | some (.answer p version) =>
          (call.people.get? p).bind fun row =>
            if row.lock = none then some ((call.ends task).answer p row version) else none
      | some (.closing p) =>
          (call.people.get? p).bind fun row =>
            if row.lock = none then
              some ((call.becomes task (.destroying p)).hold p .destroying)
            else none
      | _ => none
  | .attached p ok =>
      match (call.people.get? p).bind (·.lock) with
      | some (.attaching desired) =>
          some (if ok then call.hold p (.joining desired) else call.unlock p)
      | _ => none
  | .subscribed p ok offer =>
      match (call.people.get? p).bind (·.lock) with
      | some (.joining desired) =>
          some (if ok then call.subscribed p desired offer else call.hold p .detaching)
      | some (.updating desired) =>
          some (if ok then call.subscribed p desired offer else call.hold p .resubscribing)
      | _ => none
  | .detached p =>
      match (call.people.get? p).bind (·.lock) with
      | some .detaching => some (call.unlock p)
      | some .resubscribing => some (call.resubscribe p)
      | some .resetting =>
          some ((call.update p fun row =>
            { row with
              subPending := none
              subDirty := false }).resubscribe p)
      | _ => none
  | .sent p =>
      match (call.people.get? p).bind (·.lock) with
      | some .sending => some (call.unlock p)
      | _ => none
  | .started p ok =>
      (call.people.get? p).bind fun row =>
        match row.lock with
        | some .starting => some (if ok then call.started p row else call.hold p .resetting)
        | _ => none
  | .remove p onlyIfDetached => some (call.spawn (.remove p onlyIfDetached))
  | .removing task =>
      match call.tasks.get? task with
      | some (.remove p onlyIfDetached) =>
          if call.locked then none
          else if (onlyIfDetached ∧ (call.people.get? p).any (·.conn)) ∨
              p ∉ call.participants then
            some (call.ends task)
          else
            some { call.becomes task (.closing p) with
              participants := call.participants.filter (· ≠ p)
              locked := true }
      | _ => none
  | .destroyed task =>
      match call.tasks.get? task with
      | some (.destroying p) => some ((call.becomes task .telling).unlock p)
      | _ => none
  | .told task =>
      match call.tasks.get? task with
      | some .telling =>
          some (if call.participants.isEmpty then
              { call.becomes task .ending with ended := true }
            else { call.becomes task .leaving with locked := false })
      | _ => none
  | .callEnded task =>
      match call.tasks.get? task with
      | some .ending => some { call.becomes task .leaving with locked := false }
      | _ => none
  | .left task read =>
      match call.tasks.get? task with
      | some .leaving => some (if read then (call.ends task).reconcileAll else call.ends task)
      | _ => none
  | .disconnect p => some (call.update p fun row => { row with conn := false })
  | .resume p =>
      if call.locked = false ∧ p ∈ call.participants then
        some (call.update p fun row => { row with conn := true })
      else none

end Brook.Streams
