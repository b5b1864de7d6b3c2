import Brook.Channels.Ownership

namespace Brook.Files

/-! The `files` table, the files directory, and the routes and the sweep that
write them.  A step is one statement of a transaction, one call on the file
system, or what runs between two awaits; a statement that would wait for a row
is not enabled. -/

abbrev UserId := Channels.UserId

abbrev ChannelId := Channels.ChannelId

abbrev MessageId := Nat

abbrev FileId := Nat

abbrev TaskId := Nat

/-- Seconds. -/
abbrev Time := Nat

abbrev Bytes := List UInt8

abbrev Digest := Nat

/-- The random part of a part file's name. -/
abbrev PartName := Nat

inductive Status
  | pending
  | committed
deriving DecidableEq

structure File where
  channelId : ChannelId
  uploaderId : UserId
  size : Nat
  status : Status
  sha256 : Option Digest
  messageId : Option MessageId
  createdAt : Time

/-- The values of the compare-and-set of `_stream_and_commit`. -/
def File.commit (row : File) (digest : Digest) : File :=
  { row with status := .committed, sha256 := some digest }

/-- A file on disk; `touched` is its `st_mtime`. -/
structure Stored where
  bytes : Bytes
  touched : Time

inductive Path
  | final (id : FileId)
  | part (id : FileId) (name : PartName)
deriving DecidableEq

/-- How far a `PUT` is, with the bytes that its `PartWriter` has hashed:
`flipped` after its `UPDATE`, `closing` once its part is discarded, `closed` once
it has left the registry of uploads. -/
inductive PutStage
  | begun
  | looked (declared : Nat)
  | registered (declared : Nat)
  | streaming (declared : Nat) (name : PartName) (written : Bytes)
  | finished (name : PartName) (written : Bytes)
  | flipped (name : PartName) (written : Bytes)
  | renamed (written : Bytes)
  | closing
  | closed

inductive DeleteStage
  | begun
  | looked
  | deleting
  | removing
  | removingParts
deriving DecidableEq

inductive AttachStage
  | begun
  | locked

/-- `sweep_once` from the read of the clock and the busy uploads to the last
`unlink`. -/
inductive SweepStage
  | begun
  | deleting (now : Time) (busy : List FileId)
  | deleted (now : Time) (pending : List FileId)
  | selected (doomed : List FileId)
  | committed (doomed : List FileId)
  | removing (doomed known : List FileId)
  | removingParts (id : FileId) (doomed known : List FileId)
  | unlinking (paths : List Path) (known : List FileId)

inductive Task
  | create (id : FileId) (row : File)
  | put (id : FileId) (user : UserId) (stage : PutStage)
  | delete (id : FileId) (user : UserId) (stage : DeleteStage)
  | attach (message : MessageId) (user : UserId) (channel : ChannelId)
      (ids : List FileId) (stage : AttachStage)
  | sweep (stage : SweepStage)

/-- `used` has every id that was ever in the table; `rows` is what is committed
there, `locks` who has written or locked a row, `inFlight` the `PUT` that is
registered for a file. -/
structure Db where
  now : Time
  used : List FileId
  rows : Table FileId File
  locks : Table FileId TaskId
  finals : Table FileId Stored
  parts : Table (FileId × PartName) Stored
  inFlight : Table FileId TaskId
  tasks : Table TaskId Task

/-- What a task goes on with: an answer, a name, or a part of the body. -/
inductive Event
  | run
  | membership (role : Option Channels.Role)
  | open_ (name : PartName)
  | chunk (bytes : Bytes)
deriving DecidableEq

inductive Action
  | create (task : TaskId) (id : FileId) (user : UserId) (channel : ChannelId)
      (size : Nat)
  | put (task : TaskId) (id : FileId) (user : UserId)
  | delete (task : TaskId) (id : FileId) (user : UserId)
  | attach (task : TaskId) (message : MessageId) (user : UserId)
      (channel : ChannelId) (ids : List FileId)
  | sweep (task : TaskId)
  | advance (task : TaskId) (event : Event)
  | fail (task : TaskId)
  | crash
  | tick (seconds : Nat)

def maxUploadsPerUser : Nat := 3

def pendingTtl : Time := 60 * 60

def unattachedTtl : Time := 24 * 60 * 60

namespace Db

def start : Db := ⟨0, [], ∅, ∅, ∅, ∅, ∅, ∅⟩

def setTask (db : Db) (task : TaskId) (next : Task) : Db :=
  { db with tasks := db.tasks.put task next }

/-- The end of a task, with the rollback of what it has not committed. -/
def finish (db : Db) (task : TaskId) : Db :=
  { db with
    locks := db.locks.filter fun _ holder => holder ≠ task
    tasks := db.tasks.filter fun other _ => other ≠ task }

/-- The end of a transaction of a task that goes on. -/
def release (db : Db) (task : TaskId) : Db :=
  { db with locks := db.locks.filter fun _ holder => holder ≠ task }

def lockRows (db : Db) (task : TaskId) (ids : List FileId) : Db :=
  { db with locks := db.locks.putAll (ids.map fun id => (id, task)) }

/-- A row that another transaction holds. -/
def waits (db : Db) (task : TaskId) (id : FileId) : Bool :=
  match db.locks.get? id with
  | none => false
  | some holder => holder ≠ task

def deleteRows (db : Db) (ids : List FileId) : Db :=
  { db with rows := db.rows.filter fun id _ => id ∉ ids }

def unlink (db : Db) : Path → Db
  | .final id => { db with finals := db.finals.filter fun other _ => other ≠ id }
  | .part id name =>
      { db with parts := db.parts.filter fun other _ => other ≠ (id, name) }

/-- `_in_flight.add` -/
def register (db : Db) (task : TaskId) (id : FileId) : Db :=
  { db with inFlight := db.inFlight.put id task }

/-- `_in_flight.discard` -/
def leave (db : Db) (id : FileId) : Db :=
  { db with inFlight := db.inFlight.filter fun other _ => other ≠ id }

def openPart (db : Db) (id : FileId) (name : PartName) : Db :=
  { db with parts := db.parts.put (id, name) ⟨[], db.now⟩ }

/-- `part.write`: a part whose path is gone is written all the same. -/
def writePart (db : Db) (id : FileId) (name : PartName) (bytes : Bytes) : Db :=
  { db with
    parts := db.parts.mapRows fun path stored =>
      if path = (id, name) then ⟨bytes, db.now⟩ else stored }

/-- `part.commit_to` -/
def rename (db : Db) (id : FileId) (name : PartName) (part : Stored) : Db :=
  { db.unlink (.part id name) with finals := db.finals.put id part }

/-- The second half of `storage.remove`. -/
def unlinkParts (db : Db) (id : FileId) : Db :=
  { db with parts := db.parts.filter fun other _ => other.1 ≠ id }

/-- The uploads that a user has in flight. -/
def uploads (db : Db) (user : UserId) : Nat :=
  (db.inFlight.rows.filter fun entry =>
    match db.tasks.get? entry.2 with
    | some (.put _ uploader _) => uploader = user
    | _ => false).length

/-- The rows that a `DELETE ... RETURNING id` matches. -/
def matching (db : Db) (test : FileId → File → Bool) : List FileId :=
  (db.rows.filter test).rows.map Prod.fst

def stale (db : Db) (stored : Stored) : Bool :=
  stored.touched + pendingTtl < db.now

def staleEntries (db : Db) : List Path :=
  (db.finals.filter fun _ stored => db.stale stored).rows.map
      (fun entry => .final entry.1) ++
    (db.parts.filter fun _ stored => db.stale stored).rows.map
      (fun entry => .part entry.1.1 entry.1.2)

end Db

/-- `part.discard` of a `PUT` that has not renamed its part, and the way out. -/
def discard (db : Db) (task : TaskId) (id : FileId) (user : UserId)
    (name : PartName) : Db :=
  (db.unlink (.part id name)).setTask task (.put id user .closing)

/-- `upload_content` up to the registration of the upload. -/
def uploadStep (db : Db) (task : TaskId) (id : FileId) (user : UserId) :
    PutStage → Option Db
  | .begun =>
      match db.rows.get? id with
      | none => some (db.finish task)
      | some row =>
          if row.uploaderId ≠ user then some (db.finish task)
          else if row.status = .committed then some (db.finish task)
          else some (db.setTask task (.put id user (.looked row.size)))
  | .looked declared =>
      if db.inFlight.contains id then some (db.finish task)
      else if maxUploadsPerUser ≤ db.uploads user then some (db.finish task)
      else
        some ((db.register task id).setTask task
          (.put id user (.registered declared)))
  | _ => none

/-- The body: `PartWriter`, its writes, and the end of the stream. -/
def streamStep (db : Db) (task : TaskId) (id : FileId) (user : UserId) :
    PutStage → Event → Option Db
  | .registered declared, .open_ name =>
      if db.parts.contains (id, name) then none
      else
        some ((db.openPart id name).setTask task
          (.put id user (.streaming declared name [])))
  | .streaming declared name written, .chunk bytes =>
      if declared < written.length + bytes.length then
        some (discard db task id user name)
      else
        some ((db.writePart id name (written ++ bytes)).setTask task
          (.put id user (.streaming declared name (written ++ bytes))))
  | .streaming declared name written, .run =>
      if written.length ≠ declared then some (discard db task id user name)
      else some (db.setTask task (.put id user (.finished name written)))
  | _, _ => none

/-- The compare-and-set, the rename under its row lock, and the commit. -/
def commitStep (sha256 : Bytes → Digest) (db : Db) (task : TaskId)
    (id : FileId) (user : UserId) : PutStage → Option Db
  | .finished name written =>
      if db.waits task id then none
      else
        match db.rows.get? id with
        | none => some (discard db task id user name)
        | some row =>
            if row.status = .pending then
              some ((db.lockRows task [id]).setTask task
                (.put id user (.flipped name written)))
            else some (discard db task id user name)
  | .flipped name written =>
      match db.parts.get? (id, name) with
      | none => some ((db.release task).setTask task (.put id user .closing))
      | some part =>
          some ((db.rename id name part).setTask task
            (.put id user (.renamed written)))
  | .renamed written =>
      match db.rows.get? id with
      | none => none
      | some row =>
          let rows := db.rows.put id (row.commit (sha256 written))
          some (({ db with rows }.release task).setTask task
            (.put id user .closing))
  | .closing => some ((db.leave id).setTask task (.put id user .closed))
  | .closed => some (db.finish task)
  | _ => none

def putStep (sha256 : Bytes → Digest) (db : Db) (task : TaskId) (id : FileId)
    (user : UserId) (stage : PutStage) (event : Event) : Option Db :=
  match stage, event with
  | .begun, .run | .looked _, .run => uploadStep db task id user stage
  | .registered _, event | .streaming _ _ _, event =>
      streamStep db task id user stage event
  | stage, .run => commitStep sha256 db task id user stage
  | _, _ => none

/-- An exception in a `PUT`: what it has in the registry and in its
transaction goes later, in `closing` and `closed`. -/
def failPut (db : Db) (task : TaskId) (id : FileId) (user : UserId) :
    PutStage → Db
  | .begun | .looked _ => db.finish task
  | .registered _ | .renamed _ => db.setTask task (.put id user .closing)
  | .streaming _ name _ | .finished name _ | .flipped name _ =>
      discard db task id user name
  | .closing | .closed => db

/-- `delete_file`; a row that is gone by the time of its `DELETE` leaves the
bytes to remove all the same. -/
def deleteStep (db : Db) (task : TaskId) (id : FileId) (user : UserId) :
    DeleteStage → Event → Option Db
  | .begun, .membership role =>
      match db.rows.get? id, role with
      | none, _ | _, none => some (db.finish task)
      | some row, some role =>
          if row.uploaderId ≠ user ∧ role ≠ .owner then some (db.finish task)
          else some (db.setTask task (.delete id user .looked))
  | .looked, .run =>
      match db.rows.get? id with
      | none => some (db.setTask task (.delete id user .deleting))
      | some _ =>
          if db.waits task id then none
          else
            some ((db.lockRows task [id]).setTask task
              (.delete id user .deleting))
  | .deleting, .run =>
      some (((db.deleteRows [id]).release task).setTask task
        (.delete id user .removing))
  | .removing, .run =>
      some ((db.unlink (.final id)).setTask task (.delete id user .removingParts))
  | .removingParts, .run => some ((db.unlinkParts id).finish task)
  | _, _ => none

/-- A row that `_attach_files` accepts. -/
def attachable (db : Db) (user : UserId) (channel : ChannelId) (id : FileId) :
    Bool :=
  match db.rows.get? id with
  | none => false
  | some row =>
      row.uploaderId = user && row.channelId = channel &&
        row.status = .committed && row.messageId = none

/-- `_attach_files` in `send_message`. -/
def attachStep (db : Db) (task : TaskId) (message : MessageId) (user : UserId)
    (channel : ChannelId) (ids : List FileId) : AttachStage → Option Db
  | .begun =>
      if ids.any (db.waits task) then none
      else if ids.Nodup ∧ ids.all (attachable db user channel) then
        some ((db.lockRows task ids).setTask task
          (.attach message user channel ids .locked))
      else some (db.finish task)
  | .locked =>
      some ({ db with
        rows := db.rows.mapRows fun id row =>
          if id ∈ ids then { row with messageId := some message } else row
        }.finish task)

def isStalePending (now : Time) (busy : List FileId) (id : FileId)
    (row : File) : Bool :=
  row.status = .pending && row.createdAt + pendingTtl < now && id ∉ busy

def isUnattached (now : Time) (_ : FileId) (row : File) : Bool :=
  row.status = .committed && row.messageId = none &&
    row.createdAt + unattachedTtl < now

/-- An entry of the disk that no row accounts for. -/
def isOrphan (known : List FileId) : Path → Bool
  | .final id => id ∉ known
  | .part _ _ => true

/-- `sweep_once` -/
def sweepStep (db : Db) (task : TaskId) : SweepStage → Option Db
  | .begun =>
      some (db.setTask task
        (.sweep (.deleting db.now (db.inFlight.rows.map Prod.fst))))
  | .deleting now busy =>
      let pending := db.matching (isStalePending now busy)
      if pending.any (db.waits task) then none
      else
        some ((db.lockRows task pending).setTask task
          (.sweep (.deleted now pending)))
  | .deleted now pending =>
      let unattached := db.matching (isUnattached now)
      if unattached.any (db.waits task) then none
      else
        some ((db.lockRows task unattached).setTask task
          (.sweep (.selected (pending ++ unattached))))
  | .selected doomed =>
      some (((db.deleteRows doomed).release task).setTask task
        (.sweep (.committed doomed)))
  | .committed doomed =>
      some (db.setTask task
        (.sweep (.removing doomed (db.rows.rows.map Prod.fst))))
  | .removing [] known =>
      some (db.setTask task (.sweep (.unlinking db.staleEntries known)))
  | .removing (id :: doomed) known =>
      some ((db.unlink (.final id)).setTask task
        (.sweep (.removingParts id doomed known)))
  | .removingParts id doomed known =>
      some ((db.unlinkParts id).setTask task (.sweep (.removing doomed known)))
  | .unlinking [] _ => some (db.finish task)
  | .unlinking (path :: paths) known =>
      let swept := if isOrphan known path then db.unlink path else db
      some (swept.setTask task (.sweep (.unlinking paths known)))

/-- The commit of `create_file`: a random id that the table has never had. -/
def createStep (db : Db) (task : TaskId) (id : FileId) (row : File) :
    Option Db :=
  if id ∈ db.used then none
  else
    some ({ db with used := id :: db.used, rows := db.rows.put id row }.finish
      task)

def advanceStep (sha256 : Bytes → Digest) (db : Db) (task : TaskId)
    (event : Event) : Option Db :=
  match db.tasks.get? task, event with
  | some (.create id row), .run => createStep db task id row
  | some (.put id user stage), event => putStep sha256 db task id user stage event
  | some (.delete id user stage), event => deleteStep db task id user stage event
  | some (.attach message user channel ids stage), .run =>
      attachStep db task message user channel ids stage
  | some (.sweep stage), .run => sweepStep db task stage
  | _, _ => none

/-- A new task; none is started under a number that is in use. -/
def launch (db : Db) (task : TaskId) (begun : Task) : Option Db :=
  if db.tasks.contains task then none else some (db.setTask task begun)

def step (sha256 : Bytes → Digest) (db : Db) : Action → Option Db
  | .create task id user channel size =>
      launch db task (.create id
        { channelId := channel
          uploaderId := user
          size
          status := .pending
          sha256 := none
          messageId := none
          createdAt := db.now })
  | .put task id user => launch db task (.put id user .begun)
  | .delete task id user => launch db task (.delete id user .begun)
  | .attach task message user channel ids =>
      launch db task (.attach message user channel ids .begun)
  | .sweep task => launch db task (.sweep .begun)
  | .advance task event => advanceStep sha256 db task event
  | .fail task =>
      match db.tasks.get? task with
      | none => none
      | some (.put id user stage) => some (failPut db task id user stage)
      | some _ => some (db.finish task)
  -- The process is gone, and with it every transaction and the registry.
  | .crash => some { db with locks := ∅, inFlight := ∅, tasks := ∅ }
  | .tick seconds => some { db with now := db.now + seconds }

end Brook.Files
