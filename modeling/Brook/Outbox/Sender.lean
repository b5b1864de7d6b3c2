import Brook.Outbox.Send

namespace Brook.Outbox

/-! The outbox of one channel: its rows, the sender's task between its awaits,
and the requests and answers that are on their way.  Whoever holds the channel's
lock writes rows; only a new row comes in without it. -/

abbrev Epoch := Nat

inductive RowState
  | pending
  | sending
  | accepted
  | failed (code : Code)
deriving DecidableEq

structure Row where
  ordinal : Nat
  clientId : ClientId
  body : String
  replyTo : Option MessageId
  /-- The files in their order, with the id an uploaded one has. -/
  files : List (Option FileId)
  state : RowState

/-- What `attempt` has in its variables. -/
structure Attempt where
  clientId : ClientId
  msg : Outgoing
  accepted : Bool
  epoch : Epoch
  files : List (Option FileId)
  reattached : Bool
deriving DecidableEq

/-- The await that an attempt is at. -/
inductive Stage
  | marking
  | reading
  | uploading (ids : List FileId) (left : List (Option FileId))
  | posting (request : RequestId)
  | detaching
  | acking
  | dropping
  /-- The last write of the attempt. -/
  | settling (state : RowState)
deriving DecidableEq

/-- Who holds the channel's lock. -/
inductive Holder
  | free
  | sender (attempt : Attempt) (stage : Stage)
  | direct
deriving DecidableEq

structure OutboxSystem where
  /-- By ordinal. -/
  rows : List Row
  /-- `AUTOINCREMENT`: the next ordinal. -/
  sequence : Nat
  opened : Bool
  session : Option Epoch
  epochs : Nat
  /-- The session that the sender waits for the lock under. -/
  ready : Option Epoch
  holder : Holder
  requests : Table RequestId Request
  answers : Table RequestId Answer
  posted : RequestId
  server : Server
  /-- Every row there ever was: its ordinal and its id. -/
  queued : List (Nat × ClientId)
  /-- The ids of every message that was handed in. -/
  asked : List ClientId

/-- What comes of an upload. -/
inductive Upload
  | file (id : FileId) (recorded : Bool)
  | failed (code : Code)
  | transient
deriving DecidableEq

/-- Every `Bool` says whether the write or the read came through. -/
inductive OutboxAction
  | enqueue (id : ClientId) (body : String) (replyTo : Option MessageId)
      (files : Nat)
  /-- The row could not be written. -/
  | sendDirect (id : ClientId) (body : String) (replyTo : Option MessageId)
  | directEnds
  | signIn
  | signOut
  | signedIn
  | acquire (read : Bool)
  | mark (written : Bool)
  | readFiles (read : Bool)
  /-- `cancelled`: the user's cancel is seen here. -/
  | upload (cancelled : Bool) (result : Upload)
  /-- The answer arrives, or the attempt to get one fails. -/
  | answer (arrives : Bool)
  | detach (written : Bool)
  | ack (written : Bool)
  | drop (written : Bool)
  | settle (written : Bool)
  | retry (id : ClientId) (dropReply : Bool)
  /-- The process ends: a crash, or `close`. -/
  | crash
  | reopen
  | setMember (member : Bool)
  | setArchived (archived : Bool)
  | setQuotable (messages : List MessageId)
  | setAttachable (files : List FileId)
  | receive (request : RequestId)
  | resume (request : RequestId)
  | fail (request : RequestId)
deriving DecidableEq

/-- What a retryable outcome leaves the row as. -/
def Attempt.waiting (attempt : Attempt) : RowState :=
  if attempt.accepted then .accepted else .pending

def Holder.isSender : Holder → Bool
  | .sender _ _ => true
  | .free | .direct => false

namespace Row

def setFile (row : Row) (index : Nat) (id : FileId) : Row :=
  { row with files := row.files.set index (some id) }

def detach (row : Row) : Row :=
  { row with files := row.files.map fun _ => none }

def retry (row : Row) (dropReply : Bool) : Row :=
  match row.state with
  | .failed code =>
      if dropReply then
        if code = "message.reply_target_gone" then
          { row with state := .pending, replyTo := none }
        else row
      else { row with state := .pending }
  | _ => row

/-- `open` over the rows that a crash left. -/
def reopen (row : Row) : Row :=
  { row with state := if row.state = .sending then .pending else row.state }

end Row

namespace OutboxSystem

def start : OutboxSystem :=
  ⟨[], 1, true, none, 0, none, .free, ∅, ∅, 0, .start, [], []⟩

def update (outbox : OutboxSystem) (id : ClientId) (write : Row → Row) : OutboxSystem :=
  { outbox with
    rows := outbox.rows.map fun row => if row.clientId = id then write row else row }

def setState (outbox : OutboxSystem) (id : ClientId) (state : RowState) : OutboxSystem :=
  outbox.update id fun row => { row with state }

def remove (outbox : OutboxSystem) (id : ClientId) : OutboxSystem :=
  { outbox with rows := outbox.rows.filter fun row => row.clientId ≠ id }

def current (outbox : OutboxSystem) (attempt : Attempt) : Bool :=
  outbox.session = some attempt.epoch

def release (outbox : OutboxSystem) : OutboxSystem :=
  { outbox with holder := .free }

def advance (outbox : OutboxSystem) (attempt : Attempt) (stage : Stage) : OutboxSystem :=
  { outbox with holder := .sender attempt stage }

/-- The attempt ends, with the row left waiting. -/
def wait (outbox : OutboxSystem) (attempt : Attempt) : OutboxSystem :=
  outbox.advance attempt (.settling attempt.waiting)

def send (outbox : OutboxSystem) (request : Request) : OutboxSystem :=
  { outbox with
    requests := outbox.requests.put outbox.posted request
    posted := outbox.posted + 1 }

/-- `post.send`, under the attempt's session only. -/
def post (outbox : OutboxSystem) (attempt : Attempt) : OutboxSystem :=
  if outbox.current attempt then
    (outbox.send ⟨attempt.clientId, attempt.msg⟩).advance attempt
      (.posting outbox.posted)
  else outbox.wait attempt

/-- The server's part went on, and may have answered. -/
def served (outbox : OutboxSystem) (id : RequestId) (outcome : Server × Option Answer) :
    OutboxSystem :=
  match outcome.2 with
  | none => { outbox with server := outcome.1 }
  | some answer =>
      { outbox with
        server := outcome.1
        answers := outbox.answers.put id answer }

def enqueue (outbox : OutboxSystem) (id : ClientId) (body : String)
    (replyTo : Option MessageId) (files : Nat) : OutboxSystem :=
  if outbox.rows.any (·.clientId = id) then outbox
  else
    { outbox with
      rows := outbox.rows ++
        [⟨outbox.sequence, id, body, replyTo, List.replicate files none, .pending⟩]
      sequence := outbox.sequence + 1
      queued := outbox.queued ++ [(outbox.sequence, id)] }

/-- The sender has the lock: `next_row`, up to the next await of `attempt`. -/
def acquire (outbox : OutboxSystem) (epoch : Epoch) : OutboxSystem :=
  match outbox.rows with
  | [] => outbox
  | row :: _ =>
      let attempt : Attempt := ⟨row.clientId, ⟨row.body, row.replyTo, []⟩,
        row.state = .accepted, epoch, [], false⟩
      match row.state with
      | .failed _ => outbox
      | .accepted =>
          if outbox.current attempt then outbox.advance attempt .reading
          else outbox.wait attempt
      | .pending | .sending => outbox.advance attempt .marking

/-- `files_of`, up to the first upload or the send. -/
def readFiles (outbox : OutboxSystem) (attempt : Attempt) : OutboxSystem :=
  let files := (outbox.rows.find? (·.clientId = attempt.clientId)).elim []
    (·.files)
  let attempt := { attempt with files }
  if attempt.accepted then
    outbox.post { attempt with
      msg := { attempt.msg with attachments := files.filterMap fun file => file } }
  else if files = [] then outbox.post attempt
  else outbox.advance attempt (.uploading [] files)

/-- One round of `upload_each`, and what follows the last. -/
def upload (outbox : OutboxSystem) (attempt : Attempt) (ids : List FileId)
    (result : Upload) : List (Option FileId) → OutboxSystem
  | [] =>
      if ¬ ids.Nodup then
        outbox.advance attempt (.settling (.failed "outbox.duplicate_file"))
      else
        outbox.post { attempt with msg := { attempt.msg with attachments := ids } }
  | some id :: left => outbox.advance attempt (.uploading (ids ++ [id]) left)
  | none :: left =>
      if ¬ outbox.current attempt then outbox.wait attempt
      else
        match result with
        | .file id recorded =>
            if recorded then
              (outbox.update attempt.clientId (·.setFile ids.length id)).advance
                attempt (.uploading (ids ++ [id]) left)
            else outbox.wait attempt
        | .failed code => outbox.advance attempt (.settling (.failed code))
        | .transient => outbox.wait attempt

def answered (outbox : OutboxSystem) (attempt : Attempt) (answer : Answer) : OutboxSystem :=
  if ¬ outbox.current attempt then outbox.wait attempt
  else
    match answer with
    | .transient => outbox.wait attempt
    | .refused code =>
        if code = "file.not_attachable" ∧ attempt.files ≠ [] ∧
            attempt.accepted = false ∧ attempt.reattached = false then
          outbox.advance { attempt with reattached := true } .detaching
        else if attempt.accepted then outbox.advance attempt .dropping
        else outbox.advance attempt (.settling (.failed code))
    | .ok message =>
        if message.clientId = attempt.clientId then
          outbox.advance attempt .acking
        else
          outbox.advance attempt (.settling (.failed "outbox.echo_mismatch"))

end OutboxSystem

def outboxStep (outbox : OutboxSystem) : OutboxAction → Option OutboxSystem
  | .enqueue id body replyTo files =>
      if outbox.opened then
        some { outbox.enqueue id body replyTo files with asked := id :: outbox.asked }
      else none
  | .sendDirect id body replyTo =>
      if outbox.opened ∧ outbox.holder = .free ∧ outbox.session.isSome ∧
          outbox.rows = [] then
        some { outbox.send ⟨id, body, replyTo, []⟩ with
          holder := .direct
          asked := id :: outbox.asked }
      else none
  | .directEnds =>
      if outbox.holder = .direct then some outbox.release else none
  | .signIn =>
      some { outbox with session := some outbox.epochs, epochs := outbox.epochs + 1 }
  | .signOut => some { outbox with session := none }
  | .signedIn =>
      if outbox.opened ∧ outbox.session.isSome ∧ outbox.ready = none ∧
          outbox.holder.isSender = false then
        some { outbox with ready := outbox.session }
      else none
  | .acquire read =>
      match outbox.ready, outbox.holder with
      | some epoch, .free =>
          some (if read then { outbox with ready := none }.acquire epoch
            else { outbox with ready := none })
      | _, _ => none
  | .mark written =>
      match outbox.holder with
      | .sender attempt .marking =>
          some (if written then
              let marked := outbox.setState attempt.clientId .sending
              if marked.current attempt then marked.advance attempt .reading
              else marked.wait attempt
            else outbox.release)
      | _ => none
  | .readFiles read =>
      match outbox.holder with
      | .sender attempt .reading =>
          some (if read then outbox.readFiles attempt else outbox.wait attempt)
      | _ => none
  | .upload cancelled result =>
      match outbox.holder with
      | .sender attempt (.uploading ids left) =>
          some (if cancelled then
              outbox.advance attempt (.settling (.failed "transfer.cancelled"))
            else outbox.upload attempt ids result left)
      | _ => none
  | .answer arrives =>
      match outbox.holder with
      | .sender attempt (.posting request) =>
          if arrives then
            (outbox.answers.get? request).map (outbox.answered attempt)
          else some (outbox.answered attempt .transient)
      | _ => none
  | .detach written =>
      match outbox.holder with
      | .sender attempt .detaching =>
          some (if written then
              (outbox.update attempt.clientId Row.detach).advance attempt .reading
            else outbox.wait attempt)
      | _ => none
  | .ack written =>
      match outbox.holder with
      | .sender attempt .acking =>
          some (if written ∨ attempt.accepted then outbox.advance attempt .dropping
            else outbox.advance attempt (.settling .accepted))
      | _ => none
  | .drop written =>
      match outbox.holder with
      | .sender attempt .dropping =>
          some (if written then (outbox.remove attempt.clientId).release
            else if attempt.accepted then outbox.release
            else outbox.advance attempt (.settling .accepted))
      | _ => none
  | .settle written =>
      match outbox.holder with
      | .sender attempt (.settling state) =>
          some (if written then (outbox.setState attempt.clientId state).release
            else outbox.release)
      | _ => none
  | .retry id dropReply =>
      if outbox.opened ∧ outbox.holder = .free then
        some (outbox.update id (·.retry dropReply))
      else none
  | .crash =>
      some { outbox with
        opened := false
        ready := none
        holder := .free }
  | .reopen =>
      if outbox.opened then none
      else some { outbox with
        opened := true
        rows := outbox.rows.map Row.reopen }
  | .setMember member =>
      some { outbox with server := { outbox.server with member } }
  | .setArchived archived =>
      some { outbox with server := { outbox.server with archived } }
  | .setQuotable quotable =>
      some { outbox with server := { outbox.server with quotable } }
  | .setAttachable attachable =>
      some { outbox with server := { outbox.server with attachable } }
  | .receive id =>
      (outbox.requests.get? id).map fun request =>
        { outbox with
          requests := outbox.requests.filter fun other _ => other ≠ id }.served id
            (outbox.server.receive id request)
  | .resume id => (outbox.server.resume id).map (outbox.served id)
  | .fail id => (outbox.server.fail id).map (outbox.served id)

end Brook.Outbox
