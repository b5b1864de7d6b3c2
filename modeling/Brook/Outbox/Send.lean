import Brook.Table.Basic

namespace Brook.Outbox

/-! `POST /channels/{id}/messages` of one user to one channel, between its
statements. -/

abbrev ClientId := Nat

abbrev MessageId := Nat

abbrev FileId := Nat

abbrev RequestId := Nat

abbrev Code := String

/-- What a row sends. -/
structure Outgoing where
  body : String
  replyTo : Option MessageId
  attachments : List FileId
deriving DecidableEq

structure Request where
  clientId : ClientId
  msg : Outgoing

structure Message where
  clientId : ClientId
  body : String
  replyTo : Option MessageId

inductive Answer
  | ok (message : Message)
  | refused (code : Code)
  /-- A 5xx, 408, 429 or 401. -/
  | transient

/-- How far `send_message` is. -/
inductive Passed
  | member
  | stored
  | quote
  /-- The row is inserted: its index entry holds up any other of its id. -/
  | insert
deriving DecidableEq

structure Handler where
  request : Request
  passed : Passed

structure Server where
  member : Bool
  archived : Bool
  /-- The live messages of the channel. -/
  quotable : List MessageId
  /-- The user's committed uploads to the channel that no message has. -/
  attachable : List FileId
  handlers : Table RequestId Handler
  /-- In the order of their commits. -/
  messages : List Message

namespace Server

def start : Server := ⟨true, false, [], [], ∅, []⟩

/-- The client ids of the messages. -/
def stored (server : Server) : List ClientId :=
  server.messages.map (·.clientId)

def storedSend (server : Server) (clientId : ClientId) : Option Message :=
  server.messages.find? (·.clientId = clientId)

/-- Another transaction has inserted the id and not committed yet. -/
def inserting (server : Server) (clientId : ClientId) : Bool :=
  server.handlers.values.any fun handler =>
    handler.passed = .insert ∧ handler.request.clientId = clientId

def keep (server : Server) (id : RequestId) (request : Request)
    (passed : Passed) : Server :=
  { server with handlers := server.handlers.put id ⟨request, passed⟩ }

def finish (server : Server) (id : RequestId) : Server :=
  { server with handlers := server.handlers.filter fun other _ => other ≠ id }

/-- `_require_member` and the check for an archived channel. -/
def receive (server : Server) (id : RequestId) (request : Request) :
    Server × Option Answer :=
  if !server.member then (server, some (.refused "not_found"))
  else if server.archived then (server, some (.refused "authz.forbidden"))
  else (server.keep id request .member, none)

/-- `_attach_files`, the rest of the writes and the commit. -/
def commit (server : Server) (id : RequestId) (request : Request) :
    Server × Option Answer :=
  let files := request.msg.attachments
  if files.Nodup ∧ ∀ file ∈ files, file ∈ server.attachable then
    let message : Message := ⟨request.clientId, request.msg.body, request.msg.replyTo⟩
    ({ server.finish id with
        attachable := server.attachable.filter (· ∉ files)
        messages := server.messages ++ [message] },
      some (.ok message))
  else (server.finish id, some (.refused "file.not_attachable"))

/-- The handler goes on to its next statement. -/
def resume (server : Server) (id : RequestId) : Option (Server × Option Answer) :=
  match server.handlers.get? id with
  | none => none
  | some ⟨request, .member⟩ =>
      match server.storedSend request.clientId with
      | some message => some (server.finish id, some (.ok message))
      | none => some (server.keep id request .stored, none)
  | some ⟨request, .stored⟩ =>
      if request.msg.replyTo.all (· ∈ server.quotable) then
        some (server.keep id request .quote, none)
      else
        some (server.finish id, some (.refused "message.reply_target_gone"))
  | some ⟨request, .quote⟩ =>
      if server.inserting request.clientId then none
      else
        match server.storedSend request.clientId with
        -- The unique index refuses the row, and the savepoint is rolled back.
        | some message => some (server.finish id, some (.ok message))
        | none => some (server.keep id request .insert, none)
  | some ⟨request, .insert⟩ => some (server.commit id request)

/-- A handler that dies: its transaction is rolled back. -/
def fail (server : Server) (id : RequestId) : Option (Server × Option Answer) :=
  (server.handlers.get? id).map fun _ => (server.finish id, some .transient)

end Server

end Brook.Outbox
