import Brook.Outbox.Sender

namespace Brook.Outbox

/-! `delete_pending`, `retry` and `retry_without_reply` beside the sender of their channel: a
call looks its row up, waits for the channel's lock, and writes under it. -/

abbrev CallId := Nat

/-- A row there was: its ordinal and its id. -/
abbrev RowKey := Nat × ClientId

def Row.key (row : Row) : RowKey := (row.ordinal, row.clientId)

/-- What `delete_pending` found. -/
inductive Deleted
  | removed
  | alreadySent
  | notFound
deriving DecidableEq

inductive Command
  | delete
  | retry (dropReply : Bool)
deriving DecidableEq

/-- The await that a call is at. -/
inductive CallStage
  | waiting
  | holding
  /-- `remove_row` has committed: the state that the row had, if it was there. -/
  | removed (found : Option RowState)

structure Call where
  clientId : ClientId
  command : Command
  stage : CallStage

inductive Remover
  | sender
  | call (id : CallId)
deriving DecidableEq

/-- A row that went: the state it had, and who removed it. -/
structure Gone where
  key : RowKey
  state : RowState
  remover : Remover

structure Told where
  call : CallId
  clientId : ClientId
  deleted : Deleted
deriving DecidableEq

structure Desk where
  outbox : OutboxSystem
  calls : Table CallId Call
  begun : CallId
  /-- The call that holds the channel's lock. -/
  held : Option CallId
  /-- Every answer of the server to a send, with the id that was sent. -/
  answered : List (ClientId × Answer)
  /-- Every row that was ever recorded as accepted. -/
  noted : List RowKey
  gone : List Gone
  told : List Told

inductive DeskAction
  | outbox (action : OutboxAction)
  /-- Whatever the server answers, or that nothing arrives (`transient`). -/
  | answer (answer : Answer)
  /-- `row_channel`. -/
  | look (id : ClientId) (command : Command) (read : Bool)
  | lock (call : CallId)
  | write (call : CallId) (written : Bool)
  | finish (call : CallId)
  /-- The caller goes away. -/
  | abandon (call : CallId)

/-- What the outbox does by itself: its calls and the server's answers are the desk's. -/
def OutboxAction.byItself : OutboxAction → Bool
  | .retry _ _ | .answer _ | .setMember _ | .setArchived _ | .setQuotable _
  | .setAttachable _ | .receive _ | .resume _ | .fail _ => false
  | _ => true

def OutboxAction.takesLock : OutboxAction → Bool
  | .acquire _ | .sendDirect _ _ _ => true
  | _ => false

namespace OutboxSystem

def acceptedKeys (outbox : OutboxSystem) : List RowKey :=
  (outbox.rows.filter (·.state = .accepted)).map Row.key

/-- The rows that are not there any more. -/
def lost (outbox next : OutboxSystem) (remover : Remover) : List Gone :=
  (outbox.rows.filter fun row => next.rows.all (·.key ≠ row.key)).map fun row =>
    ⟨row.key, row.state, remover⟩

/-- The state of the row, as `remove_row` reads it. -/
def stateOf (outbox : OutboxSystem) (id : ClientId) : Option RowState :=
  (outbox.rows.find? (·.clientId = id)).map (·.state)

end OutboxSystem

namespace Desk

def start : Desk := ⟨.start, ∅, 0, none, [], [], [], []⟩

/-- The outbox goes on to `next`. -/
def moved (desk : Desk) (next : OutboxSystem) (remover : Remover) : Desk :=
  { desk with
    outbox := next
    noted := desk.noted ++ next.acceptedKeys
    gone := desk.gone ++ desk.outbox.lost next remover }

def hear (desk : Desk) (id : ClientId) (answer : Answer) : Desk :=
  { desk with answered := desk.answered ++ [(id, answer)] }

/-- The call returns, and lets go of the lock if it has it. -/
def ends (desk : Desk) (call : CallId) : Desk :=
  { desk with
    calls := desk.calls.filter fun other _ => other ≠ call
    held := if desk.held = some call then none else desk.held }

/-- The process ends: its calls end with it. -/
def stopped (desk : Desk) : Desk :=
  { desk with calls := ∅, held := none }

def tell (desk : Desk) (call : CallId) (id : ClientId) (deleted : Deleted) : Desk :=
  { desk with told := desk.told ++ [⟨call, id, deleted⟩] }

/-- `row_channel`, and the sender's lock is asked for. -/
def look (desk : Desk) (id : ClientId) (command : Command) : Desk :=
  let next := { desk with begun := desk.begun + 1 }
  if desk.outbox.rows.any (·.clientId = id) then
    { next with calls := desk.calls.put desk.begun ⟨id, command, .waiting⟩ }
  else if command = .delete then next.tell desk.begun id .notFound
  else next

/-- The write of the call that holds the lock. -/
def write (desk : Desk) (call : CallId) (row : Call) : Desk :=
  match row.command with
  | .delete =>
      { desk.moved (desk.outbox.remove row.clientId) (.call call) with
        calls := desk.calls.put call
          { row with stage := .removed (desk.outbox.stateOf row.clientId) } }
  | .retry dropReply =>
      (desk.moved (desk.outbox.update row.clientId (·.retry dropReply)) (.call call)).ends call

/-- What `delete_pending` answers. -/
def deletedOf : Option RowState → Deleted
  | none | some .accepted => .alreadySent
  | some _ => .removed

end Desk

def deskStep (desk : Desk) : DeskAction → Option Desk
  | .outbox action =>
      if action.byItself ∧ (action.takesLock → desk.held = none) then
        (outboxStep desk.outbox action).map fun next =>
          if action = .crash then (desk.moved next .sender).stopped
          else desk.moved next .sender
      else none
  | .answer answer =>
      match desk.outbox.holder with
      | .sender attempt (.posting _) =>
          some ((desk.hear attempt.clientId answer).moved
            (desk.outbox.answered attempt answer) .sender)
      | _ => none
  | .look id command read =>
      if desk.outbox.opened then
        some (if read then desk.look id command else desk)
      else none
  | .lock call =>
      match desk.calls.get? call with
      | some ⟨id, command, .waiting⟩ =>
          if desk.held = none ∧ desk.outbox.holder = .free then
            some { desk with
              calls := desk.calls.put call ⟨id, command, .holding⟩
              held := some call }
          else none
      | _ => none
  | .write call written =>
      match desk.calls.get? call with
      | some ⟨id, command, .holding⟩ =>
          some (if written then desk.write call ⟨id, command, .holding⟩ else desk.ends call)
      | _ => none
  | .finish call =>
      match desk.calls.get? call with
      | some ⟨id, _, .removed found⟩ =>
          some ((desk.tell call id (Desk.deletedOf found)).ends call)
      | _ => none
  | .abandon call => if desk.calls.contains call then some (desk.ends call) else none

/-! ### What the answers say -/

namespace Desk

/-- The server answered a send of the id with success. -/
def Sent (desk : Desk) (id : ClientId) : Prop :=
  ∃ message : Message, message.clientId = id ∧ (id, Answer.ok message) ∈ desk.answered

/-- No send of the row was answered with success and recorded: it was never `accepted`, and
the sender has not dropped it. -/
def Unsent (desk : Desk) (key : RowKey) : Prop :=
  key ∉ desk.noted ∧ ∀ gone ∈ desk.gone, gone.key = key → gone.remover ≠ .sender

structure Truthful (desk : Desk) (told : Told) : Prop where
  alreadySent : told.deleted = .alreadySent → desk.Sent told.clientId
  removed : told.deleted = .removed → ∃ gone ∈ desk.gone,
    gone.key.2 = told.clientId ∧ gone.remover = .call told.call ∧ desk.Unsent gone.key

/-- A row of the id was dropped by the sender, or was accepted when it went. -/
def WentSent (desk : Desk) (id : ClientId) : Prop :=
  ∃ gone ∈ desk.gone, gone.key.2 = id ∧ (gone.remover = .sender ∨ gone.state = .accepted)

/-- The id of the accepted row whose resend is out, while its session is the current one. -/
def resending (desk : Desk) : Option ClientId :=
  match desk.outbox.holder with
  | .sender attempt (.posting _) =>
      if attempt.accepted ∧ desk.outbox.current attempt then some attempt.clientId else none
  | _ => none

/-- A resend of an accepted row is answered under its own id, and a delete that finds its row
gone finds it sent. -/
def Fair (desk : Desk) : DeskAction → Prop
  | .answer (.ok message) => ∀ id ∈ desk.resending, message.clientId = id
  | .write call true => ∀ row ∈ desk.calls.get? call, row.command = .delete →
      desk.outbox.stateOf row.clientId = none → desk.WentSent row.clientId
  | _ => True

instance (desk : Desk) (id : ClientId) : Decidable (desk.WentSent id) :=
  inferInstanceAs (Decidable (∃ gone ∈ desk.gone,
    gone.key.2 = id ∧ (gone.remover = .sender ∨ gone.state = .accepted)))

instance (desk : Desk) : ∀ action, Decidable (desk.Fair action)
  | .answer (.ok message) =>
      inferInstanceAs (Decidable (∀ id ∈ desk.resending, message.clientId = id))
  | .write call true =>
      inferInstanceAs (Decidable (∀ row ∈ desk.calls.get? call, row.command = .delete →
        desk.outbox.stateOf row.clientId = none → desk.WentSent row.clientId))
  | .answer (.refused _) | .answer .transient | .write _ false | .outbox _ | .look _ _ _
  | .lock _ | .finish _ | .abandon _ => .isTrue trivial

end Desk

end Brook.Outbox
