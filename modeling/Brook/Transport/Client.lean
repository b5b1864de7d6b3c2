import Brook.CallTask.Task
import Brook.SignedIn.Store
import Brook.Ws.Commands

namespace Brook.Transport

open Brook.CallTask (CommandError Conn commandQueue)
open Brook.SignedIn (Revision Store View)
open Brook.Ws (Json)

/-! The realtime socket of a client: the queue of its commands, the loop of one connection and
the table of call routes.  The loop does one thing at a time; what the network does with a write,
and how long that takes, comes with the action. -/

/-- The caller's end of a `oneshot` channel. -/
abbrev Channel := Nat

/-- The call task's end of a route. -/
abbrev Mailbox := Nat

/-- The fields of a JSON object. -/
abbrev Fields := List (String × Json)

/-- `frame["id"] = id` -/
def Fields.setId (frame : Fields) (id : String) : Fields :=
  frame.filter (fun field => field.1 ≠ "id") ++ [("id", .str id)]

/-- `json[key].as_str().unwrap_or_default()` -/
def text (json : Json) (key : String) : String :=
  ((json.get? key).bind Json.str?).getD ""

/-- Milliseconds the server has to answer a command, counted from when it was written. -/
def replyTimeout : Nat := 10000

/-- Client frames above this are refused locally. -/
def maxFrameBytes : Nat := 64 * 1024

structure CallFrame where
  ty : String
  data : Json

structure Reply where
  ty : String
  data : Json

/-- What a command waits for: its expected reply, its caller and, for a join, the route. -/
structure Wanted where
  expect : String
  reply : Channel
  route : Option Mailbox

/-- A command; a notification wants nothing. -/
structure Outgoing where
  frame : Fields
  generation : Nat
  wanted : Option Wanted

structure Pending where
  wanted : Wanted
  deadline : Nat

/-- A re-auth in flight on the open socket. -/
structure Reauth where
  id : String
  /-- The credential revision whose token it carries. -/
  rev : Nat
  deadline : Nat

/-- One connection, while `run_once` is in its loop. -/
structure Link where
  epoch : Nat
  /-- The credential revision this socket is authenticated with. -/
  authRev : Nat
  reauth : Option Reauth
  ready : Bool
  pending : Table String Pending
  nextId : Nat

/-- What a socket is given to write. -/
inductive Written
  | command (out : Outgoing) (moment : Nat)
  | auth (rev : Revision)
  | leave (callId : String)

inductive Event
  /-- A command that passed the check of `submit`. -/
  | admitted (out : Outgoing)
  | queued (out : Outgoing)
  /-- With the token of this revision. -/
  | opened (socket : Nat) (rev : Revision)
  | ready (socket generation : Nat)
  | wrote (socket : Nat) (id : String) (what : Written)
  | received (socket : Nat) (frame : Json)
  | result (reply : Channel) (moment : Nat) (outcome : Except CommandError Reply)
  | gaveUp (reply : Channel)
  | delivered (mailbox : Mailbox) (frame : CallFrame)
  | routed (callId : String) (mailbox : Mailbox)
  | unrouted (callId : String)
  /-- To the offline cache, as it came. -/
  | raw (ty : String) (data : Json)
  /-- To `dispatch`, which parses it. -/
  | published (frame : Json)
  | ended (socket : Nat)
  | stopped

structure Client where
  now : Nat
  session : View
  /-- Revisions that sections of the store came to and that are not published yet. -/
  unpublished : List Revision
  /-- The `watch` channel of revisions, and whether the socket task has seen its value. -/
  revision : Revision
  seen : Bool
  /-- The loop of `run` has marked the revision as seen for its next connection. -/
  marked : Bool
  conn : Conn
  /-- Commands between the check of `submit` and their place in the queue. -/
  admitted : List Outgoing
  queue : List Outgoing
  routes : Table String Mailbox
  link : Option Link
  /-- Connections made so far; the last one is the current one. -/
  sockets : Nat
  /-- Channels made so far. -/
  replies : Nat
  /-- Channels whose caller is gone. -/
  gaveUp : List Channel
  /-- Mailboxes whose call task is gone. -/
  gone : List Mailbox
  stopped : Bool
  log : List Event

/-- How a write ends: it is done, the socket fails, or nothing drains it for the whole idle
timeout. -/
inductive Sent
  | done
  | failed
  | stalled

namespace Client

def note (client : Client) (event : Event) : Client :=
  { client with log := client.log ++ [event] }

def answer (client : Client) (reply : Channel) (outcome : Except CommandError Reply) : Client :=
  client.note (.result reply client.now outcome)

def fail (client : Client) (wanted : Option Wanted) (error : CommandError) : Client :=
  match wanted with
  | none => client
  | some wanted => client.answer wanted.reply (.error error)

def failAll (client : Client) (waiting : List Wanted) (error : CommandError) : Client :=
  waiting.foldl (fun client wanted => client.fail (some wanted) error) client

/-- The caller gave up: `is_closed`. -/
def isClosed (client : Client) (wanted : Option Wanted) : Bool :=
  wanted.any fun wanted => client.gaveUp.contains wanted.reply

/-! ### Submitting -/

/-- The check of `submit`. -/
def submit (client : Client) (out : Outgoing) : Client :=
  if client.conn.ready = false ∨ client.conn.generation ≠ out.generation then
    client.fail out.wanted .notSent
  else { client with admitted := client.admitted ++ [out] }.note (.admitted out)

/-- `request` and `start` -/
def request (client : Client) (generation : Nat) (frame : Fields) (expect : String)
    (route : Option Mailbox) : Client :=
  { client with replies := client.replies + 1 }.submit
    ⟨frame, generation, some ⟨expect, client.replies, route⟩⟩

def notify (client : Client) (generation : Nat) (frame : Fields) : Client :=
  client.submit ⟨frame, generation, none⟩

/-- `try_send` -/
def enqueue (client : Client) (out : Outgoing) : Client :=
  if client.stopped then client.fail out.wanted .notSent
  else if commandQueue ≤ client.queue.length then client.fail out.wanted .busy
  else { client with queue := client.queue ++ [out] }.note (.queued out)

/-! ### One connection -/

/-- The socket is gone: nothing more is written on this generation, and every command still
waiting was written but will never get its reply. -/
def finish (client : Client) (link : Link) : Client :=
  ({ client with conn := { client.conn with ready := false }, link := none }.note
    (.ended client.sockets)).failAll (link.pending.values.map Pending.wanted) .unknown

/-- `format!("{generation}-{next_id}")` -/
def frameId (generation nextId : Nat) : String := s!"{generation}-{nextId}"

/-- The token of the session as it is now goes out again. -/
def sendReauth (client : Client) (link : Link) (reached : Bool) (took : Nat) : Client :=
  match client.session.store.session with
  | none => { client with link := some { link with reauth := none } }
  | some _ =>
      let id := frameId client.conn.generation (link.nextId + 1)
      let sent := { client with now := client.now + took }.note
        (.wrote client.sockets id (.auth client.session.store.rev))
      let link := { link with nextId := link.nextId + 1 }
      if reached then
        { sent with link := some { link with
            reauth := some ⟨id, client.session.store.rev.credentialRev,
              sent.now + replyTimeout⟩ } }
      else sent.finish link

/-- Where the revision is not the one that the socket is authenticated with. -/
def keepUp (client : Client) (link : Link) (reached : Bool) (took : Nat) : Client :=
  if client.revision.credentialRev ≠ link.authRev then client.sendReauth link reached took
  else { client with link := some link }

def register (link : Link) (id : String) (wanted : Option Wanted) (deadline : Nat) : Link :=
  match wanted with
  | none => link
  | some wanted => { link with pending := link.pending.put id ⟨wanted, deadline⟩ }

/-- `write_command`, under the bound of its caller. -/
def writeCommand (encode : Fields → String) (client : Client) (link : Link) (out : Outgoing)
    (sent : Sent) (took : Nat) : Client :=
  if client.conn.ready = false ∨ client.conn.generation ≠ out.generation then
    client.fail out.wanted .notSent
  -- The caller gave up before it was written.
  else if client.isClosed out.wanted then client
  else
    let id := frameId out.generation (link.nextId + 1)
    let link := { link with nextId := link.nextId + 1 }
    if maxFrameBytes < (encode (out.frame.setId id)).utf8ByteSize then
      { client.fail out.wanted .tooLarge with link := some link }
    else
      let link := register link id out.wanted (client.now + replyTimeout)
      let handed := { client with now := client.now + took }.note
        (.wrote client.sockets id (.command out client.now))
      match sent with
      | .done => { handed with link := some link }
      | .failed =>
          (handed.fail out.wanted .unknown).finish
            { link with pending := link.pending.filter fun other _ => other ≠ id }
      | .stalled => handed.finish link

/-- What a reply says about the command it answers. -/
def outcomeOf (expect ty : String) (data : Json) : Except CommandError Reply :=
  if ty = "error" then .error (.rejected (text data "code") (text data "message"))
  else if ty = expect then .ok ⟨ty, data⟩
  else .error .unexpectedReply

/-- The route is installed and handed `call.joined` before the next frame is read. -/
def install (client : Client) (callId : String) (frame : CallFrame) (route : Option Mailbox) :
    Client :=
  match route with
  | none => client
  | some mailbox =>
      { client.note (.delivered mailbox frame) with
        routes := client.routes.put callId mailbox }.note (.routed callId mailbox)

/-- A reply to one of our commands. -/
def onReply (client : Client) (link : Link) (re ty : String) (data : Json) : Client × Link :=
  match link.pending.get? re with
  -- Unknown or expired; dropped.
  | none => (client, link)
  | some waiting =>
      let link := { link with pending := link.pending.filter fun other _ => other ≠ re }
      let wanted := waiting.wanted
      let outcome := outcomeOf wanted.expect ty data
      if ty = "call.joined" ∧ outcome.isOk = true then
        if client.isClosed (some wanted) then
          -- The joiner gave up: leave at once, so no orphan remains on the server.
          (client.note (.wrote client.sockets
              (frameId client.conn.generation (link.nextId + 1)) (.leave (text data "call_id"))),
            { link with nextId := link.nextId + 1 })
        else
          ((client.install (text data "call_id") ⟨ty, data⟩ wanted.route).answer wanted.reply
            outcome, link)
      else (client.answer wanted.reply outcome, link)

/-- An event of a call, to the task that owns it. -/
def onCall (client : Client) (ty : String) (data : Json) : Client :=
  match client.routes.get? (text data "call_id") with
  | none => client
  | some mailbox =>
      if client.gone.contains mailbox then
        { client with
          routes := client.routes.filter fun callId _ => callId ≠ text data "call_id" }.note
          (.unrouted (text data "call_id"))
      else client.note (.delivered mailbox ⟨ty, data⟩)

def becomeReady (client : Client) : Client :=
  { client with conn := ⟨client.conn.generation + 1, true⟩ }.note
    (.ready client.sockets (client.conn.generation + 1))

/-- One parsed frame; whether it made the socket ready. -/
def handleText (client : Client) (link : Link) (frame : Json) : Client × Link × Bool :=
  let ty := text frame "type"
  let data := (frame.get? "data").getD .null
  let client := if (frame.get? "re").isNone then client.note (.raw ty data) else client
  match (frame.get? "re").bind Json.str? with
  | some re =>
      let handled := client.onReply link re ty data
      (handled.1, handled.2, false)
  | none =>
      if ty = "ready" then (client.becomeReady, link, true)
      else if ty = "channel.call" then (client.note (.published frame), link, false)
      else if ty.startsWith "call." then (client.onCall ty data, link, false)
      else (client.note (.published frame), link, false)

/-- The frame answers the re-auth. -/
def answersReauth (link : Link) (frame : Json) : Option Reauth :=
  link.reauth.filter fun reauth => (frame.get? "re").bind Json.str? = some reauth.id

/-- A text frame. -/
def onText (client : Client) (link : Link) (frame : Json) (reached : Bool) (took : Nat) : Client :=
  let client := client.note (.received client.sockets frame)
  match answersReauth link frame with
  | some reauth =>
      if text frame "type" = "ready" then
        client.keepUp { link with authRev := reauth.rev, reauth := none } reached took
      else client.finish link
  | none =>
      match client.handleText link frame with
      | (client, link, true) => client.keepUp { link with ready := true } reached took
      | (client, link, false) => { client with link := some link }

/-- A revision that the task had not seen. -/
def onRevision (client : Client) (link : Link) (reached : Bool) (took : Nat) : Client :=
  let client := { client with seen := true }
  if client.revision.epoch ≠ link.epoch then client.finish link
  else if link.ready ∧ link.reauth.isNone then client.keepUp link reached took
  else client

/-- The commands that are out of time. -/
def expire (client : Client) (link : Link) : Client :=
  let expired := link.pending.filter fun _ waiting => waiting.deadline ≤ client.now
  { client.failAll (expired.values.map Pending.wanted) .timeout with
    link := some { link with
      pending := link.pending.filter fun _ waiting => !decide (waiting.deadline ≤ client.now) } }

def onDeadline (client : Client) (link : Link) : Client :=
  if link.reauth.any (fun reauth => reauth.deadline ≤ client.now) then client.finish link
  else client.expire link

/-- The commands that wait for a reply. -/
def pending (client : Client) : List Wanted :=
  match client.link with
  | none => []
  | some link => link.pending.values.map Pending.wanted

/-- A new connection, authenticated with the session's token as it is now. -/
def connect (client : Client) : Client :=
  { client with
    marked := false
    sockets := client.sockets + 1
    link := some
      { epoch := client.session.store.rev.epoch
        authRev := client.session.store.rev.credentialRev
        reauth := none
        ready := false
        pending := ∅
        nextId := 0 } }.note (.opened (client.sockets + 1) client.session.store.rev)

/-- The task is dropped with its client: callers that still wait find their channel closed. -/
def stop (client : Client) : Client :=
  ({ client with link := none, queue := [], stopped := true }.note .stopped).failAll
    (client.queue.filterMap Outgoing.wanted ++ client.pending) .unknown

end Client

end Brook.Transport
