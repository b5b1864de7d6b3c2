import Brook.Transport.Step
import Mathlib.Logic.Relation

namespace Brook.Transport

open Brook.CallTask (CommandError)
open Brook.Ws (Json)

/-! What a step does to the commands: every step is a chain of moves, and the moves say what
becomes of each command, of the socket and of the log. -/

/-- The command that a frame answers. -/
def reOf (frame : Json) : Option String := (frame.get? "re").bind Json.str?

/-- The reply that a frame brings to a command with this expectation. -/
def replyIn (expect : String) (frame : Json) : Except CommandError Reply :=
  Client.outcomeOf expect (text frame "type") ((frame.get? "data").getD .null)

namespace Client

/-- The results of commands that fail together. -/
def settled (now : Nat) (waiting : List Wanted) (error : CommandError) : List Event :=
  waiting.map fun wanted => .result wanted.reply now (.error error)

theorem fail_eq (client : Client) (wanted : Option Wanted) (error : CommandError) :
    client.fail wanted error =
      { client with log := client.log ++ settled client.now wanted.toList error } := by
  cases wanted with
  | none => simp [fail, settled]
  | some wanted => rfl

theorem failAll_eq (client : Client) (waiting : List Wanted) (error : CommandError) :
    client.failAll waiting error =
      { client with log := client.log ++ settled client.now waiting error } := by
  induction waiting generalizing client with
  | nil => simp [failAll, settled]
  | cons wanted rest ih =>
      rw [failAll, List.foldl_cons, ← failAll, ih]
      simp [fail, answer, note, settled]

end Client

/-- Entries that say nothing about a command or a socket. -/
inductive Event.Aside : Event → Prop
  | gaveUp (reply : Channel) : Event.Aside (.gaveUp reply)
  | delivered (mailbox : Mailbox) (frame : CallFrame) : Event.Aside (.delivered mailbox frame)
  | routed (callId : String) (mailbox : Mailbox) : Event.Aside (.routed callId mailbox)
  | unrouted (callId : String) : Event.Aside (.unrouted callId)
  | raw (ty : String) (data : Json) : Event.Aside (.raw ty data)
  | published (frame : Json) : Event.Aside (.published frame)

/-- The link only forgot a re-auth or became ready. -/
structure Link.Aside (ready : Bool) (link next : Link) : Prop where
  pending : next.pending = link.pending
  nextId : next.nextId = link.nextId
  reauth : next.reauth = link.reauth ∨ next.reauth = none
  ready : next.ready = true → link.ready = true ∨ ready = true

/-- No command, socket or id is concerned. -/
structure Aside (client next : Client) : Prop where
  now : client.now ≤ next.now
  conn : next.conn = client.conn
  admitted : next.admitted = client.admitted
  queue : next.queue = client.queue
  closed : client.link = none → next.link = none
  link : ∀ link, client.link = some link →
    ∃ later, next.link = some later ∧ link.Aside client.conn.ready later
  sockets : next.sockets = client.sockets
  replies : next.replies = client.replies
  stopped : next.stopped = client.stopped
  log : ∃ more, next.log = client.log ++ more ∧ (∀ event ∈ more, event.Aside) ∧
    ∀ reply, reply ∈ next.gaveUp ↔ reply ∈ client.gaveUp ∨ .gaveUp reply ∈ more

inductive Move : Client → Client → Prop
  | aside {client next : Client} (aside : Aside client next) : Move client next
  | refused (client : Client) :
      Move client ({ client with replies := client.replies + 1 }.answer client.replies
        (.error .notSent))
  | asked (client : Client) (out : Outgoing) (wanted : Wanted)
      (asks : out.wanted = some wanted) (fresh : wanted.reply = client.replies)
      (ready : client.conn.ready = true) (current : client.conn.generation = out.generation) :
      Move client ({ client with
        replies := client.replies + 1
        admitted := client.admitted ++ [out] }.note (.admitted out))
  | notified (client : Client) (out : Outgoing) (asks : out.wanted = none)
      (ready : client.conn.ready = true) (current : client.conn.generation = out.generation) :
      Move client ({ client with admitted := client.admitted ++ [out] }.note (.admitted out))
  | queued (client : Client) (index : Nat) (out : Outgoing)
      (waits : client.admitted[index]? = some out) :
      Move client ({ client with
        admitted := client.admitted.eraseIdx index
        queue := client.queue ++ [out] }.note (.queued out))
  | turnedAway (client : Client) (index : Nat) (out : Outgoing) (error : CommandError)
      (waits : client.admitted[index]? = some out) (why : error = .notSent ∨ error = .busy) :
      Move client ({ client with admitted := client.admitted.eraseIdx index }.fail out.wanted error)
  | skipped (client : Client) (out : Outgoing) (rest : List Outgoing)
      (first : client.queue = out :: rest) (closed : client.isClosed out.wanted = true) :
      Move client { client with queue := rest }
  | unsent (client : Client) (link : Link) (out : Outgoing) (rest : List Outgoing)
      (error : CommandError) (ids : Nat) (isOpen : client.link = some link)
      (first : client.queue = out :: rest) (why : error = .notSent ∨ error = .tooLarge) :
      Move client { ({ client with queue := rest }.fail out.wanted error) with
        link := some { link with nextId := link.nextId + ids } }
  | wrote (client : Client) (link : Link) (out : Outgoing) (rest : List Outgoing) (took : Nat)
      (isOpen : client.link = some link) (first : client.queue = out :: rest)
      (ready : client.conn.ready = true) (current : client.conn.generation = out.generation) :
      Move client { ({ client with queue := rest, now := client.now + took }.note
          (.wrote client.sockets (Client.frameId out.generation (link.nextId + 1))
            (.command out client.now))) with
        link := some (Client.register { link with nextId := link.nextId + 1 }
          (Client.frameId out.generation (link.nextId + 1)) out.wanted
          (client.now + replyTimeout)) }
  | reauth (client : Client) (link : Link) (took : Nat)
      (isOpen : client.link = some link) (ready : client.conn.ready = true) :
      Move client { ({ client with now := client.now + took }.note
          (.wrote client.sockets (Client.frameId client.conn.generation (link.nextId + 1))
            (.auth client.session.store.rev))) with
        link := some { link with
          nextId := link.nextId + 1
          reauth := some ⟨Client.frameId client.conn.generation (link.nextId + 1),
            client.session.store.rev.credentialRev,
            client.now + took + replyTimeout⟩ } }
  | received (client : Client) (link : Link) (frame : Json) (isOpen : client.link = some link)
      (unasked : ∀ re, reOf frame = some re → link.pending.get? re = none) :
      Move client (client.note (.received client.sockets frame))
  | replied (client : Client) (link : Link) (frame : Json) (re : String) (waiting : Pending)
      (routes : Table String Mailbox) (more : List Event) (isOpen : client.link = some link)
      (answers : reOf frame = some re) (waits : link.pending.get? re = some waiting)
      (aside : ∀ event ∈ more, event.Aside) (still : ∀ reply, .gaveUp reply ∉ more)
      (listens : waiting.wanted.expect = "call.joined" → text frame "type" = "call.joined" →
        client.isClosed (some waiting.wanted) = false) :
      Move client ({ client with
        link := some { link with pending := link.pending.filter fun other _ => other ≠ re }
        routes := routes
        log := client.log ++ Event.received client.sockets frame :: more }.answer
          waiting.wanted.reply (replyIn waiting.wanted.expect frame))
  | left (client : Client) (link : Link) (frame : Json) (re : String) (waiting : Pending)
      (isOpen : client.link = some link) (answers : reOf frame = some re)
      (waits : link.pending.get? re = some waiting)
      (closed : client.isClosed (some waiting.wanted) = true) :
      Move client { client with
        link := some { link with
          pending := link.pending.filter fun other _ => other ≠ re
          nextId := link.nextId + 1 }
        log := client.log ++ [.received client.sockets frame, .wrote client.sockets
          (Client.frameId client.conn.generation (link.nextId + 1))
          (.leave (text ((frame.get? "data").getD .null) "call_id"))] }
  | failed (client : Client) (link : Link) (id : String) (waiting : Pending)
      (isOpen : client.link = some link) (waits : link.pending.get? id = some waiting) :
      Move client { (client.fail (some waiting.wanted) .unknown) with
        link := some { link with pending := link.pending.filter fun other _ => other ≠ id } }
  | expired (client : Client) (link : Link) (isOpen : client.link = some link) :
      Move client (client.expire link)
  | ended (client : Client) (link : Link) (isOpen : client.link = some link) :
      Move client (client.finish link)
  | opened (client : Client) (closed : client.link = none) (runs : client.stopped = false) :
      Move client client.connect
  | becameReady (client : Client) (link : Link) (isOpen : client.link = some link) :
      Move client client.becomeReady
  | stopped (client : Client) : Move client client.stop

abbrev Moves : Client → Client → Prop := Relation.ReflTransGen Move

end Brook.Transport
