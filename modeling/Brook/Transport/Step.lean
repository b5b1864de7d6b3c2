import Brook.Transport.Client

namespace Brook.Transport

open Brook.SignedIn (Faults Install RefreshApplied Revision Session Store Token Vault View)
open Brook.Ws (Json)

/-! What the callers, the session's store, the network and the clock may do next. -/

/-- The sections of `SessionStore` under its lock. -/
inductive Section
  | reserveLogin
  | takeOutForLogin (gen : Nat) (faults : Faults)
  | openChallenge (gen : Nat)
  | endChallenge (gen : Nat)
  | installForLogin (gen : Nat) (session : Session) (restored : Option Nat) (faults : Faults)
  | installForChallenge (gen : Nat) (session : Session) (faults : Faults)
  | replaceUser (epoch : Nat) (user : SignedIn.User) (faults : Faults)
  | signOut (close : Bool) (faults : Faults)
  | commitRefresh (rotatedFrom fresh : Token) (rotation : Bool) (faults : Faults)
  | clearIfHolds (rejected : Token) (faults : Faults)
  /-- What other clients do to the slot. -/
  | others (vault : Vault)

/-- The store after the section, and whether its caller goes on to `rev_tx.send_replace`. -/
def Section.run (view : View) : Section → View × Bool
  | .reserveLogin => (view.reserveLogin, false)
  | .takeOutForLogin gen faults =>
      match view.takeOutForLogin gen faults with
      | none => (view, false)
      | some (out, _) => (out, true)
  | .openChallenge gen => (view.openChallenge gen, false)
  | .endChallenge gen => (view.endChallenge gen, false)
  | .installForLogin gen session restored faults =>
      match view.installForLogin gen session restored faults with
      | (held, .installed _) => (held, true)
      | (held, _) => (held, false)
  | .installForChallenge gen session faults => view.installForChallenge gen session faults
  | .replaceUser epoch user faults => (view.replaceUser epoch user faults, false)
  | .signOut close faults => ((view.signOut close faults).1, true)
  | .commitRefresh rotatedFrom fresh rotation faults =>
      match view.commitRefresh rotatedFrom fresh rotation faults with
      | (committed, .committed) => (committed, true)
      | (other, _) => (other, false)
  | .clearIfHolds rejected faults =>
      match view.store.session with
      | none => (view, false)
      | some session =>
          (view.clearIfHolds rejected faults, decide (session.refreshToken = rejected))
  | .others vault => ({ view with vault }, false)

inductive Action
  | tick (ms : Nat)
  | request (generation : Nat) (frame : Fields) (expect : String) (route : Option Mailbox)
  | notify (generation : Nat) (frame : Fields)
  /-- A command that passed the check reaches the queue. -/
  | enqueue (index : Nat)
  /-- A caller drops its future. -/
  | giveUp (reply : Channel)
  /-- A call task is gone, with its mailbox. -/
  | mailboxGone (mailbox : Mailbox)
  /-- A call task removes its route. -/
  | unroute (callId : String)
  | session (section_ : Section)
  /-- `send_replace`, for a section that is over. -/
  | publish (index : Nat)
  /-- `mark_unchanged`, at the head of the loop of `run`. -/
  | mark
  | connect
  | revision (reached : Bool) (took : Nat)
  | take (sent : Sent) (took : Nat)
  /-- A text frame, parsed; `none` if it does not parse. -/
  | text (frame : Option Json) (reached : Bool) (took : Nat)
  | deadline
  /-- The socket is closed by the server, fails, or is silent for too long. -/
  | close
  | stop

def start (view : View) : Client where
  now := 0
  session := view
  unpublished := []
  revision := view.store.rev
  seen := true
  marked := false
  conn := ⟨0, false⟩
  admitted := []
  queue := []
  routes := ∅
  link := none
  sockets := 0
  replies := 0
  gaveUp := []
  gone := []
  stopped := false
  log := []

def Client.onSection (client : Client) (section_ : Section) : Client :=
  { client with
    session := (section_.run client.session).1
    unpublished :=
      if (section_.run client.session).2 then
        client.unpublished ++ [(section_.run client.session).1.store.rev]
      else client.unpublished }

/-- One step; `none` where the action cannot happen. -/
def step (encode : Fields → String) (client : Client) : Action → Option Client
  | .tick ms => some { client with now := client.now + ms }
  | .request generation frame expect route => some (client.request generation frame expect route)
  | .notify generation frame => some (client.notify generation frame)
  | .enqueue index =>
      (client.admitted[index]?).map fun out =>
        { client with admitted := client.admitted.eraseIdx index }.enqueue out
  | .giveUp reply =>
      some ({ client with gaveUp := reply :: client.gaveUp }.note (.gaveUp reply))
  | .mailboxGone mailbox => some { client with gone := mailbox :: client.gone }
  | .unroute callId =>
      some ({ client with
        routes := client.routes.filter fun other _ => other ≠ callId }.note (.unrouted callId))
  | .session section_ => some (client.onSection section_)
  | .publish index =>
      (client.unpublished[index]?).map fun revision =>
        { client with
          unpublished := client.unpublished.eraseIdx index
          revision
          seen := false }
  | .mark =>
      if client.link.isSome ∨ client.stopped then none
      else some { client with seen := true, marked := true }
  | .connect =>
      if client.link.isSome ∨ client.stopped ∨ client.marked = false ∨
          client.session.store.session.isNone then none
      else some client.connect
  | .revision reached took =>
      client.link.bind fun link =>
        if client.seen then none else some (client.onRevision link reached took)
  | .take sent took =>
      client.link.bind fun link =>
        match client.queue with
        | [] => none
        | out :: rest =>
            some ({ client with queue := rest }.writeCommand encode link out sent took)
  | .text frame reached took =>
      client.link.map fun link =>
        match frame with
        | none => client
        | some frame => client.onText link frame reached took
  | .deadline => client.link.map client.onDeadline
  | .close => client.link.map client.finish
  | .stop => if client.stopped then none else some client.stop

end Brook.Transport
