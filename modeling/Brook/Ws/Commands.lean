import Brook.Ws.Sockets

namespace Brook.Ws

/-! The read loop of an authenticated socket and the handlers of its commands.
What the call manager, Janus and the token check answer comes with each frame;
a handler is what it sends and how it ends. -/

inductive Json
  | null
  | bool (value : Bool)
  | int (value : Int)
  | float (literal : String)
  | str (value : String)
  | arr (items : List Json)
  | obj (fields : List (String × Json))

namespace Json

/-- `dict.get`; of two fields with one name the parser keeps the last. -/
def get? (key : String) : Json → Option Json
  | .obj fields =>
      (fields.reverse.find? fun field => field.1 = key).map Prod.snd
  | _ => none

def isObj : Json → Bool
  | .obj _ => true
  | _ => false

def str? : Json → Option String
  | .str value => some value
  | _ => none

end Json

/-- An exception: a `CallError`, or any other. -/
inductive Raise
  | callError (code message : String)
  | exception

/-- What a frame says that the loop or a handler sends. -/
inductive Body
  | ready (user : UserId)
  | pong
  | callJoined (callId channelId participantId resumeToken : String)
  | publishAnswer (callId sdp : String)
  | callOk
  | error (code message : String)

structure Envelope where
  body : Body
  re : Option String

/-- What a coroutine has sent on its own socket, and its end. -/
structure Ran (α : Type) where
  sent : List Envelope
  ended : Except Raise α

namespace Ran

def bind {α β : Type} (first : Ran α) (next : α → Ran β) : Ran β :=
  match first.ended with
  | .error raised => ⟨first.sent, .error raised⟩
  | .ok value =>
      let rest := next value
      ⟨first.sent ++ rest.sent, rest.ended⟩

instance : Monad Ran where
  pure value := ⟨[], .ok value⟩
  bind := bind

/-- `conn.send` on a socket that stays open. -/
def send (body : Body) (re : Option String) : Ran Unit := ⟨[⟨body, re⟩], .ok ()⟩

def raise {α : Type} (raised : Raise) : Ran α := ⟨[], .error raised⟩

/-- A call into the manager: it sends nothing on the socket under `re`. -/
def await {α : Type} (outcome : Except Raise α) : Ran α := ⟨[], outcome⟩

end Ran

structure Joined where
  callId : String
  channelId : String
  participantId : String
  resumeToken : String

def Joined.body (joined : Joined) : Body :=
  .callJoined joined.callId joined.channelId joined.participantId
    joined.resumeToken

/-- The participant that a socket holds in a call: its handles. -/
structure Held where
  callId : String
  subHid : Option Nat

inductive Trickled
  | relayed
  | janusError
  | exception

/-- What everything outside the handler answers while it runs on one frame. -/
structure Answers where
  join : Except Raise Joined
  resume : Except Raise Joined
  participantOf : Option Held
  publish : Except Raise String
  subscribeAnswer : Except Raise Unit
  janus : Except Raise Unit
  trickle : Trickled
  limited : Bool
  authed : Authed
  cutoff : Int

def frameId (frame : Json) : Option String := (frame.get? "id").bind Json.str?

def require (frame : Json) (keys : List String) : Ran Json :=
  match frame.get? "data" with
  | some data =>
      if data.isObj ∧ keys.all (fun key => (data.get? key).isSome) then
        pure data
      else
        .raise (.callError "invalid"
          ("data must contain " ++ ", ".intercalate keys))
  | none =>
      .raise (.callError "invalid"
        ("data must contain " ++ ", ".intercalate keys))

def participantOf (answers : Answers) : Ran Held :=
  match answers.participantOf with
  | some held => pure held
  | none => .raise (.callError "not_in_call" "not in that call")

def ping (re : Option String) : Ran Unit := .send .pong re

/-- `uuid` is `uuid.UUID(str(value))`. -/
def callJoin (uuid : Json → Option String) (answers : Answers) (frame : Json)
    (re : Option String) : Ran Unit := do
  let data ← require frame ["channel_id"]
  match (data.get? "channel_id").bind uuid with
  | none => .raise (.callError "invalid" "channel_id is not a UUID")
  | some _ =>
      let joined ← .await answers.join
      .send joined.body re

def callPublish (answers : Answers) (frame : Json) (re : Option String) :
    Ran Unit := do
  let _ ← require frame ["call_id", "sdp"]
  let held ← participantOf answers
  let answer ← .await answers.publish
  .send (.publishAnswer held.callId answer) re

def callSubscribeAnswer (answers : Answers) (frame : Json)
    (re : Option String) : Ran Unit := do
  let _ ← require frame ["call_id", "version", "sdp"]
  let _ ← participantOf answers
  .await answers.subscribeAnswer
  .send .callOk re

def iceTextMax : Nat := 2048

def iceIndexMax : Int := 65535

/-- A string of a candidate, where one is given. -/
def iceText : Option Json → Bool
  | none | some .null => true
  | some (.str text) => text.length ≤ iceTextMax
  | some _ => false

def iceIndex : Option Json → Bool
  | none | some .null => true
  | some (.int index) => 0 ≤ index && index ≤ iceIndexMax
  | some _ => false

/-- `_client_candidate`: false for a `ValueError`. -/
def clientCandidate : Json → Bool
  | .null => true
  | .obj fields =>
      let candidate := Json.obj fields
      match candidate.get? "completed" with
      | some (.bool true) => true
      | _ =>
          match candidate.get? "candidate" with
          | some (.str text) =>
              text.length ≤ iceTextMax && iceText (candidate.get? "sdpMid") &&
                iceIndex (candidate.get? "sdpMLineIndex")
          | _ => false
  | _ => false

/-- Whether there is a handle to relay to: the publish handle, or the subscribe
handle if there is one. -/
def relays (held : Held) (pc : Option Json) : Bool :=
  match pc with
  | some (.str "publish") => true
  | some (.str "subscribe") => held.subHid.isSome
  | _ => false

def callIce (answers : Answers) (frame : Json) : Ran Unit := do
  let data ← require frame ["call_id", "pc", "candidate"]
  let held ← participantOf answers
  if ¬ relays held (data.get? "pc") then pure ()
  else if ¬ clientCandidate ((data.get? "candidate").getD .null) then pure ()
  else
    .await answers.janus
    match answers.trickle with
    | .relayed | .janusError => pure ()
    | .exception => .raise .exception

def callMedia (answers : Answers) (frame : Json) (re : Option String) :
    Ran Unit := do
  let _ ← require frame ["call_id", "audio", "video"]
  let _ ← participantOf answers
  .send .callOk re

def callLeave (answers : Answers) (frame : Json) (re : Option String) :
    Ran Unit := do
  let _ ← require frame ["call_id"]
  let _ ← participantOf answers
  .send .callOk re

def callResume (answers : Answers) (frame : Json) (re : Option String) :
    Ran Unit := do
  let _ ← require frame ["call_id", "participant_id", "resume_token"]
  let joined ← .await answers.resume
  .send joined.body re

/-- The wrapper of `_cmd`. -/
def cmd (re : Option String) (ran : Ran Unit) : Ran Unit :=
  match ran.ended with
  | .error (.callError code message) =>
      ⟨ran.sent ++ [⟨.error code message, re⟩], .ok ()⟩
  | _ => ran

/-- `_handlers` -/
def handler (uuid : Json → Option String) (answers : Answers) (frame : Json) :
    String → Option (Ran Unit)
  | "ping" => some (ping (frameId frame))
  | "call.join" =>
      some (cmd (frameId frame) (callJoin uuid answers frame (frameId frame)))
  | "call.publish" =>
      some (cmd (frameId frame) (callPublish answers frame (frameId frame)))
  | "call.subscribe.answer" =>
      some (cmd (frameId frame)
        (callSubscribeAnswer answers frame (frameId frame)))
  | "call.ice" => some (cmd (frameId frame) (callIce answers frame))
  | "call.media" =>
      some (cmd (frameId frame) (callMedia answers frame (frameId frame)))
  | "call.leave" =>
      some (cmd (frameId frame) (callLeave answers frame (frameId frame)))
  | "call.resume" =>
      some (cmd (frameId frame) (callResume answers frame (frameId frame)))
  | _ => none

/-- `_reauth`: `none` closes the socket. -/
def reauth (user : UserId) (answers : Answers) (frame : Json) :
    Option (List Envelope) :=
  if answers.limited then none
  else
    match answers.authed with
    | .refused | .expired | .revoked => none
    | .accepted authed issuedMs =>
        if authed ≠ user then none
        else if issuedMs < answers.cutoff then none
        else some [⟨.ready user, frameId frame⟩]

/-- The catch-all of the loop. -/
def caught (re : Option String) (ran : Ran Unit) : List Envelope :=
  match ran.ended with
  | .ok () => ran.sent
  | .error _ => ran.sent ++ [⟨.error "invalid" "internal error", re⟩]

/-- A text frame: its length in bytes and what `json.loads` makes of it. -/
structure Received where
  bytes : Nat
  json : Option Json

def maxFrameBytes : Nat := 64 * 1024

/-- The type of a frame that is an envelope. -/
def frameType (received : Received) : Option (Json × String) :=
  match received.json with
  | some frame =>
      match frame.isObj, (frame.get? "type").bind Json.str? with
      | true, some type => some (frame, type)
      | _, _ => none
  | none => none

/-- One turn of the loop: what it sends, or `none` when it closes the socket. -/
def serve (uuid : Json → Option String) (user : UserId) (answers : Answers)
    (received : Received) : Option (List Envelope) :=
  if maxFrameBytes < received.bytes then none
  else
    match frameType received with
    | none =>
        some [⟨.error "invalid" "frame is not a JSON envelope", none⟩]
    | some (frame, type) =>
        if type = "auth" then reauth user answers frame
        else
          match handler uuid answers frame type with
          | none =>
              let message := "unknown type '" ++ type ++ "'"
              some [⟨.error "invalid" message, frameId frame⟩]
          | some ran => some (caught (frameId frame) ran)

/-- A received frame with what its turn of the loop sent. -/
structure Exchange where
  received : Received
  sent : List Envelope

/-- The socket of one client: whether it is open, and its turns, newest first. -/
structure Line where
  user : UserId
  closed : Bool
  turns : List Exchange

inductive LineAction
  | receive (received : Received) (answers : Answers)
  | close

/-- The frames of other tasks, between and during the turns, carry no `re`. -/
def lineStep (uuid : Json → Option String) (line : Line) :
    LineAction → Option Line
  | .receive received answers =>
      if line.closed then none
      else
        match serve uuid line.user answers received with
        | none => some { line with closed := true }
        | some sent =>
            some { line with turns := ⟨received, sent⟩ :: line.turns }
  | .close => some { line with closed := true }

def Line.start (user : UserId) : Line := ⟨user, false, []⟩

end Brook.Ws
