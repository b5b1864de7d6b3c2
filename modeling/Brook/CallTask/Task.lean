import Mathlib.Data.List.Basic
import Mathlib.Data.List.DropRight

namespace Brook.CallTask

/-! The task that drives one call: its state, what it reads from the socket and the engine, and
what it does.  A handler runs to its end; what the socket does meanwhile, and how the engine
answers at once, comes with each of its submissions and engine calls. -/

inductive PcKind
  | publish
  | subscribe
deriving DecidableEq

structure IceCandidate where
  candidate : String
  sdpMid : Option String
  sdpMlineIndex : Option Nat

/-- `none` is the end of the candidates. -/
abbrev Candidate := Option IceCandidate

/-- A local candidate, with its number and the publish offer it was gathered for; the code knows
neither. -/
structure Gathered where
  number : Nat
  offer : Option Nat
  candidate : Candidate

inductive MediaKind
  | audio
  | video
  | unknown
deriving DecidableEq

inductive MediaSource
  | mic
  | camera
  | screen
  | unknown
deriving DecidableEq

structure TrackLabel where
  mid : String
  kind : MediaKind
  source : MediaSource

structure PublishOffer where
  sdp : String
  tracks : List TrackLabel

structure SubStream where
  mid : String
  participantId : String
  kind : MediaKind
  source : MediaSource
deriving DecidableEq

/-- The socket as the command layer sees it. -/
structure Conn where
  generation : Nat
  ready : Bool
deriving DecidableEq

/-- Why a command did not get a successful reply. -/
inductive CommandError
  | notSent
  | unknown
  | timeout
  | rejected (code message : String)
  | unexpectedReply
  | tooLarge
  | busy

/-- `code_of` -/
def CommandError.code : CommandError → String
  | .rejected code _ => code
  | .timeout => "timeout"
  | .unexpectedReply => "unexpected_response"
  | .tooLarge => "too_large"
  | .busy => "busy"
  | .notSent => "disconnected"
  | .unknown => "disconnected"

/-- The socket went away with the command. -/
def CommandError.isLost : CommandError → Bool
  | .notSent => true
  | .unknown => true
  | _ => false

/-- The frames of a call.  Which offer a publish carries and which one a candidate was gathered
for is not in them. -/
inductive Frame
  | resume (callId participantId resumeToken : String)
  | publish (callId : String) (seq : Nat) (offer : PublishOffer)
  | subscribeAnswer (callId : String) (version : Nat) (sdp : String)
  | ice (callId : String) (pc : PcKind) (candidate : Gathered)
  | media (callId : String) (audio video : Bool)
  | leave (callId : String)
  /-- A command of another task. -/
  | foreign

structure Outgoing where
  frame : Frame
  /-- The type of the reply; `none` for none. -/
  expect : Option String
  generation : Nat

/-- Commands that may wait for the socket's writer. -/
def commandQueue : Nat := 64

inductive EndReason
  | left
  | sfuRestart
  | removed
  | leftChannel
  | replaced
  | expired
  | sessionChanged
  | engineFailed (message : String)
  | server (code : String)

inductive CallStatus
  | joining
  | connected
  | reconnecting
  | ended (reason : EndReason)

inductive Publish
  | idle
  /-- `create_publish_offer` in flight. -/
  | offering (seq : Nat)
  /-- `call.publish` written; waiting for the answer. -/
  | awaitingAnswer (seq : Nat)
  /-- `apply_publish_answer` in flight. -/
  | applyingAnswer (seq : Nat)
  | stable
  /-- The answer was lost with the socket. -/
  | needsRestart
deriving DecidableEq

def Publish.isOffering : Publish → Bool
  | .offering _ => true
  | _ => false

structure Subscribe where
  seq : Nat := 0
  /-- Newest offer not yet applied. -/
  latest : Option (Nat × String × List SubStream) := none
  /-- The number and the version of the offer being applied. -/
  applying : Option (Nat × Nat) := none
  /-- The answer that was not acknowledged yet. -/
  retained : Option (Nat × String) := none
  acked : Nat := 0

/-- Who waits for an answer of the task. -/
abbrev Caller := Nat

/-- Audio and video, on or off. -/
abbrev Intent := Bool × Bool

structure Media where
  /-- What the engine has. -/
  engine : Option Intent := none
  inFlight : Bool := false
  queued : Option (Intent × Caller) := none
  /-- The server may not have the latest intent. -/
  dirty : Bool := false
  /-- A publish landed: the intent is sent once more. -/
  reannounce : Bool := false

structure Task where
  status : CallStatus := .joining
  callId : String := ""
  participantId : String := ""
  resumeToken : String := ""
  /-- The generation this call is joined on. -/
  generation : Nat
  connected : Bool := true
  resuming : Bool := false
  publishWanted : Bool
  publish : Publish := .idle
  republishPending : Bool := false
  pubSeq : Nat := 0
  /-- An offer that was made while the socket was down. -/
  unsentOffer : Option (Nat × PublishOffer) := none
  /-- Local candidates held until the `call.publish` of the offer. -/
  pubCandidates : List Gathered := []
  sub : Subscribe := {}
  appliedMids : PcKind → Option (List String) := fun _ => none
  remoteBuf : PcKind → List Candidate := fun _ => []
  media : Media := {}
  mediaReply : Option Caller := none
  ended : Bool := false

/-- Whether a candidate belongs to a media section. -/
def fits (mids : List String) : Candidate → Bool
  | none => true
  | some c =>
      match c.sdpMid, c.sdpMlineIndex with
      | some mid, _ => mids.contains mid
      | none, some index => index < mids.length
      | none, none => false

def Task.applicable (task : Task) (pc : PcKind) (candidate : Candidate) : Bool :=
  match task.appliedMids pc with
  | none => false
  | some mids => fits mids candidate

/-- The mids of the media sections of a description, in order. -/
def midsOf (sdp : String) : List String :=
  (sdp.toList.splitOn '\n').filterMap fun line =>
    let line := (line.dropWhile Char.isWhitespace).rdropWhile Char.isWhitespace
    ("a=mid:".toList.isPrefixOf? line).map String.ofList

/-- A value for one connection. -/
def setPc {α : Type} (of : PcKind → α) (pc : PcKind) (value : α) : PcKind → α :=
  fun other => if other = pc then value else of other

/-- Work that was spawned and whose result is still to come. -/
inductive Work
  | publishOffer (seq : Nat)
  | publishAnswer (generation seq : Nat)
  | publishApplied (seq : Nat) (sdp : String)
  | subscribeApplied (seq version : Nat) (streams : List SubStream)
  | subscribeAck (generation version : Nat)
  | resumed (generation : Nat)
  | mediaAck (generation : Nat) (intent prev : Intent)
deriving DecidableEq

/-- A result of it. -/
inductive Done
  | publishOffer (seq : Nat) (res : Except String PublishOffer)
  /-- The answer is a description. -/
  | publishAnswer (generation seq : Nat) (res : Except CommandError String)
  | publishApplied (seq : Nat) (sdp : String) (res : Except String Unit)
  | subscribeApplied (seq version : Nat) (streams : List SubStream) (res : Except String String)
  | subscribeAck (generation version : Nat) (res : Except CommandError Unit)
  | resumed (generation : Nat) (res : Except CommandError Unit)
  | mediaAck (generation : Nat) (intent prev : Intent) (res : Except CommandError Unit)

def Done.work : Done → Work
  | .publishOffer seq _ => .publishOffer seq
  | .publishAnswer generation seq _ => .publishAnswer generation seq
  | .publishApplied seq sdp _ => .publishApplied seq sdp
  | .subscribeApplied seq version streams _ => .subscribeApplied seq version streams
  | .subscribeAck generation version _ => .subscribeAck generation version
  | .resumed generation _ => .resumed generation
  | .mediaAck generation intent prev _ => .mediaAck generation intent prev

/-- The generation and the error of a command that failed. -/
def Done.failed : Done → Option (Nat × CommandError)
  | .publishAnswer generation _ (.error err) => some (generation, err)
  | .subscribeAck generation _ (.error err) => some (generation, err)
  | .resumed generation (.error err) => some (generation, err)
  | .mediaAck generation _ _ (.error err) => some (generation, err)
  | _ => none

structure Joined where
  callId : String
  participantId : String
  resumeToken : String

/-- A frame of the server; what is missing in it has its default. -/
inductive CallFrame
  /-- `none` cannot be read. -/
  | joined (data : Option Joined)
  | subscribeOffer (version : Nat) (sdp : String) (streams : List SubStream)
  | ice (pc : Option PcKind) (candidate : Candidate)
  | ended (reason : String)
  | other

inductive Input
  | localCandidate (pc : PcKind) (candidate : Gathered)
  | engineFailed (message : String)
  | setMedia (intent : Intent) (caller : Caller)
  | republish (caller : Caller)
  | leave (caller : Caller)
  | handleDropped

/-- What a caller is told. -/
inductive Answer
  | ok
  | api (code message : String)
  | busy
  | callEnded
  | command (err : CommandError)

/-- What happened, as the task saw or did it. -/
inductive Event
  /-- The `call.joined` was read. -/
  | joined
  | received (pc : PcKind) (candidate : Candidate)
  | applied (pc : PcKind) (mids : List String)
  | given (pc : PcKind) (candidate : Candidate)
  /-- A renegotiation was asked for, and answered with ok. -/
  | republished
  | offering (seq : Nat)
  | gathered (pc : PcKind) (candidate : Gathered)
  | submitted (frame : Frame) (result : Except CommandError Unit)
  | mediaSet (intent : Intent)
  | answered (caller : Caller) (answer : Answer)
  | unrouted (callId : String)
  | closed

/-- The number of the candidate that was gathered. -/
def Event.number : Event → Option Nat
  | .gathered _ candidate => some candidate.number
  | _ => none

/-- What the transport does on its own.  A frame that is written may be too large. -/
inductive Transport
  /-- A write fails; the connection does not say so yet. -/
  | fail
  | drop
  | ready
  | write (small : Bool)
  | foreign

/-- What comes with a submission or an engine call: what the transport did just before, and
what the engine refuses with. -/
structure Fate where
  meanwhile : List Transport := []
  refuses : Option String := none

structure World where
  task : Task
  conn : Conn
  /-- The socket has failed, and the connection does not say so yet. -/
  broken : Bool
  /-- The task has observed the connection as it is. -/
  seen : Bool
  queue : List Outgoing
  written : List Outgoing
  works : List Work
  fates : List Fate
  log : List Event

namespace World

/-- The call was joined; its `call.joined` is the first frame to come. -/
def start (generation : Nat) (publishWanted : Bool) : World where
  task := { generation, publishWanted }
  conn := ⟨generation, true⟩
  broken := false
  seen := false
  queue := []
  written := []
  works := []
  fates := []
  log := []

/-! ### The transport -/

/-- A command is written on the socket it was made for, or not at all. -/
def write (w : World) (small : Bool) : World :=
  match w.queue with
  | [] => w
  | out :: queue =>
      if w.conn = ⟨out.generation, true⟩ ∧ w.broken = false ∧ small = true then
        { w with
          queue := queue
          written := w.written ++ [out] }
      else { w with queue := queue }

def transport (w : World) : Transport → World
  | .fail => { w with broken := w.conn.ready }
  | .drop =>
      { w with
        conn.ready := false
        broken := false
        seen := false }
  | .ready =>
      { w with
        conn := ⟨w.conn.generation + 1, true⟩
        broken := false
        seen := false }
  | .write small => w.write small
  | .foreign =>
      if w.queue.length < commandQueue then
        { w with queue := w.queue ++ [⟨.foreign, none, w.conn.generation⟩] }
      else w

/-- The next submission or engine call. -/
def turn (w : World) : Fate × World :=
  match w.fates with
  | [] => ({}, w)
  | fate :: fates => (fate, fate.meanwhile.foldl transport { w with fates := fates })

def note (w : World) (event : Event) : World := { w with log := w.log ++ [event] }

/-- `Commands::submit` -/
def submit (w : World) (out : Outgoing) : Except CommandError Unit × World :=
  let w := w.turn.2
  if w.conn.ready = false ∨ w.conn.generation ≠ out.generation then
    (.error .notSent, w.note (.submitted out.frame (.error .notSent)))
  else if w.queue.length < commandQueue then
    (.ok (), { w with queue := w.queue ++ [out] }.note (.submitted out.frame (.ok ())))
  else (.error .busy, w.note (.submitted out.frame (.error .busy)))

/-- `Commands::start` -/
def command (w : World) (generation : Nat) (frame : Frame) (expect : String) :
    Except CommandError Unit × World :=
  w.submit ⟨frame, some expect, generation⟩

/-- `Commands::notify` -/
def notify (w : World) (generation : Nat) (frame : Frame) : World :=
  (w.submit ⟨frame, none, generation⟩).2

/-- Spawn work; a reply is awaited the same way. -/
def spawn (w : World) (work : Work) : World := { w with works := w.works ++ [work] }

/-- Tell a caller, if one waits. -/
def tell (w : World) (caller : Option Caller) (answer : Answer) : World :=
  match caller with
  | some caller => w.note (.answered caller answer)
  | none => w

/-! ### The end -/

def unroute (w : World) : World :=
  if w.task.callId = "" then w else w.note (.unrouted w.task.callId)

def notifyLeave (w : World) (tellServer : Bool) : World :=
  if tellServer = true ∧ w.task.connected = true then
    w.notify w.task.generation (.leave w.task.callId)
  else w

/-- Those who wait for an answer about media are told that the call has ended. -/
def dismiss (w : World) : World :=
  let reply := w.task.mediaReply
  let queued := w.task.media.queued.map Prod.snd
  ((({ w with
    task.mediaReply := none
    task.media.queued := none }).tell reply .callEnded).tell queued .callEnded)

/-- The single end path. -/
def finish (w : World) (reason : EndReason) (tellServer : Bool) : World :=
  if w.task.ended then w
  else
    (((({ w with
      task.ended := true
      task.status := .ended reason }).unroute).note .closed).notifyLeave tellServer).dismiss

/-! ### ICE -/

def addRemote (w : World) (pc : PcKind) (candidate : Candidate) : World :=
  match w.turn with
  | ({ refuses := some message, .. }, w) =>
      (w.note (.given pc candidate)).finish (.engineFailed message) true
  | ({ refuses := none, .. }, w) => w.note (.given pc candidate)

def onRemoteCandidate (w : World) (pc : PcKind) (candidate : Candidate) : World :=
  let w := w.note (.received pc candidate)
  if w.task.remoteBuf pc ≠ [] ∨ w.task.applicable pc candidate = false then
    { w with task.remoteBuf := setPc w.task.remoteBuf pc (w.task.remoteBuf pc ++ [candidate]) }
  else w.addRemote pc candidate

/-- Flush candidates up to the first one without a media section; none are left once the call
has ended. -/
def flushFrom (pc : PcKind) : List Candidate → World → List Candidate × World
  | [], w => ([], w)
  | candidate :: rest, w =>
      if w.task.applicable pc candidate then
        let w := w.addRemote pc candidate
        if w.task.ended then ([], w) else flushFrom pc rest w
      else (candidate :: rest, w)

def flushRemote (w : World) (pc : PcKind) : World :=
  match flushFrom pc (w.task.remoteBuf pc) w with
  | (rest, w) => { w with task.remoteBuf := setPc w.task.remoteBuf pc rest }

def sendCandidate (w : World) (pc : PcKind) (candidate : Gathered) : World :=
  if w.task.connected = false then w
  else w.notify w.task.generation (.ice w.task.callId pc candidate)

def onLocalCandidate (w : World) (pc : PcKind) (candidate : Gathered) : World :=
  let w := w.note (.gathered pc candidate)
  if pc = .publish ∧ w.task.publish.isOffering = true then
    { w with task.pubCandidates := w.task.pubCandidates ++ [candidate] }
  else w.sendCandidate pc candidate

/-! ### Publish -/

def startPublishOffer (w : World) : World :=
  let seq := w.task.pubSeq + 1
  (({ w with
    task.republishPending := false
    task.pubSeq := seq
    task.publish := .offering seq
    task.pubCandidates := [] }).spawn (.publishOffer seq)).note (.offering seq)

/-- The queue writes the held candidates after what is in it. -/
def releaseCandidates (w : World) : World :=
  w.task.pubCandidates.foldl (fun w candidate => w.sendCandidate .publish candidate)
    { w with task.pubCandidates := [] }

def sendPublish (w : World) (seq : Nat) (offer : PublishOffer) : World :=
  if w.task.connected = false then { w with task.unsentOffer := some (seq, offer) }
  else
    match w.command w.task.generation (.publish w.task.callId seq offer) "call.publish.answer" with
    | (.ok _, w) =>
        (({ w with task.publish := .awaitingAnswer seq }).releaseCandidates).spawn
          (.publishAnswer w.task.generation seq)
    | (.error _, w) => { w with task.unsentOffer := some (seq, offer) }

/-! ### Subscribe -/

def maybeApplyOffer (w : World) : World :=
  match w.task.sub.applying, w.task.sub.latest with
  | none, some (version, _, streams) =>
      let seq := w.task.sub.seq + 1
      ({ w with
        task.sub.latest := none
        task.sub.seq := seq
        task.sub.applying := some (seq, version) }).spawn (.subscribeApplied seq version streams)
  | _, _ => w

def sendRetainedAnswer (w : World) : World :=
  match w.task.sub.retained with
  | none => w
  | some (version, sdp) =>
      if w.task.connected = false then w
      else
        match w.command w.task.generation (.subscribeAnswer w.task.callId version sdp) "call.ok" with
        | (.ok _, w) => w.spawn (.subscribeAck w.task.generation version)
        | (.error _, w) => w

def onOffer (w : World) (version : Nat) (sdp : String) (streams : List SubStream) : World :=
  if version ≤ w.task.sub.acked then w
  else if w.task.sub.retained.any (·.1 = version) then w.sendRetainedAnswer
  else if w.task.sub.latest.any (version ≤ ·.1) ∨ w.task.sub.applying.any (version ≤ ·.2) then w
  else ({ w with task.sub.latest := some (version, sdp, streams) }).maybeApplyOffer

/-! ### Media -/

/-- Whether a `call.media` could be handed over. -/
def startMedia (w : World) (intent : Intent) : Bool × World :=
  if w.task.connected then
    match w.command w.task.generation (.media w.task.callId intent.1 intent.2) "call.ok" with
    | (.ok _, w) => (true, w)
    | (.error _, w) => (false, w)
  else (false, w)

/-- Tell the server the media state the engine already has. -/
def sendMedia (w : World) (intent prev : Intent) (reply : Option Caller) : World :=
  match w.startMedia intent with
  | (true, w) =>
      ({ w with
        task.media.reannounce := false
        task.media.inFlight := true
        task.mediaReply := reply }).spawn (.mediaAck w.task.generation intent prev)
  | (false, w) =>
      ({ w with
        task.media.dirty := true
        task.media.reannounce := false }).tell reply .ok

def setMedia (w : World) (intent : Intent) (caller : Caller) : World :=
  if w.task.media.inFlight then
    let older := w.task.media.queued.map Prod.snd
    ({ w with task.media.queued := some (intent, caller) }).tell older .ok
  else
    let prev := w.task.media.engine.getD (true, true)
    match w.turn with
    | ({ refuses := some message, .. }, w) => w.tell (some caller) (.api "engine" message)
    | ({ refuses := none, .. }, w) =>
        (({ w with task.media.engine := some intent }).note (.mediaSet intent)).sendMedia
          intent prev (some caller)

/-- Send a pending announcement once nothing is in flight. -/
def flushReannounce (w : World) : World :=
  if w.task.media.reannounce = false ∨ w.task.ended = true ∨ w.task.media.inFlight = true ∨
      w.task.connected = false then w
  else
    match w.task.media.engine with
    | some intent => w.sendMedia intent intent none
    | none => w

def reannounceMedia (w : World) : World :=
  if w.task.media.engine.isSome then
    ({ w with task.media.reannounce := true }).flushReannounce
  else w

/-! ### Connection changes and resume -/

def disconnect (w : World) (conn : Conn) : World :=
  if (conn.ready = false ∨ conn.generation ≠ w.task.generation) ∧ w.task.connected = true then
    { w with
      task.connected := false
      task.status := .reconnecting }
  else w

def resume (w : World) (conn : Conn) : World :=
  if conn.ready = true ∧ w.task.generation < conn.generation ∧ w.task.resuming = false then
    match w.command conn.generation
        (.resume w.task.callId w.task.participantId w.task.resumeToken) "call.joined" with
    | (.ok _, w) => ({ w with task.resuming := true }).spawn (.resumed conn.generation)
    | (.error _, w) => w
  else w

def onConn (w : World) (conn : Conn) : World :=
  if w.task.ended then w else (w.disconnect conn).resume conn

def restartPublish (w : World) : World :=
  match w.task.publish with
  | .needsRestart => w.startPublishOffer
  | .awaitingAnswer _ => w.startPublishOffer
  | .stable => if w.task.republishPending then w.startPublishOffer else w
  | _ => w

def resendOffer (w : World) : World :=
  match w.task.unsentOffer with
  | some (seq, offer) =>
      let w := { w with task.unsentOffer := none }
      if w.task.publish = .offering seq then w.sendPublish seq offer else w
  | none => w

def resendMedia (w : World) : World :=
  if w.task.media.dirty = true ∧ w.task.media.inFlight = false then
    let w := { w with task.media.dirty := false }
    match w.task.media.engine with
    | some intent => w.sendMedia intent intent none
    | none => w
  else w

/-- Redo the work the drop interrupted. -/
def afterResume (w : World) : World :=
  w.restartPublish.resendOffer.sendRetainedAnswer.resendMedia.flushReannounce

/-! ### Results -/

/-- One more offer, if it was asked for meanwhile. -/
def startPending (w : World) : World :=
  if w.task.republishPending = true ∧ w.task.connected = true ∧ w.task.ended = false then
    w.startPublishOffer
  else w

def onPublishApplied (w : World) (sdp : String) : World :=
  let mids := midsOf sdp
  let w := ({ w with
    task.appliedMids := setPc w.task.appliedMids .publish (some mids)
    task.publish := .stable }).note (.applied .publish mids)
  (w.flushRemote .publish).reannounceMedia.startPending

def onSubscribeApplied (w : World) (version : Nat) (streams : List SubStream) (answer : String) :
    World :=
  let mids := streams.map SubStream.mid
  let w := ({ w with
    task.appliedMids := setPc w.task.appliedMids .subscribe (some mids) }).note
      (.applied .subscribe mids)
  let w := w.flushRemote .subscribe
  if w.task.ended then w
  else if w.task.sub.latest.isSome then w.maybeApplyOffer
  else ({ w with task.sub.retained := some (version, answer) }).sendRetainedAnswer

def onResumed (w : World) (generation : Nat) (res : Except CommandError Unit) : World :=
  let w := { w with task.resuming := false }
  match res with
  | .ok _ =>
      ({ w with
        task.generation := generation
        task.connected := true
        task.status := .connected }).afterResume
  | .error (.rejected code _) =>
      if code = "not_in_call" then w.finish .expired false else w.finish (.server code) false
  | .error _ => w.onConn w.conn

/-- Roll a refused intent back, unless a newer one waits. -/
def rollBack (w : World) (intent prev : Intent) : World :=
  if w.task.media.engine = some intent ∧ w.task.media.queued = none then
    match w.turn with
    | ({ refuses := some _, .. }, w) => w
    | ({ refuses := none, .. }, w) =>
        ({ w with task.media.engine := some prev }).note (.mediaSet prev)
  else w

/-- What the result of a `call.media` means. -/
def settleMedia (w : World) (intent prev : Intent) (res : Except CommandError Unit) : World :=
  let reply := w.task.mediaReply
  let w := { w with
    task.media.inFlight := false
    task.mediaReply := none }
  match res with
  | .ok _ => w.tell reply .ok
  | .error (.rejected code message) => (w.rollBack intent prev).tell reply (.api code message)
  | .error err => ({ w with task.media.dirty := true }).tell reply (.command err)

def sendQueued (w : World) : World :=
  match w.task.media.queued with
  | some (intent, caller) => ({ w with task.media.queued := none }).setMedia intent caller
  | none => w

def onMediaAck (w : World) (intent prev : Intent) (res : Except CommandError Unit) : World :=
  (w.settleMedia intent prev res).sendQueued.flushReannounce

def release (w : World) (version : Nat) : World :=
  if w.task.sub.retained.any (·.1 = version) then { w with task.sub.retained := none } else w

def onSubscribeAck (w : World) (version : Nat) (res : Except CommandError Unit) : World :=
  match res with
  | .ok _ => ({ w with task.sub.acked := max w.task.sub.acked version }).release version
  | .error (.rejected code message) =>
      if code = "stale" then w.release version
      else w.finish (.server (CommandError.rejected code message).code) true
  | .error .unknown => w
  | .error .notSent => w
  | .error .timeout => w
  | .error err => w.finish (.server err.code) true

def onDone (w : World) : Done → World
  | .publishOffer seq res =>
      if seq ≠ w.task.pubSeq ∨ w.task.publish ≠ .offering seq then w
      else
        match res with
        | .ok offer => w.sendPublish seq offer
        | .error message => w.finish (.engineFailed message) true
  | .publishAnswer _ seq res =>
      if w.task.publish ≠ .awaitingAnswer seq then w
      else
        match res with
        | .ok sdp =>
            ({ w with task.publish := .applyingAnswer seq }).spawn (.publishApplied seq sdp)
        | .error err =>
            if err.isLost then { w with task.publish := .needsRestart }
            else w.finish (.server err.code) true
  | .publishApplied seq sdp res =>
      if w.task.publish ≠ .applyingAnswer seq then w
      else
        match res with
        | .ok _ => w.onPublishApplied sdp
        | .error message => w.finish (.engineFailed message) true
  | .subscribeApplied seq version streams res =>
      if w.task.sub.applying.map Prod.fst ≠ some seq then w
      else
        let w := { w with task.sub.applying := none }
        match res with
        | .ok answer => w.onSubscribeApplied version streams answer
        | .error message => w.finish (.engineFailed message) true
  | .subscribeAck _ version res => w.onSubscribeAck version res
  | .resumed generation res => w.onResumed generation res
  | .mediaAck _ intent prev res => w.onMediaAck intent prev res

/-! ### Frames and inputs -/

def setJoined (w : World) (joined : Joined) : World :=
  { w with
    task.callId := joined.callId
    task.participantId := joined.participantId
    task.resumeToken := joined.resumeToken
    task.status := if w.task.callId = "" then .connected else w.task.status }.note .joined

/-- The first one starts the publishing. -/
def onJoined (w : World) : Option Joined → World
  | none => w.finish (.server "unexpected_response") true
  | some joined =>
      if w.task.callId = "" ∧ w.task.publishWanted = true then
        (w.setJoined joined).startPublishOffer
      else w.setJoined joined

def endReason (reason : String) : EndReason :=
  if reason = "sfu_restart" then .sfuRestart
  else if reason = "removed" then .removed
  else if reason = "left" then .leftChannel
  else if reason = "replaced" then .replaced
  else .server reason

def onFrame (w : World) : CallFrame → World
  | .joined data => w.onJoined data
  | .subscribeOffer version sdp streams => w.onOffer version sdp streams
  | .ice (some pc) candidate => w.onRemoteCandidate pc candidate
  | .ice none _ => w
  | .ended reason => w.finish (endReason reason) false
  | .other => w

def onRepublish (w : World) (caller : Caller) : World :=
  if w.task.publishWanted = false then w.tell (some caller) .busy
  else if w.task.publish = .stable ∧ w.task.connected = true then
    ((w.note .republished).startPublishOffer).tell (some caller) .ok
  else
    ({ w.note .republished with task.republishPending := true }).tell (some caller) .ok

/-- Whether a `call.leave` could be handed over. -/
def startLeave (w : World) : Bool × World :=
  if w.task.connected = true ∧ w.task.ended = false then
    match w.command w.task.generation (.leave w.task.callId) "call.ok" with
    | (.ok _, w) => (true, w)
    | (.error _, w) => (false, w)
  else (false, w)

/-- The caller is told when the server has confirmed, or after a while. -/
def onLeave (w : World) (caller : Caller) : World :=
  (w.startLeave.2.finish .left (!w.startLeave.1)).tell (some caller) .ok

def onInput (w : World) : Input → World
  | .localCandidate pc candidate => w.onLocalCandidate pc candidate
  | .engineFailed message => w.finish (.engineFailed message) true
  | .setMedia intent caller => w.setMedia intent caller
  | .republish caller => w.onRepublish caller
  | .leave caller => w.onLeave caller
  | .handleDropped => w.finish .left true

end World

/-! ### Runs -/

inductive Action
  | transport (t : Transport)
  /-- The task sees the connection. -/
  | observe (fates : List Fate)
  | frame (frame : CallFrame) (fates : List Fate)
  | input (input : Input) (fates : List Fate)
  | done (done : Done) (fates : List Fate)
  | sessionChanged

namespace World

/-- A command is lost only with its socket. -/
def answers (w : World) (done : Done) : Bool :=
  done.failed.all fun (generation, err) =>
    !err.isLost || w.conn ≠ ⟨generation, true⟩ || w.broken

/-- A candidate is gathered once, and for an offer that was begun. -/
def gathers (w : World) : Input → Bool
  | .localCandidate _ candidate =>
      candidate.offer.all (· ≤ w.task.pubSeq) && w.log.all (·.number ≠ some candidate.number)
  | _ => true

def step (w : World) : Action → Option World
  | .transport t => some (w.transport t)
  | .observe fates =>
      if w.task.ended = false ∧ w.seen = false then
        some (({ w with
          seen := true
          fates := fates }).onConn w.conn)
      else none
  | .frame frame fates =>
      if w.task.ended = false then some (({ w with fates := fates }).onFrame frame) else none
  | .input input fates =>
      if w.task.ended = false ∧ w.gathers input = true then
        some (({ w with fates := fates }).onInput input)
      else none
  | .done done fates =>
      if w.task.ended = false ∧ done.work ∈ w.works ∧ w.answers done = true then
        some (({ w with
          fates := fates
          works := w.works.erase done.work }).onDone done)
      else none
  | .sessionChanged =>
      if w.task.ended = false then some (w.finish .sessionChanged false) else none

end World

end Brook.CallTask
