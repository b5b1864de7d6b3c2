import Brook.Auth.Transactions

namespace Brook.Ws

open Auth

/-! The sockets of one api process.  A step runs from one await to the next;
what happens between two awaits of a task is one step. -/

abbrev UserId := Nat

abbrev ConnId := Nat

abbrev SweepId := Nat

/-- What a decoded access token says; `genuine` fails for anything that
`decode_access_token` refuses, and `expired` tells the stale ones apart. -/
structure AccessToken where
  user : UserId
  issuedMs : Int
  genuine : Bool
  expired : Bool
deriving DecidableEq

/-- The answers of `_user_from_token`. -/
inductive Authed
  | refused
  | expired
  | revoked
  | accepted (user : UserId) (issuedMs : Int)
deriving DecidableEq

/-- `_user_from_token`, with the row that its `SELECT` returned. -/
def userFromToken (users : Table UserId Auth.UserRow) (token : AccessToken) :
    Authed :=
  if token.genuine = false then .refused
  else if token.expired then .expired
  else
    match users.get? token.user with
    | none => .refused
    | some user =>
        if user.active = false then .refused
        else if user.sessionRevoked token.issuedMs then .revoked
        else .accepted token.user token.issuedMs

inductive CloseReason
  | tokenExpired
  | sessionRevoked
  | authFailed
  | rateLimited
  | frameTooLarge

/-- How far the endpoint's task has come.  `authenticated` is past the database
check, `registered` past `hub.register`; from `serving` on the connection is in
`_live`. -/
inductive Phase
  | authenticating (token : AccessToken)
  | authenticated
  | registered
  | serving
  | reauthenticating (token : AccessToken)
  | reauthenticated (authed : Authed)
  | handling
  | gone
deriving DecidableEq

def Phase.live : Phase → Bool
  | .serving | .reauthenticating _ | .reauthenticated _ | .handling => true
  | _ => false

/-- In the hub's `_conns`. -/
def Phase.inHub : Phase → Bool
  | .registered => true
  | phase => phase.live

/-- Past a database check that the cutoff has not been compared to yet. -/
def Phase.betweenChecks : Phase → Bool
  | .authenticated | .registered | .reauthenticated _ => true
  | _ => false

structure Connection where
  user : UserId
  issuedMs : Int
  closed : Bool
  phase : Phase

/-- A `revoke_sessions` under way, with the stale connections it has not closed
yet. -/
structure Sweep where
  user : UserId
  cutoff : Int
  stale : List ConnId

inductive SocketEvent
  | closed (conn : ConnId) (reason : CloseReason)
  | handled (conn : ConnId)

/-- `_cutoffs`, the connections, the sweeps; `signedOut` are the revocations
that are committed, `swept` those whose sweep is over.  The log has the last
event first. -/
structure Sockets where
  users : Table UserId Auth.UserRow
  cutoffs : Table UserId Int
  conns : Table ConnId Connection
  sweeps : Table SweepId Sweep
  signedOut : List (UserId × Int)
  swept : List (UserId × Int)
  log : List SocketEvent

namespace Sockets

def start (users : Table UserId Auth.UserRow) : Sockets :=
  ⟨users, ∅, ∅, ∅, [], [], []⟩

/-- `_cutoffs.get(user, 0)`. -/
def cutoff (sockets : Sockets) (user : UserId) : Int :=
  (sockets.cutoffs.get? user).getD 0

def setConn (sockets : Sockets) (conn : ConnId) (connection : Connection) :
    Sockets :=
  { sockets with conns := sockets.conns.put conn connection }

def close (sockets : Sockets) (conn : ConnId) (connection : Connection)
    (reason : CloseReason) : Sockets :=
  if connection.closed then sockets.setConn conn connection
  else
    { sockets.setConn conn { connection with closed := true } with
      log := .closed conn reason :: sockets.log }

end Sockets

/-- A text frame, by what the loop makes of it. -/
inductive SocketFrame
  | auth (token : AccessToken) (limited : Bool)
  | command
  | tooLarge
  | noEnvelope

inductive SocketAction
  | signOut (user : UserId) (cutoff : Int)
  | revoke (sweep : SweepId) (user : UserId) (cutoff : Int)
  | sweep (sweep : SweepId)
  | connect (conn : ConnId) (token : AccessToken)
  | read (conn : ConnId)
  | register (conn : ConnId)
  | enter (conn : ConnId)
  | frame (conn : ConnId) (frame : SocketFrame)
  | settle (conn : ConnId)
  | handlerDone (conn : ConnId)
  | expire (conn : ConnId)
  | sendFails (conn : ConnId)
  | leave (conn : ConnId)

/-- The commit of a `sign_out_everywhere`. -/
def signOutStep (sockets : Sockets) (user : UserId) (cutoff : Int) : Sockets :=
  { sockets with
    users := sockets.users.mapRows fun id row =>
      if id = user then { row with sessionsValidAfter := some cutoff } else row
    signedOut := (user, cutoff) :: sockets.signedOut }

/-- `revoke_sessions` up to its first await. -/
def revokeStep (sockets : Sockets) (sweep : SweepId) (user : UserId)
    (cutoff : Int) : Sockets :=
  let stale := (sockets.conns.filter fun _ connection =>
    connection.phase.live && connection.user = user &&
      decide (connection.issuedMs < cutoff)).rows.map Prod.fst
  { sockets with
    cutoffs := sockets.cutoffs.put user (max cutoff (sockets.cutoff user))
    sweeps := sockets.sweeps.put sweep ⟨user, cutoff, stale⟩ }

/-- The next `close` of a sweep, or its end. -/
def sweepStep (sockets : Sockets) (id : SweepId) (sweep : Sweep) : Sockets :=
  match sweep.stale with
  | [] =>
      { sockets with
        sweeps := sockets.sweeps.filter fun other _ => other ≠ id
        swept := (sweep.user, sweep.cutoff) :: sockets.swept }
  | conn :: rest =>
      let after : Sockets :=
        { sockets with sweeps := sockets.sweeps.put id { sweep with stale := rest } }
      match sockets.conns.get? conn with
      | none => after
      | some connection => after.close conn connection .sessionRevoked

/-- The database check, at the connection or on the open socket. -/
def readStep (sockets : Sockets) (conn : ConnId) (connection : Connection) :
    Option Sockets :=
  match connection.phase with
  | .authenticating token =>
      match userFromToken sockets.users token with
      | .accepted _ _ =>
          some (sockets.setConn conn { connection with phase := .authenticated })
      | _ => some (sockets.setConn conn { connection with phase := .gone })
  | .reauthenticating token =>
      let authed := userFromToken sockets.users token
      some (sockets.setConn conn
        { connection with phase := .reauthenticated authed })
  | _ => none

/-- Entry in `_live` and the cutoff check after it. -/
def enterStep (sockets : Sockets) (conn : ConnId) (connection : Connection) :
    Sockets :=
  let live : Connection := { connection with phase := .serving }
  if connection.issuedMs < sockets.cutoff connection.user then
    sockets.close conn live .sessionRevoked
  else sockets.setConn conn live

/-- `_reauth` after its database check. -/
def settleStep (sockets : Sockets) (conn : ConnId) (connection : Connection)
    (authed : Authed) : Sockets :=
  let serving : Connection := { connection with phase := .serving }
  match authed with
  | .expired => sockets.close conn serving .tokenExpired
  | .revoked => sockets.close conn serving .sessionRevoked
  | .refused => sockets.close conn serving .authFailed
  | .accepted user issuedMs =>
      if user ≠ connection.user then sockets.close conn serving .authFailed
      else if issuedMs < sockets.cutoff connection.user then
        sockets.close conn { serving with issuedMs } .sessionRevoked
      else sockets.setConn conn { serving with issuedMs }

def frameStep (sockets : Sockets) (conn : ConnId) (connection : Connection)
    (frame : SocketFrame) : Sockets :=
  if connection.closed then
    sockets.setConn conn { connection with phase := .gone }
  else
    match frame with
    | .tooLarge => sockets.close conn connection .frameTooLarge
    | .noEnvelope => sockets
    | .auth token limited =>
        if limited then sockets.close conn connection .rateLimited
        else
          sockets.setConn conn
            { connection with phase := .reauthenticating token }
    | .command =>
        { sockets.setConn conn { connection with phase := .handling } with
          log := .handled conn :: sockets.log }

def socketStep (sockets : Sockets) : SocketAction → Option Sockets
  | .signOut user cutoff => some (signOutStep sockets user cutoff)
  | .revoke sweep user cutoff =>
      if (user, cutoff) ∈ sockets.signedOut ∧
          sockets.sweeps.get? sweep = none then
        some (revokeStep sockets sweep user cutoff)
      else none
  | .sweep id => (sockets.sweeps.get? id).map (sweepStep sockets id)
  | .connect conn token =>
      if sockets.conns.get? conn = none then
        some (sockets.setConn conn
          ⟨token.user, token.issuedMs, false, .authenticating token⟩)
      else none
  | .read conn => (sockets.conns.get? conn).bind (readStep sockets conn)
  | .register conn =>
      match sockets.conns.get? conn with
      | some connection =>
          if connection.phase = .authenticated then
            some (sockets.setConn conn { connection with phase := .registered })
          else none
      | none => none
  | .enter conn =>
      match sockets.conns.get? conn with
      | some connection =>
          if connection.phase = .registered then
            some (enterStep sockets conn connection)
          else none
      | none => none
  | .frame conn frame =>
      match sockets.conns.get? conn with
      | some connection =>
          if connection.phase = .serving then
            some (frameStep sockets conn connection frame)
          else none
      | none => none
  | .settle conn =>
      match sockets.conns.get? conn with
      | some connection =>
          match connection.phase with
          | .reauthenticated authed =>
              some (settleStep sockets conn connection authed)
          | _ => none
      | none => none
  | .handlerDone conn =>
      match sockets.conns.get? conn with
      | some connection =>
          if connection.phase = .handling then
            some (sockets.setConn conn { connection with phase := .serving })
          else none
      | none => none
  | .expire conn =>
      match sockets.conns.get? conn with
      | some connection =>
          if connection.phase.live then
            some (sockets.close conn connection .tokenExpired)
          else none
      | none => none
  | .sendFails conn =>
      match sockets.conns.get? conn with
      | some connection =>
          if connection.phase.live then
            some (sockets.setConn conn { connection with closed := true })
          else none
      | none => none
  | .leave conn =>
      match sockets.conns.get? conn with
      | some connection =>
          if connection.phase = .serving then
            some (sockets.setConn conn { connection with phase := .gone })
          else none
      | none => none

end Brook.Ws
