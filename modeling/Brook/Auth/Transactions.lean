import Brook.Auth.Refresh

namespace Brook.Auth

/-! The routes that touch one user's sessions, as transactions under `READ
COMMITTED`: each statement reads what is committed when it starts and what its
own transaction wrote, and `FOR UPDATE` on the user's row waits for the holder
to end.  The clock is one that never goes back, in milliseconds. -/

abbrev TxId := Nat

/-- The place of a transaction in the order in which the lock was taken. -/
abbrev Rank := Nat

abbrev Password := Nat

abbrev Jti := Nat

/-- The columns of the user's row; `password` is what `password_hash` verifies,
and `changes` counts the password changes that led to it. -/
structure UserRow where
  active : Bool
  password : Password
  changes : Nat
  passwordChangedAt : Option Time
  sessionsValidAfter : Option Time

namespace UserRow

def passwordChangedSince (user : UserRow) (issuedAt : Time) : Bool :=
  match user.passwordChangedAt with
  | none => false
  | some changedAt => issuedAt < changedAt

def sessionRevoked (user : UserRow) (issuedAt : Time) : Bool :=
  match user.sessionsValidAfter with
  | none => false
  | some cutoff => issuedAt < cutoff

end UserRow

/-- A `totp_pending` token; `exp` is in seconds, and `mintedBy` is the login
that made it. -/
structure PendingToken where
  jti : Jti
  issuedAt : Time
  exp : Int
  mintedBy : Rank
deriving DecidableEq

/-- `create_totp_pending_token`. -/
def PendingToken.create (jti : Jti) (now : Time) (mintedBy : Rank) :
    PendingToken where
  jti := jti
  issuedAt := now
  exp := (now + 300 * 1000) / 1000
  mintedBy := mintedBy

def claimJti (used : Table Jti Int) (pending : PendingToken) (now : Time) :
    Option (Table Jti Int) :=
  let kept := used.filter fun _ exp => ¬ (exp * 1000 < now)
  if kept.contains pending.jti then none
  else some (kept.put pending.jti pending.exp)

/-- What a pair of tokens was issued on: a password, by the number of changes
behind the hash it was checked against, a pending token or a refresh token. -/
inductive Evidence
  | password (changes : Nat)
  | pending (token : PendingToken)
  | refreshToken (token : TokenId)
deriving DecidableEq

structure Issue where
  rank : Rank
  evidence : Evidence
deriving DecidableEq

/-- A committed `sign_out_everywhere`: the changes that its new password makes
and the tokens that its `UPDATE` revoked. -/
structure SignOut where
  rank : Rank
  cutoff : Time
  changes : Nat
  revoked : List TokenId
deriving DecidableEq

inductive Route
  | login (password : Password)
  | totpLogin (pending : PendingToken)
  | refresh (presented : TokenId)
  | logout (presented : TokenId)
  | changePassword (current new : Password) (signOutOtherDevices : Bool)
      (accessIssuedAt : Time)

/-- The `WHERE` of the two `UPDATE`s that revoke. -/
inductive Scope
  | family (chosen : FamilyId)
  | user

def Scope.covers (scope : Scope) (row : RefreshToken) : Bool :=
  match scope with
  | .family chosen => row.familyId = chosen
  | .user => true

def Scope.matches (scope : Scope) (row : RefreshToken) : Bool :=
  scope.covers row && !row.revoked

/-- The arguments of `_issue_tokens`. -/
structure Pair where
  evidence : Evidence
  token : Option TokenId
  family : Option FamilyId

/-- How far a request has come: the statement that comes next, with the values
that its handler holds in local variables. -/
inductive Stage
  | begun
  | found (token : RefreshToken)
  | authenticated
  | locked (user : UserRow) (found : Option RefreshToken)
  | rotating (token : RefreshToken) (checked : Time)
  | signingOut (pair : Pair)
  | updating (scope : Scope) (pair : Option Pair)
  | applying (scope : Scope) (matched : List TokenId) (pair : Option Pair)
  | closing (minted : Option PendingToken)
  | issuing (pair : Pair)

structure Tx where
  route : Route
  stage : Stage
  rank : Rank
  user : Option UserRow
  written : List (TokenId × RefreshToken)
  signOut : Option SignOut

def Tx.start (route : Route) : Tx := ⟨route, .begun, 0, none, [], none⟩

/-- What the statements of the transaction see of the committed tokens. -/
def Tx.view (transaction : Tx) (committed : Tokens) : Tokens :=
  committed.putAll transaction.written

/-- The committed rows, the requests under way, and a record of what was done:
which transaction inserted a token, on what the pairs were issued, and the
sign-outs. -/
structure Db where
  user : UserRow
  tokens : Tokens
  totpActivatedAt : Option Time
  now : Time
  usedJti : Table Jti Int
  minted : List PendingToken
  transactions : Table TxId Tx
  holder : Option TxId
  nextRank : Rank
  inserted : Table TokenId Rank
  issues : List Issue
  signOuts : List SignOut

namespace Db

def start (user : UserRow) (totpActivatedAt : Option Time) (now : Time) :
    Db where
  user := user
  tokens := ∅
  totpActivatedAt := totpActivatedAt
  now := now
  usedJti := ∅
  minted := []
  transactions := ∅
  holder := none
  nextRank := 0
  inserted := ∅
  issues := []
  signOuts := []

def setTx (db : Db) (tx : TxId) (transaction : Tx) : Db :=
  { db with transactions := db.transactions.put tx transaction }

/-- The end of a transaction, which gives its lock back. -/
def endTx (db : Db) (tx : TxId) : Db :=
  { db with
    transactions := db.transactions.filter fun other _ => other ≠ tx
    holder := if db.holder = some tx then none else db.holder }

end Db

inductive Statement
  | read
  | lock
  | decide (codeOk : Bool) (jti : Jti)
  | rotate (successor : TokenId)
  | cutOff
  | snapshot
  | update
  | commit (token : TokenId) (family : FamilyId)
  | rollback

inductive TxAction
  | tick (elapsed : Nat)
  | configureTotp (activatedAt : Option Time)
  | begin (tx : TxId) (route : Route)
  | advance (tx : TxId) (statement : Statement)

/-- The `SELECT` before the lock: the presented token, or the caller of
`get_current_user`. -/
def readStep (db : Db) (tx : TxId) (transaction : Tx) : Option Db :=
  match transaction.stage, transaction.route with
  | .begun, .refresh presented | .begun, .logout presented =>
      match db.tokens.get? presented with
      | none => some (db.endTx tx)
      | some token => some (db.setTx tx { transaction with stage := .found token })
  | .begun, .changePassword _ _ _ accessIssuedAt =>
      if db.user.active ∧ ¬ db.user.sessionRevoked accessIssuedAt then
        some (db.setTx tx { transaction with stage := .authenticated })
      else some (db.endTx tx)
  | _, _ => none

/-- `SELECT ... FOR UPDATE`, and the user's row as it is once the lock is had. -/
def lockStep (db : Db) (tx : TxId) (transaction : Tx) : Option Db :=
  let take (found : Option RefreshToken) : Db :=
    { db with
      transactions := db.transactions.put tx
        { transaction with stage := .locked db.user found, rank := db.nextRank }
      holder := some tx
      nextRank := db.nextRank + 1 }
  if db.holder = none then
    match transaction.stage, transaction.route with
    | .begun, .login _ | .begun, .totpLogin _ => some (take none)
    | .found token, _ => some (take (some token))
    | .authenticated, _ => some (take none)
    | _, _ => none
  else none

/-- Under the lock, up to the first write.  A wrong password or code, a token
that is not accepted or an inactive user ends the request.  A login that has to
rehash stores the same password again. -/
def decideStep (db : Db) (tx : TxId) (transaction : Tx) (codeOk : Bool)
    (jti : Jti) : Option Db :=
  match transaction.stage with
  | .locked user found =>
      match transaction.route with
      | .login password =>
          if user.active = false ∨ user.password ≠ password then
            some (db.endTx tx)
          else
            match db.totpActivatedAt with
            | some _ =>
                let pending := PendingToken.create jti db.now transaction.rank
                some (db.setTx tx
                  { transaction with stage := .closing (some pending) })
            | none =>
                let pair : Pair := ⟨.password user.changes, none, none⟩
                some (db.setTx tx { transaction with stage := .issuing pair })
      | .totpLogin pending =>
          if user.active = false ∨ user.sessionRevoked pending.issuedAt ∨
              user.passwordChangedSince pending.issuedAt ∨
              db.usedJti.contains pending.jti then
            some (db.endTx tx)
          else
            match db.totpActivatedAt with
            | none => some (db.endTx tx)
            | some activatedAt =>
                if pending.issuedAt < activatedAt ∨ codeOk = false then
                  some (db.endTx tx)
                else
                  match claimJti db.usedJti pending db.now with
                  | none => some (db.endTx tx)
                  | some usedJti =>
                      let pair : Pair := ⟨.pending pending, none, none⟩
                      some ({ db with usedJti }.setTx tx
                        { transaction with stage := .issuing pair })
      | .refresh presented =>
          if user.active = false then some (db.endTx tx)
          else
            match (transaction.view db.tokens).get? presented with
            | none => some (db.endTx tx)
            | some token =>
                if token.expired db.now ∧ token.revoked = false then
                  some (db.endTx tx)
                else
                  some (db.setTx tx
                    { transaction with stage := .rotating token db.now })
      | .logout _ =>
          match found with
          | none => none
          | some token =>
              some (db.setTx tx
                { transaction with
                  stage := .updating (.family token.familyId) none })
      | .changePassword current new signOutOtherDevices _ =>
          if user.active = false ∨ user.password ≠ current ∨ new = current then
            some (db.endTx tx)
          else
            let pair : Pair := ⟨.password user.changes, none, none⟩
            let changed : UserRow :=
              { user with
                password := new
                changes := user.changes + 1
                passwordChangedAt := some db.now }
            some (db.setTx tx
              { transaction with
                user := some changed
                stage :=
                  if signOutOtherDevices then .signingOut pair
                  else .issuing pair })
  | _ => none

/-- `_rotate` from its compare-and-set on, with the row re-read under the lock. -/
def rotateStep (settings : Settings) (db : Db) (tx : TxId) (transaction : Tx)
    (successor : TokenId) : Option Db :=
  let view := transaction.view db.tokens
  match transaction.stage, transaction.route with
  | .rotating token checked, .refresh presented =>
      let pair : Pair :=
        ⟨.refreshToken presented, some successor, some token.familyId⟩
      let issue (retired : TokenId) (row : RefreshToken) : Db :=
        db.setTx tx
          { transaction with
            written := transaction.written ++ [(retired, row)]
            stage := .issuing pair }
      let reuse : Db :=
        db.setTx tx
          { transaction with stage := .updating (.family token.familyId) none }
      if token.revoked = false then
        match casRow view presented (some successor) db.now with
        | some row => some (issue presented row)
        | none => some (db.endTx tx) -- `_LostRotationRace`
      else
        match token.rotatedAt with
        | none => some (db.endTx tx)
        | some rotatedAt =>
            let clock : Clock := ⟨checked, db.now, db.now⟩
            match graceSuccessor settings clock token rotatedAt with
            | none => some reuse
            | some replacedBy =>
                match casRow view replacedBy none db.now with
                | some row => some (issue replacedBy row)
                | none => some reuse
  | _, _ => none

/-- `sign_out_everywhere` up to its `UPDATE`. -/
def cutOffStep (db : Db) (tx : TxId) (transaction : Tx) : Option Db :=
  match transaction.stage, transaction.user with
  | .signingOut pair, some user =>
      some (db.setTx tx
        { transaction with
          user := some { user with sessionsValidAfter := some db.now }
          signOut := some ⟨transaction.rank, db.now, user.changes, []⟩
          stage := .updating .user (some pair) })
  | _, _ => none

/-- An `UPDATE` starts: it will touch no row that its snapshot does not match. -/
def snapshotStep (db : Db) (tx : TxId) (transaction : Tx) : Option Db :=
  match transaction.stage with
  | .updating scope pair =>
      let matched := ((transaction.view db.tokens).filter
        fun _ row => scope.matches row).rows.map Prod.fst
      some (db.setTx tx
        { transaction with stage := .applying scope matched pair })
  | _ => none

/-- The rows an `UPDATE` writes: the matched ones that still match. -/
def updatedRows (view : Tokens) (scope : Scope) (matched : List TokenId) :
    List (TokenId × RefreshToken) :=
  matched.filterMap fun token =>
    ((view.get? token).filter scope.matches).map fun row => (token, row.revoke)

def updateStep (db : Db) (tx : TxId) (transaction : Tx) : Option Db :=
  match transaction.stage with
  | .applying scope matched pair =>
      let rows := updatedRows (transaction.view db.tokens) scope matched
      some (db.setTx tx
        { transaction with
          written := transaction.written ++ rows
          signOut := transaction.signOut.map fun signOut =>
            { signOut with revoked := rows.map Prod.fst }
          stage :=
            match pair with
            | none => .closing none
            | some pair => .issuing pair })
  | _ => none

/-- `COMMIT`, with the `INSERT` of `_issue_tokens` before it. -/
def commitStep (settings : Settings) (db : Db) (tx : TxId) (transaction : Tx)
    (token : TokenId) (family : FamilyId) : Option Db :=
  let view := transaction.view db.tokens
  let user := transaction.user.getD db.user
  match transaction.stage with
  | .closing minted =>
      some ({ db with
        user, tokens := view, minted := minted.toList ++ db.minted }.endTx tx)
  | .issuing pair =>
      let token := pair.token.getD token
      let row :=
        RefreshToken.issue settings (pair.family.getD family) db.now
      if view.contains token then none
      else
        some ({ db with
          user
          tokens := view.put token row
          inserted := db.inserted.put token transaction.rank
          issues := ⟨transaction.rank, pair.evidence⟩ :: db.issues
          signOuts := transaction.signOut.toList ++ db.signOuts }.endTx tx)
  | _ => none

/-- One statement of a transaction.  Any of them can fail and roll back. -/
def advance (settings : Settings) (db : Db) (tx : TxId) (transaction : Tx) :
    Statement → Option Db
  | .read => readStep db tx transaction
  | .lock => lockStep db tx transaction
  | .decide codeOk jti => decideStep db tx transaction codeOk jti
  | .rotate successor => rotateStep settings db tx transaction successor
  | .cutOff => cutOffStep db tx transaction
  | .snapshot => snapshotStep db tx transaction
  | .update => updateStep db tx transaction
  | .commit token family => commitStep settings db tx transaction token family
  | .rollback => some (db.endTx tx)

/-- A pending token is signed, so only a minted one is accepted, until it
expires. -/
def Route.Accepted (db : Db) : Route → Prop
  | .totpLogin pending => pending ∈ db.minted ∧ db.now < pending.exp * 1000
  | _ => True

instance (db : Db) (route : Route) : Decidable (route.Accepted db) := by
  cases route <;> unfold Route.Accepted <;> infer_instance

def txStep (settings : Settings) (db : Db) : TxAction → Option Db
  | .tick elapsed => some { db with now := db.now + elapsed }
  | .configureTotp activatedAt =>
      some { db with totpActivatedAt := activatedAt }
  | .begin tx route =>
      if db.transactions.get? tx = none ∧ route.Accepted db then
        some (db.setTx tx (Tx.start route))
      else none
  | .advance tx statement =>
      match db.transactions.get? tx with
      | none => none
      | some transaction => advance settings db tx transaction statement

end Brook.Auth
