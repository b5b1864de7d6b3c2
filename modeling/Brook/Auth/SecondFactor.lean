import Brook.Auth.Totp
import Brook.Auth.Transactions

namespace Brook.Auth.SecondFactor

/-! The routes that accept a second factor of one user, and the enrolment before
them, as transactions that hold the lock on the user's row.  What a clock says
comes with each step. -/

/-- A row of `totp`; `secret` is what its ciphertext holds. -/
structure Totp where
  secret : Secret
  activatedAt : Option Time
  pendingExpiresAt : Option Time
  lastUsedStep : Option Int

/-- A row of `recovery_codes`; the hash stands for the secret that it verifies,
and `used` for `used_at IS NOT NULL`. -/
structure CodeRow where
  code : RecoveryCode
  used : Bool

inductive Route
  | totpLogin (pending : PendingToken) (code recoveryCode : Option Text)
  | enroll (password : Password)
  | activate (code : Text)
  | disable (password : Password) (code recoveryCode : Option Text)
  | regenerateRecoveryCodes (password : Password)
      (code recoveryCode : Option Text)

/-- What `verify_second_factor` has accepted, a step with the step of the clock
at that moment. -/
inductive Accepted
  | step (secret : Secret) (step clock : Int)
  | code (code : RecoveryCode)
deriving DecidableEq

/-- The committed history: what was accepted, and the codes that there had been
when the recovery codes were replaced or removed. -/
inductive Entry
  | accepted (factor : Accepted)
  | replaced (earlier : List RecoveryCode)
deriving DecidableEq

inductive Stage
  | begun
  | locked
  | enrolling
  | loaded (row : Totp)
  | verified (row : Totp) (factor : Accepted)
  | closing (row : Totp) (factor : Accepted)

structure Request where
  route : Route
  stage : Stage

/-- The user's rows, the registry of used pending tokens, the holder of the lock
and the requests under way; `enrolled` and `generated` are all the secrets and
recovery codes there ever were, `log` is newest first. -/
structure Db where
  user : UserRow
  totp : Option Totp
  codes : List CodeRow
  usedJti : Table Jti Int
  holder : Option TxId
  requests : Table TxId Request
  enrolled : List Secret
  generated : List RecoveryCode
  log : List Entry

inductive Event
  | lock
  | load (now : Time)
  | verify (limited decrypts : Bool) (now : Int)
  | claim (now : Time)
  | commit (now : Time) (secret : Secret) (codes : List RecoveryCode)
  | rollback

inductive Action
  | account (user : UserRow)
  | begin (tx : TxId) (route : Route)
  | advance (tx : TxId) (event : Event)

/-- `used_at` of the row that was found. -/
def markUsed (codes : List CodeRow) (code : RecoveryCode) : List CodeRow :=
  codes.map fun stored =>
    if stored.code = code then { stored with used := true } else stored

namespace Db

def start (user : UserRow) : Db := ⟨user, none, [], ∅, none, ∅, [], [], []⟩

def setStage (db : Db) (tx : TxId) (route : Route) (stage : Stage) : Db :=
  { db with requests := db.requests.put tx ⟨route, stage⟩ }

def finish (db : Db) (tx : TxId) : Db :=
  { db with
    holder := if db.holder = some tx then none else db.holder
    requests := db.requests.filter fun other _ => other ≠ tx }

def activeTotp (db : Db) : Option Totp :=
  db.totp.filter fun row => row.activatedAt.isSome

/-- The use that `verify_second_factor` has recorded in the row. -/
def record (db : Db) (row : Totp) (factor : Accepted) : Db :=
  match factor with
  | .step _ step _ =>
      { db with
        totp := some { row with lastUsedStep := some step }
        log := .accepted factor :: db.log }
  | .code code =>
      { db with
        codes := markUsed db.codes code
        log := .accepted factor :: db.log }

def replaceRecoveryCodes (db : Db) (codes : List RecoveryCode) : Db :=
  { db with
    codes := codes.map fun code => ⟨code, false⟩
    generated := codes ++ db.generated
    log := .replaced db.generated :: db.log }

def removeTotp (db : Db) : Db :=
  { db with
    totp := none
    codes := []
    log := .replaced db.generated :: db.log }

/-- `new_recovery_codes`: distinct lookups, and secrets that are new. -/
def freshCodes (db : Db) (codes : List RecoveryCode) : Bool :=
  codes.length = recoveryCodeCount && (codes.map (·.lookup)).Nodup &&
    codes.all fun code => code ∉ db.generated

end Db

/-- The checks on the user's row as it was locked. -/
def admits (db : Db) : Route → Bool
  | .totpLogin pending _ _ =>
      db.user.active && !db.user.sessionRevoked pending.issuedAt &&
        !db.user.passwordChangedSince pending.issuedAt &&
        !db.usedJti.contains pending.jti
  | .enroll password | .disable password _ _
  | .regenerateRecoveryCodes password _ _ =>
      db.user.active && db.user.password = password
  | .activate _ => true

/-- `lock_user`, with the checks that follow it. -/
def lockStep (db : Db) (tx : TxId) (route : Route) : Option Db :=
  match db.holder with
  | some _ => none
  | none =>
      if admits db route then
        some { db.setStage tx route .locked with holder := some tx }
      else some (db.finish tx)

/-- The `SELECT` of the `totp` row, and each route's checks on it. -/
def loadStep (db : Db) (tx : TxId) (route : Route) (now : Time) : Db :=
  match route with
  | .totpLogin pending _ _ =>
      match db.activeTotp with
      | none => db.finish tx
      | some row =>
          match row.activatedAt with
          | none => db.finish tx
          | some activatedAt =>
              if pending.issuedAt < activatedAt then db.finish tx
              else db.setStage tx route (.loaded row)
  | .enroll _ =>
      if db.activeTotp.isSome then db.finish tx
      else db.setStage tx route .enrolling
  | .activate _ =>
      match db.totp with
      | none => db.finish tx
      | some row =>
          match row.activatedAt, row.pendingExpiresAt with
          | some _, _ | none, none => db.finish tx
          | none, some expiresAt =>
              if expiresAt ≤ now then db.finish tx
              else db.setStage tx route (.loaded row)
  | .disable _ _ _ | .regenerateRecoveryCodes _ _ _ =>
      match db.activeTotp with
      | none => db.finish tx
      | some row => db.setStage tx route (.loaded row)

def looksLikeTotp (std : Stdlib) (text : Text) : Bool :=
  isDigits (squeeze std text)

/-- The `code` and the `recovery_code` that a route verifies. -/
def Route.submitted (std : Stdlib) : Route → Option Text × Option Text
  | .totpLogin _ code recoveryCode => (code, recoveryCode)
  | .enroll _ => (none, none)
  | .activate code => (some code, none)
  | .disable _ code recoveryCode
  | .regenerateRecoveryCodes _ code recoveryCode =>
      match code with
      | none => (none, recoveryCode)
      | some typed =>
          if looksLikeTotp std typed then (some typed, recoveryCode)
          else (none, some typed)

/-- `verify_second_factor`; `none` for every refusal and exception. -/
def verifySecondFactor (std : Stdlib) (db : Db) (row : Totp)
    (code recoveryCode : Option Text) (limited decrypts : Bool) (now : Int) :
    Option Accepted :=
  if limited then none
  else
    match code with
    | some code =>
        if decrypts then
          match matchStep std row.secret code now row.lastUsedStep with
          | some (some step) => some (.step row.secret step (stepFor now))
          | _ => none
        else none
    | none =>
        match parseRecoveryCode std (recoveryCode.getD []) with
        | none => none
        | some parsed =>
            match db.codes.find? fun stored =>
              stored.code.lookup = parsed.lookup ∧ stored.used = false with
            | none => none
            | some stored =>
                if stored.code.secret = parsed.secret then
                  some (.code stored.code)
                else none

/-- A refusal commits what was recorded of the attempt, or rolls back: neither
leaves anything here. -/
def verifyStep (std : Stdlib) (db : Db) (tx : TxId) (route : Route) (row : Totp)
    (limited decrypts : Bool) (now : Int) : Db :=
  let (code, recoveryCode) := route.submitted std
  match verifySecondFactor std db row code recoveryCode limited decrypts now with
  | none => db.finish tx
  | some factor => db.setStage tx route (.verified row factor)

/-- `_claim_jti` in `totp_login`. -/
def claimStep (db : Db) (tx : TxId) (route : Route) (pending : PendingToken)
    (row : Totp) (factor : Accepted) (now : Time) : Db :=
  match claimJti db.usedJti pending now with
  | none => db.finish tx
  | some usedJti =>
      { db with usedJti }.setStage tx route (.closing row factor)

/-- The writes of a route after the verification, with its `COMMIT`. -/
def commitStep (db : Db) (tx : TxId) (request : Request) (now : Time)
    (secret : Secret) (codes : List RecoveryCode) : Option Db :=
  match request.route, request.stage with
  | .totpLogin _ _ _, .closing row factor =>
      some ((db.record row factor).finish tx)
  | .enroll _, .enrolling =>
      if secret ∈ db.enrolled then none
      else
        some ({ db with
          totp := some ⟨secret, none, some (now + 600 * 1000), none⟩
          enrolled := secret :: db.enrolled }.finish tx)
  | .activate _, .verified row factor =>
      if db.freshCodes codes then
        let recorded := db.record row factor
        let activated : Db :=
          { recorded with
            totp := recorded.totp.map fun row =>
              { row with activatedAt := some now, pendingExpiresAt := none } }
        some ((activated.replaceRecoveryCodes codes).finish tx)
      else none
  | .disable _ _ _, .verified row factor =>
      some ((db.record row factor).removeTotp.finish tx)
  | .regenerateRecoveryCodes _ _ _, .verified row factor =>
      if db.freshCodes codes then
        some (((db.record row factor).replaceRecoveryCodes codes).finish tx)
      else none
  | _, _ => none

def advanceStep (std : Stdlib) (db : Db) (tx : TxId) (request : Request) :
    Event → Option Db
  | .lock =>
      match request.stage with
      | .begun => lockStep db tx request.route
      | _ => none
  | .load now =>
      match request.stage with
      | .locked => some (loadStep db tx request.route now)
      | _ => none
  | .verify limited decrypts now =>
      match request.stage with
      | .loaded row =>
          some (verifyStep std db tx request.route row limited decrypts now)
      | _ => none
  | .claim now =>
      match request.route, request.stage with
      | .totpLogin pending _ _, .verified row factor =>
          some (claimStep db tx request.route pending row factor now)
      | _, _ => none
  | .commit now secret codes => commitStep db tx request now secret codes
  | .rollback => some (db.finish tx)

def step (std : Stdlib) (db : Db) : Action → Option Db
  | .account user =>
      match db.holder with
      | some _ => none
      | none => some { db with user }
  | .begin tx route =>
      if db.requests.contains tx then none
      else some (db.setStage tx route .begun)
  | .advance tx event =>
      match db.requests.get? tx with
      | none => none
      | some request => advanceStep std db tx request event

end Brook.Auth.SecondFactor
