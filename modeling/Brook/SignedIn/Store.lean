import Brook.SignedIn.Persist
import Brook.Table.Basic

namespace Brook.SignedIn

/-! `SessionStore`: each operation is one section under the store's lock, with
the slot operations made inside it. -/

inductive AuthState
  | loggedOut
  | authenticating
  | loggedIn (user : User)
  | failed
deriving DecidableEq

structure Revision where
  epoch : Nat
  credentialRev : Nat
deriving DecidableEq

structure Store where
  rev : Revision
  session : Option Session
  /-- The current login attempt. -/
  loginGen : Nat
  challengeOpen : Bool
  /-- The stored copy mirrors this store's session. -/
  persisted : Bool
  closed : Bool
  /-- Persistence is on. -/
  persistence : Bool
  signOutComplete : Bool
  /-- The generation that each token of the stored login belongs to. -/
  slotTokens : Table Token Nat
  /-- What `state_tx` last sent. -/
  published : AuthState

def Store.new : Store where
  rev := ⟨0, 0⟩
  session := none
  loginGen := 0
  challengeOpen := false
  persisted := false
  closed := false
  persistence := false
  signOutComplete := true
  slotTokens := ∅
  published := .loggedOut

def Store.newEpoch (store : Store) : Store :=
  { store with rev := ⟨store.rev.epoch + 1, 0⟩ }

inductive Install
  | installed (epoch : Nat)
  | stale
  | slotTaken

inductive RefreshApplied
  | committed
  | discarded
  | stored

/-- One client's store beside what it shares with the others. -/
structure View where
  client : ClientId
  store : Store
  vault : Vault

namespace View

def setPersistence (view : View) : View :=
  { view with
    store := { view.store with persistence := true }
    vault := view.vault.claim view.client }

/-- Persistence is on and this client owns the slot. -/
def Mine (view : View) : Prop :=
  view.store.persistence = true ∧ view.vault.owner = some view.client

instance (view : View) : Decidable view.Mine :=
  inferInstanceAs (Decidable (_ ∧ _))

/-- Run a slot operation if the slot is this client's. -/
def withSlot (op : Vault → Vault × Bool) (view : View) : View × Option Bool :=
  ({ view with
      vault := if view.Mine then (op view.vault).1 else view.vault },
    if view.Mine then some (op view.vault).2 else none)

def owns (view : View) : Bool :=
  !view.store.persistence || decide (view.vault.owner = some view.client)

def publish (state : AuthState) (view : View) : View :=
  { view with store := { view.store with published := state } }

def markFamily (token : Token) (family : Nat) (view : View) : View :=
  { view with store := { view.store with
      slotTokens := view.store.slotTokens.put token family } }

def unmark (token : Token) (view : View) : View :=
  { view with store := { view.store with
      slotTokens := view.store.slotTokens.filter fun other _ =>
        other ≠ token } }

/-- The token was just written to the slot as a fresh login. -/
def markNewLogin (token : Token) (view : View) : View :=
  if view.store.persistence = true then
    { view with vault := view.vault.newFamily }.markFamily token
      (view.vault.family + 1)
  else view

/-- The token's generation is the slot's, and another client owns the slot. -/
def spares (token : Token) (view : View) : Bool :=
  match view.store.slotTokens.get? token with
  | some family =>
      view.store.persistence && !view.owns && decide (family = view.vault.family)
  | none => false

/-- Decide to revoke; the token to send, unless it is spared. -/
def revokeDetached (token : Token) (view : View) : View × Option Token :=
  (view.unmark token, if view.spares token then none else some token)

def reserveLogin (view : View) : View :=
  { view with store := { view.store with
      loginGen := view.store.loginGen + 1
      challengeOpen := false } }

/-- The store is open and the attempt is still the current one. -/
def Current (gen : Nat) (view : View) : Prop :=
  view.store.closed = false ∧ view.store.loginGen = gen

instance (gen : Nat) (view : View) : Decidable (view.Current gen) :=
  inferInstanceAs (Decidable (_ ∧ _))

def publishFailedIfCurrent (gen : Nat) (view : View) : View :=
  if view.Current gen then view.publish .failed else view

def openChallenge (gen : Nat) (view : View) : View :=
  if view.Current gen then
    { view with store := { view.store with challengeOpen := true } }
  else view

def ChallengeCurrent (gen : Nat) (view : View) : Prop :=
  view.Current gen ∧ view.store.challengeOpen = true

instance (gen : Nat) (view : View) : Decidable (view.ChallengeCurrent gen) :=
  inferInstanceAs (Decidable (_ ∧ _))

def endChallenge (gen : Nat) (view : View) : View :=
  if view.ChallengeCurrent gen then
    { view with store := { view.store with
        challengeOpen := false
        loginGen := view.store.loginGen + 1
        published := .loggedOut } }
  else view

/-- Take the session of an earlier sign-in out; `none`: the attempt is stale. -/
def takeOutForLogin (gen : Nat) (faults : Faults) (view : View) :
    Option (View × Option Session) :=
  if view.Current gen then
    match view.store.session with
    | none => some ({ view with store := view.store.newEpoch }, none)
    | some old =>
        let cleared := (view.withSlot (·.clear faults)).1
        some ({ cleared with store := { cleared.store.newEpoch with
          session := none
          persisted := false } }, some old)
  else none

/-- The end of an install: a new epoch, and `LoggedIn` under the same lock. -/
def hold (session : Session) (view : View) : View :=
  { view with store := { view.store.newEpoch with
      session := some session
      published := .loggedIn session.user } }

def persist (view : View) : View :=
  { view with store := { view.store with
      persisted := view.store.persistence } }

def installForLogin (gen : Nat) (session : Session) (restored : Option Nat)
    (faults : Faults) (view : View) : View × Install :=
  if ¬ view.Current gen then (view, .stale)
  else if view.store.persistence = false then
    (view.hold session, .installed (view.store.rev.epoch + 1))
  else match view.withSlot (·.write faults session) with
    | (_, none) => (view, .slotTaken)
    | (written, some landed) =>
        let marked :=
          if landed then
            match restored with
            | some family => written.markFamily session.refreshToken family
            | none => written.markNewLogin session.refreshToken
          -- Fenced: nobody can restore it.
          else written
        (marked.persist.hold session, .installed (view.store.rev.epoch + 1))

/-- Whether the challenge's session was installed. -/
def installForChallenge (gen : Nat) (session : Session) (faults : Faults)
    (view : View) : View × Bool :=
  if ¬ view.ChallengeCurrent gen then (view, false)
  else
    let closing (view : View) : View :=
      { view with store := { view.store with challengeOpen := false } }
    if view.store.persistence = false then
      ((closing view).persist.hold session, true)
    else match view.withSlot (·.write faults session) with
      | (_, none) => (view, false)
      | (written, some landed) =>
          let marked :=
            if landed then written.markNewLogin session.refreshToken
            else written
          ((closing marked).persist.hold session, true)

/-- The profile of session `epoch` changed. -/
def replaceUser (epoch : Nat) (user : User) (faults : Faults) (view : View) :
    View :=
  if view.store.closed ∨ view.store.rev.epoch ≠ epoch then view
  else match view.store.session with
    | none => view
    | some session =>
        if session.user.id ≠ user.id ∨ session.user = user then view
        else
          let next : Session := { session with user }
          let held := { view with store :=
            { view.store with session := some next } }
          if view.store.persisted then
            (held.withSlot (·.rewriteUser faults next)).1
          else held

/-- Sign out, or with `close` the end of a client; the session taken out. -/
def signOut (close : Bool) (faults : Faults) (view : View) :
    View × Option Session :=
  let out := { view with store := { view.store.newEpoch with
    loginGen := view.store.loginGen + 1
    challengeOpen := false
    closed := view.store.closed || close
    session := none
    published := .loggedOut } }
  if close = false ∧ view.store.persistence = true then
    let cleared := out.withSlot (·.clear faults)
    ({ cleared.1 with store := { cleared.1.store with
        signOutComplete := cleared.2.getD true
        persisted := false } }, view.store.session)
  else (out, view.store.session)

/-- A refreshed token keeps the generation of the one that was sent. -/
def carry (rotation : Bool) (inherited : Option Nat) (fresh : Token)
    (view : View) : View :=
  match rotation, inherited with
  | true, some family => view.markFamily fresh family
  | _, _ => view

/-- The stored copy follows a commit, unless a newer client owns the slot. -/
def mirrorCommit (next : Session) (rotation : Bool) (inherited : Option Nat)
    (faults : Faults) (view : View) : View :=
  if view.store.persistence = false then view
  else match view.withSlot (·.write faults next) with
    | (written, none) => written.carry rotation inherited next.refreshToken
    | (written, some true) =>
        if rotation then written.carry rotation inherited next.refreshToken
        else written.markNewLogin next.refreshToken
    -- Fenced: nobody can restore it.
    | (written, some false) => written

def commitRefresh (rotatedFrom fresh : Token) (rotation : Bool)
    (faults : Faults) (view : View) : View × RefreshApplied :=
  let inherited := view.store.slotTokens.get? rotatedFrom
  let taken := view.unmark rotatedFrom
  if view.store.closed then
    if view.store.persisted then
      let followed :=
        taken.withSlot (·.followRotation faults rotatedFrom fresh)
      (followed.1.carry rotation inherited fresh,
        if followed.2 = some true then .stored else .discarded)
    else (taken.carry rotation inherited fresh, .discarded)
  else match view.store.session with
    | none => (taken.carry rotation inherited fresh, .discarded)
    | some session =>
        if session.refreshToken ≠ rotatedFrom then
          (taken.carry rotation inherited fresh, .discarded)
        else
          let next : Session := { session with refreshToken := fresh }
          let marked := taken.mirrorCommit next rotation inherited faults
          ({ marked with store := { marked.store with
              session := some next
              rev := ⟨marked.store.rev.epoch,
                marked.store.rev.credentialRev + 1⟩ } }, .committed)

/-- The server rejected the token: clear the session that still holds it. -/
def clearIfHolds (rejected : Token) (faults : Faults) (view : View) : View :=
  match view.store.session with
  | none => view
  | some session =>
      if session.refreshToken ≠ rejected then view
      else
        let cleared := (view.withSlot (·.clear faults)).1
        { cleared with store := { cleared.store.newEpoch with
            persisted := false
            session := none
            published := .loggedOut } }

/-- A restore's token was refused: delete the stored copy that still holds it. -/
def clearPersistedIfHolds (gen : Nat) (refused : Token) (faults : Faults)
    (view : View) : View :=
  if view.store.loginGen ≠ gen then view
  else (view.withSlot fun vault =>
    (vault.clearIfHolds faults refused, true)).1

end View

end Brook.SignedIn
