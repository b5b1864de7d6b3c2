import Mathlib.Logic.Basic

namespace Brook.SignedIn

/-! The stored session: what every client of an origin shares.  `slot` and
`fenced` are on the device, `owner` and `family` in the process. -/

abbrev ClientId := Nat

/-- A login of the server; all rotations of a token stay in its login. -/
abbrev LoginId := Nat

structure User where
  id : Nat
  profile : Nat
deriving DecidableEq

/-- A refresh token.  Its login is what the server knows about it. -/
structure Token where
  number : Nat
  login : LoginId
deriving DecidableEq

/-- Held live, and what the slot stores.  The access token is never stored. -/
structure Session where
  user : User
  refreshToken : Token
deriving DecidableEq

/-- What a fence write leaves.  A file whose directory could not be synced is
there all the same, and is reported as a failure. -/
inductive FenceWrite
  | durable
  | unsynced
  | failed
deriving DecidableEq

/-- What goes wrong in one section under the store's lock. -/
structure Faults where
  replaceFails : Bool
  deleteFails : Bool
  loadFails : Bool
  liftFails : Bool
  fenceUnreadable : Bool
  fenceWrite : FenceWrite
deriving DecidableEq

/-- Every slot and fence operation works. -/
def Faults.none : Faults := ⟨false, false, false, false, false, .durable⟩

structure Vault where
  slot : Option Session
  fenced : Bool
  owner : Option ClientId
  /-- The generation of the login stored now. -/
  family : Nat

namespace Vault

def claim (client : ClientId) (vault : Vault) : Vault :=
  { vault with owner := some client }

def newFamily (vault : Vault) : Vault :=
  { vault with family := vault.family + 1 }

/-- Fails closed: an unreadable fence directory is a fence. -/
def readFence (faults : Faults) (vault : Vault) : Bool :=
  vault.fenced || faults.fenceUnreadable

def writeFence (faults : Faults) (vault : Vault) : Vault × Bool :=
  match faults.fenceWrite with
  | .durable => ({ vault with fenced := true }, true)
  | .unsynced => ({ vault with fenced := true }, false)
  | .failed => (vault, false)

def liftFence (faults : Faults) (vault : Vault) : Vault :=
  { vault with fenced := vault.fenced && faults.liftFails }

/-- `none`: the store is locked or failing. -/
def load (faults : Faults) (vault : Vault) : Option (Option Session) :=
  if faults.loadFails then none else some vault.slot

/-- Mirror an installed or committed session; whether it landed. -/
def write (faults : Faults) (session : Session) (vault : Vault) :
    Vault × Bool :=
  if faults.replaceFails then ((vault.writeFence faults).1, false)
  else ({ vault with slot := some session }.liftFence faults, true)

/-- Delete the stored session, or fence it; false only when both failed. -/
def clear (faults : Faults) (vault : Vault) : Vault × Bool :=
  if faults.deleteFails then vault.writeFence faults
  else ({ vault with slot := none }, true)

def clearIfHolds (faults : Faults) (token : Token) (vault : Vault) : Vault :=
  match vault.load faults with
  | some (some stored) =>
      if stored.refreshToken = token then (vault.clear faults).1 else vault
  | _ => vault

/-- Store the successor of a token that the stored copy still holds.  Neither
lifts a fence nor writes one. -/
def followRotation (faults : Faults) (rotatedFrom fresh : Token)
    (vault : Vault) : Vault × Bool :=
  match vault.load faults with
  | some (some stored) =>
      if stored.refreshToken ≠ rotatedFrom then (vault, false)
      else if faults.replaceFails then (vault, false)
      else ({ vault with slot := some ⟨stored.user, fresh⟩ }, true)
  | _ => (vault, false)

/-- Store the session's user beside the same token. -/
def rewriteUser (faults : Faults) (session : Session) (vault : Vault) :
    Vault × Bool :=
  if vault.readFence faults then (vault, false)
  else match vault.load faults with
    | some (some stored) =>
        if stored.refreshToken ≠ session.refreshToken then (vault, false)
        else if faults.replaceFails then (vault, false)
        else ({ vault with slot := some ⟨session.user, stored.refreshToken⟩ },
          true)
    | _ => (vault, false)

/-- The login that a restore would find. -/
def restorable (vault : Vault) : Option LoginId :=
  if vault.fenced then none else vault.slot.map (·.refreshToken.login)

end Vault

end Brook.SignedIn
