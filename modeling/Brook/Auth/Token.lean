import Brook.Table.Basic

namespace Brook.Auth

/-- Row ids and secrets are both random; a presented token stands for its row
here, and one that hashes to no row for an id that is not stored. -/
abbrev TokenId := Nat

abbrev FamilyId := Nat

/-- Readings of `utcnow()`. -/
abbrev Time := Int

structure Settings where
  refreshTtl : Int
  refreshReuseGrace : Int

/-- The columns of `refresh_tokens` that its routes read. -/
structure RefreshToken where
  familyId : FamilyId
  expiresAt : Time
  revoked : Bool
  rotatedAt : Option Time
  replacedBy : Option TokenId
deriving DecidableEq

abbrev Tokens := Table TokenId RefreshToken

namespace RefreshToken

/-- The row that `_issue_tokens` adds. -/
def issue (settings : Settings) (family : FamilyId) (now : Time) :
    RefreshToken where
  familyId := family
  expiresAt := now + settings.refreshTtl
  revoked := false
  rotatedAt := none
  replacedBy := none

def expired (token : RefreshToken) (now : Time) : Bool :=
  token.expiresAt ≤ now

def revoke (token : RefreshToken) : RefreshToken :=
  { token with revoked := true }

/-- `.values(revoked=True, rotated_at=now, replaced_by_id=successor)`. -/
def retire (token : RefreshToken) (successor : Option TokenId) (now : Time) :
    RefreshToken :=
  { token with revoked := true, rotatedAt := some now, replacedBy := successor }

@[simp] theorem issue_familyId (settings : Settings) (family : FamilyId)
    (now : Time) : (issue settings family now).familyId = family := rfl

@[simp] theorem issue_revoked (settings : Settings) (family : FamilyId)
    (now : Time) : (issue settings family now).revoked = false := rfl

@[simp] theorem issue_rotatedAt (settings : Settings) (family : FamilyId)
    (now : Time) : (issue settings family now).rotatedAt = none := rfl

@[simp] theorem issue_replacedBy (settings : Settings) (family : FamilyId)
    (now : Time) : (issue settings family now).replacedBy = none := rfl

@[simp] theorem revoke_familyId (token : RefreshToken) :
    token.revoke.familyId = token.familyId := rfl

@[simp] theorem revoke_revoked (token : RefreshToken) :
    token.revoke.revoked = true := rfl

@[simp] theorem revoke_rotatedAt (token : RefreshToken) :
    token.revoke.rotatedAt = token.rotatedAt := rfl

@[simp] theorem revoke_replacedBy (token : RefreshToken) :
    token.revoke.replacedBy = token.replacedBy := rfl

@[simp] theorem retire_familyId (token : RefreshToken)
    (successor : Option TokenId) (now : Time) :
    (token.retire successor now).familyId = token.familyId := rfl

@[simp] theorem retire_revoked (token : RefreshToken)
    (successor : Option TokenId) (now : Time) :
    (token.retire successor now).revoked = true := rfl

@[simp] theorem retire_rotatedAt (token : RefreshToken)
    (successor : Option TokenId) (now : Time) :
    (token.retire successor now).rotatedAt = some now := rfl

@[simp] theorem retire_replacedBy (token : RefreshToken)
    (successor : Option TokenId) (now : Time) :
    (token.retire successor now).replacedBy = successor := rfl

end RefreshToken

/-- The row that the `UPDATE` of `_cas_rotate` writes; `none` when no live row
has the id. -/
def casRow (tokens : Tokens) (token : TokenId) (successor : Option TokenId)
    (now : Time) : Option RefreshToken :=
  match tokens.get? token with
  | none => none
  | some row => if row.revoked then none else some (row.retire successor now)

/-- `_cas_rotate`: retire a live token. -/
def casRotate (tokens : Tokens) (token : TokenId)
    (successor : Option TokenId) (now : Time) : Option Tokens :=
  (casRow tokens token successor now).map (tokens.put token)

/-- The `UPDATE` of `/refresh` and `/logout` on the live tokens of a family. -/
def revokeFamily (tokens : Tokens) (family : FamilyId) : Tokens :=
  tokens.mapRows fun _ row =>
    if row.familyId = family ∧ row.revoked = false then row.revoke else row

def revokeAllRefreshTokens (tokens : Tokens) : Tokens :=
  tokens.mapRows fun _ row =>
    if row.revoked = false then row.revoke else row

theorem casRow_eq_some {tokens : Tokens} {token : TokenId}
    {successor : Option TokenId} {now : Time} {written : RefreshToken} :
    casRow tokens token successor now = some written ↔
      ∃ row, tokens.get? token = some row ∧ row.revoked = false ∧
        written = row.retire successor now := by
  unfold casRow
  cases stored : tokens.get? token with
  | none => simp
  | some row =>
      cases revoked : row.revoked with
      | true => simp [revoked]
      | false => simpa [revoked] using eq_comm

theorem casRotate_eq_some {tokens retired : Tokens} {token : TokenId}
    {successor : Option TokenId} {now : Time} :
    casRotate tokens token successor now = some retired ↔
      ∃ row, tokens.get? token = some row ∧ row.revoked = false ∧
        retired = tokens.put token (row.retire successor now) := by
  rw [casRotate, Option.map_eq_some_iff]
  constructor
  · rintro ⟨written, swapped, rfl⟩
    obtain ⟨row, stored, live, rfl⟩ := casRow_eq_some.mp swapped
    exact ⟨row, stored, live, rfl⟩
  · rintro ⟨row, stored, live, rfl⟩
    exact ⟨_, casRow_eq_some.mpr ⟨row, stored, live, rfl⟩, rfl⟩

end Brook.Auth
