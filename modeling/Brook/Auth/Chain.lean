import Brook.Auth.Refresh

namespace Brook.Auth

open Transition

/-- No token of the family is unrevoked. -/
def Ended (tokens : Tokens) (family : FamilyId) : Prop :=
  ∀ token row, tokens.get? token = some row → row.familyId = family →
    row.revoked = true

/-- A family is a chain with at most one live end: each rotated token knows the
token that took its place, and only the last may be unrevoked. -/
structure Chained (tokens : Tokens) : Prop where
  oneLive : ∀ {token other row otherRow}, tokens.get? token = some row →
    tokens.get? other = some otherRow → row.familyId = otherRow.familyId →
    row.revoked = false → otherRow.revoked = false → token = other
  replaced : ∀ {token row successor}, tokens.get? token = some row →
    row.replacedBy = some successor →
    ∃ next, tokens.get? successor = some next ∧ next.familyId = row.familyId
  rotatedRevoked : ∀ {token row}, tokens.get? token = some row →
    row.rotatedAt ≠ none → row.revoked = true

/-! ### The writes of the token routes -/

section

variable {settings : Settings} {tokens : Tokens}

theorem chained_empty : Chained (∅ : Tokens) where
  oneLive := by simp
  replaced := by simp
  rotatedRevoked := by simp

/-- A login's row starts a family of its own. -/
theorem Chained.issue (chained : Chained tokens) {token : TokenId}
    {family : FamilyId} (now : Time) (drawn : tokens.get? token = none)
    (ended : Ended tokens family) :
    Chained (tokens.put token (RefreshToken.issue settings family now)) where
  oneLive := by
    intro first second row other storedFirst storedSecond same live liveOther
    rw [Table.get?_put] at storedFirst storedSecond
    split at storedFirst <;> split at storedSecond
    · simp_all
    · cases storedFirst
      simp [ended second other storedSecond same.symm] at liveOther
    · cases storedSecond
      simp [ended first row storedFirst same] at live
    · exact chained.oneLive storedFirst storedSecond same live liveOther
  replaced := by
    intro id row successor stored replaced
    rw [Table.get?_put] at stored
    split at stored
    · cases stored
      simp at replaced
    · obtain ⟨next, found, sameFamily⟩ := chained.replaced stored replaced
      refine ⟨next, ?_, sameFamily⟩
      rw [Table.get?_put_ne _ _ (by rintro rfl; simp [drawn] at found)]
      exact found
  rotatedRevoked := by
    intro id row stored rotated
    rw [Table.get?_put] at stored
    split at stored
    · cases stored
      simp at rotated
    · exact chained.rotatedRevoked stored rotated

/-- `_cas_rotate` and `_issue_tokens` move the live end of a family: `retired`
lets go of it, `successor` takes it. -/
theorem Chained.exchange (chained : Chained tokens)
    {retired successor : TokenId} {row : RefreshToken}
    {replacedBy : Option TokenId} (now issued : Time)
    (stored : tokens.get? retired = some row) (live : row.revoked = false)
    (drawn : tokens.get? successor = none)
    (link : ∀ next, replacedBy = some next → next = successor) :
    Chained ((tokens.put retired (row.retire replacedBy now)).put successor
      (RefreshToken.issue settings row.familyId issued)) := by
  have apart : retired ≠ successor := by
    rintro rfl
    simp [drawn] at stored
  have lookup : ∀ id, ((tokens.put retired (row.retire replacedBy now)).put
      successor (RefreshToken.issue settings row.familyId issued)).get? id =
      if id = successor then
        some (RefreshToken.issue settings row.familyId issued)
      else if id = retired then some (row.retire replacedBy now)
      else tokens.get? id := by
    intro id
    rw [Table.get?_put, Table.get?_put]
  -- whoever else is unrevoked is of another family
  have others : ∀ {id other}, id ≠ retired → tokens.get? id = some other →
      other.familyId = row.familyId → other.revoked = true := by
    intro id other different found same
    by_contra unrevoked
    exact different
      (chained.oneLive found stored same (by simpa using unrevoked) live)
  constructor
  · intro first second one other storedFirst storedSecond same liveOne liveOther
    rw [lookup] at storedFirst storedSecond
    split at storedFirst
    case isTrue isNew =>
      cases storedFirst
      split at storedSecond
      case isTrue isNew' => exact isNew.trans isNew'.symm
      case isFalse =>
        split at storedSecond
        · cases storedSecond
          simp at liveOther
        · rename_i different
          simp [others different storedSecond same.symm] at liveOther
    case isFalse =>
      split at storedFirst
      · cases storedFirst
        simp at liveOne
      · rename_i different
        split at storedSecond
        · cases storedSecond
          simp [others different storedFirst same] at liveOne
        · split at storedSecond
          · cases storedSecond
            simp at liveOther
          · exact chained.oneLive storedFirst storedSecond same liveOne liveOther
  · intro id one next storedOne replaced
    rw [lookup] at storedOne
    split at storedOne
    · cases storedOne
      simp at replaced
    · split at storedOne
      · cases storedOne
        refine ⟨RefreshToken.issue settings row.familyId issued, ?_, rfl⟩
        rw [lookup, if_pos (link next replaced)]
      · obtain ⟨after, found, sameFamily⟩ := chained.replaced storedOne replaced
        have notNew : next ≠ successor := by
          rintro rfl
          simp [drawn] at found
        by_cases isRetired : next = retired
        · subst isRetired
          refine ⟨row.retire replacedBy now, ?_, ?_⟩
          · rw [lookup, if_neg notNew, if_pos rfl]
          · rw [stored, Option.some.injEq] at found
            rw [RefreshToken.retire_familyId, found, sameFamily]
        · refine ⟨after, ?_, sameFamily⟩
          rw [lookup, if_neg notNew, if_neg isRetired]
          exact found
  · intro id one storedOne rotated
    rw [lookup] at storedOne
    split at storedOne
    · cases storedOne
      simp at rotated
    · split at storedOne
      · cases storedOne
        rfl
      · exact chained.rotatedRevoked storedOne rotated

/-- The `UPDATE`s that only revoke: of a family and of every token. -/
def revokeWhere (tokens : Tokens) (chosen : RefreshToken → Bool) : Tokens :=
  tokens.mapRows fun _ row =>
    if chosen row ∧ row.revoked = false then row.revoke else row

theorem revokeFamily_eq (family : FamilyId) :
    revokeFamily tokens family =
      revokeWhere tokens fun row => row.familyId = family := by
  simp [revokeFamily, revokeWhere]

theorem revokeAllRefreshTokens_eq :
    revokeAllRefreshTokens tokens = revokeWhere tokens fun _ => true := by
  simp [revokeAllRefreshTokens, revokeWhere]

theorem revokeWhere_some {chosen : RefreshToken → Bool} {token : TokenId}
    {row : RefreshToken}
    (stored : (revokeWhere tokens chosen).get? token = some row) :
    ∃ old, tokens.get? token = some old ∧ row.familyId = old.familyId ∧
      row.rotatedAt = old.rotatedAt ∧ row.replacedBy = old.replacedBy ∧
      (row.revoked = false → old.revoked = false) ∧
      (old.revoked = true → row = old) ∧ (chosen old = true → row.revoked = true) ∧
      (chosen old = false → row = old) := by
  rw [revokeWhere, Table.get?_mapRows, Option.map_eq_some_iff] at stored
  obtain ⟨old, found, rfl⟩ := stored
  refine ⟨old, found, ?_⟩
  split
  · rename_i both
    simp [both.1, both.2]
  · rename_i neither
    grind

theorem get?_revokeWhere {chosen : RefreshToken → Bool} {token : TokenId}
    {old : RefreshToken} (found : tokens.get? token = some old) :
    ∃ row, (revokeWhere tokens chosen).get? token = some row ∧
      row.familyId = old.familyId := by
  refine ⟨_, by rw [revokeWhere, Table.get?_mapRows, found]; rfl, ?_⟩
  show (if _ then old.revoke else old).familyId = old.familyId
  split <;> rfl

theorem Chained.revokeWhere (chained : Chained tokens)
    (chosen : RefreshToken → Bool) : Chained (revokeWhere tokens chosen) where
  oneLive := by
    intro first second row other storedFirst storedSecond same live liveOther
    obtain ⟨old, found, family, -, -, wasLive, -⟩ := revokeWhere_some storedFirst
    obtain ⟨old', found', family', -, -, wasLive', -⟩ :=
      revokeWhere_some storedSecond
    exact chained.oneLive found found' (family.symm.trans (same.trans family'))
      (wasLive live) (wasLive' liveOther)
  replaced := by
    intro token row successor stored replaced
    obtain ⟨old, found, family, -, link, -⟩ := revokeWhere_some stored
    obtain ⟨next, foundNext, same⟩ := chained.replaced found (link ▸ replaced)
    obtain ⟨after, storedAfter, sameAfter⟩ : ∃ after,
        (Auth.revokeWhere tokens chosen).get? successor = some after ∧
          after.familyId = next.familyId := get?_revokeWhere foundNext
    exact ⟨after, storedAfter, sameAfter.trans (same.trans family.symm)⟩
  rotatedRevoked := by
    intro token row stored rotated
    obtain ⟨old, found, -, rotatedAt, -, -, frozen, -⟩ := revokeWhere_some stored
    have revoked := chained.rotatedRevoked found (rotatedAt ▸ rotated)
    rw [frozen revoked]
    exact revoked

theorem ended_revokeFamily (family : FamilyId) :
    Ended (revokeFamily tokens family) family := by
  intro token row stored same
  rw [revokeFamily_eq] at stored
  obtain ⟨old, -, sameOld, -, -, -, -, revoked, -⟩ := revokeWhere_some stored
  exact revoked (by simp [← sameOld, same])

end

end Brook.Auth
