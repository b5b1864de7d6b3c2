import Brook.Auth.Reuse

namespace Brook.Auth

open Transition

variable {settings : Settings} {clock : Clock} {sessions next : Sessions}
variable {presented successor : TokenId}
variable {outcome : Option TokenId × Sessions}

/-- The conditions under which a rotated token still buys a pair; `retired` is
the successor that pays for it. -/
structure InGrace (settings : Settings) (clock : Clock) (tokens : Tokens)
    (token : RefreshToken) (retired : TokenId) : Prop where
  unexpired : clock.checked < token.expiresAt
  within : ∃ rotatedAt, token.rotatedAt = some rotatedAt ∧
    clock.now - rotatedAt ≤ settings.refreshReuseGrace
  replaced : token.replacedBy = some retired
  unused : ∃ row, tokens.get? retired = some row ∧ row.revoked = false

/-- Whoever presents the token now gets nothing, and the login it belongs to is
over for everyone. -/
def Caught (settings : Settings) (sessions : Sessions)
    (presented : TokenId) : Prop :=
  ∃ token, sessions.tokens.get? presented = some token ∧
    ∀ clock successor,
      (rotate settings clock presented successor sessions).1 = none ∧
        Ended (rotate settings clock presented successor sessions).2.tokens
          token.familyId

/-- Revoked, with no successor of its own, so no grace can follow. -/
def RetiredForGood (tokens : Tokens) (token : TokenId) : Prop :=
  ∃ row, tokens.get? token = some row ∧ row.revoked = true ∧
    row.replacedBy = none

theorem Rotated.caught
    (way : Rotated settings clock presented successor sessions outcome)
    (active : sessions.active = true) {token : RefreshToken}
    (stored : sessions.tokens.get? presented = some token)
    (revoked : token.revoked = true) (rotated : token.rotatedAt ≠ none)
    (spent : ∀ retired row, token.replacedBy = some retired →
      sessions.tokens.get? retired = some row → row.revoked = true) :
    outcome.1 = none ∧ Ended outcome.2.tokens token.familyId := by
  cases way with
  | refused harmless => exact absurd (harmless stored active revoked) rotated
  | rotated found live =>
      rw [stored, Option.some.injEq] at found
      simp [found, live] at revoked
  | graced found _ _ _ _ replaced kept unused =>
      rw [stored, Option.some.injEq] at found
      subst found
      simp [spent _ _ replaced kept] at unused
  | reused found _ =>
      rw [stored, Option.some.injEq] at found
      subst found
      exact ⟨rfl, ended_revokeFamily _⟩

theorem caught_of_spent (active : sessions.active = true) {token : RefreshToken}
    (stored : sessions.tokens.get? presented = some token)
    (revoked : token.revoked = true) (rotated : token.rotatedAt ≠ none)
    (spent : ∀ retired row, token.replacedBy = some retired →
      sessions.tokens.get? retired = some row → row.revoked = true) :
    Caught settings sessions presented :=
  ⟨token, stored, fun _ _ =>
    (rotate_cases _ _ _ _ _).caught active stored revoked rotated spent⟩

/-- A pair for a rotated token is a pair by the grace, which leaves the
successor revoked and final. -/
theorem Rotated.grace
    (way : Rotated settings clock presented successor sessions outcome)
    (drawn : sessions.tokens.get? successor = none) {token : RefreshToken}
    (stored : sessions.tokens.get? presented = some token)
    (revoked : token.revoked = true) {pair : TokenId}
    (paid : outcome.1 = some pair) :
    ∃ retired row, InGrace settings clock sessions.tokens token retired ∧
      outcome.2.tokens.get? retired = some row ∧ row.revoked = true ∧
      row.rotatedAt ≠ none ∧ row.replacedBy = none := by
  cases way with
  | refused => cases paid
  | rotated found live =>
      rw [stored, Option.some.injEq] at found
      simp [found, live] at revoked
  | @graced _ row rotatedAt retired found _ rotated unexpired within replaced
      kept unused =>
      rw [stored, Option.some.injEq] at found
      subst found
      refine ⟨retired, row.retire none clock.now,
        ⟨unexpired, ⟨rotatedAt, rotated, within⟩, replaced, ⟨row, kept, unused⟩⟩,
        ?_, rfl, by simp, rfl⟩
      have apart : retired ≠ successor := by
        rintro rfl
        simp [drawn] at kept
      simp only [issueTokens]
      rw [Table.get?_put_ne _ _ apart, Table.get?_put_self]
  | reused => cases paid

/-! ### A request acts in one family -/

theorem put_other_family {tokens : Tokens} {other : TokenId}
    {written : RefreshToken} {family : FamilyId}
    (writtenFamily : written.familyId = family)
    (oldFamily : ∀ old, tokens.get? other = some old → old.familyId = family)
    {token : TokenId} {row : RefreshToken} (different : row.familyId ≠ family) :
    (tokens.put other written).get? token = some row ↔
      tokens.get? token = some row := by
  rw [Table.get?_put]
  split
  · rename_i same
    subst same
    constructor
    · rintro ⟨⟩
      exact absurd writtenFamily different
    · intro stored
      exact absurd (oldFamily row stored) different
  · exact Iff.rfl

theorem exchange_other_family {tokens : Tokens} {retired successor : TokenId}
    {old row : RefreshToken} {replacedBy : Option TokenId} {now issued : Time}
    (stored : tokens.get? retired = some old)
    (drawn : tokens.get? successor = none) {token : TokenId}
    (different : row.familyId ≠ old.familyId) :
    ((tokens.put retired (old.retire replacedBy now)).put successor
        (RefreshToken.issue settings old.familyId issued)).get? token =
        some row ↔
      tokens.get? token = some row := by
  have apart : successor ≠ retired := by
    rintro rfl
    simp [drawn] at stored
  have outer : ∀ {tokens : Tokens}, tokens.get? successor = none →
      ((tokens.put successor
        (RefreshToken.issue settings old.familyId issued)).get? token =
          some row ↔ tokens.get? token = some row) :=
    fun fresh => put_other_family rfl (by simp [fresh]) different
  rw [outer (by simp [Table.get?_put_ne _ _ apart, drawn])]
  exact put_other_family rfl (by simp [stored]) different

theorem revokeFamily_other_family {tokens : Tokens} {family : FamilyId}
    {token : TokenId} {row : RefreshToken} (different : row.familyId ≠ family) :
    (revokeFamily tokens family).get? token = some row ↔
      tokens.get? token = some row := by
  rw [revokeFamily_eq]
  constructor
  · intro stored
    obtain ⟨old, found, same, -, -, -, -, -, kept⟩ := revokeWhere_some stored
    rw [kept (by simpa [← same] using different)]
    exact found
  · intro stored
    simp [revokeWhere, stored, different]

theorem Rotated.other_family
    (way : Rotated settings clock presented successor sessions outcome)
    (chained : Chained sessions.tokens)
    (drawn : sessions.tokens.get? successor = none) {presentedRow : RefreshToken}
    (presentedStored : sessions.tokens.get? presented = some presentedRow)
    {token : TokenId} {row : RefreshToken}
    (different : row.familyId ≠ presentedRow.familyId) :
    outcome.2.tokens.get? token = some row ↔
      sessions.tokens.get? token = some row := by
  cases way with
  | refused => exact Iff.rfl
  | rotated found live =>
      rw [presentedStored, Option.some.injEq] at found
      subst found
      exact exchange_other_family presentedStored drawn different
  | @graced _ graceRow _ retired found _ _ _ _ replaced kept unused =>
      rw [presentedStored, Option.some.injEq] at found
      subst found
      obtain ⟨_, again, family⟩ := chained.replaced presentedStored replaced
      rw [kept, Option.some.injEq] at again
      subst again
      rw [← family] at different ⊢
      exact exchange_other_family kept drawn different
  | reused found _ =>
      rw [presentedStored, Option.some.injEq] at found
      subst found
      exact revokeFamily_other_family different

theorem tokenStep_other_family (chained : Chained sessions.tokens)
    {request : TokenRequest}
    (taken : tokenStep settings sessions request = some next)
    {family : FamilyId} (acts : request.family? sessions = some family)
    {token : TokenId} {row : RefreshToken} (different : row.familyId ≠ family) :
    next.tokens.get? token = some row ↔
      sessions.tokens.get? token = some row := by
  obtain ⟨drawn, rfl⟩ := tokenStep_eq_some.mp taken
  cases request with
  | login =>
      cases acts
      exact put_other_family rfl (by simp [drawn.1]) different
  | refresh presented successor clock =>
      obtain ⟨presentedRow, stored, rfl⟩ := Option.map_eq_some_iff.mp acts
      exact (rotate_cases _ _ _ _ _).other_family chained drawn stored different
  | logout presented =>
      obtain ⟨presentedRow, stored, rfl⟩ := Option.map_eq_some_iff.mp acts
      simp only [answer, logout, stored]
      exact revokeFamily_other_family different
  | changePassword signOutOtherDevices =>
      cases signOutOtherDevices with
      | false =>
          cases acts
          exact put_other_family rfl (by simp [drawn.1]) different
      | true => cases acts
  | signOutEverywhere => cases acts

/-! ### The claim of the chain -/

/-- A family never has two live ends; a rotated token buys a pair only by the
grace, once, and from then on both it and the retired successor end the family;
and no request of one family touches another. -/
theorem stolen_chain_caught (settings : Settings)
    {requests : List TokenRequest} {sessions : Sessions}
    (reached : run (tokenStep settings) Sessions.start requests =
      some sessions) :
    (∀ {first second row other},
      sessions.tokens.get? first = some row →
      sessions.tokens.get? second = some other →
      row.familyId = other.familyId → row.revoked = false →
      other.revoked = false → first = second) ∧
    (∀ {presented successor clock token pair},
      sessions.tokens.get? presented = some token → token.rotatedAt ≠ none →
      (TokenRequest.refresh presented successor clock).Drawn sessions →
      (rotate settings clock presented successor sessions).1 = some pair →
      ∃ retired, InGrace settings clock sessions.tokens token retired ∧
        ∀ {later after},
          run (tokenStep settings)
            (rotate settings clock presented successor sessions).2 later =
              some after →
          RetiredForGood after.tokens retired ∧
            Caught settings after presented ∧ Caught settings after retired) ∧
    (∀ {request next family},
      tokenStep settings sessions request = some next →
      request.family? sessions = some family →
      ∀ token row, row.familyId ≠ family →
        (next.tokens.get? token = some row ↔
          sessions.tokens.get? token = some row)) := by
  have sound : sessions.Sound :=
    run_invariant_of_step (fun sound => tokenStep_sound sound) sound_start reached
  refine ⟨sound.chained.oneLive, ?_, ?_⟩
  · intro presented successor clock token pair stored rotated drawn paid
    have revoked := sound.chained.rotatedRevoked stored rotated
    have way := rotate_cases settings clock presented successor sessions
    obtain ⟨retired, row, inGrace, kept, rowRevoked, rowRotated, final⟩ :=
      way.grace drawn stored revoked paid
    refine ⟨retired, inGrace, ?_⟩
    intro later after reachedAfter
    have afterSound : after.Sound :=
      run_invariant_of_step (fun sound => tokenStep_sound sound)
        (way.sound sound drawn) reachedAfter
    have retiredAfter := run_frozen reachedAfter kept rowRevoked
    have presentedAfter :=
      run_frozen reachedAfter (way.frozen drawn stored revoked) revoked
    refine ⟨⟨row, retiredAfter, rowRevoked, final⟩, ?_, ?_⟩
    · apply caught_of_spent afterSound.active presentedAfter revoked rotated
      intro retired' row' replaced found
      rw [inGrace.replaced, Option.some.injEq] at replaced
      subst replaced
      rw [retiredAfter, Option.some.injEq] at found
      exact found ▸ rowRevoked
    · apply caught_of_spent afterSound.active retiredAfter rowRevoked rowRotated
      simp [final]
  · intro request next family taken acts token row different
    exact tokenStep_other_family sound.chained taken acts different

/-- Two holders of one login: the device's reply was lost, it replays its old
token within the grace, and the thief's copy of the successor ends the family. -/
theorem stolen_chain_caught_replay :
    ∃ sessions,
      run (tokenStep ⟨1000, 100⟩) Sessions.start
          [.login 1 7 0, .refresh 1 2 ⟨10, 10, 10⟩] = some sessions ∧
        (rotate ⟨1000, 100⟩ ⟨20, 20, 20⟩ 1 3 sessions).1 = some 3 ∧
        Caught ⟨1000, 100⟩
          (rotate ⟨1000, 100⟩ ⟨20, 20, 20⟩ 1 3 sessions).2 2 := by
  obtain ⟨sessions, reached, paid, replaced, rotated, drawn⟩ :
      ∃ sessions,
        run (tokenStep ⟨1000, 100⟩) Sessions.start
            [.login 1 7 0, .refresh 1 2 ⟨10, 10, 10⟩] = some sessions ∧
          (rotate ⟨1000, 100⟩ ⟨20, 20, 20⟩ 1 3 sessions).1 = some 3 ∧
          sessions.tokens.get? 1 = some ⟨7, 1000, true, some 10, some 2⟩ ∧
          (some 10 : Option Time) ≠ none ∧
          (TokenRequest.refresh 1 3 ⟨20, 20, 20⟩).Drawn sessions :=
    ⟨_, rfl, by decide, by decide, by decide, by decide⟩
  obtain ⟨retired, inGrace, forGood⟩ :=
    (stolen_chain_caught ⟨1000, 100⟩ reached).2.1 replaced rotated drawn paid
  have isSecond : retired = 2 := by simpa using inGrace.replaced.symm
  subst isSecond
  exact ⟨sessions, reached, paid, (forGood (run_nil _)).2.2⟩

end Brook.Auth
