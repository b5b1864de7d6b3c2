import Brook.Auth.Chain

namespace Brook.Auth

open Transition

variable {settings : Settings} {clock : Clock} {sessions next : Sessions}
variable {presented successor : TokenId}

/-- The ways a refresh can go. -/
inductive Rotated (settings : Settings) (clock : Clock)
    (presented successor : TokenId) (sessions : Sessions) :
    Option TokenId × Sessions → Prop
  | refused
      (harmless : ∀ {token}, sessions.tokens.get? presented = some token →
        sessions.active = true → token.revoked = true →
        token.rotatedAt = none) :
      Rotated settings clock presented successor sessions (none, sessions)
  | rotated {token : RefreshToken}
      (stored : sessions.tokens.get? presented = some token)
      (live : token.revoked = false) :
      Rotated settings clock presented successor sessions
        (issueTokens settings sessions
          (sessions.tokens.put presented
            (token.retire (some successor) clock.now))
          successor token.familyId clock.issued)
  | graced {token row : RefreshToken} {rotatedAt : Time} {replacedBy : TokenId}
      (stored : sessions.tokens.get? presented = some token)
      (revoked : token.revoked = true)
      (rotated : token.rotatedAt = some rotatedAt)
      (unexpired : clock.checked < token.expiresAt)
      (within : clock.now - rotatedAt ≤ settings.refreshReuseGrace)
      (replaced : token.replacedBy = some replacedBy)
      (kept : sessions.tokens.get? replacedBy = some row)
      (unused : row.revoked = false) :
      Rotated settings clock presented successor sessions
        (issueTokens settings sessions
          (sessions.tokens.put replacedBy (row.retire none clock.now))
          successor token.familyId clock.issued)
  | reused {token : RefreshToken}
      (stored : sessions.tokens.get? presented = some token)
      (revoked : token.revoked = true) :
      Rotated settings clock presented successor sessions
        (none, { sessions with
          tokens := revokeFamily sessions.tokens token.familyId })

theorem graceSuccessor_eq_some {token : RefreshToken} {rotatedAt : Time}
    {replacedBy : TokenId}
    (grace : graceSuccessor settings clock token rotatedAt = some replacedBy) :
    clock.checked < token.expiresAt ∧
      clock.now - rotatedAt ≤ settings.refreshReuseGrace ∧
      token.replacedBy = some replacedBy := by
  unfold graceSuccessor at grace
  split at grace
  · cases grace
  · rename_i unexpired
    split at grace
    · cases grace
    · rename_i named replaced
      split at grace
      · rename_i within
        cases grace
        exact ⟨by simpa [RefreshToken.expired] using unexpired, within, replaced⟩
      · cases grace

theorem graceRetire_eq_some {tokens retired : Tokens} {token : RefreshToken}
    {rotatedAt : Time}
    (grace : graceRetire settings clock tokens token rotatedAt = some retired) :
    clock.checked < token.expiresAt ∧
      clock.now - rotatedAt ≤ settings.refreshReuseGrace ∧
      ∃ replacedBy row, token.replacedBy = some replacedBy ∧
        tokens.get? replacedBy = some row ∧ row.revoked = false ∧
        retired = tokens.put replacedBy (row.retire none clock.now) := by
  unfold graceRetire at grace
  split at grace
  · cases grace
  · rename_i replacedBy conditions
    obtain ⟨unexpired, within, replaced⟩ := graceSuccessor_eq_some conditions
    obtain ⟨row, kept, unused, rfl⟩ := casRotate_eq_some.mp grace
    exact ⟨unexpired, within, replacedBy, row, replaced, kept, unused, rfl⟩

theorem rotate_cases (settings : Settings) (clock : Clock)
    (presented successor : TokenId) (sessions : Sessions) :
    Rotated settings clock presented successor sessions
      (rotate settings clock presented successor sessions) := by
  unfold rotate
  cases stored : sessions.tokens.get? presented with
  | none => exact .refused (by simp [stored])
  | some token =>
      dsimp only
      split
      · rename_i inactive
        exact .refused (by simp [inactive])
      split
      · rename_i dead
        refine .refused ?_
        intro other storedOther _ revoked
        rw [stored, Option.some.injEq] at storedOther
        simp [storedOther ▸ dead.2] at revoked
      split
      · rename_i live
        have swapped : casRotate sessions.tokens presented (some successor)
            clock.now = some (sessions.tokens.put presented
              (token.retire (some successor) clock.now)) :=
          casRotate_eq_some.mpr ⟨token, stored, live, rfl⟩
        rw [swapped]
        exact .rotated stored live
      rename_i unlive
      have revoked : token.revoked = true := by simpa using unlive
      cases rotatedAt : token.rotatedAt with
      | none =>
          refine .refused ?_
          intro other storedOther _ _
          rw [stored, Option.some.injEq] at storedOther
          exact storedOther ▸ rotatedAt
      | some rotatedAt' =>
          dsimp only
          cases grace : graceRetire settings clock sessions.tokens token
            rotatedAt' with
          | none => exact .reused stored revoked
          | some retired =>
              obtain ⟨unexpired, within, replacedBy, row, replaced, kept, unused,
                rfl⟩ := graceRetire_eq_some grace
              exact .graced stored revoked rotatedAt unexpired within replaced
                kept unused

/-! ### What every request preserves -/

/-- What holds of one user's sessions between two requests. -/
structure Sessions.Sound (sessions : Sessions) : Prop where
  active : sessions.active = true
  chained : Chained sessions.tokens

theorem sound_start : Sessions.start.Sound := ⟨rfl, chained_empty⟩

variable {outcome : Option TokenId × Sessions}

theorem Rotated.sound
    (way : Rotated settings clock presented successor sessions outcome)
    (sound : sessions.Sound)
    (drawn : sessions.tokens.get? successor = none) : outcome.2.Sound := by
  cases way with
  | refused => exact sound
  | rotated stored live =>
      refine ⟨sound.active, ?_⟩
      exact sound.chained.exchange clock.now clock.issued stored live drawn
        (by simp)
  | graced stored revoked rotated unexpired within replaced kept unused =>
      refine ⟨sound.active, ?_⟩
      obtain ⟨_, found, family⟩ := sound.chained.replaced stored replaced
      rw [kept, Option.some.injEq] at found
      subst found
      rw [← family]
      exact sound.chained.exchange clock.now clock.issued kept unused drawn
        (by simp)
  | reused stored revoked =>
      refine ⟨sound.active, ?_⟩
      simp only [revokeFamily_eq]
      exact sound.chained.revokeWhere _

theorem ended_of_new {tokens : Tokens} {family : FamilyId}
    (new : ∀ row ∈ tokens.values, row.familyId ≠ family) :
    Ended tokens family :=
  fun token row stored same =>
    absurd same (new row (Table.mem_values.mpr ⟨token, stored⟩))

theorem signOutEverywhere_sound (sound : sessions.Sound) :
    (signOutEverywhere sessions).Sound := by
  refine ⟨sound.active, ?_⟩
  simp only [signOutEverywhere, revokeAllRefreshTokens_eq]
  exact sound.chained.revokeWhere _

theorem logout_sound (sound : sessions.Sound) :
    (logout presented sessions).Sound := by
  unfold logout
  split
  · exact sound
  · refine ⟨sound.active, ?_⟩
    simp only [revokeFamily_eq]
    exact sound.chained.revokeWhere _

theorem tokenStep_eq_some {request : TokenRequest} :
    tokenStep settings sessions request = some next ↔
      request.Drawn sessions ∧ next = (answer settings sessions request).2 := by
  simp [tokenStep, eq_comm]

theorem get?_signOutEverywhere_eq_none {token : TokenId}
    (drawn : sessions.tokens.get? token = none) :
    (signOutEverywhere sessions).tokens.get? token = none := by
  simp [signOutEverywhere, revokeAllRefreshTokens, drawn]

theorem tokenStep_sound (sound : sessions.Sound) {request : TokenRequest}
    (taken : tokenStep settings sessions request = some next) : next.Sound := by
  obtain ⟨drawn, rfl⟩ := tokenStep_eq_some.mp taken
  cases request with
  | login token family now =>
      refine ⟨sound.active, ?_⟩
      exact sound.chained.issue now drawn.1 (ended_of_new drawn.2)
  | refresh presented successor clock => exact (rotate_cases _ _ _ _ _).sound sound drawn
  | logout presented => exact logout_sound sound
  | changePassword signOutOtherDevices token family now =>
      cases signOutOtherDevices with
      | false =>
          refine ⟨sound.active, ?_⟩
          exact sound.chained.issue now drawn.1 (ended_of_new drawn.2)
      | true =>
          have signedOut := signOutEverywhere_sound sound
          refine ⟨signedOut.active, ?_⟩
          apply signedOut.chained.issue now
          · exact get?_signOutEverywhere_eq_none drawn.1
          · intro token row stored _
            rw [signOutEverywhere, revokeAllRefreshTokens_eq] at stored
            obtain ⟨_, _, _, _, _, _, _, revoked, _⟩ := revokeWhere_some stored
            exact revoked rfl
  | signOutEverywhere => exact signOutEverywhere_sound sound

/-! ### Revoked rows are final -/

theorem revokeWhere_frozen {tokens : Tokens} (chosen : RefreshToken → Bool)
    {token : TokenId} {row : RefreshToken}
    (stored : tokens.get? token = some row) (revoked : row.revoked = true) :
    (revokeWhere tokens chosen).get? token = some row := by
  simp [revokeWhere, stored, revoked]

theorem put_frozen {tokens : Tokens} {token other : TokenId}
    {row written : RefreshToken} (stored : tokens.get? token = some row)
    (revoked : row.revoked = true)
    (unlocked : ∀ old, tokens.get? other = some old → old.revoked = false) :
    (tokens.put other written).get? token = some row := by
  rw [Table.get?_put_ne _ _ (by rintro rfl; simp [unlocked row stored] at revoked)]
  exact stored

theorem Rotated.frozen
    (way : Rotated settings clock presented successor sessions outcome)
    (drawn : sessions.tokens.get? successor = none)
    {token : TokenId} {row : RefreshToken}
    (stored : sessions.tokens.get? token = some row)
    (revoked : row.revoked = true) :
    outcome.2.tokens.get? token = some row := by
  have apart : token ≠ successor := by
    rintro rfl
    simp [drawn] at stored
  cases way with
  | refused => exact stored
  | rotated storedPresented live =>
      simp only [issueTokens]
      rw [Table.get?_put_ne _ _ apart]
      exact put_frozen stored revoked (by simp [storedPresented, live])
  | graced _ _ _ _ _ _ kept unused =>
      simp only [issueTokens]
      rw [Table.get?_put_ne _ _ apart]
      exact put_frozen stored revoked (by simp [kept, unused])
  | reused =>
      simp only [revokeFamily_eq]
      exact revokeWhere_frozen _ stored revoked

theorem tokenStep_frozen {request : TokenRequest}
    (taken : tokenStep settings sessions request = some next) {token : TokenId}
    {row : RefreshToken} (stored : sessions.tokens.get? token = some row)
    (revoked : row.revoked = true) : next.tokens.get? token = some row := by
  obtain ⟨drawn, rfl⟩ := tokenStep_eq_some.mp taken
  have signedOut : (signOutEverywhere sessions).tokens.get? token = some row := by
    rw [signOutEverywhere, revokeAllRefreshTokens_eq]
    exact revokeWhere_frozen _ stored revoked
  cases request with
  | login =>
      exact put_frozen stored revoked (by simp [drawn.1])
  | refresh presented successor clock =>
      exact (rotate_cases _ _ _ _ _).frozen drawn stored revoked
  | logout presented =>
      simp only [answer, logout]
      split
      · exact stored
      · simp only [revokeFamily_eq]
        exact revokeWhere_frozen _ stored revoked
  | changePassword signOutOtherDevices =>
      cases signOutOtherDevices with
      | false => exact put_frozen stored revoked (by simp [drawn.1])
      | true =>
          exact put_frozen signedOut revoked
            (by simp [get?_signOutEverywhere_eq_none drawn.1])
  | signOutEverywhere => exact signedOut

theorem run_frozen {requests : List TokenRequest}
    (reached : run (tokenStep settings) sessions requests = some next)
    {token : TokenId} {row : RefreshToken}
    (stored : sessions.tokens.get? token = some row)
    (revoked : row.revoked = true) : next.tokens.get? token = some row :=
  run_invariant_of_step
    (fun stored taken => tokenStep_frozen taken stored revoked) stored reached

end Brook.Auth
