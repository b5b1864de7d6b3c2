import Brook.Auth.Token
import Brook.Transition.Run

namespace Brook.Auth

/-! The token routes of one user, one after the other: each takes the user's
row lock before it reads what it decides on, and commits before it lets go. -/

/-- The user's refresh tokens, and whether `status` is `active`. -/
structure Sessions where
  active : Bool
  tokens : Tokens

namespace Sessions

def start : Sessions := ⟨true, ∅⟩

end Sessions

/-- What the clock says when `_rotate` checks the expiry, when it rotates, and
when `_issue_tokens` dates the new row. -/
structure Clock where
  checked : Time
  now : Time
  issued : Time

/-- `_issue_tokens`: the new pair's refresh token, and the committed rows. -/
def issueTokens (settings : Settings) (sessions : Sessions) (tokens : Tokens)
    (token : TokenId) (family : FamilyId) (now : Time) :
    Option TokenId × Sessions :=
  (some token,
    { sessions with
      tokens := tokens.put token (RefreshToken.issue settings family now) })

/-- The successor that the grace is about to retire; `none` where a condition
before the compare-and-set fails. -/
def graceSuccessor (settings : Settings) (clock : Clock) (token : RefreshToken)
    (rotatedAt : Time) : Option TokenId :=
  if token.expired clock.checked then none
  else
    match token.replacedBy with
    | none => none
    | some replacedBy =>
        if clock.now - rotatedAt ≤ settings.refreshReuseGrace then
          some replacedBy
        else none

/-- The tokens after the grace has retired the presented token's successor. -/
def graceRetire (settings : Settings) (clock : Clock) (tokens : Tokens)
    (token : RefreshToken) (rotatedAt : Time) : Option Tokens :=
  match graceSuccessor settings clock token rotatedAt with
  | none => none
  | some replacedBy => casRotate tokens replacedBy none clock.now

/-- `_rotate`: the refresh token of the pair it answers with, if it answers
with one, and the rows it leaves. -/
def rotate (settings : Settings) (clock : Clock) (presented successor : TokenId)
    (sessions : Sessions) : Option TokenId × Sessions :=
  match sessions.tokens.get? presented with
  | none => (none, sessions)
  | some token =>
      if sessions.active = false then (none, sessions)
      else if token.expired clock.checked ∧ token.revoked = false then
        (none, sessions)
      else if token.revoked = false then
        match casRotate sessions.tokens presented (some successor) clock.now with
        | some retired =>
            issueTokens settings sessions retired successor token.familyId
              clock.issued
        | none => (none, sessions) -- `_LostRotationRace`
      else
        match token.rotatedAt with
        | none => (none, sessions) -- revoked, not rotated: no evidence of theft
        | some rotatedAt =>
            match graceRetire settings clock sessions.tokens token rotatedAt with
            | some retired =>
                issueTokens settings sessions retired successor token.familyId
                  clock.issued
            | none =>
                (none, { sessions with
                  tokens := revokeFamily sessions.tokens token.familyId })

def logout (presented : TokenId) (sessions : Sessions) : Sessions :=
  match sessions.tokens.get? presented with
  | none => sessions
  | some token =>
      { sessions with tokens := revokeFamily sessions.tokens token.familyId }

/-- The token half of `sign_out_everywhere`. -/
def signOutEverywhere (sessions : Sessions) : Sessions :=
  { sessions with tokens := revokeAllRefreshTokens sessions.tokens }

/-- The requests, with the ids drawn and the clock read while they run.  A
login or a password change that is refused leaves no trace here. -/
inductive TokenRequest
  | login (token : TokenId) (family : FamilyId) (now : Time)
  | refresh (presented successor : TokenId) (clock : Clock)
  | logout (presented : TokenId)
  | changePassword (signOutOtherDevices : Bool) (token : TokenId)
      (family : FamilyId) (now : Time)
  | signOutEverywhere

/-- The drawn ids are random, hence new. -/
def TokenRequest.Drawn (sessions : Sessions) : TokenRequest → Prop
  | .login token family _ | .changePassword _ token family _ =>
      sessions.tokens.get? token = none ∧
        ∀ row ∈ sessions.tokens.values, row.familyId ≠ family
  | .refresh _ successor _ => sessions.tokens.get? successor = none
  | .logout _ | .signOutEverywhere => True

instance (sessions : Sessions) (request : TokenRequest) :
    Decidable (request.Drawn sessions) := by
  cases request <;> unfold TokenRequest.Drawn <;> infer_instance

/-- The refresh token of the answer, and the rows after the commit. -/
def answer (settings : Settings) (sessions : Sessions) :
    TokenRequest → Option TokenId × Sessions
  | .login token family now =>
      issueTokens settings sessions sessions.tokens token family now
  | .refresh presented successor clock =>
      rotate settings clock presented successor sessions
  | .logout presented => (none, Auth.logout presented sessions)
  | .changePassword signOutOtherDevices token family now =>
      let before :=
        if signOutOtherDevices then Auth.signOutEverywhere sessions else sessions
      issueTokens settings before before.tokens token family now
  | .signOutEverywhere => (none, Auth.signOutEverywhere sessions)

def tokenStep (settings : Settings) (sessions : Sessions)
    (request : TokenRequest) : Option Sessions :=
  if request.Drawn sessions then some (answer settings sessions request).2
  else none

/-- The family that a request acts in; none for an unknown token, which changes
nothing, and for a sign-out of every family. -/
def TokenRequest.family? (sessions : Sessions) : TokenRequest → Option FamilyId
  | .login _ family _ => some family
  | .refresh presented _ _ | .logout presented =>
      (sessions.tokens.get? presented).map RefreshToken.familyId
  | .changePassword signOutOtherDevices _ family _ =>
      if signOutOtherDevices then none else some family
  | .signOutEverywhere => none

end Brook.Auth
