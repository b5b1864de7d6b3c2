import Brook.SignedIn.Store

namespace Brook.SignedIn

/-! What a client's tasks do between two waits: for the refresh lock and the
slot's, or for an answer of the server.  The wait for the store's own lock after
an answer is part of the wait for that answer. -/

inductive Stage
  /-- `Authenticating` is published, the attempt not reserved yet. -/
  | announced
  | loginQueued (gen : Nat)
  | loginSent (gen : Nat)
  | loginProfile (gen : Nat) (token : Token)
  | totpQueued (gen : Nat)
  | totpSent (gen : Nat)
  | totpProfile (gen : Nat) (token : Token)
  | restoreQueued (gen : Nat)
  | restoreSent (gen : Nat) (stored : Session) (family : Nat)
  | refreshQueued (seen : Revision)
  | refreshSent (token : Token)
  /-- `PATCH /auth/me`, or a restore's `GET`. -/
  | profileOut (epoch : Nat)
  /-- A password change or a TOTP activation. -/
  | accountQueued (epoch : Nat)
  | accountSent (epoch : Nat) (token : Token) (retried : Bool)
  | accountRefresh (epoch : Nat) (token : Token)
  /-- The client was dropped; its sign-out is spawned. -/
  | closing
deriving DecidableEq

/-- What a task goes on with. -/
inductive Input
  | proceed (faults : Faults)
  /-- No answer, or neither a pair nor a refusal that means something. -/
  | failed
  | challenge
  /-- A refresh token refused, a challenge expired, or a 401. -/
  | refused (faults : Faults)
  | pair (faults : Faults)
  | me (user : User) (faults : Faults)
  /-- Inside the wait that a 429 asked for. -/
  | limited
  /-- The caller's future is dropped, or the locked section's bound expires. -/
  | dropped
  /-- The bound expires between the receipt of a pair and its commit. -/
  | expired
deriving DecidableEq

inductive Event
  | reserved (gen : Nat)
  | installed (gen : Nat) (login : LoginId) (restored : Bool)
  /-- `logout` returned, with what was held and stored before it. -/
  | loggedOut (held stored : Option LoginId) (complete : Bool)
  /-- A pair came in. -/
  | received (token : Token)
  | presented (token : Token)
  /-- A refresh of this token was answered with a pair. -/
  | rotated (token : Token)
  /-- A password change's or an activation's pair took this token's place. -/
  | exchanged (token : Token)
  | refused (token : Token)
  /-- Handed to `revoke_detached`, and whether it was spared. -/
  | handed (token : Token) (spared : Bool)
  /-- `/auth/logout` leaves. -/
  | sentLogout (token : Token)
deriving DecidableEq

/-- What a section comes to: the task's next stage, or its end. -/
structure Outcome where
  view : View
  stage : Option Stage
  revokes : List Token
  events : List Event

def View.goesOn (view : View) (stage : Stage) : Outcome :=
  ⟨view, some stage, [], []⟩

def View.done (view : View) : Outcome := ⟨view, none, [], []⟩

namespace Outcome

def emit (event : Event) (out : Outcome) : Outcome :=
  { out with events := event :: out.events }

/-- `revoke_detached` -/
def revoke (token : Token) (out : Outcome) : Outcome :=
  { out with
    view := (out.view.revokeDetached token).1
    revokes := (out.view.revokeDetached token).2.toList ++ out.revokes
    events := .handed token (out.view.spares token) :: out.events }

def revokeAll (taken : Option Session) (out : Outcome) : Outcome :=
  match taken with
  | none => out
  | some old => out.revoke old.refreshToken

end Outcome

namespace View

/-! ### Sign-in -/

def loginStart (gen : Nat) (faults : Faults) (view : View) : Outcome :=
  match view.takeOutForLogin gen faults with
  | none => view.done
  | some (out, displaced) => (out.goesOn (.loginSent gen)).revokeAll displaced

def loginProfile (gen : Nat) (token : Token) (user : User) (faults : Faults)
    (view : View) : Outcome :=
  match view.installForLogin gen ⟨user, token⟩ none faults with
  | (held, .installed _) =>
      held.done.emit (.installed gen token.login false)
  | (held, _) => held.done.revoke token

def totpProfile (gen : Nat) (token : Token) (user : User) (faults : Faults)
    (view : View) : Outcome :=
  match view.installForChallenge gen ⟨user, token⟩ faults with
  | (held, true) => held.done.emit (.installed gen token.login false)
  | (held, false) => held.done.revoke token

/-! ### Restore -/

def restoreStart (gen : Nat) (faults : Faults) (view : View) : Outcome :=
  if view.store.persistence = false then view.done
  else if view.vault.owner ≠ some view.client then view.done
  else if view.vault.readFence faults then
    { view with vault := (view.vault.clear faults).1 }.done
  else match view.vault.load faults with
    | some (some stored) =>
        (view.goesOn (.restoreSent gen stored view.vault.family)).emit
          (.presented stored.refreshToken)
    | _ => view.done

def restorePair (gen : Nat) (stored : Session) (family : Nat) (token : Token)
    (faults : Faults) (view : View) : Outcome :=
  match view.installForLogin gen ⟨stored.user, token⟩ (some family) faults with
  | (held, .installed epoch) =>
      (held.goesOn (.profileOut epoch)).emit (.installed gen token.login true)
  | (held, .stale) => (held.markFamily token family).done.revoke token
  -- Left to expire.
  | (held, .slotTaken) => held.done

/-! ### Refresh -/

/-- A newer client owns the stored login: end the session here. -/
def endSuperseded (faults : Faults) (view : View) : Outcome :=
  match view.signOut false faults with
  | (out, taken) => out.done.revokeAll taken

def refreshOnce (sent : Token → Stage) (limited : Bool) (faults : Faults)
    (view : View) : Outcome :=
  match view.store.session with
  | none => view.done
  | some session =>
      if view.owns = false then view.endSuperseded faults
      else if limited then view.done
      else (view.goesOn (sent session.refreshToken)).emit
        (.presented session.refreshToken)

def refreshStart (seen : Revision) (limited : Bool) (faults : Faults)
    (view : View) : Outcome :=
  if view.store.rev ≠ seen then view.done
  else view.refreshOnce .refreshSent limited faults

/-- The commit of a pair, and the revoke of one that nobody holds. -/
def commitPair (rotatedFrom fresh : Token) (rotation : Bool) (faults : Faults)
    (next : View → Outcome) (view : View) : Outcome :=
  match view.commitRefresh rotatedFrom fresh rotation faults with
  | (held, .committed) => next held
  | (held, .stored) => held.done
  | (held, .discarded) => held.done.revoke fresh

/-! ### Account calls -/

/-- The refresh token of the session, if it is still `epoch`. -/
def credentials (epoch : Nat) (view : View) : Option Token :=
  if view.store.rev.epoch = epoch then
    view.store.session.map (·.refreshToken)
  else none

def accountSend (epoch : Nat) (retried : Bool) (view : View) : Outcome :=
  match view.credentials epoch with
  | none => view.done
  | some token => view.goesOn (.accountSent epoch token retried)

def accountPair (used fresh : Token) (faults : Faults) (view : View) :
    Outcome :=
  match view.commitRefresh used fresh false faults with
  | (held, .discarded) => held.done.revoke fresh
  | (held, _) => held.done.emit (.exchanged used)

/-! ### The end of a client -/

/-- A stored session's token stays valid for the next launch. -/
def close (faults : Faults) (view : View) : Outcome :=
  match view.signOut true faults with
  | (out, taken) =>
      if view.store.persistence then out.done else out.done.revokeAll taken

def logout (faults : Faults) (view : View) : Outcome :=
  match view.signOut false faults with
  | (out, taken) =>
      (out.done.revokeAll taken).emit (.loggedOut
        (view.store.session.map (·.refreshToken.login))
        (view.vault.slot.map (·.refreshToken.login))
        out.store.signOutComplete)

end View

/-- The section that follows a wait; `number` is the next token's. -/
def resume (number : Nat) (view : View) : Stage → Input → Option Outcome
  | .announced, .proceed _ =>
      some ((view.reserveLogin.goesOn
        (.loginQueued view.reserveLogin.store.loginGen)).emit
        (.reserved view.reserveLogin.store.loginGen))
  | .announced, .dropped => some view.done
  | .loginQueued gen, .proceed faults => some (view.loginStart gen faults)
  | .loginSent gen, .failed => some (view.publishFailedIfCurrent gen).done
  | .loginSent gen, .challenge => some (view.openChallenge gen).done
  | .loginSent gen, .pair _ =>
      some ((view.goesOn (.loginProfile gen ⟨number, number⟩)).emit
        (.received ⟨number, number⟩))
  | .loginProfile gen token, .me user faults =>
      some (view.loginProfile gen token user faults)
  | .loginProfile gen token, .failed =>
      some ((view.publishFailedIfCurrent gen).done.emit (.sentLogout token))
  | .totpQueued gen, .proceed _ =>
      if view.ChallengeCurrent gen then some (view.goesOn (.totpSent gen))
      else some view.done
  | .totpSent _, .failed => some view.done
  | .totpSent gen, .refused _ => some (view.endChallenge gen).done
  | .totpSent gen, .pair _ =>
      some ((view.goesOn (.totpProfile gen ⟨number, number⟩)).emit
        (.received ⟨number, number⟩))
  | .totpProfile gen token, .me user faults =>
      some (view.totpProfile gen token user faults)
  | .totpProfile _ token, .failed => some (view.done.emit (.sentLogout token))
  | .restoreQueued gen, .proceed faults => some (view.restoreStart gen faults)
  | .restoreSent _ _ _, .failed => some view.done
  | .restoreSent gen stored _, .refused faults =>
      some ((view.clearPersistedIfHolds gen stored.refreshToken
        faults).done.emit (.refused stored.refreshToken))
  | .restoreSent gen stored family, .pair faults =>
      some (((view.restorePair gen stored family
        ⟨number, stored.refreshToken.login⟩ faults).emit
        (.rotated stored.refreshToken)).emit
        (.received ⟨number, stored.refreshToken.login⟩))
  | .refreshQueued seen, .proceed faults =>
      some (view.refreshStart seen false faults)
  | .refreshQueued seen, .limited =>
      some (view.refreshStart seen true Faults.none)
  | .refreshSent _, .failed => some view.done
  | .refreshSent token, .refused faults =>
      some ((view.clearIfHolds token faults).done.emit (.refused token))
  | .refreshSent token, .pair faults =>
      some (((view.commitPair token ⟨number, token.login⟩ true faults
        View.done).emit (.rotated token)).emit
        (.received ⟨number, token.login⟩))
  | .profileOut epoch, .me user faults =>
      some (view.replaceUser epoch user faults).done
  | .profileOut _, .failed => some view.done
  | .profileOut _, .dropped => some view.done
  | .accountQueued epoch, .proceed _ => some (view.accountSend epoch false)
  | .accountQueued _, .dropped => some view.done
  | .accountSent _ _ _, .failed => some view.done
  | .accountSent _ _ _, .dropped => some view.done
  | .accountSent epoch _ retried, .refused faults =>
      if retried then some view.done
      else some (view.refreshOnce (.accountRefresh epoch) false faults)
  | .accountSent _ used _, .pair faults =>
      some ((view.accountPair used ⟨number, number⟩ faults).emit
        (.received ⟨number, number⟩))
  | .accountSent _ _ _, .expired =>
      some (view.done.emit
        (.received ⟨number, number⟩))
  | .accountRefresh _ _, .failed => some view.done
  | .accountRefresh _ _, .dropped => some view.done
  | .accountRefresh _ token, .refused faults =>
      some ((view.clearIfHolds token faults).done.emit (.refused token))
  | .accountRefresh epoch token, .pair faults =>
      some (((view.commitPair token ⟨number, token.login⟩ true faults
        (·.accountSend epoch true)).emit (.rotated token)).emit
        (.received ⟨number, token.login⟩))
  | .accountRefresh _ token, .expired =>
      some ((view.done.emit (.rotated token)).emit
        (.received ⟨number, token.login⟩))
  | .closing, .proceed faults => some (view.close faults)
  | _, _ => none

end Brook.SignedIn
