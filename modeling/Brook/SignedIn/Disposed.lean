import Brook.SignedIn.Superseded

namespace Brook.SignedIn

/-! What becomes of a token pair that a client received. -/

/-- The login was stored then, or the slot's owner held it. -/
def Entry.Owned (entry : Entry) (login : LoginId) : Prop :=
  entry.vault.restorable = some login ∨
    entry.ownerSession.map (·.refreshToken.login) = some login

instance (entry : Entry) (login : LoginId) : Decidable (entry.Owned login) :=
  inferInstanceAs (Decidable (_ ∨ _))

/-- The pair gave way to a later one, was refused, or was handed over to be
revoked; only a token of the owner's login is spared. -/
def Event.Disposes (owned : LoginId → Prop) (token : Token) : Event → Prop
  | .rotated other | .exchanged other | .refused other | .sentLogout other =>
      other = token
  | .handed other spared =>
      other = token ∧ (spared = true → owned token.login)
  | _ => False

instance (owned : LoginId → Prop) [DecidablePred owned] (token : Token)
    (event : Event) : Decidable (event.Disposes owned token) :=
  match event with
  | .rotated other | .exchanged other | .refused other | .sentLogout other =>
      inferInstanceAs (Decidable (other = token))
  | .handed other spared =>
      inferInstanceAs (Decidable (other = token ∧
        (spared = true → owned token.login)))
  | .reserved _ | .installed _ _ _ | .loggedOut _ _ _ | .received _
  | .presented _ => isFalse id

def Disposed (log : List Entry) (token : Token) : Prop :=
  ∃ entry ∈ log, entry.event.Disposes entry.Owned token

instance (log : List Entry) (token : Token) : Decidable (Disposed log token) :=
  inferInstanceAs (Decidable (∃ entry ∈ log, _))

/-- A live session holds the token. -/
def System.Holds (system : System) (token : Token) : Prop :=
  ∃ row ∈ system.clients.rows, row.2.closed = false ∧
    row.2.session.map (·.refreshToken) = some token

instance (system : System) (token : Token) : Decidable (system.Holds token) :=
  inferInstanceAs (Decidable (∃ row ∈ system.clients.rows, _))

/-- A pair received is committed to a live session, stored, or disposed of. -/
def Event.Accounted (system : System) : Event → Prop
  | .received token =>
      system.Holds token ∨
        system.vault.slot.map (·.refreshToken) = some token ∨
        Disposed system.log token
  | _ => True

instance (system : System) (event : Event) :
    Decidable (event.Accounted system) :=
  match event with
  | .received token =>
      inferInstanceAs (Decidable (system.Holds token ∨ _ ∨
        Disposed system.log token))
  | .reserved _ | .installed _ _ _ | .loggedOut _ _ _ | .presented _
  | .rotated _ | .exchanged _ | .refused _ | .handed _ _ | .sentLogout _ =>
      isTrue trivial

def System.NothingLeft (system : System) : Prop :=
  ∀ entry ∈ system.log, entry.event.Accounted system

instance (system : System) : Decidable system.NothingLeft :=
  inferInstanceAs (Decidable (∀ entry ∈ system.log, _))

/-! ### The conditions -/

def Input.isPair : Input → Bool
  | .pair _ => true
  | _ => false

def Input.isProfile : Input → Bool
  | .me _ _ => true
  | _ => false

def Input.isRefusal : Input → Bool
  | .refused _ => true
  | _ => false

def Input.faults : Input → Faults
  | .proceed faults | .refused faults | .pair faults | .me _ faults => faults
  | _ => .none

/-- The token is of another client's session, or disposed of. -/
def System.Settled (system : System) (client : ClientId) (token : Token) :
    Prop :=
  Disposed system.log token ∨
    ∃ row ∈ system.clients.rows, row.1 ≠ client ∧
      row.2.session.map (·.refreshToken) = some token

instance (system : System) (client : ClientId) (token : Token) :
    Decidable (system.Settled client token) :=
  inferInstanceAs (Decidable (_ ∨ ∃ row ∈ system.clients.rows, _))

namespace View

section

variable (settled : Token → Prop) (owned : LoginId → Prop) (view : View)

def Holds (token : Token) : Prop :=
  view.store.session.map (·.refreshToken) = some token

/-- What the slot's owner deletes or overwrites is its own session's token, the
one sent, or settled. -/
def SlotFits (sent : Option Token) : Prop :=
  view.Mine → ∀ stored ∈ view.vault.slot,
    view.Holds stored.refreshToken ∨ sent = some stored.refreshToken ∨
      settled stored.refreshToken

/-- The session that makes way for a pair is of the token sent, or settled. -/
def SessionFits (sent : Option Token) : Prop :=
  ∀ session ∈ view.store.session,
    sent = some session.refreshToken ∨ settled session.refreshToken

/-- A token that is spared is of the owner's login. -/
def SparesOwned (token : Token) : Prop :=
  view.spares token = true → owned token.login

def SessionOwned : Prop :=
  ∀ session ∈ view.store.session,
    settled session.refreshToken ∨ view.SparesOwned owned session.refreshToken

/-- A pair for the token is not for a live session. -/
def Discards (token : Token) : Prop :=
  view.store.closed = true ∨ ¬ view.Holds token

instance (token : Token) : Decidable (view.Holds token) :=
  inferInstanceAs (Decidable (_ = _))

instance (sent : Option Token) [DecidablePred settled] :
    Decidable (view.SlotFits settled sent) :=
  inferInstanceAs (Decidable (_ → _))

instance (sent : Option Token) [DecidablePred settled] :
    Decidable (view.SessionFits settled sent) :=
  inferInstanceAs (Decidable (∀ session ∈ view.store.session, _))

instance (token : Token) [DecidablePred owned] :
    Decidable (view.SparesOwned owned token) :=
  inferInstanceAs (Decidable (_ → _))

instance [DecidablePred settled] [DecidablePred owned] :
    Decidable (view.SessionOwned settled owned) :=
  inferInstanceAs (Decidable (∀ session ∈ view.store.session, _))

instance (token : Token) : Decidable (view.Discards token) :=
  inferInstanceAs (Decidable (_ ∨ _))

/-- What a client signs out of. -/
def MayLeave : Prop :=
  view.SessionOwned settled owned ∧ view.SlotFits settled none

/-- The install of a session for the token sent. -/
def MayInstall (sent : Option Token) : Prop :=
  view.SessionFits settled sent ∧ view.SlotFits settled sent

/-- The commit of a pair for the token. -/
def MayCommit (token : Token) (handed : List Token) : Prop :=
  (view.Holds token → view.SlotFits settled none) ∧
    (view.Discards token → ∀ other ∈ handed, view.SparesOwned owned other)

/-- Nothing is lost by the section: the bound does not expire on a pair; a
restore finds the slot still its client's; a dropped client's session is the
stored one; what is overwritten or spared is accounted for. -/
def MayResume (number : Nat) (input : Input) : Stage → Prop
  | .loginQueued gen =>
      view.Current gen → view.store.session.isSome →
        view.MayLeave settled owned
  | .loginProfile gen token =>
      input.isProfile → view.SparesOwned owned token ∧
        (view.Current gen → view.MayInstall settled none)
  | .totpProfile gen token =>
      input.isProfile → view.SparesOwned owned token ∧
        (view.ChallengeCurrent gen → view.MayInstall settled none)
  | .restoreQueued _ =>
      view.vault.readFence input.faults = true → view.SlotFits settled none
  | .restoreSent gen stored family =>
      input.isPair →
        (view.Current gen → view.owns = true ∧
          view.MayInstall settled (some stored.refreshToken)) ∧
        (¬ view.Current gen → family = view.vault.family →
          view.owns = false → owned stored.refreshToken.login)
  | .refreshQueued _ => view.SessionOwned settled owned
  | .refreshSent token =>
      (input.isPair →
        view.MayCommit settled owned token [token, ⟨number, token.login⟩]) ∧
      (input.isRefusal → view.Holds token → view.SlotFits settled none)
  | .accountSent _ token _ =>
      input ≠ .expired ∧
      (input.isPair →
        view.MayCommit settled owned token [⟨number, number⟩]) ∧
      (input.isRefusal → view.SessionOwned settled owned)
  | .accountRefresh _ token =>
      input ≠ .expired ∧
      (input.isPair →
        view.MayCommit settled owned token [token, ⟨number, token.login⟩]) ∧
      (input.isRefusal → view.Holds token → view.SlotFits settled none)
  | .closing =>
      view.store.persistence = true → ∀ session ∈ view.store.session,
        view.vault.slot.map (·.refreshToken) = some session.refreshToken ∨
          settled session.refreshToken
  | _ => True

instance [DecidablePred settled] [DecidablePred owned] :
    Decidable (view.MayLeave settled owned) :=
  inferInstanceAs (Decidable (_ ∧ _))

instance (sent : Option Token) [DecidablePred settled] :
    Decidable (view.MayInstall settled sent) :=
  inferInstanceAs (Decidable (_ ∧ _))

instance (token : Token) (handed : List Token) [DecidablePred settled]
    [DecidablePred owned] :
    Decidable (view.MayCommit settled owned token handed) :=
  inferInstanceAs (Decidable (_ ∧ _))

instance (number : Nat) (input : Input) (stage : Stage)
    [DecidablePred settled] [DecidablePred owned] :
    Decidable (view.MayResume settled owned number input stage) :=
  match stage with
  | .loginQueued gen =>
      inferInstanceAs (Decidable (view.Current gen → _ → view.MayLeave _ _))
  | .loginProfile gen _ =>
      inferInstanceAs (Decidable (_ → view.SparesOwned _ _ ∧
        (view.Current gen → view.MayInstall _ _)))
  | .totpProfile gen _ =>
      inferInstanceAs (Decidable (_ → view.SparesOwned _ _ ∧
        (view.ChallengeCurrent gen → view.MayInstall _ _)))
  | .restoreQueued _ => inferInstanceAs (Decidable (_ → view.SlotFits _ _))
  | .restoreSent gen stored _ =>
      inferInstanceAs (Decidable (_ →
        (view.Current gen → _ ∧ view.MayInstall _ _) ∧
        (¬ view.Current gen → _ → _ → owned stored.refreshToken.login)))
  | .refreshQueued _ =>
      inferInstanceAs (Decidable (view.SessionOwned settled owned))
  | .refreshSent token =>
      inferInstanceAs (Decidable ((_ → view.MayCommit _ _ _ _) ∧
        (_ → view.Holds token → view.SlotFits _ _)))
  | .accountSent _ _ _ =>
      inferInstanceAs (Decidable (_ ∧ (_ → view.MayCommit _ _ _ _) ∧
        (_ → view.SessionOwned _ _)))
  | .accountRefresh _ token =>
      inferInstanceAs (Decidable (_ ∧ (_ → view.MayCommit _ _ _ _) ∧
        (_ → view.Holds token → view.SlotFits _ _)))
  | .closing =>
      inferInstanceAs (Decidable (_ → ∀ session ∈ view.store.session,
        _ ∨ settled session.refreshToken))
  | .announced | .loginSent _ | .totpQueued _ | .totpSent _ | .profileOut _
  | .accountQueued _ => isTrue trivial

end

end View

/-- One process; each section loses no token. -/
def NoneLost (system : System) : Action → Prop
  | .create _ | .leave _ _ => True
  | .begin client op _ =>
      op.isLogout = true → ∀ store ∈ system.clients.get? client,
        (system.view client store).MayLeave (system.Settled client)
          system.Owned
  | .resume id input =>
      ∀ task ∈ system.tasks.get? id,
        ∀ store ∈ system.clients.get? task.client,
        (system.view task.client store).MayResume (system.Settled task.client)
          system.Owned system.clock input task.stage
  | .restart => False

instance (system : System) (action : Action) :
    Decidable (NoneLost system action) :=
  match action with
  | .create _ | .leave _ _ => isTrue trivial
  | .begin client op _ =>
      inferInstanceAs (Decidable (op.isLogout = true →
        ∀ store ∈ system.clients.get? client,
          (system.view client store).MayLeave (system.Settled client)
            system.Owned))
  | .resume id input =>
      inferInstanceAs (Decidable (∀ task ∈ system.tasks.get? id,
        ∀ store ∈ system.clients.get? task.client,
        (system.view task.client store).MayResume (system.Settled task.client)
          system.Owned system.clock input task.stage))
  | .restart => isFalse id

/-! ### One section -/

/-- The token is in the session or in the slot, or of a new login on its way. -/
def View.Has (view : View) (stage : Option Stage) (token : Token) : Prop :=
  view.Holds token ∨ view.vault.slot.map (·.refreshToken) = some token ∨
    stage.bind Stage.fresh = some token

def Outcome.Accounts (settled : Token → Prop) (owned : LoginId → Prop)
    (out : Outcome) (token : Token) : Prop :=
  out.view.Has out.stage token ∨ settled token ∨
    ∃ event ∈ out.events, event.Disposes owned token

/-- The section loses no token, and a closed client stays signed out. -/
structure Outcome.Keeps (settled : Token → Prop) (owned : LoginId → Prop)
    (past : Option Stage) (view : View) (out : Outcome) : Prop where
  has : ∀ token, view.Has past token → out.Accounts settled owned token
  received : ∀ token, .received token ∈ out.events →
    out.Accounts settled owned token
  shut : out.view.store.closed = true → out.view.store.session.isSome →
    view.store.closed = true ∧ view.store.session.isSome

section

variable {settled : Token → Prop} {owned : LoginId → Prop} {number : Nat}
variable {past : Option Stage} {view later : View} {out : Outcome}
variable {token : Token} {faults : Faults}

namespace Outcome

theorem Accounts.of_slot (stored : out.view.vault.slot.map (·.refreshToken) =
    some token) : out.Accounts settled owned token :=
  Or.inl (Or.inr (Or.inl stored))

theorem Accounts.of_session (held : out.view.Holds token) :
    out.Accounts settled owned token :=
  Or.inl (Or.inl held)

theorem Accounts.of_settled (known : settled token) :
    out.Accounts settled owned token :=
  Or.inr (Or.inl known)

theorem Accounts.of_event {event : Event} (emitted : event ∈ out.events)
    (disposes : event.Disposes owned token) :
    out.Accounts settled owned token :=
  Or.inr (Or.inr ⟨event, emitted, disposes⟩)

theorem Accounts.emit (accounts : out.Accounts settled owned token)
    (event : Event) : (out.emit event).Accounts settled owned token := by
  rcases accounts with has | known | ⟨other, emitted, disposes⟩
  · exact Or.inl has
  · exact .of_settled known
  · exact .of_event (List.mem_cons_of_mem _ emitted) disposes

theorem accounts_emit {event : Event} (disposes : event.Disposes owned token) :
    (out.emit event).Accounts settled owned token :=
  .of_event List.mem_cons_self disposes

theorem Accounts.revoke (accounts : out.Accounts settled owned token)
    (other : Token) : (out.revoke other).Accounts settled owned token := by
  rcases accounts with has | known | ⟨event, emitted, disposes⟩
  · exact Or.inl has
  · exact .of_settled known
  · exact .of_event (List.mem_cons_of_mem _ emitted) disposes

/-- A token handed over is accounted for, unless it is spared for no reason. -/
theorem accounts_revoke
    (spared : settled token ∨ out.view.SparesOwned owned token) :
    (out.revoke token).Accounts settled owned token := by
  rcases spared with known | spared
  · exact .of_settled known
  · have disposes : (Event.handed token (out.view.spares token)).Disposes owned
        token := ⟨rfl, spared⟩
    exact .of_event List.mem_cons_self disposes

theorem Accounts.revokeAll (accounts : out.Accounts settled owned token)
    (taken : Option Session) :
    (out.revokeAll taken).Accounts settled owned token := by
  cases taken with
  | none => exact accounts
  | some old => exact accounts.revoke old.refreshToken

/-- The session and the slot keep their tokens. -/
theorem Keeps.same {next : Option Stage}
    (fresh : past.bind Stage.fresh = none)
    (session : later.store.session.map (·.refreshToken) =
      view.store.session.map (·.refreshToken))
    (slot : later.vault.slot.map (·.refreshToken) =
      view.vault.slot.map (·.refreshToken))
    (closed : later.store.closed = view.store.closed) :
    (⟨later, next, [], []⟩ : Outcome).Keeps settled owned past view where
  has token has := by
    rcases has with held | stored | new
    · exact .of_session (session.trans held)
    · exact .of_slot (slot.trans stored)
    · rw [fresh] at new
      cases new
  received _ emitted := by cases emitted
  shut shut signedIn := by
    refine ⟨closed.symm.trans shut, ?_⟩
    have same := congrArg Option.isSome session
    simpa [signedIn] using same.symm

theorem Keeps.emit (keeps : out.Keeps settled owned past view) {event : Event}
    (received : ∀ token, event = .received token →
      (out.emit event).Accounts settled owned token) :
    (out.emit event).Keeps settled owned past view where
  has token has := (keeps.has token has).emit event
  received token emitted := by
    rcases List.mem_cons.mp emitted with same | before
    · exact received token same.symm
    · exact (keeps.received token before).emit event
  shut := keeps.shut

end Outcome

open Outcome

theorem View.Mirrors.slot {marks after : Table Token Nat} {session : Session}
    {marking : View.Marking} {vault : Vault}
    (mirrors : View.Mirrors view marks session faults marking vault after) :
    (view.Mine ∧ vault.slot = some session) ∨ vault.slot = view.vault.slot := by
  cases mirrors with
  | off => exact Or.inr rfl
  | landed mine => exact Or.inl ⟨mine, rfl⟩
  | failed mine fails fences => exact Or.inr fences.slot

/-- What the slot held is its session's token, the one sent or settled, or is
held there still. -/
theorem View.SlotFits.stored {sent : Option Token} {vault : Vault}
    (fits : view.SlotFits settled sent)
    (changed : view.Mine ∨ vault.slot = view.vault.slot)
    (stored : view.vault.slot.map (·.refreshToken) = some token) :
    view.Holds token ∨ sent = some token ∨ settled token ∨
      vault.slot.map (·.refreshToken) = some token := by
  rcases changed with mine | same
  · obtain ⟨session, held, rfl⟩ := Option.map_eq_some_iff.mp stored
    rcases fits mine session held with holds | sent | known
    · exact Or.inl holds
    · exact Or.inr (Or.inl sent)
    · exact Or.inr (Or.inr (Or.inl known))
  · exact Or.inr (Or.inr (Or.inr (same ▸ stored)))

/-- The store's session gives way to a new one, with the token that was sent. -/
theorem Outcome.accounts_of_held {sent : Option Token}
    (new : ∀ token, past.bind Stage.fresh = some token → out.view.Holds token)
    (gone : ∀ token, sent = some token → out.Accounts settled owned token)
    (session : view.SessionFits settled sent)
    (slot : view.SlotFits settled sent)
    (changed : view.Mine ∨ out.view.vault.slot = view.vault.slot)
    (has : view.Has past token) : out.Accounts settled owned token := by
  have holds : view.Holds token → out.Accounts settled owned token := by
    intro held
    obtain ⟨old, signedIn, rfl⟩ := Option.map_eq_some_iff.mp held
    rcases session old signedIn with sent | known
    · exact gone _ sent
    · exact .of_settled known
  rcases has with held | stored | fresh
  · exact holds held
  · rcases slot.stored changed stored with held | sent | known | stays
    · exact holds held
    · exact gone _ sent
    · exact .of_settled known
    · exact .of_slot stays
  · exact .of_session (new token fresh)

/-- A sign-out: the session is handed over, and the stored copy may be
cleared. -/
theorem Outcome.Keeps.signsOut {next : Option Stage}
    (fresh : past.bind Stage.fresh = none)
    (leaves : view.SessionOwned settled owned)
    (cleared : view.SlotFits settled none ∧ view.Mine ∨
      later.vault.slot = view.vault.slot)
    (spares : ∀ other, later.spares other = view.spares other)
    (session : later.store.session = none) :
    ((⟨later, next, [], []⟩ : Outcome).revokeAll view.store.session).Keeps
      settled owned past view where
  has token has := by
    have holds : view.Holds token →
        ((⟨later, next, [], []⟩ : Outcome).revokeAll
          view.store.session).Accounts settled owned token := by
      intro held
      obtain ⟨old, signedIn, rfl⟩ := Option.map_eq_some_iff.mp held
      rw [signedIn]
      apply accounts_revoke
      rcases leaves old signedIn with known | spared
      · exact Or.inl known
      · exact Or.inr fun spares' => spared ((spares _).symm.trans spares')
    rcases has with held | stored | new
    · exact holds held
    · rcases cleared with ⟨fits, mine⟩ | kept
      · rcases fits.stored (Or.inl mine) stored with held | sent | known | stays
        · exact holds held
        · cases sent
        · exact .of_settled known
        · exact Accounts.revokeAll (.of_slot stays) _
      · exact Accounts.revokeAll (.of_slot (kept ▸ stored)) _
    · rw [fresh] at new
      cases new
  received token emitted := by
    cases signedIn : view.store.session with
    | none => simp [signedIn, Outcome.revokeAll] at emitted
    | some old => simp [signedIn, Outcome.revokeAll, Outcome.revoke] at emitted
  shut _ signedIn := by
    cases taken : view.store.session with
    | none => simp [taken, Outcome.revokeAll, session] at signedIn
    | some old =>
        simp [taken, Outcome.revokeAll, Outcome.revoke, View.revokeDetached,
          View.unmark, session] at signedIn

/-- A pair that nobody holds is handed over. -/
theorem Outcome.Keeps.revokes {next : Option Stage}
    (session : later.store.session.map (·.refreshToken) =
      view.store.session.map (·.refreshToken))
    (slot : later.vault.slot.map (·.refreshToken) =
      view.vault.slot.map (·.refreshToken))
    (closed : later.store.closed = view.store.closed)
    (fresh : ∀ other, past.bind Stage.fresh = some other → other = token)
    (spares : later.SparesOwned owned token) :
    ((⟨later, next, [], []⟩ : Outcome).revoke token).Keeps settled owned past
      view where
  has other has := by
    rcases has with held | stored | new
    · have holds : later.Holds other := session.trans held
      exact Accounts.revoke (.of_session holds) token
    · have stores : later.vault.slot.map (·.refreshToken) = some other :=
        slot.trans stored
      exact Accounts.revoke (.of_slot stores) token
    · cases fresh other new
      exact accounts_revoke (Or.inr spares)
  received _ emitted := by simp [Outcome.revoke] at emitted
  shut shut signedIn := by
    refine ⟨closed.symm.trans shut, ?_⟩
    have same := congrArg Option.isSome session
    have held : later.store.session.isSome := signedIn
    simpa [held] using same.symm

theorem View.spares_congr (client : later.client = view.client)
    (marks : later.store.slotTokens = view.store.slotTokens)
    (on : later.store.persistence = view.store.persistence)
    (owner : later.vault.owner = view.vault.owner)
    (family : later.vault.family = view.vault.family) (token : Token) :
    later.spares token = view.spares token := by
  unfold View.spares View.owns
  rw [client, marks, on, owner, family]

theorem View.spares_iff : view.spares token = true ↔
    view.store.slotTokens.get? token = some view.vault.family ∧
      view.store.persistence = true ∧ view.owns = false := by
  unfold View.spares
  cases mark : view.store.slotTokens.get? token with
  | none => simp
  | some family =>
      simp only [Bool.and_eq_true, Bool.not_eq_true', decide_eq_true_eq,
        Option.some.injEq]
      exact ⟨fun ⟨⟨on, other⟩, same⟩ => ⟨same, on, other⟩,
        fun ⟨same, on, other⟩ => ⟨⟨on, other⟩, same⟩⟩

theorem View.SlotFits.sent (fits : view.SlotFits settled none)
    (sent : Option Token) : view.SlotFits settled sent := by
  intro mine session held
  rcases fits mine session held with holds | same | known
  · exact Or.inl holds
  · cases same
  · exact Or.inr (Or.inr known)

namespace View

variable {gen : Nat}

/-- The slot after a sign-out or a refusal. -/
theorem cleared_slot {clears : Prop} [Decidable clears] {sent : Option Token}
    (mine : clears → view.Mine)
    (fits : view.SlotFits settled sent) :
    view.SlotFits settled sent ∧ view.Mine ∨
      (if clears then (view.vault.clear faults).1 else view.vault).slot =
        view.vault.slot := by
  by_cases now : clears
  · exact Or.inl ⟨fits, mine now⟩
  · exact Or.inr (by rw [if_neg now])

theorem loginStart_keeps
    (leaves : view.Current gen → view.store.session.isSome →
      view.MayLeave settled owned) :
    (view.loginStart gen faults).Keeps settled owned
      (some (.loginQueued gen)) view := by
  unfold loginStart
  rcases takeOutForLogin_cases view faults gen with
    ⟨_, stale⟩ | ⟨_, signedOut, empty⟩ | ⟨old, current, signedIn, taken⟩
  · rw [stale]
    exact .same rfl rfl rfl rfl
  · rw [empty]
    exact .same rfl rfl rfl rfl
  · rw [taken]
    obtain ⟨owns, fits⟩ := leaves current (by rw [signedIn]; rfl)
    rw [← signedIn]
    refine .signsOut rfl owns (cleared_slot id fits) ?_ rfl
    have vault : ∀ {Field : Type} (field : Vault → Field),
        field (view.vault.clear faults).1 = field view.vault →
        field (if view.Mine then (view.vault.clear faults).1 else view.vault) =
          field view.vault := by
      intro _ field same
      split
      · exact same
      · rfl
    exact spares_congr rfl rfl rfl (vault (·.owner) Vault.clear_owner)
      (vault (·.family) Vault.clear_family)

/-- A new login's session is installed, or its pair handed over. -/
theorem loginProfile_keeps {user : User}
    (spares : view.SparesOwned owned token)
    (fits : view.Current gen → view.MayInstall settled none) :
    (view.loginProfile gen token user faults).Keeps settled owned
      (some (.loginProfile gen token)) view := by
  have ofTask : ∀ other,
      (some (Stage.loginProfile gen token)).bind Stage.fresh = some other →
        other = token := fun other new => (Option.some.inj new).symm
  unfold loginProfile
  rcases installForLogin_cases view faults gen ⟨user, token⟩ none with
    ⟨_, same⟩ | ⟨_, _, _, same⟩ | ⟨vault, marks, current, mirrors, installed⟩
  · rw [same]
    exact .revokes rfl rfl rfl ofTask spares
  · rw [same]
    exact .revokes rfl rfl rfl ofTask spares
  · rw [installed]
    obtain ⟨session, slot⟩ := fits current
    refine ⟨fun other has => ?_, ?_, ?_⟩
    · refine accounts_of_held ?_ ?_ session slot ?_ has
      · intro other new
        cases ofTask other new
        rfl
      · intro _ sent
        cases sent
      · exact mirrors.slot.imp_left And.left
    · intro other emitted
      simp [Outcome.emit, View.done] at emitted
    · intro shut
      cases current.1.symm.trans shut

theorem totpProfile_keeps {user : User}
    (spares : view.SparesOwned owned token)
    (fits : view.ChallengeCurrent gen → view.MayInstall settled none) :
    (view.totpProfile gen token user faults).Keeps settled owned
      (some (.totpProfile gen token)) view := by
  have ofTask : ∀ other,
      (some (Stage.totpProfile gen token)).bind Stage.fresh = some other →
        other = token := fun other new => (Option.some.inj new).symm
  unfold totpProfile
  rcases installForChallenge_cases view faults gen ⟨user, token⟩ with
    ⟨_, same⟩ | ⟨vault, marks, current, mirrors, installed⟩
  · rw [same]
    exact .revokes rfl rfl rfl ofTask spares
  · rw [installed]
    obtain ⟨session, slot⟩ := fits current
    refine ⟨fun other has => ?_, ?_, ?_⟩
    · refine accounts_of_held ?_ ?_ session slot ?_ has
      · intro other new
        cases ofTask other new
        rfl
      · intro _ sent
        cases sent
      · exact mirrors.slot.imp_left And.left
    · intro other emitted
      simp [Outcome.emit, View.done] at emitted
    · intro shut
      cases current.1.1.symm.trans shut

theorem restoreStart_keeps
    (fits : view.vault.readFence faults = true → view.SlotFits settled none) :
    (view.restoreStart gen faults).Keeps settled owned
      (some (.restoreQueued gen)) view := by
  unfold restoreStart
  split
  · exact .same rfl rfl rfl rfl
  next on =>
    split
    · exact .same rfl rfl rfl rfl
    next owner =>
      split
      · next fenced =>
          have mine : view.Mine := ⟨by simpa using on, not_not.mp owner⟩
          have quiet : ∀ other, .received other ∉
              ({ view with vault := (view.vault.clear faults).1 }.done).events :=
            fun _ emitted => by cases emitted
          refine ⟨?_, fun other emitted => (quiet other emitted).elim, And.intro⟩
          intro other has
          rcases has with held | stored | new
          · exact .of_session held
          · rcases (fits fenced).stored (Or.inl mine) stored with
              held | sent | known | stays
            · exact .of_session held
            · cases sent
            · exact .of_settled known
            · exact .of_slot stays
          · cases new
      · split
        · exact Keeps.emit (.same rfl rfl rfl rfl) fun _ same => by cases same
        · exact .same rfl rfl rfl rfl

theorem refused_keeps {stored : Session} {family : Nat} :
    ((view.clearPersistedIfHolds gen stored.refreshToken faults).done.emit
      (.refused stored.refreshToken)).Keeps settled owned
      (some (.restoreSent gen stored family)) view := by
  rcases clearPersistedIfHolds_cases view faults gen stored.refreshToken with
    same | ⟨held, _, mine, holds, ofToken, cleared⟩
  · rw [same]
    exact Keeps.emit (.same rfl rfl rfl rfl) fun _ same => by cases same
  · rw [cleared]
    refine ⟨?_, by simp [Outcome.emit, View.done],
      fun shut signedIn => ⟨shut, signedIn⟩⟩
    intro other has
    rcases has with signedIn | stores | new
    · exact .of_session signedIn
    · rw [holds] at stores
      cases stores
      exact accounts_emit ofToken.symm
    · cases new

/-- A restore's session takes the place of the one that the slot's token was
of. -/
theorem restorePair_keeps {stored : Session} {family : Nat}
    (current : view.Current gen → view.owns = true ∧
      view.MayInstall settled (some stored.refreshToken))
    (stale : ¬ view.Current gen → family = view.vault.family →
      view.owns = false → owned stored.refreshToken.login)
    (sameLogin : token.login = stored.refreshToken.login) :
    (((view.restorePair gen stored family token faults).emit
      (.rotated stored.refreshToken)).emit (.received token)).Keeps settled
      owned (some (.restoreSent gen stored family)) view := by
  unfold restorePair
  rcases installForLogin_cases view faults gen ⟨stored.user, token⟩
      (some family) with
    ⟨late, same⟩ | ⟨now, on, other, _⟩ |
    ⟨vault, marks, now, mirrors, installed⟩
  · rw [same]
    have spares : (view.markFamily token family).SparesOwned owned token := by
      intro spared
      obtain ⟨mark, _, other⟩ := spares_iff.mp spared
      have family : family = view.vault.family := by
        simpa [markFamily] using mark
      exact sameLogin ▸ stale late family other
    have revoked : ((view.markFamily token family).done.revoke token).Keeps
        settled owned (some (.restoreSent gen stored family)) view :=
      .revokes rfl rfl rfl (fun _ new => by cases new) spares
    apply Keeps.emit (revoked.emit fun _ same => by cases same)
    intro other received
    cases received
    exact Accounts.emit (Accounts.emit (accounts_revoke (Or.inr spares)) _) _
  · have owns := (current now).1
    simp [View.owns, on, other] at owns
  · rw [installed]
    obtain ⟨_, session, slot⟩ := current now
    refine ⟨fun other has => ?_, ?_, ?_⟩
    · refine accounts_of_held ?_ ?_ session slot ?_ has
      · intro _ new
        cases new
      · intro other sent
        cases sent
        have disposes : (Event.rotated stored.refreshToken).Disposes owned
            stored.refreshToken := rfl
        exact Accounts.emit (accounts_emit disposes) _
      · exact mirrors.slot.imp_left And.left
    · intro other emitted
      have same : other = token := by
        simpa [Outcome.emit, View.goesOn] using emitted
      cases same
      exact .of_session rfl
    · intro shut
      cases now.1.symm.trans shut

theorem endSuperseded_keeps (fresh : past.bind Stage.fresh = none)
    (other : view.owns = false) (leaves : view.SessionOwned settled owned) :
    (view.endSuperseded faults).Keeps settled owned past view := by
  unfold endSuperseded
  simp only [signOut_taken]
  have notMine : ¬ view.Mine := fun mine => by
    simp [View.owns, mine.1, mine.2] at other
  have vault : (view.signOut false faults).1.vault = view.vault := by
    rw [signOut_vault, if_neg fun clears => notMine clears.2]
  refine .signsOut fresh leaves (Or.inr (congrArg _ vault)) ?_
    (signOut_session false)
  apply spares_congr
  · simp
  · simp
  · simp
  · rw [vault]
  · rw [vault]

theorem refreshOnce_keeps {sent : Token → Stage} {limited : Bool}
    (fresh : past.bind Stage.fresh = none)
    (leaves : view.SessionOwned settled owned) :
    (view.refreshOnce sent limited faults).Keeps settled owned past view := by
  unfold refreshOnce
  split
  · exact .same fresh rfl rfl rfl
  · split
    · next other => exact endSuperseded_keeps fresh other leaves
    · split
      · exact .same fresh rfl rfl rfl
      · exact Keeps.emit (.same fresh rfl rfl rfl) fun _ same => by cases same

/-! #### Commits -/

section

variable {rotatedFrom fresh : Token} {rotation : Bool}

theorem keeps_committed {session : Session}
    (noFresh : past.bind Stage.fresh = none)
    (signedIn : view.store.session = some session)
    (holds : session.refreshToken = rotatedFrom)
    (fits : view.Holds rotatedFrom → view.SlotFits settled none)
    (changed : view.Mine ∨ out.view.vault.slot = view.vault.slot)
    (opened : out.view.store.closed = false) (after : out.view.Holds fresh)
    (gone : ∃ event ∈ out.events, event.Disposes owned rotatedFrom)
    (received : ∀ token, .received token ∈ out.events → token = fresh) :
    out.Keeps settled owned past view where
  has token has := by
    have held : view.Holds rotatedFrom := by
      unfold Holds
      rw [signedIn, ← holds]
      rfl
    refine accounts_of_held ?_ ?_ ?_ ((fits held).sent (some rotatedFrom))
      changed has
    · intro _ new
      rw [noFresh] at new
      cases new
    · intro _ sent
      cases sent
      exact Or.inr (Or.inr gone)
    · intro old signedIn'
      cases signedIn.symm.trans signedIn'
      exact Or.inl (congrArg some holds.symm)
  received token emitted := received token emitted ▸ .of_session after
  shut shut := by cases opened.symm.trans shut

theorem keeps_stored {stored : Session}
    (noFresh : past.bind Stage.fresh = none)
    (held : view.vault.slot = some stored)
    (ofToken : stored.refreshToken = rotatedFrom)
    (session : out.view.store.session = view.store.session)
    (closed : out.view.store.closed = view.store.closed)
    (after : out.view.vault.slot.map (·.refreshToken) = some fresh)
    (gone : ∃ event ∈ out.events, event.Disposes owned rotatedFrom)
    (received : ∀ token, .received token ∈ out.events → token = fresh) :
    out.Keeps settled owned past view where
  has token has := by
    rcases has with holds | stores | new
    · refine .of_session ?_
      unfold Holds
      rw [session]
      exact holds
    · rw [held] at stores
      cases stores
      rw [← ofToken] at gone
      exact Or.inr (Or.inr gone)
    · rw [noFresh] at new
      cases new
  received token emitted := received token emitted ▸ .of_slot after
  shut shut signedIn := ⟨closed.symm.trans shut, session ▸ signedIn⟩

theorem carried_spares (spares : view.SparesOwned owned fresh)
    (inherits : rotation = true → view.SparesOwned owned rotatedFrom)
    (sameLogin : rotation = true → fresh.login = rotatedFrom.login) :
    (view.withMarks (view.carriedMarks rotatedFrom fresh rotation)).SparesOwned
      owned fresh := by
  intro spared
  obtain ⟨mark, on, other⟩ := spares_iff.mp spared
  rcases carried_cases mark with ⟨_, mark⟩ | ⟨_, rotated, mark⟩
  · exact spares (spares_iff.mpr ⟨mark, on, other⟩)
  · rw [sameLogin rotated]
    exact inherits rotated (spares_iff.mpr ⟨mark, on, other⟩)

/-- A pair that is not committed is handed over. -/
theorem discarded_keeps (noFresh : past.bind Stage.fresh = none)
    (sameLogin : rotation = true → fresh.login = rotatedFrom.login)
    (spares : view.SparesOwned owned fresh)
    (inherits : rotation = true → view.SparesOwned owned rotatedFrom) :
    ((view.withMarks
      (view.carriedMarks rotatedFrom fresh rotation)).done.revoke fresh).Keeps
      settled owned past view ∧
    ((view.withMarks
      (view.carriedMarks rotatedFrom fresh rotation)).done.revoke
      fresh).Accounts settled owned fresh := by
  have spares' := carried_spares spares inherits sameLogin
  refine ⟨.revokes rfl rfl rfl ?_ spares', accounts_revoke (Or.inr spares')⟩
  intro _ new
  rw [noFresh] at new
  cases new

end

theorem Holds.discards {rotatedFrom : Token}
    (missed : view.store.closed = false → ∀ session,
      view.store.session = some session →
      session.refreshToken ≠ rotatedFrom) : view.Discards rotatedFrom := by
  cases shut : view.store.closed with
  | true => exact Or.inl shut
  | false =>
      refine Or.inr fun held => ?_
      obtain ⟨session, signedIn, same⟩ := Option.map_eq_some_iff.mp held
      exact missed shut session signedIn same

/-- A refresh's pair. -/
theorem commitPair_keeps {rotatedFrom fresh : Token} {next : View → Outcome}
    (noFresh : past.bind Stage.fresh = none)
    (commits : view.MayCommit settled owned rotatedFrom [rotatedFrom, fresh])
    (sameLogin : fresh.login = rotatedFrom.login)
    (goesOn : ∀ held, (next held).view = held)
    (quiet : ∀ held token, .received token ∉ (next held).events) :
    (((view.commitPair rotatedFrom fresh true faults next).emit
      (.rotated rotatedFrom)).emit (.received fresh)).Keeps settled owned past
      view := by
  have rotates : ∀ held : Outcome, ∃ event ∈ ((held.emit
      (.rotated rotatedFrom)).emit (.received fresh)).events,
      event.Disposes owned rotatedFrom := fun held =>
    ⟨.rotated rotatedFrom, List.mem_cons_of_mem _ List.mem_cons_self, rfl⟩
  unfold commitPair
  rcases commitRefresh_cases view faults rotatedFrom fresh true with
    ⟨missed, discarded⟩ | ⟨session, shut, mine, held, ofToken, stored⟩ |
    ⟨session, vault, marks, open_, signedIn, holds, mirrors, committed⟩
  · rw [discarded]
    have hands := commits.2 (Holds.discards missed)
    obtain ⟨keeps, accounted⟩ := discarded_keeps noFresh (fun _ => sameLogin)
      (hands fresh (by simp)) fun _ => hands rotatedFrom (by simp)
    apply Keeps.emit (keeps.emit fun _ same => by cases same)
    intro token same
    cases same
    exact Accounts.emit (accounted.emit _) _
  · rw [stored]
    apply keeps_stored noFresh held ofToken rfl rfl rfl (rotates _)
    intro token emitted
    simpa [Outcome.emit, View.done] using emitted
  · rw [committed]
    apply keeps_committed noFresh signedIn holds commits.1 _ _ _ (rotates _)
    · intro token emitted
      simpa [Outcome.emit, quiet] using emitted
    · simp only [Outcome.emit, goesOn]
      rcases mirrors with mirrors | ⟨_, _, same, _⟩
      · exact mirrors.slot.imp_left And.left
      · exact Or.inr (congrArg _ same)
    · simp only [Outcome.emit, goesOn]
      exact open_
    · simp only [Outcome.emit, goesOn]
      rfl

/-- The pair of a password change or an activation. -/
theorem accountPair_keeps {used fresh : Token}
    (noFresh : past.bind Stage.fresh = none)
    (commits : view.MayCommit settled owned used [fresh]) :
    ((view.accountPair used fresh faults).emit (.received fresh)).Keeps settled
      owned past view := by
  have exchanges : ∀ held : View, ∃ event ∈ ((held.done.emit
      (.exchanged used)).emit (.received fresh)).events,
      event.Disposes owned used := fun held =>
    ⟨.exchanged used, List.mem_cons_of_mem _ List.mem_cons_self, rfl⟩
  unfold accountPair
  rcases commitRefresh_cases view faults used fresh false with
    ⟨missed, discarded⟩ | ⟨session, shut, mine, held, ofToken, stored⟩ |
    ⟨session, vault, marks, open_, signedIn, holds, mirrors, committed⟩
  · rw [discarded]
    have hands := commits.2 (Holds.discards missed)
    have never : false = true → view.SparesOwned owned used := fun no => by
      cases no
    obtain ⟨keeps, accounted⟩ := discarded_keeps noFresh (fun no => by cases no)
      (hands fresh (by simp)) never
    apply keeps.emit
    intro token same
    cases same
    exact accounted.emit _
  · rw [stored]
    apply keeps_stored noFresh held ofToken
    · rfl
    · rfl
    · rfl
    · exact exchanges _
    · intro token emitted
      simpa [Outcome.emit, View.done] using emitted
  · rw [committed]
    apply keeps_committed noFresh signedIn holds commits.1
    · rcases mirrors with mirrors | ⟨_, _, same, _⟩
      · exact mirrors.slot.imp_left And.left
      · exact Or.inr (congrArg _ same)
    · exact open_
    · rfl
    · exact exchanges _
    · intro token emitted
      simpa [Outcome.emit, View.done] using emitted

/-- The refresh token was refused: the session that holds it is out. -/
theorem clearIfHolds_keeps (noFresh : past.bind Stage.fresh = none)
    (fits : view.Holds token → view.SlotFits settled none) :
    ((view.clearIfHolds token faults).done.emit (.refused token)).Keeps settled
      owned past view := by
  have refuses : (Event.refused token).Disposes owned token := rfl
  rcases clearIfHolds_cases view faults token with
    ⟨_, same⟩ | ⟨session, signedIn, holds, cleared⟩
  · rw [same]
    exact Keeps.emit (.same noFresh rfl rfl rfl) fun _ same => by cases same
  · rw [cleared]
    have held : view.Holds token := by
      unfold Holds
      rw [signedIn, ← holds]
      rfl
    refine ⟨fun other has => ?_, ?_, fun _ signedIn => by cases signedIn⟩
    · refine accounts_of_held ?_ ?_ ?_ ((fits held).sent (some token)) ?_ has
      · intro _ new
        rw [noFresh] at new
        cases new
      · intro _ sent
        cases sent
        exact accounts_emit refuses
      · intro old signedIn'
        cases signedIn.symm.trans signedIn'
        exact Or.inl (congrArg some holds.symm)
      · exact (cleared_slot id ((fits held).sent none)).imp_left And.right
    · intro other emitted
      simp [Outcome.emit, View.done] at emitted

theorem replaceUser_keeps {epoch : Nat} {user : User}
    (noFresh : past.bind Stage.fresh = none) :
    (view.replaceUser epoch user faults).done.Keeps settled owned past
      view := by
  rcases replaceUser_cases view faults epoch user with
    same | ⟨session, vault, open_, signedIn, _, stored, replaced⟩
  · rw [same]
    exact .same noFresh rfl rfl rfl
  · rw [replaced]
    refine .same noFresh ?_ ?_ rfl
    · rw [signedIn]
      rfl
    · rcases stored with rfl | ⟨stored, _, _, held, _, ofToken, rfl⟩
      · rfl
      · rw [held]
        exact congrArg some ofToken.symm

theorem logout_keeps (noFresh : past.bind Stage.fresh = none)
    (leaves : view.MayLeave settled owned) :
    (view.logout faults).Keeps settled owned past view := by
  unfold logout
  simp only [signOut_taken]
  refine Keeps.emit ?_ fun _ same => by cases same
  refine .signsOut noFresh leaves.1 ?_ ?_ (signOut_session false)
  · rw [signOut_vault]
    exact cleared_slot (fun clears => clears.2) leaves.2
  · apply spares_congr
    · simp
    · simp
    · simp
    · rw [signOut_vault]
      split <;> simp
    · rw [signOut_vault]
      split <;> simp

/-- A client that was dropped: what it held stays stored, or is handed over. -/
theorem close_keeps (noFresh : past.bind Stage.fresh = none)
    (stored : view.store.persistence = true → ∀ session ∈ view.store.session,
      view.vault.slot.map (·.refreshToken) = some session.refreshToken ∨
        settled session.refreshToken) :
    (view.close faults).Keeps settled owned past view := by
  have vault : (view.signOut true faults).1.vault = view.vault := by
    rw [signOut_vault, if_neg (by simp)]
  unfold close
  simp only [signOut_taken]
  split
  · next on =>
      refine ⟨?_, (fun _ emitted => by cases emitted), ?_⟩
      · intro other has
        rcases has with held | stores | new
        · obtain ⟨session, signedIn, rfl⟩ := Option.map_eq_some_iff.mp held
          rcases stored on session signedIn with stays | known
          · exact .of_slot (vault ▸ stays)
          · exact .of_settled known
        · exact .of_slot (vault ▸ stores)
        · rw [noFresh] at new
          cases new
      · intro _ signedIn
        simp [View.done] at signedIn
  · next off =>
      refine .signsOut noFresh ?_ (Or.inr (congrArg _ vault)) ?_
        (signOut_session true)
      · intro session _
        refine Or.inr fun spared => ?_
        exact (off (spares_iff.mp spared).2.1).elim
      · apply spares_congr
        · simp
        · simp
        · simp
        · rw [vault]
        · rw [vault]

theorem close_session (view : View) (faults : Faults) :
    (view.close faults).view.store.session = none := by
  have out : (view.signOut true faults).1.store.session = none :=
    signOut_session true
  unfold close
  simp only [signOut_taken]
  split
  · exact out
  · cases view.store.session with
    | none => exact out
    | some old => exact out

end View

theorem Outcome.Keeps.note (keeps : out.Keeps settled owned past view)
    {event : Event} (quiet : ∀ token, event ≠ .received token) :
    (out.emit event).Keeps settled owned past view :=
  keeps.emit fun token same => (quiet token same).elim

/-- A new login's pair comes in; its profile is asked for next. -/
theorem Outcome.Keeps.arrives {next : Stage}
    (noFresh : past.bind Stage.fresh = none)
    (new : next.fresh = some token) :
    ((view.goesOn next).emit (.received token)).Keeps settled owned past
      view := by
  refine Outcome.Keeps.emit (.same noFresh rfl rfl rfl) ?_
  intro other same
  cases same
  exact Or.inl (Or.inr (Or.inr new))

/-- The profile of a new login could not be read: its pair is given back. -/
theorem Outcome.Keeps.givesBack {next : Stage}
    (new : next.fresh = some token)
    (session : later.store.session = view.store.session)
    (vault : later.vault = view.vault)
    (closed : later.store.closed = view.store.closed) :
    (later.done.emit (.sentLogout token)).Keeps settled owned (some next)
      view where
  has other has := by
    have gives : (Event.sentLogout token).Disposes owned token := rfl
    rcases has with held | stored | fresh
    · refine .of_session ?_
      unfold View.Holds
      exact session ▸ held
    · refine .of_slot ?_
      exact vault ▸ stored
    · cases new.symm.trans fresh
      exact accounts_emit gives
  received other emitted := by simp [Outcome.emit, View.done] at emitted
  shut shut signedIn := ⟨closed.symm.trans shut, session ▸ signedIn⟩

theorem View.publishFailed_store (gen : Nat) :
    (view.publishFailedIfCurrent gen).store.session = view.store.session ∧
    (view.publishFailedIfCurrent gen).vault = view.vault ∧
    (view.publishFailedIfCurrent gen).store.closed = view.store.closed := by
  unfold View.publishFailedIfCurrent
  split
  · exact ⟨rfl, rfl, rfl⟩
  · exact ⟨rfl, rfl, rfl⟩

theorem View.endChallenge_keeps {gen : Nat}
    (noFresh : past.bind Stage.fresh = none) :
    (view.endChallenge gen).done.Keeps settled owned past view := by
  unfold View.endChallenge
  split
  · exact .same noFresh rfl rfl rfl
  · exact .same noFresh rfl rfl rfl

theorem View.accountSend_keeps {epoch : Nat} {retried : Bool}
    (noFresh : past.bind Stage.fresh = none) :
    (view.accountSend epoch retried).Keeps settled owned past view := by
  unfold View.accountSend
  split
  · exact .same noFresh rfl rfl rfl
  · exact .same noFresh rfl rfl rfl

theorem View.accountSend_view (view : View) (epoch : Nat) (retried : Bool) :
    (view.accountSend epoch retried).view = view := by
  unfold View.accountSend
  split <;> rfl

theorem View.accountSend_quiet (view : View) (epoch : Nat) (retried : Bool)
    (token : Token) :
    .received token ∉ (view.accountSend epoch retried).events := by
  unfold View.accountSend
  split <;> simp [View.done, View.goesOn]

theorem resume_keeps {stage : Stage} {input : Input}
    (may : view.MayResume settled owned number input stage)
    (resumed : resume number view stage input = some out) :
    out.Keeps settled owned (some stage) view := by
  cases stage with
  | announced =>
      cases input with
      | proceed =>
          cases resumed
          refine Outcome.Keeps.note ?_ ?_
          · exact .same rfl rfl rfl rfl
          · intro _ same
            cases same
      | dropped =>
          cases resumed
          exact .same rfl rfl rfl rfl
      | _ => cases resumed
  | loginQueued gen =>
      cases input with
      | proceed faults =>
          cases resumed
          exact View.loginStart_keeps may
      | _ => cases resumed
  | loginSent gen =>
      cases input with
      | failed =>
          cases resumed
          obtain ⟨session, vault, closed⟩ := View.publishFailed_store gen
          exact .same rfl (congrArg _ session) (by rw [vault]) closed
      | challenge =>
          cases resumed
          unfold View.openChallenge
          split
          · exact .same rfl rfl rfl rfl
          · exact .same rfl rfl rfl rfl
      | pair =>
          cases resumed
          exact .arrives rfl rfl
      | _ => cases resumed
  | loginProfile gen token =>
      cases input with
      | me user faults =>
          cases resumed
          exact View.loginProfile_keeps (may rfl).1 (may rfl).2
      | failed =>
          cases resumed
          obtain ⟨session, vault, closed⟩ := View.publishFailed_store gen
          exact .givesBack rfl session vault closed
      | _ => cases resumed
  | totpQueued gen =>
      cases input with
      | proceed =>
          simp only [resume] at resumed
          split at resumed
          · cases resumed
            exact .same rfl rfl rfl rfl
          · cases resumed
            exact .same rfl rfl rfl rfl
      | _ => cases resumed
  | totpSent gen =>
      cases input with
      | failed =>
          cases resumed
          exact .same rfl rfl rfl rfl
      | refused =>
          cases resumed
          exact View.endChallenge_keeps rfl
      | pair =>
          cases resumed
          exact .arrives rfl rfl
      | _ => cases resumed
  | totpProfile gen token =>
      cases input with
      | me user faults =>
          cases resumed
          exact View.totpProfile_keeps (may rfl).1 (may rfl).2
      | failed =>
          cases resumed
          exact .givesBack rfl rfl rfl rfl
      | _ => cases resumed
  | restoreQueued gen =>
      cases input with
      | proceed faults =>
          cases resumed
          exact View.restoreStart_keeps may
      | _ => cases resumed
  | restoreSent gen stored family =>
      cases input with
      | failed =>
          cases resumed
          exact .same rfl rfl rfl rfl
      | refused faults =>
          cases resumed
          exact View.refused_keeps
      | pair faults =>
          cases resumed
          exact View.restorePair_keeps (may rfl).1 (may rfl).2 rfl
      | _ => cases resumed
  | refreshQueued seen =>
      cases input with
      | proceed faults =>
          cases resumed
          unfold View.refreshStart
          split
          · exact .same rfl rfl rfl rfl
          · exact View.refreshOnce_keeps rfl may
      | limited =>
          cases resumed
          unfold View.refreshStart
          split
          · exact .same rfl rfl rfl rfl
          · exact View.refreshOnce_keeps rfl may
      | _ => cases resumed
  | refreshSent token =>
      cases input with
      | failed =>
          cases resumed
          exact .same rfl rfl rfl rfl
      | refused faults =>
          cases resumed
          exact View.clearIfHolds_keeps rfl (may.2 rfl)
      | pair faults =>
          cases resumed
          exact View.commitPair_keeps rfl (may.1 rfl) rfl (fun _ => rfl)
            (by simp [View.done])
      | _ => cases resumed
  | profileOut epoch =>
      cases input with
      | me user faults =>
          cases resumed
          exact View.replaceUser_keeps rfl
      | failed =>
          cases resumed
          exact .same rfl rfl rfl rfl
      | dropped =>
          cases resumed
          exact .same rfl rfl rfl rfl
      | _ => cases resumed
  | accountQueued epoch =>
      cases input with
      | proceed =>
          cases resumed
          exact View.accountSend_keeps rfl
      | dropped =>
          cases resumed
          exact .same rfl rfl rfl rfl
      | _ => cases resumed
  | accountSent epoch used retried =>
      cases input with
      | failed =>
          cases resumed
          exact .same rfl rfl rfl rfl
      | dropped =>
          cases resumed
          exact .same rfl rfl rfl rfl
      | refused faults =>
          simp only [resume] at resumed
          split at resumed
          · cases resumed
            exact .same rfl rfl rfl rfl
          · cases resumed
            exact View.refreshOnce_keeps rfl (may.2.2 rfl)
      | pair faults =>
          cases resumed
          exact View.accountPair_keeps rfl (may.2.1 rfl)
      | expired => exact (may.1 rfl).elim
      | _ => cases resumed
  | accountRefresh epoch token =>
      cases input with
      | failed =>
          cases resumed
          exact .same rfl rfl rfl rfl
      | dropped =>
          cases resumed
          exact .same rfl rfl rfl rfl
      | refused faults =>
          cases resumed
          exact View.clearIfHolds_keeps rfl (may.2.2 rfl)
      | pair faults =>
          cases resumed
          exact View.commitPair_keeps rfl (may.2.1 rfl) rfl
            (fun held => held.accountSend_view epoch true)
            (fun held => held.accountSend_quiet epoch true)
      | expired => exact (may.1 rfl).elim
      | _ => cases resumed
  | closing =>
      cases input with
      | proceed faults =>
          cases resumed
          exact View.close_keeps rfl may
      | _ => cases resumed

theorem begin_keeps {op : Op} (dropped : op ≠ .drop)
    (leaves : op.isLogout = true → view.MayLeave settled owned)
    (begun : begin view op = some out) :
    out.Keeps settled owned none view := by
  cases op with
  | enable =>
      simp only [begin] at begun
      split at begun
      · cases begun
      · cases begun
        exact .same rfl rfl rfl rfl
  | login =>
      cases begun
      exact .same rfl rfl rfl rfl
  | totp gen =>
      simp only [begin] at begun
      split at begun
      · cases begun
      · cases begun
        exact .same rfl rfl rfl rfl
  | cancel gen =>
      cases begun
      exact View.endChallenge_keeps rfl
  | restore =>
      cases begun
      refine Outcome.Keeps.note ?_ ?_
      · exact .same rfl rfl rfl rfl
      · intro _ same
        cases same
  | refresh =>
      cases begun
      exact .same rfl rfl rfl rfl
  | profile =>
      cases begun
      exact .same rfl rfl rfl rfl
  | account =>
      cases begun
      exact .same rfl rfl rfl rfl
  | logout faults =>
      cases begun
      exact View.logout_keeps rfl (leaves rfl)
  | drop => exact (dropped rfl).elim

end

end Brook.SignedIn
