import Brook.SignedIn.Effects
import Brook.Transition.Run

namespace Brook.SignedIn

open Transition

/-! A login that its owner signed out completely is never restored again. -/

/-- The login was held, or stored, when the slot's owner signed out and the
sign-out was complete. -/
def Ended (log : List Entry) (login : LoginId) : Prop :=
  ∃ entry ∈ log, ∃ held stored,
    entry.event = .loggedOut held stored true ∧
    entry.vault.owner = some entry.client ∧
    (held = some login ∨ stored = some login)

/-- No restore, of whatever client and process, installs an ended login. -/
def NoRevival : List Entry → Prop
  | [] => True
  | entry :: older =>
      (∀ gen login, entry.event = .installed gen login true →
        ¬ Ended older login) ∧
      NoRevival older

def Event.isLogout : Event → Bool
  | .loggedOut _ _ _ => true
  | _ => false

/-! ### One section -/

section

variable {ended : LoginId → Prop} {issued : Nat} {view later : View}

structure View.Safe (ended : LoginId → Prop) (issued : Nat) (view : View) :
    Prop where
  slotIssued : ∀ stored, view.vault.slot = some stored →
    stored.refreshToken.login < issued
  sessionIssued : ∀ session, view.store.session = some session →
    session.refreshToken.login < issued
  fenced : ∀ stored, view.vault.slot = some stored →
    ended stored.refreshToken.login → view.vault.fenced = true
  live : view.vault.owner = some view.client → ∀ session,
    view.store.session = some session → ¬ ended session.refreshToken.login

/-- The attempt that the stage belongs to. -/
def Stage.gen : Stage → Option Nat
  | .loginQueued gen | .loginSent gen | .loginProfile gen _
  | .totpQueued gen | .totpSent gen | .totpProfile gen _
  | .restoreQueued gen | .restoreSent gen _ _ => some gen
  | _ => none

/-- The login that the stage may come to install. -/
def Stage.brings : Stage → Option LoginId
  | .loginProfile _ token | .totpProfile _ token => some token.login
  | .restoreSent _ stored _ => some stored.refreshToken.login
  | _ => none

structure Stage.Safe (ended : LoginId → Prop) (issued : Nat) (view : View)
    (stage : Stage) : Prop where
  issued : ∀ login, stage.brings = some login → login < issued
  gen : ∀ gen, stage.gen = some gen → gen ≤ view.store.loginGen
  live : view.vault.owner = some view.client →
    stage.gen = some view.store.loginGen → ∀ login,
    stage.brings = some login → ¬ ended login
  on : ∀ gen stored family, stage = .restoreSent gen stored family →
    view.store.persistence = true

/-- The section's client is the same, the slot has the same owner, and no
attempt comes back. -/
structure View.Moves (ended : LoginId → Prop) (issued : Nat)
    (view later : View) : Prop extends later.Safe ended issued where
  client : later.client = view.client
  owner : later.vault.owner = view.vault.owner
  gen : view.store.loginGen ≤ later.store.loginGen
  on : view.store.persistence = true → later.store.persistence = true

structure Outcome.Lands (ended : LoginId → Prop) (issued : Nat) (view : View)
    (out : Outcome) : Prop where
  moves : view.Moves ended issued out.view
  stage : ∀ stage, out.stage = some stage →
    stage.Safe ended issued out.view
  restored : ∀ gen login, .installed gen login true ∈ out.events →
    ¬ ended login
  noLogout : ∀ event ∈ out.events, event.isLogout = false

theorem View.Safe.mono {more : Nat} (safe : view.Safe ended issued)
    (le : issued ≤ more) : view.Safe ended more where
  slotIssued stored held :=
    Nat.lt_of_lt_of_le (safe.slotIssued stored held) le
  sessionIssued session held :=
    Nat.lt_of_lt_of_le (safe.sessionIssued session held) le
  fenced := safe.fenced
  live := safe.live

namespace View

theorem Moves.refl (safe : view.Safe ended issued) :
    view.Moves ended issued view :=
  ⟨safe, rfl, rfl, Nat.le_refl _, id⟩

theorem Moves.trans {last : View} (first : view.Moves ended issued later)
    (second : later.Moves ended issued last) :
    view.Moves ended issued last :=
  ⟨second.toSafe, second.client.trans first.client,
    second.owner.trans first.owner, Nat.le_trans first.gen second.gen,
    fun on => second.on (first.on on)⟩

/-- A change of the store alone that signs nobody in. -/
theorem Safe.store (safe : view.Safe ended issued) {store : Store}
    (session : ∀ session, store.session = some session →
      view.store.session = some session)
    (gen : view.store.loginGen ≤ store.loginGen)
    (on : view.store.persistence = true → store.persistence = true) :
    view.Moves ended issued { view with store := store } where
  slotIssued := safe.slotIssued
  sessionIssued held signedIn :=
    safe.sessionIssued held (session held signedIn)
  fenced := safe.fenced
  live owner held signedIn := safe.live owner held (session held signedIn)
  client := rfl
  owner := rfl
  gen := gen
  on := on

theorem safe_fences {faults : Faults} {vault : Vault}
    (safe : view.Safe ended issued) (fences : view.vault.Fences faults vault) :
    view.Moves ended issued { view with vault := vault } := by
  cases fences with
  | kept => exact .refl safe
  | fenced => exact
      { slotIssued := safe.slotIssued
        sessionIssued := safe.sessionIssued
        fenced := fun _ _ _ => rfl
        live := safe.live
        client := rfl
        owner := rfl
        gen := Nat.le_refl _
        on := id }

theorem Safe.clear (safe : view.Safe ended issued) (faults : Faults) :
    view.Moves ended issued
      { view with vault := (view.vault.clear faults).1 } := by
  rcases Vault.clear_cases faults view.vault with
    cleared | ⟨vault, _, fences, _, cleared⟩
  · rw [cleared]
    exact
      { slotIssued := by simp
        sessionIssued := safe.sessionIssued
        fenced := by simp
        live := safe.live
        client := rfl
        owner := rfl
        gen := Nat.le_refl _
        on := id }
  · rw [cleared]
    exact safe_fences safe fences

theorem Safe.clearMine (safe : view.Safe ended issued) (faults : Faults)
    (mine : Prop) [Decidable mine] :
    view.Moves ended issued { view with
      vault := if mine then (view.vault.clear faults).1 else view.vault } := by
  split
  · exact safe.clear faults
  · exact .refl safe

/-- A session that may be stored, and the slot that follows it. -/
theorem Safe.mirrors (safe : view.Safe ended issued)
    {marks kept : Table Token Nat} {session : Session} {faults : Faults}
    {marking : Marking} {vault : Vault} {store : Store}
    (mirrors : Mirrors view marks session faults marking vault kept)
    (fresh : session.refreshToken.login < issued)
    (live : view.vault.owner = some view.client →
      ¬ ended session.refreshToken.login)
    (held : store.session = some session)
    (gen : view.store.loginGen ≤ store.loginGen)
    (on : view.store.persistence = true → store.persistence = true) :
    view.Moves ended issued ⟨view.client, store, vault⟩ := by
  have sessionIssued : ∀ other, store.session = some other →
      other.refreshToken.login < issued := by
    intro other signedIn
    cases held.symm.trans signedIn
    exact fresh
  have alive : view.vault.owner = some view.client →
      ∀ other, store.session = some other →
      ¬ ended other.refreshToken.login := by
    intro owner other signedIn
    cases held.symm.trans signedIn
    exact live owner
  cases mirrors with
  | off =>
      exact ⟨⟨safe.slotIssued, sessionIssued, safe.fenced, alive⟩, rfl, rfl,
        gen, on⟩
  | landed mine =>
      refine ⟨⟨?_, sessionIssued, ?_, alive⟩, rfl, rfl, gen, on⟩
      · intro stored slot
        cases slot
        exact fresh
      · intro stored slot past
        cases slot
        exact (live mine.2 past).elim
  | failed mine fails fences =>
      have moves := safe_fences safe fences
      refine ⟨⟨moves.slotIssued, sessionIssued, moves.fenced, ?_⟩, rfl,
        moves.owner, gen, on⟩
      intro owner
      exact alive (moves.owner ▸ owner)

variable {gen : Nat} {session : Session} {faults : Faults}

theorem Safe.installForLogin (safe : view.Safe ended issued)
    (restored : Option Nat) (fresh : session.refreshToken.login < issued)
    (live : view.vault.owner = some view.client → view.store.loginGen = gen →
      ¬ ended session.refreshToken.login) :
    view.Moves ended issued
      (view.installForLogin gen session restored faults).1 := by
  rcases installForLogin_cases view faults gen session restored with
    ⟨_, same⟩ | ⟨_, _, _, same⟩ | ⟨vault, marks, current, mirrors, installed⟩
  · rw [same]
    exact .refl safe
  · rw [same]
    exact .refl safe
  · rw [installed]
    exact safe.mirrors mirrors fresh (live · current.2) rfl (Nat.le_refl _) id

theorem Safe.installForChallenge (safe : view.Safe ended issued)
    (fresh : session.refreshToken.login < issued)
    (live : view.vault.owner = some view.client → view.store.loginGen = gen →
      ¬ ended session.refreshToken.login) :
    view.Moves ended issued
      (view.installForChallenge gen session faults).1 := by
  rcases installForChallenge_cases view faults gen session with
    ⟨_, same⟩ | ⟨vault, marks, current, mirrors, installed⟩
  · rw [same]
    exact .refl safe
  · rw [installed]
    exact safe.mirrors mirrors fresh (live · current.1.2) rfl (Nat.le_refl _) id

/-- `fresh` is in the login of the token it is committed for, or in a new
one. -/
theorem Safe.commitRefresh (safe : view.Safe ended issued)
    {rotatedFrom fresh : Token} {rotation : Bool}
    (sameOrNew : fresh.login = rotatedFrom.login ∨
      fresh.login < issued ∧ ¬ ended fresh.login) :
    view.Moves ended issued
      (view.commitRefresh rotatedFrom fresh rotation faults).1 := by
  rcases commitRefresh_cases view faults rotatedFrom
      fresh rotation with ⟨_, discarded⟩ | ⟨stored, _, _, held, ofToken, kept⟩ |
    ⟨session, vault, marks, live, signedIn, holds, mirrors, committed⟩
  · rw [discarded]
    exact safe.store (fun _ signedIn => signedIn) (Nat.le_refl _) id
  · rw [kept]
    refine ⟨⟨?_, safe.sessionIssued, ?_, safe.live⟩, rfl, rfl, Nat.le_refl _, id⟩
    · intro next slot
      cases slot
      rcases sameOrNew with same | ⟨old, _⟩
      · have bound := safe.slotIssued stored held
        rwa [ofToken, ← same] at bound
      · exact old
    · intro next slot past
      cases slot
      apply safe.fenced stored held
      rcases sameOrNew with same | ⟨_, new⟩
      · rw [ofToken, ← same]
        exact past
      · exact (new past).elim
  · rw [committed]
    have old : fresh.login < issued := by
      rcases sameOrNew with same | ⟨old, _⟩
      · rw [same, ← holds]
        exact safe.sessionIssued session signedIn
      · exact old
    have notEnded : view.vault.owner = some view.client →
        ¬ ended fresh.login := by
      intro owner
      rcases sameOrNew with same | ⟨_, new⟩
      · rw [same, ← holds]
        exact safe.live owner session signedIn
      · exact new
    rcases mirrors with mirrors | ⟨_, _, rfl, _⟩
    · exact safe.mirrors mirrors old notEnded rfl (Nat.le_refl _) id
    · refine ⟨⟨safe.slotIssued, ?_, safe.fenced, ?_⟩, rfl, rfl,
        Nat.le_refl _, id⟩
      · intro next held
        cases held
        exact old
      · intro owner next held
        cases held
        exact notEnded owner

theorem Safe.signOut (safe : view.Safe ended issued) (close : Bool) :
    view.Moves ended issued (view.signOut close faults).1 := by
  have cleared := safe.clearMine faults (close = false ∧ view.Mine)
  refine ⟨⟨?_, by simp, ?_, by simp⟩, by simp, ?_, by simp, by simp⟩
  · rw [signOut_vault]
    exact cleared.slotIssued
  · rw [signOut_vault]
    exact cleared.fenced
  · rw [signOut_vault]
    exact cleared.owner

theorem Safe.takeOut (safe : view.Safe ended issued) {displaced : View}
    {taken : Option Session}
    (out : view.takeOutForLogin gen faults = some (displaced, taken)) :
    view.Moves ended issued displaced := by
  rcases takeOutForLogin_cases view faults gen with
    ⟨_, stale⟩ | ⟨_, _, nobody⟩ | ⟨old, _, _, took⟩
  · cases stale.symm.trans out
  · cases nobody.symm.trans out
    exact safe.store (fun _ signedIn => signedIn) (Nat.le_refl _) id
  · cases took.symm.trans out
    have cleared := safe.clearMine faults view.Mine
    exact ⟨⟨cleared.slotIssued, by simp, cleared.fenced, by simp⟩, rfl,
      cleared.owner, Nat.le_refl _, id⟩

theorem Safe.clearIfHolds (safe : view.Safe ended issued) (rejected : Token) :
    view.Moves ended issued (view.clearIfHolds rejected faults) := by
  rcases clearIfHolds_cases view faults rejected with
    ⟨_, same⟩ | ⟨session, _, _, took⟩
  · rw [same]
    exact .refl safe
  · rw [took]
    have cleared := safe.clearMine faults view.Mine
    exact ⟨⟨cleared.slotIssued, by simp, cleared.fenced, by simp⟩, rfl,
      cleared.owner, Nat.le_refl _, id⟩

theorem Safe.clearPersistedIfHolds (safe : view.Safe ended issued)
    (refused : Token) :
    view.Moves ended issued (view.clearPersistedIfHolds gen refused faults) := by
  rcases clearPersistedIfHolds_cases view faults gen refused with same | ⟨_, _, _, _, _, cleared⟩
  · rw [same]
    exact .refl safe
  · rw [cleared]
    exact safe.clear faults

theorem Safe.replaceUser (safe : view.Safe ended issued) (epoch : Nat)
    (user : User) :
    view.Moves ended issued (view.replaceUser epoch user faults) := by
  rcases replaceUser_cases view faults epoch user with
    same | ⟨session, vault, _, signedIn, _, rewrites, replaced⟩
  · rw [same]
    exact .refl safe
  · rw [replaced]
    have sessionIssued : session.refreshToken.login < issued :=
      safe.sessionIssued session signedIn
    have live : view.vault.owner = some view.client →
        ¬ ended session.refreshToken.login :=
      fun owner => safe.live owner session signedIn
    rcases rewrites with rfl | ⟨stored, mine, _, held, open_, ofToken, rfl⟩
    · refine ⟨⟨safe.slotIssued, ?_, safe.fenced, ?_⟩, rfl, rfl,
        Nat.le_refl _, id⟩
      · intro next signedIn'
        cases signedIn'
        exact sessionIssued
      · intro owner next signedIn'
        cases signedIn'
        exact live owner
    · refine ⟨⟨?_, ?_, ?_, ?_⟩, rfl, rfl, Nat.le_refl _, id⟩
      · intro next slot
        cases slot
        exact sessionIssued
      · intro next signedIn'
        cases signedIn'
        exact sessionIssued
      · intro next slot past
        cases slot
        exact (live mine.2 past).elim
      · intro owner next signedIn'
        cases signedIn'
        exact live owner

end View

namespace Outcome

variable {out : Outcome} {stage : Stage} {event : Event}

theorem Lands.done (moves : view.Moves ended issued later) :
    later.done.Lands ended issued view :=
  ⟨moves, by simp [View.done], by simp [View.done], by simp [View.done]⟩

theorem Lands.goesOn (moves : view.Moves ended issued later)
    (safe : stage.Safe ended issued later) :
    (later.goesOn stage).Lands ended issued view := by
  refine ⟨moves, ?_, by simp [View.goesOn], by simp [View.goesOn]⟩
  intro next goesOn
  cases goesOn
  exact safe

theorem Lands.emit (lands : out.Lands ended issued view)
    (restored : ∀ gen login, event = .installed gen login true →
      ¬ ended login)
    (noLogout : event.isLogout = false) :
    (out.emit event).Lands ended issued view := by
  refine ⟨lands.moves, lands.stage, ?_, ?_⟩
  · intro gen login emitted
    rcases List.mem_cons.mp emitted with same | earlier
    · exact restored gen login same.symm
    · exact lands.restored gen login earlier
  · intro other emitted
    rcases List.mem_cons.mp emitted with rfl | earlier
    · exact noLogout
    · exact lands.noLogout other earlier

/-- What follows a change of the store. -/
theorem Lands.after (lands : out.Lands ended issued later)
    (moves : view.Moves ended issued later) : out.Lands ended issued view :=
  { lands with moves := moves.trans lands.moves }

theorem Lands.revoke (lands : out.Lands ended issued view) (token : Token) :
    (out.revoke token).Lands ended issued view := by
  have moves : view.Moves ended issued (out.view.unmark token) :=
    lands.moves.trans
      (lands.moves.toSafe.store (fun _ signedIn => signedIn) (Nat.le_refl _) id)
  have handed : (out.emit (.handed token (out.view.spares token))).Lands ended
      issued view := lands.emit (by simp) rfl
  refine ⟨moves, ?_, handed.restored, handed.noLogout⟩
  intro stage goesOn
  have safe := lands.stage stage goesOn
  exact ⟨safe.issued, safe.gen, safe.live, safe.on⟩

theorem Lands.revokeAll (lands : out.Lands ended issued view)
    (taken : Option Session) :
    (out.revokeAll taken).Lands ended issued view := by
  cases taken with
  | none => exact lands
  | some old => exact lands.revoke _

end Outcome

/-- A stage that brings nothing only has to belong to an attempt begun. -/
theorem Stage.Safe.of_brings {stage : Stage} (brings : stage.brings = none)
    (gen : ∀ gen, stage.gen = some gen → gen ≤ view.store.loginGen) :
    stage.Safe ended issued view := by
  refine ⟨by simp [brings], gen, by simp [brings], ?_⟩
  intro gen stored family same
  cases same
  cases brings

/-- A stage that brings a login of its own. -/
theorem Stage.Safe.ofNew {stage : Stage} {gen login : Nat}
    (brings : stage.brings = some login) (ofStage : stage.gen = some gen)
    (plain : ∀ gen stored family, stage ≠ .restoreSent gen stored family)
    (old : login < issued) (new : ¬ ended login)
    (begun : gen ≤ view.store.loginGen) : stage.Safe ended issued view := by
  refine ⟨?_, ?_, ?_, fun _ _ _ same => (plain _ _ _ same).elim⟩
  · intro other brought
    cases brings.symm.trans brought
    exact old
  · intro attempt same
    cases ofStage.symm.trans same
    exact begun
  · intro _ _ other brought
    cases brings.symm.trans brought
    exact new

namespace View

open Outcome

variable {faults : Faults} {gen : Nat}

theorem Safe.publishFailed (safe : view.Safe ended issued) (gen : Nat) :
    view.Moves ended issued (view.publishFailedIfCurrent gen) := by
  unfold publishFailedIfCurrent
  split
  · exact safe.store (fun _ signedIn => signedIn) (Nat.le_refl _) id
  · exact .refl safe

theorem Safe.openChallenge (safe : view.Safe ended issued) (gen : Nat) :
    view.Moves ended issued (view.openChallenge gen) := by
  unfold View.openChallenge
  split
  · exact safe.store (fun _ signedIn => signedIn) (Nat.le_refl _) id
  · exact .refl safe

theorem Safe.endChallenge (safe : view.Safe ended issued) (gen : Nat) :
    view.Moves ended issued (view.endChallenge gen) := by
  unfold View.endChallenge
  split
  · exact safe.store (fun _ signedIn => signedIn) (Nat.le_succ _) id
  · exact .refl safe

theorem Safe.loginStart (safe : view.Safe ended issued)
    (begun : gen ≤ view.store.loginGen) :
    (view.loginStart gen faults).Lands ended issued view := by
  unfold View.loginStart
  cases took : view.takeOutForLogin gen faults with
  | none => exact .done (.refl safe)
  | some out =>
      obtain ⟨displaced, taken⟩ := out
      have moves := safe.takeOut took
      apply Lands.revokeAll
      apply Lands.goesOn moves
      apply Stage.Safe.of_brings rfl
      intro attempt ofStage
      cases ofStage
      exact Nat.le_trans begun moves.gen

theorem Safe.loginProfile (safe : view.Safe ended issued) {token : Token}
    (user : User) (staged : (Stage.loginProfile gen token).Safe ended issued
      view) :
    (view.loginProfile gen token user faults).Lands ended issued view := by
  have moves : view.Moves ended issued
      (view.installForLogin gen ⟨user, token⟩ none faults).1 :=
    safe.installForLogin none (staged.issued _ rfl)
    (fun owner current => staged.live owner (by rw [current]; rfl) _ rfl)
  unfold View.loginProfile
  split
  · next held epoch installed =>
      rw [installed] at moves
      exact Lands.emit (.done moves) (by simp) rfl
  · next held _ _ refused =>
      rw [refused] at moves
      exact Lands.revoke (.done moves) token

theorem Safe.totpProfile (safe : view.Safe ended issued) {token : Token}
    (user : User) (staged : (Stage.totpProfile gen token).Safe ended issued
      view) :
    (view.totpProfile gen token user faults).Lands ended issued view := by
  have moves : view.Moves ended issued
      (view.installForChallenge gen ⟨user, token⟩ faults).1 :=
    safe.installForChallenge (staged.issued _ rfl)
    (fun owner current => staged.live owner (by rw [current]; rfl) _ rfl)
  unfold View.totpProfile
  split
  · next held installed =>
      rw [installed] at moves
      exact Lands.emit (.done moves) (by simp) rfl
  · next held refused =>
      rw [refused] at moves
      exact Lands.revoke (.done moves) token

theorem Safe.restoreStart (safe : view.Safe ended issued)
    (begun : gen ≤ view.store.loginGen) :
    (view.restoreStart gen faults).Lands ended issued view := by
  unfold View.restoreStart
  split
  · exact .done (.refl safe)
  next on =>
  split
  · exact .done (.refl safe)
  split
  · exact .done (safe.clear faults)
  · next open_ =>
      split
      · next stored loaded =>
          have held : view.vault.slot = some stored := by
            unfold Vault.load at loaded
            split at loaded
            · cases loaded
            · exact Option.some.inj loaded
          refine Lands.emit (.goesOn (.refl safe) ⟨?_, ?_, ?_, ?_⟩) (by simp)
            rfl
          · intro login brings
            cases brings
            exact safe.slotIssued stored held
          · intro attempt ofStage
            cases ofStage
            exact begun
          · intro _ _ login brings past
            cases brings
            -- What is ended is fenced, and the fence was read.
            have fenced := safe.fenced stored held past
            simp [Vault.readFence, fenced] at open_
          · intro _ _ _ _
            exact eq_true_of_ne_false on
      · exact .done (.refl safe)

/-- With persistence on, only the slot's owner installs. -/
theorem installed_mine {session : Session} {restored : Option Nat}
    {held : View} {epoch : Nat} (on : view.store.persistence = true)
    (installed : view.installForLogin gen session restored faults =
      (held, .installed epoch)) : view.Current gen ∧ view.Mine := by
  rcases installForLogin_cases view faults gen session restored with
    ⟨_, same⟩ | ⟨_, _, _, same⟩ | ⟨vault, marks, current, mirrors, _⟩
  · cases same.symm.trans installed
  · cases same.symm.trans installed
  · refine ⟨current, ?_⟩
    cases mirrors with
    | off off => cases off.symm.trans on
    | landed mine => exact mine
    | failed mine => exact mine

theorem Safe.restorePair (safe : view.Safe ended issued) {stored : Session}
    {family : Nat} {token : Token}
    (login : token.login = stored.refreshToken.login)
    (staged : (Stage.restoreSent gen stored family).Safe ended issued view) :
    (view.restorePair gen stored family token faults).Lands ended issued
      view := by
  have live : view.vault.owner = some view.client →
      view.store.loginGen = gen → ¬ ended token.login := by
    intro owner current
    rw [login]
    exact staged.live owner (by rw [current]; rfl) _ rfl
  have moves : view.Moves ended issued (view.installForLogin gen
      ⟨stored.user, token⟩ (some family) faults).1 :=
    safe.installForLogin (some family) (by rw [login]; exact staged.issued _ rfl) live
  unfold View.restorePair
  split
  · next held epoch installed =>
      rw [installed] at moves
      refine Lands.emit (.goesOn moves (.of_brings rfl (by simp [Stage.gen])))
        ?_ rfl
      intro attempt restored same
      cases same
      obtain ⟨current, mine⟩ := installed_mine (staged.on _ _ _ rfl) installed
      exact live mine.2 current.2
  · next held stale =>
      rw [stale] at moves
      apply Lands.revoke
      apply Lands.done
      exact moves.trans
        (moves.toSafe.store (fun _ signedIn => signedIn) (Nat.le_refl _) id)
  · next held taken =>
      rw [taken] at moves
      exact .done moves

theorem Safe.endSuperseded (safe : view.Safe ended issued) :
    (view.endSuperseded faults).Lands ended issued view := by
  exact Lands.revokeAll (.done (safe.signOut false)) _

theorem Safe.refreshOnce (safe : view.Safe ended issued)
    {sent : Token → Stage} (limited : Bool)
    (plain : ∀ token, (sent token).brings = none ∧ (sent token).gen = none) :
    (view.refreshOnce sent limited faults).Lands ended issued view := by
  unfold View.refreshOnce
  split
  · exact .done (.refl safe)
  · next session _ =>
      split
      · exact safe.endSuperseded
      · split
        · exact .done (.refl safe)
        · obtain ⟨brings, gen⟩ := plain session.refreshToken
          refine Lands.emit (.goesOn (.refl safe) (.of_brings brings ?_))
            (by simp) rfl
          simp [gen]

theorem Safe.refreshStart (safe : view.Safe ended issued) (seen : Revision)
    (limited : Bool) :
    (view.refreshStart seen limited faults).Lands ended issued view := by
  unfold View.refreshStart
  split
  · exact .done (.refl safe)
  · exact safe.refreshOnce limited fun _ => ⟨rfl, rfl⟩

theorem Safe.accountSend (safe : view.Safe ended issued) (epoch : Nat)
    (retried : Bool) :
    (view.accountSend epoch retried).Lands ended issued view := by
  unfold View.accountSend
  split
  · exact .done (.refl safe)
  · exact .goesOn (.refl safe) (.of_brings rfl (by simp [Stage.gen]))

theorem Safe.commitPair (safe : view.Safe ended issued)
    {rotatedFrom fresh : Token} {next : View → Outcome}
    (login : fresh.login = rotatedFrom.login)
    (lands : ∀ {held : View}, view.Moves ended issued held →
      (next held).Lands ended issued view) :
    (view.commitPair rotatedFrom fresh true faults next).Lands ended issued
      view := by
  have moves : view.Moves ended issued
      (view.commitRefresh rotatedFrom fresh true faults).1 :=
    safe.commitRefresh (Or.inl login)
  unfold View.commitPair
  split
  · next held committed =>
      rw [committed] at moves
      exact lands moves
  · next held stored =>
      rw [stored] at moves
      exact .done moves
  · next held discarded =>
      rw [discarded] at moves
      exact Lands.revoke (.done moves) fresh

theorem Safe.accountPair (safe : view.Safe ended issued) {used fresh : Token}
    (old : fresh.login < issued) (new : ¬ ended fresh.login) :
    (view.accountPair used fresh faults).Lands ended issued view := by
  have moves : view.Moves ended issued
      (view.commitRefresh used fresh false faults).1 :=
    safe.commitRefresh (Or.inr ⟨old, new⟩)
  unfold View.accountPair
  split
  · next held discarded =>
      rw [discarded] at moves
      exact Lands.revoke (.done moves) fresh
  · next held _ _ kept =>
      rw [kept] at moves
      exact Lands.emit (.done moves) (by simp) rfl

theorem Safe.close (safe : view.Safe ended issued) :
    (view.close faults).Lands ended issued view := by
  unfold View.close
  simp only
  split
  · exact .done (safe.signOut true)
  · exact Lands.revokeAll (.done (safe.signOut true)) _

end View

open Outcome in
theorem resume_lands {clock : Nat} {stage : Stage} {input : Input}
    {out : Outcome} (bound : ∀ login, ended login → login < clock)
    (safe : view.Safe ended clock) (staged : stage.Safe ended clock view)
    (resumed : resume clock view stage input = some out) :
    out.Lands ended (clock + 1) view := by
  have later : view.Safe ended (clock + 1) := safe.mono (Nat.le_succ clock)
  have staged' : stage.Safe ended (clock + 1) view :=
    { staged with issued := fun login brings =>
        Nat.lt_succ_of_lt (staged.issued login brings) }
  have new : ¬ ended clock := fun past => Nat.lt_irrefl _ (bound clock past)
  have here := View.Moves.refl later
  cases stage with
  | announced =>
      cases input with
      | proceed faults =>
          cases resumed
          refine Lands.emit (.goesOn
            (later.store (fun _ signedIn => signedIn) (Nat.le_succ _) id)
            (.of_brings rfl ?_)) (by simp) rfl
          intro gen ofStage
          cases ofStage
          exact Nat.le_refl _
      | dropped =>
          cases resumed
          exact .done here
      | _ => cases resumed
  | loginQueued gen =>
      cases input with
      | proceed faults =>
          cases resumed
          exact later.loginStart (staged.gen gen rfl)
      | _ => cases resumed
  | loginSent gen =>
      cases input with
      | failed =>
          cases resumed
          exact .done (later.publishFailed gen)
      | challenge =>
          cases resumed
          exact .done (later.openChallenge gen)
      | pair faults =>
          cases resumed
          refine Lands.emit (.goesOn here ?_) (by simp) rfl
          exact .ofNew rfl rfl (by simp) (Nat.lt_succ_self _) new
            (staged.gen gen rfl)
      | _ => cases resumed
  | loginProfile gen token =>
      cases input with
      | me user faults =>
          cases resumed
          exact later.loginProfile user staged'
      | failed =>
          cases resumed
          exact Lands.emit (.done (later.publishFailed gen)) (by simp) rfl
      | _ => cases resumed
  | totpQueued gen =>
      cases input with
      | proceed faults =>
          simp only [resume] at resumed
          split at resumed
          · cases resumed
            exact .goesOn here (.of_brings rfl staged.gen)
          · cases resumed
            exact .done here
      | _ => cases resumed
  | totpSent gen =>
      cases input with
      | failed =>
          cases resumed
          exact .done here
      | refused faults =>
          cases resumed
          exact .done (later.endChallenge gen)
      | pair faults =>
          cases resumed
          refine Lands.emit (.goesOn here ?_) (by simp) rfl
          exact .ofNew rfl rfl (by simp) (Nat.lt_succ_self _) new
            (staged.gen gen rfl)
      | _ => cases resumed
  | totpProfile gen token =>
      cases input with
      | me user faults =>
          cases resumed
          exact later.totpProfile user staged'
      | failed =>
          cases resumed
          exact Lands.emit (.done here) (by simp) rfl
      | _ => cases resumed
  | restoreQueued gen =>
      cases input with
      | proceed faults =>
          cases resumed
          exact later.restoreStart (staged.gen gen rfl)
      | _ => cases resumed
  | restoreSent gen stored family =>
      cases input with
      | failed =>
          cases resumed
          exact .done here
      | refused faults =>
          cases resumed
          exact Lands.emit (.done (later.clearPersistedIfHolds _)) (by simp)
            rfl
      | pair faults =>
          cases resumed
          exact Lands.emit (Lands.emit (later.restorePair rfl staged')
            (by simp) rfl) (by simp) rfl
      | _ => cases resumed
  | refreshQueued seen =>
      cases input with
      | proceed faults =>
          cases resumed
          exact later.refreshStart seen false
      | limited =>
          cases resumed
          exact later.refreshStart seen true
      | _ => cases resumed
  | refreshSent token =>
      cases input with
      | failed =>
          cases resumed
          exact .done here
      | refused faults =>
          cases resumed
          exact Lands.emit (.done (later.clearIfHolds token)) (by simp) rfl
      | pair faults =>
          cases resumed
          exact Lands.emit (Lands.emit (later.commitPair rfl .done) (by simp)
            rfl) (by simp) rfl
      | _ => cases resumed
  | profileOut epoch =>
      cases input with
      | me user faults =>
          cases resumed
          exact .done (later.replaceUser epoch user)
      | failed =>
          cases resumed
          exact .done here
      | dropped =>
          cases resumed
          exact .done here
      | _ => cases resumed
  | accountQueued epoch =>
      cases input with
      | proceed faults =>
          cases resumed
          exact later.accountSend epoch false
      | dropped =>
          cases resumed
          exact .done here
      | _ => cases resumed
  | accountSent epoch token retried =>
      cases input with
      | failed =>
          cases resumed
          exact .done here
      | refused faults =>
          simp only [resume] at resumed
          split at resumed
          · cases resumed
            exact .done here
          · cases resumed
            exact later.refreshOnce false fun _ => ⟨rfl, rfl⟩
      | pair faults =>
          cases resumed
          exact Lands.emit (later.accountPair (Nat.lt_succ_self _) new)
            (by simp) rfl
      | dropped =>
          cases resumed
          exact .done here
      | expired =>
          cases resumed
          exact Lands.emit (.done here) (by simp) rfl
      | _ => cases resumed
  | accountRefresh epoch token =>
      cases input with
      | failed =>
          cases resumed
          exact .done here
      | refused faults =>
          cases resumed
          exact Lands.emit (.done (later.clearIfHolds token)) (by simp) rfl
      | pair faults =>
          cases resumed
          refine Lands.emit (Lands.emit (later.commitPair rfl ?_) (by simp)
            rfl) (by simp) rfl
          intro held moves
          exact (moves.toSafe.accountSend epoch true).after moves
      | dropped =>
          cases resumed
          exact .done here
      | expired =>
          cases resumed
          exact Lands.emit (Lands.emit (.done here) (by simp) rfl) (by simp)
            rfl
      | _ => cases resumed
  | closing =>
      cases input with
      | proceed faults =>
          cases resumed
          exact later.close
      | _ => cases resumed

open Outcome in
theorem begin_lands {clock : Nat} {op : Op} {out : Outcome}
    (safe : view.Safe ended clock) (enables : op ≠ .enable)
    (signsOut : ∀ faults, op ≠ .logout faults)
    (begun : begin view op = some out) :
    out.Lands ended (clock + 1) view := by
  have later : view.Safe ended (clock + 1) := safe.mono (Nat.le_succ clock)
  have here := View.Moves.refl later
  have plain {stage : Stage} (brings : stage.brings = none)
      (gen : stage.gen = none) : stage.Safe ended (clock + 1) view :=
    .of_brings brings (by simp [gen])
  cases op with
  | enable => exact (enables rfl).elim
  | login =>
      cases begun
      exact .goesOn (later.store (fun _ signedIn => signedIn) (Nat.le_refl _)
        id) (.of_brings rfl (by simp [Stage.gen]))
  | totp gen =>
      simp only [begin] at begun
      split at begun
      · cases begun
      · next reserved =>
          cases begun
          refine .goesOn here (.of_brings rfl ?_)
          intro attempt ofStage
          cases ofStage
          exact Nat.le_of_not_lt reserved
  | cancel gen =>
      cases begun
      exact .done (later.endChallenge gen)
  | restore =>
      cases begun
      refine Lands.emit (.goesOn
        (later.store (fun _ signedIn => signedIn) (Nat.le_succ _) id)
        (.of_brings rfl ?_)) (by simp) rfl
      intro gen ofStage
      cases ofStage
      exact Nat.le_refl _
  | refresh =>
      cases begun
      exact .goesOn here (plain rfl rfl)
  | profile =>
      cases begun
      exact .goesOn here (plain rfl rfl)
  | account =>
      cases begun
      exact .goesOn here (plain rfl rfl)
  | logout faults => exact (signsOut faults rfl).elim
  | drop =>
      cases begun
      exact .goesOn (later.store (fun _ signedIn => signedIn) (Nat.le_refl _)
        id) (.of_brings rfl (by simp [Stage.gen]))

end

/-! ### Every run -/

/-- `Ended` reads the sign-outs only. -/
theorem ended_append {news log : List Entry} {login : LoginId}
    (quiet : ∀ entry ∈ news, entry.event.isLogout = false) :
    Ended (news ++ log) login ↔ Ended log login := by
  constructor
  · rintro ⟨entry, member, held, stored, signedOut, rest⟩
    rcases List.mem_append.mp member with new | old
    · have loud := quiet entry new
      rw [signedOut] at loud
      cases loud
    · exact ⟨entry, old, held, stored, signedOut, rest⟩
  · rintro ⟨entry, member, rest⟩
    exact ⟨entry, List.mem_append_right news member, rest⟩

theorem noRevival_append {news log : List Entry}
    (quiet : ∀ entry ∈ news, entry.event.isLogout = false)
    (restored : ∀ entry ∈ news, ∀ gen login,
      entry.event = .installed gen login true → ¬ Ended log login)
    (kept : NoRevival log) : NoRevival (news ++ log) := by
  induction news with
  | nil => exact kept
  | cons entry rest ih =>
      simp only [List.mem_cons, forall_eq_or_imp] at quiet restored
      refine ⟨fun gen login installed => ?_, ih quiet.2 restored.2⟩
      change ¬ Ended (rest ++ log) login
      rw [ended_append quiet.2]
      exact restored.1 gen login installed

structure Sticks (system : System) : Prop where
  slotIssued : ∀ stored, system.vault.slot = some stored →
    stored.refreshToken.login < system.clock
  fenced : ∀ stored, system.vault.slot = some stored →
    Ended system.log stored.refreshToken.login → system.vault.fenced = true
  clients : ∀ client store, system.clients.get? client = some store →
    (system.view client store).Safe (Ended system.log) system.clock
  tasks : ∀ id task, system.tasks.get? id = some task →
    ∃ store, system.clients.get? task.client = some store ∧
      task.stage.Safe (Ended system.log) system.clock
        (system.view task.client store)
  owned : ∀ client, system.vault.owner = some client →
    ∃ store, system.clients.get? client = some store ∧
      store.persistence = true
  endedIssued : ∀ login, Ended system.log login → login < system.clock
  noRevival : NoRevival system.log

theorem start_sticks : Sticks System.start where
  slotIssued _ held := by cases held
  fenced _ held := by cases held
  clients _ _ found := by cases found
  tasks _ _ running := by cases running
  owned _ owner := by cases owner
  endedIssued _ past := by
    obtain ⟨_, member, _⟩ := past
    cases member
  noRevival := trivial

variable {system next : System}

/-- A section lands.  Only the slot's owner ends logins, and only with a new
attempt number. -/
theorem Sticks.land (sticks : Sticks system) {client : ClientId} {store : Store}
    {id : TaskId} {out : Outcome}
    (found : system.clients.get? client = some store)
    (moves : (system.view client store).Moves
      (Ended (system.land client id out).log) (system.clock + 1) out.view)
    (stage : ∀ stage, out.stage = some stage →
      stage.Safe (Ended (system.land client id out).log) (system.clock + 1)
        out.view)
    (grows : ∀ login, Ended (system.land client id out).log login →
      Ended system.log login ∨ system.vault.owner = some client ∧
        store.loginGen < out.view.store.loginGen)
    (issued : ∀ login, Ended (system.land client id out).log login →
      login < system.clock + 1)
    (noRevival : NoRevival (system.land client id out).log) :
    Sticks (system.land client id out) := by
  have sameView : (system.land client id out).view client out.view.store =
      out.view := by
    have same : out.view.client = client := moves.client
    rw [← same]
    rfl
  refine ⟨moves.slotIssued, moves.fenced, ?_, ?_, ?_, issued, noRevival⟩
  · intro other held found'
    rcases System.land_client found' with ⟨rfl, rfl⟩ | ⟨different, before⟩
    · rw [sameView]
      exact moves.toSafe
    · have safe := sticks.clients other held before
      refine ⟨moves.slotIssued, ?_, moves.fenced, ?_⟩
      · intro session signedIn
        exact Nat.lt_succ_of_lt (safe.sessionIssued session signedIn)
      · intro owner session signedIn past
        have owner' : system.vault.owner = some other :=
          moves.owner.symm.trans owner
        rcases grows _ past with before | ⟨mine, _⟩
        · exact safe.live owner' session signedIn before
        · cases owner'.symm.trans mine
          exact different rfl
  · intro other task running
    rcases System.land_task running with
      ⟨next, goesOn, rfl, rfl⟩ | ⟨different, before⟩
    · refine ⟨out.view.store, by simp [System.land], ?_⟩
      rw [sameView]
      exact stage next goesOn
    · obtain ⟨held, foundTask, safe⟩ := sticks.tasks other task before
      by_cases same : task.client = client
      · cases same
        cases found.symm.trans foundTask
        refine ⟨out.view.store, by simp [System.land], ?_⟩
        rw [sameView]
        refine ⟨?_, ?_, ?_, ?_⟩
        · intro login brings
          exact Nat.lt_succ_of_lt (safe.issued login brings)
        · intro gen ofStage
          exact Nat.le_trans (safe.gen gen ofStage) moves.gen
        · intro owner current login brings past
          have kept : out.view.store.loginGen = store.loginGen :=
            Nat.le_antisymm (safe.gen _ current) moves.gen
          rcases grows login past with before | ⟨_, newer⟩
          · rw [kept] at current
            rw [moves.client, moves.owner] at owner
            exact safe.live owner current login brings before
          · exact Nat.lt_irrefl _ (kept ▸ newer)
        · intro gen stored family restoring
          exact moves.on (safe.on gen stored family restoring)
      · refine ⟨held, ?_, ?_⟩
        · simp only [System.land, Table.get?_put, same, if_false]
          exact foundTask
        · refine ⟨?_, safe.gen, ?_, safe.on⟩
          · intro login brings
            exact Nat.lt_succ_of_lt (safe.issued login brings)
          · intro owner current login brings past
            have owner' : system.vault.owner = some task.client :=
              moves.owner.symm.trans owner
            rcases grows login past with before | ⟨mine, _⟩
            · exact safe.live owner' current login brings before
            · cases owner'.symm.trans mine
              exact same rfl
  · intro other owner
    have owner' : system.vault.owner = some other :=
      moves.owner.symm.trans owner
    obtain ⟨held, found', on⟩ := sticks.owned other owner'
    by_cases same : other = client
    · subst same
      cases found.symm.trans found'
      exact ⟨out.view.store, by simp [System.land], moves.on on⟩
    · refine ⟨held, ?_, on⟩
      simp only [System.land, Table.get?_put, same, if_false]
      exact found'

/-- A section that ends no login. -/
theorem Sticks.lands (sticks : Sticks system) {client : ClientId}
    {store : Store} {id : TaskId} {out : Outcome}
    (found : system.clients.get? client = some store)
    (lands : out.Lands (Ended system.log) (system.clock + 1)
      (system.view client store)) :
    Sticks (system.land client id out) := by
  have quiet : ∀ entry ∈ out.events.map (system.entry client),
      entry.event.isLogout = false := by
    intro entry member
    obtain ⟨event, emitted, rfl⟩ := List.mem_map.mp member
    exact lands.noLogout event emitted
  have same : Ended (system.land client id out).log = Ended system.log := by
    funext login
    exact propext (ended_append quiet)
  apply sticks.land found
  · rw [same]
    exact lands.moves
  · rw [same]
    exact lands.stage
  · intro login past
    rw [same] at past
    exact Or.inl past
  · intro login past
    rw [same] at past
    exact Nat.lt_succ_of_lt (sticks.endedIssued login past)
  · apply noRevival_append quiet _ sticks.noRevival
    intro entry member gen login installed
    obtain ⟨event, emitted, rfl⟩ := List.mem_map.mp member
    exact lands.restored gen login (installed ▸ emitted)

/-- What a `logout` leaves, and what it logs. -/
theorem logout_out (view : View) (faults : Faults) :
    ∃ news marks, (view.logout faults).stage = none ∧
      (view.logout faults).view =
        (view.signOut false faults).1.withMarks marks ∧
      (view.logout faults).events =
        .loggedOut (view.store.session.map (·.refreshToken.login))
          (view.vault.slot.map (·.refreshToken.login))
          (view.signOut false faults).1.store.signOutComplete :: news ∧
      ∀ event ∈ news, ∃ token spared, event = .handed token spared := by
  unfold View.logout
  simp only [View.signOut_taken]
  cases view.store.session with
  | none => exact ⟨[], _, rfl, rfl, rfl, by simp⟩
  | some old =>
      refine ⟨_, _, rfl, rfl, rfl, ?_⟩
      intro event emitted
      exact ⟨_, _, List.mem_singleton.mp emitted⟩

theorem Sticks.logout (sticks : Sticks system) {client : ClientId}
    {store : Store} {id : TaskId} {faults : Faults}
    (found : system.clients.get? client = some store) :
    Sticks (system.land client id
      ((system.view client store).logout faults)) := by
  obtain ⟨news, marks, ends, left, events, handed⟩ :=
    logout_out (system.view client store) faults
  have safe := sticks.clients client store found
  have later := safe.mono (Nat.le_succ system.clock)
  have moves : (system.view client store).Moves (Ended system.log)
      (system.clock + 1) ((system.view client store).signOut false faults).1 :=
    later.signOut false
  have quiet : ∀ entry ∈ news.map (system.entry client),
      entry.event.isLogout = false := by
    intro entry member
    obtain ⟨event, emitted, rfl⟩ := List.mem_map.mp member
    obtain ⟨token, spared, rfl⟩ := handed event emitted
    rfl
  have log : (system.land client id
      ((system.view client store).logout faults)).log =
      system.entry client (.loggedOut
        (store.session.map (·.refreshToken.login))
        (system.vault.slot.map (·.refreshToken.login))
        ((system.view client store).signOut false
          faults).1.store.signOutComplete) ::
        (news.map (system.entry client) ++ system.log) := by
    simp only [System.land, events, List.map_cons, List.cons_append]
    rfl
  -- The owner ends what it held and what was stored, if it could.
  have grows : ∀ login, Ended (system.land client id
      ((system.view client store).logout faults)).log login →
      Ended system.log login ∨ (system.view client store).Mine ∧
        (system.vault.clear faults).2 = true ∧
        login < system.clock + 1 := by
    rw [log]
    rintro login ⟨entry, member, held, stored, signedOut, owner, which⟩
    rcases List.mem_cons.mp member with rfl | earlier
    · have owner' : system.vault.owner = some client := owner
      obtain ⟨store', found', on⟩ := sticks.owned client owner'
      cases found.symm.trans found'
      have mine : (system.view client store).Mine := ⟨on, owner'⟩
      simp only [System.entry, Event.loggedOut.injEq,
        View.signOut_complete mine] at signedOut
      obtain ⟨rfl, rfl, complete⟩ := signedOut
      refine Or.inr ⟨mine, complete, Nat.lt_succ_of_lt ?_⟩
      rcases which with which | which
      · obtain ⟨session, signedIn, rfl⟩ := Option.map_eq_some_iff.mp which
        exact safe.sessionIssued session signedIn
      · obtain ⟨kept, slot, rfl⟩ := Option.map_eq_some_iff.mp which
        exact sticks.slotIssued kept slot
    · exact Or.inl ((ended_append quiet).mp
        ⟨entry, earlier, held, stored, signedOut, owner, which⟩)
  have cleared := View.signOut_vault (system.view client store) faults false
  apply sticks.land found
  · rw [left]
    refine ⟨⟨moves.slotIssued, by simp [View.withMarks], ?_,
      by simp [View.withMarks]⟩, moves.client, moves.owner, moves.gen,
      moves.on⟩
    intro stored slot past
    rcases grows _ past with before | ⟨mine, complete, _⟩
    · exact moves.fenced stored slot before
    · simp only [View.withMarks] at slot ⊢
      rw [cleared, if_pos ⟨rfl, mine⟩] at slot ⊢
      rcases Vault.clear_cases faults system.vault with
        gone | ⟨later, _, _, fenced, same⟩
      · rw [show (system.view client store).vault = system.vault from rfl,
          gone] at slot
        cases slot
      · rw [show (system.view client store).vault = system.vault from rfl,
          same]
        exact fenced complete
  · rw [ends]
    intro stage goesOn
    cases goesOn
  · intro login past
    rcases grows login past with before | ⟨mine, _, _⟩
    · exact Or.inl before
    · refine Or.inr ⟨mine.2, ?_⟩
      rw [left]
      simp only [View.withMarks, View.signOut_loginGen]
      exact Nat.lt_succ_self _
  · intro login past
    rcases grows login past with before | ⟨_, _, issued⟩
    · exact Nat.lt_succ_of_lt (sticks.endedIssued login before)
    · exact issued
  · rw [log]
    refine ⟨by simp [System.entry], noRevival_append quiet ?_
      sticks.noRevival⟩
    intro entry member gen login installed
    obtain ⟨event, emitted, rfl⟩ := List.mem_map.mp member
    obtain ⟨token, spared, rfl⟩ := handed event emitted
    cases installed

theorem Sticks.enable (sticks : Sticks system) {client : ClientId}
    {store : Store} {id : TaskId} {out : Outcome}
    (found : system.clients.get? client = some store)
    (alone : ∀ other task, system.tasks.get? other = some task →
      task.client ≠ client)
    (begun : begin (system.view client store) .enable = some out) :
    Sticks (system.land client id out) := by
  simp only [begin] at begun
  split at begun
  · cases begun
  next fresh =>
    simp only [System.view, not_or, Bool.not_eq_true,
      Option.isSome_eq_false_iff, Option.isNone_iff_eq_none] at fresh
    cases begun
    refine ⟨fun stored slot => Nat.lt_succ_of_lt (sticks.slotIssued stored slot),
      sticks.fenced, ?_, ?_, ?_,
      fun login past => Nat.lt_succ_of_lt (sticks.endedIssued login past),
      sticks.noRevival⟩
    · intro other held found'
      rcases System.land_client found' with ⟨rfl, rfl⟩ | ⟨different, before⟩
      · refine ⟨fun stored slot =>
          Nat.lt_succ_of_lt (sticks.slotIssued stored slot), ?_,
          sticks.fenced, ?_⟩
        · intro session signedIn
          cases fresh.2.symm.trans signedIn
        · intro _ session signedIn
          cases fresh.2.symm.trans signedIn
      · have safe := (sticks.clients other held before).mono
          (Nat.le_succ system.clock)
        refine ⟨safe.slotIssued, safe.sessionIssued, safe.fenced, ?_⟩
        intro owner
        cases owner
        exact (different rfl).elim
    · intro other task running
      rcases System.land_task running with ⟨_, goesOn, _⟩ | ⟨_, before⟩
      · cases goesOn
      · have different := alone other task before
        obtain ⟨held, foundTask, safe⟩ := sticks.tasks other task before
        refine ⟨held, ?_, ⟨?_, safe.gen, ?_, safe.on⟩⟩
        · simp only [System.land, Table.get?_put, different, if_false]
          exact foundTask
        · intro login brings
          exact Nat.lt_succ_of_lt (safe.issued login brings)
        · intro owner
          cases owner
          exact (different rfl).elim
    · intro other owner
      cases owner
      exact ⟨_, Table.get?_put_self _ _ _, rfl⟩

theorem Sticks.create (sticks : Sticks system) {client : ClientId}
    (free : system.clients.contains client = false) :
    Sticks { system with
      clients := system.clients.put client Store.new } := by
  have known : ∀ {other store}, system.clients.get? other = some store →
      other ≠ client := by
    rintro other store found rfl
    simp [Table.contains, found] at free
  refine ⟨sticks.slotIssued, sticks.fenced, ?_, ?_, ?_, sticks.endedIssued,
    sticks.noRevival⟩
  · intro other store found
    simp only [Table.get?_put] at found
    split at found
    · cases found
      exact ⟨sticks.slotIssued, by simp [System.view, Store.new],
        sticks.fenced, by simp [System.view, Store.new]⟩
    · exact sticks.clients other store found
  · intro id task running
    obtain ⟨store, found, safe⟩ := sticks.tasks id task running
    exact ⟨store, (Table.get?_put_ne _ _ (known found)).trans found, safe⟩
  · intro other owner
    obtain ⟨store, found, on⟩ := sticks.owned other owner
    exact ⟨store, (Table.get?_put_ne _ _ (known found)).trans found, on⟩

theorem Sticks.restart (sticks : Sticks system) :
    Sticks { system with
      vault := { system.vault with owner := none, family := 0 }
      clients := ∅
      tasks := ∅
      revokes := [] } where
  slotIssued := sticks.slotIssued
  fenced := sticks.fenced
  clients _ _ found := by cases found
  tasks _ _ running := by cases running
  owned _ owner := by cases owner
  endedIssued := sticks.endedIssued
  noRevival := sticks.noRevival

theorem Sticks.leave (sticks : Sticks system) {client : ClientId}
    {token : Token} :
    Sticks { system with
      revokes := system.revokes.erase (client, token)
      log := system.entry client (.sentLogout token) :: system.log } := by
  have same : Ended (system.entry client (.sentLogout token) :: system.log) =
      Ended system.log := by
    funext login
    apply propext
    have appended : Ended ([system.entry client (.sentLogout token)] ++
        system.log) login ↔ _ :=
      ended_append (by simp [System.entry, Event.isLogout])
    exact appended
  refine ⟨sticks.slotIssued, ?_, ?_, ?_, sticks.owned, ?_, ?_, sticks.noRevival⟩
  · rw [same]
    exact sticks.fenced
  · rw [same]
    exact sticks.clients
  · rw [same]
    exact sticks.tasks
  · rw [same]
    exact sticks.endedIssued
  · simp [System.entry]

theorem step_sticks (sticks : Sticks system) {action : Action}
    (taken : step system action = some next) : Sticks next := by
  cases action with
  | create client =>
      simp only [step] at taken
      split at taken
      · cases taken
      · next free =>
          cases taken
          exact sticks.create (by simpa using free)
  | begin client op id =>
      obtain ⟨store, out, found, _, _, alone, begun, rfl⟩ := step_begin taken
      by_cases enables : op = .enable
      · subst enables
        exact sticks.enable found (alone rfl) begun
      by_cases signsOut : ∃ faults, op = .logout faults
      · obtain ⟨faults, rfl⟩ := signsOut
        cases begun
        exact sticks.logout found
      · apply sticks.lands found
        apply begin_lands (sticks.clients client store found) enables _ begun
        exact fun faults same => signsOut ⟨faults, same⟩
  | resume id input =>
      obtain ⟨task, store, out, running, found, _, resumed, rfl⟩ :=
        step_resume taken
      obtain ⟨store', found', staged⟩ := sticks.tasks id task running
      cases found.symm.trans found'
      exact sticks.lands found (resume_lands sticks.endedIssued
        (sticks.clients task.client store found) staged resumed)
  | leave client token =>
      simp only [step] at taken
      split at taken
      · cases taken
        exact sticks.leave
      · cases taken
  | restart =>
      cases taken
      exact sticks.restart

end Brook.SignedIn
