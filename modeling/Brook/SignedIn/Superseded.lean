import Brook.SignedIn.Published

namespace Brook.SignedIn

open Transition

/-! Whether a client that was superseded ends the login of the slot's owner. -/

/-- A sign-out request of a client that does not own the slot is not of the
login that is stored there unfenced. -/
def Entry.Spares (entry : Entry) : Prop :=
  match entry.event with
  | .sentLogout token => entry.vault.owner ≠ some entry.client →
      entry.vault.restorable ≠ some token.login
  | _ => True

instance (entry : Entry) : Decidable entry.Spares := by
  obtain ⟨client, event, vault, ownerSession⟩ := entry
  cases event <;> dsimp only [Entry.Spares] <;> infer_instance

def Input.fences : Input → Prop
  | .proceed faults | .refused faults | .pair faults | .me _ faults =>
      faults.Fence
  | _ => True

instance (input : Input) : Decidable input.fences :=
  match input with
  | .proceed faults | .refused faults | .pair faults | .me _ faults =>
      inferInstanceAs (Decidable faults.Fence)
  | .failed | .challenge | .limited | .dropped | .expired => isTrue trivial

/-- The clients are of one process, and a fence can always be written. -/
def Action.Fences : Action → Prop
  | .create _ | .leave _ _ => True
  | .begin _ op _ => ∀ faults, op = .logout faults → faults.Fence
  | .resume _ input => input.fences
  | .restart => False

instance (action : Action) : Decidable action.Fences :=
  match action with
  | .create _ | .leave _ _ => isTrue trivial
  | .begin _ op _ =>
      match op with
      | .logout faults => decidable_of_iff faults.Fence (by simp [Action.Fences])
      | .enable | .login | .totp _ | .cancel _ | .restore | .refresh | .profile
      | .account | .drop => isTrue nofun
  | .resume _ input => inferInstanceAs (Decidable input.fences)
  | .restart => isFalse id

def Op.isLogout : Op → Bool
  | .logout _ => true
  | _ => false

/-- The login is stored, or the slot's owner holds it. -/
def System.Owned (system : System) (login : LoginId) : Prop :=
  system.vault.restorable = some login ∨
    system.ownerSession.map (·.refreshToken.login) = some login

instance (system : System) (login : LoginId) :
    Decidable (system.Owned login) :=
  inferInstanceAs (Decidable (_ ∨ _))

/-- A rotation that the owner stores is of a token with a mark, and a dropped
client does not go on with one that lost it. -/
def View.KeepsMark (owned : LoginId → Prop) (view : View) :
    Stage → Input → Prop
  | .refreshSent token, .pair faults | .accountRefresh _ token, .pair faults =>
      view.store.closed = false → view.Mine → faults.replaceFails = false →
      ∀ session ∈ view.store.session, session.refreshToken = token →
        view.store.slotTokens.contains token
  | .refreshQueued _, .proceed _ | .refreshQueued _, .limited
  | .accountSent _ _ _, .refused _ =>
      view.store.closed = true → ∀ session ∈ view.store.session,
        owned session.refreshToken.login →
        view.store.slotTokens.contains session.refreshToken
  | _, _ => True

instance (owned : LoginId → Prop) [DecidablePred owned] (view : View)
    (stage : Stage) (input : Input) :
    Decidable (view.KeepsMark owned stage input) :=
  match stage with
  | .refreshSent token | .accountRefresh _ token =>
      match input with
      | .pair faults =>
          inferInstanceAs (Decidable (view.store.closed = false → view.Mine →
            faults.replaceFails = false → ∀ session ∈ view.store.session,
            session.refreshToken = token →
            view.store.slotTokens.contains token))
      | .proceed _ | .failed | .challenge | .refused _ | .me _ _ | .limited
      | .dropped | .expired => isTrue trivial
  | .refreshQueued _ =>
      match input with
      | .proceed _ | .limited =>
          inferInstanceAs (Decidable (view.store.closed = true →
            ∀ session ∈ view.store.session, owned session.refreshToken.login →
            view.store.slotTokens.contains session.refreshToken))
      | .failed | .challenge | .refused _ | .pair _ | .me _ _ | .dropped
      | .expired => isTrue trivial
  | .accountSent _ _ _ =>
      match input with
      | .refused _ =>
          inferInstanceAs (Decidable (view.store.closed = true →
            ∀ session ∈ view.store.session, owned session.refreshToken.login →
            view.store.slotTokens.contains session.refreshToken))
      | .proceed _ | .failed | .challenge | .pair _ | .me _ _ | .limited
      | .dropped | .expired => isTrue trivial
  | .announced | .loginQueued _ | .loginSent _ | .loginProfile _ _
  | .totpQueued _ | .totpSent _ | .totpProfile _ _ | .restoreQueued _
  | .restoreSent _ _ _ | .profileOut _ | .accountQueued _ | .closing =>
      isTrue trivial

/-- No revoke of the stored login is on its way as the slot gets a new owner; no
superseded client signs out with its refresh out; marks are kept. -/
def MarksKept (system : System) : Action → Prop
  | .begin client op _ =>
      (op = .enable → ∀ entry ∈ system.revokes,
        system.vault.restorable ≠ some entry.2.login) ∧
      (op.isLogout → system.vault.owner ≠ some client →
        ∀ store ∈ system.clients.get? client, ∀ session ∈ store.session,
        system.Owned session.refreshToken.login →
        ∀ task ∈ system.tasks.values, task.client = client →
          task.stage.refreshes ≠ some session.refreshToken)
  | .resume id input =>
      ∀ task ∈ system.tasks.get? id,
        ∀ store ∈ system.clients.get? task.client,
        (system.view task.client store).KeepsMark system.Owned task.stage input
  | _ => True

instance (system : System) (action : Action) :
    Decidable (MarksKept system action) :=
  match action with
  | .begin client op _ =>
      inferInstanceAs (Decidable ((op = .enable →
        ∀ entry ∈ system.revokes,
          system.vault.restorable ≠ some entry.2.login) ∧
        (op.isLogout = true → system.vault.owner ≠ some client →
          ∀ store ∈ system.clients.get? client, ∀ session ∈ store.session,
          system.Owned session.refreshToken.login →
          ∀ task ∈ system.tasks.values, task.client = client →
            task.stage.refreshes ≠ some session.refreshToken)))
  | .resume id input =>
      inferInstanceAs (Decidable (∀ task ∈ system.tasks.get? id,
        ∀ store ∈ system.clients.get? task.client,
        (system.view task.client store).KeepsMark system.Owned task.stage
          input))
  | .create _ | .leave _ _ | .restart => isTrue trivial

/-! ### The section after a wait -/

section

variable {exposed owned : LoginId → Prop} {number : Nat} {view later : View}
variable {stage : Stage} {out : Outcome}

theorem Outcome.Spares.ended {past : Option Stage} {events : List Event}
    (leads : view.Leads exposed number past later)
    (quiet : ∀ token, .sentLogout token ∈ events → ¬ exposed token.login) :
    (⟨later, none, [], events⟩ : Outcome).Spares exposed number past view where
  leads := leads
  stage _ goesOn := by cases goesOn
  tokens _ _ goesOn := by cases goesOn
  fresh _ _ goesOn := by cases goesOn
  revokes _ member := by cases member
  known _ member := by cases member
  direct := quiet

/-- A new login arrives; its profile is asked for next. -/
theorem View.Context.arrives (context : view.Context exposed number)
    {past : Option Stage} {next : Stage}
    (fresh : next.fresh = some ⟨number, number⟩)
    (others : next.refreshes = none)
    (restores : ∀ gen stored family, next ≠ .restoreSent gen stored family) :
    ((view.goesOn next).emit (.received ⟨number, number⟩)).Spares exposed
      number past view := by
  have unmet : ¬ exposed number ∧ ¬ view.Knows number :=
    ⟨fun now => Nat.lt_irrefl _ (context.bound _ now),
      fun knows => Nat.lt_irrefl _ (context.known _ knows)⟩
  refine Outcome.Spares.emit ?_ (by simp)
  refine ⟨context.refl, ?_, ?_, ?_, ?_, ?_, ?_⟩
  · intro _ goesOn
    cases goesOn
    refine ⟨?_, ?_, ?_, ?_⟩
    · intro _ out
      cases others.symm.trans out
    · intro gen stored family same
      exact (restores gen stored family same).elim
    · intro gen stored family same
      exact (restores gen stored family same).elim
    · intro token new
      cases fresh.symm.trans new
      exact ⟨fun now => unmet.1 (context.unchanged.mp now), unmet.2⟩
  · intro _ token goesOn has
    cases goesOn
    cases (Stage.token_of_fresh fresh).symm.trans has
    exact Or.inr (Or.inl rfl)
  · intro _ token goesOn new
    cases goesOn
    cases fresh.symm.trans new
    exact ⟨rfl, rfl, rfl⟩
  · intro _ member
    cases member
  · intro _ member
    cases member
  · intro _ emitted
    cases emitted

theorem resume_spares {input : Input}
    (context : view.Context exposed number)
    (hands : stage.Hands exposed view)
    (dated : ∀ token, stage.fresh = some token → token.number < number)
    (fences : input.fences)
    (covers : ∀ login, exposed login → owned login)
    (keeps : view.KeepsMark owned stage input)
    (resumed : resume number view stage input = some out) :
    out.Spares exposed number (some stage) view := by
  have rest : ∀ {store : Store}, store.session = view.store.session →
      store.slotTokens = view.store.slotTokens →
      store.closed = view.store.closed →
      store.persistence = view.store.persistence →
      view.Leads exposed number (some stage) { view with store := store } := by
    intro store session marks closed on
    refine context.rest (fun _ signedIn => session ▸ signedIn) marks
      (fun open_ => closed ▸ open_) (fun was => on.trans was)
  have once : ∀ {sent : Token → Stage} {limited : Bool} {faults : Faults},
      faults.Fence → (∀ token, (sent token).refreshes = some token) →
      (view.store.closed = true → ∀ session ∈ view.store.session,
        owned session.refreshToken.login →
        view.store.slotTokens.contains session.refreshToken) →
      (view.refreshOnce sent limited faults).Spares exposed number
        (some stage) view := by
    intro sent limited faults fence out contains
    refine context.refreshOnce fence limited ?_ out
    intro shut session signedIn now
    exact contains shut session (by simpa using signedIn) (covers _ now)
  have answers : ∀ {token : Token} {faults : Faults},
      stage.refreshes = some token →
      (view.store.closed = false → view.Mine → faults.replaceFails = false →
        ∀ session ∈ view.store.session, session.refreshToken = token →
        view.store.slotTokens.contains token) →
      View.Answers exposed number (some stage) view faults token
        ⟨number, token.login⟩ true := by
    intro token faults out contains
    refine ⟨rfl, Stage.token_of_refreshes out, (by simp), fun _ => rfl,
      fun _ => hands.out token out, ?_⟩
    intro _ open_ mine works session signedIn holds
    exact contains open_ mine works session (by simpa using signedIn) holds
  cases stage with
  | announced =>
      cases input with
      | proceed =>
          cases resumed
          refine Outcome.Spares.emit (.plain ?_ rfl) (by simp)
          exact rest rfl rfl rfl rfl
      | dropped =>
          cases resumed
          exact .done context.refl
      | _ => cases resumed
  | loginQueued gen =>
      cases input with
      | proceed faults =>
          cases resumed
          exact context.loginStart fences
      | _ => cases resumed
  | loginSent gen =>
      cases input with
      | failed =>
          cases resumed
          apply Outcome.Spares.done
          unfold View.publishFailedIfCurrent
          split
          · exact rest rfl rfl rfl rfl
          · exact context.refl
      | challenge =>
          cases resumed
          apply Outcome.Spares.done
          unfold View.openChallenge
          split
          · exact rest rfl rfl rfl rfl
          · exact context.refl
      | pair =>
          cases resumed
          exact context.arrives rfl rfl (by simp)
      | _ => cases resumed
  | loginProfile gen token =>
      cases input with
      | me user faults =>
          cases resumed
          exact context.loginProfile fences user (dated token rfl) hands rfl
      | failed =>
          cases resumed
          have leads : view.Leads exposed number
              (some (.loginProfile gen token))
              (view.publishFailedIfCurrent gen) := by
            unfold View.publishFailedIfCurrent
            split
            · exact rest rfl rfl rfl rfl
            · exact context.refl
          apply Outcome.Spares.ended leads
          intro other emitted
          have same : other = token := by
            simpa [Outcome.emit, View.done] using emitted
          exact same ▸ (hands.fresh token rfl).1
      | _ => cases resumed
  | totpQueued gen =>
      cases input with
      | proceed =>
          simp only [resume] at resumed
          split at resumed
          · cases resumed
            exact .plain context.refl rfl
          · cases resumed
            exact .done context.refl
      | _ => cases resumed
  | totpSent gen =>
      cases input with
      | failed =>
          cases resumed
          exact .done context.refl
      | refused =>
          cases resumed
          apply Outcome.Spares.done
          unfold View.endChallenge
          split
          · exact rest rfl rfl rfl rfl
          · exact context.refl
      | pair =>
          cases resumed
          exact context.arrives rfl rfl (by simp)
      | _ => cases resumed
  | totpProfile gen token =>
      cases input with
      | me user faults =>
          cases resumed
          exact context.totpProfile fences user (dated token rfl) hands rfl
      | failed =>
          cases resumed
          apply Outcome.Spares.ended context.refl
          intro other emitted
          have same : other = token := by
            simpa [Outcome.emit, View.done] using emitted
          exact same ▸ (hands.fresh token rfl).1
      | _ => cases resumed
  | restoreQueued gen =>
      cases input with
      | proceed faults =>
          cases resumed
          exact context.restoreStart fences
      | _ => cases resumed
  | restoreSent gen stored family =>
      cases input with
      | failed =>
          cases resumed
          exact .done context.refl
      | refused faults =>
          cases resumed
          refine Outcome.Spares.emit (.done ?_) (by simp)
          exact context.clearPersistedIfHolds fences _
      | pair faults =>
          cases resumed
          refine Outcome.Spares.emit ?_ (by simp)
          refine Outcome.Spares.emit ?_ (by simp)
          exact context.restorePair fences hands rfl
      | _ => cases resumed
  | refreshQueued seen =>
      cases input with
      | proceed faults =>
          cases resumed
          unfold View.refreshStart
          split
          · exact .done context.refl
          · exact once fences (fun _ => rfl) keeps
      | limited =>
          cases resumed
          unfold View.refreshStart
          split
          · exact .done context.refl
          · exact once (by simp [Faults.Fence, Faults.none]) (fun _ => rfl)
              keeps
      | _ => cases resumed
  | refreshSent token =>
      cases input with
      | failed =>
          cases resumed
          exact .done context.refl
      | refused faults =>
          cases resumed
          refine Outcome.Spares.emit (.done ?_) (by simp)
          exact context.clearIfHolds fences token
      | pair faults =>
          cases resumed
          refine Outcome.Spares.emit ?_ (by simp)
          refine Outcome.Spares.emit ?_ (by simp)
          exact context.commitPair fences (answers rfl keeps) .done
      | _ => cases resumed
  | profileOut epoch =>
      cases input with
      | me user faults =>
          cases resumed
          exact .done (context.replaceUser epoch user)
      | failed =>
          cases resumed
          exact .done context.refl
      | dropped =>
          cases resumed
          exact .done context.refl
      | _ => cases resumed
  | accountQueued epoch =>
      cases input with
      | proceed =>
          cases resumed
          exact View.Leads.accountSend context.refl epoch false
      | dropped =>
          cases resumed
          exact .done context.refl
      | _ => cases resumed
  | accountSent epoch used retried =>
      cases input with
      | failed =>
          cases resumed
          exact .done context.refl
      | dropped =>
          cases resumed
          exact .done context.refl
      | refused faults =>
          simp only [resume] at resumed
          split at resumed
          · cases resumed
            exact .done context.refl
          · cases resumed
            exact once fences (fun _ => rfl) keeps
      | pair faults =>
          cases resumed
          refine Outcome.Spares.emit ?_ (by simp)
          apply context.accountPair fences
          exact ⟨rfl, rfl, fun _ => rfl, (by simp), (by simp), (by simp)⟩
      | expired =>
          cases resumed
          refine Outcome.Spares.emit ?_ (by simp)
          exact .done context.refl
      | _ => cases resumed
  | accountRefresh epoch token =>
      cases input with
      | failed =>
          cases resumed
          exact .done context.refl
      | dropped =>
          cases resumed
          exact .done context.refl
      | refused faults =>
          cases resumed
          refine Outcome.Spares.emit (.done ?_) (by simp)
          exact context.clearIfHolds fences token
      | pair faults =>
          cases resumed
          refine Outcome.Spares.emit ?_ (by simp)
          refine Outcome.Spares.emit ?_ (by simp)
          apply context.commitPair fences (answers rfl keeps)
          intro held leads
          exact View.Leads.accountSend leads epoch true
      | expired =>
          cases resumed
          refine Outcome.Spares.emit ?_ (by simp)
          refine Outcome.Spares.emit ?_ (by simp)
          exact .done context.refl
      | _ => cases resumed
  | closing =>
      cases input with
      | proceed faults =>
          cases resumed
          exact context.close
      | _ => cases resumed

theorem begin_spares {op : Op} (context : view.Context exposed number)
    (open_ : view.store.closed = true → op = .refresh)
    (enables : op ≠ .enable)
    (fences : ∀ faults, op = .logout faults → faults.Fence)
    (begun : begin view op = some out) :
    out.Spares exposed number none view := by
  have rest : ∀ {store : Store}, store.session = view.store.session →
      store.slotTokens = view.store.slotTokens →
      (store.closed = false → view.store.closed = false) →
      store.persistence = view.store.persistence →
      view.Leads exposed number none { view with store := store } := by
    intro store session marks closed on
    exact context.rest (fun _ signedIn => session ▸ signedIn) marks closed
      (fun was => on.trans was)
  cases op with
  | enable => exact (enables rfl).elim
  | login =>
      cases begun
      exact .plain (rest rfl rfl id rfl) rfl
  | totp gen =>
      simp only [begin] at begun
      split at begun
      · cases begun
      · cases begun
        exact .plain context.refl rfl
  | cancel gen =>
      cases begun
      apply Outcome.Spares.done
      unfold View.endChallenge
      split
      · exact rest rfl rfl id rfl
      · exact context.refl
  | restore =>
      cases begun
      refine Outcome.Spares.emit (.plain ?_ rfl) (by simp)
      exact rest rfl rfl id rfl
  | refresh =>
      cases begun
      exact .plain context.refl rfl
  | profile =>
      cases begun
      exact .plain context.refl rfl
  | account =>
      cases begun
      exact .plain context.refl rfl
  | logout faults =>
      cases begun
      apply context.logout (fences faults rfl)
      cases shut : view.store.closed with
      | false => rfl
      | true => cases open_ shut
  | drop =>
      cases begun
      exact .plain (rest rfl rfl (by simp) rfl) rfl

/-- What the other tasks of the client rely on stays as it is. -/
structure View.Steady (after : LoginId → Prop) (view later : View)
    (stage : Stage) : Prop where
  marks : ∀ token family, stage.refreshes = some token → after token.login →
    view.store.persistence = true →
    view.store.slotTokens.get? token = some family →
    later.store.slotTokens.get? token = some family
  reads : ∀ gen, stage.gen = some gen → gen ≤ view.store.loginGen →
    view.vault.owner = some view.client → later.Current gen →
    view.Current gen ∧ later.vault = view.vault

theorem View.steady_of_same {after : LoginId → Prop}
    (marks : view.store.persistence = true →
      later.store.slotTokens = view.store.slotTokens)
    (vault : later.vault = view.vault)
    (current : ∀ gen, gen ≤ view.store.loginGen → later.Current gen →
      view.Current gen) : view.Steady after later stage where
  marks token family _ _ on mark := by rwa [marks on]
  reads gen _ attempt _ now := ⟨current gen attempt now, vault⟩

theorem View.Current.not_later {gen : Nat} {store : Store}
    (attempt : gen ≤ view.store.loginGen)
    (now : View.Current gen ⟨view.client, store, view.vault⟩)
    (later : store.loginGen = view.store.loginGen + 1) : False := by
  have same : store.loginGen = gen := now.2
  rw [later] at same
  exact Nat.not_succ_le_self _ (same ▸ attempt)

theorem Outcome.revokeAll_closed (taken : Option Session) :
    (out.revokeAll taken).view.store.closed = out.view.store.closed := by
  cases taken <;> rfl

theorem View.close_steady {after : LoginId → Prop} {faults : Faults} :
    view.Steady after (view.close faults).view stage := by
  have shut : (view.close faults).view.store.closed = true := by
    unfold View.close
    dsimp only
    split
    · simp [View.done]
    · rw [Outcome.revokeAll_closed]
      simp [View.done]
  constructor
  · intro token family _ _ on mark
    unfold View.close
    dsimp only
    rw [if_pos on]
    simpa [View.done] using mark
  · intro gen _ _ _ now
    cases shut.symm.trans now.1

theorem resume_steady {after : LoginId → Prop} {other : Stage} {input : Input}
    (waits : stage.holdsRefresh = false)
    (takes : stage.takesRefresh input = false)
    (resumed : resume number view stage input = some out) :
    view.Steady after out.view other := by
  have same : view.Steady after view other :=
    View.steady_of_same (fun _ => rfl) rfl fun _ _ now => now
  cases stage with
  | announced =>
      cases input with
      | proceed =>
          cases resumed
          refine View.steady_of_same (fun _ => rfl) rfl ?_
          intro gen attempt now
          exact (View.Current.not_later attempt now rfl).elim
      | dropped =>
          cases resumed
          exact same
      | _ => cases resumed
  | profileOut epoch =>
      cases input with
      | failed =>
          cases resumed
          exact same
      | dropped =>
          cases resumed
          exact same
      | me => cases takes
      | _ => cases resumed
  | accountQueued epoch =>
      cases input with
      | proceed => cases takes
      | dropped =>
          cases resumed
          exact same
      | _ => cases resumed
  | closing =>
      cases input with
      | proceed faults =>
          cases resumed
          exact View.close_steady
      | _ => cases resumed
  | loginQueued gen =>
      cases input with
      | proceed => cases takes
      | _ => cases resumed
  | totpQueued gen =>
      cases input with
      | proceed => cases takes
      | _ => cases resumed
  | restoreQueued gen =>
      cases input with
      | proceed => cases takes
      | _ => cases resumed
  | refreshQueued seen =>
      cases input with
      | proceed => cases takes
      | limited => cases takes
      | _ => cases resumed
  | _ => cases waits

theorem begin_steady {after : LoginId → Prop} {other : Stage} {op : Op}
    (enables : op ≠ .enable) (signsOut : op.isLogout = false)
    (begun : begin view op = some out) :
    view.Steady after out.view other := by
  have same : view.Steady after view other :=
    View.steady_of_same (fun _ => rfl) rfl fun _ _ now => now
  cases op with
  | enable => exact (enables rfl).elim
  | login =>
      cases begun
      exact View.steady_of_same (fun _ => rfl) rfl fun _ _ now => now
  | totp gen =>
      simp only [begin] at begun
      split at begun
      · cases begun
      · cases begun
        exact same
  | cancel gen =>
      cases begun
      simp only [View.endChallenge, View.done]
      split
      · refine View.steady_of_same (fun _ => rfl) rfl ?_
        intro gen attempt now
        exact (View.Current.not_later attempt now rfl).elim
      · exact same
  | restore =>
      cases begun
      refine View.steady_of_same (fun _ => rfl) rfl ?_
      intro gen attempt now
      exact (View.Current.not_later attempt now rfl).elim
  | refresh =>
      cases begun
      exact same
  | profile =>
      cases begun
      exact same
  | account =>
      cases begun
      exact same
  | logout faults => cases signsOut
  | drop =>
      cases begun
      refine View.steady_of_same (fun _ => rfl) rfl ?_
      intro gen _ now
      cases now.1

/-- A superseded client signs out while no token of its session is out; the
owner's stored copy is unusable then. -/
theorem View.logout_steady {faults : Faults} {other : Stage}
    (fence : faults.Fence)
    (apart : view.vault.owner ≠ some view.client → ∀ session,
      view.store.session = some session →
      exposed session.refreshToken.login →
      other.refreshes ≠ some session.refreshToken) :
    view.Steady (view.after exposed (view.logout faults).view)
      (view.logout faults).view other := by
  have out : (view.logout faults).view.store.session = none ∧
      (view.logout faults).view.vault = (view.signOut false faults).1.vault ∧
      (view.logout faults).view.store.loginGen = view.store.loginGen + 1 := by
    unfold View.logout
    simp only [View.signOut_taken]
    cases view.store.session with
    | none => exact ⟨View.signOut_session false, rfl, View.signOut_loginGen false⟩
    | some old =>
        exact ⟨View.signOut_session false, rfl, View.signOut_loginGen false⟩
  constructor
  · intro token family sent now on mark
    by_cases mine : view.vault.owner = some view.client
    · rcases (View.after_owner mine).mp now with stored |
        ⟨_, _, session, signedIn, _⟩
      · rw [out.2.1, View.signOut_vault, if_pos ⟨rfl, on, mine⟩,
          Vault.clear_restorable fence] at stored
        cases stored
      · cases out.1.symm.trans signedIn
    · have was : exposed token.login := (View.after_other mine).mp now
      unfold View.logout
      simp only [View.signOut_taken]
      cases signedIn : view.store.session with
      | none =>
          have kept := @View.signOut_slotTokens view faults false
          simpa [Outcome.revokeAll, Outcome.emit, View.done, kept] using mark
      | some old =>
          have differs : token ≠ old.refreshToken := by
            rintro rfl
            exact apart mine old signedIn was sent
          simp [Outcome.revokeAll, Outcome.revoke, Outcome.emit, View.done,
            View.revokeDetached, View.unmark, Option.filter_eq_some_iff, mark,
            differs]
  · intro gen _ attempt _ now
    have same : (view.logout faults).view.store.loginGen = gen := now.2
    rw [out.2.2] at same
    exact (Nat.not_succ_le_self _ (same ▸ attempt)).elim

end


/-! ### The system -/

theorem Vault.slot_of_restorable {vault : Vault} {login : LoginId}
    (stored : vault.restorable = some login) :
    ∃ session, vault.slot = some session ∧
      session.refreshToken.login = login := by
  unfold Vault.restorable at stored
  split at stored
  · cases stored
  · exact Option.map_eq_some_iff.mp stored

/-- Stored now, or what the slot's owner may store again. -/
def System.Exposed (system : System) (login : LoginId) : Prop :=
  system.vault.restorable = some login ∨
    ∃ client store, system.clients.get? client = some store ∧
      (system.view client store).Exposes login

/-- Someone besides that task has met the login. -/
def System.Met (system : System) (but : Option TaskId) (login : LoginId) :
    Prop :=
  (∃ client store, system.clients.get? client = some store ∧
    (system.view client store).Knows login) ∨
  (∃ id task token, some id ≠ but ∧ system.tasks.get? id = some task ∧
    task.stage.token = some token ∧ token.login = login) ∨
  ∃ entry ∈ system.revokes, entry.2.login = login

structure Spared (system : System) : Prop where
  sticks : Sticks system
  one : OneFlight system
  hands : ∀ client store, system.clients.get? client = some store →
    (system.view client store).Hands system.Exposed
  dated : ∀ client store, system.clients.get? client = some store →
    (system.view client store).Dated system.clock
  tasks : ∀ id task store, system.tasks.get? id = some task →
    system.clients.get? task.client = some store →
    task.stage.Hands system.Exposed (system.view task.client store)
  young : ∀ id task token, system.tasks.get? id = some task →
    task.stage.fresh = some token → token.number < system.clock
  issued : ∀ login, system.Met none login → login < system.clock
  fresh : ∀ id task token, system.tasks.get? id = some task →
    task.stage.fresh = some token → ¬ system.Met (some id) token.login
  revokes : ∀ client token, (client, token) ∈ system.revokes →
    system.Exposed token.login → system.vault.owner = some client
  spared : ∀ entry ∈ system.log, entry.Spares

section

variable {system next : System} {client : ClientId} {store : Store}
variable {id : TaskId} {out : Outcome} {login : LoginId}

namespace System

theorem met_of_token {other : TaskId} {task : Task} {token : Token}
    {but : Option TaskId} (running : system.tasks.get? other = some task)
    (has : task.stage.token = some token) (different : some other ≠ but) :
    system.Met but token.login :=
  Or.inr (Or.inl ⟨other, task, token, different, running, has, rfl⟩)

theorem met_of_session (found : system.clients.get? client = some store)
    {but : Option TaskId} {session : Session}
    (signedIn : store.session = some session) :
    system.Met but session.refreshToken.login :=
  Or.inl ⟨client, store, found, Or.inl ⟨session, signedIn, rfl⟩⟩

theorem met_of_revoke {but : Option TaskId} {token : Token}
    (leaving : (client, token) ∈ system.revokes) :
    system.Met but token.login :=
  Or.inr (Or.inr ⟨_, leaving, rfl⟩)

theorem Met.all {but : Option TaskId} (met : system.Met but login) :
    system.Met none login := by
  rcases met with known | ⟨id, task, token, _, running, has, same⟩ | leaving
  · exact Or.inl known
  · exact Or.inr (Or.inl ⟨id, task, token, (by simp), running, has, same⟩)
  · exact Or.inr (Or.inr leaving)

/-- Only the owner's view says more than that the login is stored. -/
theorem exposed_iff (found : system.clients.get? client = some store)
    (mine : system.vault.owner = some client) :
    system.Exposed login ↔ (system.view client store).Exposes login := by
  constructor
  · rintro (stored | ⟨other, held, found', stored | ⟨owner, exposes⟩⟩)
    · exact Or.inl stored
    · exact Or.inl stored
    · cases mine.symm.trans owner
      cases found.symm.trans found'
      exact Or.inr ⟨owner, exposes⟩
  · intro exposes
    exact Or.inr ⟨client, store, found, exposes⟩

theorem Exposed.owned (exposed : system.Exposed login) :
    system.Owned login := by
  rcases exposed with stored | ⟨other, held, found, stored |
    ⟨owner, _, session, signedIn, ofLogin, _⟩⟩
  · exact Or.inl stored
  · exact Or.inl stored
  · refine Or.inr ?_
    have owner' : system.vault.owner = some other := owner
    have signedIn' : held.session = some session := signedIn
    simp [ownerSession, owner', found, signedIn', ofLogin]

theorem after_mine (mine : system.vault.owner = some client) {later : View} :
    (system.view client store).after system.Exposed later login ↔
      later.Exposes login := View.after_owner mine

theorem after_rest (other : system.vault.owner ≠ some client) {later : View} :
    (system.view client store).after system.Exposed later login ↔
      system.Exposed login := View.after_other other

theorem view_land (same : out.view.client = client) :
    (system.land client id out).view client out.view.store = out.view := by
  rw [← same]
  rfl

/-- What is exposed after a section is what the section's client says. -/
theorem exposed_land (found : system.clients.get? client = some store)
    (same : out.view.client = client)
    (owner : out.view.vault.owner = system.vault.owner)
    (vault : system.vault.owner ≠ some client →
      out.view.vault = system.vault) :
    (system.land client id out).Exposed login ↔
      (system.view client store).after system.Exposed out.view login := by
  have here : (system.land client id out).clients.get? client =
      some out.view.store := by simp [land]
  by_cases mine : system.vault.owner = some client
  · rw [after_mine mine,
      exposed_iff here (owner.trans mine), view_land same]
  · rw [after_rest mine]
    constructor
    · rintro (stored | ⟨other, held, found', stored | ⟨owned, exposes⟩⟩)
      · exact Or.inl (vault mine ▸ stored)
      · exact Or.inl (vault mine ▸ stored)
      · have owned' : system.vault.owner = some other := owner.symm.trans owned
        rcases land_client found' with ⟨rfl, _⟩ | ⟨_, before⟩
        · exact (mine owned').elim
        · exact Or.inr ⟨other, held, before, Or.inr ⟨owned', exposes⟩⟩
    · have restores : system.vault.restorable = some login →
          (system.land client id out).vault.restorable = some login :=
        fun stored => (congrArg _ (vault mine)).trans stored
      rintro (stored | ⟨other, held, before, stored | ⟨owned, exposes⟩⟩)
      · exact Or.inl (restores stored)
      · exact Or.inl (restores stored)
      · have owned' : system.vault.owner = some other := owned
        have different : other ≠ client := fun same => mine (same ▸ owned')
        refine Or.inr ⟨other, held, ?_, Or.inr ⟨owner.trans owned', exposes⟩⟩
        simp only [land, Table.get?_put, different, if_false]
        exact before

end System

/-- What a section of the client may assume. -/
theorem Spared.context (spared : Spared system)
    (found : system.clients.get? client = some store) :
    (system.view client store).Context system.Exposed system.clock where
  toHands := spared.hands client store found
  toDated := spared.dated client store found
  bound login exposed := by
    apply spared.issued
    rcases exposed with stored | ⟨other, held, found', stored |
      ⟨_, _, session, signedIn, rfl, _⟩⟩
    · exact Or.inl ⟨client, store, found, Or.inr (Or.inr
        (Vault.slot_of_restorable stored))⟩
    · exact Or.inl ⟨other, held, found', Or.inr (Or.inr
        (Vault.slot_of_restorable stored))⟩
    · exact System.met_of_session found' signedIn
  known login knows := spared.issued login (Or.inl ⟨client, store, found, knows⟩)
  stored login stored := Or.inl stored
  owner mine := by
    obtain ⟨held, found', on⟩ := spared.sticks.owned client mine
    cases found.symm.trans found'
    exact on
  exposes mine login := System.exposed_iff found mine

/-- A section of the client, whose task was at `past`. -/
structure Section (system : System) (client : ClientId) (store : Store)
    (id : TaskId) (past : Option Stage) (out : Outcome) : Prop where
  found : system.clients.get? client = some store
  was : (system.tasks.get? id).map (·.stage) = past
  spares : out.Spares system.Exposed system.clock past
    (system.view client store)
  steady : ∀ other task, other ≠ id → system.tasks.get? other = some task →
    task.client = client → task.stage.token = none ∨
      (system.view client store).Steady
        ((system.view client store).after system.Exposed out.view)
        out.view task.stage

namespace Section

variable {past : Option Stage}

theorem sameClient (lands : Section system client store id past out) :
    out.view.client = client := lands.spares.leads.client

theorem sameOwner (lands : Section system client store id past out) :
    out.view.vault.owner = system.vault.owner := lands.spares.leads.owner

theorem view (lands : Section system client store id past out) :
    (system.land client id out).view client out.view.store = out.view :=
  System.view_land lands.sameClient

theorem exposed (lands : Section system client store id past out) :
    (system.land client id out).Exposed =
      (system.view client store).after system.Exposed out.view := by
  funext login
  exact propext (System.exposed_land lands.found lands.sameClient
    lands.sameOwner lands.spares.leads.vault)

theorem met_brought (lands : Section system client store id past out)
    {login : LoginId} (brought : brings system.clock past login)
    {but : Option TaskId} (different : but ≠ some id) :
    system.Met but login ∨ login = system.clock := by
  rcases brought with new | ⟨token, has, rfl⟩
  · exact Or.inr new
  · obtain ⟨stage, same, has⟩ := Option.bind_eq_some_iff.mp has
    rw [← lands.was] at same
    obtain ⟨task, running, rfl⟩ := Option.map_eq_some_iff.mp same
    exact Or.inl (System.met_of_token running has (Ne.symm different))

/-- A login that someone knows afterwards was known or is brought in. -/
theorem met (lands : Section system client store id past out)
    {but : Option TaskId} {login : LoginId}
    (met : (system.land client id out).Met but login) :
    system.Met but login ∨ brings system.clock past login := by
  have known : (system.view client store).Knows login ∨
      brings system.clock past login →
      system.Met but login ∨ brings system.clock past login :=
    Or.imp_left fun knows => Or.inl ⟨client, store, lands.found, knows⟩
  rcases met with ⟨other, held, found', knows⟩ |
    ⟨other, task, token, different, running, has, rfl⟩ |
    ⟨⟨other, token⟩, leaving, rfl⟩
  · rcases System.land_client found' with ⟨rfl, rfl⟩ | ⟨_, before⟩
    · rw [System.view_land lands.sameClient] at knows
      exact known (lands.spares.leads.knows login knows)
    · rcases knows with session | marked | stored
      · exact Or.inl (Or.inl ⟨other, held, before, Or.inl session⟩)
      · exact Or.inl (Or.inl ⟨other, held, before, Or.inr (Or.inl marked)⟩)
      · exact known (lands.spares.leads.knows login (Or.inr (Or.inr stored)))
  · rcases System.land_task running with
      ⟨stage, goesOn, rfl, rfl⟩ | ⟨_, before⟩
    · exact known (lands.spares.tokens stage token goesOn has)
    · exact Or.inl (System.met_of_token before has different)
  · simp only [System.land, List.mem_append, List.mem_map, Prod.mk.injEq,
      exists_eq_right_right] at leaving
    rcases leaving with ⟨revoked, _⟩ | before
    · exact known (lands.spares.known token revoked)
    · exact Or.inl (System.met_of_revoke before)

/-- What someone besides the task knew is exposed only if it was, and the
stored login keeps its generation. -/
theorem old (lands : Section system client store id past out)
    (spared : Spared system) {login : LoginId}
    (met : system.Met (some id) login)
    (now : (system.view client store).after system.Exposed out.view login) :
    system.Exposed login ∧ out.view.vault.family = system.vault.family := by
  by_cases mine : system.vault.owner = some client
  · rcases lands.spares.leads.old mine login
      ((System.after_mine mine).mp now) with
      before | new | ⟨token, has, rfl⟩
    · exact before
    · exact (Nat.lt_irrefl _ (new ▸ spared.issued login met.all)).elim
    · obtain ⟨stage, same, has⟩ := Option.bind_eq_some_iff.mp has
      rw [← lands.was] at same
      obtain ⟨task, running, rfl⟩ := Option.map_eq_some_iff.mp same
      exact (spared.fresh id task token running has met).elim
  · refine ⟨(System.after_rest mine).mp now,
      ?_⟩
    rw [lands.spares.leads.vault mine]
    rfl

theorem hands_other (lands : Section system client store id past out)
    (spared : Spared system) {other : ClientId} {held : Store}
    (before : system.clients.get? other = some held) :
    (View.mk other held out.view.vault).Hands
      ((system.view client store).after system.Exposed out.view) where
  on session signedIn now := by
    have was := lands.old spared (System.met_of_session before signedIn) now
    exact (spared.hands other held before).on session signedIn was.1
  marked open_ session signedIn now := by
    have was := lands.old spared (System.met_of_session before signedIn) now
    exact (spared.hands other held before).marked open_ session signedIn was.1
  family session family signedIn now mark := by
    have was := lands.old spared (System.met_of_session before signedIn) now
    have same := (spared.hands other held before).family session family
      signedIn was.1 mark
    exact same.trans was.2.symm

/-- A new login of another task stays unknown. -/
theorem unmet (lands : Section system client store id past out)
    (spared : Spared system) {other : TaskId} {task : Task} {token : Token}
    (different : other ≠ id) (running : system.tasks.get? other = some task)
    (new : task.stage.fresh = some token) :
    ¬ (system.land client id out).Met (some other) token.login := by
  intro met
  have has := Stage.token_of_fresh new
  have known := spared.issued token.login
    (System.met_of_token running has (by simp))
  rcases lands.met met with before | brought
  · exact spared.fresh other task token running new before
  · have apart : some other ≠ some id :=
      fun same => different (Option.some.inj same)
    rcases lands.met_brought brought apart with before | same
    · exact spared.fresh other task token running new before
    · exact Nat.lt_irrefl _ (same ▸ known)

theorem fresh_other (lands : Section system client store id past out)
    (spared : Spared system) {other : TaskId} {task : Task} {token : Token}
    (different : other ≠ id) (running : system.tasks.get? other = some task)
    (new : task.stage.fresh = some token) {held : Store}
    (found : (system.land client id out).clients.get? task.client = some held)
    (hands : ¬ system.Exposed token.login) :
    ¬ (system.view client store).after system.Exposed out.view token.login ∧
      ¬ ((system.land client id out).view task.client held).Knows
        token.login := by
  constructor
  · intro now
    have has := Stage.token_of_fresh new
    exact hands (lands.old spared (System.met_of_token running has
      (fun same => different (Option.some.inj same))) now).1
  · intro knows
    exact lands.unmet spared different running new
      (Or.inl ⟨task.client, held, found, knows⟩)

/-- A waiting task of another client. -/
theorem tasks_other (lands : Section system client store id past out)
    (spared : Spared system) {other : TaskId} {task : Task} {held : Store}
    (different : other ≠ id) (running : system.tasks.get? other = some task)
    (notMine : task.client ≠ client)
    (before : system.clients.get? task.client = some held) :
    task.stage.Hands ((system.view client store).after system.Exposed out.view)
      ((system.land client id out).view task.client held) := by
  have was := spared.tasks other task held running before
  have found : (system.land client id out).clients.get? task.client =
      some held := by
    simp only [System.land, Table.get?_put, notMine, if_false]
    exact before
  have older : ∀ {token : Token}, task.stage.token = some token →
      (system.view client store).after system.Exposed out.view token.login →
      system.Exposed token.login ∧
        out.view.vault.family = system.vault.family := by
    intro token has now
    exact lands.old spared (System.met_of_token running has
      (fun same => different (Option.some.inj same))) now
  refine ⟨?_, ?_, ?_, ?_⟩
  · intro token sent now
    obtain ⟨exposed, family⟩ := older (Stage.token_of_refreshes sent) now
    obtain ⟨on, mark⟩ := was.out token sent exposed
    exact ⟨on, mark.trans (congrArg some family.symm)⟩
  · intro gen stored family restoring
    obtain ⟨on, marked⟩ := was.restores gen stored family restoring
    refine ⟨on, fun now => ?_⟩
    obtain ⟨exposed, same⟩ := older (by rw [restoring]; rfl) now
    exact (marked exposed).trans same.symm
  · intro gen stored family restoring owner current
    have owner' : system.vault.owner = some task.client :=
      lands.sameOwner.symm.trans owner
    have vault : out.view.vault = system.vault := by
      apply lands.spares.leads.vault
      intro mine
      cases owner'.symm.trans mine
      exact notMine rfl
    have reads := was.reads gen stored family restoring owner' current
    simpa [System.view, System.land, vault] using reads
  · intro token new
    exact lands.fresh_other spared different running new found
      (was.fresh token new).1

/-- A waiting task of the section's own client. -/
theorem tasks_mine (lands : Section system client store id past out)
    (spared : Spared system) {other : TaskId} {task : Task}
    (different : other ≠ id) (running : system.tasks.get? other = some task)
    (mine : task.client = client) :
    task.stage.Hands ((system.view client store).after system.Exposed out.view)
      out.view := by
  rcases lands.steady other task different running mine with none | steady
  · exact Stage.hands_of_none none
  subst mine
  have was := spared.tasks other task store running lands.found
  have sameView := lands.view
  have older : ∀ {token : Token}, task.stage.token = some token →
      (system.view task.client store).after system.Exposed out.view
        token.login →
      system.Exposed token.login ∧
        out.view.vault.family = system.vault.family := by
    intro token has now
    exact lands.old spared (System.met_of_token running has
      (fun same => different (Option.some.inj same))) now
  refine ⟨?_, ?_, ?_, ?_⟩
  · intro token sent now
    obtain ⟨exposed, family⟩ := older (Stage.token_of_refreshes sent) now
    obtain ⟨on, mark⟩ := was.out token sent exposed
    refine ⟨lands.spares.leads.stays on, ?_⟩
    rw [family]
    exact steady.marks token _ sent now on mark
  · intro gen stored family restoring
    obtain ⟨on, marked⟩ := was.restores gen stored family restoring
    refine ⟨lands.spares.leads.stays on, fun now => ?_⟩
    obtain ⟨exposed, same⟩ := older (by rw [restoring]; rfl) now
    exact (marked exposed).trans same.symm
  · intro gen stored family restoring owner current
    rw [lands.sameClient, lands.sameOwner] at owner
    have ofGen : task.stage.gen = some gen := by rw [restoring]; rfl
    obtain ⟨held, found', safe⟩ := spared.sticks.tasks other task running
    cases lands.found.symm.trans found'
    obtain ⟨current', vault⟩ :=
      steady.reads gen ofGen (safe.gen gen ofGen) owner current
    rw [vault]
    exact was.reads gen stored family restoring owner current'
  · intro token new
    have found : (system.land task.client id out).clients.get? task.client =
        some out.view.store := by simp [System.land]
    have kept :=
      lands.fresh_other spared different running new found (was.fresh token new).1
    rwa [sameView] at kept

end Section

theorem Spared.land (spared : Spared system) {past : Option Stage}
    (lands : Section system client store id past out)
    (sticks : Sticks (system.land client id out))
    (one : OneFlight (system.land client id out)) :
    Spared (system.land client id out) := by
  have leads := lands.spares.leads
  have sameView := lands.view
  refine ⟨sticks, one, ?_, ?_, ?_, ?_, ?_, ?_, ?_, ?_⟩
  · intro other held found
    rw [lands.exposed]
    rcases System.land_client found with ⟨rfl, rfl⟩ | ⟨_, before⟩
    · rw [sameView]
      exact leads.toHands
    · exact lands.hands_other spared before
  · intro other held found
    rcases System.land_client found with ⟨rfl, rfl⟩ | ⟨_, before⟩
    · rw [sameView]
      exact leads.toDated
    · have dated := spared.dated other held before
      exact ⟨dated.succ.session, dated.succ.marks⟩
  · intro other task held running found
    rw [lands.exposed]
    rcases System.land_task running with
      ⟨stage, goesOn, rfl, rfl⟩ | ⟨different, before⟩
    · rcases System.land_client found with ⟨_, rfl⟩ | ⟨notMine, _⟩
      · rw [sameView]
        exact lands.spares.stage stage goesOn
      · exact (notMine rfl).elim
    · rcases System.land_client found with ⟨mine, rfl⟩ | ⟨notMine, found'⟩
      · rw [mine, sameView]
        exact lands.tasks_mine spared different before mine
      · exact lands.tasks_other spared different before notMine found'
  · intro other task token running new
    rcases System.land_task running with ⟨stage, goesOn, rfl, rfl⟩ | ⟨_, before⟩
    · rw [(lands.spares.fresh stage token goesOn new).1]
      exact Nat.lt_succ_self system.clock
    · exact Nat.lt_succ_of_lt (spared.young other task token before new)
  · intro login met
    have known : system.Met none login ∨ login = system.clock := by
      rcases lands.met met with before | brought
      · exact Or.inl before
      · exact lands.met_brought brought (by simp)
    rcases known with before | rfl
    · exact Nat.lt_succ_of_lt (spared.issued login before)
    · exact Nat.lt_succ_self system.clock
  · intro other task token running new met
    rcases System.land_task running with
      ⟨stage, goesOn, rfl, rfl⟩ | ⟨different, before⟩
    · -- The answer changed nothing else, and its login is the server's newest.
      obtain ⟨rfl, same, quiet⟩ := lands.spares.fresh stage token goesOn new
      have unknown : ¬ system.Met none system.clock :=
        fun met => Nat.lt_irrefl _ (spared.issued _ met)
      have vault : out.view.vault = system.vault := by rw [same]; rfl
      rcases met with ⟨third, held, found, knows⟩ |
        ⟨third, waiting, sent, notIt, running', has, ofLogin⟩ |
        ⟨⟨third, revoked⟩, leaving, ofLogin⟩
      · rcases System.land_client found with ⟨rfl, rfl⟩ | ⟨_, found'⟩
        · rw [sameView, same] at knows
          exact unknown (Or.inl ⟨third, store, lands.found, knows⟩)
        · refine unknown (Or.inl ⟨third, held, found', ?_⟩)
          simpa [System.view, System.land, vault] using knows
      · rcases System.land_task running' with ⟨_, _, rfl, _⟩ | ⟨_, before'⟩
        · exact notIt rfl
        · have met : system.Met none sent.login :=
            System.met_of_token before' has (by simp)
          rw [ofLogin] at met
          exact unknown met
      · simp only [System.land, quiet, List.map_nil, List.nil_append] at leaving
        have met : system.Met none revoked.login :=
          System.met_of_revoke leaving
        have sameLogin : revoked.login = system.clock := ofLogin
        rw [sameLogin] at met
        exact unknown met
    · exact lands.unmet spared different before new met
  · intro other token leaving now
    rw [lands.exposed] at now
    show out.view.vault.owner = some other
    rw [lands.sameOwner]
    simp only [System.land, List.mem_append, List.mem_map, Prod.mk.injEq,
      exists_eq_right_right] at leaving
    rcases leaving with ⟨revoked, rfl⟩ | before
    · exact lands.spares.revokes token revoked now
    · exact spared.revokes other token before
        (lands.old spared (System.met_of_revoke before) now).1
  · intro entry logged
    rcases List.mem_append.mp logged with news | before
    · obtain ⟨event, emitted, rfl⟩ := List.mem_map.mp news
      cases event with
      | sentLogout token =>
          intro _ stored
          exact lands.spares.direct token emitted (Or.inl stored)
      | _ => exact trivial
    · exact spared.spared entry before

/-- A newcomer takes the slot, and nothing is on its way that ends the login
there. -/
theorem Spared.enable (spared : Spared system)
    (found : system.clients.get? client = some store)
    (alone : ∀ other task, system.tasks.get? other = some task →
      task.client ≠ client)
    (quiet : ∀ entry ∈ system.revokes,
      system.vault.restorable ≠ some entry.2.login)
    (begun : begin (system.view client store) .enable = some out)
    (sticks : Sticks (system.land client id out))
    (one : OneFlight (system.land client id out)) :
    Spared (system.land client id out) := by
  simp only [begin] at begun
  split at begun
  · cases begun
  next unused =>
    simp only [System.view, not_or, Bool.not_eq_true,
      Option.isSome_eq_false_iff, Option.isNone_iff_eq_none] at unused
    cases begun
    have stored : ∀ {login}, (system.land client id
        (system.view client store).setPersistence.done).Exposed login →
        system.vault.restorable = some login := by
      rintro login (stored | ⟨other, held, found', stored |
        ⟨owner, _, session, signedIn, _⟩⟩)
      · exact stored
      · exact stored
      · cases owner
        rcases System.land_client found' with ⟨_, rfl⟩ | ⟨different, _⟩
        · cases unused.2.symm.trans signedIn
        · exact (different rfl).elim
    have less : ∀ {login}, (system.land client id
        (system.view client store).setPersistence.done).Exposed login →
        system.Exposed login := fun now => Or.inl (stored now)
    have met : ∀ {but login}, (system.land client id
        (system.view client store).setPersistence.done).Met but login →
        system.Met but login := by
      rintro but login (⟨other, held, found', knows⟩ |
        ⟨other, task, token, different, running, has⟩ | leaving)
      · rcases System.land_client found' with ⟨rfl, rfl⟩ | ⟨_, before⟩
        · exact Or.inl ⟨other, store, found, knows⟩
        · exact Or.inl ⟨other, held, before, knows⟩
      · rcases System.land_task running with ⟨_, goesOn, _⟩ | ⟨_, before⟩
        · cases goesOn
        · exact Or.inr (Or.inl ⟨other, task, token, different, before, has⟩)
      · exact Or.inr (Or.inr leaving)
    refine ⟨sticks, one, ?_, ?_, ?_, ?_, ?_, ?_, ?_, spared.spared⟩
    · intro other held found'
      rcases System.land_client found' with ⟨rfl, rfl⟩ | ⟨_, before⟩
      · constructor
        · intro session signedIn
          cases unused.2.symm.trans signedIn
        · intro _ session signedIn
          cases unused.2.symm.trans signedIn
        · intro session _ signedIn
          cases unused.2.symm.trans signedIn
      · have hands := spared.hands other held before
        exact ⟨fun session signedIn now => hands.on session signedIn (less now),
          fun open_ session signedIn now =>
            hands.marked open_ session signedIn (less now),
          fun session family signedIn now mark =>
            hands.family session family signedIn (less now) mark⟩
    · intro other held found'
      rcases System.land_client found' with ⟨rfl, rfl⟩ | ⟨_, before⟩
      · have dated := (spared.dated other store found).succ
        exact ⟨dated.session, dated.marks⟩
      · have dated := (spared.dated other held before).succ
        exact ⟨dated.session, dated.marks⟩
    · intro other task held running found'
      rcases System.land_task running with ⟨_, goesOn, _⟩ | ⟨_, before⟩
      · cases goesOn
      rcases System.land_client found' with ⟨mine, _⟩ | ⟨different, found'⟩
      · exact (alone other task before mine).elim
      have hands := spared.tasks other task held before found'
      refine ⟨fun token sent now => hands.out token sent (less now), ?_, ?_, ?_⟩
      · intro gen stored family restoring
        have restores := hands.restores gen stored family restoring
        exact ⟨restores.1, fun now => restores.2 (less now)⟩
      · intro gen stored family _ owner
        cases owner
        exact (different rfl).elim
      · intro token new
        have fresh := hands.fresh token new
        exact ⟨fun now => fresh.1 (less now), fresh.2⟩
    · intro other task token running new
      rcases System.land_task running with ⟨_, goesOn, _⟩ | ⟨_, before⟩
      · cases goesOn
      · exact Nat.lt_succ_of_lt (spared.young other task token before new)
    · intro login known
      exact Nat.lt_succ_of_lt (spared.issued login (met known))
    · intro other task token running new known
      rcases System.land_task running with ⟨_, goesOn, _⟩ | ⟨_, before⟩
      · cases goesOn
      · exact spared.fresh other task token before new (met known)
    · intro other token leaving now
      exact (quiet (other, token) leaving (stored now)).elim

theorem Spared.create (spared : Spared system)
    (free : ∀ held, system.clients.get? client ≠ some held)
    (sticks : Sticks { system with
      clients := system.clients.put client Store.new }) :
    Spared { system with
      clients := system.clients.put client Store.new } := by
  have known : ∀ {other held}, system.clients.get? other = some held →
      (system.clients.put client Store.new).get? other = some held := by
    intro other held found
    have different : other ≠ client := fun same => free held (same ▸ found)
    exact (Table.get?_put_ne _ _ different).trans found
  have either : ∀ {other held},
      (system.clients.put client Store.new).get? other = some held →
      held = Store.new ∨ system.clients.get? other = some held := by
    intro other held found
    simp only [Table.get?_put] at found
    split at found
    · exact Or.inl (Option.some.inj found).symm
    · exact Or.inr found
  have less : ∀ {login}, System.Exposed { system with
      clients := system.clients.put client Store.new } login →
      system.Exposed login := by
    rintro login (stored | ⟨other, held, found, stored | exposes⟩)
    · exact Or.inl stored
    · exact Or.inl stored
    · rcases either found with rfl | before
      · obtain ⟨_, _, session, signedIn, _⟩ := exposes
        cases signedIn
      · exact Or.inr ⟨other, held, before, Or.inr exposes⟩
  have met : ∀ {but login}, System.Met { system with
      clients := system.clients.put client Store.new } but login →
      system.Met but login ∨
        ∃ stored, system.vault.slot = some stored ∧
          stored.refreshToken.login = login := by
    rintro but login (⟨other, held, found, knows⟩ | rest)
    · rcases either found with rfl | before
      · rcases knows with ⟨_, signedIn, _⟩ | ⟨_, _, marked, _⟩ | stored
        · cases signedIn
        · cases marked
        · exact Or.inr stored
      · exact Or.inl (Or.inl ⟨other, held, before, knows⟩)
    · exact Or.inl (Or.inr rest)
  refine ⟨sticks, spared.one, ?_, ?_, ?_, spared.young, ?_, ?_, ?_,
    spared.spared⟩
  · intro other held found
    rcases either found with rfl | before
    · constructor
      · intro _ signedIn
        cases signedIn
      · intro _ _ signedIn
        cases signedIn
      · intro _ _ signedIn
        cases signedIn
    · have hands := spared.hands other held before
      exact ⟨fun session signedIn now => hands.on session signedIn (less now),
        fun open_ session signedIn now =>
          hands.marked open_ session signedIn (less now),
        fun session family signedIn now mark =>
          hands.family session family signedIn (less now) mark⟩
  · intro other held found
    rcases either found with rfl | before
    · constructor
      · intro _ signedIn
        cases signedIn
      · intro _ _ marked
        cases marked
    · exact spared.dated other held before
  · intro other task held running found
    obtain ⟨held', found', _⟩ := spared.sticks.tasks other task running
    cases (known found').symm.trans found
    have hands := spared.tasks other task held running found'
    refine ⟨fun token sent now => hands.out token sent (less now), ?_,
      hands.reads, ?_⟩
    · intro gen stored family restoring
      have restores := hands.restores gen stored family restoring
      exact ⟨restores.1, fun now => restores.2 (less now)⟩
    · intro token new
      have fresh := hands.fresh token new
      exact ⟨fun now => fresh.1 (less now), fresh.2⟩
  · intro login now
    rcases met now with before | ⟨stored, held, rfl⟩
    · exact spared.issued login before
    · exact spared.sticks.slotIssued stored held
  · intro other task token running new now
    rcases met now with before | stored
    · exact spared.fresh other task token running new before
    · obtain ⟨held, found, _⟩ := spared.sticks.tasks other task running
      exact ((spared.tasks other task held running found).fresh token new).2
        (Or.inr (Or.inr stored))
  · intro other token leaving now
    exact spared.revokes other token leaving (less now)

theorem Spared.leave (spared : Spared system) {token : Token}
    (leaving : (client, token) ∈ system.revokes) :
    Spared { system with
      revokes := system.revokes.erase (client, token)
      log := system.entry client (.sentLogout token) :: system.log } := by
  have met : ∀ {but login}, System.Met { system with
      revokes := system.revokes.erase (client, token)
      log := system.entry client (.sentLogout token) :: system.log } but login →
      system.Met but login := by
    rintro but login (known | held | ⟨entry, member, same⟩)
    · exact Or.inl known
    · exact Or.inr (Or.inl held)
    · exact Or.inr (Or.inr ⟨entry, List.mem_of_mem_erase member, same⟩)
  refine ⟨spared.sticks.leave, spared.one, spared.hands, spared.dated,
    spared.tasks, spared.young, fun login now => spared.issued login (met now),
    fun other task token running new now =>
      spared.fresh other task token running new (met now),
    fun other token member now => spared.revokes other token
      (List.mem_of_mem_erase member) now, ?_⟩
  intro entry logged
  rcases List.mem_cons.mp logged with rfl | before
  · intro notMine stored
    exact notMine (spared.revokes client token leaving (Or.inl stored))
  · exact spared.spared entry before

theorem Stage.holdsRefresh_of_token {stage : Stage} {token : Token}
    (has : stage.token = some token) : stage.holdsRefresh = true := by
  cases stage <;> first | rfl | cases has

theorem step_spared (spared : Spared system) {action : Action}
    (allowed : action.Fences ∧ MarksKept system action)
    (taken : step system action = some next) : Spared next := by
  have sticks := step_sticks spared.sticks taken
  have one := step_oneFlight spared.one taken
  cases action with
  | create client =>
      simp only [step] at taken
      split at taken
      · cases taken
      · next free =>
          cases taken
          refine spared.create (fun held found => free ?_) sticks
          exact Table.contains_iff.mpr ⟨held, found⟩
  | begin client op id =>
      obtain ⟨store, out, found, open_, idle, alone, begun, rfl⟩ :=
        step_begin taken
      have context := spared.context found
      by_cases enables : op = .enable
      · subst enables
        exact spared.enable found (alone rfl) (allowed.2.1 rfl) begun sticks one
      refine spared.land ⟨found, by rw [idle]; rfl, begin_spares context open_
        enables allowed.1 begun, ?_⟩ sticks one
      intro other task _ running mine
      refine Or.inr ?_
      cases signsOut : op.isLogout with
      | false => exact begin_steady enables signsOut begun
      | true =>
          cases op with
          | logout faults =>
              cases begun
              apply View.logout_steady (allowed.1 faults rfl)
              intro notMine session signedIn now
              exact allowed.2.2 rfl notMine store found session signedIn
                now.owned task (Table.mem_values.mpr ⟨other, running⟩) mine
          | _ => cases signsOut
  | resume id input =>
      obtain ⟨task, store, out, running, found, ready, resumed, rfl⟩ :=
        step_resume taken
      have context := spared.context found
      have spares := resume_spares context
        (spared.tasks id task store running found)
        (fun token new => spared.young id task token running new) allowed.1
        (fun _ now => now.owned) (allowed.2 task running store found) resumed
      refine spared.land ⟨found, by rw [running]; rfl, spares, ?_⟩ sticks one
      intro other task' different running' same
      -- Under the refresh lock no other task of the client has a token out.
      by_cases locked : task.stage.holdsRefresh = true ∨
          task.stage.takesRefresh input = true
      · refine Or.inl ?_
        have waits : task'.stage.holdsRefresh = false := by
          rcases locked with held | takes
          · by_contra both
            exact different (spared.one other id task' task running' running
              same (eq_true_of_ne_false both) held)
          · exact System.refreshFree_iff.mp (ready.1 takes) other task' running'
              same
        by_contra has
        obtain ⟨token, has⟩ := Option.ne_none_iff_exists'.mp has
        cases waits.symm.trans (Stage.holdsRefresh_of_token has)
      · simp only [not_or, Bool.not_eq_true] at locked
        exact Or.inr (resume_steady locked.1 locked.2 resumed)
  | leave client token =>
      simp only [step] at taken
      split at taken
      · next leaving =>
          cases taken
          exact spared.leave leaving
      · cases taken
  | restart => exact allowed.1.elim

/-- A process begins with the slot, and the fence, that an earlier one left. -/
def System.heir (slot : Option Session) (fenced : Bool) : System :=
  { System.start with
    vault := ⟨slot, fenced, none, 0⟩
    clock := (slot.map (·.refreshToken.login + 1)).getD 0 }

theorem heir_sticks (slot : Option Session) (fenced : Bool) :
    Sticks (System.heir slot fenced) where
  slotIssued stored held := by
    cases held
    exact Nat.lt_succ_self _
  fenced _ _ past := by
    obtain ⟨_, member, _⟩ := past
    cases member
  clients _ _ found := by cases found
  tasks _ _ running := by cases running
  owned _ owner := by cases owner
  endedIssued _ past := by
    obtain ⟨_, member, _⟩ := past
    cases member
  noRevival := trivial

theorem heir_spared (slot : Option Session) (fenced : Bool) :
    Spared (System.heir slot fenced) where
  sticks := heir_sticks slot fenced
  one _ _ _ _ running := by cases running
  hands _ _ found := by cases found
  dated _ _ found := by cases found
  tasks _ _ _ running := by cases running
  young _ _ _ running := by cases running
  issued login met := by
    rcases met with ⟨_, _, found, _⟩ | ⟨_, _, _, _, running, _⟩ |
      ⟨_, member, _⟩
    · cases found
    · cases running
    · cases member
  fresh _ _ _ running := by cases running
  revokes _ _ member := by cases member
  spared _ logged := by cases logged

end

/-! ### A login whose write failed -/

/-- A login, its refresh, and a second client that restores it; then the first
one signs out. -/
def handedOver (write : Faults) : List Action :=
  [.create 1, .begin 1 .enable 0, .begin 1 .login 0,
    .resume 0 (.proceed .none), .resume 0 (.proceed .none),
    .resume 0 (.pair .none), .resume 0 (.me ⟨7, 0⟩ write),
    .begin 1 .refresh 1, .resume 1 (.proceed .none), .resume 1 (.pair .none),
    .create 2, .begin 2 .enable 2, .begin 2 .restore 2,
    .resume 2 (.proceed .none), .resume 2 (.pair .none),
    .begin 1 (.logout .none) 3]

/-- The login's own write fails; its refresh is stored. -/
def unmarkedRun : List Action :=
  handedOver { Faults.none with replaceFails := true } ++ [.leave 1 ⟨8, 4⟩]

end Brook.SignedIn
