import Brook.SignedIn.Ended

namespace Brook.SignedIn

open Transition

/-! A sign-out sticks: nothing but a later attempt signs the client in. -/

/-- The client's events since its last `logout` returned, the newest first. -/
def sinceLogout (client : ClientId) (log : List Entry) : List Event :=
  ((log.filter (·.client = client)).map (·.event)).takeWhile (!·.isLogout)

/-- Whoever holds a session installed one since the last `logout`, with an
attempt reserved since then. -/
def SignedInSince (system : System) : Prop :=
  ∀ client store, system.clients.get? client = some store →
    store.session.isSome → ∃ gen login restored,
      [Event.installed gen login restored, .reserved gen].Sublist
        (sinceLogout client system.log)

/-! ### One section -/

section

variable {view later : View} {faults : Faults} {gen : Nat}

/-- The attempt that the stage's own call reserved. -/
def Stage.reserved : Stage → Option Nat
  | .loginQueued gen | .loginSent gen | .loginProfile gen _
  | .restoreQueued gen | .restoreSent gen _ _ => some gen
  | _ => none

/-- Nobody is signed in, and no challenge opened. -/
structure View.Keeps (view later : View) : Prop where
  session : later.store.session.isSome → view.store.session.isSome
  challenge : later.store.challengeOpen = true →
    view.store.challengeOpen = true ∧
      later.store.loginGen = view.store.loginGen

/-- Who is signed in was so before, or was installed by an attempt reserved. -/
structure Outcome.Tries (reserved : Nat → Prop) (view : View) (out : Outcome) :
    Prop where
  session : out.view.store.session.isSome → view.store.session.isSome ∨
    ∃ gen login restored, .installed gen login restored ∈ out.events ∧
      reserved gen
  challenge : out.view.store.challengeOpen = true →
    reserved out.view.store.loginGen
  stage : ∀ stage gen, out.stage = some stage → stage.reserved = some gen →
    gen = out.view.store.loginGen → reserved gen ∨ .reserved gen ∈ out.events

namespace View

theorem Keeps.refl (view : View) : view.Keeps view :=
  ⟨id, fun challenge => ⟨challenge, rfl⟩⟩

theorem keeps_publishFailed (gen : Nat) :
    view.Keeps (view.publishFailedIfCurrent gen) := by
  unfold publishFailedIfCurrent
  split
  · exact ⟨id, fun challenge => ⟨challenge, rfl⟩⟩
  · exact .refl view

theorem keeps_endChallenge (gen : Nat) :
    view.Keeps (view.endChallenge gen) := by
  unfold View.endChallenge
  split
  · exact ⟨id, by simp⟩
  · exact .refl view

theorem keeps_signOut (close : Bool) :
    view.Keeps (view.signOut close faults).1 :=
  ⟨by simp, by simp⟩

theorem keeps_takeOut {displaced : View} {taken : Option Session}
    (out : view.takeOutForLogin gen faults = some (displaced, taken)) :
    view.Keeps displaced ∧ displaced.store.loginGen = view.store.loginGen := by
  rcases takeOutForLogin_cases view faults gen with
    ⟨_, stale⟩ | ⟨_, _, nobody⟩ | ⟨old, _, _, took⟩
  · cases stale.symm.trans out
  · cases nobody.symm.trans out
    exact ⟨⟨id, fun challenge => ⟨challenge, rfl⟩⟩, rfl⟩
  · cases took.symm.trans out
    exact ⟨⟨by simp, fun challenge => ⟨challenge, rfl⟩⟩, rfl⟩

theorem keeps_clearIfHolds (rejected : Token) :
    view.Keeps (view.clearIfHolds rejected faults) := by
  rcases clearIfHolds_cases view faults rejected with
    ⟨_, same⟩ | ⟨session, _, _, took⟩
  · rw [same]
    exact .refl view
  · rw [took]
    exact ⟨by simp, fun challenge => ⟨challenge, rfl⟩⟩

theorem keeps_clearPersistedIfHolds (refused : Token) :
    view.Keeps (view.clearPersistedIfHolds gen refused faults) := by
  rcases clearPersistedIfHolds_cases view faults gen refused with same | ⟨_, _, _, _, _, cleared⟩
  · rw [same]
    exact .refl view
  · rw [cleared]
    exact ⟨id, fun challenge => ⟨challenge, rfl⟩⟩

theorem keeps_replaceUser (epoch : Nat) (user : User) :
    view.Keeps (view.replaceUser epoch user faults) := by
  rcases replaceUser_cases view faults epoch user with
    same | ⟨session, vault, _, signedIn, _, _, replaced⟩
  · rw [same]
    exact .refl view
  · rw [replaced]
    exact ⟨fun _ => by rw [signedIn]; rfl, fun challenge => ⟨challenge, rfl⟩⟩

variable (view faults) in
theorem keeps_commitRefresh (rotatedFrom fresh : Token) (rotation : Bool) :
    view.Keeps (view.commitRefresh rotatedFrom fresh rotation faults).1 := by
  rcases commitRefresh_cases view faults rotatedFrom
      fresh rotation with ⟨_, discarded⟩ | ⟨stored, _, _, _, _, kept⟩ |
    ⟨session, vault, marks, _, signedIn, _, _, committed⟩
  · rw [discarded]
    exact ⟨id, fun challenge => ⟨challenge, rfl⟩⟩
  · rw [kept]
    exact ⟨id, fun challenge => ⟨challenge, rfl⟩⟩
  · rw [committed]
    exact ⟨fun _ => by rw [signedIn]; rfl, fun challenge => ⟨challenge, rfl⟩⟩

end View

namespace Outcome

variable {reserved : Nat → Prop} {out : Outcome} {stage : Stage}

/-- What a section may assume: the attempts in its hands were reserved. -/
def Holds (reserved : Nat → Prop) (view : View) (stage : Option Stage) :
    Prop :=
  (view.store.challengeOpen = true → reserved view.store.loginGen) ∧
  ∀ gen, stage.bind Stage.reserved = some gen →
    gen = view.store.loginGen → reserved gen

theorem Tries.done (holds : Holds reserved view (some stage))
    (keeps : view.Keeps later) : later.done.Tries reserved view where
  session signedIn := Or.inl (keeps.session signedIn)
  challenge challenge := by
    obtain ⟨before, same⟩ := keeps.challenge challenge
    have reserved := holds.1 before
    rwa [← same] at reserved
  stage _ _ goesOn := by cases goesOn

theorem Tries.goesOn {stage' : Stage}
    (holds : Holds reserved view (some stage)) (keeps : view.Keeps later)
    (mine : ∀ gen, stage'.reserved = some gen →
      stage.reserved = some gen ∧
        later.store.loginGen = view.store.loginGen) :
    (later.goesOn stage').Tries reserved view where
  session signedIn := Or.inl (keeps.session signedIn)
  challenge challenge := by
    obtain ⟨before, same⟩ := keeps.challenge challenge
    have reserved := holds.1 before
    rwa [← same] at reserved
  stage next gen goesOn ofStage current := by
    cases goesOn
    obtain ⟨before, same⟩ := mine gen ofStage
    exact Or.inl (holds.2 gen before (current.trans same))

theorem Tries.emit (tries : out.Tries reserved view) (event : Event) :
    (out.emit event).Tries reserved view where
  session signedIn := by
    rcases tries.session signedIn with before | ⟨gen, login, restored, new, ok⟩
    · exact Or.inl before
    · exact Or.inr ⟨gen, login, restored, List.mem_cons_of_mem _ new, ok⟩
  challenge := tries.challenge
  stage next gen goesOn ofStage current := by
    rcases tries.stage next gen goesOn ofStage current with before | new
    · exact Or.inl before
    · exact Or.inr (List.mem_cons_of_mem _ new)

theorem Tries.revoke (tries : out.Tries reserved view) (token : Token) :
    (out.revoke token).Tries reserved view := by
  have handed := tries.emit (.handed token (out.view.spares token))
  exact ⟨handed.session, handed.challenge, handed.stage⟩

theorem Tries.revokeAll (tries : out.Tries reserved view)
    (taken : Option Session) : (out.revokeAll taken).Tries reserved view := by
  cases taken with
  | none => exact tries
  | some old => exact tries.revoke _

/-- A session installed by an attempt that is reserved. -/
theorem Tries.installed {login : LoginId} {restored : Bool}
    (challenge : out.view.store.challengeOpen = true →
      reserved out.view.store.loginGen)
    (plain : out.stage.bind Stage.reserved = none)
    (ok : reserved gen) :
    (out.emit (.installed gen login restored)).Tries reserved view where
  session _ := Or.inr ⟨gen, login, restored, List.mem_cons_self, ok⟩
  challenge := challenge
  stage next attempt goesOn ofStage _ := by
    have goesOn' : out.stage = some next := goesOn
    rw [goesOn', Option.bind_some, ofStage] at plain
    cases plain

end Outcome

open Outcome

variable {reserved : Nat → Prop}

namespace View

theorem loginStart_tries
    (holds : Holds reserved view (some (.loginQueued gen))) :
    (view.loginStart gen faults).Tries reserved view := by
  unfold loginStart
  cases took : view.takeOutForLogin gen faults with
  | none => exact .done holds (.refl view)
  | some out =>
      obtain ⟨displaced, taken⟩ := out
      obtain ⟨keeps, same⟩ := keeps_takeOut took
      apply Tries.revokeAll
      apply Tries.goesOn holds keeps
      intro _ ofStage
      exact ⟨ofStage, same⟩

theorem loginProfile_tries {token : Token} (user : User)
    (holds : Holds reserved view (some (.loginProfile gen token))) :
    (view.loginProfile gen token user faults).Tries reserved view := by
  unfold loginProfile
  rcases installForLogin_cases view faults gen ⟨user, token⟩ none with
    ⟨_, same⟩ | ⟨_, _, _, same⟩ | ⟨vault, marks, current, _, installed⟩
  · rw [same]
    exact Tries.revoke (.done holds (.refl view)) token
  · rw [same]
    exact Tries.revoke (.done holds (.refl view)) token
  · rw [installed]
    exact Tries.installed holds.1 rfl (holds.2 gen rfl current.2.symm)

theorem totpProfile_tries {token : Token} (user : User)
    (holds : Holds reserved view (some (.totpProfile gen token))) :
    (view.totpProfile gen token user faults).Tries reserved view := by
  unfold totpProfile
  rcases installForChallenge_cases view faults gen ⟨user, token⟩ with
    ⟨_, same⟩ | ⟨vault, marks, current, _, installed⟩
  · rw [same]
    exact Tries.revoke (.done holds (.refl view)) token
  · rw [installed]
    refine Tries.installed (by simp [done]) rfl ?_
    rw [← current.1.2]
    exact holds.1 current.2

theorem restoreStart_tries
    (holds : Holds reserved view (some (.restoreQueued gen))) :
    (view.restoreStart gen faults).Tries reserved view := by
  unfold restoreStart
  split
  · exact .done holds (.refl view)
  split
  · exact .done holds (.refl view)
  split
  · exact .done holds ⟨id, fun challenge => ⟨challenge, rfl⟩⟩
  · split
    · apply Tries.emit
      apply Tries.goesOn holds (.refl view)
      intro _ ofStage
      exact ⟨ofStage, rfl⟩
    · exact .done holds (.refl view)

theorem restorePair_tries {stored : Session} {family : Nat} {token : Token}
    (holds : Holds reserved view (some (.restoreSent gen stored family))) :
    (view.restorePair gen stored family token faults).Tries reserved view := by
  unfold restorePair
  rcases installForLogin_cases view faults gen ⟨stored.user, token⟩ (some family) with
    ⟨_, same⟩ | ⟨_, _, _, same⟩ | ⟨vault, marks, current, _, installed⟩
  · rw [same]
    have keeps : view.Keeps (view.markFamily token family) :=
      ⟨id, fun challenge => ⟨challenge, rfl⟩⟩
    exact Tries.revoke (.done holds keeps) token
  · rw [same]
    exact .done holds (.refl view)
  · rw [installed]
    exact Tries.installed holds.1 rfl (holds.2 gen rfl current.2.symm)

variable {stage : Stage}

theorem refreshOnce_tries {sent : Token → Stage} (limited : Bool)
    (plain : ∀ token, (sent token).reserved = none)
    (holds : Holds reserved view (some stage)) :
    (view.refreshOnce sent limited faults).Tries reserved view := by
  unfold refreshOnce
  split
  · exact .done holds (.refl view)
  · next session _ =>
      split
      · exact Tries.revokeAll (.done holds (keeps_signOut false)) _
      · split
        · exact .done holds (.refl view)
        · refine Tries.emit (.goesOn holds (.refl view) fun gen ofStage => ?_) _
          cases (plain session.refreshToken).symm.trans ofStage

theorem refreshStart_tries (seen : Revision) (limited : Bool)
    (holds : Holds reserved view (some stage)) :
    (view.refreshStart seen limited faults).Tries reserved view := by
  unfold refreshStart
  split
  · exact .done holds (.refl view)
  · exact refreshOnce_tries limited (fun _ => rfl) holds

theorem accountSend_tries (epoch : Nat) (retried : Bool)
    (holds : Holds reserved view (some stage)) (keeps : view.Keeps later) :
    (later.accountSend epoch retried).Tries reserved view := by
  unfold accountSend
  split
  · exact .done holds keeps
  · exact .goesOn holds keeps fun _ ofStage => by cases ofStage

theorem commitPair_tries {rotatedFrom fresh : Token} {rotation : Bool}
    {next : View → Outcome} (holds : Holds reserved view (some stage))
    (tries : ∀ held, view.Keeps held → (next held).Tries reserved view) :
    (view.commitPair rotatedFrom fresh rotation faults next).Tries reserved
      view := by
  have keeps := keeps_commitRefresh view faults rotatedFrom fresh rotation
  unfold commitPair
  split
  · next held committed =>
      rw [committed] at keeps
      exact tries held keeps
  · next held stored =>
      rw [stored] at keeps
      exact .done holds keeps
  · next held discarded =>
      rw [discarded] at keeps
      exact Tries.revoke (.done holds keeps) fresh

theorem accountPair_tries {used fresh : Token}
    (holds : Holds reserved view (some stage)) :
    (view.accountPair used fresh faults).Tries reserved view := by
  have keeps := keeps_commitRefresh view faults used fresh false
  unfold accountPair
  split
  · next held discarded =>
      rw [discarded] at keeps
      exact Tries.revoke (.done holds keeps) fresh
  · next held _ _ kept =>
      rw [kept] at keeps
      exact Tries.emit (.done holds keeps) _

theorem close_tries (holds : Holds reserved view (some stage)) :
    (view.close faults).Tries reserved view := by
  unfold close
  simp only
  split
  · exact .done holds (keeps_signOut true)
  · exact Tries.revokeAll (.done holds (keeps_signOut true)) _

/-- A new attempt closes the challenge of the one before. -/
theorem reserve_tries {stage : Nat → Stage}
    (mine : ∀ gen, (stage gen).reserved = some gen) :
    ((view.reserveLogin.goesOn (stage view.reserveLogin.store.loginGen)).emit
      (.reserved view.reserveLogin.store.loginGen)).Tries reserved view where
  session signedIn := Or.inl signedIn
  challenge challenge := by cases challenge
  stage next attempt goesOn ofStage _ := by
    cases goesOn
    cases (mine _).symm.trans ofStage
    exact Or.inr List.mem_cons_self

end View

theorem resume_tries {clock : Nat} {stage : Stage} {input : Input}
    {out : Outcome} (holds : Holds reserved view (some stage))
    (resumed : resume clock view stage input = some out) :
    out.Tries reserved view := by
  have here := View.Keeps.refl view
  cases stage with
  | announced =>
      cases input with
      | proceed faults =>
          cases resumed
          exact View.reserve_tries fun _ => rfl
      | dropped =>
          cases resumed
          exact .done holds here
      | _ => cases resumed
  | loginQueued gen =>
      cases input with
      | proceed faults =>
          cases resumed
          exact View.loginStart_tries holds
      | _ => cases resumed
  | loginSent gen =>
      cases input with
      | failed =>
          cases resumed
          exact .done holds (View.keeps_publishFailed gen)
      | challenge =>
          cases resumed
          refine ⟨fun signedIn => Or.inl ?_, fun opened => ?_, by simp [View.done]⟩
          · unfold View.openChallenge at signedIn
            split at signedIn
            · exact signedIn
            · exact signedIn
          · simp only [View.done, View.openChallenge] at opened ⊢
            split at opened
            · next current =>
                rw [if_pos current]
                exact holds.2 _ (by rw [current.2]; rfl) rfl
            · next stale =>
                rw [if_neg stale]
                exact holds.1 opened
      | pair faults =>
          cases resumed
          apply Tries.emit
          apply Tries.goesOn holds here
          intro _ ofStage
          exact ⟨ofStage, rfl⟩
      | _ => cases resumed
  | loginProfile gen token =>
      cases input with
      | me user faults =>
          cases resumed
          exact View.loginProfile_tries user holds
      | failed =>
          cases resumed
          exact Tries.emit (.done holds (View.keeps_publishFailed gen)) _
      | _ => cases resumed
  | totpQueued gen =>
      cases input with
      | proceed faults =>
          simp only [resume] at resumed
          split at resumed
          · cases resumed
            exact .goesOn holds here fun _ ofStage => by cases ofStage
          · cases resumed
            exact .done holds here
      | _ => cases resumed
  | totpSent gen =>
      cases input with
      | failed =>
          cases resumed
          exact .done holds here
      | refused faults =>
          cases resumed
          exact .done holds (View.keeps_endChallenge gen)
      | pair faults =>
          cases resumed
          exact Tries.emit (.goesOn holds here fun _ ofStage => by
            cases ofStage) _
      | _ => cases resumed
  | totpProfile gen token =>
      cases input with
      | me user faults =>
          cases resumed
          exact View.totpProfile_tries user holds
      | failed =>
          cases resumed
          exact Tries.emit (.done holds here) _
      | _ => cases resumed
  | restoreQueued gen =>
      cases input with
      | proceed faults =>
          cases resumed
          exact View.restoreStart_tries holds
      | _ => cases resumed
  | restoreSent gen stored family =>
      cases input with
      | failed =>
          cases resumed
          exact .done holds here
      | refused faults =>
          cases resumed
          exact Tries.emit
            (.done holds (View.keeps_clearPersistedIfHolds _)) _
      | pair faults =>
          cases resumed
          exact Tries.emit (Tries.emit (View.restorePair_tries holds) _) _
      | _ => cases resumed
  | refreshQueued seen =>
      cases input with
      | proceed faults =>
          cases resumed
          exact View.refreshStart_tries seen false holds
      | limited =>
          cases resumed
          exact View.refreshStart_tries seen true holds
      | _ => cases resumed
  | refreshSent token =>
      cases input with
      | failed =>
          cases resumed
          exact .done holds here
      | refused faults =>
          cases resumed
          exact Tries.emit (.done holds (View.keeps_clearIfHolds token)) _
      | pair faults =>
          cases resumed
          exact Tries.emit (Tries.emit (View.commitPair_tries holds
            fun _ keeps => .done holds keeps) _) _
      | _ => cases resumed
  | profileOut epoch =>
      cases input with
      | me user faults =>
          cases resumed
          exact .done holds (View.keeps_replaceUser epoch user)
      | failed =>
          cases resumed
          exact .done holds here
      | dropped =>
          cases resumed
          exact .done holds here
      | _ => cases resumed
  | accountQueued epoch =>
      cases input with
      | proceed faults =>
          cases resumed
          exact View.accountSend_tries epoch false holds here
      | dropped =>
          cases resumed
          exact .done holds here
      | _ => cases resumed
  | accountSent epoch token retried =>
      cases input with
      | failed =>
          cases resumed
          exact .done holds here
      | refused faults =>
          simp only [resume] at resumed
          split at resumed
          · cases resumed
            exact .done holds here
          · cases resumed
            exact View.refreshOnce_tries false (fun _ => rfl) holds
      | pair faults =>
          cases resumed
          exact Tries.emit (View.accountPair_tries holds) _
      | dropped =>
          cases resumed
          exact .done holds here
      | expired =>
          cases resumed
          exact Tries.emit (.done holds here) _
      | _ => cases resumed
  | accountRefresh epoch token =>
      cases input with
      | failed =>
          cases resumed
          exact .done holds here
      | refused faults =>
          cases resumed
          exact Tries.emit (.done holds (View.keeps_clearIfHolds token)) _
      | pair faults =>
          cases resumed
          exact Tries.emit (Tries.emit (View.commitPair_tries holds
            fun _ keeps => View.accountSend_tries epoch true holds keeps) _) _
      | dropped =>
          cases resumed
          exact .done holds here
      | expired =>
          cases resumed
          exact Tries.emit (Tries.emit (.done holds here) _) _
      | _ => cases resumed
  | closing =>
      cases input with
      | proceed faults =>
          cases resumed
          exact View.close_tries holds
      | _ => cases resumed

end

theorem begin_tries {reserved : Nat → Prop} {view : View} {op : Op}
    {out : Outcome}
    (challenge : view.store.challengeOpen = true →
      reserved view.store.loginGen)
    (begun : begin view op = some out) : out.Tries reserved view := by
  -- A stage without an attempt stands for the call that begins.
  have holds : Outcome.Holds reserved view (some (.profileOut 0)) :=
    ⟨challenge, fun _ ofStage => by cases ofStage⟩
  have here := View.Keeps.refl view
  cases op with
  | enable =>
      simp only [begin] at begun
      split at begun
      · cases begun
      · cases begun
        exact .done holds (⟨id, fun opened => ⟨opened, rfl⟩⟩)
  | login =>
      cases begun
      exact .goesOn holds (⟨id, fun opened => ⟨opened, rfl⟩⟩) fun _ ofStage => by
        cases ofStage
  | totp gen =>
      simp only [begin] at begun
      split at begun
      · cases begun
      · cases begun
        exact .goesOn holds here fun _ ofStage => by cases ofStage
  | cancel gen =>
      cases begun
      exact .done holds (View.keeps_endChallenge gen)
  | restore =>
      cases begun
      exact View.reserve_tries fun _ => rfl
  | refresh =>
      cases begun
      exact .goesOn holds here fun _ ofStage => by cases ofStage
  | profile =>
      cases begun
      exact .goesOn holds here fun _ ofStage => by cases ofStage
  | account =>
      cases begun
      exact .goesOn holds here fun _ ofStage => by cases ofStage
  | logout faults =>
      cases begun
      exact .emit (.revokeAll (.done holds (View.keeps_signOut false)) _) _
  | drop =>
      cases begun
      exact .goesOn holds (⟨id, fun opened => ⟨opened, rfl⟩⟩) fun _ ofStage => by
        cases ofStage

/-! ### Every run -/

variable {system next : System}

theorem sinceLogout_other {client other : ClientId} {news : List Event}
    {log : List Entry} (different : other ≠ client) :
    sinceLogout other (news.map (system.entry client) ++ log) =
      sinceLogout other log := by
  have none : (news.map (system.entry client)).filter
      (fun entry => entry.client = other) = [] := by
    rw [List.filter_eq_nil_iff]
    intro entry member
    obtain ⟨event, _, rfl⟩ := List.mem_map.mp member
    simp [System.entry, Ne.symm different]
  unfold sinceLogout
  rw [List.filter_append, none, List.nil_append]

theorem sinceLogout_own {client : ClientId} {news : List Event}
    {log : List Entry} (quiet : ∀ event ∈ news, event.isLogout = false) :
    sinceLogout client (news.map (system.entry client) ++ log) =
      news ++ sinceLogout client log := by
  have all : (news.map (system.entry client)).filter
      (fun entry => entry.client = client) =
      news.map (system.entry client) := by
    rw [List.filter_eq_self]
    intro entry member
    obtain ⟨event, _, rfl⟩ := List.mem_map.mp member
    simp [System.entry]
  have events : (news.map (system.entry client)).map (·.event) = news := by
    rw [List.map_map]
    exact List.map_id news
  unfold sinceLogout
  rw [List.filter_append, all, List.map_append, events,
    List.takeWhile_append_of_pos]
  intro event member
  simp [quiet event member]

structure Since (system : System) : Prop where
  signedIn : SignedInSince system
  challenge : ∀ client store, system.clients.get? client = some store →
    store.challengeOpen = true →
    .reserved store.loginGen ∈ sinceLogout client system.log
  attempts : ∀ id task store, system.tasks.get? id = some task →
    system.clients.get? task.client = some store → ∀ gen,
    task.stage.reserved = some gen → gen = store.loginGen →
    .reserved gen ∈ sinceLogout task.client system.log

theorem Stage.gen_of_reserved {stage : Stage} {gen : Nat}
    (reserved : stage.reserved = some gen) : stage.gen = some gen := by
  cases stage <;> first | exact reserved | cases reserved

/-- What the clients hold that do not take part in a section. -/
theorem Since.land (since : Since system) (sticks : Sticks system)
    {client : ClientId} {store : Store} {id : TaskId} {out : Outcome}
    (found : system.clients.get? client = some store)
    (gen : store.loginGen ≤ out.view.store.loginGen)
    (signedIn : out.view.store.session.isSome → ∃ gen login restored,
      [Event.installed gen login restored, .reserved gen].Sublist
        (sinceLogout client (system.land client id out).log))
    (challenge : out.view.store.challengeOpen = true →
      .reserved out.view.store.loginGen ∈
        sinceLogout client (system.land client id out).log)
    (goesOn : ∀ stage gen, out.stage = some stage →
      stage.reserved = some gen → gen = out.view.store.loginGen →
      .reserved gen ∈ sinceLogout client (system.land client id out).log)
    (kept : out.view.store.loginGen = store.loginGen → ∀ gen,
      .reserved gen ∈ sinceLogout client system.log →
      .reserved gen ∈ sinceLogout client (system.land client id out).log) :
    Since (system.land client id out) := by
  refine ⟨?_, ?_, ?_⟩
  · intro other held found' session
    rcases System.land_client found' with ⟨rfl, rfl⟩ | ⟨different, before⟩
    · exact signedIn session
    · simp only [System.land, sinceLogout_other different]
      exact since.signedIn other held before session
  · intro other held found' opened
    rcases System.land_client found' with ⟨rfl, rfl⟩ | ⟨different, before⟩
    · exact challenge opened
    · simp only [System.land, sinceLogout_other different]
      exact since.challenge other held before opened
  · intro other task held running found' attempt reserved current
    rcases System.land_task running with
      ⟨stage, next, rfl, rfl⟩ | ⟨_, before⟩
    · rcases System.land_client found' with ⟨_, rfl⟩ | ⟨different, _⟩
      · exact goesOn stage attempt next reserved current
      · exact (different rfl).elim
    · rcases System.land_client found' with
        ⟨same, rfl⟩ | ⟨different, foundTask⟩
      · rw [same]
        obtain ⟨store', foundTask, safe⟩ := sticks.tasks other task before
        rw [same] at foundTask
        cases found.symm.trans foundTask
        have old : attempt ≤ store.loginGen :=
          safe.gen attempt (Stage.gen_of_reserved reserved)
        have unchanged : out.view.store.loginGen = store.loginGen :=
          Nat.le_antisymm (current ▸ old) gen
        apply kept unchanged
        rw [← same]
        exact since.attempts other task store before (same ▸ found) attempt
          reserved (current.trans unchanged)
      · simp only [System.land, sinceLogout_other different]
        exact since.attempts other task held before foundTask attempt reserved
          current

theorem Since.lands (since : Since system) (sticks : Sticks system)
    {client : ClientId} {store : Store} {id : TaskId} {out : Outcome}
    (found : system.clients.get? client = some store)
    (gen : store.loginGen ≤ out.view.store.loginGen)
    (quiet : ∀ event ∈ out.events, event.isLogout = false)
    (tries : out.Tries
      (fun gen => .reserved gen ∈ sinceLogout client system.log)
      (system.view client store)) :
    Since (system.land client id out) := by
  have log : sinceLogout client (system.land client id out).log =
      out.events ++ sinceLogout client system.log := sinceLogout_own quiet
  apply since.land sticks found gen
  · intro session
    rw [log]
    rcases tries.session session with
      before | ⟨attempt, login, restored, new, reserved⟩
    · obtain ⟨attempt, login, restored, installed⟩ :=
        since.signedIn client store found before
      exact ⟨attempt, login, restored,
        installed.trans (List.sublist_append_right _ _)⟩
    · exact ⟨attempt, login, restored,
        (List.singleton_sublist.mpr new).append
          (List.singleton_sublist.mpr reserved)⟩
  · intro opened
    rw [log]
    exact List.mem_append_right _ (tries.challenge opened)
  · intro stage attempt goesOn reserved current
    rw [log]
    rcases tries.stage stage attempt goesOn reserved current with old | new
    · exact List.mem_append_right _ old
    · exact List.mem_append_left _ new
  · intro _ attempt reserved
    rw [log]
    exact List.mem_append_right _ reserved

theorem Since.logout (since : Since system) (sticks : Sticks system)
    {client : ClientId} {store : Store} {id : TaskId} {faults : Faults}
    (found : system.clients.get? client = some store) :
    Since (system.land client id
      ((system.view client store).logout faults)) := by
  obtain ⟨news, marks, ends, left, _, _⟩ :=
    logout_out (system.view client store) faults
  have gen : ((system.view client store).logout
      faults).view.store.loginGen = store.loginGen + 1 := by
    rw [left]
    exact View.signOut_loginGen false
  apply since.land sticks found
  · rw [gen]
    exact Nat.le_succ _
  · rw [left]
    simp [View.withMarks]
  · rw [left]
    simp [View.withMarks]
  · rw [ends]
    intro stage attempt goesOn
    cases goesOn
  · intro same
    rw [gen] at same
    exact (Nat.succ_ne_self _ same).elim

theorem step_since (since : Since system) (sticks : Sticks system)
    {action : Action} (taken : step system action = some next) :
    Since next := by
  cases action with
  | create client =>
      simp only [step] at taken
      split at taken
      · cases taken
      next free =>
        cases taken
        refine ⟨?_, ?_, ?_⟩
        · intro other store found session
          simp only [Table.get?_put] at found
          split at found
          · cases found
            cases session
          · exact since.signedIn other store found session
        · intro other store found opened
          simp only [Table.get?_put] at found
          split at found
          · cases found
            cases opened
          · exact since.challenge other store found opened
        · intro id task store running found
          have known : task.client ≠ client := by
            intro same
            obtain ⟨store', found', _⟩ := sticks.tasks id task running
            rw [same] at found'
            exact free (Table.contains_iff.mpr ⟨store', found'⟩)
          simp only [Table.get?_put, known, if_false] at found
          exact since.attempts id task store running found
  | begin client op id =>
      obtain ⟨store, out, found, _, _, _, begun, rfl⟩ := step_begin taken
      have tries : out.Tries
          (fun gen => .reserved gen ∈ sinceLogout client system.log)
          (system.view client store) :=
        begin_tries (since.challenge client store found) begun
      by_cases enables : op = .enable
      · subst enables
        simp only [begin] at begun
        split at begun
        · cases begun
        · cases begun
          exact since.lands sticks found (Nat.le_refl _) (by simp [View.done])
            tries
      by_cases signsOut : ∃ faults, op = .logout faults
      · obtain ⟨faults, rfl⟩ := signsOut
        cases begun
        exact since.logout sticks found
      · have lands := begin_lands (sticks.clients client store found) enables
          (fun faults same => signsOut ⟨faults, same⟩) begun
        exact since.lands sticks found lands.moves.gen lands.noLogout tries
  | resume id input =>
      obtain ⟨task, store, out, running, found, _, resumed, rfl⟩ :=
        step_resume taken
      obtain ⟨store', found', staged⟩ := sticks.tasks id task running
      cases found.symm.trans found'
      have lands := resume_lands sticks.endedIssued
        (sticks.clients task.client store found) staged resumed
      apply since.lands sticks found lands.moves.gen lands.noLogout
      apply resume_tries ⟨?_, ?_⟩ resumed
      · intro opened
        exact since.challenge task.client store found opened
      · intro gen reserved current
        exact since.attempts id task store running found gen reserved current
  | leave client token =>
      simp only [step] at taken
      split at taken
      next =>
        cases taken
        have grown : ∀ other, (sinceLogout other system.log).Sublist
            (sinceLogout other
              (system.entry client (.sentLogout token) :: system.log)) := by
          intro other
          by_cases same : other = client
          · subst same
            have log : sinceLogout other ([Event.sentLogout token].map
                (system.entry other) ++ system.log) = _ :=
              sinceLogout_own (by simp [Event.isLogout])
            exact log ▸ List.sublist_append_right _ _
          · have log : sinceLogout other ([Event.sentLogout token].map
                (system.entry client) ++ system.log) = _ :=
              sinceLogout_other same
            exact log ▸ List.Sublist.refl _
        refine ⟨?_, ?_, ?_⟩
        · intro other store found session
          obtain ⟨gen, login, restored, installed⟩ :=
            since.signedIn other store found session
          exact ⟨gen, login, restored, installed.trans (grown other)⟩
        · intro other store found opened
          exact (grown other).subset
            (since.challenge other store found opened)
        · intro id task store running found gen reserved current
          exact (grown task.client).subset
            (since.attempts id task store running found gen reserved current)
      next => cases taken
  | restart =>
      cases taken
      refine ⟨?_, ?_, ?_⟩
      · intro _ _ found
        cases found
      · intro _ _ found
        cases found
      · intro _ _ _ running
        cases running

theorem start_since : Since System.start := by
  refine ⟨?_, ?_, ?_⟩
  · intro _ _ found
    cases found
  · intro _ _ found
    cases found
  · intro _ _ _ running
    cases running

/-- Both halves, for every run. -/
structure SignOutHolds (system : System) : Prop
    extends Sticks system, Since system

/-- Whatever is in flight, and whatever the slot and the fence refuse: after a
`logout` only an attempt reserved since signs the client in, and a login that
the slot's owner signed out completely is never restored again, by any client
of any process. -/
theorem sign_out_sticks {actions : List Action}
    (reached : run step System.start actions = some system) :
    SignedInSince system ∧ NoRevival system.log := by
  have holds : SignOutHolds system :=
    run_invariant_of_step
      (fun (holds : SignOutHolds _) taken =>
        ⟨step_sticks holds.toSticks taken,
          step_since holds.toSince holds.toSticks taken⟩)
      ⟨start_sticks, start_since⟩ reached
  exact ⟨holds.signedIn, holds.noRevival⟩

/-- A sign-in, a sign-out whose delete fails and is fenced, and the restore of
the next process. -/
def fencedRun : List Action :=
  [.create 1, .begin 1 .enable 0, .begin 1 .login 0,
    .resume 0 (.proceed .none), .resume 0 (.proceed .none),
    .resume 0 (.pair .none), .resume 0 (.me ⟨7, 0⟩ .none),
    .begin 1 (.logout { Faults.none with deleteFails := true }) 1,
    .restart, .create 1, .begin 1 .enable 2, .begin 1 .restore 2,
    .resume 2 (.proceed .none)]

theorem sign_out_sticks_fencedRun :
    ∃ system, run step System.start fencedRun = some system ∧
      system.vault.fenced = true ∧ system.tasks = ∅ ∧
      SignedInSince system ∧ NoRevival system.log := by
  obtain ⟨system, reached, fenced, idle⟩ :
      ∃ system, run step System.start fencedRun = some system ∧
        system.vault.fenced = true ∧ system.tasks = ∅ := by
    refine ⟨_, rfl, ?_⟩
    decide +kernel
  exact ⟨system, reached, fenced, idle, sign_out_sticks reached⟩

end Brook.SignedIn
