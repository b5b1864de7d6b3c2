import Brook.SignedIn.System

namespace Brook.SignedIn

/-! What each operation of the store and of the slot changes. -/

namespace Vault

variable {faults : Faults} {vault : Vault} {session : Session}

/-- A failed operation on the slot leaves it as it was, or under a fence. -/
inductive Fences (faults : Faults) (vault : Vault) : Vault → Prop
  | kept (failed : faults.fenceWrite = .failed) : Fences faults vault vault
  | fenced (written : faults.fenceWrite ≠ .failed) :
      Fences faults vault { vault with fenced := true }

theorem writeFence_fences :
    Fences faults vault (vault.writeFence faults).1 := by
  unfold writeFence
  cases kind : faults.fenceWrite with
  | durable => exact .fenced (by simp [kind])
  | unsynced => exact .fenced (by simp [kind])
  | failed => exact .kept kind

theorem write_cases :
    (faults.replaceFails = false ∧ vault.write faults session =
      ({ vault with
          slot := some session
          fenced := vault.fenced && faults.liftFails }, true)) ∨
    ∃ later, faults.replaceFails = true ∧ Fences faults vault later ∧
      vault.write faults session = (later, false) := by
  unfold write
  cases fails : faults.replaceFails with
  | false => exact Or.inl ⟨rfl, rfl⟩
  | true => exact Or.inr ⟨_, rfl, writeFence_fences, rfl⟩

variable (faults vault) in
theorem clear_cases :
    vault.clear faults = ({ vault with slot := none }, true) ∨
    ∃ later, faults.deleteFails = true ∧ Fences faults vault later ∧
      ((vault.clear faults).2 = true → later.fenced = true) ∧
      (vault.clear faults).1 = later := by
  unfold clear
  cases fails : faults.deleteFails with
  | false => exact Or.inl rfl
  | true =>
      refine Or.inr ⟨_, rfl, writeFence_fences, ?_, rfl⟩
      simp only [if_true, writeFence]
      cases faults.fenceWrite <;> simp

variable (faults vault) in
theorem clearIfHolds_cases (token : Token) :
    vault.clearIfHolds faults token = vault ∨
    ∃ stored, vault.slot = some stored ∧ stored.refreshToken = token ∧
      vault.clearIfHolds faults token = (vault.clear faults).1 := by
  unfold clearIfHolds load
  cases vault.slot with
  | none => by_cases fails : faults.loadFails = true <;> simp [fails]
  | some stored =>
      by_cases fails : faults.loadFails = true
      · simp [fails]
      · by_cases same : stored.refreshToken = token
        · exact Or.inr ⟨stored, rfl, same, by simp [fails, same]⟩
        · simp [fails, same]

variable (faults vault) in
theorem followRotation_cases (rotatedFrom fresh : Token) :
    vault.followRotation faults rotatedFrom fresh = (vault, false) ∨
    ∃ stored, vault.slot = some stored ∧ stored.refreshToken = rotatedFrom ∧
      vault.followRotation faults rotatedFrom fresh =
        ({ vault with slot := some ⟨stored.user, fresh⟩ }, true) := by
  unfold followRotation load
  cases vault.slot with
  | none => by_cases fails : faults.loadFails = true <;> simp [fails]
  | some stored =>
      by_cases fails : faults.loadFails = true
      · simp [fails]
      · by_cases same : stored.refreshToken = rotatedFrom
        · by_cases stuck : faults.replaceFails = true
          · simp [fails, same, stuck]
          · exact Or.inr ⟨stored, rfl, same, by simp [fails, same, stuck]⟩
        · simp [fails, same]

variable (faults vault session) in
theorem rewriteUser_cases :
    vault.rewriteUser faults session = (vault, false) ∨
    ∃ stored, vault.slot = some stored ∧ vault.fenced = false ∧
      stored.refreshToken = session.refreshToken ∧
      vault.rewriteUser faults session =
        ({ vault with slot := some session }, true) := by
  unfold rewriteUser load readFence
  by_cases fence : (vault.fenced || faults.fenceUnreadable) = true
  · simp [fence]
  · simp only [Bool.or_eq_true, not_or, Bool.not_eq_true] at fence
    cases vault.slot with
    | none => by_cases fails : faults.loadFails = true <;> simp [fails, fence]
    | some stored =>
        by_cases fails : faults.loadFails = true
        · simp [fails, fence]
        · by_cases same : stored.refreshToken = session.refreshToken
          · by_cases stuck : faults.replaceFails = true
            · simp [fails, fence, same, stuck]
            · exact Or.inr ⟨stored, rfl, fence.1, same, by
                simp [fails, fence, same, stuck]⟩
          · simp [fails, fence, same]

end Vault

namespace View

variable {view : View} {faults : Faults} {gen : Nat} {session : Session}

/-! ### Sign-out -/

section

variable (close : Bool)

@[simp] theorem signOut_taken :
    (view.signOut close faults).2 = view.store.session := by
  unfold signOut
  split <;> rfl

@[simp] theorem signOut_client :
    (view.signOut close faults).1.client = view.client := by
  unfold signOut
  split <;> rfl

variable (view faults) in
theorem signOut_vault :
    (view.signOut close faults).1.vault =
      if close = false ∧ view.Mine then (view.vault.clear faults).1
      else view.vault := by
  unfold signOut
  split
  · next clears =>
      obtain ⟨rfl, on⟩ := clears
      simp [withSlot, Mine, Store.newEpoch, on]
  · next keeps =>
      rw [if_neg]
      rintro ⟨kept, mine⟩
      exact keeps ⟨kept, mine.1⟩

@[simp] theorem signOut_session :
    (view.signOut close faults).1.store.session = none := by
  unfold signOut
  split <;> rfl

@[simp] theorem signOut_loginGen :
    (view.signOut close faults).1.store.loginGen = view.store.loginGen + 1 := by
  unfold signOut
  split <;> rfl

@[simp] theorem signOut_challengeOpen :
    (view.signOut close faults).1.store.challengeOpen = false := by
  unfold signOut
  split <;> rfl

@[simp] theorem signOut_closed :
    (view.signOut close faults).1.store.closed =
      (view.store.closed || close) := by
  unfold signOut
  split <;> rfl

@[simp] theorem signOut_persistence :
    (view.signOut close faults).1.store.persistence =
      view.store.persistence := by
  unfold signOut
  split <;> rfl

@[simp] theorem signOut_published :
    (view.signOut close faults).1.store.published = .loggedOut := by
  unfold signOut
  split <;> rfl

@[simp] theorem signOut_slotTokens :
    (view.signOut close faults).1.store.slotTokens =
      view.store.slotTokens := by
  unfold signOut
  split <;> rfl

theorem signOut_complete (mine : view.Mine) :
    (view.signOut false faults).1.store.signOutComplete =
      (view.vault.clear faults).2 := by
  have same : ({ view with store := { view.store.newEpoch with
      loginGen := view.store.loginGen + 1
      challengeOpen := false
      closed := view.store.closed || false
      session := none
      published := .loggedOut } } : View).Mine := mine
  simp only [signOut, mine.1, withSlot, same, if_true, and_self,
    Option.getD_some]

end

/-! ### Installs and commits -/

/-- The generation a token gets as its session is stored. -/
inductive Marking
  | unmarked
  | continues (family : Nat)
  | fresh

def Marking.family (stored : Nat) : Marking → Nat
  | .fresh => stored + 1
  | _ => stored

def Marking.marks (token : Token) (stored : Nat) (marks : Table Token Nat) :
    Marking → Table Token Nat
  | .unmarked => marks
  | .continues family => marks.put token family
  | .fresh => marks.put token (stored + 1)

def Marking.ofRestored : Option Nat → Marking
  | some family => .continues family
  | none => .fresh

def Marking.ofRotation (rotation : Bool) (inherited : Option Nat) : Marking :=
  match rotation, inherited with
  | true, some family => .continues family
  | true, none => .unmarked
  | false, _ => .fresh

/-- How the slot and the marks follow a session that is held from now on. -/
inductive Mirrors (view : View) (marks : Table Token Nat) (session : Session)
    (faults : Faults) (marking : Marking) : Vault → Table Token Nat → Prop
  | off (off : view.store.persistence = false) :
      Mirrors view marks session faults marking view.vault marks
  | landed (mine : view.Mine) (works : faults.replaceFails = false) :
      Mirrors view marks session faults marking
        { view.vault with
          slot := some session
          fenced := view.vault.fenced && faults.liftFails
          family := marking.family view.vault.family }
        (marking.marks session.refreshToken view.vault.family marks)
  | failed {later : Vault} (mine : view.Mine)
      (fails : faults.replaceFails = true)
      (fences : view.vault.Fences faults later) :
      Mirrors view marks session faults marking later marks

variable (view faults gen session) in
theorem installForLogin_cases (restored : Option Nat) :
    (¬ view.Current gen ∧
      view.installForLogin gen session restored faults = (view, .stale)) ∨
    (view.Current gen ∧ view.store.persistence = true ∧
      view.vault.owner ≠ some view.client ∧
      view.installForLogin gen session restored faults =
        (view, .slotTaken)) ∨
    ∃ vault marks, view.Current gen ∧
      Mirrors view view.store.slotTokens session faults
        (.ofRestored restored) vault marks ∧
      view.installForLogin gen session restored faults =
        (⟨view.client, { view.store with
            rev := ⟨view.store.rev.epoch + 1, 0⟩
            session := some session
            persisted := view.store.persistence || view.store.persisted
            slotTokens := marks
            published := .loggedIn session.user }, vault⟩,
          .installed (view.store.rev.epoch + 1)) := by
  unfold installForLogin
  by_cases current : view.Current gen
  · rw [if_neg (not_not.mpr current)]
    cases on : view.store.persistence with
    | false =>
        refine Or.inr (Or.inr ⟨_, _, current, .off on, ?_⟩)
        simp [hold, Store.newEpoch]
    | true =>
        simp only [Bool.true_eq_false, if_false]
        by_cases mine : view.Mine
        · refine Or.inr (Or.inr ?_)
          simp only [withSlot, if_pos mine]
          rcases Vault.write_cases with
            ⟨works, written⟩ | ⟨later, fails, fences, written⟩
          · refine ⟨_, _, current, .landed mine works, ?_⟩
            rw [written]
            cases restored <;>
              simp [hold, persist, markFamily, markNewLogin, on,
                Store.newEpoch, Vault.newFamily, Marking.marks,
                Marking.family, Marking.ofRestored]
          · refine ⟨_, _, current, .failed mine fails fences, ?_⟩
            rw [written]
            simp [hold, persist, on, Store.newEpoch]
        · refine Or.inr (Or.inl ⟨current, trivial, fun owner => ?_, ?_⟩)
          · exact mine ⟨on, owner⟩
          · simp [withSlot, mine]
  · exact Or.inl ⟨current, if_pos current⟩

variable (view faults gen session) in
theorem installForChallenge_cases :
    ((view.ChallengeCurrent gen → view.store.persistence = true ∧
        view.vault.owner ≠ some view.client) ∧
      view.installForChallenge gen session faults = (view, false)) ∨
    ∃ vault marks, view.ChallengeCurrent gen ∧
      Mirrors view view.store.slotTokens session faults .fresh vault marks ∧
      view.installForChallenge gen session faults =
        (⟨view.client, { view.store with
            rev := ⟨view.store.rev.epoch + 1, 0⟩
            session := some session
            challengeOpen := false
            persisted := view.store.persistence
            slotTokens := marks
            published := .loggedIn session.user }, vault⟩, true) := by
  unfold installForChallenge
  by_cases current : view.ChallengeCurrent gen
  · rw [if_neg (not_not.mpr current)]
    cases on : view.store.persistence with
    | false =>
        refine Or.inr ⟨_, _, current, .off on, ?_⟩
        simp [hold, persist, on, Store.newEpoch]
    | true =>
        simp only [Bool.true_eq_false, if_false]
        by_cases mine : view.Mine
        · refine Or.inr ?_
          simp only [withSlot, if_pos mine]
          rcases Vault.write_cases with
            ⟨works, written⟩ | ⟨later, fails, fences, written⟩
          · refine ⟨_, _, current, .landed mine works, ?_⟩
            rw [written]
            simp [hold, persist, markFamily, markNewLogin, on,
              Store.newEpoch, Vault.newFamily, Marking.marks, Marking.family]
          · refine ⟨_, _, current, .failed mine fails fences, ?_⟩
            rw [written]
            simp [hold, persist, on, Store.newEpoch]
        · refine Or.inl ⟨fun _ => ⟨trivial, fun owner => mine ⟨on, owner⟩⟩, ?_⟩
          simp [withSlot, mine]
  · exact Or.inl ⟨fun now => (current now).elim, if_pos current⟩

/-- The client's own marks change, nothing else does. -/
def withMarks (marks : Table Token Nat) (view : View) : View :=
  { view with store := { view.store with slotTokens := marks } }

/-- The marks after a commit that stores nothing. -/
def carriedMarks (rotatedFrom fresh : Token) (rotation : Bool) (view : View) :
    Table Token Nat :=
  let kept := view.store.slotTokens.filter fun other _ => other ≠ rotatedFrom
  match rotation, view.store.slotTokens.get? rotatedFrom with
  | true, some family => kept.put fresh family
  | _, _ => kept

variable (view) in
theorem carry_unmark (rotatedFrom fresh : Token) (rotation : Bool)
    (vault : Vault) :
    carry rotation (view.store.slotTokens.get? rotatedFrom) fresh
        ⟨view.client, (view.unmark rotatedFrom).store, vault⟩ =
      { view.withMarks (view.carriedMarks rotatedFrom fresh rotation) with
        vault := vault } := by
  unfold carry carriedMarks
  cases rotation with
  | false => rfl
  | true => cases view.store.slotTokens.get? rotatedFrom <;> rfl

variable (view faults) in
theorem mirrorCommit_cases (next : Session) (rotation : Bool)
    (inherited : Option Nat) :
    (view.store.persistence = true ∧ view.vault.owner ≠ some view.client ∧
      view.mirrorCommit next rotation inherited faults =
        view.carry rotation inherited next.refreshToken) ∨
    ∃ vault marks,
      Mirrors view view.store.slotTokens next faults
        (.ofRotation rotation inherited) vault marks ∧
      view.mirrorCommit next rotation inherited faults =
        { view.withMarks marks with vault := vault } := by
  unfold mirrorCommit
  cases on : view.store.persistence with
  | false => exact Or.inr ⟨_, _, .off on, if_pos rfl⟩
  | true =>
      simp only [Bool.true_eq_false, if_false]
      by_cases mine : view.Mine
      · refine Or.inr ?_
        simp only [withSlot, if_pos mine]
        rcases Vault.write_cases with
          ⟨works, written⟩ | ⟨later, fails, fences, written⟩
        · refine ⟨_, _, .landed mine works, ?_⟩
          rw [written]
          cases rotation with
          | false =>
              simp only [Bool.false_eq_true, if_false, markNewLogin, on,
                if_true]
              rfl
          | true => cases inherited <;> rfl
        · exact ⟨_, _, .failed mine fails fences, by rw [written]; rfl⟩
      · refine Or.inl ⟨trivial, fun owner => mine ⟨on, owner⟩, ?_⟩
        simp [withSlot, mine]

theorem commitRefresh_discarded (rotatedFrom fresh : Token) (rotation : Bool)
    (missed : view.store.closed = false → ∀ session,
      view.store.session = some session → session.refreshToken ≠ rotatedFrom)
    (unstored : view.store.closed = true → view.store.persisted = true →
      view.Mine →
      (view.vault.followRotation faults rotatedFrom fresh) =
        (view.vault, false)) :
    view.commitRefresh rotatedFrom fresh rotation faults =
      (view.withMarks (view.carriedMarks rotatedFrom fresh rotation),
        .discarded) := by
  have carried := carry_unmark view rotatedFrom fresh rotation
    view.vault
  unfold commitRefresh
  cases shut : view.store.closed with
  | true =>
      cases kept : view.store.persisted with
      | false => exact Prod.ext carried rfl
      | true =>
          by_cases mine : view.Mine
          · have same : (view.unmark rotatedFrom).Mine := mine
            have stays := unstored shut kept mine
            refine Prod.ext ?_ ?_
            · simp only [withSlot, if_pos same, if_true]
              rw [show (view.unmark rotatedFrom).vault = view.vault from rfl,
                stays]
              exact carried
            · simp only [withSlot, if_pos same, if_true]
              rw [show (view.unmark rotatedFrom).vault = view.vault from rfl,
                stays]
              rfl
          · have other : ¬ (view.unmark rotatedFrom).Mine := mine
            refine Prod.ext ?_ ?_
            · simp only [withSlot, if_neg other, if_true]
              exact carried
            · simp [withSlot, other]
  | false =>
      cases signedIn : view.store.session with
      | none => exact Prod.ext carried rfl
      | some session =>
          have differs := missed shut session signedIn
          simp only [Bool.false_eq_true, if_false, ne_eq, differs,
            not_false_eq_true, if_true]
          exact Prod.ext carried rfl

theorem commitRefresh_stored (rotatedFrom fresh : Token) (rotation : Bool)
    (shut : view.store.closed = true) (kept : view.store.persisted = true)
    (mine : view.Mine) {vault : Vault}
    (followed : view.vault.followRotation faults rotatedFrom fresh =
      (vault, true)) :
    view.commitRefresh rotatedFrom fresh rotation faults =
      ({ view.withMarks (view.carriedMarks rotatedFrom fresh rotation) with
          vault := vault }, .stored) := by
  have same : (view.unmark rotatedFrom).Mine := mine
  unfold commitRefresh
  simp only [shut, kept, if_true, withSlot, if_pos same]
  rw [show (view.unmark rotatedFrom).vault = view.vault from rfl, followed]
  refine Prod.ext ?_ rfl
  exact carry_unmark view rotatedFrom fresh rotation vault

variable (faults) in
theorem commitRefresh_committed (rotatedFrom fresh : Token) (rotation : Bool)
    (live : view.store.closed = false)
    (signedIn : view.store.session = some session)
    (holds : session.refreshToken = rotatedFrom) :
    ∃ vault marks,
      (Mirrors view
          (view.store.slotTokens.filter fun other _ => other ≠ rotatedFrom)
          { session with refreshToken := fresh } faults
          (.ofRotation rotation (view.store.slotTokens.get? rotatedFrom))
          vault marks ∨
        (view.store.persistence = true ∧
          view.vault.owner ≠ some view.client ∧ vault = view.vault ∧
          marks = view.carriedMarks rotatedFrom fresh rotation)) ∧
      view.commitRefresh rotatedFrom fresh rotation faults =
        (⟨view.client, { view.store with
            rev := ⟨view.store.rev.epoch, view.store.rev.credentialRev + 1⟩
            session := some { session with refreshToken := fresh }
            slotTokens := marks }, vault⟩, .committed) := by
  have commits : view.commitRefresh rotatedFrom fresh rotation faults =
      (have marked := (view.unmark rotatedFrom).mirrorCommit
          { session with refreshToken := fresh } rotation
          (view.store.slotTokens.get? rotatedFrom) faults;
        { marked with store := { marked.store with
            session := some { session with refreshToken := fresh }
            rev := ⟨marked.store.rev.epoch,
              marked.store.rev.credentialRev + 1⟩ } }, .committed) := by
    unfold commitRefresh
    rw [live, signedIn]
    simp [holds]
  rcases mirrorCommit_cases (view.unmark rotatedFrom) faults
      { session with refreshToken := fresh } rotation
      (view.store.slotTokens.get? rotatedFrom) with
    ⟨on, other, unchanged⟩ | ⟨vault, marks, mirrors, stored⟩
  · refine ⟨_, _, Or.inr ⟨on, other, rfl, rfl⟩, ?_⟩
    rw [commits, unchanged]
    have carried := carry_unmark view rotatedFrom fresh rotation
      view.vault
    rw [show view.unmark rotatedFrom =
      ⟨view.client, (view.unmark rotatedFrom).store, view.vault⟩ from rfl,
      carried]
    rfl
  · refine ⟨vault, marks, Or.inl ?_, ?_⟩
    · cases mirrors with
      | off off => exact .off off
      | landed mine works => exact .landed mine works
      | failed mine fails fences => exact .failed mine fails fences
    · rw [commits, stored]
      rfl

variable (view faults) in
theorem commitRefresh_cases (rotatedFrom fresh : Token) (rotation : Bool) :
    ((view.store.closed = false → ∀ session,
        view.store.session = some session →
        session.refreshToken ≠ rotatedFrom) ∧
      view.commitRefresh rotatedFrom fresh rotation faults =
        (view.withMarks (view.carriedMarks rotatedFrom fresh rotation),
          .discarded)) ∨
    (∃ stored, view.store.closed = true ∧ view.Mine ∧
      view.vault.slot = some stored ∧
      stored.refreshToken = rotatedFrom ∧
      view.commitRefresh rotatedFrom fresh rotation faults =
        ({ view.withMarks (view.carriedMarks rotatedFrom fresh rotation) with
            vault := { view.vault with slot := some ⟨stored.user, fresh⟩ } },
          .stored)) ∨
    ∃ session vault marks, view.store.closed = false ∧
      view.store.session = some session ∧
      session.refreshToken = rotatedFrom ∧
      (Mirrors view
          (view.store.slotTokens.filter fun other _ => other ≠ rotatedFrom)
          { session with refreshToken := fresh } faults
          (.ofRotation rotation (view.store.slotTokens.get? rotatedFrom))
          vault marks ∨
        (view.store.persistence = true ∧
          view.vault.owner ≠ some view.client ∧ vault = view.vault ∧
          marks = view.carriedMarks rotatedFrom fresh rotation)) ∧
      view.commitRefresh rotatedFrom fresh rotation faults =
        (⟨view.client, { view.store with
            rev := ⟨view.store.rev.epoch, view.store.rev.credentialRev + 1⟩
            session := some { session with refreshToken := fresh }
            slotTokens := marks }, vault⟩, .committed) := by
  have discarded := @commitRefresh_discarded view faults rotatedFrom fresh
    rotation
  cases shut : view.store.closed with
  | true =>
      by_cases follows : view.store.persisted = true ∧ view.Mine
      · obtain ⟨kept, mine⟩ := follows
        rcases Vault.followRotation_cases faults view.vault rotatedFrom fresh with
          missed | ⟨stored, held, ofToken, followed⟩
        · exact Or.inl ⟨nofun, discarded (by simp [shut])
            fun _ _ _ => missed⟩
        · exact Or.inr (Or.inl ⟨stored, rfl, mine, held, ofToken,
            commitRefresh_stored _ _ _ shut kept mine followed⟩)
      · exact Or.inl ⟨nofun, discarded (by simp [shut])
          fun _ kept mine => (follows ⟨kept, mine⟩).elim⟩
  | false =>
      by_cases held : ∃ session, view.store.session = some session ∧
          session.refreshToken = rotatedFrom
      · obtain ⟨session, signedIn, holds⟩ := held
        obtain ⟨vault, marks, mirrors, committed⟩ :=
          commitRefresh_committed faults rotatedFrom fresh rotation shut
            signedIn holds
        exact Or.inr (Or.inr ⟨session, vault, marks, rfl, signedIn, holds,
          mirrors, committed⟩)
      · have differs : ∀ session, view.store.session = some session →
            session.refreshToken ≠ rotatedFrom :=
          fun session signedIn holds => held ⟨session, signedIn, holds⟩
        exact Or.inl ⟨fun _ => differs,
          discarded (fun _ => differs) (by simp [shut])⟩

/-! ### The other sections under the lock -/

variable (view faults gen) in
theorem takeOutForLogin_cases :
    (¬ view.Current gen ∧ view.takeOutForLogin gen faults = none) ∨
    (view.Current gen ∧ view.store.session = none ∧
      view.takeOutForLogin gen faults =
        some ({ view with store := view.store.newEpoch }, none)) ∨
    ∃ old, view.Current gen ∧ view.store.session = some old ∧
      view.takeOutForLogin gen faults =
        some (⟨view.client, { view.store.newEpoch with
            session := none
            persisted := false },
          if view.Mine then (view.vault.clear faults).1 else view.vault⟩,
          some old) := by
  unfold takeOutForLogin
  by_cases current : view.Current gen
  · rw [if_pos current]
    cases signedIn : view.store.session with
    | none => exact Or.inr (Or.inl ⟨current, rfl, rfl⟩)
    | some old => exact Or.inr (Or.inr ⟨old, current, rfl, rfl⟩)
  · exact Or.inl ⟨current, if_neg current⟩

variable (view faults) in
theorem clearIfHolds_cases (rejected : Token) :
    ((∀ session, view.store.session = some session →
        session.refreshToken ≠ rejected) ∧
      view.clearIfHolds rejected faults = view) ∨
    ∃ session, view.store.session = some session ∧
      session.refreshToken = rejected ∧
      view.clearIfHolds rejected faults =
        ⟨view.client, { view.store.newEpoch with
            persisted := false
            session := none
            published := .loggedOut },
          if view.Mine then (view.vault.clear faults).1 else view.vault⟩ := by
  unfold clearIfHolds
  cases signedIn : view.store.session with
  | none => exact Or.inl ⟨by simp, rfl⟩
  | some session =>
      by_cases holds : session.refreshToken = rejected
      · exact Or.inr ⟨session, rfl, holds, if_neg (not_not.mpr holds)⟩
      · exact Or.inl ⟨by simpa using holds, if_pos holds⟩

variable (view faults gen) in
theorem clearPersistedIfHolds_cases (refused : Token) :
    view.clearPersistedIfHolds gen refused faults = view ∨
    ∃ stored, view.store.loginGen = gen ∧ view.Mine ∧
      view.vault.slot = some stored ∧ stored.refreshToken = refused ∧
      view.clearPersistedIfHolds gen refused faults =
        { view with vault := (view.vault.clear faults).1 } := by
  unfold clearPersistedIfHolds
  by_cases current : view.store.loginGen = gen
  · rw [if_neg (not_not.mpr current)]
    by_cases mine : view.Mine
    · simp only [withSlot, if_pos mine]
      rcases Vault.clearIfHolds_cases faults view.vault
          refused with unchanged | ⟨stored, held, ofToken, cleared⟩
      · exact Or.inl (by rw [unchanged])
      · exact Or.inr ⟨stored, current, mine, held, ofToken, by rw [cleared]⟩
    · exact Or.inl (by simp [withSlot, mine])
  · exact Or.inl (if_pos current)

variable (view faults) in
theorem replaceUser_cases (epoch : Nat) (user : User) :
    view.replaceUser epoch user faults = view ∨
    ∃ session vault, view.store.closed = false ∧
      view.store.session = some session ∧ session.user.id = user.id ∧
      (vault = view.vault ∨
        ∃ stored, view.Mine ∧ view.store.persisted = true ∧
          view.vault.slot = some stored ∧ view.vault.fenced = false ∧
          stored.refreshToken = session.refreshToken ∧
          vault = { view.vault with slot := some { session with user } }) ∧
      view.replaceUser epoch user faults =
        ⟨view.client, { view.store with
          session := some { session with user } }, vault⟩ := by
  unfold replaceUser
  by_cases refused : view.store.closed = true ∨ view.store.rev.epoch ≠ epoch
  · exact Or.inl (if_pos refused)
  rw [if_neg refused]
  simp only [not_or, Bool.not_eq_true] at refused
  cases signedIn : view.store.session with
  | none => exact Or.inl rfl
  | some session =>
      by_cases unchanged : session.user.id ≠ user.id ∨ session.user = user
      · exact Or.inl (if_pos unchanged)
      simp only [unchanged, if_false]
      simp only [not_or, not_not] at unchanged
      by_cases mirrored : view.store.persisted = true ∧ view.Mine
      · obtain ⟨kept, mine⟩ := mirrored
        have same : ({ view with store := { view.store with
            session := some { session with user } } } : View).Mine := mine
        simp only [if_pos kept, withSlot, if_pos same]
        rcases Vault.rewriteUser_cases faults view.vault { session with user } with
          skipped | ⟨stored, held, open_, ofToken, rewritten⟩
        · exact Or.inr ⟨session, view.vault, refused.1, rfl, unchanged.1,
            Or.inl rfl, by rw [skipped]⟩
        · exact Or.inr ⟨session, _, refused.1, rfl, unchanged.1,
            Or.inr ⟨stored, mine, kept, held, open_, ofToken, rfl⟩,
            by rw [rewritten]⟩
      · refine Or.inr ⟨session, view.vault, refused.1, rfl, unchanged.1,
          Or.inl rfl, ?_⟩
        by_cases kept : view.store.persisted = true
        · have other : ¬ ({ view with store := { view.store with
              session := some { session with user } } } : View).Mine :=
            fun mine => mirrored ⟨kept, mine⟩
          simp only [if_pos kept, withSlot, if_neg other]
        · exact if_neg kept

end View

end Brook.SignedIn
