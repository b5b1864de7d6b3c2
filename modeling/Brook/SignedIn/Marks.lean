import Brook.SignedIn.Effects

namespace Brook.SignedIn

/-! Which tokens a client spares: the marks that its store keeps beside the
tokens of the stored login. -/

/-- Every failed operation on the slot leaves a fence. -/
def Faults.Fence (faults : Faults) : Prop := faults.fenceWrite ≠ .failed

instance (faults : Faults) : Decidable faults.Fence :=
  inferInstanceAs (Decidable (_ ≠ _))

namespace Vault

variable {faults : Faults} {vault later : Vault}

theorem Fences.restorable (fences : vault.Fences faults later)
    (fence : faults.Fence) : later.restorable = none := by
  cases fences with
  | kept failed => exact (fence failed).elim
  | fenced => rfl

theorem Fences.family (fences : vault.Fences faults later) :
    later.family = vault.family := by
  cases fences <;> rfl

theorem Fences.owner (fences : vault.Fences faults later) :
    later.owner = vault.owner := by
  cases fences <;> rfl

theorem Fences.slot (fences : vault.Fences faults later) :
    later.slot = vault.slot := by
  cases fences <;> rfl

theorem clear_restorable (fence : faults.Fence) :
    (vault.clear faults).1.restorable = none := by
  rcases clear_cases faults vault with cleared | ⟨later, _, fences, _, cleared⟩
  · rw [cleared]
    simp [restorable]
  · rw [cleared]
    exact fences.restorable fence

@[simp] theorem clear_family : (vault.clear faults).1.family = vault.family := by
  rcases clear_cases faults vault with cleared | ⟨later, _, fences, _, cleared⟩
  · rw [cleared]
  · rw [cleared]
    exact fences.family

@[simp] theorem clear_owner : (vault.clear faults).1.owner = vault.owner := by
  rcases clear_cases faults vault with cleared | ⟨later, _, fences, _, cleared⟩
  · rw [cleared]
  · rw [cleared]
    exact fences.owner

theorem slot_of_clear {stored : Session}
    (held : (vault.clear faults).1.slot = some stored) :
    vault.slot = some stored := by
  rcases clear_cases faults vault with cleared | ⟨later, _, fences, _, cleared⟩
  · rw [cleared] at held
    cases held
  · rw [cleared, fences.slot] at held
    exact held

end Vault

/-! ### One section -/

/-- The login is stored, or is what the slot's owner may store again. -/
def View.Exposes (view : View) (login : LoginId) : Prop :=
  view.vault.restorable = some login ∨
  view.vault.owner = some view.client ∧ view.store.closed = false ∧
    ∃ session, view.store.session = some session ∧
      session.refreshToken.login = login ∧
      (view.store.slotTokens.get? session.refreshToken).isSome

/-- The login is of the session, of a marked token or of the stored copy. -/
def View.Knows (view : View) (login : LoginId) : Prop :=
  (∃ session, view.store.session = some session ∧
    session.refreshToken.login = login) ∨
  (∃ token family, view.store.slotTokens.get? token = some family ∧
    token.login = login) ∨
  ∃ stored, view.vault.slot = some stored ∧ stored.refreshToken.login = login

/-- The token that the task holds or has out. -/
def Stage.token : Stage → Option Token
  | .loginProfile _ token | .totpProfile _ token | .refreshSent token
  | .accountSent _ token _ | .accountRefresh _ token => some token
  | .restoreSent _ stored _ => some stored.refreshToken
  | _ => none

/-- A new login that is not installed yet. -/
def Stage.fresh : Stage → Option Token
  | .loginProfile _ token | .totpProfile _ token => some token
  | _ => none

def Stage.refreshes : Stage → Option Token
  | .refreshSent token | .accountRefresh _ token => some token
  | _ => none

section

variable {exposed : LoginId → Prop} {number : Nat} {view later : View}

/-- A session of an exposed login carries the mark of the stored one. -/
structure View.Hands (exposed : LoginId → Prop) (view : View) : Prop where
  on : ∀ session, view.store.session = some session →
    exposed session.refreshToken.login → view.store.persistence = true
  marked : view.store.closed = false → ∀ session,
    view.store.session = some session →
    exposed session.refreshToken.login →
    (view.store.slotTokens.get? session.refreshToken).isSome
  family : ∀ session family, view.store.session = some session →
    exposed session.refreshToken.login →
    view.store.slotTokens.get? session.refreshToken = some family →
    family = view.vault.family

/-- The tokens of the store are older than the next one. -/
structure View.Dated (number : Nat) (view : View) : Prop where
  session : ∀ session, view.store.session = some session →
    session.refreshToken.number < number
  marks : ∀ token family, view.store.slotTokens.get? token = some family →
    token.number < number

/-- So does a token that is out. -/
structure Stage.Hands (exposed : LoginId → Prop) (view : View)
    (stage : Stage) : Prop where
  out : ∀ token, stage.refreshes = some token → exposed token.login →
    view.store.persistence = true ∧
      view.store.slotTokens.get? token = some view.vault.family
  restores : ∀ gen stored family, stage = .restoreSent gen stored family →
    view.store.persistence = true ∧
      (exposed stored.refreshToken.login → family = view.vault.family)
  reads : ∀ gen stored family, stage = .restoreSent gen stored family →
    view.vault.owner = some view.client → view.Current gen →
    view.vault.slot = some stored ∧ view.vault.fenced = false
  fresh : ∀ token, stage.fresh = some token →
    ¬ exposed token.login ∧ ¬ view.Knows token.login

theorem Stage.token_of_refreshes {stage : Stage} {token : Token}
    (out : stage.refreshes = some token) : stage.token = some token := by
  cases stage <;> first | exact out | cases out

theorem Stage.token_of_fresh {stage : Stage} {token : Token}
    (new : stage.fresh = some token) : stage.token = some token := by
  cases stage <;> first | exact new | cases new

theorem Stage.hands_of_none {stage : Stage} (none : stage.token = none) :
    stage.Hands exposed view where
  out _ out := by cases none.symm.trans (Stage.token_of_refreshes out)
  restores _ _ _ same := by
    subst same
    cases none
  reads _ _ _ same := by
    subst same
    cases none
  fresh _ new := by cases none.symm.trans (Stage.token_of_fresh new)

theorem Stage.fresh_of_refreshes {stage : Stage} {token : Token}
    (out : stage.refreshes = some token) : stage.fresh = none := by
  cases stage <;> first | rfl | cases out

theorem Stage.hands_of_refreshes {stage : Stage} {token : Token}
    (out : stage.refreshes = some token)
    (covered : exposed token.login → view.store.persistence = true ∧
      view.store.slotTokens.get? token = some view.vault.family) :
    stage.Hands exposed view where
  out other out' now := by
    cases out.symm.trans out'
    exact covered now
  restores _ _ _ same := by
    subst same
    cases out
  reads _ _ _ same := by
    subst same
    cases out
  fresh _ new := by cases (Stage.fresh_of_refreshes out).symm.trans new

/-- What a section may assume. -/
structure View.Context (exposed : LoginId → Prop) (number : Nat)
    (view : View) : Prop extends view.Hands exposed, view.Dated number where
  bound : ∀ login, exposed login → login < number
  known : ∀ login, view.Knows login → login < number
  stored : ∀ login, view.vault.restorable = some login → exposed login
  owner : view.vault.owner = some view.client → view.store.persistence = true
  exposes : view.vault.owner = some view.client →
    ∀ login, exposed login ↔ view.Exposes login

/-- What is exposed afterwards; only the owner's sections can change that. -/
def View.after (exposed : LoginId → Prop) (view later : View)
    (login : LoginId) : Prop :=
  if view.vault.owner = some view.client then later.Exposes login
  else exposed login

/-- The logins that the stage's section may bring in. -/
def brings (number : Nat) (past : Option Stage) (login : LoginId) : Prop :=
  login = number ∨
    ∃ token, past.bind Stage.token = some token ∧ token.login = login

/-- Of these, the ones that nobody else has met. -/
def bringsNew (number : Nat) (past : Option Stage) (login : LoginId) : Prop :=
  login = number ∨
    ∃ token, past.bind Stage.fresh = some token ∧ token.login = login

structure View.Leads (exposed : LoginId → Prop) (number : Nat)
    (past : Option Stage) (view later : View) : Prop
    extends later.Hands (view.after exposed later),
      later.Dated (number + 1) where
  client : later.client = view.client
  owner : later.vault.owner = view.vault.owner
  stays : view.store.persistence = true → later.store.persistence = true
  vault : view.vault.owner ≠ some view.client → later.vault = view.vault
  old : view.vault.owner = some view.client → ∀ login, later.Exposes login →
    (exposed login ∧ later.vault.family = view.vault.family) ∨
      bringsNew number past login
  knows : ∀ login, later.Knows login →
    view.Knows login ∨ brings number past login

namespace View

variable {past : Option Stage} {faults : Faults}

theorem after_owner (mine : view.vault.owner = some view.client)
    {login : LoginId} :
    view.after exposed later login ↔ later.Exposes login := by
  unfold after
  rw [if_pos mine]

theorem after_other (other : view.vault.owner ≠ some view.client)
    {login : LoginId} :
    view.after exposed later login ↔ exposed login := by
  unfold after
  rw [if_neg other]

theorem Dated.succ (dated : view.Dated number) : view.Dated (number + 1) where
  session held signedIn := Nat.lt_succ_of_lt (dated.session held signedIn)
  marks token family marked := Nat.lt_succ_of_lt (dated.marks token family marked)

/-- The store changes and the slot does not: the session stays or goes, with its
mark unless the client is closed. -/
theorem Context.store (context : view.Context exposed number) {store : Store}
    (session : ∀ session, store.session = some session →
      view.store.session = some session)
    (kept : store.closed = false → ∀ session, store.session = some session →
      (view.store.slotTokens.get? session.refreshToken).isSome →
      (store.slotTokens.get? session.refreshToken).isSome)
    (marks : ∀ session family, store.session = some session →
      store.slotTokens.get? session.refreshToken = some family →
      view.store.slotTokens.get? session.refreshToken = some family)
    (dated : ∀ token family, store.slotTokens.get? token = some family →
      token.number < number + 1 ∧ (view.Knows token.login ∨
        brings number past token.login))
    (opened : store.closed = false → view.store.closed = false)
    (on : view.store.persistence = true → store.persistence = true) :
    view.Leads exposed number past { view with store := store } := by
  have keeps : ∀ {login}, view.after exposed { view with store := store }
      login → exposed login := by
    intro login now
    by_cases mine : view.vault.owner = some view.client
    · rcases (after_owner mine).mp now with stored |
        ⟨_, open_, held, signedIn, ofLogin, marked⟩
      · exact context.stored login stored
      · obtain ⟨family, mark⟩ := Option.isSome_iff_exists.mp marked
        have before := marks held family signedIn mark
        exact (context.exposes mine login).mpr (Or.inr ⟨mine, opened open_,
          held, session held signedIn, ofLogin, by rw [before]; rfl⟩)
    · exact (after_other mine).mp now
  refine ⟨⟨?_, ?_, ?_⟩, ⟨?_, fun token family marked =>
    (dated token family marked).1⟩, rfl, rfl, on, fun _ => rfl, ?_, ?_⟩
  · intro held signedIn now
    exact on (context.on held (session held signedIn) (keeps now))
  · intro open_ held signedIn now
    exact kept open_ held signedIn
      (context.marked (opened open_) held (session held signedIn) (keeps now))
  · intro held family signedIn now mark
    exact context.family held family (session held signedIn) (keeps now)
      (marks held family signedIn mark)
  · intro held signedIn
    exact Nat.lt_succ_of_lt (context.session held (session held signedIn))
  · intro mine login now
    exact Or.inl ⟨keeps ((after_owner mine).mpr now), rfl⟩
  · intro login knows
    rcases knows with ⟨held, signedIn, same⟩ | ⟨token, family, marked, rfl⟩ |
      stored
    · exact Or.inl (Or.inl ⟨held, session held signedIn, same⟩)
    · exact (dated token family marked).2
    · exact Or.inl (Or.inr (Or.inr stored))

theorem Context.unchanged (context : view.Context exposed number)
    {login : LoginId} : view.after exposed view login ↔ exposed login := by
  by_cases mine : view.vault.owner = some view.client
  · rw [after_owner mine, context.exposes mine]
  · exact after_other mine

/-- The session keeps its token, and the slot its login if anything. -/
theorem Context.alike (context : view.Context exposed number)
    (client : later.client = view.client)
    (owner : later.vault.owner = view.vault.owner)
    (family : later.vault.family = view.vault.family)
    (vault : view.vault.owner ≠ some view.client → later.vault = view.vault)
    (restorable : view.vault.owner = some view.client → ∀ login,
      later.vault.restorable = some login → exposed login)
    (slot : ∀ stored, later.vault.slot = some stored →
      ∃ before, view.vault.slot = some before ∧
        before.refreshToken = stored.refreshToken)
    (session : ∀ session, later.store.session = some session →
      ∃ before, view.store.session = some before ∧
        before.refreshToken = session.refreshToken)
    (marks : later.store.slotTokens = view.store.slotTokens)
    (opened : later.store.closed = false → view.store.closed = false)
    (on : view.store.persistence = true → later.store.persistence = true) :
    view.Leads exposed number past later := by
  have keeps : ∀ {login}, view.after exposed later login → exposed login := by
    intro login now
    by_cases mine : view.vault.owner = some view.client
    · rcases (after_owner mine).mp now with stored |
        ⟨_, open_, held, signedIn, ofLogin, marked⟩
      · exact restorable mine login stored
      · obtain ⟨before, was, same⟩ := session held signedIn
        rw [marks, ← same] at marked
        exact (context.exposes mine login).mpr (Or.inr ⟨mine, opened open_,
          before, was, same ▸ ofLogin, marked⟩)
    · exact (after_other mine).mp now
  refine ⟨⟨?_, ?_, ?_⟩, ⟨?_, ?_⟩, client, owner, on, vault, ?_, ?_⟩
  · intro held signedIn now
    obtain ⟨before, was, same⟩ := session held signedIn
    exact on (context.on before was (same ▸ keeps now))
  · intro open_ held signedIn now
    obtain ⟨before, was, same⟩ := session held signedIn
    rw [marks, ← same]
    exact context.marked (opened open_) before was (same ▸ keeps now)
  · intro held other signedIn now mark
    obtain ⟨before, was, same⟩ := session held signedIn
    rw [marks, ← same] at mark
    rw [family]
    exact context.family before other was (same ▸ keeps now) mark
  · intro held signedIn
    obtain ⟨before, was, same⟩ := session held signedIn
    exact Nat.lt_succ_of_lt (same ▸ context.session before was)
  · intro token other mark
    rw [marks] at mark
    exact Nat.lt_succ_of_lt (context.marks token other mark)
  · intro mine login now
    exact Or.inl ⟨keeps ((after_owner mine).mpr now), family⟩
  · intro login knows
    rcases knows with ⟨held, signedIn, ofLogin⟩ | ⟨token, other, mark, rfl⟩ |
      ⟨stored, stores, ofLogin⟩
    · obtain ⟨before, was, same⟩ := session held signedIn
      exact Or.inl (Or.inl ⟨before, was, same ▸ ofLogin⟩)
    · rw [marks] at mark
      exact Or.inl (Or.inr (Or.inl ⟨token, other, mark, rfl⟩))
    · obtain ⟨before, was, same⟩ := slot stored stores
      exact Or.inl (Or.inr (Or.inr ⟨before, was, same ▸ ofLogin⟩))

theorem Context.old_marks (context : view.Context exposed number)
    {token : Token} {family : Nat}
    (mark : view.store.slotTokens.get? token = some family) :
    token.number < number + 1 ∧ (view.Knows token.login ∨
      brings number past token.login) :=
  ⟨Nat.lt_succ_of_lt (context.marks token family mark),
    Or.inl (Or.inr (Or.inl ⟨token, family, mark, rfl⟩))⟩

/-- The marks stay, and so does the session if it does not go. -/
theorem Context.rest (context : view.Context exposed number) {store : Store}
    (session : ∀ session, store.session = some session →
      view.store.session = some session)
    (marks : store.slotTokens = view.store.slotTokens)
    (opened : store.closed = false → view.store.closed = false)
    (on : view.store.persistence = true → store.persistence = true) :
    view.Leads exposed number past { view with store := store } :=
  context.alike rfl rfl rfl (fun _ => rfl) (fun _ => context.stored)
    (fun stored stores => ⟨stored, stores, rfl⟩)
    (fun held signedIn => ⟨held, session held signedIn, rfl⟩) marks opened on

theorem Context.refl (context : view.Context exposed number) :
    view.Leads exposed number past view :=
  context.rest (fun _ signedIn => signedIn) rfl id id

/-- Nobody is signed in any more, and the owner's stored copy is unusable. -/
theorem Context.out (context : view.Context exposed number)
    (fence : faults.Fence) {store : Store} {mine : Prop} [Decidable mine]
    (clears : view.vault.owner = some view.client → mine)
    (spares : mine → view.vault.owner = some view.client)
    (out : store.session = none)
    (marks : store.slotTokens = view.store.slotTokens)
    (on : store.persistence = view.store.persistence) :
    view.Leads exposed number past ⟨view.client, store,
      if mine then (view.vault.clear faults).1 else view.vault⟩ where
  on _ signedIn := by cases out.symm.trans signedIn
  marked _ _ signedIn := by cases out.symm.trans signedIn
  family _ _ signedIn := by cases out.symm.trans signedIn
  session _ signedIn := by cases out.symm.trans signedIn
  marks token family marked :=
    Nat.lt_succ_of_lt (context.marks token family (by rwa [← marks]))
  client := rfl
  owner := by split <;> simp
  stays := by
    intro was
    exact on.trans was
  vault other := by
    dsimp only
    rw [if_neg fun now => other (spares now)]
  old owner login now := by
    rcases now with stored | ⟨_, _, held, signedIn, _⟩
    · simp only [if_pos (clears owner), Vault.clear_restorable fence] at stored
      cases stored
    · cases out.symm.trans signedIn
  knows login knows := by
    rcases knows with ⟨_, signedIn, _⟩ | ⟨token, family, marked, same⟩ |
      ⟨stored, held, same⟩
    · cases out.symm.trans signedIn
    · exact Or.inl (Or.inr (Or.inl ⟨token, family, by rwa [← marks], same⟩))
    · refine Or.inl (Or.inr (Or.inr ⟨stored, ?_, same⟩))
      dsimp only at held
      split at held
      · exact Vault.slot_of_clear held
      · exact held

/-- The owner's stored copy goes; its session stays. -/
theorem Context.cleared (context : view.Context exposed number)
    (fence : faults.Fence) (mine : view.vault.owner = some view.client) :
    view.Leads exposed number past
      { view with vault := (view.vault.clear faults).1 } := by
  refine context.alike rfl Vault.clear_owner Vault.clear_family
    (fun other => (other mine).elim) ?_ ?_
    (fun held signedIn => ⟨held, signedIn, rfl⟩) rfl id id
  · intro _ login stored
    rw [Vault.clear_restorable fence] at stored
    cases stored
  · intro stored stores
    exact ⟨stored, Vault.slot_of_clear stores, rfl⟩

theorem Context.replaceUser (context : view.Context exposed number)
    (epoch : Nat) (user : User) :
    view.Leads exposed number past (view.replaceUser epoch user faults) := by
  rcases replaceUser_cases view faults epoch user with
    same | ⟨session, vault, _, signedIn, _, rewrites, replaced⟩
  · rw [same]
    exact context.rest (fun _ signedIn => signedIn) rfl id id
  · rw [replaced]
    have held : ∀ other, some { session with user } = some other →
        ∃ before, view.store.session = some before ∧
          before.refreshToken = other.refreshToken := by
      intro other same
      cases same
      exact ⟨session, signedIn, rfl⟩
    rcases rewrites with rfl | ⟨stored, mine, _, stores, open_, ofToken, rfl⟩
    · exact context.alike rfl rfl rfl (fun _ => rfl) (fun _ => context.stored)
        (fun stored stores => ⟨stored, stores, rfl⟩) held rfl id id
    · refine context.alike rfl rfl rfl (fun other => (other mine.2).elim) ?_ ?_
        held rfl id id
      · intro _ login restores
        apply context.stored
        simp only [Vault.restorable, open_] at restores
        simpa [Vault.restorable, open_, stores, ofToken] using restores
      · intro other stores'
        cases stores'
        exact ⟨stored, stores, ofToken⟩

/-- How a session comes to be held: with a new login, or with one that is
covered already. -/
structure Fits (exposed : LoginId → Prop) (number : Nat)
    (past : Option Stage) (view : View) (marks : Table Token Nat)
    (faults : Faults) (session : Session) (marking : Marking) : Prop where
  dated : session.refreshToken.number < number + 1
  unmarked : marks.get? session.refreshToken = none
  marks : ∀ token family, marks.get? token = some family →
    view.store.slotTokens.get? token = some family
  brought : view.Knows session.refreshToken.login ∨
    brings number past session.refreshToken.login
  known : (bringsNew number past session.refreshToken.login ∧
      marking = .fresh ∧ ¬ exposed session.refreshToken.login) ∨
    (exposed session.refreshToken.login → view.store.persistence = true) ∧
    (view.Mine → faults.replaceFails = false →
      marking = .continues view.vault.family ∧
        exposed session.refreshToken.login)

theorem Context.mirrors (context : view.Context exposed number)
    (fence : faults.Fence) {marks kept : Table Token Nat} {session : Session}
    {marking : Marking} {vault : Vault} {store : Store}
    (fits : Fits exposed number past view marks faults session marking)
    (mirrors : Mirrors view marks session faults marking vault kept)
    (held : store.session = some session)
    (marked : store.slotTokens = kept)
    (on : store.persistence = view.store.persistence) :
    view.Leads exposed number past ⟨view.client, store, vault⟩ := by
  have knows : ∀ {vault' : Vault} {login : LoginId},
      (∀ stored, vault'.slot = some stored →
        view.vault.slot = some stored ∨ stored = session) →
      (∀ token family, store.slotTokens.get? token = some family →
        marks.get? token = some family ∨ token = session.refreshToken) →
      View.Knows ⟨view.client, store, vault'⟩ login →
      view.Knows login ∨ brings number past login := by
    intro vault' login slot tokens knows
    rcases knows with ⟨other, signedIn, rfl⟩ | ⟨token, family, mark, rfl⟩ |
      ⟨stored, stores, rfl⟩
    · cases held.symm.trans signedIn
      exact fits.brought
    · rcases tokens token family mark with before | rfl
      · exact Or.inl (Or.inr (Or.inl
          ⟨token, family, fits.marks token family before, rfl⟩))
      · exact fits.brought
    · rcases slot stored stores with before | rfl
      · exact Or.inl (Or.inr (Or.inr ⟨stored, before, rfl⟩))
      · exact fits.brought
  have dated : (∀ token family, store.slotTokens.get? token = some family →
        marks.get? token = some family ∨ token = session.refreshToken) →
      ∀ vault' : Vault, View.Dated (number + 1) ⟨view.client, store, vault'⟩ := by
    intro tokens vault'
    constructor
    · intro other signedIn
      cases held.symm.trans signedIn
      exact fits.dated
    · intro token family mark
      rcases tokens token family mark with before | rfl
      · exact Nat.lt_succ_of_lt (context.marks token family
          (fits.marks token family before))
      · exact fits.dated
  cases mirrors with
  | off off =>
      have other : view.vault.owner ≠ some view.client := by
        intro mine
        exact Bool.false_ne_true (off.symm.trans (context.owner mine))
      have hidden : ¬ exposed session.refreshToken.login := by
        rcases fits.known with ⟨_, _, new⟩ | ⟨covered, _⟩
        · exact new
        · intro now
          exact Bool.false_ne_true (off.symm.trans (covered now))
      have tokens : ∀ token family, store.slotTokens.get? token = some family →
          marks.get? token = some family ∨ token = session.refreshToken :=
        fun token family mark => Or.inl (marked ▸ mark)
      refine ⟨⟨?_, ?_, ?_⟩, dated tokens _, rfl, rfl, fun was => on.trans was,
        fun _ => rfl, fun mine => (other mine).elim, ?_⟩
      · intro held' signedIn now
        cases held.symm.trans signedIn
        exact (hidden ((after_other other).mp now)).elim
      · intro _ held' signedIn now
        cases held.symm.trans signedIn
        exact (hidden ((after_other other).mp now)).elim
      · intro held' _ signedIn now
        cases held.symm.trans signedIn
        exact (hidden ((after_other other).mp now)).elim
      · intro login
        exact knows (fun stored stores => Or.inl stores) tokens
  | landed mine works =>
      have tokens : ∀ token family, store.slotTokens.get? token = some family →
          marks.get? token = some family ∨ token = session.refreshToken := by
        intro token family mark
        by_cases same : token = session.refreshToken
        · exact Or.inr same
        · rw [marked] at mark
          left
          cases marking <;>
            simpa [Marking.marks, Table.get?_put, same] using mark
      have written : store.slotTokens.get? session.refreshToken =
          some (marking.family view.vault.family) := by
        rw [marked]
        rcases fits.known with ⟨_, rfl, _⟩ | ⟨_, covered⟩
        · simp [Marking.marks, Marking.family]
        · obtain ⟨rfl, _⟩ := covered mine works
          simp [Marking.marks, Marking.family]
      refine ⟨⟨?_, ?_, ?_⟩, dated tokens _, rfl, rfl, fun was => on.trans was,
        fun other => (other mine.2).elim, ?_, ?_⟩
      · intro _ _ _
        exact on.trans mine.1
      · intro _ held' signedIn _
        cases held.symm.trans signedIn
        rw [written]
        rfl
      · intro held' family signedIn _ mark
        cases held.symm.trans signedIn
        exact Option.some.inj (mark.symm.trans written)
      · intro _ login now
        have same : session.refreshToken.login = login := by
          rcases now with stored | ⟨_, _, held', signedIn, same, _⟩
          · simp only [Vault.restorable] at stored
            split at stored
            · cases stored
            · exact Option.some.inj stored
          · cases held.symm.trans signedIn
            exact same
        rcases fits.known with ⟨new, _, _⟩ | ⟨_, covered⟩
        · exact Or.inr (same ▸ new)
        · obtain ⟨rfl, was⟩ := covered mine works
          exact Or.inl ⟨same ▸ was, rfl⟩
      · intro login
        exact knows (fun stored stores => Or.inr (Option.some.inj stores).symm)
          tokens
  | failed mine fails fences =>
      have tokens : ∀ token family, store.slotTokens.get? token = some family →
          marks.get? token = some family ∨ token = session.refreshToken :=
        fun token family mark => Or.inl (marked ▸ mark)
      have hidden : ∀ {login},
          ¬ View.Exposes ⟨view.client, store, vault⟩ login := by
        intro login now
        rcases now with stored | ⟨_, _, held', signedIn, _, mark⟩
        · rw [fences.restorable fence] at stored
          cases stored
        · cases held.symm.trans signedIn
          rw [marked, fits.unmarked] at mark
          cases mark
      have none : ∀ {login},
          ¬ view.after exposed ⟨view.client, store, vault⟩ login :=
        fun now => hidden ((after_owner mine.2).mp now)
      exact ⟨⟨fun _ _ now => (none now).elim, fun _ _ _ now => (none now).elim,
        fun _ _ _ now => (none now).elim⟩, dated tokens _, rfl, fences.owner,
        fun was => on.trans was, fun other => (other mine.2).elim,
        fun _ _ now => (hidden now).elim, fun login =>
          knows (fun stored stores => Or.inl (fences.slot ▸ stores)) tokens⟩

/-! #### Commits -/

section

variable {rotatedFrom fresh token : Token} {rotation : Bool} {family : Nat}

theorem carried_cases
    (mark : (view.carriedMarks rotatedFrom fresh rotation).get? token =
      some family) :
    (token ≠ rotatedFrom ∧
      view.store.slotTokens.get? token = some family) ∨
    (token = fresh ∧ rotation = true ∧
      view.store.slotTokens.get? rotatedFrom = some family) := by
  have filtered : ∀ {other}, (view.store.slotTokens.filter fun other _ =>
      other ≠ rotatedFrom).get? token = some other → token ≠ rotatedFrom ∧
        view.store.slotTokens.get? token = some other := by
    intro other mark
    simp only [Table.get?_filter, Option.filter_eq_some_iff,
      decide_eq_true_eq] at mark
    exact ⟨mark.2, mark.1⟩
  unfold carriedMarks at mark
  cases rotation with
  | false => exact Or.inl (filtered mark)
  | true =>
      cases inherited : view.store.slotTokens.get? rotatedFrom with
      | none =>
          simp only [inherited] at mark
          exact Or.inl (filtered mark)
      | some old =>
          simp only [inherited, Table.get?_put] at mark
          split at mark
          · next same => exact Or.inr ⟨same, rfl, mark⟩
          · exact Or.inl (filtered mark)

theorem carried_fresh
    (inherited : view.store.slotTokens.get? rotatedFrom = some family) :
    (view.carriedMarks rotatedFrom fresh true).get? fresh = some family := by
  unfold carriedMarks
  simp [inherited]

theorem carried_other (old : token ≠ rotatedFrom) (new : token ≠ fresh) :
    (view.carriedMarks rotatedFrom fresh rotation).get? token =
      view.store.slotTokens.get? token := by
  have filtered : (view.store.slotTokens.filter fun other _ =>
      other ≠ rotatedFrom).get? token = view.store.slotTokens.get? token := by
    rw [Table.get?_filter]
    ext family
    simp [Option.filter_eq_some_iff, old]
  unfold carriedMarks
  cases rotation with
  | false => exact filtered
  | true =>
      cases inherited : view.store.slotTokens.get? rotatedFrom with
      | none => exact filtered
      | some family =>
          rw [Table.get?_put_ne _ _ new]
          exact filtered

/-- The answer to a refresh or to an account call. -/
structure Answers (exposed : LoginId → Prop) (number : Nat)
    (past : Option Stage) (view : View) (faults : Faults)
    (rotatedFrom fresh : Token) (rotation : Bool) : Prop where
  next : fresh.number = number
  sent : past.bind Stage.token = some rotatedFrom
  exchanged : rotation = false → fresh.login = number
  rotated : rotation = true → fresh.login = rotatedFrom.login
  covered : rotation = true → exposed rotatedFrom.login →
    view.store.persistence = true ∧
      view.store.slotTokens.get? rotatedFrom = some view.vault.family
  /-- A rotation that lands in the slot is of a marked token. -/
  marked : rotation = true → view.store.closed = false → view.Mine →
    faults.replaceFails = false → ∀ session,
    view.store.session = some session → session.refreshToken = rotatedFrom →
    (view.store.slotTokens.get? rotatedFrom).isSome

theorem Answers.brought (answers : Answers exposed number past view faults
      rotatedFrom fresh rotation) : brings number past fresh.login := by
  cases rotation with
  | false => exact Or.inl (answers.exchanged rfl)
  | true => exact Or.inr ⟨rotatedFrom, answers.sent, (answers.rotated rfl).symm⟩

theorem Answers.unmarked (answers : Answers exposed number past view faults
      rotatedFrom fresh rotation) (dated : view.Dated number) :
    view.store.slotTokens.get? fresh = none := by
  cases mark : view.store.slotTokens.get? fresh with
  | none => rfl
  | some family =>
      have old := dated.marks fresh family mark
      rw [answers.next] at old
      exact (Nat.lt_irrefl _ old).elim

theorem Answers.dated (answers : Answers exposed number past view faults
      rotatedFrom fresh rotation) (context : view.Context exposed number)
    (mark : (view.carriedMarks rotatedFrom fresh rotation).get? token =
      some family) :
    token.number < number + 1 ∧ (view.Knows token.login ∨
      brings number past token.login) := by
  rcases carried_cases mark with ⟨_, before⟩ | ⟨rfl, _, _⟩
  · exact context.old_marks before
  · exact ⟨by rw [answers.next]; exact Nat.lt_succ_self _,
      Or.inr answers.brought⟩

theorem Answers.other (answers : Answers exposed number past view faults
      rotatedFrom fresh rotation) (dated : view.Dated number)
    {session : Session} (signedIn : view.store.session = some session) :
    session.refreshToken ≠ fresh := by
  rintro rfl
  have old := dated.session session signedIn
  rw [answers.next] at old
  exact Nat.lt_irrefl _ old

theorem Context.discarded (context : view.Context exposed number)
    (answers : Answers exposed number past view faults rotatedFrom fresh
      rotation)
    (differs : view.store.closed = false → ∀ session,
      view.store.session = some session → session.refreshToken ≠ rotatedFrom) :
    view.Leads exposed number past
      (view.withMarks (view.carriedMarks rotatedFrom fresh rotation)) := by
  refine context.store (fun _ signedIn => signedIn) ?_ ?_
    (fun token family mark => answers.dated context mark) id id
  · intro open_ session signedIn mark
    rwa [carried_other (differs open_ session signedIn)
      (answers.other context.toDated signedIn)]
  · intro session family signedIn mark
    rcases carried_cases mark with ⟨_, before⟩ | ⟨same, _, _⟩
    · exact before
    · exact (answers.other context.toDated signedIn same).elim

/-- The stored copy of a closed owner follows its rotation. -/
theorem Context.followed (context : view.Context exposed number)
    (answers : Answers exposed number past view faults rotatedFrom fresh
      rotation)
    (mine : view.Mine) (shut : view.store.closed = true) {stored : Session}
    (held : view.vault.slot = some stored)
    (ofToken : stored.refreshToken = rotatedFrom) :
    view.Leads exposed number past
      { view.withMarks (view.carriedMarks rotatedFrom fresh rotation) with
        vault := { view.vault with slot := some ⟨stored.user, fresh⟩ } } := by
  have same : ∀ {login : LoginId}, View.Exposes
      { view.withMarks (view.carriedMarks rotatedFrom fresh rotation) with
        vault := { view.vault with slot := some ⟨stored.user, fresh⟩ } } login →
      fresh.login = login ∧ view.vault.fenced = false := by
    intro login now
    rcases now with stores | ⟨_, open_, _⟩
    · simp only [Vault.restorable] at stores
      split at stores
      · cases stores
      · next unfenced =>
          exact ⟨Option.some.inj stores, by simpa using unfenced⟩
    · exact (Bool.false_ne_true (open_.symm.trans shut)).elim
  refine ⟨⟨fun _ _ _ => mine.1, ?_, ?_⟩, ⟨?_, ?_⟩, rfl, rfl, id,
    fun other => (other mine.2).elim, ?_, ?_⟩
  · intro open_
    exact (Bool.false_ne_true (open_.symm.trans shut)).elim
  · intro session family signedIn now mark
    obtain ⟨ofLogin, unfenced⟩ := same ((after_owner mine.2).mp now)
    have before : view.store.slotTokens.get? session.refreshToken =
        some family := by
      rcases carried_cases mark with ⟨_, before⟩ | ⟨same, _, _⟩
      · exact before
      · exact (answers.other context.toDated signedIn same).elim
    cases rotation with
    | false =>
        have old := context.known _ (Or.inl ⟨session, signedIn, rfl⟩)
        rw [← ofLogin, answers.exchanged rfl] at old
        exact (Nat.lt_irrefl _ old).elim
    | true =>
        refine context.family session family signedIn ?_ before
        apply context.stored
        simp [Vault.restorable, unfenced, held, ofToken, ← ofLogin,
          answers.rotated rfl]
  · intro session signedIn
    exact Nat.lt_succ_of_lt (context.session session signedIn)
  · intro token family mark
    exact (answers.dated context mark).1
  · intro _ login now
    obtain ⟨rfl, unfenced⟩ := same now
    cases rotation with
    | false => exact Or.inr (Or.inl (answers.exchanged rfl))
    | true =>
        refine Or.inl ⟨context.stored _ ?_, rfl⟩
        simp [Vault.restorable, unfenced, held, ofToken, answers.rotated rfl]
  · intro login knows
    rcases knows with signedIn | ⟨token, family, mark, rfl⟩ |
      ⟨other, stores, rfl⟩
    · exact Or.inl (Or.inl signedIn)
    · exact (answers.dated context mark).2
    · cases stores
      exact Or.inr answers.brought

/-- A superseded client keeps its session's mark beside the new token. -/
theorem Context.carried (context : view.Context exposed number)
    (answers : Answers exposed number past view faults rotatedFrom fresh
      rotation)
    (other : view.vault.owner ≠ some view.client)
    (open_ : view.store.closed = false) {session : Session} {store : Store}
    (signedIn : view.store.session = some session)
    (holds : session.refreshToken = rotatedFrom)
    (next : store.session = some { session with refreshToken := fresh })
    (marks : store.slotTokens = view.carriedMarks rotatedFrom fresh rotation)
    (on : store.persistence = view.store.persistence) :
    view.Leads exposed number past ⟨view.client, store, view.vault⟩ := by
  have before : exposed fresh.login → rotation = true ∧
      exposed session.refreshToken.login := by
    intro now
    cases rotation with
    | false =>
        have bound := context.bound _ now
        rw [answers.exchanged rfl] at bound
        exact (Nat.lt_irrefl _ bound).elim
    | true =>
        rw [answers.rotated rfl] at now
        exact ⟨rfl, holds ▸ now⟩
  refine ⟨⟨?_, ?_, ?_⟩, ⟨?_, ?_⟩, rfl, rfl, fun was => on.trans was,
    fun _ => rfl, fun mine => (other mine).elim, ?_⟩
  · intro held signedIn' now
    cases next.symm.trans signedIn'
    exact on.trans (context.on session signedIn
      (before ((after_other other).mp now)).2)
  · intro _ held signedIn' now
    cases next.symm.trans signedIn'
    obtain ⟨rfl, was⟩ := before ((after_other other).mp now)
    obtain ⟨family, mark⟩ := Option.isSome_iff_exists.mp
      (context.marked open_ session signedIn was)
    rw [marks, carried_fresh (holds ▸ mark)]
    rfl
  · intro held family signedIn' now mark
    cases next.symm.trans signedIn'
    rw [marks] at mark
    rcases carried_cases mark with ⟨_, old⟩ | ⟨_, _, old⟩
    · rw [answers.unmarked context.toDated] at old
      cases old
    · exact context.family session family signedIn
        (before ((after_other other).mp now)).2 (holds ▸ old)
  · intro held signedIn'
    cases next.symm.trans signedIn'
    exact answers.next ▸ Nat.lt_succ_self _
  · intro token family mark
    rw [marks] at mark
    exact (answers.dated context mark).1
  · intro login knows
    rcases knows with ⟨_, signedIn', rfl⟩ | ⟨token, family, mark, rfl⟩ | stores
    · cases next.symm.trans signedIn'
      exact Or.inr answers.brought
    · rw [marks] at mark
      exact (answers.dated context mark).2
    · exact Or.inl (Or.inr (Or.inr stores))

theorem Context.commitRefresh (context : view.Context exposed number)
    (fence : faults.Fence)
    (answers : Answers exposed number past view faults rotatedFrom fresh
      rotation) :
    view.Leads exposed number past
      (view.commitRefresh rotatedFrom fresh rotation faults).1 := by
  rcases commitRefresh_cases view faults rotatedFrom fresh rotation with
    ⟨differs, discarded⟩ | ⟨stored, shut, mine, held, ofToken, kept⟩ |
    ⟨session, vault, marks, open_, signedIn, holds, mirrors, committed⟩
  · rw [discarded]
    exact context.discarded answers differs
  · rw [kept]
    exact context.followed answers mine shut held ofToken
  · rw [committed]
    rcases mirrors with mirrors | ⟨_, other, rfl, rfl⟩
    · have filtered : ∀ {token family}, (view.store.slotTokens.filter
          fun other _ => other ≠ rotatedFrom).get? token = some family →
          view.store.slotTokens.get? token = some family := by
        intro token family mark
        simp only [Table.get?_filter, Option.filter_eq_some_iff] at mark
        exact mark.1
      have fits : Fits exposed number past view
          (view.store.slotTokens.filter fun other _ => other ≠ rotatedFrom)
          faults { session with refreshToken := fresh }
          (.ofRotation rotation (view.store.slotTokens.get? rotatedFrom)) := by
        refine ⟨answers.next ▸ Nat.lt_succ_self _, ?_, fun _ _ => filtered,
          Or.inr answers.brought, ?_⟩
        · cases mark : (view.store.slotTokens.filter
              fun other _ => other ≠ rotatedFrom).get? fresh with
          | none => rfl
          | some family =>
              exact ((answers.unmarked context.toDated).symm.trans
                (filtered mark)).symm ▸ rfl
        · cases rotation with
          | false =>
              have new := answers.exchanged rfl
              refine Or.inl ⟨Or.inl new, rfl, fun now => ?_⟩
              exact Nat.lt_irrefl _ (new ▸ context.bound _ now)
          | true =>
              have same := answers.rotated rfl
              refine Or.inr ⟨fun now => ?_, fun mine works => ?_⟩
              · exact (answers.covered rfl (same ▸ now)).1
              · obtain ⟨family, mark⟩ := Option.isSome_iff_exists.mp
                  (answers.marked rfl open_ mine works session signedIn holds)
                have was : exposed session.refreshToken.login :=
                  (context.exposes mine.2 _).mpr (Or.inr ⟨mine.2, open_, session,
                    signedIn, rfl, by rw [holds, mark]; rfl⟩)
                have current := context.family session family signedIn was
                  (holds ▸ mark)
                simp only [Marking.ofRotation, mark]
                exact ⟨by rw [current], by rw [same, ← holds]; exact was⟩
      exact context.mirrors fence fits mirrors rfl rfl rfl
    · exact context.carried answers other open_ signedIn holds rfl rfl rfl

end

end View

/-- Whatever a section does: what is exposed stays covered, and only the owner
revokes a token of it. -/
structure Outcome.Spares (exposed : LoginId → Prop) (number : Nat)
    (past : Option Stage) (view : View) (out : Outcome) : Prop where
  leads : view.Leads exposed number past out.view
  stage : ∀ next, out.stage = some next →
    next.Hands (view.after exposed out.view) out.view
  tokens : ∀ next token, out.stage = some next → next.token = some token →
    view.Knows token.login ∨ brings number past token.login
  fresh : ∀ next token, out.stage = some next → next.fresh = some token →
    token = ⟨number, number⟩ ∧ out.view = view ∧ out.revokes = []
  revokes : ∀ token ∈ out.revokes, view.after exposed out.view token.login →
    view.vault.owner = some view.client
  known : ∀ token ∈ out.revokes,
    view.Knows token.login ∨ brings number past token.login
  direct : ∀ token, .sentLogout token ∈ out.events → ¬ exposed token.login

namespace Outcome

variable {past : Option Stage} {out : Outcome} {faults : Faults}

theorem Spares.done (leads : view.Leads exposed number past later) :
    later.done.Spares exposed number past view where
  leads := leads
  stage _ goesOn := by cases goesOn
  tokens _ _ goesOn := by cases goesOn
  fresh _ _ goesOn := by cases goesOn
  revokes _ member := by cases member
  known _ member := by cases member
  direct _ emitted := by cases emitted

/-- A stage that holds no token. -/
theorem Spares.plain {next : Stage}
    (leads : view.Leads exposed number past later)
    (token : next.token = none) :
    (later.goesOn next).Spares exposed number past view where
  leads := leads
  stage other goesOn := by
    cases goesOn
    exact Stage.hands_of_none token
  tokens other held goesOn has := by
    cases goesOn
    cases token.symm.trans has
  fresh other held goesOn has := by
    cases goesOn
    cases token.symm.trans (Stage.token_of_fresh has)
  revokes _ member := by cases member
  known _ member := by cases member
  direct _ emitted := by cases emitted

theorem Spares.goesOn {next : Stage}
    (leads : view.Leads exposed number past later)
    (hands : next.Hands (view.after exposed later) later)
    (tokens : ∀ token, next.token = some token →
      view.Knows token.login ∨ brings number past token.login)
    (old : next.fresh = none) :
    (later.goesOn next).Spares exposed number past view where
  leads := leads
  stage other goesOn := by
    cases goesOn
    exact hands
  tokens other token goesOn has := by
    cases goesOn
    exact tokens token has
  fresh other token goesOn has := by
    cases goesOn
    cases old.symm.trans has
  revokes _ member := by cases member
  known _ member := by cases member
  direct _ emitted := by cases emitted

theorem Spares.emit (spares : out.Spares exposed number past view)
    {event : Event} (quiet : ∀ token, event ≠ .sentLogout token) :
    (out.emit event).Spares exposed number past view where
  leads := spares.leads
  stage := spares.stage
  tokens := spares.tokens
  fresh := spares.fresh
  revokes := spares.revokes
  known := spares.known
  direct token emitted := by
    rcases List.mem_cons.mp emitted with same | old
    · exact (quiet token same.symm).elim
    · exact spares.direct token old

/-- The token that is handed over loses its mark. -/
theorem unmark_get {marks : Table Token Nat} {token other : Token}
    {family : Nat}
    (mark : (marks.filter fun kept _ => kept ≠ token).get? other =
      some family) : other ≠ token ∧ marks.get? other = some family := by
  simp only [Table.get?_filter, Option.filter_eq_some_iff,
    decide_eq_true_eq] at mark
  exact ⟨mark.2, mark.1⟩

theorem unmark_leads (leads : view.Leads exposed number past later)
    {token : Token}
    (dropped : later.store.closed = false → ∀ session,
      later.store.session = some session → session.refreshToken = token →
      ¬ view.after exposed later session.refreshToken.login) :
    view.Leads exposed number past (later.unmark token) := by
  have exposes : ∀ {login}, (later.unmark token).Exposes login →
      later.Exposes login := by
    intro login now
    rcases now with stored | ⟨mine, open_, session, signedIn, same, marked⟩
    · exact Or.inl stored
    · obtain ⟨family, mark⟩ := Option.isSome_iff_exists.mp marked
      refine Or.inr ⟨mine, open_, session, signedIn, same, ?_⟩
      rw [(unmark_get mark).2]
      rfl
  have keeps : ∀ {login}, view.after exposed (later.unmark token) login →
      view.after exposed later login := by
    intro login now
    by_cases mine : view.vault.owner = some view.client
    · exact (View.after_owner mine).mpr
        (exposes ((View.after_owner mine).mp now))
    · exact (View.after_other mine).mpr ((View.after_other mine).mp now)
  refine ⟨⟨?_, ?_, ?_⟩, ⟨leads.session, ?_⟩, leads.client, leads.owner,
    leads.stays, leads.vault, ?_, ?_⟩
  · intro session signedIn now
    exact leads.on session signedIn (keeps now)
  · intro open_ session signedIn now
    obtain ⟨family, mark⟩ := Option.isSome_iff_exists.mp
      (leads.marked open_ session signedIn (keeps now))
    have kept : session.refreshToken ≠ token :=
      fun same => dropped open_ session signedIn same (keeps now)
    have same : (later.unmark token).store.slotTokens.get?
        session.refreshToken = some family := by
      simp [View.unmark, Option.filter_eq_some_iff, mark, kept]
    rw [same]
    rfl
  · intro session family signedIn now mark
    exact leads.family session family signedIn (keeps now) (unmark_get mark).2
  · intro other family mark
    exact leads.marks other family (unmark_get mark).2
  · intro mine login now
    exact leads.old mine login (exposes now)
  · intro login knows
    apply leads.knows
    rcases knows with signedIn | ⟨other, family, mark, same⟩ | stores
    · exact Or.inl signedIn
    · exact Or.inr (Or.inl ⟨other, family, (unmark_get mark).2, same⟩)
    · exact Or.inr (Or.inr stores)

/-- A token that is handed over: the owner's, or one that carries the mark. -/
theorem Spares.revoke (spares : out.Spares exposed number past view)
    {token : Token} (plain : ∀ next, out.stage = some next → next.token = none)
    (brought : view.Knows token.login ∨ brings number past token.login)
    (marked : view.vault.owner ≠ some view.client → exposed token.login →
      out.view.store.persistence = true ∧
        out.view.store.slotTokens.get? token = some view.vault.family)
    (dropped : out.view.store.closed = false → ∀ session,
      out.view.store.session = some session →
      session.refreshToken = token →
      ¬ view.after exposed out.view session.refreshToken.login) :
    (out.revoke token).Spares exposed number past view := by
  have leads := unmark_leads spares.leads dropped
  have sent : ∀ other ∈ (out.revoke token).revokes,
      (other = token ∧ out.view.spares token = false) ∨
        other ∈ out.revokes := by
    intro other member
    simp only [Outcome.revoke, View.revokeDetached, List.mem_append,
      Option.mem_toList] at member
    rcases member with new | old
    · split at new
      · cases new
      · next kept =>
          cases new
          exact Or.inl ⟨rfl, by simpa using kept⟩
    · exact Or.inr old
  refine ⟨leads, ?_, ?_, ?_, ?_, ?_, ?_⟩
  · intro next goesOn
    exact Stage.hands_of_none (plain next goesOn)
  · intro next other goesOn has
    cases (plain next goesOn).symm.trans has
  · intro next other goesOn new
    cases (plain next goesOn).symm.trans (Stage.token_of_fresh new)
  · intro other member now
    by_contra notMine
    have was : exposed other.login := (View.after_other notMine).mp now
    rcases sent other member with ⟨rfl, unspared⟩ | old
    · obtain ⟨on, mark⟩ := marked notMine was
      have vault := spares.leads.vault notMine
      have client := spares.leads.client
      simp [View.spares, mark, on, View.owns, vault, client, notMine]
        at unspared
    · exact notMine (spares.revokes other old
        ((View.after_other notMine).mpr was))
  · intro other member
    rcases sent other member with ⟨rfl, _⟩ | old
    · exact brought
    · exact spares.known other old
  · intro other emitted
    rcases List.mem_cons.mp emitted with same | old
    · cases same
    · exact spares.direct other old

theorem Spares.revokeAll (spares : out.Spares exposed number past view)
    (context : view.Context exposed number)
    (plain : ∀ next, out.stage = some next → next.token = none)
    {taken : Option Session} (was : taken = view.store.session ∨ taken = none)
    (out_ : out.view.store.session = none)
    (persistence : out.view.store.persistence = view.store.persistence)
    (marks : out.view.store.slotTokens = view.store.slotTokens)
    (kept : view.store.closed = true → ∀ session,
      view.store.session = some session →
      exposed session.refreshToken.login →
      (view.store.slotTokens.get? session.refreshToken).isSome) :
    (out.revokeAll taken).Spares exposed number past view := by
  cases taken with
  | none => exact spares
  | some old =>
      have signedIn : view.store.session = some old := by
        rcases was with same | never
        · exact same.symm
        · cases never
      apply spares.revoke plain (Or.inl (Or.inl ⟨old, signedIn, rfl⟩))
      · intro _ now
        have has : (view.store.slotTokens.get? old.refreshToken).isSome := by
          cases shut : view.store.closed with
          | false => exact context.marked shut old signedIn now
          | true => exact kept shut old signedIn now
        obtain ⟨family, mark⟩ := Option.isSome_iff_exists.mp has
        have same := context.family old family signedIn now mark
        rw [persistence, marks, mark, same]
        exact ⟨context.on old signedIn now, rfl⟩
      · intro _ session signedIn'
        cases out_.symm.trans signedIn'

end Outcome

open Outcome

namespace View

variable {past : Option Stage} {faults : Faults} {gen : Nat} {token : Token}

/-! #### Sign-in -/

theorem Context.loginStart (context : view.Context exposed number)
    (fence : faults.Fence) :
    (view.loginStart gen faults).Spares exposed number past view := by
  unfold View.loginStart
  rcases takeOutForLogin_cases view faults gen with
    ⟨_, took⟩ | ⟨_, _, took⟩ | ⟨old, current, signedIn, took⟩
  · rw [took]
    exact .done context.refl
  · rw [took]
    exact .plain (context.rest (fun _ signedIn => signedIn) rfl id id) rfl
  · rw [took]
    have leads : view.Leads exposed number past ⟨view.client,
        { view.store.newEpoch with session := none, persisted := false },
        if view.Mine then (view.vault.clear faults).1 else view.vault⟩ :=
      context.out fence (fun mine => ⟨context.owner mine, mine⟩) And.right rfl
        rfl rfl
    refine Spares.revokeAll (.plain leads rfl) context ?_
      (Or.inl signedIn.symm) rfl rfl rfl ?_
    · intro next goesOn
      cases goesOn
      rfl
    · intro shut
      exact (Bool.false_ne_true (current.1.symm.trans shut)).elim

/-- A new login, met by nobody else, is held from now on. -/
theorem fits_new {user : User}
    (dated : token.number < number) (unmet : ¬ view.Knows token.login)
    (hidden : ¬ exposed token.login)
    (mine : past.bind Stage.fresh = some token) :
    Fits exposed number past view view.store.slotTokens faults
      ⟨user, token⟩ .fresh := by
  have sent : past.bind Stage.token = some token := by
    obtain ⟨stage, rfl, new⟩ := Option.bind_eq_some_iff.mp mine
    exact Stage.token_of_fresh new
  refine ⟨Nat.lt_succ_of_lt dated, ?_, fun _ _ mark => mark,
    Or.inr (Or.inr ⟨token, sent, rfl⟩),
    Or.inl ⟨Or.inr ⟨token, mine, rfl⟩, rfl, hidden⟩⟩
  cases mark : view.store.slotTokens.get? token with
  | none => rfl
  | some family =>
      exact (unmet (Or.inr (Or.inl ⟨token, family, mark, rfl⟩))).elim

theorem Context.revoke_new (context : view.Context exposed number)
    (unmet : ¬ view.Knows token.login) (hidden : ¬ exposed token.login)
    (sent : past.bind Stage.token = some token) :
    (view.done.revoke token).Spares exposed number past view := by
  apply (Spares.done context.refl).revoke (fun _ goesOn => by cases goesOn)
    (Or.inr (Or.inr ⟨token, sent, rfl⟩))
  · intro _ now
    exact (hidden now).elim
  · rintro _ session signedIn rfl
    exact (unmet (Or.inl ⟨session, signedIn, rfl⟩)).elim

theorem Context.loginProfile (context : view.Context exposed number)
    (fence : faults.Fence) (user : User) (dated : token.number < number)
    (hands : (Stage.loginProfile gen token).Hands exposed view)
    (mine : past = some (.loginProfile gen token)) :
    (view.loginProfile gen token user faults).Spares exposed number past
      view := by
  subst mine
  obtain ⟨hidden, unmet⟩ := hands.fresh token rfl
  unfold View.loginProfile
  rcases installForLogin_cases view faults gen ⟨user, token⟩ none with
    ⟨_, same⟩ | ⟨_, _, _, same⟩ | ⟨vault, marks, _, mirrors, installed⟩
  · rw [same]
    exact context.revoke_new unmet hidden rfl
  · rw [same]
    exact context.revoke_new unmet hidden rfl
  · rw [installed]
    have fits : Fits exposed number (some (.loginProfile gen token)) view
        view.store.slotTokens faults ⟨user, token⟩ .fresh :=
      fits_new dated unmet hidden rfl
    refine Spares.emit (.done ?_) (by simp)
    exact context.mirrors fence fits mirrors rfl rfl rfl

theorem Context.totpProfile (context : view.Context exposed number)
    (fence : faults.Fence) (user : User) (dated : token.number < number)
    (hands : (Stage.totpProfile gen token).Hands exposed view)
    (mine : past = some (.totpProfile gen token)) :
    (view.totpProfile gen token user faults).Spares exposed number past
      view := by
  subst mine
  obtain ⟨hidden, unmet⟩ := hands.fresh token rfl
  unfold View.totpProfile
  rcases installForChallenge_cases view faults gen ⟨user, token⟩ with
    ⟨_, same⟩ | ⟨vault, marks, _, mirrors, installed⟩
  · rw [same]
    exact context.revoke_new unmet hidden rfl
  · rw [installed]
    have fits : Fits exposed number (some (.totpProfile gen token)) view
        view.store.slotTokens faults ⟨user, token⟩ .fresh :=
      fits_new dated unmet hidden rfl
    refine Spares.emit (.done ?_) (by simp)
    exact context.mirrors fence fits mirrors rfl rfl rfl

/-! #### Restore -/

theorem Context.restoreStart (context : view.Context exposed number)
    (fence : faults.Fence) :
    (view.restoreStart gen faults).Spares exposed number past view := by
  unfold View.restoreStart
  split
  · exact .done context.refl
  next off =>
  split
  · exact .done context.refl
  next other =>
  split
  · exact .done (context.cleared fence (not_not.mp other))
  next unfenced =>
  split
  · next stored found =>
      have fenced : view.vault.fenced = false := by
        simp only [Vault.readFence, Bool.or_eq_true, not_or,
          Bool.not_eq_true] at unfenced
        exact unfenced.1
      have held : view.vault.slot = some stored := by
        simp only [Vault.load] at found
        split at found
        · cases found
        · exact Option.some.inj found
      have on : view.store.persistence = true := by
        simpa using off
      refine Spares.emit ?_ (by simp)
      refine Spares.goesOn context.refl ?_ ?_ rfl
      · constructor
        · intro _ sent
          cases sent
        · intro _ _ _ same
          cases same
          exact ⟨on, fun _ => rfl⟩
        · intro _ _ _ same _ _
          cases same
          exact ⟨held, fenced⟩
        · intro _ new
          cases new
      · intro token has
        cases has
        exact Or.inl (Or.inr (Or.inr ⟨stored, held, rfl⟩))
  · exact .done context.refl

theorem Context.restorePair (context : view.Context exposed number)
    (fence : faults.Fence) {stored : Session} {family : Nat}
    (hands : (Stage.restoreSent gen stored family).Hands exposed view)
    (mine : past = some (.restoreSent gen stored family)) :
    (view.restorePair gen stored family ⟨number, stored.refreshToken.login⟩
      faults).Spares exposed number past view := by
  subst mine
  obtain ⟨on, current⟩ := hands.restores gen stored family rfl
  have brought : brings number (some (.restoreSent gen stored family))
      stored.refreshToken.login := Or.inr ⟨stored.refreshToken, rfl, rfl⟩
  have unmarked : view.store.slotTokens.get?
      ⟨number, stored.refreshToken.login⟩ = none := by
    cases mark : view.store.slotTokens.get?
        ⟨number, stored.refreshToken.login⟩ with
    | none => rfl
    | some other =>
        exact (Nat.lt_irrefl _ (context.marks _ other mark)).elim
  have other : ∀ session, view.store.session = some session →
      session.refreshToken ≠ ⟨number, stored.refreshToken.login⟩ := by
    intro session signedIn same
    have old := context.session session signedIn
    rw [same] at old
    exact Nat.lt_irrefl _ old
  unfold View.restorePair
  rcases installForLogin_cases view faults gen
      ⟨stored.user, ⟨number, stored.refreshToken.login⟩⟩ (some family) with
    ⟨_, same⟩ | ⟨_, _, _, same⟩ | ⟨vault, marks, now, mirrors, installed⟩
  · rw [same]
    have leads : view.Leads exposed number
        (some (.restoreSent gen stored family))
        (view.markFamily ⟨number, stored.refreshToken.login⟩ family) := by
      refine context.store (fun _ signedIn => signedIn) ?_ ?_ ?_ id id
      · intro _ session signedIn mark
        rwa [Table.get?_put_ne _ _ (other session signedIn)]
      · intro session _ signedIn mark
        rwa [Table.get?_put_ne _ _ (other session signedIn)] at mark
      · intro token _ mark
        simp only [Table.get?_put] at mark
        split at mark
        · next same =>
            rw [same]
            exact ⟨Nat.lt_succ_self _, Or.inr brought⟩
        · exact context.old_marks mark
    refine (Spares.done leads).revoke (fun _ goesOn => by cases goesOn) ?_ ?_ ?_
    · exact Or.inr brought
    · intro _ now
      refine ⟨on, ?_⟩
      simp [View.markFamily, View.done, current now]
    · intro _ session signedIn same
      exact (other session signedIn same).elim
  · rw [same]
    exact .done context.refl
  · rw [installed]
    have fits : Fits exposed number (some (.restoreSent gen stored family))
        view view.store.slotTokens faults
        ⟨stored.user, ⟨number, stored.refreshToken.login⟩⟩
        (.continues family) := by
      refine ⟨Nat.lt_succ_self _, unmarked, fun _ _ mark => mark,
        Or.inr brought, Or.inr ⟨fun _ => on, fun mine _ => ?_⟩⟩
      obtain ⟨held, unfenced⟩ := hands.reads gen stored family rfl mine.2 now
      have was : exposed stored.refreshToken.login := by
        apply context.stored
        simp [Vault.restorable, held, unfenced]
      exact ⟨by rw [current was], was⟩
    refine Spares.emit (.plain ?_ rfl) (by simp)
    exact context.mirrors fence fits mirrors rfl rfl rfl

/-! #### Sign-out -/

theorem Context.signOut (context : view.Context exposed number)
    (fence : faults.Fence) :
    view.Leads exposed number past (view.signOut false faults).1 := by
  have same : (view.signOut false faults).1 = ⟨view.client,
      (view.signOut false faults).1.store,
      if view.Mine then (view.vault.clear faults).1 else view.vault⟩ := by
    have vault := signOut_vault view faults false
    simp only [true_and] at vault
    rw [← vault, ← @signOut_client view faults false]
  rw [same]
  exact context.out fence (fun mine => ⟨context.owner mine, mine⟩) And.right
    (signOut_session false) (signOut_slotTokens false) (signOut_persistence false)

/-- The session is handed over as its client signs out. -/
theorem Context.signedOut (context : view.Context exposed number)
    (fence : faults.Fence)
    (kept : view.store.closed = true → ∀ session,
      view.store.session = some session →
      exposed session.refreshToken.login →
      (view.store.slotTokens.get? session.refreshToken).isSome) :
    ((view.signOut false faults).1.done.revokeAll
      (view.signOut false faults).2).Spares exposed number past view :=
  (Spares.done (context.signOut fence)).revokeAll context (fun _ goesOn => by cases goesOn)
    (Or.inl (signOut_taken false)) (signOut_session false)
    (signOut_persistence false) (signOut_slotTokens false) kept

theorem Context.logout (context : view.Context exposed number)
    (fence : faults.Fence) (open_ : view.store.closed = false) :
    (view.logout faults).Spares exposed number past view := by
  unfold View.logout
  refine Spares.emit ?_ (by simp)
  apply context.signedOut fence
  intro shut
  exact (Bool.false_ne_true (open_.symm.trans shut)).elim

theorem Context.close (context : view.Context exposed number) :
    (view.close faults).Spares exposed number past view := by
  have same : (view.signOut true faults).1 = { view with
      store := (view.signOut true faults).1.store } := by
    have vault := signOut_vault view faults true
    simp only [Bool.true_eq_false, false_and, if_false] at vault
    rw [← vault, ← @signOut_client view faults true]
  have leads : view.Leads exposed number past
      (view.signOut true faults).1 := by
    rw [same]
    refine context.rest ?_ (signOut_slotTokens true) ?_ ?_
    · intro session signedIn
      cases (signOut_session true).symm.trans signedIn
    · intro open_
      simp at open_
    · intro on
      rwa [signOut_persistence]
  unfold View.close
  dsimp only
  split
  · exact .done leads
  · next off =>
      refine (Spares.done leads).revokeAll context (fun _ goesOn => by cases goesOn)
        (Or.inl (@signOut_taken view faults true))
        (@signOut_session view faults true)
        (@signOut_persistence view faults true)
        (@signOut_slotTokens view faults true) ?_
      intro _ session signedIn now
      exact (off (context.on session signedIn now)).elim

/-! #### Refresh and account calls -/

/-- A closed client that goes on with a stored login still has its mark. -/
def Kept (exposed : LoginId → Prop) (view : View) : Prop :=
  view.store.closed = true → ∀ session,
    view.store.session = some session →
    exposed session.refreshToken.login →
    (view.store.slotTokens.get? session.refreshToken).isSome

theorem Context.refreshOnce (context : view.Context exposed number)
    (fence : faults.Fence) {sent : Token → Stage} (limited : Bool)
    (kept : Kept exposed view)
    (out : ∀ token, (sent token).refreshes = some token) :
    (view.refreshOnce sent limited faults).Spares exposed number past
      view := by
  have token : ∀ token, (sent token).token = some token :=
    fun token => Stage.token_of_refreshes (out token)
  unfold View.refreshOnce
  split
  · exact .done context.refl
  next session signedIn =>
  split
  · exact context.signedOut fence kept
  split
  · exact .done context.refl
  · refine Spares.emit (.goesOn context.refl ?_ ?_ ?_) (by simp)
    · refine Stage.hands_of_refreshes (out _) fun after => ?_
      have now := context.unchanged.mp after
      refine ⟨context.on session signedIn now, ?_⟩
      have has : (view.store.slotTokens.get? session.refreshToken).isSome := by
        cases shut : view.store.closed with
        | false => exact context.marked shut session signedIn now
        | true => exact kept shut session signedIn now
      obtain ⟨family, mark⟩ := Option.isSome_iff_exists.mp has
      rw [mark, context.family session family signedIn now mark]
    · intro other has
      cases (token _).symm.trans has
      exact Or.inl (Or.inl ⟨session, signedIn, rfl⟩)
    · exact Stage.fresh_of_refreshes (out _)

theorem Leads.accountSend (leads : view.Leads exposed number past later)
    (epoch : Nat) (retried : Bool) :
    (later.accountSend epoch retried).Spares exposed number past view := by
  unfold View.accountSend
  split
  · exact .done leads
  · next token found =>
      have hands : (Stage.accountSent epoch token retried).Hands
          (view.after exposed later) later := by
        constructor
        · intro _ sent
          cases sent
        · intro _ _ _ same
          cases same
        · intro _ _ _ same
          cases same
        · intro _ new
          cases new
      refine Spares.goesOn leads hands ?_ rfl
      intro _ has
      cases has
      apply leads.knows
      unfold credentials at found
      split at found
      · obtain ⟨session, signedIn, rfl⟩ := Option.map_eq_some_iff.mp found
        exact Or.inl ⟨session, signedIn, rfl⟩
      · cases found

/-- A pair that nobody holds: its login is known to be stored only if the mark
went with it. -/
theorem Context.revoke_pair (context : view.Context exposed number)
    {rotatedFrom fresh : Token} {rotation : Bool}
    (answers : Answers exposed number past view faults rotatedFrom fresh
      rotation)
    (discarded : view.commitRefresh rotatedFrom fresh rotation faults =
      (later, .discarded)) (fence : faults.Fence) :
    (later.done.revoke fresh).Spares exposed number past view := by
  have leads : view.Leads exposed number past
      (view.commitRefresh rotatedFrom fresh rotation faults).1 :=
    context.commitRefresh fence answers
  rw [discarded] at leads
  have same : later =
      view.withMarks (view.carriedMarks rotatedFrom fresh rotation) := by
    rcases commitRefresh_cases view faults rotatedFrom fresh rotation with
      ⟨_, same⟩ | ⟨_, _, _, _, _, kept⟩ | ⟨_, _, _, _, _, _, _, committed⟩
    · exact congrArg Prod.fst (discarded.symm.trans same)
    · cases discarded.symm.trans kept
    · cases discarded.symm.trans committed
  subst same
  refine (Spares.done leads).revoke (fun _ goesOn => by cases goesOn) (Or.inr answers.brought) ?_ ?_
  · intro _ now
    cases rotation with
    | false =>
        have bound := context.bound _ now
        rw [answers.exchanged rfl] at bound
        exact (Nat.lt_irrefl _ bound).elim
    | true =>
        rw [answers.rotated rfl] at now
        obtain ⟨on, mark⟩ := answers.covered rfl now
        exact ⟨on, carried_fresh mark⟩
  · intro _ session signedIn same
    exact (answers.other context.toDated signedIn same).elim

theorem Context.commitPair (context : view.Context exposed number)
    (fence : faults.Fence) {rotatedFrom fresh : Token}
    (answers : Answers exposed number past view faults rotatedFrom fresh true)
    {next : View → Outcome}
    (goesOn : ∀ {held}, view.Leads exposed number past held →
      (next held).Spares exposed number past view) :
    (view.commitPair rotatedFrom fresh true faults next).Spares exposed number
      past view := by
  have leads : view.Leads exposed number past
      (view.commitRefresh rotatedFrom fresh true faults).1 :=
    context.commitRefresh fence answers
  unfold View.commitPair
  split
  · next held committed =>
      rw [committed] at leads
      exact goesOn leads
  · next held stored =>
      rw [stored] at leads
      exact .done leads
  · next held discarded => exact context.revoke_pair answers discarded fence

theorem Context.accountPair (context : view.Context exposed number)
    (fence : faults.Fence) {used fresh : Token}
    (answers : Answers exposed number past view faults used fresh false) :
    (view.accountPair used fresh faults).Spares exposed number past view := by
  have leads : view.Leads exposed number past
      (view.commitRefresh used fresh false faults).1 :=
    context.commitRefresh fence answers
  unfold View.accountPair
  split
  · next held discarded => exact context.revoke_pair answers discarded fence
  · next held _ _ kept =>
      rw [kept] at leads
      exact .emit (.done leads) (by simp)

theorem Context.clearIfHolds (context : view.Context exposed number)
    (fence : faults.Fence) (rejected : Token) :
    view.Leads exposed number past (view.clearIfHolds rejected faults) := by
  rcases clearIfHolds_cases view faults rejected with
    ⟨_, same⟩ | ⟨session, _, _, cleared⟩
  · rw [same]
    exact context.refl
  · rw [cleared]
    exact context.out fence (fun mine => ⟨context.owner mine, mine⟩) And.right
      rfl rfl rfl

theorem Context.clearPersistedIfHolds (context : view.Context exposed number)
    (fence : faults.Fence) (refused : Token) :
    view.Leads exposed number past
      (view.clearPersistedIfHolds gen refused faults) := by
  rcases clearPersistedIfHolds_cases view faults gen refused with
    same | ⟨_, _, mine, _, _, cleared⟩
  · rw [same]
    exact context.refl
  · rw [cleared]
    exact context.cleared fence mine.2

end View

end

end Brook.SignedIn
