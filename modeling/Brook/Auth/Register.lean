import Brook.Auth.Transactions
import Brook.Transition.Run

namespace Brook.Auth

open Transition

/-! `POST /auth/register`, statement by statement.  Nothing is locked; the
handle is unique. -/

abbrev Handle := Nat

inductive GlobalRole
  | admin
  | member
deriving DecidableEq

/-- The request; `token` is the account that a bearer token names, if one was
sent. -/
structure RegisterIn where
  handle : Handle
  password : Password
  token : Option Handle
  adminPassword : Option Password

/-- A row of `users`, with the request that made it and the admin, if any, whose
password the request confirmed. -/
structure Account where
  handle : Handle
  password : Password
  role : GlobalRole
  request : RegisterIn
  requestedBy : Option Handle

inductive RegisterStage
  | begun
  | resolved (caller : Option Account)
  | counted (isFirst : Bool) (confirmed : Option Handle)
  | looked (isFirst : Bool) (confirmed : Option Handle)

structure Registering where
  request : RegisterIn
  stage : RegisterStage

/-- The committed accounts, the youngest first, and the requests under way. -/
structure Registry where
  accounts : List Account
  requests : Table TxId Registering

namespace Registry

def start : Registry := ⟨[], ∅⟩

def find (registry : Registry) (handle : Handle) : Option Account :=
  registry.accounts.find? fun account => account.handle = handle

def taken (registry : Registry) (handle : Handle) : Bool :=
  (registry.find handle).isSome

def setStage (registry : Registry) (tx : TxId) (request : RegisterIn)
    (stage : RegisterStage) : Registry :=
  { registry with requests := registry.requests.put tx ⟨request, stage⟩ }

def finish (registry : Registry) (tx : TxId) : Registry :=
  { registry with requests := registry.requests.filter fun other _ => other ≠ tx }

end Registry

inductive RegisterAction
  | begin (tx : TxId) (request : RegisterIn)
  | resolve (tx : TxId) (accepted : Bool)
  | count (tx : TxId)
  | lookUp (tx : TxId)
  | commit (tx : TxId)
  | rollback (tx : TxId)

/-- `_optional_user`: an expired or revoked token is not `accepted`. -/
def resolveStep (registry : Registry) (tx : TxId) (request : RegisterIn)
    (accepted : Bool) : Registry :=
  let caller := if accepted then request.token.bind registry.find else none
  registry.setStage tx request (.resolved caller)

/-- `SELECT count(*)`, and the checks of a request that is not the first. -/
def countStep (registry : Registry) (tx : TxId) (request : RegisterIn)
    (caller : Option Account) : Registry :=
  if registry.accounts.length = 0 then
    registry.setStage tx request (.counted true none)
  else
    match caller with
    | none => registry.finish tx
    | some caller =>
        if caller.role ≠ .admin then registry.finish tx
        else
          match request.adminPassword with
          | none => registry.finish tx
          | some adminPassword =>
              if caller.password ≠ adminPassword then registry.finish tx
              else
                registry.setStage tx request
                  (.counted false (some caller.handle))

def lookUpStep (registry : Registry) (tx : TxId) (request : RegisterIn)
    (isFirst : Bool) (confirmed : Option Handle) : Registry :=
  if registry.taken request.handle then registry.finish tx
  else registry.setStage tx request (.looked isFirst confirmed)

/-- `INSERT` and `COMMIT`; the unique handle decides between two of them. -/
def insertStep (registry : Registry) (tx : TxId) (request : RegisterIn)
    (isFirst : Bool) (confirmed : Option Handle) : Registry :=
  if registry.taken request.handle then registry.finish tx
  else
    let account : Account :=
      { handle := request.handle
        password := request.password
        role := if isFirst then .admin else .member
        request
        requestedBy := confirmed }
    { registry with accounts := account :: registry.accounts }.finish tx

def registerStep (registry : Registry) : RegisterAction → Option Registry
  | .begin tx request =>
      if registry.requests.contains tx then none
      else some (registry.setStage tx request .begun)
  | .resolve tx accepted =>
      match registry.requests.get? tx with
      | some ⟨request, .begun⟩ =>
          some (resolveStep registry tx request accepted)
      | _ => none
  | .count tx =>
      match registry.requests.get? tx with
      | some ⟨request, .resolved caller⟩ =>
          some (countStep registry tx request caller)
      | _ => none
  | .lookUp tx =>
      match registry.requests.get? tx with
      | some ⟨request, .counted isFirst confirmed⟩ =>
          some (lookUpStep registry tx request isFirst confirmed)
      | _ => none
  | .commit tx =>
      match registry.requests.get? tx with
      | some ⟨request, .looked isFirst confirmed⟩ =>
          some (insertStep registry tx request isFirst confirmed)
      | _ => none
  | .rollback tx => some (registry.finish tx)

/-! ### One admin -/

/-- An admin asked for it, authenticated, and re-entered the password. -/
def Authorized (accounts : List Account) (request : RegisterIn)
    (requestedBy : Option Handle) : Prop :=
  ∃ admin ∈ accounts, admin.role = .admin ∧
    requestedBy = some admin.handle ∧
    request.adminPassword = some admin.password

/-- At most one admin was made, and every account but the oldest on an admin's
request. -/
structure OneAdmin (registry : Registry) : Prop where
  admins : (registry.accounts.filter fun account =>
    account.role = .admin).length ≤ 1
  authorized : ∀ account ∈ registry.accounts.dropLast,
    Authorized registry.accounts account.request account.requestedBy

/-- A request that counted no user commits only while there is still none, or
loses on its handle. -/
def FirstAlone (registry : Registry) : RegisterAction → Prop
  | .commit tx =>
      ∀ request confirmed,
        registry.requests.get? tx = some ⟨request, .looked true confirmed⟩ →
        registry.accounts = [] ∨ registry.taken request.handle = true
  | _ => True

/-- What the stages of a request have established. -/
def RegisterStage.Holds (accounts : List Account) (request : RegisterIn) :
    RegisterStage → Prop
  | .begun => True
  | .resolved caller => ∀ account, caller = some account → account ∈ accounts
  | .counted isFirst confirmed | .looked isFirst confirmed =>
      isFirst = false → Authorized accounts request confirmed

structure Bootstrapped (registry : Registry) : Prop where
  oneAdmin : OneAdmin registry
  someAdmin : registry.accounts ≠ [] →
    ∃ admin ∈ registry.accounts, admin.role = .admin
  stages : ∀ tx request stage,
    registry.requests.get? tx = some ⟨request, stage⟩ →
    stage.Holds registry.accounts request

section

variable {registry next : Registry} {tx : TxId} {request : RegisterIn}

theorem bootstrapped_start : Bootstrapped Registry.start where
  oneAdmin := by constructor <;> simp [Registry.start]
  someAdmin := by simp [Registry.start]
  stages := by simp [Registry.start]

theorem mem_of_find {handle : Handle} {account : Account}
    (found : registry.find handle = some account) :
    account ∈ registry.accounts :=
  List.mem_of_find?_eq_some found

theorem Authorized.cons {accounts : List Account} {confirmed : Option Handle}
    (authorized : Authorized accounts request confirmed) (account : Account) :
    Authorized (account :: accounts) request confirmed := by
  obtain ⟨admin, mem, facts⟩ := authorized
  exact ⟨admin, List.mem_cons_of_mem _ mem, facts⟩

theorem RegisterStage.Holds.cons {accounts : List Account}
    {stage : RegisterStage} (holds : stage.Holds accounts request)
    (account : Account) : stage.Holds (account :: accounts) request := by
  cases stage with
  | begun => trivial
  | resolved caller =>
      exact fun found same => List.mem_cons_of_mem _ (holds found same)
  | counted isFirst confirmed => exact fun later => (holds later).cons account
  | looked isFirst confirmed => exact fun later => (holds later).cons account

theorem Bootstrapped.setStage (sound : Bootstrapped registry)
    {stage : RegisterStage} (holds : stage.Holds registry.accounts request) :
    Bootstrapped (registry.setStage tx request stage) where
  oneAdmin := ⟨sound.oneAdmin.admins, sound.oneAdmin.authorized⟩
  someAdmin := sound.someAdmin
  stages := by
    intro other otherRequest otherStage stored
    by_cases same : other = tx
    · subst same
      simp only [Registry.setStage, Table.get?_put_self, Option.some.injEq,
        Registering.mk.injEq] at stored
      obtain ⟨rfl, rfl⟩ := stored
      exact holds
    · rw [Registry.setStage, Table.get?_put_ne _ _ same] at stored
      exact sound.stages other otherRequest otherStage stored

theorem Bootstrapped.finish (sound : Bootstrapped registry) (tx : TxId) :
    Bootstrapped (registry.finish tx) where
  oneAdmin := ⟨sound.oneAdmin.admins, sound.oneAdmin.authorized⟩
  someAdmin := sound.someAdmin
  stages := by
    intro other otherRequest otherStage stored
    simp only [Registry.finish, Table.get?_filter,
      Option.filter_eq_some_iff] at stored
    exact sound.stages other otherRequest otherStage stored.1

theorem countStep_bootstrapped (sound : Bootstrapped registry)
    {caller : Option Account}
    (known : ∀ account, caller = some account → account ∈ registry.accounts) :
    Bootstrapped (countStep registry tx request caller) := by
  unfold countStep
  split
  · apply sound.setStage
    simp [RegisterStage.Holds]
  · split
    · exact sound.finish tx
    · rename_i caller
      split
      · exact sound.finish tx
      · rename_i isAdmin
        split
        · exact sound.finish tx
        · rename_i adminPassword given
          split
          · exact sound.finish tx
          · rename_i right
            apply sound.setStage
            intro _
            refine ⟨caller, known caller rfl, by simpa using isAdmin, rfl, ?_⟩
            rw [given]
            simpa using (not_not.mp right).symm

/-- The commit of a new account, in a run that keeps the condition. -/
theorem insertStep_bootstrapped (sound : Bootstrapped registry)
    {isFirst : Bool} {confirmed : Option Handle}
    (checked : isFirst = false → Authorized registry.accounts request confirmed)
    (alone : isFirst = true →
      registry.accounts = [] ∨ registry.taken request.handle = true) :
    Bootstrapped (insertStep registry tx request isFirst confirmed) := by
  unfold insertStep
  split
  · exact sound.finish tx
  · rename_i free
    apply Bootstrapped.finish
    cases isFirst with
    | true =>
        have empty : registry.accounts = [] :=
          (alone rfl).resolve_right (by simpa using free)
        constructor
        · constructor <;> simp [empty]
        · exact fun _ => ⟨_, List.mem_cons_self, rfl⟩
        · intro other otherRequest stage stored
          exact (sound.stages other otherRequest stage stored).cons _
    | false =>
        have authorized := checked rfl
        constructor
        · constructor
          · simpa using sound.oneAdmin.admins
          · intro account mem
            rcases eq_or_ne registry.accounts [] with empty | some
            · simp [empty] at mem
            · rw [List.dropLast_cons_of_ne_nil some, List.mem_cons] at mem
              rcases mem with rfl | old
              · exact authorized.cons _
              · exact (sound.oneAdmin.authorized account old).cons _
        · intro _
          obtain ⟨admin, mem, isAdmin, _⟩ := authorized
          exact ⟨admin, List.mem_cons_of_mem _ mem, isAdmin⟩
        · intro other otherRequest stage stored
          exact (sound.stages other otherRequest stage stored).cons _

theorem registerStep_bootstrapped {action : RegisterAction}
    (sound : Bootstrapped registry) (alone : FirstAlone registry action)
    (taken : registerStep registry action = some next) : Bootstrapped next := by
  cases action with
  | begin tx request =>
      simp only [registerStep] at taken
      split at taken
      · cases taken
      · cases taken
        exact sound.setStage trivial
  | resolve tx accepted =>
      simp only [registerStep] at taken
      split at taken
      · cases taken
        apply sound.setStage
        intro account resolved
        split at resolved
        · obtain ⟨handle, -, found⟩ := Option.bind_eq_some_iff.mp resolved
          exact mem_of_find found
        · cases resolved
      · cases taken
  | count tx =>
      simp only [registerStep] at taken
      split at taken
      · rename_i stored
        cases taken
        exact countStep_bootstrapped sound (sound.stages _ _ _ stored)
      · cases taken
  | lookUp tx =>
      simp only [registerStep] at taken
      split at taken
      · rename_i stored
        cases taken
        have checked := sound.stages _ _ _ stored
        unfold lookUpStep
        split
        · exact sound.finish _
        · apply sound.setStage
          exact checked
      · cases taken
  | commit tx =>
      simp only [registerStep] at taken
      split at taken
      · rename_i request isFirst confirmed stored
        cases taken
        apply insertStep_bootstrapped sound (sound.stages _ _ _ stored)
        rintro rfl
        exact alone request confirmed stored
      · cases taken
  | rollback tx =>
      cases taken
      exact sound.finish _

/-- A second bootstrap shows at once: it makes a second admin. -/
theorem firstAlone_of_oneAdmin {action : RegisterAction}
    (sound : Bootstrapped registry)
    (taken : registerStep registry action = some next) (good : OneAdmin next) :
    FirstAlone registry action := by
  cases action with
  | commit tx =>
      intro request confirmed stored
      by_contra late
      simp only [not_or, Bool.not_eq_true] at late
      obtain ⟨admin, mem, isAdmin⟩ := sound.someAdmin late.1
      simp only [registerStep, stored, insertStep, late.2, Bool.false_eq_true,
        if_false, if_true, Option.some.injEq] at taken
      subst taken
      have two := good.admins
      simp only [Registry.finish, List.filter_cons, decide_true, if_true,
        List.length_cons] at two
      have one : 0 < (registry.accounts.filter fun account =>
          account.role = .admin).length := by
        apply List.length_pos_of_mem
        exact List.mem_filter.mpr ⟨mem, by simpa using isAdmin⟩
      omega
  | _ => trivial

end

/-- Two first registrations overlap: both count no user before either commits. -/
def twoFirst : List RegisterAction :=
  let request (handle : Handle) : RegisterIn := ⟨handle, handle, none, none⟩
  [.begin 1 (request 1), .begin 2 (request 2), .resolve 1 false,
    .resolve 2 false, .count 1, .count 2, .lookUp 1, .lookUp 2, .commit 1,
    .commit 2]

end Brook.Auth
