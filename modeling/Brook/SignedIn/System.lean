import Brook.SignedIn.Sections

namespace Brook.SignedIn

/-! All clients of one origin on one device, over the processes that run them.
The server answers what it likes; each token it issues is new. -/

abbrev TaskId := Nat

structure Task where
  client : ClientId
  stage : Stage
deriving DecidableEq

/-- An event of a client, with what all share and the session that the owner
holds at that moment. -/
structure Entry where
  client : ClientId
  event : Event
  vault : Vault
  ownerSession : Option Session

structure System where
  vault : Vault
  clients : Table ClientId Store
  tasks : Table TaskId Task
  /-- The spawned `/auth/logout` requests that have not left yet. -/
  revokes : List (ClientId × Token)
  /-- Numbers the tokens that the server issues. -/
  clock : Nat
  log : List Entry

/-- What a caller begins on an open client. -/
inductive Op
  /-- Set once, before signing in or restoring. -/
  | enable
  | login
  | totp (gen : Nat)
  | cancel (gen : Nat)
  | restore
  | refresh
  | profile
  | account
  | logout (faults : Faults)
  | drop
deriving DecidableEq

inductive Action
  | create (client : ClientId)
  | begin (client : ClientId) (op : Op) (task : TaskId)
  | resume (task : TaskId) (input : Input)
  | leave (client : ClientId) (token : Token)
  /-- The process ends and another one starts. -/
  | restart
deriving DecidableEq

def Stage.holdsRefresh : Stage → Bool
  | .loginSent _ | .loginProfile _ _ | .totpSent _ | .totpProfile _ _
  | .restoreSent _ _ _ | .refreshSent _ | .accountSent _ _ _
  | .accountRefresh _ _ => true
  | _ => false

/-- A fresh sign-in presents no stored token, so it takes no slot lock. -/
def Stage.holdsSlot : Stage → Bool
  | .restoreSent _ _ _ | .refreshSent _ | .accountSent _ _ _
  | .accountRefresh _ _ => true
  | _ => false

/-- The section takes the refresh lock. -/
def Stage.takesRefresh : Stage → Input → Bool
  | .loginQueued _, .proceed _ | .totpQueued _, .proceed _
  | .restoreQueued _, .proceed _ | .refreshQueued _, .proceed _
  | .refreshQueued _, .limited | .profileOut _, .me _ _
  | .accountQueued _, .proceed _ => true
  | _, _ => false

/-- The section takes a flight: the refresh lock, then the slot's. -/
def Stage.takesSlot : Stage → Input → Bool
  | .restoreQueued _, .proceed _ | .refreshQueued _, .proceed _
  | .refreshQueued _, .limited | .profileOut _, .me _ _
  | .accountQueued _, .proceed _ => true
  | _, _ => false

def begin (view : View) : Op → Option Outcome
  | .enable =>
      if view.store.persistence ∨ view.store.session.isSome then none
      else some view.setPersistence.done
  | .login => some ((view.publish .authenticating).goesOn .announced)
  | .totp gen =>
      -- A challenge comes from an attempt of this client.
      if view.store.loginGen < gen then none
      else some (view.goesOn (.totpQueued gen))
  | .cancel gen => some (view.endChallenge gen).done
  | .restore =>
      some ((view.reserveLogin.goesOn
        (.restoreQueued view.reserveLogin.store.loginGen)).emit
        (.reserved view.reserveLogin.store.loginGen))
  | .refresh => some (view.goesOn (.refreshQueued view.store.rev))
  | .profile => some (view.goesOn (.profileOut view.store.rev.epoch))
  | .account => some (view.goesOn (.accountQueued view.store.rev.epoch))
  | .logout faults => some (view.logout faults)
  | .drop =>
      some ({ view with store := { view.store with closed := true } }.goesOn
        .closing)

namespace System

/-- A device that Brook has never run on. -/
def start : System where
  vault := ⟨none, false, none, 0⟩
  clients := ∅
  tasks := ∅
  revokes := []
  clock := 0
  log := []

def view (system : System) (client : ClientId) (store : Store) : View :=
  ⟨client, store, system.vault⟩

/-- What the live session of the slot's owner is. -/
def ownerSession (system : System) : Option Session :=
  (system.vault.owner.bind system.clients.get?).bind (·.session)

def entry (system : System) (client : ClientId) (event : Event) : Entry :=
  ⟨client, event, system.vault, system.ownerSession⟩

def refreshFree (system : System) (client : ClientId) : Bool :=
  system.tasks.values.all fun task =>
    task.client ≠ client || !task.stage.holdsRefresh

/-- Whether the client has persistence on, and so locks the slot's lock. -/
def locksSlot (system : System) (client : ClientId) : Bool :=
  ((system.clients.get? client).map (·.persistence)).getD false

def slotFree (system : System) : Bool :=
  system.tasks.values.all fun task =>
    !system.locksSlot task.client || !task.stage.holdsSlot

/-- The locks that the section takes are free. -/
def Ready (system : System) (task : Task) (input : Input) : Prop :=
  (task.stage.takesRefresh input → system.refreshFree task.client) ∧
  (task.stage.takesSlot input → system.locksSlot task.client →
    system.slotFree)

instance (system : System) (task : Task) (input : Input) :
    Decidable (system.Ready task input) :=
  inferInstanceAs (Decidable (_ ∧ _))

def land (system : System) (client : ClientId) (id : TaskId)
    (out : Outcome) : System where
  vault := out.view.vault
  clients := system.clients.put client out.view.store
  tasks :=
    match out.stage with
    | some stage => system.tasks.put id ⟨client, stage⟩
    | none => system.tasks.filter fun other _ => other ≠ id
  revokes := out.revokes.map (client, ·) ++ system.revokes
  clock := system.clock + 1
  log := out.events.map (system.entry client) ++ system.log

end System

def step (system : System) : Action → Option System
  | .create client =>
      if system.clients.contains client then none
      else some { system with
        clients := system.clients.put client Store.new }
  | .begin client op id =>
      match system.clients.get? client with
      | none => none
      | some store =>
          -- A background loop may begin its refresh as the client is dropped.
          if (store.closed ∧ op ≠ .refresh) ∨ system.tasks.contains id ∨
              (op = .enable ∧
                system.tasks.values.any (·.client = client)) then none
          else (begin (system.view client store) op).map
            (system.land client id)
  | .resume id input =>
      match system.tasks.get? id with
      | none => none
      | some task =>
          match system.clients.get? task.client with
          | none => none
          | some store =>
              if system.Ready task input then
                (resume system.clock (system.view task.client store)
                  task.stage input).map (system.land task.client id)
              else none
  | .leave client token =>
      if (client, token) ∈ system.revokes then
        some { system with
          revokes := system.revokes.erase (client, token)
          log := system.entry client (.sentLogout token) :: system.log }
      else none
  | .restart =>
      some { system with
        vault := { system.vault with owner := none, family := 0 }
        clients := ∅
        tasks := ∅
        revokes := [] }

section

variable {system next : System}

theorem step_begin {client : ClientId} {op : Op} {id : TaskId}
    (taken : step system (.begin client op id) = some next) :
    ∃ store out, system.clients.get? client = some store ∧
      (store.closed = true → op = .refresh) ∧
      system.tasks.get? id = none ∧
      (op = .enable → ∀ other task, system.tasks.get? other = some task →
        task.client ≠ client) ∧
      begin (system.view client store) op = some out ∧
      next = system.land client id out := by
  simp only [step] at taken
  split at taken
  · cases taken
  · next store found =>
      split at taken
      · cases taken
      · next free =>
          simp only [not_or, not_and, not_not, Bool.not_eq_true] at free
          obtain ⟨open_, fresh, alone⟩ := free
          obtain ⟨out, begun, rfl⟩ := Option.map_eq_some_iff.mp taken
          refine ⟨store, out, found, open_, ?_, ?_, begun, rfl⟩
          · simpa [Table.contains] using fresh
          · intro enabling other task running same
            have nobody := List.any_eq_false.mp (alone enabling) task
              (Table.mem_values.mpr ⟨other, running⟩)
            exact nobody (by simpa using same)

theorem step_resume {id : TaskId} {input : Input}
    (taken : step system (.resume id input) = some next) :
    ∃ task store out, system.tasks.get? id = some task ∧
      system.clients.get? task.client = some store ∧
      system.Ready task input ∧
      resume system.clock (system.view task.client store) task.stage input =
        some out ∧
      next = system.land task.client id out := by
  simp only [step] at taken
  split at taken
  · cases taken
  · next task running =>
      split at taken
      · cases taken
      · next store found =>
          split at taken
          · next ready =>
              obtain ⟨out, resumed, rfl⟩ := Option.map_eq_some_iff.mp taken
              exact ⟨task, store, out, running, found, ready, resumed, rfl⟩
          · cases taken

namespace System

theorem land_client {client other : ClientId} {id : TaskId} {out : Outcome}
    {store : Store}
    (found : (system.land client id out).clients.get? other = some store) :
    (other = client ∧ store = out.view.store) ∨
      (other ≠ client ∧ system.clients.get? other = some store) := by
  simp only [land, Table.get?_put] at found
  split at found
  · next same => exact Or.inl ⟨same, (Option.some.inj found).symm⟩
  · next different => exact Or.inr ⟨different, found⟩

theorem land_task {client : ClientId} {id other : TaskId} {out : Outcome}
    {task : Task}
    (running : (system.land client id out).tasks.get? other = some task) :
    (∃ stage, out.stage = some stage ∧ other = id ∧ task = ⟨client, stage⟩) ∨
      (other ≠ id ∧ system.tasks.get? other = some task) := by
  simp only [land] at running
  cases goesOn : out.stage with
  | none =>
      simp only [goesOn, Table.get?_filter, Option.filter_eq_some_iff,
        decide_eq_true_eq] at running
      exact Or.inr ⟨running.2, running.1⟩
  | some stage =>
      simp only [goesOn, Table.get?_put] at running
      split at running
      · next same =>
          exact Or.inl ⟨stage, rfl, same, (Option.some.inj running).symm⟩
      · next different => exact Or.inr ⟨different, running⟩

end System

end

end Brook.SignedIn
