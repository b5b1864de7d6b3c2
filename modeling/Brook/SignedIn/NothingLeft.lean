import Brook.SignedIn.Disposed

namespace Brook.SignedIn

open Transition

/-! Every pair that a client received is accounted for. -/

/-- The token is in a session or in the slot, or of a new login on its way. -/
def System.Has (system : System) (token : Token) : Prop :=
  (∃ client store, system.clients.get? client = some store ∧
    store.session.map (·.refreshToken) = some token) ∨
  system.vault.slot.map (·.refreshToken) = some token ∨
  ∃ id task, system.tasks.get? id = some task ∧ task.stage.fresh = some token

structure Kept (system : System) : Prop where
  received : ∀ entry ∈ system.log, ∀ token, entry.event = .received token →
    system.Has token ∨ Disposed system.log token
  /-- A dropped client holds its session until its sign-out has run. -/
  shut : ∀ client store, system.clients.get? client = some store →
    store.closed = true → store.session.isSome →
    ∃ id, system.tasks.get? id = some ⟨client, .closing⟩

variable {system next : System} {client : ClientId} {store : Store}
variable {id : TaskId} {out : Outcome}

theorem Disposed.append {log news : List Entry} {token : Token}
    (disposed : Disposed log token) : Disposed (news ++ log) token := by
  obtain ⟨entry, member, disposes⟩ := disposed
  exact ⟨entry, List.mem_append_right _ member, disposes⟩

theorem System.owned_entry (event : Event) :
    (system.entry client event).Owned = system.Owned := rfl

/-- What a section accounts for, the system accounts for. -/
theorem Outcome.Accounts.land {token : Token}
    (accounts : out.Accounts (system.Settled client) system.Owned token) :
    (system.land client id out).Has token ∨
      Disposed (system.land client id out).log token := by
  rcases accounts with (held | stored | fresh) | (disposed | others) |
    ⟨event, emitted, disposes⟩
  · exact Or.inl (Or.inl ⟨client, out.view.store, by simp [System.land], held⟩)
  · exact Or.inl (Or.inr (Or.inl stored))
  · obtain ⟨stage, goesOn, new⟩ := Option.bind_eq_some_iff.mp fresh
    refine Or.inl (Or.inr (Or.inr ⟨id, ⟨client, stage⟩, ?_, new⟩))
    simp [System.land, goesOn]
  · exact Or.inr disposed.append
  · obtain ⟨⟨other, held⟩, member, different, holds⟩ := others
    refine Or.inl (Or.inl ⟨other, held, ?_, holds⟩)
    have found' := Table.mem_rows.mp member
    have apart : other ≠ client := different
    simp only [System.land, Table.get?_put, apart, if_false]
    exact found'
  · refine Or.inr ⟨system.entry client event, ?_, disposes⟩
    exact List.mem_append_left _ (List.mem_map.mpr ⟨event, emitted, rfl⟩)

theorem Kept.land (kept : Kept system)
    (found : system.clients.get? client = some store)
    (mine : ∀ task, system.tasks.get? id = some task → task.client = client)
    (has : ∀ token, (system.view client store).Has
      ((system.tasks.get? id).map (·.stage)) token →
      out.Accounts (system.Settled client) system.Owned token)
    (received : ∀ token, .received token ∈ out.events →
      out.Accounts (system.Settled client) system.Owned token)
    (shut : out.view.store.closed = true → out.view.store.session.isSome →
      out.stage = some .closing ∨
        store.closed = true ∧ store.session.isSome ∧
          system.tasks.get? id ≠ some ⟨client, .closing⟩) :
    Kept (system.land client id out) where
  received entry logged token came := by
    rcases List.mem_append.mp logged with news | before
    · obtain ⟨event, emitted, rfl⟩ := List.mem_map.mp news
      have same : event = .received token := came
      exact (received token (same ▸ emitted)).land
    · rcases kept.received entry before token came with
        (⟨other, held, found', holds⟩ | stored |
          ⟨other, task, running, fresh⟩) | disposed
      · by_cases mine : other = client
        · subst mine
          cases found.symm.trans found'
          exact (has token (Or.inl holds)).land
        · refine Or.inl (Or.inl ⟨other, held, ?_, holds⟩)
          simp only [System.land, Table.get?_put, mine, if_false]
          exact found'
      · exact (has token (Or.inr (Or.inl stored))).land
      · by_cases same : other = id
        · subst same
          refine (has token (Or.inr (Or.inr ?_))).land
          rw [running]
          exact fresh
        · refine Or.inl (Or.inr (Or.inr ⟨other, task, ?_, fresh⟩))
          cases goesOn : out.stage with
          | none => simp [System.land, goesOn, running, same]
          | some stage =>
              simp [System.land, goesOn, Table.get?_put, running, same]
      · exact Or.inr disposed.append
  shut other held found' closed signedIn := by
    have stays : ∀ {id'}, id' ≠ id →
        system.tasks.get? id' = some ⟨other, .closing⟩ →
        (system.land client id out).tasks.get? id' =
          some ⟨other, .closing⟩ := by
      intro id' different running
      cases goesOn : out.stage with
      | none => simp [System.land, goesOn, running, different]
      | some stage =>
          simp [System.land, goesOn, Table.get?_put, running, different]
    rcases System.land_client found' with ⟨rfl, rfl⟩ | ⟨different, before⟩
    · rcases shut closed signedIn with goesOn | ⟨closed', signedIn', notIt⟩
      · exact ⟨id, by simp [System.land, goesOn]⟩
      · obtain ⟨id', running⟩ := kept.shut other store found closed' signedIn'
        refine ⟨id', stays ?_ running⟩
        intro same
        exact notIt (same ▸ running)
    · obtain ⟨id', running⟩ := kept.shut other held before closed signedIn
      refine ⟨id', stays ?_ running⟩
      intro same
      exact different (mine _ (same ▸ running))

theorem Kept.create (kept : Kept system)
    (free : ∀ held, system.clients.get? client ≠ some held) :
    Kept { system with
      clients := system.clients.put client Store.new } where
  received entry logged token came := by
    rcases kept.received entry logged token came with
      (⟨other, held, found, holds⟩ | rest) | disposed
    · have different : other ≠ client := fun same => free held (same ▸ found)
      exact Or.inl (Or.inl ⟨other, held,
        (Table.get?_put_ne _ _ different).trans found, holds⟩)
    · exact Or.inl (Or.inr rest)
    · exact Or.inr disposed
  shut other held found closed signedIn := by
    simp only [Table.get?_put] at found
    split at found
    · cases found
      cases signedIn
    · exact kept.shut other held found closed signedIn

theorem step_kept (kept : Kept system) {action : Action}
    (allowed : NoneLost system action)
    (taken : step system action = some next) : Kept next := by
  cases action with
  | create client =>
      simp only [step] at taken
      split at taken
      · cases taken
      · next free =>
          cases taken
          apply kept.create
          intro held found
          exact free (Table.contains_iff.mpr ⟨held, found⟩)
  | begin client op id =>
      obtain ⟨store, out, found, _, idle, _, begun, rfl⟩ := step_begin taken
      have mine : ∀ task, system.tasks.get? id = some task →
          task.client = client := by
        intro task running
        cases idle.symm.trans running
      by_cases drops : op = .drop
      · subst drops
        cases begun
        apply kept.land found mine
        · intro token has
          rw [idle] at has
          rcases has with held | stored | fresh
          · exact .of_session held
          · exact .of_slot stored
          · cases fresh
        · intro token emitted
          cases emitted
        · intro _ _
          exact Or.inl rfl
      · have keeps := begin_keeps drops
          (fun signsOut => allowed signsOut store found) begun
        apply kept.land found mine
        · rw [idle]
          exact keeps.has
        · exact keeps.received
        · intro closed signedIn
          obtain ⟨closed, signedIn⟩ := keeps.shut closed signedIn
          refine Or.inr ⟨closed, signedIn, ?_⟩
          rw [idle]
          intro running
          cases running
  | resume id input =>
      obtain ⟨task, store, out, running, found, _, resumed, rfl⟩ :=
        step_resume taken
      have keeps := resume_keeps (allowed task running store found) resumed
      apply kept.land found
      · intro other running'
        cases running.symm.trans running'
        rfl
      · rw [running]
        exact keeps.has
      · exact keeps.received
      · intro closed signedIn
        have still := keeps.shut closed signedIn
        refine Or.inr ⟨still.1, still.2, ?_⟩
        intro closing
        -- The sign-out of a dropped client leaves it signed out.
        obtain ⟨client, stage⟩ := task
        cases running.symm.trans closing
        cases input with
        | proceed faults =>
            cases resumed
            rw [View.close_session] at signedIn
            cases signedIn
        | _ => cases resumed
  | leave client token =>
      simp only [step] at taken
      split at taken
      · cases taken
        refine ⟨?_, kept.shut⟩
        intro entry logged other came
        rcases List.mem_cons.mp logged with rfl | before
        · cases came
        · rcases kept.received entry before other came with has | disposed
          · exact Or.inl has
          · obtain ⟨entry, member, disposes⟩ := disposed
            exact Or.inr ⟨entry, List.mem_cons_of_mem _ member, disposes⟩
      · cases taken
  | restart => exact allowed.elim

theorem start_kept : Kept System.start where
  received _ logged := by cases logged
  shut _ _ found := by cases found

/-- While no section loses a token, every pair received is accounted for once
nothing is in progress. -/
theorem nothing_left_of_noneLost {actions : List Action}
    (kept : Along step NoneLost System.start actions)
    (reached : run step System.start actions = some system)
    (idle : system.tasks.rows = []) : system.NothingLeft := by
  have kept : Kept system :=
    run_invariant (fun kept allowed taken => step_kept kept allowed taken)
      start_kept kept reached
  have none : ∀ id task, system.tasks.get? id ≠ some task := by
    intro id task running
    have member := Table.mem_rows.mpr running
    rw [idle] at member
    cases member
  intro entry logged
  cases came : entry.event with
  | received token =>
      rcases kept.received entry logged token came with
        (⟨client, store, found, holds⟩ | stored | ⟨id, task, running, _⟩) |
        disposed
      · refine Or.inl ⟨(client, store), Table.mem_rows.mpr found, ?_, holds⟩
        cases closed : store.closed with
        | false => rfl
        | true =>
            have signedIn : store.session.isSome := by
              obtain ⟨session, signedIn, _⟩ := Option.map_eq_some_iff.mp holds
              rw [signedIn]
              rfl
            obtain ⟨id, running⟩ := kept.shut client store found closed signedIn
            exact (none id _ running).elim
      · exact Or.inr (Or.inl stored)
      · exact (none id task running).elim
      · exact Or.inr (Or.inr disposed)
  | _ => exact trivial

/-! ### A superseded client that is dropped -/

/-- The client logs in. -/
def signIn (client : ClientId) (task : TaskId) : List Action :=
  [.begin client .login task, .resume task (.proceed .none),
    .resume task (.proceed .none), .resume task (.pair .none),
    .resume task (.me ⟨7, 0⟩ .none)]

/-- A second client takes the slot and stores its own login. -/
def takenRun : List Action :=
  [.create 1, .begin 1 .enable 0] ++ signIn 1 0 ++
    [.create 2, .begin 2 .enable 1] ++ signIn 2 1

def droppedRun : List Action :=
  takenRun ++ [.begin 1 .drop 2, .resume 2 (.proceed .none)]

/-- The first client's pair is neither stored any more nor revoked. -/
theorem pair_left_after_drop :
    ∃ system, run step System.start droppedRun = some system ∧
      (∀ action ∈ droppedRun, action ≠ .restart) ∧
      system.tasks.rows = [] ∧ ¬ system.NothingLeft := by
  refine ⟨_, rfl, ?_⟩
  decide +kernel

theorem nothing_left_of_noneLost_takenRun :
    ∃ system, run step System.start takenRun = some system ∧
      system.NothingLeft := by
  obtain ⟨system, reached, idle⟩ : ∃ system,
      run step System.start takenRun = some system ∧
        system.tasks.rows = [] := ⟨_, rfl, rfl⟩
  refine ⟨system, reached, nothing_left_of_noneLost ?_ reached idle⟩
  decide +kernel

end Brook.SignedIn
