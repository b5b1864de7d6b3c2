import Brook.Offline.Client
import Brook.Transition.Run

namespace Brook.Offline

open Transition

variable {Rows : Type} {client next : Client Rows}

/-- Every write into a user's cache comes from an answer to that user's token,
or from a socket of that user. -/
def Isolated (client : Client Rows) : Prop :=
  ∀ write ∈ client.log, write.source.user = write.owner

/-- A request of open stores is sent while their user, or nobody, is signed in,
and a frame with rows is only fed to stores of the socket's user. -/
def OwnSession (client : Client Rows) : ClientAction Rows → Prop
  | .send id =>
      ∀ task ∈ client.tasks.get? id, ∀ cache ∈ client.caches.get? task.cache,
        ∀ user ∈ client.session.user, user = cache.me
  | .frame (some _) =>
      ∀ socket ∈ client.socket,
        (∀ cache ∈ client.caches.values, cache.phase = .live →
          cache.me = socket.user) ∧
        ∀ switching ∈ client.switching, switching.user = socket.user
  | _ => True

instance (client : Client Rows) (action : ClientAction Rows) :
    Decidable (OwnSession client action) :=
  match action with
  | .send id =>
      inferInstanceAs (Decidable
        (∀ task ∈ client.tasks.get? id,
          ∀ cache ∈ client.caches.get? task.cache,
          ∀ user ∈ client.session.user, user = cache.me))
  | .frame (some _) =>
      inferInstanceAs (Decidable
        (∀ socket ∈ client.socket,
          (∀ cache ∈ client.caches.values, cache.phase = .live →
            cache.me = socket.user) ∧
          ∀ switching ∈ client.switching, switching.user = socket.user))
  | .frame none | .signIn _ | .signOut | .connect | .notice | .drop | .watch
  | .stopPump | .close _ | .openStores _ | .openFails | .startSync _ _
  | .startLoad _ _ | .readMeta _ | .answer _ _ | .commit _ | .abandon _
  | .pump _ => isTrue trivial

/-! ### What is on its way -/

/-- The rows of a feed were heard on sockets of `user`. -/
def Heard (user : UserId) (feed : List (Event Rows)) : Prop :=
  ∀ rows sender, Event.rows rows sender ∈ feed → sender = user

def Stage.bearer : Stage Rows → Option UserId
  | .waiting _ bearer => some bearer
  | .answered _ bearer _ => some bearer
  | _ => none

/-- The task's cache was opened for the user whose token its request carries. -/
def Task.Bears (caches : Table CacheId (OpenCache Rows)) (task : Task Rows) :
    Prop :=
  ∃ cache, caches.get? task.cache = some cache ∧
    ∀ bearer, task.stage.bearer = some bearer → bearer = cache.me

structure Own (client : Client Rows) : Prop where
  isolated : Isolated client
  feeds : ∀ id cache, client.caches.get? id = some cache →
    Heard cache.me cache.feed
  switching : ∀ switching, client.switching = some switching →
    Heard switching.user switching.feed
  bears : ∀ id task, client.tasks.get? id = some task →
    task.Bears client.caches

/-- No cache is lost or changes its user. -/
def SameOwners (caches later : Table CacheId (OpenCache Rows)) : Prop :=
  ∀ id cache, caches.get? id = some cache →
    ∃ kept, later.get? id = some kept ∧ kept.me = cache.me

theorem Task.Bears.later {caches later : Table CacheId (OpenCache Rows)}
    {task : Task Rows} (bears : task.Bears caches)
    (same : SameOwners caches later) : task.Bears later := by
  obtain ⟨cache, opened, bearers⟩ := bears
  obtain ⟨kept, found, owner⟩ := same task.cache cache opened
  refine ⟨kept, found, ?_⟩
  intro bearer carried
  rw [owner]
  exact bearers bearer carried

theorem sameOwners_mapRows (caches : Table CacheId (OpenCache Rows))
    {update : CacheId → OpenCache Rows → OpenCache Rows}
    (owner : ∀ id cache, (update id cache).me = cache.me) :
    SameOwners caches (caches.mapRows update) := by
  intro id cache opened
  refine ⟨update id cache, ?_, owner id cache⟩
  rw [Table.get?_mapRows, opened, Option.map_some]

theorem sameOwners_put {caches : Table CacheId (OpenCache Rows)} {id : CacheId}
    {row : OpenCache Rows}
    (owner : ∀ cache, caches.get? id = some cache → row.me = cache.me) :
    SameOwners caches (caches.put id row) := by
  intro other cache opened
  rw [Table.get?_put]
  split
  case isTrue same =>
    subst same
    exact ⟨row, rfl, owner cache opened⟩
  case isFalse => exact ⟨cache, opened, rfl⟩

theorem Heard.append {user : UserId} {feed : List (Event Rows)}
    {event : Event Rows} (heard : Heard user feed)
    (own : ∀ rows sender, event = .rows rows sender → sender = user) :
    Heard user (feed ++ [event]) := by
  intro rows sender member
  obtain old | new := List.mem_append.mp member
  · exact heard rows sender old
  · exact own rows sender (List.mem_singleton.mp new).symm

namespace Own

theorem setStage (own : Own client) {id : TaskId} {task : Task Rows}
    {stage : Stage Rows} (bears : Task.Bears client.caches { task with stage }) :
    Own (client.setStage id task stage) :=
  { own with
    bears := by
      intro other current stored
      simp only [Client.setStage, Table.get?_put] at stored
      split at stored
      case isTrue =>
        cases stored
        exact bears
      case isFalse => exact own.bears other current stored }

theorem finish (own : Own client) (id : TaskId) : Own (client.finish id) :=
  { own with
    bears := by
      intro other task stored
      simp only [Client.finish, Table.get?_filter,
        Option.filter_eq_some_iff] at stored
      exact own.bears other task stored.1 }

theorem setMeta (own : Own client) (owner : UserId) (row : MetaRow) :
    Own (client.setMeta owner row) :=
  { own with }

theorem record (own : Own client) {owner : UserId} {source : Source}
    (same : source.user = owner) (items : List (Item Rows)) :
    Own (client.record owner source items) :=
  { own with
    isolated := by
      intro write member
      obtain new | old := List.mem_append.mp member
      · obtain ⟨item, -, rfl⟩ := List.mem_map.mp new
        exact same
      · exact own.isolated write old }

/-- The caches change, but not whose they are. -/
theorem setCaches (own : Own client)
    {caches : Table CacheId (OpenCache Rows)}
    (same : SameOwners client.caches caches)
    (feeds : ∀ id cache, caches.get? id = some cache →
      Heard cache.me cache.feed) :
    Own { client with caches } :=
  { own with
    feeds
    bears := fun id task stored => (own.bears id task stored).later same }

/-- Only the phases change. -/
theorem mapPhase (own : Own client)
    {update : CacheId → OpenCache Rows → OpenCache Rows}
    (owner : ∀ id cache, (update id cache).me = cache.me)
    (feed : ∀ id cache, (update id cache).feed = cache.feed) :
    Own { client with caches := client.caches.mapRows update } := by
  refine own.setCaches (sameOwners_mapRows client.caches owner) ?_
  intro id cache stored
  rw [Table.get?_mapRows, Option.map_eq_some_iff] at stored
  obtain ⟨earlier, opened, rfl⟩ := stored
  rw [owner, feed]
  exact own.feeds id earlier opened

theorem broadcast (own : Own client) {event : Event Rows}
    (live : ∀ id cache, client.caches.get? id = some cache →
      cache.phase = .live →
      ∀ rows sender, event = .rows rows sender → sender = cache.me)
    (switched : ∀ switching, client.switching = some switching →
      ∀ rows sender, event = .rows rows sender → sender = switching.user) :
    Own (client.broadcast event) where
  isolated := own.isolated
  feeds := by
    intro id cache stored
    simp only [Client.broadcast, Table.get?_mapRows,
      Option.map_eq_some_iff] at stored
    obtain ⟨earlier, opened, rfl⟩ := stored
    have heard := own.feeds id earlier opened
    unfold OpenCache.hear
    split
    case isTrue phase => exact heard.append (live id earlier opened phase)
    case isFalse => exact heard
  switching := by
    intro switching stored
    simp only [Client.broadcast, Option.map_eq_some_iff] at stored
    obtain ⟨earlier, current, rfl⟩ := stored
    exact (own.switching earlier current).append (switched earlier current)
  bears := by
    intro id task stored
    refine (own.bears id task stored).later (sameOwners_mapRows _ ?_)
    intro _ cache
    unfold OpenCache.hear
    split <;> rfl

theorem frame (own : Own client) {rows : Option Rows}
    (guard : OwnSession client (.frame rows))
    (taken : clientStep client (.frame rows) = some next) : Own next := by
  cases current : client.socket with
  | none => simp [clientStep, current] at taken
  | some socket =>
      cases rows with
      | none =>
          simp only [clientStep, current, Option.some.injEq] at taken
          subst taken
          refine own.broadcast ?_ ?_
          all_goals
            intros
            contradiction
      | some rows =>
          simp only [clientStep, current, Option.some.injEq] at taken
          subst taken
          obtain ⟨live, switched⟩ := guard socket current
          refine own.broadcast ?_ ?_
          · intro id cache opened phase _ _ same
            cases same
            have member := Table.mem_values.mpr ⟨id, opened⟩
            exact (live cache member phase).symm
          · intro switching stored _ _ same
            cases same
            exact (switched switching stored).symm

theorem watch (own : Own client) : Own (watchStep client) := by
  have subscribed (user : UserId) :
      Own { client with switching := some ⟨user, []⟩ } :=
    { own with
      switching := by
        intro switching stored
        cases stored
        intro _ _ impossible
        cases impossible }
  unfold watchStep
  split
  case h_1 => exact own
  case h_2 user _ =>
    split
    case h_1 =>
      split
      case isTrue => exact own
      case isFalse => exact subscribed user
    case h_2 => exact subscribed user

theorem openStores (own : Own client) {id : CacheId}
    (taken : clientStep client (.openStores id) = some next) : Own next := by
  cases stored : client.switching with
  | none => simp [clientStep, stored] at taken
  | some switching =>
      simp only [clientStep, stored] at taken
      split at taken
      case isTrue => cases taken
      case isFalse free =>
        cases taken
        simp only [not_or, Table.contains_iff, not_exists] at free
        have fresh := free.2.1
        refine { isolated := own.isolated, feeds := ?_, switching := ?_, bears := ?_ }
        · intro other cache opened
          simp only [Table.get?_put] at opened
          split at opened
          case isTrue =>
            cases opened
            exact own.switching switching stored
          case isFalse => exact own.feeds other cache opened
        · intro _ impossible
          cases impossible
        · intro task current running
          refine (own.bears task current running).later (sameOwners_put ?_)
          intro cache opened
          exact absurd opened (fresh cache)

theorem startTask (own : Own client) {id : TaskId} {cache : CacheId}
    {kind : Kind} {opened : OpenCache Rows}
    (found : client.caches.get? cache = some opened) :
    Own { client with tasks := client.tasks.put id ⟨cache, kind, .begun⟩ } :=
  { own with
    bears := by
      intro other task stored
      simp only [Table.get?_put] at stored
      split at stored
      case isTrue =>
        cases stored
        refine ⟨opened, found, ?_⟩
        intro _ impossible
        cases impossible
      case isFalse => exact own.bears other task stored }

theorem send (own : Own client) {id : TaskId}
    (guard : OwnSession client (.send id))
    (taken : clientStep client (.send id) = some next) : Own next := by
  simp only [clientStep] at taken
  split at taken
  case h_1 cache kind read stored =>
    obtain ⟨opened, found, -⟩ := own.bears id _ stored
    split at taken
    case h_1 =>
      cases taken
      exact own.finish id
    case h_2 bearer signedIn =>
      cases taken
      refine own.setStage ⟨opened, found, ?_⟩
      intro carried same
      cases same
      exact guard _ stored opened found bearer signedIn
  case h_2 => cases taken

theorem commit (own : Own client) {id : TaskId} {task : Task Rows}
    {read : MetaRow} {bearer : UserId} {answer : Answer Rows}
    {opened : OpenCache Rows}
    (found : client.caches.get? task.cache = some opened)
    (owner : bearer = opened.me) :
    Own (commitStep client id task read bearer answer opened.me) := by
  have source : (Source.answer bearer).user = opened.me := owner
  have written (row : MetaRow) (items : List (Item Rows)) :
      Own ((client.setMeta opened.me row).record opened.me (.answer bearer)
        items) :=
    (own.setMeta opened.me row).record source items
  unfold commitStep
  split
  case h_1 =>
    simp only
    split
    case isTrue =>
      refine (written _ _).setStage ⟨opened, found, ?_⟩
      intro _ impossible
      cases impossible
    case isFalse => exact ((written _ _).record source _).finish id
  case h_2 => exact (written _ _).finish id
  case h_3 =>
    simp only
    split
    case isTrue => exact own.finish id
    case isFalse => exact (own.record source _).finish id
  case h_4 => exact own.finish id

theorem pump (own : Own client) {id : CacheId}
    (taken : clientStep client (.pump id) = some next) : Own next := by
  simp only [clientStep] at taken
  split at taken
  case h_1 me event rest opened =>
    have heard : Heard me (event :: rest) := own.feeds id _ opened
    have left : Own { client with
        caches := client.caches.put id ⟨me, .live, rest⟩ } := by
      refine own.setCaches (sameOwners_put ?_) ?_
      · intro cache stored
        rw [opened] at stored
        cases stored
        rfl
      · intro other cache stored
        rw [Table.get?_put] at stored
        split at stored
        case isTrue =>
          cases stored
          intro rows sender member
          exact heard rows sender (List.mem_cons_of_mem _ member)
        case isFalse => exact own.feeds other cache stored
    cases event with
    | asksSync =>
        cases taken
        exact left
    | rows rows user =>
        cases taken
        have sender : (Source.frame user).user = me :=
          heard rows user List.mem_cons_self
        exact left.record sender _
  case h_2 => cases taken

theorem step (own : Own client) {action : ClientAction Rows}
    (guard : OwnSession client action)
    (taken : clientStep client action = some next) : Own next := by
  cases action with
  | signIn user =>
      cases taken
      exact { own with }
  | signOut =>
      cases taken
      exact { own with }
  | connect =>
      simp only [clientStep] at taken
      split at taken
      case h_1 =>
        cases taken
        exact { own with }
      case h_2 => cases taken
  | frame rows => exact own.frame guard taken
  | notice =>
      simp only [clientStep] at taken
      split at taken
      case h_1 =>
        split at taken
        case isTrue => cases taken
        case isFalse =>
          cases taken
          exact { own with }
      case h_2 => cases taken
  | drop =>
      cases taken
      have dropped : Own { client with socket := none } := { own with }
      refine dropped.broadcast ?_ ?_
      all_goals
        intros
        contradiction
  | watch =>
      simp only [clientStep] at taken
      split at taken
      case isTrue => cases taken
      case isFalse =>
        cases taken
        exact own.watch
  | stopPump =>
      simp only [clientStep] at taken
      split at taken
      case h_1 =>
        cases taken
        have detached : Own { client with active := none } := { own with }
        refine detached.mapPhase ?_ ?_
        all_goals
          intro other cache
          split <;> rfl
      case h_2 => cases taken
  | close id =>
      simp only [clientStep] at taken
      split at taken
      case isTrue => cases taken
      case isFalse =>
        cases taken
        refine own.mapPhase ?_ ?_
        all_goals
          intro other cache
          split <;> rfl
  | openStores id => exact own.openStores taken
  | openFails =>
      simp only [clientStep] at taken
      split at taken
      case isTrue => cases taken
      case isFalse =>
        cases taken
        exact { own with
          switching := by
            intro _ impossible
            cases impossible }
  | startSync id cache =>
      simp only [clientStep] at taken
      split at taken
      case h_1 => cases taken
      case h_2 opened found =>
        split at taken
        case isTrue => cases taken
        case isFalse =>
          cases taken
          exact own.startTask found
  | startLoad id channel =>
      simp only [clientStep] at taken
      split at taken
      case h_1 =>
        split at taken
        case h_1 => cases taken
        case h_2 opened found =>
          split at taken
          case isTrue => cases taken
          case isFalse =>
            cases taken
            exact own.startTask found
      case h_2 => cases taken
  | readMeta id =>
      simp only [clientStep] at taken
      split at taken
      case h_1 cache kind stored =>
        split at taken
        case h_1 => cases taken
        case h_2 opened found =>
          split at taken
          case isTrue =>
            cases taken
            exact own.finish id
          case isFalse =>
            cases taken
            refine own.setStage ⟨opened, found, ?_⟩
            intro _ impossible
            cases impossible
      case h_2 => cases taken
  | send id => exact own.send guard taken
  | answer id answer =>
      simp only [clientStep] at taken
      split at taken
      case h_1 stored =>
        cases taken
        have bears := own.bears id _ stored
        exact own.setStage bears
      case h_2 => cases taken
  | commit id =>
      simp only [clientStep] at taken
      split at taken
      case h_1 stored =>
        obtain ⟨opened, found, bearer⟩ := own.bears id _ stored
        simp only [found] at taken
        split at taken
        case isTrue =>
          cases taken
          exact own.finish id
        case isFalse =>
          cases taken
          exact own.commit found (bearer _ rfl)
      case h_2 => cases taken
  | abandon id =>
      cases taken
      exact own.finish id
  | pump id => exact own.pump taken

theorem start (stored : Table UserId MetaRow) :
    Own (Client.start stored : Client Rows) where
  isolated := by simp [Isolated, Client.start]
  feeds := by simp [Client.start]
  switching := by simp [Client.start]
  bears := by simp [Client.start]

end Own

/-- From any stores on disk: while each request and each frame with rows falls
in its own user's session, every cache holds only what its user was told. -/
theorem caches_hold_own_answers (stored : Table UserId MetaRow)
    {actions : List (ClientAction Rows)}
    (guarded : Along clientStep OwnSession (Client.start stored) actions)
    (reached : run clientStep (Client.start stored) actions = some client) :
    Isolated client := by
  have own : Own client :=
    run_invariant (fun own guard taken => own.step guard taken)
      (Own.start stored) guarded reached
  exact own.isolated

/-- A sync, a history load and a live message, then another user signs in. -/
def ordinary : List (ClientAction Nat) :=
  [.signIn 1, .watch, .openStores 1, .connect, .frame none, .pump 1,
    .startSync 1 1, .readMeta 1, .send 1, .answer 1 (.page 10 5 false),
    .commit 1, .startLoad 2 3, .readMeta 2, .send 2, .answer 2 (.history 11),
    .commit 2, .frame (some 12), .pump 1, .signIn 2, .notice, .watch, .stopPump,
    .close 1, .openStores 2, .connect, .frame (some 13), .pump 2]

theorem caches_hold_own_answers_ordinary :
    ∃ client, run clientStep (Client.start ∅) ordinary = some client ∧
      client.log.length = 7 ∧ Isolated client := by
  have guarded : Along clientStep OwnSession (Client.start ∅) ordinary := by
    decide +kernel
  obtain ⟨client, reached, written⟩ : ∃ client,
      run clientStep (Client.start ∅) ordinary = some client ∧
        client.log.length = 7 := by
    refine ⟨_, rfl, ?_⟩
    decide +kernel
  exact ⟨client, reached, written, caches_hold_own_answers ∅ guarded reached⟩

/-- The other user signs in between the cursor's read and the request. -/
def switchedSync : List (ClientAction Nat) :=
  [.signIn 1, .watch, .openStores 1, .startSync 1 1, .readMeta 1, .signIn 2,
    .send 1, .answer 1 (.page 10 5 false), .commit 1]

theorem page_of_next_user_cached :
    ¬ ∀ (stored : Table UserId MetaRow) (actions : List (ClientAction Nat))
        (client : Client Nat),
      run clientStep (Client.start stored) actions = some client →
      Isolated client := by
  intro claimed
  obtain ⟨client, reached, leaked⟩ : ∃ client,
      run clientStep (Client.start ∅) switchedSync = some client ∧
        ⟨1, .rows 10, .answer 2⟩ ∈ client.log := by
    refine ⟨_, rfl, ?_⟩
    decide +kernel
  have isolated := claimed ∅ switchedSync client reached
  exact absurd (isolated _ leaked) (by decide)

end Brook.Offline
