import Brook.Streams.System
import Brook.Transition.Run

namespace Brook.Streams

/-! No wake-up is lost: a participant whose subscription may have to change is about to be
reconciled.  What a participant that is not must meet is a parameter, `good`. -/

/-- What the participant is subscribed to, or will be once Janus has answered. -/
def Participant.aim (row : Participant) : Finset Stream :=
  match row.lock with
  | some (.attaching desired) | some (.joining desired) | some (.updating desired) => desired
  | _ => row.subStreams

/-- A subscription is in flight. -/
def Participant.busy (row : Participant) : Bool :=
  match row.lock with
  | some (.attaching _) | some (.joining _) | some (.updating _) => true
  | _ => false

/-- A reconcile is put off until the offer is answered. -/
def Participant.deferred (row : Participant) : Bool :=
  row.subPending.isSome && row.subDirty

/-- What the others can be subscribed to. -/
def Participant.shown (row : Participant) : FeedId × Bool × Sources :=
  (row.feedId, row.mediaUp, row.streamSources)

/-- The task reconciles the participant, or will have it reconciled with all others. -/
def Task.wakes (p : ParticipantId) : Task → Bool
  | .reconcile q => q = p
  | .announcing | .replying | .closing _ | .destroying _ | .telling | .ending | .leaving => true
  | .offer _ _ | .answer _ _ | .configuring _ _ _ | .join _ | .seating _ | .remove _ _ => false

structure Woken (call : Call) (p : ParticipantId) : Prop where
  woken : (∃ id task, call.tasks.get? id = some task ∧ task.wakes p = true) ∨
    ∃ row, call.people.get? p = some row ∧ row.deferred = true

/-- Task ids are new, and participants have different feeds. -/
structure Sound (call : Call) : Prop where
  fresh : ∀ id task, call.tasks.get? id = some task → id < call.spawned
  known : ∀ p ∈ call.participants, ∃ row, call.people.get? p = some row
  feeds : ∀ p ∈ call.participants, ∀ q ∈ call.participants, ∀ row other,
    call.people.get? p = some row → call.people.get? q = some other →
    row.feedId = other.feedId → p = q

abbrev Good := Call → ParticipantId → Participant → Prop

/-- Everyone is as they should be, or to be woken; the participant that is `looked` at may be
neither. -/
structure Awake (good : Good) (call : Call) (looked : Option ParticipantId) : Prop where
  sound : Sound call
  served : ∀ p ∈ call.participants, looked ≠ some p → ∀ row, call.people.get? p = some row →
    good call p row ∨ Woken call p

/-- Janus answers every request with success, and the members can be read. -/
def Action.succeeds : Action → Bool
  | .seated _ ok _ | .configured _ ok | .attached _ ok | .subscribed _ ok _ | .started _ ok => ok
  | .left _ read => read
  | _ => true

variable {call next : Call} {p q : ParticipantId} {id : TaskId} {task : Task}
  {row : Participant}

@[simp] theorem get?_update {write : Participant → Participant} :
    (call.update p write).people.get? q =
      (call.people.get? q).map fun row => if q = p then write row else row :=
  Table.get?_mapRows _ _ _

theorem Woken.of_task (found : call.tasks.get? id = some task) (wakes : task.wakes p = true) :
    Woken call p :=
  ⟨Or.inl ⟨id, task, found, wakes⟩⟩

/-! ### Spawned tasks -/

/-- The tasks that are there stay, under their ids. -/
structure Spawns (call next : Call) : Prop where
  people : next.people = call.people
  participants : next.participants = call.participants
  spawned : call.spawned ≤ next.spawned
  fresh : (∀ id task, call.tasks.get? id = some task → id < call.spawned) →
    ∀ id task, next.tasks.get? id = some task → id < next.spawned
  kept : ∀ id task, id < call.spawned → call.tasks.get? id = some task →
    next.tasks.get? id = some task

theorem Spawns.refl (call : Call) : Spawns call call :=
  ⟨rfl, rfl, Nat.le_refl _, fun fresh => fresh, fun _ _ _ found => found⟩

theorem Spawns.trans {middle : Call} (first : Spawns call middle) (second : Spawns middle next) :
    Spawns call next where
  people := second.people.trans first.people
  participants := second.participants.trans first.participants
  spawned := first.spawned.trans second.spawned
  fresh fresh := second.fresh (first.fresh fresh)
  kept id task below found :=
    second.kept id task (Nat.lt_of_lt_of_le below first.spawned) (first.kept id task below found)

theorem spawns (call : Call) (task : Task) : Spawns call (call.spawn task) where
  people := rfl
  participants := rfl
  spawned := Nat.le_succ _
  fresh fresh id other found := by
    rw [Call.spawn, Table.get?_put] at found
    split at found
    case isTrue same =>
      rw [same]
      exact Nat.lt_succ_self _
    case isFalse => exact Nat.lt_succ_of_lt (fresh id other found)
  kept id other below found := by
    rw [Call.spawn, Table.get?_put_ne _ _ (Nat.ne_of_lt below)]
    exact found

theorem get?_spawn (call : Call) (task : Task) :
    (call.spawn task).tasks.get? call.spawned = some task :=
  Table.get?_put_self _ _ _

theorem spawns_all (ps : List ParticipantId) (call : Call) :
    Spawns call (ps.foldl (fun call p => call.spawn (.reconcile p)) call) := by
  induction ps generalizing call with
  | nil => exact Spawns.refl call
  | cons p ps ih => exact (spawns call (.reconcile p)).trans (ih _)

theorem reconciles_all (ps : List ParticipantId) (call : Call) (member : p ∈ ps) :
    ∃ id, (ps.foldl (fun call p => call.spawn (.reconcile p)) call).tasks.get? id =
      some (.reconcile p) := by
  induction ps generalizing call with
  | nil => cases member
  | cons other ps ih =>
      obtain rfl | later := List.mem_cons.mp member
      · refine ⟨call.spawned, ?_⟩
        exact (spawns_all ps (call.spawn (.reconcile p))).kept _ _ (Nat.lt_succ_self _)
          (get?_spawn call (.reconcile p))
      · exact ih _ later

theorem spawns_reconcileAll (call : Call) : Spawns call call.reconcileAll :=
  spawns_all _ call

theorem woken_reconcileAll (member : p ∈ call.participants) : Woken call.reconcileAll p := by
  obtain ⟨id, found⟩ := reconciles_all call.participants call member
  exact .of_task found (by simp [Task.wakes])

/-! ### Sound calls -/

theorem Sound.spawns (sound : Sound call) (spawns : Spawns call next) : Sound next where
  fresh := spawns.fresh sound.fresh
  known := by
    rw [spawns.participants, spawns.people]
    exact sound.known
  feeds := by
    rw [spawns.participants, spawns.people]
    exact sound.feeds

theorem Sound.update (sound : Sound call) {write : Participant → Participant}
    (feed : ∀ row, (write row).feedId = row.feedId) : Sound (call.update p write) where
  fresh := sound.fresh
  known q member := by
    obtain ⟨row, found⟩ := sound.known q member
    rw [get?_update, found]
    exact ⟨_, rfl⟩
  feeds q member q' member' later later' there there' same := by
    rw [get?_update, Option.map_eq_some_iff] at there there'
    obtain ⟨row, found, rfl⟩ := there
    obtain ⟨other, found', rfl⟩ := there'
    have kept (q : ParticipantId) (row : Participant) :
        (if q = p then write row else row).feedId = row.feedId := by
      split
      · exact feed row
      · rfl
    rw [kept, kept] at same
    exact sound.feeds q member q' member' row other found found' same

theorem Sound.ends (sound : Sound call) (id : TaskId) : Sound (call.ends id) where
  fresh other row there := by
    rw [Call.ends, Table.get?_filter, Option.filter_eq_some_iff] at there
    exact sound.fresh other row there.1
  known := sound.known
  feeds := sound.feeds

theorem Sound.becomes (sound : Sound call) (found : call.tasks.get? id = some task)
    (later : Task) : Sound (call.becomes id later) where
  fresh other row there := by
    rw [Call.becomes, Table.get?_put] at there
    split at there
    case isTrue same =>
      rw [same]
      exact sound.fresh id task found
    case isFalse => exact sound.fresh other row there
  known := sound.known
  feeds := sound.feeds

theorem get?_becomes (call : Call) (id : TaskId) (later : Task) :
    (call.becomes id later).tasks.get? id = some later :=
  Table.get?_put_self _ _ _

/-! ### What a step leaves as it was -/

/-- The others show what they showed. -/
structure Shows (call next : Call) : Prop where
  participants : next.participants = call.participants
  shown : ∀ q ∈ call.participants,
    (next.people.get? q).map Participant.shown = (call.people.get? q).map Participant.shown

/-- The rows are alike in what reconciling looks at. -/
structure Participant.Like (row later : Participant) : Prop where
  aim : later.aim = row.aim
  busy : later.busy = row.busy
  subStreams : later.subStreams = row.subStreams
  offered : later.offered = row.offered
  deferred : row.deferred = true → later.deferred = true

theorem Participant.Like.refl (row : Participant) : row.Like row :=
  ⟨rfl, rfl, rfl, rfl, fun deferred => deferred⟩

/-- The participant is as well off as it was. -/
structure Keeps (call next : Call) (p : ParticipantId) : Prop where
  row : ∀ row, call.people.get? p = some row →
    ∃ later, next.people.get? p = some later ∧ row.Like later
  wakes : ∀ id task, call.tasks.get? id = some task → task.wakes p = true →
    ∃ id task, next.tasks.get? id = some task ∧ task.wakes p = true

/-- What holds of a participant depends only on what `Shows` and `Like` keep. -/
structure Steady (good : Good) : Prop where
  kept : ∀ {call next p row later}, Shows call next → Participant.Like row later →
    good call p row → good next p later

theorem mem_desired {stream : Stream} :
    stream ∈ call.desired p ↔ ∃ q ∈ call.participants, q ≠ p ∧ stream ∈ call.streamsOf q := by
  simp [Call.desired, and_assoc]

theorem Shows.streamsOf (shows : Shows call next) (member : q ∈ call.participants) :
    next.streamsOf q = call.streamsOf q := by
  have shown := shows.shown q member
  rw [Call.streamsOf, Call.streamsOf]
  cases later : next.people.get? q with
  | none =>
      rw [later, Option.map_none, eq_comm, Option.map_eq_none_iff] at shown
      rw [shown]
  | some row =>
      rw [later, Option.map_some, eq_comm, Option.map_eq_some_iff] at shown
      obtain ⟨before, found, same⟩ := shown
      simp only [Participant.shown, Prod.mk.injEq] at same
      rw [found, Option.elim_some, Option.elim_some, same.1, same.2.1, same.2.2]

theorem Shows.desired (shows : Shows call next) (p : ParticipantId) :
    next.desired p = call.desired p := by
  ext stream
  rw [mem_desired, mem_desired, shows.participants]
  constructor
  · rintro ⟨q, member, other, has⟩
    exact ⟨q, member, other, shows.streamsOf member ▸ has⟩
  · rintro ⟨q, member, other, has⟩
    exact ⟨q, member, other, (shows.streamsOf member).symm ▸ has⟩

theorem Shows.update {write : Participant → Participant}
    (shown : ∀ row, (write row).shown = row.shown) : Shows call (call.update p write) where
  participants := rfl
  shown q _ := by
    rw [get?_update, Option.map_map]
    congr 1
    funext row
    simp only [Function.comp_apply]
    split
    · exact shown row
    · rfl

theorem Keeps.woken (keeps : Keeps call next p) (woken : Woken call p) : Woken next p := by
  obtain ⟨id, task, found, wakes⟩ | ⟨row, found, deferred⟩ := woken.woken
  · exact ⟨Or.inl (keeps.wakes id task found wakes)⟩
  · obtain ⟨later, there, like⟩ := keeps.row row found
    exact ⟨Or.inr ⟨later, there, like.deferred deferred⟩⟩

theorem Keeps.of_rows (rows : ∀ row, call.people.get? p = some row →
      ∃ later, next.people.get? p = some later ∧ row.Like later)
    (tasks : next.tasks = call.tasks) : Keeps call next p where
  row := rows
  wakes id task found wakes := ⟨id, task, tasks ▸ found, wakes⟩

section

variable {good : Good} {looked : Option ParticipantId}

theorem Awake.keeps (awake : Awake good call looked) (steady : Steady good) (sound : Sound next)
    (shows : Shows call next)
    (keeps : ∀ q ∈ call.participants, looked ≠ some q → Keeps call next q) :
    Awake good next looked where
  sound := sound
  served q member different later there := by
    rw [shows.participants] at member
    have keeps := keeps q member different
    obtain ⟨row, found⟩ := awake.sound.known q member
    obtain ⟨_, also, like⟩ := keeps.row row found
    cases there.symm.trans also
    exact (awake.served q member different row found).imp (steady.kept shows like) keeps.woken

/-- Once everyone is woken, what was before does not matter. -/
theorem Awake.of_woken (sound : Sound next) (woken : ∀ q ∈ next.participants, Woken next q) :
    Awake good next looked where
  sound := sound
  served q member _ _ _ := Or.inr (woken q member)

/-- A task that will have everyone reconciled is there. -/
theorem Awake.of_waker (sound : Sound next) (found : next.tasks.get? id = some task)
    (wakes : ∀ q, task.wakes q = true) : Awake good next looked :=
  .of_woken sound fun q _ => .of_task found (wakes q)

theorem Awake.reconcileAll (sound : Sound call) : Awake good call.reconcileAll looked := by
  have spawns := spawns_reconcileAll call
  refine .of_woken (sound.spawns spawns) fun q member => ?_
  rw [spawns.participants] at member
  exact woken_reconcileAll member

theorem Awake.spawn (awake : Awake good call looked) (steady : Steady good) (task : Task) :
    Awake good (call.spawn task) looked := by
  have spawns := spawns call task
  refine awake.keeps steady (awake.sound.spawns spawns) ⟨rfl, fun _ _ => rfl⟩ fun q _ _ =>
    ⟨fun row found => ⟨row, found, .refl row⟩, fun id other found wakes => ?_⟩
  exact ⟨id, other, spawns.kept id other (awake.sound.fresh id other found) found, wakes⟩

theorem Awake.update (awake : Awake good call looked) (steady : Steady good)
    {write : Participant → Participant} (shown : ∀ row, (write row).shown = row.shown)
    (like : looked ≠ some p → ∀ row, call.people.get? p = some row → row.Like (write row)) :
    Awake good (call.update p write) looked := by
  refine awake.keeps steady ?sound (.update shown) fun q _ different => .of_rows ?rows rfl
  case sound =>
    exact awake.sound.update fun row => congrArg Prod.fst (shown row)
  case rows =>
    intro row found
    refine ⟨if q = p then write row else row, ?_, ?_⟩
    · rw [get?_update, found]
      rfl
    · split
      case isTrue same =>
        subst same
        exact like different row found
      case isFalse => exact .refl row

/-- A task that wakes no one ends. -/
theorem Awake.ends (awake : Awake good call looked) (steady : Steady good)
    (found : call.tasks.get? id = some task)
    (idle : ∀ q ∈ call.participants, looked ≠ some q → task.wakes q = false) :
    Awake good (call.ends id) looked := by
  refine awake.keeps steady (awake.sound.ends id) ⟨rfl, fun _ _ => rfl⟩
    fun q member different =>
      ⟨fun row found => ⟨row, found, .refl row⟩, fun other waking there wakes => ?_⟩
  refine ⟨other, waking, ?_, wakes⟩
  rw [Call.ends, Table.get?_filter_kept, there]
  refine fun _ => decide_eq_true fun same => ?_
  rw [same, found] at there
  cases there
  rw [idle q member different] at wakes
  cases wakes

theorem Awake.becomes (awake : Awake good call looked) (steady : Steady good)
    (found : call.tasks.get? id = some task) {later : Task}
    (wakes : ∀ q, task.wakes q = true → later.wakes q = true) :
    Awake good (call.becomes id later) looked := by
  refine awake.keeps steady (awake.sound.becomes found later) ⟨rfl, fun _ _ => rfl⟩
    fun q _ _ => ⟨fun row there => ⟨row, there, .refl row⟩, fun other waking there woke => ?_⟩
  by_cases same : other = id
  · rw [same, found] at there
    cases there
    exact ⟨id, later, get?_becomes call id later, wakes q woke⟩
  · refine ⟨other, waking, ?_, woke⟩
    rw [Call.becomes, Table.get?_put_ne _ _ same]
    exact there

/-- The channel's lock and the call's end change nothing. -/
theorem Awake.same (awake : Awake good call looked) (steady : Steady good)
    (locked ended : Bool) :
    Awake good { call with locked := locked, ended := ended } looked := by
  refine awake.keeps steady ⟨awake.sound.fresh, awake.sound.known, awake.sound.feeds⟩
    ⟨rfl, fun _ _ => rfl⟩ fun q _ _ => .of_rows (fun row found => ⟨row, found, .refl row⟩) rfl

/-- What is true without looking at anyone is true when one is looked at. -/
theorem Awake.look (awake : Awake good call none) (p : ParticipantId) :
    Awake good call (some p) where
  sound := awake.sound
  served q member _ := awake.served q member (by simp)

theorem Awake.seen (awake : Awake good call (some p))
    (served : p ∈ call.participants → ∀ row, call.people.get? p = some row →
      good call p row ∨ Woken call p) : Awake good call none where
  sound := awake.sound
  served q member _ row found := by
    by_cases same : q = p
    · subst same
      exact served member row found
    · exact awake.served q member (fun looked => same (Option.some.inj looked).symm) row found

end

end Brook.Streams
