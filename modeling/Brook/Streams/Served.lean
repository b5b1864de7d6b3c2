import Brook.Streams.Awake

namespace Brook.Streams

/-! Every step keeps everyone served or awake.  `Awake.step` leaves out whom the step itself
settles: what such a step does for the participant is shown for each `good` on its own. -/

/-- Whose subscription or offer the task is about. -/
def Task.settles : Task → Option ParticipantId
  | .reconcile p | .offer p _ => some p
  | _ => none

def Action.settles (call : Call) : Action → Option ParticipantId
  | .subscribed p _ _ => some p
  | .lock task => (call.tasks.get? task).bind Task.settles
  | _ => none

/-- The row once Janus has taken the subscription. -/
def Participant.taken (desired : Finset Stream) (row : Participant) : Participant :=
  { row with
    subHid := true
    subStreams := desired
    lock := none }

variable {call next : Call} {p q : ParticipantId} {id : TaskId} {task : Task}
  {row : Participant} {action : Action}

section

variable {good : Good}

theorem Awake.resubscribe (awake : Awake good call (some p)) (steady : Steady good) :
    Awake good (call.resubscribe p) none := by
  refine ((awake.update steady ?_ ?_).spawn steady (.reconcile p)).seen fun _ _ _ => ?_
  · intro row
    rfl
  · exact fun different => absurd rfl different
  · exact Or.inr (.of_task (get?_spawn _ _) (by simp [Task.wakes]))

theorem Awake.join (awake : Awake good call none) (steady : Steady good)
    (new : call.people.get? p = none) :
    Awake good ({ call with people := call.people.put p .new }.spawn (.join p)) none := by
  have other : ∀ q ∈ call.participants, (call.people.put p .new).get? q = call.people.get? q := by
    intro q member
    refine Table.get?_put_ne _ _ fun same => ?_
    obtain ⟨row, found⟩ := awake.sound.known q member
    rw [same, new] at found
    cases found
  have put : Awake good { call with people := call.people.put p .new } none := by
    refine awake.keeps steady ?sound ⟨rfl, ?shown⟩ fun q member _ => .of_rows ?rows rfl
    case sound =>
      refine ⟨awake.sound.fresh, fun q member => ?_, ?_⟩
      · obtain ⟨row, found⟩ := awake.sound.known q member
        exact ⟨row, (other q member).trans found⟩
      · intro q member q' member' row row' found found' same
        exact awake.sound.feeds q member q' member' row row' ((other q member).symm.trans found)
          ((other q' member').symm.trans found') same
    case shown =>
      intro q member
      exact congrArg _ (other q member)
    case rows =>
      exact fun row found => ⟨row, (other q member).trans found, .refl row⟩
  exact put.spawn steady (.join p)

theorem Sound.seated (sound : Sound call) (found : call.tasks.get? id = some task)
    {feed : FeedId} (unused : call.participants.any (call.hasFeed feed) = false) :
    Sound { call.becomes id .replying with
      people := call.people.put p { row with feedId := feed }
      participants := call.participants ++ [p]
      locked := false } := by
  have before (q : ParticipantId) (member : q ∈ call.participants ++ [p]) (other : q ≠ p) :
      q ∈ call.participants := by
    simpa [other] using member
  have elsewhere (q : ParticipantId) (member : q ∈ call.participants ++ [p]) (other : q ≠ p)
      (row : Participant) (there : call.people.get? q = some row) : row.feedId ≠ feed := by
    intro same
    refine absurd (List.any_eq_true.mpr ⟨q, before q member other, ?_⟩)
      (Bool.eq_false_iff.mp unused)
    rw [Call.hasFeed, there]
    simpa using same
  refine ⟨(sound.becomes found .replying).fresh, fun q member => ?_, ?_⟩
  · by_cases same : q = p
    · subst same
      exact ⟨_, Table.get?_put_self _ _ _⟩
    · obtain ⟨row, there⟩ := sound.known q (before q member same)
      exact ⟨row, (Table.get?_put_ne _ _ same).trans there⟩
  · intro q member q' member' row row' there there' same
    by_cases isNew : q = p <;> by_cases isNew' : q' = p
    · rw [isNew, isNew']
    · subst isNew
      rw [Table.get?_put_self] at there
      rw [Table.get?_put_ne _ _ isNew'] at there'
      cases there
      exact absurd same.symm (elsewhere q' member' isNew' row' there')
    · subst isNew'
      rw [Table.get?_put_ne _ _ isNew] at there
      rw [Table.get?_put_self] at there'
      cases there'
      exact absurd same (elsewhere q member isNew row there)
    · rw [Table.get?_put_ne _ _ isNew] at there
      rw [Table.get?_put_ne _ _ isNew'] at there'
      exact sound.feeds q (before q member isNew) q' (before q' member' isNew') row row' there
        there' same

theorem Sound.without (sound : Sound call) (p : ParticipantId) :
    Sound { call with
      participants := call.participants.filter (· ≠ p)
      locked := true } where
  fresh := sound.fresh
  known q member := sound.known q (List.mem_filter.mp member).1
  feeds q member q' member' :=
    sound.feeds q (List.mem_filter.mp member).1 q' (List.mem_filter.mp member').1

theorem Sound.same (sound : Sound call) (locked ended : Bool) :
    Sound { call with locked := locked, ended := ended } :=
  ⟨sound.fresh, sound.known, sound.feeds⟩

theorem locked_row {hold : Hold} (held : (call.people.get? p).bind (·.lock) = some hold) :
    ∃ row, call.people.get? p = some row ∧ row.lock = some hold :=
  Option.bind_eq_some_iff.mp held

/-- The task that holds the lock lets it go, or awaits something else of the same subscription. -/
theorem Awake.relock (awake : Awake good call none) (steady : Steady good)
    {lock : Option Hold} (found : call.people.get? p = some row)
    (aim : { row with lock := lock }.aim = row.aim)
    (busy : { row with lock := lock }.busy = row.busy) :
    Awake good (call.update p fun row => { row with lock := lock }) none := by
  refine awake.update steady (fun _ => rfl) fun _ other there => ?_
  cases found.symm.trans there
  exact ⟨aim, busy, rfl, rfl, fun deferred => deferred⟩

theorem Awake.started (awake : Awake good call none) (steady : Steady good)
    (found : call.people.get? p = some row) (lock : row.lock = some .starting) :
    Awake good (call.started p row) none := by
  rw [Call.started]
  split
  case isTrue =>
    -- What was put off is spawned.
    refine (((awake.look p).update steady ?_ ?_).spawn steady (.reconcile p)).seen fun _ _ _ => ?_
    · exact fun _ => rfl
    · exact fun different => absurd rfl different
    · exact Or.inr (.of_task (get?_spawn _ _) (by simp [Task.wakes]))
  case isFalse clean =>
    refine awake.update steady (fun _ => rfl) fun _ other there => ?_
    cases found.symm.trans there
    refine ⟨?_, ?_, rfl, rfl, fun deferred => ?_⟩
    · simp [Participant.aim, lock]
    · simp [Participant.busy, lock]
    · simp [Participant.deferred, clean] at deferred

theorem Awake.reconcile (awake : Awake good call (some p)) (steady : Steady good) :
    Awake good (call.reconcile p row) (some p) := by
  have write {write : Participant → Participant} (shown : ∀ row, (write row).shown = row.shown) :
      Awake good (call.update p write) (some p) :=
    awake.update steady shown fun different => absurd rfl different
  rw [Call.reconcile]
  split
  case isTrue => exact awake
  case isFalse =>
    split
    case isTrue => exact write fun _ => rfl
    case isFalse =>
      split
      case isTrue => exact awake
      case isFalse =>
        split
        case isTrue => exact write fun _ => rfl
        case isFalse => exact write fun _ => rfl

theorem Awake.offer (awake : Awake good call (some p)) (steady : Steady good)
    (streams : List Listed) : Awake good (call.offer p streams) (some p) :=
  awake.update steady (fun _ => rfl) fun different => absurd rfl different

theorem Awake.subscribed (awake : Awake good call (some p)) (steady : Steady good)
    (desired : Finset Stream) (offer : Option (List Listed)) :
    Awake good (call.subscribed p desired offer) (some p) := by
  have taken : Awake good (call.update p (.taken desired)) (some p) :=
    awake.update steady (fun _ => rfl) fun different => absurd rfl different
  cases offer with
  | none => exact taken
  | some streams => exact taken.offer steady streams

theorem Awake.answer (awake : Awake good call none) (steady : Steady good)
    (found : call.people.get? p = some row) (lock : row.lock = none) (version : Nat) :
    Awake good (call.answer p row version) none := by
  rw [Call.answer]
  split
  case isTrue => exact awake
  case isFalse =>
    exact awake.relock steady found (by simp [Participant.aim, lock])
      (by simp [Participant.busy, lock])

theorem unlocked_row {f : Participant → Call}
    (stepped : ((call.people.get? p).bind fun row =>
      if row.lock = none then some (f row) else none) = some next) :
    ∃ row, call.people.get? p = some row ∧ row.lock = none ∧ f row = next := by
  obtain ⟨row, found, taken⟩ := Option.bind_eq_some_iff.mp stepped
  split at taken
  case isTrue free => exact ⟨row, found, free, Option.some.inj taken⟩
  case isFalse => cases taken

theorem Awake.lock (awake : Awake good call none) (steady : Steady good)
    (stepped : step call (.lock id) = some next) :
    Awake good next (Action.settles call (.lock id)) := by
  rw [step] at stepped
  rw [Action.settles]
  split at stepped
  case h_1 p found =>
    obtain ⟨row, -, -, rfl⟩ := unlocked_row stepped
    rw [found]
    refine Awake.reconcile ((awake.look p).ends steady found ?_) steady
    intro q _ different
    simp only [Task.wakes, decide_eq_false_iff_not]
    exact fun same => different (same ▸ rfl)
  case h_2 p streams found =>
    obtain ⟨row, -, -, rfl⟩ := unlocked_row stepped
    rw [found]
    exact ((awake.look p).ends steady found fun _ _ _ => rfl).offer steady streams
  case h_3 p version found =>
    obtain ⟨row, there, free, rfl⟩ := unlocked_row stepped
    rw [found]
    exact (awake.ends steady found fun _ _ _ => rfl).answer steady there free version
  case h_4 p found =>
    obtain ⟨row, -, -, rfl⟩ := unlocked_row stepped
    exact .of_waker ((awake.sound.becomes found (.destroying p)).update fun _ => rfl)
      (get?_becomes call id (.destroying p)) fun _ => rfl
  case h_5 => cases stepped

theorem Awake.step (awake : Awake good call none) (steady : Steady good)
    (succeeds : action.succeeds = true) (stepped : step call action = some next) :
    Awake good next (action.settles call) := by
  cases action with
  | join p =>
      rw [Streams.step] at stepped
      split at stepped
      case isTrue => cases stepped
      case isFalse new =>
        cases stepped
        refine awake.join steady ?_
        by_contra some
        exact new (Or.inl (Option.isSome_iff_ne_none.mpr some))
  | seat task =>
      rw [Streams.step] at stepped
      split at stepped
      case h_1 p found =>
        split at stepped
        case isTrue => cases stepped
        case isFalse =>
          split at stepped
          case isTrue =>
            cases stepped
            exact awake.ends steady found fun _ _ _ => rfl
          case isFalse =>
            cases stepped
            have sits : Awake good (call.becomes task (.seating p)) none :=
              awake.becomes steady found fun _ wakes => by cases wakes
            exact sits.same steady true call.ended
      case h_2 => cases stepped
  | seated task ok feed =>
      cases (succeeds : ok = true)
      rw [Streams.step] at stepped
      split at stepped
      case h_1 p found =>
        rw [if_pos rfl] at stepped
        split at stepped
        case isTrue => cases stepped
        case isFalse unused =>
          obtain ⟨row, -, rfl⟩ := Option.map_eq_some_iff.mp stepped
          exact .of_waker (awake.sound.seated found (Bool.eq_false_iff.mpr unused))
            (get?_becomes call task .replying) fun _ => rfl
      case h_2 => cases stepped
  | replied task =>
      rw [Streams.step] at stepped
      split at stepped
      case h_1 =>
        cases stepped
        exact .reconcileAll (awake.sound.ends task)
      case h_2 => cases stepped
  | publish p mlines tracks =>
      rw [Streams.step] at stepped
      split at stepped
      case h_1 =>
        split at stepped
        case isTrue =>
          obtain ⟨sources, -, rfl⟩ := Option.map_eq_some_iff.mp stepped
          exact awake.spawn steady _
        case isFalse => cases stepped
      case h_2 => cases stepped
  | configured task ok =>
      cases (succeeds : ok = true)
      rw [Streams.step] at stepped
      split at stepped
      case h_1 p mids sources found =>
        cases stepped
        rw [if_pos rfl]
        have published : Sound (call.update p fun row =>
            { row with
              streamSources := sources
              pubMids := mids }) :=
          awake.sound.update fun _ => rfl
        exact .of_waker (published.becomes found .announcing)
          (get?_becomes _ task .announcing) fun _ => rfl
      case h_2 => cases stepped
  | announced task =>
      rw [Streams.step] at stepped
      split at stepped
      case h_1 =>
        cases stepped
        exact .reconcileAll (awake.sound.ends task)
      case h_2 => cases stepped
  | media p up =>
      cases stepped
      exact .reconcileAll (awake.sound.update fun _ => rfl)
  | answer p version =>
      rw [Streams.step] at stepped
      split at stepped
      case isTrue =>
        cases stepped
        exact awake.spawn steady _
      case isFalse => cases stepped
  | renegotiate p streams =>
      cases stepped
      exact awake.spawn steady _
  | lock task => exact awake.lock steady stepped
  | attached p ok =>
      cases (succeeds : ok = true)
      rw [Streams.step] at stepped
      split at stepped
      case h_1 desired held =>
        obtain ⟨row, found, lock⟩ := locked_row held
        cases stepped
        exact awake.relock steady found (by simp [Participant.aim, lock])
          (by simp [Participant.busy, lock])
      case h_2 => cases stepped
  | subscribed p ok offer =>
      cases (succeeds : ok = true)
      rw [Streams.step] at stepped
      split at stepped
      case h_1 desired _ =>
        cases stepped
        exact (awake.look p).subscribed steady desired offer
      case h_2 desired _ =>
        cases stepped
        exact (awake.look p).subscribed steady desired offer
      case h_3 => cases stepped
  | detached p =>
      rw [Streams.step] at stepped
      split at stepped
      case h_1 held =>
        obtain ⟨row, found, lock⟩ := locked_row held
        cases stepped
        exact awake.relock steady found (by simp [Participant.aim, lock])
          (by simp [Participant.busy, lock])
      case h_2 =>
        cases stepped
        exact (awake.look p).resubscribe steady
      case h_3 =>
        cases stepped
        refine Awake.resubscribe ((awake.look p).update steady (fun _ => rfl) ?_) steady
        exact fun different => absurd rfl different
      case h_4 => cases stepped
  | sent p =>
      rw [Streams.step] at stepped
      split at stepped
      case h_1 held =>
        obtain ⟨row, found, lock⟩ := locked_row held
        cases stepped
        exact awake.relock steady found (by simp [Participant.aim, lock])
          (by simp [Participant.busy, lock])
      case h_2 => cases stepped
  | started p ok =>
      cases (succeeds : ok = true)
      obtain ⟨row, found, taken⟩ := Option.bind_eq_some_iff.mp stepped
      split at taken
      case h_1 lock =>
        cases taken
        exact awake.started steady found lock
      case h_2 => cases taken
  | remove p onlyIfDetached =>
      cases stepped
      exact awake.spawn steady _
  | removing task =>
      rw [Streams.step] at stepped
      split at stepped
      case h_1 p onlyIfDetached found =>
        split at stepped
        case isTrue => cases stepped
        case isFalse =>
          split at stepped
          case isTrue =>
            cases stepped
            exact awake.ends steady found fun _ _ _ => rfl
          case isFalse =>
            cases stepped
            exact .of_waker ((awake.sound.becomes found (.closing p)).without p)
              (get?_becomes call task (.closing p)) fun _ => rfl
      case h_2 => cases stepped
  | destroyed task =>
      rw [Streams.step] at stepped
      split at stepped
      case h_1 p found =>
        cases stepped
        exact .of_waker ((awake.sound.becomes found .telling).update fun _ => rfl)
          (get?_becomes call task .telling) fun _ => rfl
      case h_2 => cases stepped
  | told task =>
      rw [Streams.step] at stepped
      split at stepped
      case h_1 found =>
        cases stepped
        split
        case isTrue =>
          exact .of_waker ((awake.sound.becomes found .ending).same call.locked true)
            (get?_becomes call task .ending) fun _ => rfl
        case isFalse =>
          exact .of_waker ((awake.sound.becomes found .leaving).same false call.ended)
            (get?_becomes call task .leaving) fun _ => rfl
      case h_2 => cases stepped
  | callEnded task =>
      rw [Streams.step] at stepped
      split at stepped
      case h_1 found =>
        cases stepped
        exact .of_waker ((awake.sound.becomes found .leaving).same false call.ended)
          (get?_becomes call task .leaving) fun _ => rfl
      case h_2 => cases stepped
  | left task read =>
      cases (succeeds : read = true)
      rw [Streams.step] at stepped
      split at stepped
      case h_1 =>
        cases stepped
        exact .reconcileAll (awake.sound.ends task)
      case h_2 => cases stepped
  | disconnect p =>
      cases stepped
      exact awake.update steady (fun _ => rfl) fun _ _ _ =>
        ⟨rfl, rfl, rfl, rfl, fun deferred => deferred⟩
  | resume p =>
      rw [Streams.step] at stepped
      split at stepped
      case isTrue =>
        cases stepped
        exact awake.update steady (fun _ => rfl) fun _ _ _ =>
          ⟨rfl, rfl, rfl, rfl, fun deferred => deferred⟩
      case isFalse => cases stepped

end

/-! ### What a participant is subscribed to -/

def Fair : Good := fun call p row => row.aim = call.desired p

theorem steady_fair : Steady Fair where
  kept {call next p row later} shows like fair := by
    rw [Fair, like.aim, shows.desired p]
    exact fair

/-- The participant is served, or is to be woken. -/
def Settled (call : Call) (p : ParticipantId) : Prop :=
  ∀ row, call.people.get? p = some row → Fair call p row ∨ Woken call p

theorem Awake.settled (awake : Awake Fair call none) (member : p ∈ call.participants) :
    Settled call p :=
  awake.served p member (by simp)

theorem Settled.update (settled : Settled call p) {write : Participant → Participant}
    (shown : ∀ row, (write row).shown = row.shown)
    (kept : ∀ row, call.people.get? p = some row →
      (write row).aim = row.aim ∧ (row.deferred = true → (write row).deferred = true)) :
    Settled (call.update p write) p := by
  intro later there
  rw [get?_update, Option.map_eq_some_iff] at there
  obtain ⟨row, found, rfl⟩ := there
  rw [if_pos rfl]
  obtain ⟨aim, deferred⟩ := kept row found
  rcases settled row found with fair | woken
  · left
    rw [Fair, aim, (Shows.update shown).desired p]
    exact fair
  · right
    obtain tasks | ⟨other, there, waits⟩ := woken.woken
    · exact ⟨Or.inl tasks⟩
    · cases found.symm.trans there
      refine ⟨Or.inr ⟨write row, ?_, deferred waits⟩⟩
      rw [get?_update, found, Option.map_some, if_pos rfl]

theorem Settled.ends (settled : Settled call p) (found : call.tasks.get? id = some task)
    (idle : task.wakes p = false) : Settled (call.ends id) p := by
  intro row there
  refine (settled row there).imp (fun fair => fair) fun woken => ?_
  obtain ⟨other, waking, there, wakes⟩ | deferred := woken.woken
  · refine ⟨Or.inl ⟨other, waking, ?_, wakes⟩⟩
    rw [Call.ends, Table.get?_filter_kept, there]
    refine fun _ => decide_eq_true fun same => ?_
    rw [same, found] at there
    cases there
    rw [idle] at wakes
    cases wakes
  · exact ⟨Or.inr deferred⟩

/-- Whatever the reconcile finds, it serves the participant or has it woken later. -/
theorem Settled.reconcile (found : call.people.get? p = some row) (free : row.lock = none)
    (member : p ∈ call.participants) : Settled (call.reconcile p row) p := by
  have held (hold : Hold) (aim : { row with lock := some hold }.aim = call.desired p) :
      Settled (call.hold p hold) p := by
    intro later there
    rw [Call.hold, get?_update, found, Option.map_some, if_pos rfl] at there
    cases there
    left
    rw [Fair, aim, Call.hold, Shows.desired (.update _)]
    exact fun _ => rfl
  rw [Call.reconcile, if_neg (not_not_intro member)]
  split
  case isTrue pending =>
    intro later there
    right
    rw [get?_update, found, Option.map_some, if_pos rfl] at there
    cases there
    refine ⟨Or.inr ⟨{ row with subDirty := true }, ?_, ?_⟩⟩
    · rw [get?_update, found, Option.map_some, if_pos rfl]
    · simp [Participant.deferred, pending]
  case isFalse =>
    split
    case isTrue same =>
      intro later there
      cases found.symm.trans there
      left
      rw [Fair, same]
      simp [Participant.aim, free]
    case isFalse =>
      split
      case isTrue => exact held _ rfl
      case isFalse => exact held _ rfl

theorem Settled.offer (settled : Settled call p)
    (free : ∀ row, call.people.get? p = some row → row.lock = none) (streams : List Listed) :
    Settled (call.offer p streams) p := by
  refine settled.update (fun _ => rfl) fun row found => ⟨?_, fun deferred => ?_⟩
  · simp [Participant.aim, free row found]
  · simp only [Participant.deferred, Bool.and_eq_true] at deferred ⊢
    exact ⟨rfl, deferred.2⟩

theorem Settled.subscribed (settled : Settled call p) (found : call.people.get? p = some row)
    {desired : Finset Stream} (aim : row.aim = desired) (offer : Option (List Listed)) :
    Settled (call.subscribed p desired offer) p := by
  have taken : Settled (call.update p (.taken desired)) p := by
    refine settled.update (fun _ => rfl) fun other there => ?_
    cases found.symm.trans there
    exact ⟨aim.symm, fun deferred => deferred⟩
  cases offer with
  | none => exact taken
  | some streams =>
      refine taken.offer (fun other there => ?_) streams
      rw [get?_update, found, Option.map_some, if_pos rfl] at there
      cases there
      rfl

theorem reconcile_participants (call : Call) (p : ParticipantId) (row : Participant) :
    (call.reconcile p row).participants = call.participants := by
  rw [Call.reconcile]
  repeat' split
  all_goals rfl

theorem subscribed_participants (call : Call) (p : ParticipantId) (desired : Finset Stream)
    (offer : Option (List Listed)) :
    (call.subscribed p desired offer).participants = call.participants := by
  cases offer <;> rfl

/-- A step that settles a participant is its reconcile's, its offer's or its subscription's. -/
theorem settles_cases {motive : Prop} (stepped : step call action = some next)
    (settles : action.settles call = some p) (succeeds : action.succeeds = true)
    (reconcile : ∀ id row, action = .lock id → call.tasks.get? id = some (.reconcile p) →
      call.people.get? p = some row → row.lock = none →
      next = (call.ends id).reconcile p row → motive)
    (offer : ∀ id streams row, action = .lock id →
      call.tasks.get? id = some (.offer p streams) → call.people.get? p = some row →
      row.lock = none → next = (call.ends id).offer p streams → motive)
    (subscribed : ∀ row desired streams, action = .subscribed p true streams →
      call.people.get? p = some row → row.busy = true → row.aim = desired →
      next = call.subscribed p desired streams → motive) : motive := by
  cases action with
  | lock id =>
      rw [step] at stepped
      rw [Action.settles] at settles
      split at stepped
      case h_1 q found =>
        obtain ⟨row, there, free, rfl⟩ := unlocked_row stepped
        rw [found] at settles
        cases settles
        exact reconcile id row rfl found there free rfl
      case h_2 q streams found =>
        obtain ⟨row, there, free, rfl⟩ := unlocked_row stepped
        rw [found] at settles
        cases settles
        exact offer id streams row rfl found there free rfl
      case h_3 found =>
        rw [found] at settles
        cases settles
      case h_4 found =>
        rw [found] at settles
        cases settles
      case h_5 => cases stepped
  | subscribed q ok streams =>
      cases (succeeds : ok = true)
      cases settles
      rw [step] at stepped
      split at stepped
      case h_1 desired held =>
        obtain ⟨row, found, lock⟩ := locked_row held
        cases stepped
        exact subscribed row desired streams rfl found (by rw [Participant.busy, lock])
          (by rw [Participant.aim, lock]) rfl
      case h_2 desired held =>
        obtain ⟨row, found, lock⟩ := locked_row held
        cases stepped
        exact subscribed row desired streams rfl found (by rw [Participant.busy, lock])
          (by rw [Participant.aim, lock]) rfl
      case h_3 => cases stepped
  | _ => cases settles

theorem settles_participants (stepped : step call action = some next)
    (settles : action.settles call = some p) (succeeds : action.succeeds = true) :
    next.participants = call.participants := by
  refine settles_cases stepped settles succeeds ?_ ?_ ?_
  · rintro id row - - - - rfl
    exact reconcile_participants (call.ends id) p row
  · rintro id streams row - - - - rfl
    rfl
  · rintro row desired streams - - - - rfl
    exact subscribed_participants call p desired streams

theorem Awake.settles (awake : Awake Fair call none) (succeeds : action.succeeds = true)
    (stepped : Streams.step call action = some next) (settles : action.settles call = some p)
    (member : p ∈ call.participants) : Settled next p := by
  have settled := awake.settled member
  refine settles_cases stepped settles succeeds ?_ ?_ ?_
  · rintro id row - - found free rfl
    exact .reconcile found free member
  · rintro id streams row - task found free rfl
    refine (settled.ends task rfl).offer (fun other there => ?_) streams
    cases found.symm.trans there
    exact free
  · rintro row desired streams - found - aim rfl
    exact settled.subscribed found aim streams

theorem Awake.step_fair (awake : Awake Fair call none) (succeeds : action.succeeds = true)
    (stepped : Streams.step call action = some next) : Awake Fair next none := by
  have others := awake.step steady_fair succeeds stepped
  cases settles : action.settles call with
  | none => rwa [settles] at others
  | some p =>
      rw [settles] at others
      refine others.seen fun member => ?_
      rw [settles_participants stepped settles succeeds] at member
      exact awake.settles succeeds stepped settles member

theorem awake_start (good : Good) : Awake good .start none := by
  refine ⟨⟨fun id task found => ?_, fun p member => ?_, fun p member => ?_⟩,
    fun p member => ?_⟩
  · cases found
  · cases member
  · cases member
  · cases member

/-- No task, no command and no offer is left. -/
structure Quiet (call : Call) : Prop where
  idle : call.tasks.rows = []
  free : ∀ row ∈ call.people.values, row.lock = none
  answered : ∀ p ∈ call.participants, (call.people.get? p).bind (·.subPending) = none

theorem Quiet.not_woken (quiet : Quiet call) (member : p ∈ call.participants) :
    ¬ Woken call p := by
  intro woken
  obtain ⟨id, task, found, -⟩ | ⟨row, found, deferred⟩ := woken.woken
  · have there := Table.mem_rows.mpr found
    rw [quiet.idle] at there
    cases there
  · have answered : row.subPending = none := by simpa [found] using quiet.answered p member
    simp [Participant.deferred, answered] at deferred

theorem awake_run {actions : List Action}
    (reached : Transition.run step .start actions = some call)
    (succeed : Transition.Along step (fun _ action => action.succeeds = true) .start actions) :
    Awake Fair call none :=
  @Transition.run_invariant _ _ step (fun _ action => action.succeeds = true)
    (fun call => Awake Fair call none)
    (fun awake succeeds stepped => awake.step_fair succeeds stepped) _ _ _
    (awake_start Fair) succeed reached

theorem mem_streamsOf {stream : Stream} :
    stream ∈ call.streamsOf q ↔ ∃ other, call.people.get? q = some other ∧
      other.mediaUp = true ∧ other.feedId = stream.1 ∧
      other.streamSources.contains stream.2 = true := by
  rw [Call.streamsOf]
  cases call.people.get? q with
  | none => simp
  | some other =>
      obtain ⟨feed, mid⟩ := stream
      rw [Option.elim_some]
      split
      case isTrue up =>
        simp [up, Table.contains_iff, ← Table.mem_rows, and_comm]
      case isFalse down => simp [down]

/-- Once a call is quiet, each participant is subscribed to the streams of all the others whose
media is up. -/
theorem subscriptions_not_stale {actions : List Action}
    (reached : Transition.run step .start actions = some call)
    (succeed : Transition.Along step (fun _ action => action.succeeds = true) .start actions)
    (quiet : Quiet call) :
    ∀ p ∈ call.participants, ∃ row, call.people.get? p = some row ∧ ∀ stream,
      stream ∈ row.subStreams ↔ ∃ q ∈ call.participants, q ≠ p ∧
        ∃ other, call.people.get? q = some other ∧ other.mediaUp = true ∧
          other.feedId = stream.1 ∧ other.streamSources.contains stream.2 = true := by
  intro p member
  have awake := awake_run reached succeed
  obtain ⟨row, found⟩ := awake.sound.known p member
  refine ⟨row, found, fun stream => ?_⟩
  have fair : Fair call p row :=
    (awake.settled member row found).resolve_right (quiet.not_woken member)
  have subscribed : row.subStreams = call.desired p := by
    rw [← show Fair call p row from fair]
    simp [Participant.aim, quiet.free row (Table.mem_values.mpr ⟨p, found⟩)]
  rw [subscribed, mem_desired]
  simp only [mem_streamsOf]

def twoJoin : List Action :=
  [.join 0, .seat 0, .seated 0 true 10, .replied 0, .lock 1,
    .join 1, .seat 2, .seated 2 true 20, .replied 2, .lock 3, .lock 4]

/-- The camera is on and offered, then the microphone is added before the answer. -/
def micWhilePending : List Action :=
  twoJoin ++
    [.publish 0 [⟨"0", some .video, true⟩] none, .configured 5 true, .announced 5, .lock 6, .lock 7,
      .media 0 true, .lock 8, .lock 9, .attached 1 true,
      .subscribed 1 true (some [⟨10, "0", true, some .video⟩]), .sent 1,
      .publish 0 [⟨"0", some .video, true⟩, ⟨"1", some .audio, true⟩] none, .configured 10 true,
      .announced 10, .lock 11, .lock 12,
      .answer 1 1, .lock 13, .started 1 true, .lock 14,
      .subscribed 1 true (some [⟨10, "0", true, some .video⟩, ⟨10, "1", true, some .audio⟩]),
      .sent 1, .answer 1 2, .lock 15, .started 1 true]

theorem mic_reaches_the_other : ∃ call, Transition.run step .start micWhilePending = some call ∧
    ∃ row, call.people.get? 1 = some row ∧ (10, "1") ∈ row.subStreams := by
  have reached : ∃ call, Transition.run step .start micWhilePending = some call ∧
      call.tasks.rows = [] ∧ (∀ row ∈ call.people.values, row.lock = none) ∧
      (∀ p ∈ call.participants, (call.people.get? p).bind (·.subPending) = none) ∧
      1 ∈ call.participants ∧ 0 ∈ call.participants ∧
      (call.people.get? 0).any (fun other =>
        other.mediaUp ∧ other.feedId = 10 ∧ other.streamSources.contains "1") = true := by
    refine ⟨(Transition.run step .start micWhilePending).getD .start, ?_⟩
    decide +kernel
  obtain ⟨call, reached, idle, free, answered, member, publisher, shown⟩ := reached
  obtain ⟨row, found, subscribed⟩ := subscriptions_not_stale reached (by decide +kernel)
    ⟨idle, free, answered⟩ 1 member
  refine ⟨call, reached, row, found, (subscribed (10, "1")).mpr ⟨0, publisher, by decide, ?_⟩⟩
  obtain ⟨other, there, shows⟩ := (Option.any_eq_true _ _).mp shown
  exact ⟨other, there, of_decide_eq_true shows⟩

end Brook.Streams
