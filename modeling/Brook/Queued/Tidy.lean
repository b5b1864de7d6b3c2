import Brook.Queued.Kept
import Brook.Snapshot.Meaning

namespace Brook.Queued

open Aead Readers Snapshot

universe u

variable {Key : Type u} {setup : Setup Key} {store next : Store Key} {task : TaskId}

/-! Where no removal fails, nothing lies in `snap` but what a row names or a task is about
to queue or to unlink. -/

/-- The names whose files the task has not made yet. -/
def Stage.left : Stage Key → List Name
  | .copying _ left | .writing _ _ left => left
  | .looking | .discarding _ _ | .removing _ => []

structure Tidy (store : Store Key) : Prop where
  files : ∀ name bytes, store.snap.get? name = some bytes → ∃ owner, store.Owns owner name
  deletions : ∀ name ∈ store.deletions, ∃ task gone,
    store.removing.get? task = some gone ∧ name ∈ gone.names
  ahead : ∀ task sending, store.enqueuing.get? task = some sending →
    ∀ name ∈ sending.stage.left, store.snap.get? name = none

/-- The process goes on, and what it removes goes. -/
def Action.Clean : Action Key → Prop
  | .discard _ removed | .unlink _ removed | .unlinkGone _ removed => removed = true
  | .clear _ kept => kept = []
  | .reopen stuck listed kept => stuck = [] ∧ listed = true ∧ kept = []
  | .crash _ => False
  | _ => True

theorem Stage.names_of_left {stage : Stage Key} {name : Name} (member : name ∈ stage.left) :
    name ∈ stage.names := by
  cases stage with
  | looking | discarding | removing => cases member
  | copying => exact List.mem_append_right _ member
  | writing => exact List.mem_append_right _ (List.mem_cons_of_mem _ member)

theorem get?_unlink {name other : Name} :
    (store.unlink name true).snap.get? other =
      if other = name then none else store.snap.get? other := by
  split
  case isTrue same =>
    rw [Store.unlink, if_pos rfl, Table.get?_filter, same]
    cases store.snap.get? name <;> simp
  case isFalse different => exact Sound.unlink_frame different

namespace Tidy

/-- A task gives up only names that have no file. -/
theorem moves (tidy : Tidy store) (sound : Sound setup store) {sending : Enqueuing Key}
    {stage : Stage Key} {snap : Table Name Bytes} {synced : List Name}
    (found : store.enqueuing.get? task = some sending)
    (frame : ∀ name, name ∉ sending.stage.names → snap.get? name = store.snap.get? name)
    (lost : ∀ name ∈ sending.stage.names, name ∉ stage.names → snap.get? name = none)
    (ahead : ∀ name ∈ stage.left, snap.get? name = none) :
    Tidy ({ store with snap, synced }.move task sending stage) where
  files name bytes there := by
    have there : snap.get? name = some bytes := there
    by_cases mine : name ∈ stage.names
    · exact ⟨.enqueuing task, _, Table.get?_put_self _ _ _, mine⟩
    · by_cases was : name ∈ sending.stage.names
      · rw [lost name was mine] at there
        cases there
      · rw [frame name was] at there
        obtain ⟨owner, owned⟩ := tidy.files name bytes there
        refine ⟨owner, ?_⟩
        cases owner with
        | row id => exact owned
        | removing other => exact owned
        | enqueuing other =>
            obtain ⟨row, found', member⟩ := owned
            refine ⟨row, ?_, member⟩
            rw [Store.move, Table.get?_put_ne, found']
            rintro rfl
            cases found.symm.trans found'
            exact was member
  deletions := tidy.deletions
  ahead other row there name member := by
    simp only [Store.move, Table.get?_put] at there
    split at there
    case isTrue =>
      cases there
      exact ahead name member
    case isFalse different =>
      refine (frame name fun mine => different ?_).trans (tidy.ahead other row there name member)
      have := sound.unique (.enqueuing other) (.enqueuing task) name
        ⟨row, there, Stage.names_of_left member⟩ ⟨sending, found, mine⟩
      exact Owner.enqueuing.inj this

theorem keeps (tidy : Tidy store) (snap : next.snap = store.snap)
    (owns : ∀ owner name bytes, store.snap.get? name = some bytes → store.Owns owner name →
      ∃ other, next.Owns other name)
    (deletions : ∀ name ∈ next.deletions, ∃ task gone,
      next.removing.get? task = some gone ∧ name ∈ gone.names)
    (ahead : ∀ task sending, next.enqueuing.get? task = some sending →
      ∀ name ∈ sending.stage.left, store.snap.get? name = none) : Tidy next where
  files name bytes there := by
    rw [snap] at there
    obtain ⟨owner, owned⟩ := tidy.files name bytes there
    exact owns owner name bytes there owned
  deletions := deletions
  ahead task sending there name member := by
    rw [snap]
    exact ahead task sending there name member

/-- A task that has nothing to unlink ends. -/
theorem ends (tidy : Tidy store) {sending : Enqueuing Key}
    (found : store.enqueuing.get? task = some sending) (done : sending.stage.names = []) :
    Tidy (store.ends task) := by
  refine tidy.keeps rfl (fun owner name bytes _ owned => ⟨owner, ?_⟩) tidy.deletions
    fun other row there => ?_
  · cases owner with
    | row id => exact owned
    | removing other => exact owned
    | enqueuing other =>
        obtain ⟨row, there, member⟩ := owned
        refine ⟨row, ?_, member⟩
        rw [Store.ends, Table.get?_filter_kept, there]
        refine fun _ => decide_eq_true fun same => ?_
        rw [same] at there
        cases found.symm.trans there
        rw [done] at member
        cases member
  · rw [Store.ends, Table.get?_filter, Option.filter_eq_some_iff] at there
    exact tidy.ahead other row there.1

/-- What was never issued has no file. -/
theorem absent (tidy : Tidy store) (sound : Sound setup store) {name : Name}
    (fresh : name ∉ store.issued) : store.snap.get? name = none := by
  cases there : store.snap.get? name with
  | none => rfl
  | some bytes =>
      obtain ⟨owner, owned⟩ := tidy.files name bytes there
      exact (fresh (sound.issued owner name owned)).elim

theorem plans (tidy : Tidy store) (sound : Sound setup store) {sending : Enqueuing Key}
    {names : List Name} (free : ∀ old, store.enqueuing.get? task = some old → old.stage.names = [])
    (fresh : ∀ name ∈ names, name ∉ store.issued) (left : sending.stage.left = names) :
    Tidy { store with
      enqueuing := store.enqueuing.put task sending
      issued := names ++ store.issued } := by
  refine tidy.keeps rfl (fun owner name bytes _ owned => ⟨owner, ?_⟩) tidy.deletions
    fun other row there name member => ?_
  · cases owner with
    | row id => exact owned
    | removing other => exact owned
    | enqueuing other =>
        obtain ⟨row, there, member⟩ := owned
        refine ⟨row, ?_, member⟩
        rw [Table.get?_put_ne, there]
        rintro rfl
        rw [free row there] at member
        cases member
  · rw [Table.get?_put] at there
    split at there
    case isTrue =>
      cases there
      rw [left] at member
      exact tidy.absent sound (fresh name member)
    case isFalse => exact tidy.ahead other row there name member

theorem giveUp (tidy : Tidy store) (sound : Sound setup store) {sending : Enqueuing Key}
    {made : List (Name × Written Key)} {left : List Name}
    (found : store.enqueuing.get? task = some sending)
    (stage : sending.stage = .copying made left) : Tidy (store.giveUp task sending made) := by
  refine tidy.moves sound found (fun _ _ => rfl) (fun name member gone => ?_)
    fun _ member => by cases member
  rw [stage] at member
  obtain kept | ahead := List.mem_append.mp member
  · exact (gone kept).elim
  · refine tidy.ahead task sending found name ?_
    rw [stage]
    exact ahead

theorem create (tidy : Tidy store) (sound : Sound setup store) {sending : Enqueuing Key}
    {made : List (Name × Written Key)} {name : Name} {left : List Name} {bytes : Bytes}
    (found : store.enqueuing.get? task = some sending)
    (stage : sending.stage = .copying made (name :: left) ∨
      sending.stage = .writing made name left) :
    Tidy ({ store with snap := store.snap.put name bytes }.move task sending
      (.writing made name left)) := by
  have nodup := sound.nodup task sending found
  have ahead := tidy.ahead task sending found
  have names : sending.stage.names = made.map Prod.fst ++ name :: left := by
    obtain stage | stage := stage <;> rw [stage] <;> rfl
  have rest : ∀ other ∈ left, other ∈ sending.stage.left := by
    intro other member
    obtain stage | stage := stage <;> rw [stage]
    · exact List.mem_cons_of_mem _ member
    · exact member
  rw [names] at nodup
  have apart : name ∉ left := (List.nodup_cons.mp (List.nodup_append'.mp nodup).2.1).1
  refine tidy.moves sound found (fun other absent => ?_) (fun other member gone => ?_)
    fun other member => ?_
  · refine Table.get?_put_ne _ _ fun same => absent ?_
    rw [names, same]
    exact List.mem_append_right _ List.mem_cons_self
  · rw [names] at member
    exact (gone member).elim
  · rw [Table.get?_put_ne]
    · exact ahead other (rest other member)
    · rintro rfl
      exact apart member

theorem copy (tidy : Tidy store) (sound : Sound setup store) {sending : Enqueuing Key}
    {made : List (Name × Written Key)} {name : Name} {left : List Name} {synced : List Name}
    {written : Written Key} {bytes : Bytes}
    (found : store.enqueuing.get? task = some sending)
    (stage : sending.stage = .writing made name left) :
    Tidy ({ store with snap := store.snap.put name bytes, synced }.move task sending
        (.copying (made ++ [(name, written)]) left)) := by
  have nodup := sound.nodup task sending found
  have ahead := tidy.ahead task sending found
  rw [stage] at nodup ahead
  have names : (Stage.copying (made ++ [(name, written)]) left).names =
      made.map Prod.fst ++ name :: left := by
    simp [Stage.names]
  have apart : name ∉ left := (List.nodup_cons.mp (List.nodup_append'.mp nodup).2.1).1
  refine tidy.moves sound found (fun other absent => ?_) (fun other member gone => ?_)
    fun other member => ?_
  · refine Table.get?_put_ne _ _ fun same => absent ?_
    rw [stage, same]
    exact List.mem_append_right _ List.mem_cons_self
  · rw [stage] at member
    rw [names] at gone
    exact (gone member).elim
  · rw [Table.get?_put_ne]
    · exact ahead other member
    · rintro rfl
      exact apart member

/-- The file of the name goes with the name. -/
theorem unlinks (tidy : Tidy store) (sound : Sound setup store) {sending : Enqueuing Key}
    {name : Name} {names : List Name} (found : store.enqueuing.get? task = some sending)
    (own : name ∈ sending.stage.names)
    (rest : ∀ other ∈ sending.stage.names, other = name ∨ other ∈ names) :
    Tidy ((store.unlink name true).move task sending (.removing names)) := by
  rw [Sound.unlink_eq]
  refine tidy.moves sound found
    (fun other absent => Sound.unlink_frame fun same => absent (same ▸ own))
    (fun other member gone => ?_) fun _ member => by cases member
  obtain rfl | kept := rest other member
  · rw [get?_unlink, if_pos rfl]
  · exact (gone kept).elim

theorem discards (tidy : Tidy store) (sound : Sound setup store) {sending : Enqueuing Key}
    {made : List (Name × Written Key)} {name : Name} {left : List Name}
    (found : store.enqueuing.get? task = some sending)
    (stage : sending.stage = .writing made name left) :
    Tidy (store.move task sending (.discarding made name)) := by
  refine tidy.moves sound found (fun _ _ => rfl) (fun other member gone => ?_)
    fun _ member => by cases member
  refine tidy.ahead task sending found other ?_
  rw [stage] at member ⊢
  obtain kept | ahead := List.mem_append.mp member
  · exact (gone (List.mem_append_left _ kept)).elim
  · obtain rfl | ahead := List.mem_cons.mp ahead
    · exact (gone (List.mem_append_right _ (List.mem_singleton.mpr rfl))).elim
    · exact ahead

theorem inserts (tidy : Tidy store) (sound : Sound setup store) {sending : Enqueuing Key}
    {made : List (Name × Written Key)} (found : store.enqueuing.get? task = some sending)
    (stage : sending.stage = .copying made []) :
    Tidy (store.insert setup.chunk task sending made) := by
  rw [Store.insert]
  split
  · exact tidy.giveUp sound found stage
  · refine tidy.keeps rfl (fun owner name bytes _ owned => ?_) tidy.deletions
      fun other row there => ?_
    · cases owner with
      | row id =>
          obtain ⟨row, member, rest⟩ := owned
          exact ⟨.row id, row, List.mem_append_left _ member, rest⟩
      | removing other => exact ⟨.removing other, owned⟩
      | enqueuing other =>
          obtain ⟨row, there, member⟩ := owned
          by_cases same : other = task
          · subst same
            cases found.symm.trans there
            rw [stage, Stage.names, List.append_nil] at member
            obtain ⟨file, its, rfl⟩ := List.mem_map.mp member
            exact ⟨.row sending.clientId, _, List.mem_append_right _ (List.mem_map_of_mem its),
              rfl, rfl⟩
          · refine ⟨.enqueuing other, row, ?_, member⟩
            rw [Store.ends, Table.get?_filter_kept, there]
            exact fun _ => decide_eq_true same
    · rw [Store.ends, Table.get?_filter, Option.filter_eq_some_iff] at there
      exact tidy.ahead other row there.1

theorem removes (tidy : Tidy store) (id : ClientId) (fresh : store.removing.get? task = none) :
    Tidy (store.remove task id) := by
  have named : ∀ row ∈ store.fileRows, row.clientId = id →
      row.fileClientId ∈ store.namesOf id := by
    intro row member mine
    exact List.mem_map_of_mem (List.mem_filter.mpr ⟨member, decide_eq_true mine⟩)
  have kept : ∀ other gone, store.removing.get? other = some gone →
      (store.remove task id).removing.get? other = some gone := by
    intro other gone there
    simp only [Store.remove]
    split
    · exact there
    · rw [Table.get?_put_ne, there]
      rintro rfl
      cases fresh.symm.trans there
  have taken : ∀ name ∈ store.namesOf id,
      (store.remove task id).removing.get? task = some ⟨store.namesOf id, store.namesOf id⟩ := by
    intro name member
    simp only [Store.remove]
    rw [if_neg (List.ne_nil_of_mem member), Table.get?_put_self]
  refine tidy.keeps rfl (fun owner name bytes _ owned => ?_) (fun name member => ?_) tidy.ahead
  · cases owner with
    | enqueuing other => exact ⟨.enqueuing other, owned⟩
    | removing other =>
        obtain ⟨gone, there, member⟩ := owned
        exact ⟨.removing other, gone, kept other gone there, member⟩
    | row other =>
        obtain ⟨row, member, rfl, rfl⟩ := owned
        by_cases mine : row.clientId = id
        · have listed := named row member mine
          exact ⟨.removing task, _, taken _ listed, listed⟩
        · exact ⟨.row row.clientId, row,
            List.mem_filter.mpr ⟨member, decide_eq_true mine⟩, rfl, rfl⟩
  · obtain old | new := List.mem_append.mp member
    · obtain ⟨other, gone, there, listed⟩ := tidy.deletions name old
      exact ⟨other, gone, kept other gone there, listed⟩
    · have listed := (List.mem_filter.mp new).1
      exact ⟨task, _, taken name listed, listed⟩

theorem unlinksGone (tidy : Tidy store) {names left : List Name} {name : Name}
    (found : store.removing.get? task = some ⟨names, name :: left⟩) :
    Tidy { store.unlink name true with
      removing := store.removing.put task ⟨names, left⟩ } := by
  rw [Sound.unlink_eq]
  refine ⟨fun other bytes there => ?_, fun other member => ?_, fun another sending there other
    member => ?_⟩
  · rw [get?_unlink] at there
    split at there
    case isTrue => cases there
    case isFalse different =>
      obtain ⟨owner, owned⟩ := tidy.files other bytes there
      refine ⟨owner, ?_⟩
      cases owner with
      | row id => exact owned
      | enqueuing another => exact owned
      | removing another =>
          obtain ⟨gone, there, member⟩ := owned
          by_cases same : another = task
          · subst same
            cases found.symm.trans there
            refine ⟨_, Table.get?_put_self _ _ _, ?_⟩
            exact (List.mem_cons.mp member).resolve_left different
          · exact ⟨gone, (Table.get?_put_ne _ _ same).trans there, member⟩
  · obtain ⟨another, gone, there, listed⟩ := tidy.deletions other member
    by_cases same : another = task
    · subst same
      cases found.symm.trans there
      exact ⟨another, _, Table.get?_put_self _ _ _, listed⟩
    · exact ⟨another, gone, (Table.get?_put_ne _ _ same).trans there, listed⟩
  · rw [get?_unlink]
    split
    · rfl
    · exact tidy.ahead another sending there other member

theorem clears (tidy : Tidy store) {names : List Name}
    (found : store.removing.get? task = some ⟨names, []⟩) :
    Tidy { store with
      deletions := store.deletions.filter fun name => name ∉ names ∨ name ∈ ([] : List Name)
      removing := store.removing.filter fun other _ => other ≠ task } := by
  have kept : ∀ other gone, other ≠ task → store.removing.get? other = some gone →
      (store.removing.filter fun another _ => another ≠ task).get? other = some gone := by
    intro other gone different there
    rw [Table.get?_filter_kept, there]
    exact fun _ => decide_eq_true different
  refine tidy.keeps rfl (fun owner name bytes _ owned => ⟨owner, ?_⟩) (fun name member => ?_)
    tidy.ahead
  · cases owner with
    | row id => exact owned
    | enqueuing another => exact owned
    | removing other =>
        obtain ⟨gone, there, member⟩ := owned
        refine ⟨gone, kept other gone ?_ there, member⟩
        rintro rfl
        cases found.symm.trans there
        cases member
  · obtain ⟨old, left⟩ := List.mem_filter.mp member
    obtain ⟨other, gone, there, listed⟩ := tidy.deletions name old
    refine ⟨other, gone, kept other gone ?_ there, listed⟩
    rintro rfl
    cases found.symm.trans there
    simp [listed] at left

theorem get?_reopen {name : Name} {bytes : Bytes}
    (there : (store.reopen [] true []).snap.get? name = some bytes) :
    store.snap.get? name = some bytes ∧ name ∈ store.live := by
  rw [Store.reopen, Table.get?_filter, Option.filter_eq_some_iff] at there
  refine ⟨there.1, ?_⟩
  have kept := of_decide_eq_true there.2
  exact (kept.resolve_left (by simp)).2 rfl

theorem deletions_reopen : (store.reopen [] true []).deletions = [] := by
  rw [Store.reopen, List.filter_eq_nil_iff]
  simp

/-- Whatever was left over goes when the outbox opens. -/
theorem reopens (sound : Sound setup store) (shut : store.opened = false) :
    Tidy (store.reopen [] true []) where
  files name bytes there := by
    obtain ⟨row, member, rfl⟩ := List.mem_map.mp (get?_reopen there).2
    exact ⟨.row row.clientId, row, member, rfl, rfl⟩
  deletions name member := by
    rw [deletions_reopen] at member
    cases member
  ahead task sending there := by
    rw [show (store.reopen [] true []).enqueuing = store.enqueuing from rfl,
      sound.closed shut task] at there
    cases there

theorem step (tidy : Tidy store) (sound : Sound setup store) {action : Action Key}
    (clean : action.Clean) (stepped : step setup store action = some next) : Tidy next := by
  cases action with
  | enqueue id channel =>
      simp only [Queued.step, Store.enqueue] at stepped
      split at stepped
      case isFalse => cases stepped
      case isTrue =>
        cases stepped
        split
        · exact tidy
        · exact ⟨tidy.files, tidy.deletions, tidy.ahead⟩
  | begin task id channel files =>
      simp only [Queued.step] at stepped
      split at stepped
      case isFalse => cases stepped
      case isTrue may =>
        cases stepped
        have none : ∀ name ∈ ([] : List Name), name ∉ store.issued := by simp
        refine tidy.plans sound (fun old there => ?_) none rfl
        exact (may.2.1 (Table.contains_iff.mpr ⟨old, there⟩)).elim
  | look task names read =>
      simp only [Queued.step] at stepped
      split at stepped
      case h_2 => cases stepped
      case h_1 id channel files found =>
        split at stepped
        case isTrue =>
          cases stepped
          exact tidy.ends found rfl
        case isFalse =>
          split at stepped
          case isTrue fresh =>
            cases stepped
            refine tidy.plans sound (fun old there => ?_) fresh.2.2 rfl
            cases found.symm.trans there
            rfl
          case isFalse => cases stepped
  | create task created =>
      simp only [Queued.step] at stepped
      split at stepped
      case h_2 => cases stepped
      case h_1 id channel files made name left found =>
        cases stepped
        split
        · exact tidy.create sound found (Or.inl rfl)
        · exact tidy.giveUp sound found rfl
  | part task bytes =>
      simp only [Queued.step] at stepped
      split at stepped
      case h_2 => cases stepped
      case h_1 id channel files made name left found =>
        cases stepped
        exact tidy.create sound found (Or.inr rfl)
  | copy task source synced =>
      simp only [Queued.step] at stepped
      split at stepped
      case h_2 => cases stepped
      case h_1 id channel files made name left found =>
        split at stepped
        case h_1 written bytes copied =>
          cases stepped
          split
          · exact tidy.copy sound found rfl
          · exact tidy.discards sound found rfl
        case h_2 =>
          cases stepped
          exact tidy.discards sound found rfl
  | discard task removed =>
      cases show removed = true from clean
      simp only [Queued.step] at stepped
      split at stepped
      case h_2 => cases stepped
      case h_1 id channel files made name found =>
        cases stepped
        refine tidy.unlinks sound found (List.mem_append_right _ (List.mem_singleton.mpr rfl))
          fun other member => ?_
        obtain made | last := List.mem_append.mp member
        · exact Or.inr made
        · exact Or.inl (List.mem_singleton.mp last)
  | unlink task removed =>
      cases show removed = true from clean
      simp only [Queued.step] at stepped
      split at stepped
      case h_1 id channel files name names found =>
        cases stepped
        exact tidy.unlinks sound found List.mem_cons_self fun _ member => List.mem_cons.mp member
      case h_2 id channel files found =>
        cases stepped
        exact tidy.ends found rfl
      case h_3 => cases stepped
  | insert task written =>
      simp only [Queued.step] at stepped
      split at stepped
      case h_2 => cases stepped
      case h_1 id channel files made found =>
        cases stepped
        split
        · exact tidy.inserts sound found rfl
        · exact tidy.giveUp sound found rfl
  | remove task id =>
      simp only [Queued.step] at stepped
      split at stepped
      case isFalse => cases stepped
      case isTrue may =>
        cases stepped
        refine tidy.removes id (Option.eq_none_iff_forall_not_mem.mpr fun gone there => may.2 ?_)
        exact Table.contains_iff.mpr ⟨gone, there⟩
  | unlinkGone task removed =>
      cases show removed = true from clean
      simp only [Queued.step] at stepped
      split at stepped
      case h_2 => cases stepped
      case h_1 names name left found =>
        cases stepped
        exact tidy.unlinksGone found
  | clear task kept =>
      cases show kept = [] from clean
      simp only [Queued.step] at stepped
      split at stepped
      case h_2 => cases stepped
      case h_1 names found =>
        cases stepped
        exact tidy.clears found
  | crash snap => cases show False from clean
  | reopen stuck listed kept =>
      obtain ⟨rfl, rfl, rfl⟩ : stuck = [] ∧ listed = true ∧ kept = [] := clean
      simp only [Queued.step] at stepped
      split at stepped
      case isTrue => cases stepped
      case isFalse shut =>
        cases stepped
        exact reopens sound (by simpa using shut)

end Tidy

/-! ### The queued snapshots -/

/-- The file of the row is what `write` answered the row's key, size and digest for. -/
def Store.Complete (setup : Setup Key) (store : Store Key) (row : FileRow Key) : Prop :=
  ∃ bytes, store.snap.get? row.fileClientId = some bytes ∧
    ∃ source : Source Key,
      source.write { setup with chunk := row.chunk } row.fileClientId = .ok (row.written, bytes)

/-- `snap` holds the snapshots of the rows, and the journal is empty. -/
structure Store.Exact (store : Store Key) : Prop where
  files : ∀ name, store.snap.contains name = true ↔ name ∈ store.live
  deletions : store.deletions = []

/-- No call is queuing files, and no removal is unlinking any. -/
structure Store.Quiet (store : Store Key) : Prop where
  enqueuing : ∀ task, store.enqueuing.get? task = none
  removing : ∀ task, store.removing.get? task = none

theorem Sound.complete (sound : Sound setup store) {row : FileRow Key}
    (member : row ∈ store.fileRows) : store.Complete setup row := by
  obtain ⟨-, bytes, found, source, copied⟩ := sound.rows row member
  refine ⟨bytes, found, source, ?_⟩
  rw [sound.chunk row member]
  exact copied

theorem Sound.contains_of_live (sound : Sound setup store) {name : Name}
    (live : name ∈ store.live) : store.snap.contains name = true := by
  obtain ⟨row, member, rfl⟩ := List.mem_map.mp live
  obtain ⟨bytes, found, -⟩ := sound.complete member
  exact Table.contains_iff.mpr ⟨bytes, found⟩

theorem Tidy.exact (tidy : Tidy store) (sound : Sound setup store) (quiet : store.Quiet) :
    store.Exact where
  files name := by
    refine ⟨fun there => ?_, sound.contains_of_live⟩
    obtain ⟨bytes, found⟩ := Table.contains_iff.mp there
    obtain ⟨owner, owned⟩ := tidy.files name bytes found
    cases owner with
    | row id =>
        obtain ⟨row, member, -, rfl⟩ := owned
        exact List.mem_map_of_mem member
    | enqueuing task =>
        obtain ⟨sending, there, -⟩ := owned
        cases (quiet.enqueuing task).symm.trans there
    | removing task =>
        obtain ⟨gone, there, -⟩ := owned
        cases (quiet.removing task).symm.trans there
  deletions := by
    rw [List.eq_nil_iff_forall_not_mem]
    intro name member
    obtain ⟨task, gone, there, -⟩ := tidy.deletions name member
    cases (quiet.removing task).symm.trans there

theorem fileRows_unlink {name : Name} {removed : Bool} :
    (store.unlink name removed).fileRows = store.fileRows := by
  rw [Store.unlink]
  split <;> rfl

theorem snap_insert {chunk : Nat} {sending : Enqueuing Key} {made : List (Name × Written Key)} :
    (store.insert chunk task sending made).snap = store.snap := by
  rw [Store.insert]
  split <;> rfl

/-- No step changes both the rows of the files and what lies in `snap`. -/
theorem rows_or_snap {action : Action Key} (stepped : step setup store action = some next) :
    next.fileRows = store.fileRows ∨ next.snap = store.snap := by
  cases action with
  | remove =>
      simp only [step] at stepped
      split at stepped <;> cases stepped
      exact Or.inr rfl
  | insert =>
      simp only [step] at stepped
      split at stepped <;> cases stepped
      split
      · exact Or.inr snap_insert
      · exact Or.inr rfl
  | enqueue =>
      simp only [step, Store.enqueue] at stepped
      split at stepped <;> cases stepped
      split <;> exact Or.inl rfl
  | begin | crash | clear | part =>
      simp only [step] at stepped
      split at stepped <;> cases stepped
      exact Or.inl rfl
  | reopen =>
      simp only [step] at stepped
      split at stepped <;> cases stepped
      exact Or.inl rfl
  | look =>
      simp only [step] at stepped
      split at stepped
      · split at stepped
        · cases stepped
          exact Or.inl rfl
        · split at stepped <;> cases stepped
          exact Or.inl rfl
      · cases stepped
  | create =>
      simp only [step] at stepped
      split at stepped <;> cases stepped
      split <;> exact Or.inl rfl
  | copy =>
      simp only [step] at stepped
      split at stepped
      · split at stepped <;> cases stepped
        · split <;> exact Or.inl rfl
        · exact Or.inl rfl
      · cases stepped
  | discard | unlinkGone =>
      simp only [step] at stepped
      split at stepped <;> cases stepped
      exact Or.inl fileRows_unlink
  | unlink =>
      simp only [step] at stepped
      split at stepped <;> cases stepped
      · exact Or.inl fileRows_unlink
      · exact Or.inl rfl

theorem Store.Complete.of_snap {row : FileRow Key} (complete : store.Complete setup row)
    (same : next.snap = store.snap) : next.Complete setup row := by
  obtain ⟨bytes, found, copied⟩ := complete
  exact ⟨bytes, same ▸ found, copied⟩

/-- Every row of a file has its complete snapshot from before it commits until after it is
removed; an `open` whose removals all go through leaves just the snapshots of the rows, and an
empty journal; and while removals go through this is so again whenever nothing is under way. -/
theorem queued_snapshots_kept (setup : Setup Key) (actions : List (Action Key))
    (store : Store Key)
    (reached : Transition.run (step setup) Store.start actions = some store) :
    (∀ row ∈ store.fileRows, store.Complete setup row) ∧
    (∀ action next, step setup store action = some next →
      (∀ row ∈ next.fileRows, store.Complete setup row) ∧
        ∀ row ∈ store.fileRows, next.Complete setup row) ∧
    ∀ next, step setup store (.reopen [] true []) = some next →
      next.Exact ∧ ∀ rest later,
        Transition.Along (step setup) (fun _ action => action.Clean) next rest →
        Transition.run (step setup) next rest = some later → later.Quiet → later.Exact := by
  have sound : Sound setup store :=
    Transition.run_invariant_of_step (fun sound stepped => sound.step stepped) Sound.start reached
  refine ⟨fun row member => sound.complete member, fun action next stepped => ?_,
    fun next reopened => ?_⟩
  · have after := sound.step stepped
    obtain rows | snap := rows_or_snap stepped
    · exact ⟨fun row member => sound.complete (rows ▸ member),
        fun row member => after.complete (rows ▸ member)⟩
    · exact ⟨fun row member => (after.complete member).of_snap snap.symm,
        fun row member => (sound.complete member).of_snap snap⟩
  · have after := sound.step reopened
    have shut : store.opened = false := by
      simp only [step] at reopened
      split at reopened
      · cases reopened
      · simpa using ‹¬ store.opened = true›
    have same : next = store.reopen [] true [] := by
      simp only [step, shut] at reopened
      exact (Option.some.inj reopened).symm
    subst same
    refine ⟨⟨fun name => ⟨fun there => ?_, after.contains_of_live⟩, Tidy.deletions_reopen⟩,
      fun rest later clean reached quiet => ?_⟩
    · obtain ⟨bytes, found⟩ := Table.contains_iff.mp there
      exact (Tidy.get?_reopen found).2
    · have preserved : ∀ {store : Store Key} {action : Action Key} {next : Store Key},
          Tidy store ∧ Sound setup store → action.Clean → step setup store action = some next →
            Tidy next ∧ Sound setup next :=
        fun both clean stepped => ⟨both.1.step both.2 clean stepped, both.2.step stepped⟩
      have both := @Transition.run_invariant _ _ (step setup) (fun _ action => action.Clean)
        (fun store => Tidy store ∧ Sound setup store) preserved _ _ _
        ⟨Tidy.reopens sound shut, after⟩ clean reached
      exact both.1.exact both.2 quiet

theorem step_copy {id : ClientId} {channel : ChannelId} {files : Nat}
    {made : List (Name × Written Key)} {name : Name} {left : List Name} {source : Source Key}
    {written : Written Key} {bytes : Bytes}
    (found : store.enqueuing.get? task = some ⟨id, channel, files, .writing made name left⟩)
    (copied : source.write setup name = .ok (written, bytes)) :
    step setup store (.copy task source true) =
      some ({ store with
        snap := store.snap.put name bytes
        synced := name :: store.synced }.move task ⟨id, channel, files, .writing made name left⟩
          (.copying (made ++ [(name, written)]) left)) := by
  simp only [step, found, copied, if_pos]

/-- Chunks of two bytes. -/
def twos : Setup Nat := ⟨tagging, id, 2⟩

def five : Source Nat :=
  ⟨fiveBytes.data, fun _ => 1, fiveBytes.key, 0, fun _ => none, fun _ _ => true⟩

/-- A message with a file of five bytes is queued. -/
theorem five_bytes_queued :
    ∃ store, Transition.run (step twos) Store.start
      [.begin 0 7 3 1, .look 0 [fiveBytes.id] true, .create 0 true, .copy 0 five true,
        .insert 0 true] = some store ∧ store.live = [fiveBytes.id] ∧
      ∀ row ∈ store.fileRows, store.Complete twos row := by
  obtain ⟨written, bytes, copied⟩ :
      ∃ written bytes, five.write twos fiveBytes.id = .ok (written, bytes) :=
    (write_file id fiveBytes (five.options fiveBytes.id 2) rfl rfl rfl fun _ => 1).2
      (fun _ => rfl) (by decide) fun _ _ => rfl
  obtain ⟨store, reached, live⟩ : ∃ store, Transition.run (step twos) Store.start
      [.begin 0 7 3 1, .look 0 [fiveBytes.id] true, .create 0 true, .copy 0 five true,
        .insert 0 true] = some store ∧ store.live = [fiveBytes.id] := by
    open Transition in
    exact ⟨_, (run_cons rfl).trans ((run_cons rfl).trans ((run_cons rfl).trans
      ((run_cons (step_copy rfl copied)).trans (run_cons rfl)))), rfl⟩
  exact ⟨store, reached, live, (queued_snapshots_kept twos _ store reached).1⟩

end Brook.Queued
