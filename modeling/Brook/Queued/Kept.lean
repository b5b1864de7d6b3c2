import Brook.Queued.System
import Brook.Transition.Run

namespace Brook.Queued

open Aead Readers Snapshot

universe u

variable {Key : Type u} {setup : Setup Key} {store next : Store Key} {task : TaskId}

/-! Each name has one owner: a row, a call that is to queue it, or a removal.  A row's file
is what was copied for it, since only the owner of a name touches its file. -/

/-- The names that the task may still touch. -/
def Stage.names : Stage Key → List Name
  | .looking => []
  | .copying made left => made.map Prod.fst ++ left
  | .writing made name left => made.map Prod.fst ++ name :: left
  | .discarding made name => made.map Prod.fst ++ [name]
  | .removing names => names

/-- The copies that the task is to queue. -/
def Stage.made : Stage Key → List (Name × Written Key)
  | .copying made _ | .writing made _ _ => made
  | .looking | .discarding _ _ | .removing _ => []

inductive Owner
  | row (id : ClientId)
  | enqueuing (task : TaskId)
  | removing (task : TaskId)

def Store.Owns (store : Store Key) : Owner → Name → Prop
  | .row id, name => ∃ row ∈ store.fileRows, row.clientId = id ∧ row.fileClientId = name
  | .enqueuing task, name =>
      ∃ sending, store.enqueuing.get? task = some sending ∧ name ∈ sending.stage.names
  | .removing task, name => ∃ gone, store.removing.get? task = some gone ∧ name ∈ gone.left

/-- The file of the name is what `write` made, and was synced. -/
def Store.Holds (setup : Setup Key) (store : Store Key) (name : Name) (written : Written Key) :
    Prop :=
  name ∈ store.synced ∧ ∃ bytes, store.snap.get? name = some bytes ∧
    ∃ source : Source Key, source.write setup name = .ok (written, bytes)

structure Sound (setup : Setup Key) (store : Store Key) : Prop where
  unique : ∀ owner other name, store.Owns owner name → store.Owns other name → owner = other
  issued : ∀ owner name, store.Owns owner name → name ∈ store.issued
  nodup : ∀ task sending, store.enqueuing.get? task = some sending → sending.stage.names.Nodup
  chunk : ∀ row ∈ store.fileRows, row.chunk = setup.chunk
  rows : ∀ row ∈ store.fileRows, store.Holds setup row.fileClientId row.written
  made : ∀ task sending, store.enqueuing.get? task = some sending →
    ∀ file ∈ sending.stage.made, store.Holds setup file.1 file.2
  /-- Only a removal has names of the journal. -/
  deletions : ∀ owner name, store.Owns owner name → name ∈ store.deletions →
    ∃ task, owner = .removing task
  journalled : ∀ name ∈ store.deletions, name ∈ store.issued
  closed : store.opened = false → ∀ task, store.enqueuing.get? task = none

theorem Store.Holds.frame {name : Name} {written : Written Key}
    (holds : store.Holds setup name written) (synced : ∀ name ∈ store.synced, name ∈ next.synced)
    (same : next.snap.get? name = store.snap.get? name) : next.Holds setup name written := by
  obtain ⟨was, bytes, found, copied⟩ := holds
  exact ⟨synced name was, bytes, same.trans found, copied⟩

theorem Stage.names_of_made {stage : Stage Key} {file : Name × Written Key}
    (member : file ∈ stage.made) : file.1 ∈ stage.names := by
  cases stage with
  | looking | discarding | removing => cases member
  | copying | writing => exact List.mem_append_left _ (List.mem_map_of_mem member)

theorem Store.owns_row {row : FileRow Key} (member : row ∈ store.fileRows) :
    store.Owns (.row row.clientId) row.fileClientId :=
  ⟨row, member, rfl, rfl⟩

theorem Store.owns_made {sending : Enqueuing Key} {file : Name × Written Key}
    (found : store.enqueuing.get? task = some sending) (member : file ∈ sending.stage.made) :
    store.Owns (.enqueuing task) file.1 :=
  ⟨sending, found, Stage.names_of_made member⟩

namespace Sound

theorem start : Sound setup (Store.start : Store Key) where
  unique owner := by cases owner <;> simp [Store.Owns, Store.start]
  issued owner := by cases owner <;> simp [Store.Owns, Store.start]
  nodup := by simp [Store.start]
  chunk := by simp [Store.start]
  rows := by simp [Store.start]
  made := by simp [Store.start]
  deletions := by simp [Store.start]
  journalled := by simp [Store.start]
  closed := by simp [Store.start]

/-- A task that goes on touches no file but its own, and takes up no name. -/
theorem moves (sound : Sound setup store) {sending : Enqueuing Key} {stage : Stage Key}
    {snap : Table Name Bytes} {synced : List Name}
    (found : store.enqueuing.get? task = some sending)
    (frame : ∀ name, name ∉ sending.stage.names → snap.get? name = store.snap.get? name)
    (more : ∀ name ∈ store.synced, name ∈ synced)
    (names : ∀ name ∈ stage.names, name ∈ sending.stage.names) (nodup : stage.names.Nodup)
    (made : ∀ file ∈ stage.made,
      ({ store with snap, synced } : Store Key).Holds setup file.1 file.2) :
    Sound setup ({ store with snap, synced }.move task sending stage) := by
  have owns : ∀ owner name, ({ store with snap, synced }.move task sending stage).Owns owner name →
      store.Owns owner name := by
    intro owner name owned
    cases owner with
    | row id => exact owned
    | removing other => exact owned
    | enqueuing other =>
        obtain ⟨moved, there, member⟩ := owned
        simp only [Store.move, Table.get?_put] at there
        split at there
        case isFalse => exact ⟨moved, there, member⟩
        case isTrue same =>
          cases there
          exact ⟨sending, same ▸ found, names name member⟩
  have apart : ∀ owner name, owner ≠ .enqueuing task → store.Owns owner name →
      name ∉ sending.stage.names := fun owner name other owned mine =>
    other (sound.unique owner _ name owned ⟨sending, found, mine⟩)
  exact
    { unique := fun owner other name one another =>
        sound.unique owner other name (owns owner name one) (owns other name another)
      issued := fun owner name owned => sound.issued owner name (owns owner name owned)
      nodup := by
        intro other moved there
        simp only [Store.move, Table.get?_put] at there
        split at there
        case isFalse => exact sound.nodup other moved there
        case isTrue =>
          cases there
          exact nodup
      chunk := sound.chunk
      rows := fun row member => (sound.rows row member).frame more
        (frame _ (apart (.row row.clientId) _ (by simp) (Store.owns_row member)))
      made := by
        intro other moved there file member
        simp only [Store.move, Table.get?_put] at there
        split at there
        case isTrue =>
          cases there
          exact made file member
        case isFalse different =>
          exact (sound.made other moved there file member).frame more
            (frame _ (apart (.enqueuing other) _ (by simpa using different)
              (Store.owns_made there member)))
      deletions := fun owner name owned => sound.deletions owner name (owns owner name owned)
      journalled := sound.journalled
      closed := fun shut => by
        rw [sound.closed shut task] at found
        cases found }

theorem ends (sound : Sound setup store) (task : TaskId) : Sound setup (store.ends task) := by
  have still {other : TaskId} {sending : Enqueuing Key}
      (there : (store.ends task).enqueuing.get? other = some sending) :
      store.enqueuing.get? other = some sending := by
    simp only [Store.ends, Table.get?_filter, Option.filter_eq_some_iff] at there
    exact there.1
  have owns : ∀ owner name, (store.ends task).Owns owner name → store.Owns owner name := by
    intro owner name owned
    cases owner with
    | row id => exact owned
    | removing other => exact owned
    | enqueuing other =>
        obtain ⟨sending, there, member⟩ := owned
        exact ⟨sending, still there, member⟩
  exact
    { unique := fun owner other name one another =>
        sound.unique owner other name (owns owner name one) (owns other name another)
      issued := fun owner name owned => sound.issued owner name (owns owner name owned)
      nodup := fun other sending there => sound.nodup other sending (still there)
      chunk := sound.chunk
      rows := sound.rows
      made := fun other sending there => sound.made other sending (still there)
      deletions := fun owner name owned => sound.deletions owner name (owns owner name owned)
      journalled := sound.journalled
      closed := fun shut other => by
        rw [Store.ends, Table.get?_filter, sound.closed shut other]
        rfl }

theorem giveUp (sound : Sound setup store) {sending : Enqueuing Key}
    (found : store.enqueuing.get? task = some sending) {made : List (Name × Written Key)}
    (names : (made.map Prod.fst).Sublist sending.stage.names) :
    Sound setup (store.giveUp task sending made) :=
  sound.moves found (fun _ _ => rfl) (fun _ member => member) (fun _ member => names.subset member)
    (names.nodup (sound.nodup task sending found)) fun _ member => by cases member

theorem unlinked {snap : Table Name Bytes} {name other : Name} (different : other ≠ name) :
    (snap.filter fun kept _ => kept ≠ name).get? other = snap.get? other :=
  Table.get?_filter_kept snap fun _ => decide_eq_true different

theorem unlink_frame {name other : Name} {removed : Bool} (different : other ≠ name) :
    (store.unlink name removed).snap.get? other = store.snap.get? other := by
  rw [Store.unlink]
  split
  · exact unlinked different
  · rfl

/-- Unlinking changes nothing but what lies in `snap`. -/
theorem unlink_eq (store : Store Key) (name : Name) (removed : Bool) :
    store.unlink name removed = { store with snap := (store.unlink name removed).snap } := by
  rw [Store.unlink]
  split <;> rfl

theorem create (sound : Sound setup store) {sending : Enqueuing Key}
    {made : List (Name × Written Key)} {name : Name} {left : List Name} {bytes : Bytes}
    (found : store.enqueuing.get? task = some sending)
    (stage : sending.stage = .copying made (name :: left) ∨
      sending.stage = .writing made name left) :
    Sound setup ({ store with snap := store.snap.put name bytes }.move task sending
      (.writing made name left)) := by
  have nodup := sound.nodup task sending found
  have holds := sound.made task sending found
  have names : sending.stage.names = made.map Prod.fst ++ name :: left := by
    obtain stage | stage := stage <;> rw [stage] <;> rfl
  have same : sending.stage.made = made := by
    obtain stage | stage := stage <;> rw [stage] <;> rfl
  rw [names] at nodup
  rw [same] at holds
  have apart : ∀ file ∈ made, file.1 ≠ name := fun file member same =>
    (List.nodup_append'.mp nodup).2.2 (List.mem_map_of_mem member)
      (same ▸ List.mem_cons_self)
  refine sound.moves found (fun other absent => ?_) (fun _ member => member)
    (fun other member => names ▸ member) nodup fun file member => ?_
  · refine Table.get?_put_ne _ _ fun same => absent ?_
    rw [names, same]
    exact List.mem_append_right _ List.mem_cons_self
  · exact (holds file member).frame (fun _ member => member)
      (Table.get?_put_ne _ _ (apart file member))

theorem copy (sound : Sound setup store) {sending : Enqueuing Key}
    {made : List (Name × Written Key)} {name : Name} {left : List Name}
    (found : store.enqueuing.get? task = some sending)
    (stage : sending.stage = .writing made name left) {source : Source Key}
    {written : Written Key} {bytes : Bytes}
    (copied : source.write setup name = .ok (written, bytes)) :
    Sound setup ({ store with
      snap := store.snap.put name bytes
      synced := name :: store.synced }.move task sending
        (.copying (made ++ [(name, written)]) left)) := by
  have nodup := sound.nodup task sending found
  have holds := sound.made task sending found
  rw [stage] at nodup holds
  have names : (Stage.copying (made ++ [(name, written)]) left).names =
      made.map Prod.fst ++ name :: left := by
    simp [Stage.names]
  have apart : ∀ file ∈ made, file.1 ≠ name := fun file member same =>
    (List.nodup_append'.mp nodup).2.2 (List.mem_map_of_mem member)
      (same ▸ List.mem_cons_self)
  refine sound.moves found (fun other absent => ?_) (fun _ member => List.mem_cons_of_mem _ member)
    (fun other member => ?_) (names ▸ nodup) fun file member => ?_
  · refine Table.get?_put_ne _ _ fun same => absent ?_
    rw [stage, same]
    exact List.mem_append_right _ List.mem_cons_self
  · rw [names] at member
    rw [stage]
    exact member
  · obtain before | last := List.mem_append.mp member
    · exact (holds file before).frame (fun _ member => List.mem_cons_of_mem _ member)
        (Table.get?_put_ne _ _ (apart file before))
    · rw [List.mem_singleton.mp last]
      exact ⟨List.mem_cons_self, bytes, Table.get?_put_self _ _ _, source, copied⟩

/-- A name of the task's own is unlinked. -/
theorem unlinks (sound : Sound setup store) {sending : Enqueuing Key} {name : Name}
    {names : List Name} {removed : Bool} (found : store.enqueuing.get? task = some sending)
    (own : name ∈ sending.stage.names) (left : names.Sublist sending.stage.names) :
    Sound setup ((store.unlink name removed).move task sending (.removing names)) := by
  rw [unlink_eq]
  exact sound.moves found
    (fun other absent => unlink_frame fun same => absent (same ▸ own)) (fun _ member => member)
    (fun _ member => left.subset member) (left.nodup (sound.nodup task sending found))
    fun _ member => by cases member

theorem enqueue (sound : Sound setup store) (id : ClientId) (channel : ChannelId) :
    Sound setup (store.enqueue id channel) := by
  rw [Store.enqueue]
  split
  · exact sound
  · exact { sound with unique := sound.unique, issued := sound.issued }

theorem opened (sound : Sound setup store) {sending : Enqueuing Key}
    (found : store.enqueuing.get? task = some sending) : store.opened = true := by
  rw [← Bool.not_eq_false]
  intro shut
  rw [sound.closed shut task] at found
  cases found

/-- A task takes up names that were never issued. -/
theorem plans (sound : Sound setup store) {sending : Enqueuing Key} {names : List Name}
    (opened : store.opened = true) (planned : sending.stage.names = names)
    (unmade : sending.stage.made = []) (nodup : names.Nodup)
    (fresh : ∀ name ∈ names, name ∉ store.issued) :
    Sound setup { store with
      enqueuing := store.enqueuing.put task sending
      issued := names ++ store.issued } := by
  have still {other : TaskId} {row : Enqueuing Key}
      (there : (store.enqueuing.put task sending).get? other = some row) :
      store.enqueuing.get? other = some row ∨ other = task ∧ row = sending := by
    rw [Table.get?_put] at there
    split at there
    case isTrue same =>
      cases there
      exact Or.inr ⟨same, rfl⟩
    case isFalse => exact Or.inl there
  have owns : ∀ owner name, ({ store with
      enqueuing := store.enqueuing.put task sending
      issued := names ++ store.issued } : Store Key).Owns owner name →
        store.Owns owner name ∨ owner = .enqueuing task ∧ name ∈ names := by
    intro owner name owned
    cases owner with
    | row id => exact Or.inl owned
    | removing other => exact Or.inl owned
    | enqueuing other =>
        obtain ⟨row, there, member⟩ := owned
        obtain before | ⟨rfl, rfl⟩ := still there
        · exact Or.inl ⟨row, before, member⟩
        · exact Or.inr ⟨rfl, planned ▸ member⟩
  exact
    { unique := by
        intro owner other name one another
        obtain one | ⟨rfl, mine⟩ := owns owner name one
        · obtain another | ⟨rfl, new⟩ := owns other name another
          · exact sound.unique owner other name one another
          · exact (fresh name new (sound.issued owner name one)).elim
        · obtain another | ⟨rfl, -⟩ := owns other name another
          · exact (fresh name mine (sound.issued other name another)).elim
          · rfl
      issued := by
        intro owner name owned
        obtain before | ⟨-, new⟩ := owns owner name owned
        · exact List.mem_append_right _ (sound.issued owner name before)
        · exact List.mem_append_left _ new
      nodup := fun other row there => by
        obtain before | ⟨-, rfl⟩ := still there
        · exact sound.nodup other row before
        · rw [planned]
          exact nodup
      chunk := sound.chunk
      rows := sound.rows
      made := fun other row there file member => by
        obtain before | ⟨-, rfl⟩ := still there
        · exact sound.made other row before file member
        · rw [unmade] at member
          cases member
      deletions := by
        intro owner name owned member
        obtain before | ⟨-, new⟩ := owns owner name owned
        · exact sound.deletions owner name before member
        · exact (fresh name new (sound.journalled name member)).elim
      journalled := fun name member => List.mem_append_right _ (sound.journalled name member)
      closed := fun shut => by
        rw [show store.opened = false from shut] at opened
        cases opened }

/-- What one owner had becomes another's. -/
theorem handed (sound : Sound setup store) {giver taker : Owner}
    (owns : ∀ owner name, next.Owns owner name →
      owner ≠ giver ∧ (store.Owns owner name ∨ owner = taker ∧ store.Owns giver name)) :
    ∀ owner other name, next.Owns owner name → next.Owns other name → owner = other := by
  intro owner other name one another
  obtain ⟨notGiver, before | ⟨rfl, given⟩⟩ := owns owner name one
  · obtain ⟨-, also | ⟨rfl, given⟩⟩ := owns other name another
    · exact sound.unique owner other name before also
    · exact (notGiver (sound.unique owner giver name before given)).elim
  · obtain ⟨notGiver, also | ⟨rfl, -⟩⟩ := owns other name another
    · exact (notGiver (sound.unique other giver name also given)).elim
    · rfl

/-- The rows of the files commit: their snapshots lie there already. -/
theorem inserts (sound : Sound setup store) {sending : Enqueuing Key}
    {made : List (Name × Written Key)} (found : store.enqueuing.get? task = some sending)
    (stage : sending.stage = .copying made []) :
    Sound setup (store.insert setup.chunk task sending made) := by
  have holds := sound.made task sending found
  have names : sending.stage.names = made.map Prod.fst := by
    rw [stage]
    exact List.append_nil _
  rw [Store.insert]
  split
  · exact sound.giveUp found (names ▸ List.Sublist.refl _)
  · rw [stage] at holds
    have new {row : FileRow Key} (member : row ∈ store.fileRows ++
        made.map fun file => ⟨sending.clientId, file.1, setup.chunk, file.2⟩) :
        row ∈ store.fileRows ∨ ∃ file ∈ made,
          row = ⟨sending.clientId, file.1, setup.chunk, file.2⟩ := by
      obtain before | last := List.mem_append.mp member
      · exact Or.inl before
      · obtain ⟨file, made, rfl⟩ := List.mem_map.mp last
        exact Or.inr ⟨file, made, rfl⟩
    have still {other : TaskId} {row : Enqueuing Key}
        (there : (store.ends task).enqueuing.get? other = some row) :
        other ≠ task ∧ store.enqueuing.get? other = some row := by
      simp only [Store.ends, Table.get?_filter, Option.filter_eq_some_iff, decide_eq_true_eq]
        at there
      exact ⟨there.2, there.1⟩
    have mine {file : Name × Written Key} (member : file ∈ made) :
        store.Owns (.enqueuing task) file.1 := by
      refine ⟨sending, found, ?_⟩
      rw [names]
      exact List.mem_map_of_mem member
    have owns : ∀ owner name, ({ store.ends task with
        rows := store.rows.put sending.clientId sending.channel
        fileRows := store.fileRows ++
          made.map fun file => ⟨sending.clientId, file.1, setup.chunk, file.2⟩ } :
          Store Key).Owns owner name →
        owner ≠ .enqueuing task ∧ (store.Owns owner name ∨
          owner = .row sending.clientId ∧ store.Owns (.enqueuing task) name) := by
      intro owner name owned
      cases owner with
      | removing other => exact ⟨by simp, Or.inl owned⟩
      | enqueuing other =>
          obtain ⟨row, there, member⟩ := owned
          obtain ⟨different, there⟩ := still there
          exact ⟨by simpa using different, Or.inl ⟨row, there, member⟩⟩
      | row id =>
          refine ⟨by simp, ?_⟩
          obtain ⟨row, member, rfl, rfl⟩ := owned
          obtain before | ⟨file, its, rfl⟩ := new member
          · exact Or.inl (Store.owns_row before)
          · exact Or.inr ⟨rfl, mine its⟩
    exact
      { unique := sound.handed owns
        issued := by
          intro owner name owned
          obtain ⟨-, before | ⟨-, given⟩⟩ := owns owner name owned
          · exact sound.issued owner name before
          · exact sound.issued _ name given
        nodup := fun other row there => sound.nodup other row (still there).2
        chunk := by
          intro row member
          obtain before | ⟨file, -, rfl⟩ := new member
          · exact sound.chunk row before
          · rfl
        rows := by
          intro row member
          obtain before | ⟨file, its, rfl⟩ := new member
          · exact sound.rows row before
          · exact holds file its
        made := fun other row there => sound.made other row (still there).2
        deletions := by
          intro owner name owned member
          obtain ⟨-, before | ⟨-, given⟩⟩ := owns owner name owned
          · exact sound.deletions owner name before member
          · obtain ⟨other, same⟩ := sound.deletions _ name given member
            cases same
        journalled := sound.journalled
        closed := fun shut => by
          rw [sound.closed shut task] at found
          cases found }

/-- The rows of the files go, and the journal has their names. -/
theorem removes (sound : Sound setup store) (id : ClientId) :
    Sound setup (store.remove task id) := by
  have still {row : FileRow Key} (member : row ∈ (store.remove task id).fileRows) :
      row ∈ store.fileRows ∧ row.clientId ≠ id := by
    simpa [Store.remove] using member
  have named {name : Name} : name ∈ store.namesOf id ↔ store.Owns (.row id) name := by
    simp [Store.namesOf, Store.Owns, and_assoc]
  have owns : ∀ owner name, (store.remove task id).Owns owner name →
      owner ≠ .row id ∧ (store.Owns owner name ∨
        owner = .removing task ∧ store.Owns (.row id) name) := by
    intro owner name owned
    cases owner with
    | enqueuing other => exact ⟨by simp, Or.inl owned⟩
    | row other =>
        obtain ⟨row, member, rfl, rfl⟩ := owned
        obtain ⟨member, different⟩ := still member
        exact ⟨by simpa using different, Or.inl (Store.owns_row member)⟩
    | removing other =>
        refine ⟨by simp, ?_⟩
        obtain ⟨gone, there, member⟩ := owned
        simp only [Store.remove] at there
        split at there
        case isTrue => exact Or.inl ⟨gone, there, member⟩
        case isFalse =>
          rw [Table.get?_put] at there
          split at there
          case isTrue same =>
            cases there
            exact Or.inr ⟨congrArg Owner.removing same, named.mp member⟩
          case isFalse => exact Or.inl ⟨gone, there, member⟩
  exact
    { unique := sound.handed owns
      issued := by
        intro owner name owned
        obtain ⟨-, before | ⟨-, given⟩⟩ := owns owner name owned
        · exact sound.issued owner name before
        · exact sound.issued _ name given
      nodup := sound.nodup
      chunk := fun row member => sound.chunk row (still member).1
      rows := fun row member => sound.rows row (still member).1
      made := sound.made
      deletions := by
        intro owner name owned member
        obtain ⟨notRow, before | ⟨rfl, -⟩⟩ := owns owner name owned
        · obtain old | new := List.mem_append.mp member
          · exact sound.deletions owner name before old
          · have mine := named.mp (List.mem_filter.mp new).1
            exact (notRow (sound.unique owner _ name before mine)).elim
        · exact ⟨task, rfl⟩
      journalled := by
        intro name member
        obtain old | new := List.mem_append.mp member
        · exact sound.journalled name old
        · exact sound.issued _ name (named.mp (List.mem_filter.mp new).1)
      closed := sound.closed }

/-- A removal unlinks the names that it has. -/
theorem unlinksGone (sound : Sound setup store) {names left : List Name} {name : Name}
    {removed : Bool} (found : store.removing.get? task = some ⟨names, name :: left⟩) :
    Sound setup { store.unlink name removed with
      removing := store.removing.put task ⟨names, left⟩ } := by
  have mine : store.Owns (.removing task) name := ⟨_, found, List.mem_cons_self⟩
  rw [unlink_eq]
  have owns : ∀ owner other, ({ store with
      snap := (store.unlink name removed).snap
      removing := store.removing.put task ⟨names, left⟩ } : Store Key).Owns owner other →
        store.Owns owner other := by
    intro owner other owned
    cases owner with
    | row id => exact owned
    | enqueuing another => exact owned
    | removing another =>
        obtain ⟨gone, there, member⟩ := owned
        rw [Table.get?_put] at there
        split at there
        case isFalse => exact ⟨gone, there, member⟩
        case isTrue same =>
          cases there
          exact ⟨_, same ▸ found, List.mem_cons_of_mem _ member⟩
  have frame : ∀ owner other, (∀ task, owner ≠ .removing task) → store.Owns owner other →
      (store.unlink name removed).snap.get? other = store.snap.get? other := by
    intro owner other notGone owned
    refine unlink_frame fun same => notGone task ?_
    exact sound.unique owner _ name (same ▸ owned) mine
  exact
    { unique := fun owner another other one also =>
        sound.unique owner another other (owns owner other one) (owns another other also)
      issued := fun owner other owned => sound.issued owner other (owns owner other owned)
      nodup := sound.nodup
      chunk := sound.chunk
      rows := fun row member => (sound.rows row member).frame (fun _ member => member)
        (frame (.row row.clientId) _ (by simp) (Store.owns_row member))
      made := fun another sending there file member =>
        (sound.made another sending there file member).frame (fun _ member => member)
          (frame (.enqueuing another) _ (by simp) (Store.owns_made there member))
      deletions := fun owner other owned => sound.deletions owner other (owns owner other owned)
      journalled := sound.journalled
      closed := sound.closed }

/-- The journal and the removals may lose names, and every call and removal may end. -/
theorem shrinks (sound : Sound setup store) {snap : Table Name Bytes} {deletions : List Name}
    {enqueuing : Table TaskId (Enqueuing Key)} {removing : Table TaskId Removing} {opened : Bool}
    (fewer : ∀ name ∈ deletions, name ∈ store.deletions)
    (rows : ∀ row ∈ store.fileRows,
      snap.get? row.fileClientId = store.snap.get? row.fileClientId)
    (calls : ∀ task sending, enqueuing.get? task = some sending →
      store.enqueuing.get? task = some sending ∧ snap = store.snap)
    (shut : opened = false → ∀ task, enqueuing.get? task = none)
    (gone : ∀ task gone, removing.get? task = some gone → store.removing.get? task = some gone) :
    Sound setup { store with snap, deletions, enqueuing, removing, opened } := by
  have owns : ∀ owner name, ({ store with snap, deletions, enqueuing, removing, opened } :
      Store Key).Owns owner name → store.Owns owner name := by
    intro owner name owned
    cases owner with
    | row id => exact owned
    | enqueuing task =>
        obtain ⟨sending, there, member⟩ := owned
        exact ⟨sending, (calls task sending there).1, member⟩
    | removing task =>
        obtain ⟨row, there, member⟩ := owned
        exact ⟨row, gone task row there, member⟩
  exact
    { unique := fun owner other name one another =>
        sound.unique owner other name (owns owner name one) (owns other name another)
      issued := fun owner name owned => sound.issued owner name (owns owner name owned)
      nodup := fun task sending there => sound.nodup task sending (calls task sending there).1
      chunk := sound.chunk
      rows := fun row member =>
        (sound.rows row member).frame (fun _ member => member) (rows row member)
      made := fun task sending there file member => by
        obtain ⟨there, same⟩ := calls task sending there
        exact (sound.made task sending there file member).frame (fun _ member => member)
          (congrArg (fun table => table.get? file.1) same)
      deletions := fun owner name owned member =>
        sound.deletions owner name (owns owner name owned) (fewer name member)
      journalled := fun name member => sound.journalled name (fewer name member)
      closed := shut }

/-- What was synced outlives the process. -/
theorem crashes (sound : Sound setup store) {snap : Table Name Bytes}
    (kept : ∀ name ∈ store.synced, ∀ bytes, store.snap.get? name = some bytes →
      snap.get? name = some bytes) :
    Sound setup { store with snap, enqueuing := ∅, removing := ∅, opened := false } := by
  refine sound.shrinks (fun _ member => member) (fun row member => ?_) (by simp) (fun _ _ => rfl)
    (by simp)
  obtain ⟨synced, bytes, found, -⟩ := sound.rows row member
  rw [found]
  exact kept _ synced bytes found

/-- What `open` removes is no row's. -/
theorem reopens (sound : Sound setup store) (shut : store.opened = false) (stuck : List Name)
    (listed : Bool) (kept : List Name) : Sound setup (store.reopen stuck listed kept) := by
  refine sound.shrinks (fun name member => (List.mem_filter.mp member).1) (fun row member => ?_)
    (fun task sending there => ?_) (fun opened => by cases opened) fun _ _ there => there
  · refine Table.get?_filter_kept _ fun _ => decide_eq_true (Or.inr ⟨fun journalled => ?_, ?_⟩)
    · obtain ⟨task, same⟩ := sound.deletions _ _ (Store.owns_row member) journalled
      cases same
    · exact fun _ => List.mem_map_of_mem member
  · rw [sound.closed shut task] at there
    cases there

theorem step (sound : Sound setup store) {action : Action Key}
    (stepped : step setup store action = some next) : Sound setup next := by
  cases action with
  | enqueue id channel =>
      simp only [Queued.step] at stepped
      split at stepped
      · cases stepped
        exact sound.enqueue id channel
      · cases stepped
  | begin task id channel files =>
      simp only [Queued.step] at stepped
      split at stepped
      case isTrue may =>
        cases stepped
        exact sound.plans may.1 rfl rfl List.nodup_nil fun _ member => by cases member
      case isFalse => cases stepped
  | look task names read =>
      simp only [Queued.step] at stepped
      split at stepped
      case h_2 => cases stepped
      case h_1 id channel files found =>
        split at stepped
        case isTrue =>
          cases stepped
          exact sound.ends task
        case isFalse =>
          split at stepped
          case isTrue fresh =>
            cases stepped
            exact sound.plans (sound.opened found) rfl rfl fresh.2.1 fresh.2.2
          case isFalse => cases stepped
  | create task created =>
      simp only [Queued.step] at stepped
      split at stepped
      case h_2 => cases stepped
      case h_1 id channel files made name left found =>
        cases stepped
        split
        · exact sound.create found (Or.inl rfl)
        · exact sound.giveUp found (List.sublist_append_left _ _)
  | part task bytes =>
      simp only [Queued.step] at stepped
      split at stepped
      case h_2 => cases stepped
      case h_1 id channel files made name left found =>
        cases stepped
        exact sound.create found (Or.inr rfl)
  | copy task source synced =>
      simp only [Queued.step] at stepped
      split at stepped
      case h_2 => cases stepped
      case h_1 id channel files made name left found =>
        have discards : Sound setup (store.move task ⟨id, channel, files, .writing made name left⟩
            (.discarding made name)) := by
          have fewer : (made.map Prod.fst ++ [name]).Sublist (made.map Prod.fst ++ name :: left) :=
            List.Sublist.append_left (List.cons_sublist_cons.mpr (List.nil_sublist left)) _
          exact sound.moves found (fun _ _ => rfl) (fun _ member => member)
            (fun _ member => fewer.subset member) (fewer.nodup (sound.nodup task _ found))
            fun _ member => by cases member
        split at stepped
        case h_1 written bytes copied =>
          cases stepped
          split
          · exact sound.copy found rfl copied
          · exact discards
        case h_2 =>
          cases stepped
          exact discards
  | discard task removed =>
      simp only [Queued.step] at stepped
      split at stepped
      case h_2 => cases stepped
      case h_1 id channel files made name found =>
        cases stepped
        exact sound.unlinks found (List.mem_append_right _ (List.mem_singleton.mpr rfl))
          (List.sublist_append_left _ _)
  | unlink task removed =>
      simp only [Queued.step] at stepped
      split at stepped
      case h_1 id channel files name names found =>
        cases stepped
        exact sound.unlinks found List.mem_cons_self (List.sublist_cons_self name names)
      case h_2 =>
        cases stepped
        exact sound.ends task
      case h_3 => cases stepped
  | insert task written =>
      simp only [Queued.step] at stepped
      split at stepped
      case h_2 => cases stepped
      case h_1 id channel files made found =>
        cases stepped
        split
        · exact sound.inserts found rfl
        · exact sound.giveUp found (List.sublist_append_left _ _)
  | remove task id =>
      simp only [Queued.step] at stepped
      split at stepped
      · cases stepped
        exact sound.removes id
      · cases stepped
  | unlinkGone task removed =>
      simp only [Queued.step] at stepped
      split at stepped
      case h_2 => cases stepped
      case h_1 names name left found =>
        cases stepped
        exact sound.unlinksGone found
  | clear task kept =>
      simp only [Queued.step] at stepped
      split at stepped
      case h_2 => cases stepped
      case h_1 names found =>
        cases stepped
        refine sound.shrinks (fun name member => (List.mem_filter.mp member).1) (fun _ _ => rfl)
          (fun _ _ there => ⟨there, rfl⟩) sound.closed fun other gone there => ?_
        rw [Table.get?_filter, Option.filter_eq_some_iff] at there
        exact there.1
  | crash snap =>
      simp only [Queued.step] at stepped
      split at stepped
      case isFalse => cases stepped
      case isTrue kept =>
        cases stepped
        refine sound.crashes fun name synced bytes found => ?_
        have := List.all_eq_true.mp kept name synced
        rw [found] at this
        simpa using this
  | reopen stuck listed kept =>
      simp only [Queued.step] at stepped
      split at stepped
      case isTrue => cases stepped
      case isFalse shut =>
        cases stepped
        exact sound.reopens (by simpa using shut) stuck listed kept

end Sound

end Brook.Queued
