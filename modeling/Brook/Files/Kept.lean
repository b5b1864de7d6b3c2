import Brook.Files.Upload

namespace Brook.Files

open Transition

/-! A committed file keeps its bytes, and a row that a message references is not
swept. -/

/-- No step of a sweep takes a row that a message references. -/
def SparesAttached (sha256 : Bytes → Digest) (db : Db) : Prop :=
  ∀ task stage event next, db.tasks.get? task = some (.sweep stage) →
    step sha256 db (.advance task event) = some next →
    ∀ id row, db.rows.get? id = some row → row.messageId ≠ none →
      next.rows.get? id = some row

/-- What the pass knows that is about to list the disk. -/
def Db.listing (db : Db) (task : TaskId) : Option (List FileId) :=
  match db.tasks.get? task with
  | some (.sweep (.removing [] known)) => some known
  | _ => none

/-- A pass lists the disk while no row that it does not know, because it read
the ids before the row was created, has a file untouched for an hour. -/
def Timely (db : Db) : Action → Prop
  | .advance task .run =>
      ∀ known ∈ db.listing task, ∀ id ∈ db.rows.rows.map Prod.fst,
        id ∉ known → .final id ∉ db.staleEntries
  | _ => True

instance (db : Db) : ∀ action, Decidable (Timely db action)
  | .advance task .run =>
      inferInstanceAs (Decidable (∀ known ∈ db.listing task,
        ∀ id ∈ db.rows.rows.map Prod.fst,
          id ∉ known → .final id ∉ db.staleEntries))
  | .advance _ (.membership _) | .advance _ (.open_ _) | .advance _ (.chunk _)
  | .create _ _ _ _ _ | .put _ _ _ | .delete _ _ _ | .attach _ _ _ _ _
  | .sweep _ | .fail _ | .crash | .tick _ => isTrue trivial

section

variable {sha256 : Bytes → Digest} {db next : Db} {task : TaskId}
variable {id : FileId} {user : UserId}

theorem Accounted.deleteRows {ids : List FileId}
    (accounted : Accounted sha256 db.used db.rows db.finals) :
    Accounted sha256 (db.deleteRows ids).used (db.deleteRows ids).rows
      (db.deleteRows ids).finals := by
  have kept : ∀ other row, (db.deleteRows ids).rows.get? other = some row →
      db.rows.get? other = some row := by
    intro other row stored
    simp only [Db.deleteRows, Table.get?_filter, Option.filter_eq_some_iff] at stored
    exact stored.1
  constructor
  · exact fun other row stored => accounted.backed other row (kept other row stored)
  · exact fun other row stored => accounted.loose other row (kept other row stored)
  · exact fun other row stored => accounted.rowsUsed other row (kept other row stored)
  · exact accounted.finalsUsed

theorem Accounted.unlink {used : List FileId} {rows : Table FileId File}
    {finals : Table FileId Stored} (accounted : Accounted sha256 used rows finals)
    (gone : rows.get? id = none) :
    Accounted sha256 used rows (finals.filter fun other _ => other ≠ id) where
  backed := by
    intro other row stored status
    rw [Table.get?_filter_kept]
    · exact accounted.backed other row stored status
    · rintro -
      have different : other ≠ id := by
        rintro rfl
        simp [gone] at stored
      simpa using different
  loose := accounted.loose
  rowsUsed := accounted.rowsUsed
  finalsUsed := by
    intro other final found
    simp only [Table.get?_filter, Option.filter_eq_some_iff] at found
    exact accounted.finalsUsed other final found.1

/-- `DELETE` of rows that the task holds. -/
theorem gone_deleteRows {ids : List FileId} {other : FileId} (mem : other ∈ ids)
    (used : other ∈ db.used) : Gone (db.deleteRows ids) other := by
  refine ⟨used, ?_⟩
  simp [Db.deleteRows, mem]

theorem deleteStep_sound (sound : Sound sha256 db) {stage : DeleteStage}
    {event : Event} (holds : stage.Holds db task id)
    (taken : deleteStep db task id user stage event = some next) :
    Sound sha256 next := by
  have ended := sound.finish (Moves.refl db task) sound.accounted
  have stay := Moves.refl db task
  unfold deleteStep at taken
  split at taken
  · split at taken
    · cases taken
      exact ended
    · cases taken
      exact ended
    · rename_i row role stored
      split at taken
      · cases taken
        exact ended
      · cases taken
        exact sound.setTask stay sound.accounted
          (sound.accounted.rowsUsed id row stored)
  · split at taken
    · rename_i absent
      cases taken
      exact sound.setTask stay sound.accounted ⟨holds, Or.inl absent⟩
    · split at taken
      · cases taken
      · rename_i free
        cases taken
        have moves : Moves db (db.lockRows task [id]) task := by
          apply moves_lockRows
          simpa using free
        apply sound.setTask moves sound.accounted
        refine ⟨holds, Or.inr ?_⟩
        simp [Owns, get?_lockRows]
  · cases taken
    have moves : Moves db (db.deleteRows [id]) task := by
      apply moves_deleteRows
      simpa using holds.2
    apply sound.setTask (moves.trans (moves_release _ task))
    · exact sound.accounted.deleteRows
    · exact gone_deleteRows List.mem_cons_self holds.1
  · cases taken
    apply sound.setTask (moves_unlink_final holds)
    · exact sound.accounted.unlink holds.2
    · exact holds
  · cases taken
    exact sound.finish (moves_filterParts db task _) sound.accounted
  · cases taken

/-! ### Attaching -/

theorem attachable_committed {channel : ChannelId}
    (fit : attachable db user channel id = true) :
    ∃ row, db.rows.get? id = some row ∧ row.status = .committed := by
  unfold attachable at fit
  split at fit
  · cases fit
  · rename_i row stored
    simp only [Bool.and_eq_true, decide_eq_true_eq] at fit
    exact ⟨row, stored, fit.1.2⟩

theorem get?_attached {rows : Table FileId File} {ids : List FileId}
    {message : MessageId} {attached : File}
    (stored : (rows.mapRows fun id row =>
      if id ∈ ids then { row with messageId := some message } else row).get? id =
        some attached) :
    ∃ old, rows.get? id = some old ∧ old.size = attached.size ∧
      old.status = attached.status ∧ old.sha256 = attached.sha256 ∧
      (id ∉ ids → attached = old) := by
  simp only [Table.get?_mapRows, Option.map_eq_some_iff] at stored
  obtain ⟨old, found, rfl⟩ := stored
  refine ⟨old, found, ?_⟩
  split <;> simp [*]

theorem attachStep_sound (sound : Sound sha256 db) {message : MessageId}
    {channel : ChannelId} {ids : List FileId} {stage : AttachStage}
    (holds : stage.Holds db task ids)
    (taken : attachStep db task message user channel ids stage = some next) :
    Sound sha256 next := by
  cases stage with
  | begun =>
      simp only [attachStep] at taken
      split at taken
      · cases taken
      · rename_i free
        split at taken
        · rename_i fit
          cases taken
          have moves : Moves db (db.lockRows task ids) task := by
            apply moves_lockRows
            simpa using free
          apply sound.setTask moves sound.accounted
          intro id mem
          obtain ⟨row, stored, committed⟩ :=
            attachable_committed (List.all_eq_true.mp fit.2 id mem)
          refine ⟨sound.accounted.rowsUsed id row stored, ?_, row, stored, committed⟩
          simp [Owns, get?_lockRows, mem]
        · cases taken
          exact sound.finish (Moves.refl db task) sound.accounted
  | locked =>
      cases taken
      have moves : Moves db { db with
          rows := db.rows.mapRows fun id row =>
            if id ∈ ids then { row with messageId := some message } else row }
          task := by
        apply moves_rows
        · intro id row stored
          obtain ⟨old, found, size, -⟩ := get?_attached stored
          exact ⟨old, found, size⟩
        · intro id free
          have apart : id ∉ ids := fun mem => free (holds id mem).2.1
          simp [apart]
      apply sound.finish moves
      constructor
      · intro id row stored status
        obtain ⟨old, found, size, same, digest, -⟩ := get?_attached stored
        rw [← size, ← digest]
        exact sound.accounted.backed id old found (same.trans status)
      · intro id row stored status
        obtain ⟨old, found, -, same, -, apart⟩ := get?_attached stored
        have free : id ∉ ids := by
          intro mem
          obtain ⟨-, -, committed, here, isCommitted⟩ := holds id mem
          rw [found, Option.some.injEq] at here
          rw [← here, same, status] at isCommitted
          cases isCommitted
        rw [apart free]
        exact sound.accounted.loose id old found (same.trans status)
      · intro id row stored
        obtain ⟨old, found, -⟩ := get?_attached stored
        exact sound.accounted.rowsUsed id old found
      · exact sound.accounted.finalsUsed

/-! ### The sweep -/

theorem mem_matching {test : FileId → File → Bool} :
    id ∈ db.matching test ↔
      ∃ row, db.rows.get? id = some row ∧ test id row = true := by
  constructor
  · intro mem
    obtain ⟨⟨id, row⟩, stored, rfl⟩ := List.mem_map.mp mem
    rw [Table.mem_rows, Table.get?_filter, Option.filter_eq_some_iff] at stored
    exact ⟨row, stored⟩
  · rintro ⟨row, stored⟩
    refine List.mem_map.mpr ⟨(id, row), ?_, rfl⟩
    rw [Table.mem_rows, Table.get?_filter, Option.filter_eq_some_iff]
    exact stored

theorem final_mem_staleEntries (listed : .final id ∈ db.staleEntries) :
    ∃ stored, db.finals.get? id = some stored := by
  simp only [Db.staleEntries, List.mem_append, List.mem_map, Path.final.injEq,
    reduceCtorEq, and_false, exists_false, or_false] at listed
  obtain ⟨⟨id, stored⟩, mem, rfl⟩ := listed
  rw [Table.mem_rows, Table.get?_filter, Option.filter_eq_some_iff] at mem
  exact ⟨stored, mem.1⟩

/-- What one of the two `DELETE`s takes. -/
theorem lockMatching_doomed (sound : Sound sha256 db)
    {test : FileId → File → Bool}
    (loose : ∀ id row, db.rows.get? id = some row → test id row = true →
      row.messageId = none) :
    ∀ id ∈ db.matching test,
      Doomed (db.lockRows task (db.matching test)) task id := by
  intro id mem
  obtain ⟨row, stored, matched⟩ := mem_matching.mp mem
  refine ⟨sound.accounted.rowsUsed id row stored, ?_, row, stored,
    loose id row stored matched⟩
  simp [Owns, get?_lockRows, mem]

theorem unlink_sound (sound : Sound sha256 db) {path : Path} {held : Task}
    (gone : ∀ id, path = .final id → Gone db id)
    (holds : held.Holds (db.unlink path) task) :
    Sound sha256 ((db.unlink path).setTask task held) := by
  cases path with
  | final id =>
      apply sound.setTask (moves_unlink_final (gone id rfl))
      · exact sound.accounted.unlink (gone id rfl).2
      · exact holds
  | part id name =>
      exact sound.setTask (moves_filterParts db task _) sound.accounted holds

theorem sweepStep_sound (sound : Sound sha256 db) {stage : SweepStage}
    (stored : db.tasks.get? task = some (.sweep stage))
    (timely : Timely db (.advance task .run))
    (taken : sweepStep db task stage = some next) : Sound sha256 next := by
  have holds : stage.Holds db task := sound.tasks task _ stored
  have stay := Moves.refl db task
  unfold sweepStep at taken
  split at taken
  · cases taken
    exact sound.setTask stay sound.accounted trivial
  · simp only at taken
    split at taken
    · cases taken
    · rename_i free
      cases taken
      apply sound.setTask (moves_lockRows (by simpa using free)) sound.accounted
      apply lockMatching_doomed sound
      intro id row found matched
      simp only [isStalePending, Bool.and_eq_true, decide_eq_true_eq] at matched
      exact sound.accounted.loose id row found matched.1.1
  · rename_i now pending
    simp only at taken
    split at taken
    · cases taken
    · rename_i free
      cases taken
      have moves : Moves db (db.lockRows task (db.matching (isUnattached now)))
          task := moves_lockRows (by simpa using free)
      apply sound.setTask moves sound.accounted
      intro id mem
      rcases List.mem_append.mp mem with old | new
      · obtain ⟨used, owns, row, found, loose⟩ := holds id old
        refine ⟨used, ?_, row, found, loose⟩
        rw [Owns, get?_lockRows]
        split
        · rfl
        · exact owns
      · revert new
        apply lockMatching_doomed sound
        intro id row found matched
        simp only [isUnattached, Bool.and_eq_true, decide_eq_true_eq] at matched
        exact matched.1.2
  · rename_i doomed
    cases taken
    have moves : Moves db (db.deleteRows doomed) task :=
      moves_deleteRows fun id mem => Or.inr (holds id mem).2.1
    apply sound.setTask (moves.trans (moves_release _ task))
    · exact sound.accounted.deleteRows
    · exact fun id mem => gone_deleteRows mem (holds id mem).1
  · cases taken
    exact sound.setTask stay sound.accounted holds
  · rename_i known
    cases taken
    apply sound.setTask stay sound.accounted
    intro id listed unknown
    obtain ⟨final, found⟩ := final_mem_staleEntries listed
    refine ⟨sound.accounted.finalsUsed id final found, ?_⟩
    apply Option.eq_none_iff_forall_ne_some.mpr
    intro row here
    have inTable : id ∈ db.rows.rows.map Prod.fst :=
      List.mem_map.mpr ⟨(id, row), Table.mem_rows.mpr here, rfl⟩
    have listing : known ∈ db.listing task := by
      simp [Db.listing, stored]
    exact timely known listing id inTable unknown listed
  · rename_i id doomed known
    cases taken
    have gone := holds id List.mem_cons_self
    apply unlink_sound sound
    · rintro _ ⟨⟩
      exact gone
    · exact ⟨gone, fun other mem => holds other (List.mem_cons_of_mem _ mem)⟩
  · cases taken
    exact sound.setTask (moves_filterParts db task _) sound.accounted holds.2
  · cases taken
    exact sound.finish stay sound.accounted
  · rename_i path paths known
    cases taken
    have rest : ∀ id, .final id ∈ paths → id ∉ known → Gone db id :=
      fun id mem unknown => holds id (List.mem_cons_of_mem _ mem) unknown
    split
    · rename_i orphan
      apply unlink_sound sound
      · rintro id rfl
        exact holds id List.mem_cons_self (by simpa [isOrphan] using orphan)
      · cases path <;> exact rest
    · exact sound.setTask stay sound.accounted rest

/-! ### Runs -/

theorem createStep_sound (sound : Sound sha256 db) {row : File}
    (new : row.status = .pending ∧ row.messageId = none)
    (taken : createStep db task id row = some next) : Sound sha256 next := by
  unfold createStep at taken
  split at taken
  · cases taken
  · rename_i fresh
    cases taken
    apply sound.finish (moves_create fresh)
    have old : ∀ {other found}, (db.rows.put id row).get? other = some found →
        (other = id ∧ found = row) ∨ db.rows.get? other = some found := by
      intro other found stored
      by_cases same : other = id
      · subst same
        rw [Table.get?_put_self, Option.some.injEq] at stored
        exact Or.inl ⟨rfl, stored.symm⟩
      · rw [Table.get?_put_ne _ _ same] at stored
        exact Or.inr stored
    constructor
    · intro other found stored status
      rcases old stored with ⟨rfl, rfl⟩ | before
      · rw [new.1] at status
        cases status
      · exact sound.accounted.backed other found before status
    · intro other found stored status
      rcases old stored with ⟨rfl, rfl⟩ | before
      · exact new.2
      · exact sound.accounted.loose other found before status
    · intro other found stored
      rcases old stored with ⟨rfl, rfl⟩ | before
      · exact List.mem_cons_self
      · exact List.mem_cons_of_mem _ (sound.accounted.rowsUsed other found before)
    · intro other final found
      exact List.mem_cons_of_mem _ (sound.accounted.finalsUsed other final found)

theorem advanceStep_sound (sound : Sound sha256 db) {event : Event}
    (timely : Timely db (.advance task event))
    (taken : advanceStep sha256 db task event = some next) :
    Sound sha256 next := by
  unfold advanceStep at taken
  split at taken
  · rename_i stored
    exact createStep_sound sound (sound.tasks task _ stored) taken
  · rename_i stored
    exact putStep_sound sound (sound.tasks task _ stored) taken
  · rename_i stored
    exact deleteStep_sound sound (sound.tasks task _ stored) taken
  · rename_i stored
    exact attachStep_sound sound (sound.tasks task _ stored) taken
  · rename_i stored
    exact sweepStep_sound sound stored timely taken
  · cases taken

theorem launch_sound (sound : Sound sha256 db) {begun : Task}
    (holds : begun.Holds db task) (taken : launch db task begun = some next) :
    Sound sha256 next := by
  unfold launch at taken
  split at taken
  · cases taken
  · cases taken
    exact sound.setTask (Moves.refl db task) sound.accounted holds

theorem step_sound {action : Action} (sound : Sound sha256 db)
    (timely : Timely db action) (taken : step sha256 db action = some next) :
    Sound sha256 next := by
  cases action with
  | create task id user channel size =>
      apply launch_sound sound _ taken
      exact ⟨rfl, rfl⟩
  | put task id user =>
      apply launch_sound sound _ taken
      trivial
  | delete task id user =>
      apply launch_sound sound _ taken
      trivial
  | attach task message user channel ids =>
      apply launch_sound sound _ taken
      trivial
  | sweep task =>
      apply launch_sound sound _ taken
      trivial
  | advance task event => exact advanceStep_sound sound timely taken
  | fail task =>
      simp only [step] at taken
      split at taken
      · cases taken
      · rename_i stored
        cases taken
        exact failPut_sound sound (sound.tasks task _ stored)
      · cases taken
        exact sound.finish (Moves.refl db task) sound.accounted
  | crash =>
      cases taken
      exact ⟨sound.accounted, by simp⟩
  | tick seconds =>
      cases taken
      exact ⟨sound.accounted, sound.tasks⟩

theorem sound_start : Sound sha256 Db.start where
  accounted := by
    constructor
    · intro id row stored
      simp [Db.start] at stored
    · simp [Db.start]
    · simp [Db.start]
    · simp [Db.start]
  tasks := by simp [Db.start]

/-- A sweep writes the table in one of its steps only. -/
theorem sweepStep_rows {stage : SweepStage}
    (taken : sweepStep db task stage = some next) :
    next.rows = db.rows ∨
      ∃ doomed, stage = .selected doomed ∧
        next.rows = (db.deleteRows doomed).rows := by
  unfold sweepStep at taken
  split at taken
  case h_2 now busy =>
    simp only at taken
    split at taken
    · cases taken
    · cases taken
      exact Or.inl rfl
  case h_3 now pending =>
    simp only at taken
    split at taken
    · cases taken
    · cases taken
      exact Or.inl rfl
  case h_4 doomed =>
    cases taken
    exact Or.inr ⟨doomed, rfl, rfl⟩
  case h_10 path paths known =>
    cases taken
    left
    split
    · cases path <;> rfl
    · rfl
  all_goals
    cases taken
    exact Or.inl rfl

theorem Sound.sparesAttached (sound : Sound sha256 db) :
    SparesAttached sha256 db := by
  intro task stage event next stored taken id row found attached
  cases event with
  | run =>
      simp only [step, advanceStep, stored] at taken
      rcases sweepStep_rows taken with same | ⟨doomed, rfl, deleted⟩
      · rw [same]
        exact found
      · have spared : id ∉ doomed := by
          intro mem
          obtain ⟨-, -, old, here, loose⟩ := sound.tasks task _ stored id mem
          rw [found, Option.some.injEq] at here
          exact attached (here ▸ loose)
        rw [deleted, Db.deleteRows, Table.get?_filter_kept]
        · exact found
        · exact fun _ => by simpa using spared
  | _ => simp [step, advanceStep, stored] at taken

end

/-- Whatever uploads, deletes, sends, sweeps and crashes overlap, a committed
file keeps its bytes and an attached one is not swept, as long as every pass
lists the disk in time. -/
theorem committed_files_kept (sha256 : Bytes → Digest) {actions : List Action}
    {db : Db} (timely : Along (step sha256) Timely Db.start actions)
    (reached : run (step sha256) Db.start actions = some db) :
    Backed sha256 db.rows db.finals ∧ SparesAttached sha256 db := by
  have sound : Sound sha256 db :=
    run_invariant step_sound sound_start timely reached
  exact ⟨sound.accounted.backed, sound.sparesAttached⟩

/-- The digest of `abc`. -/
def digestOfAbc (bytes : Bytes) : Digest :=
  if bytes = [97, 98, 99] then
    0xba7816bf8f01cfea414140de5dae2223b00361a396177a9cb410ff61f20015ad
  else 0

/-- A file is created, uploaded as task 2 and attached. -/
def uploadAbc (id : FileId) : List Action :=
  [.create 1 id 7 3 3, .advance 1 .run, .put 2 id 7, .advance 2 .run,
    .advance 2 .run, .advance 2 (.open_ 5), .advance 2 (.chunk [97, 98]),
    .advance 2 (.chunk [99]), .advance 2 .run, .advance 2 .run,
    .advance 2 .run, .advance 2 .run, .advance 2 .run, .advance 2 .run]

theorem committed_files_kept_swept :
    ∃ db, run (step digestOfAbc) Db.start
        (uploadAbc 1 ++ [.attach 3 9 7 3 [1], .advance 3 .run, .advance 3 .run,
          .tick 100000, .sweep 4] ++ List.replicate 8 (.advance 4 .run)) =
          some db ∧
      (db.rows.get? 1).map (·.messageId) = some (some 9) ∧
      (db.finals.get? 1).map (·.bytes) = some [97, 98, 99] ∧
      Backed digestOfAbc db.rows db.finals := by
  obtain ⟨db, reached, facts⟩ : ∃ db, run (step digestOfAbc) Db.start
        (uploadAbc 1 ++ [.attach 3 9 7 3 [1], .advance 3 .run, .advance 3 .run,
          .tick 100000, .sweep 4] ++ List.replicate 8 (.advance 4 .run)) =
          some db ∧
      (db.rows.get? 1).map (·.messageId) = some (some 9) ∧
      (db.finals.get? 1).map (·.bytes) = some [97, 98, 99] := by
    refine ⟨_, rfl, ?_⟩
    decide +kernel
  have timely : Along (step digestOfAbc) Timely Db.start
      (uploadAbc 1 ++ [.attach 3 9 7 3 [1], .advance 3 .run, .advance 3 .run,
        .tick 100000, .sweep 4] ++ List.replicate 8 (.advance 4 .run)) := by
    decide +kernel
  exact ⟨db, reached, facts.1, facts.2,
    (committed_files_kept digestOfAbc timely reached).1⟩

/-- A pass that takes more than an hour to remove what it has deleted, and
meanwhile a file that is created and uploaded. -/
def slowSweep : List Action :=
  [.create 1 0 7 3 3, .advance 1 .run, .tick 3601, .sweep 4] ++
    List.replicate 5 (.advance 4 .run) ++ uploadAbc 1 ++ [.tick 3601] ++
      List.replicate 4 (.advance 4 .run)

theorem bytes_lost_to_slow_sweep :
    ¬ ∀ sha256 actions db, run (step sha256) Db.start actions = some db →
      Backed sha256 db.rows db.finals := by
  intro claimed
  obtain ⟨db, reached, row, found, status, lost⟩ : ∃ db,
      run (step digestOfAbc) Db.start slowSweep = some db ∧
        ∃ row, db.rows.get? 1 = some row ∧ row.status = .committed ∧
          db.finals.get? 1 = none := by
    refine ⟨_, rfl, _, rfl, ?_⟩
    decide +kernel
  obtain ⟨stored, here, -⟩ :=
    claimed digestOfAbc slowSweep db reached 1 row found status
  rw [lost] at here
  cases here

end Brook.Files
