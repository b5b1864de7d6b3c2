import Brook.Files.Storage

namespace Brook.Files

/-! What each task relies on between its steps, and what the steps of the other
tasks leave alone. -/

/-- Every committed row has its size of bytes under its final path, with its
digest. -/
def Backed (sha256 : Bytes → Digest) (rows : Table FileId File)
    (finals : Table FileId Stored) : Prop :=
  ∀ id row, rows.get? id = some row → row.status = .committed →
    ∃ stored, finals.get? id = some stored ∧
      stored.bytes.length = row.size ∧ row.sha256 = some (sha256 stored.bytes)

/-! ### What a task relies on -/

def Owns (db : Db) (task : TaskId) (id : FileId) : Prop :=
  db.locks.get? id = some task

/-- The row was there and is deleted; its id does not come back. -/
def Gone (db : Db) (id : FileId) : Prop :=
  id ∈ db.used ∧ db.rows.get? id = none

def Sized (db : Db) (id : FileId) (size : Nat) : Prop :=
  id ∈ db.used ∧ ∀ row, db.rows.get? id = some row → row.size = size

/-- The task's own part, if it is still on disk, has what the task has hashed. -/
def Writes (db : Db) (id : FileId) (name : PartName) (written : Bytes) : Prop :=
  ∀ stored, db.parts.get? (id, name) = some stored → stored.bytes = written

/-- The row whose status the transaction of the task has flipped. -/
def Flips (db : Db) (task : TaskId) (id : FileId) : Prop :=
  Owns db task id ∧ ∃ row, db.rows.get? id = some row ∧ row.status = .pending

def PutStage.Holds (db : Db) (task : TaskId) (id : FileId) : PutStage → Prop
  | .begun | .closed => True
  | .looked declared => Sized db id declared
  | .registered declared =>
      db.inFlight.get? id = some task ∧ Sized db id declared
  | .streaming declared name written =>
      db.inFlight.get? id = some task ∧ Sized db id declared ∧
        Writes db id name written
  | .finished name written =>
      db.inFlight.get? id = some task ∧ Sized db id written.length ∧
        Writes db id name written
  | .flipped name written =>
      db.inFlight.get? id = some task ∧ Sized db id written.length ∧
        Writes db id name written ∧ Flips db task id
  | .renamed written =>
      db.inFlight.get? id = some task ∧ Sized db id written.length ∧
        Flips db task id ∧
          ∃ stored, db.finals.get? id = some stored ∧ stored.bytes = written
  | .closing => db.inFlight.get? id = some task

def DeleteStage.Holds (db : Db) (task : TaskId) (id : FileId) :
    DeleteStage → Prop
  | .begun => True
  | .looked => id ∈ db.used
  | .deleting => id ∈ db.used ∧ (db.rows.get? id = none ∨ Owns db task id)
  | .removing | .removingParts => Gone db id

def AttachStage.Holds (db : Db) (task : TaskId) (ids : List FileId) :
    AttachStage → Prop
  | .begun => True
  | .locked => ∀ id ∈ ids, id ∈ db.used ∧ Owns db task id ∧
      ∃ row, db.rows.get? id = some row ∧ row.status = .committed

/-- A row that the transaction of a sweep has deleted. -/
def Doomed (db : Db) (task : TaskId) (id : FileId) : Prop :=
  id ∈ db.used ∧ Owns db task id ∧
    ∃ row, db.rows.get? id = some row ∧ row.messageId = none

def SweepStage.Holds (db : Db) (task : TaskId) : SweepStage → Prop
  | .begun | .deleting _ _ => True
  | .deleted _ doomed | .selected doomed => ∀ id ∈ doomed, Doomed db task id
  | .committed doomed | .removing doomed _ => ∀ id ∈ doomed, Gone db id
  | .removingParts id doomed _ => Gone db id ∧ ∀ id ∈ doomed, Gone db id
  | .unlinking paths known =>
      ∀ id, .final id ∈ paths → id ∉ known → Gone db id

def Task.Holds (db : Db) (task : TaskId) : Task → Prop
  | .create _ row => row.status = .pending ∧ row.messageId = none
  | .put id _ stage => stage.Holds db task id
  | .delete id _ stage => stage.Holds db task id
  | .attach _ _ _ ids stage => stage.Holds db task ids
  | .sweep stage => stage.Holds db task

/-- What holds of the table and of the final paths. -/
structure Accounted (sha256 : Bytes → Digest) (used : List FileId)
    (rows : Table FileId File) (finals : Table FileId Stored) : Prop where
  backed : Backed sha256 rows finals
  loose : ∀ id row, rows.get? id = some row → row.status = .pending →
    row.messageId = none
  rowsUsed : ∀ id row, rows.get? id = some row → id ∈ used
  finalsUsed : ∀ id stored, finals.get? id = some stored → id ∈ used

structure Sound (sha256 : Bytes → Digest) (db : Db) : Prop where
  accounted : Accounted sha256 db.used db.rows db.finals
  tasks : ∀ task held, db.tasks.get? task = some held → held.Holds db task

/-- What a step of one task leaves to the others. -/
structure Moves (db next : Db) (task : TaskId) : Prop where
  used : ∀ {id}, id ∈ db.used → id ∈ next.used
  sizes : ∀ {id row}, id ∈ db.used → next.rows.get? id = some row →
    ∃ old, db.rows.get? id = some old ∧ old.size = row.size
  tasks : ∀ {other}, other ≠ task → next.tasks.get? other = db.tasks.get? other
  locks : ∀ {other id}, other ≠ task → Owns db other id → Owns next other id
  rows : ∀ {other id}, other ≠ task → Owns db other id → id ∈ db.used →
    next.rows.get? id = db.rows.get? id
  inFlight : ∀ {other id}, other ≠ task → db.inFlight.get? id = some other →
    next.inFlight.get? id = some other
  parts : ∀ {other id name stored}, other ≠ task →
    db.inFlight.get? id = some other →
    next.parts.get? (id, name) = some stored →
    db.parts.get? (id, name) = some stored
  finals : ∀ {other id row}, other ≠ task → Owns db other id →
    id ∈ db.used → db.rows.get? id = some row →
    next.finals.get? id = db.finals.get? id

section

variable {db mid next : Db} {task other : TaskId} {id : FileId}

theorem Moves.trans (first : Moves db mid task) (second : Moves mid next task) :
    Moves db next task where
  used here := second.used (first.used here)
  sizes here stored := by
    obtain ⟨middle, found, same⟩ := second.sizes (first.used here) stored
    obtain ⟨old, before, equal⟩ := first.sizes here found
    exact ⟨old, before, equal.trans same⟩
  tasks different := (second.tasks different).trans (first.tasks different)
  locks different owns := second.locks different (first.locks different owns)
  rows different owns here :=
    (second.rows different (first.locks different owns) (first.used here)).trans
      (first.rows different owns here)
  inFlight different mine := second.inFlight different (first.inFlight different mine)
  parts different mine stored :=
    first.parts different mine
      (second.parts different (first.inFlight different mine) stored)
  finals different owns here stored := by
    have kept := first.rows different owns here
    exact (second.finals different (first.locks different owns) (first.used here)
      (kept.trans stored)).trans (first.finals different owns here stored)

theorem Gone.moves (gone : Gone db id) (moves : Moves db next task) :
    Gone next id := by
  refine ⟨moves.used gone.1, ?_⟩
  apply Option.eq_none_iff_forall_ne_some.mpr
  intro row stored
  obtain ⟨old, before, -⟩ := moves.sizes gone.1 stored
  simp [gone.2] at before

theorem Sized.moves {size : Nat} (sized : Sized db id size)
    (moves : Moves db next task) : Sized next id size := by
  refine ⟨moves.used sized.1, ?_⟩
  intro row stored
  obtain ⟨old, before, same⟩ := moves.sizes sized.1 stored
  exact same.symm.trans (sized.2 old before)

theorem Flips.moves (flips : Flips db other id) (used : id ∈ db.used)
    (moves : Moves db next task) (different : other ≠ task) :
    Flips next other id := by
  obtain ⟨owns, row, stored, pending⟩ := flips
  refine ⟨moves.locks different owns, row, ?_, pending⟩
  rw [moves.rows different owns used]
  exact stored

theorem Writes.moves {name : PartName} {written : Bytes}
    (writes : Writes db id name written) (mine : db.inFlight.get? id = some other)
    (moves : Moves db next task) (different : other ≠ task) :
    Writes next id name written :=
  fun stored found => writes stored (moves.parts different mine found)

theorem PutStage.Holds.moves {stage : PutStage} (holds : stage.Holds db other id)
    (moves : Moves db next task) (different : other ≠ task) :
    stage.Holds next other id := by
  cases stage with
  | begun => trivial
  | looked declared => exact Sized.moves holds moves
  | registered declared =>
      exact ⟨moves.inFlight different holds.1, holds.2.moves moves⟩
  | streaming declared name written =>
      obtain ⟨mine, sized, writes⟩ := holds
      exact ⟨moves.inFlight different mine, sized.moves moves,
        writes.moves mine moves different⟩
  | finished name written =>
      obtain ⟨mine, sized, writes⟩ := holds
      exact ⟨moves.inFlight different mine, sized.moves moves,
        writes.moves mine moves different⟩
  | flipped name written =>
      obtain ⟨mine, sized, writes, flips⟩ := holds
      exact ⟨moves.inFlight different mine, sized.moves moves,
        writes.moves mine moves different,
        flips.moves sized.1 moves different⟩
  | renamed written =>
      obtain ⟨mine, sized, flips, stored, found, same⟩ := holds
      refine ⟨moves.inFlight different mine, sized.moves moves,
        flips.moves sized.1 moves different, stored, ?_, same⟩
      obtain ⟨owns, row, here, -⟩ := flips
      rw [moves.finals different owns sized.1 here]
      exact found
  | closing => exact moves.inFlight different holds
  | closed => trivial

theorem DeleteStage.Holds.moves {stage : DeleteStage}
    (holds : stage.Holds db other id) (moves : Moves db next task)
    (different : other ≠ task) : stage.Holds next other id := by
  cases stage with
  | begun => trivial
  | looked => exact moves.used holds
  | deleting =>
      refine ⟨moves.used holds.1, ?_⟩
      rcases holds.2 with absent | owns
      · exact Or.inl (Gone.moves ⟨holds.1, absent⟩ moves).2
      · exact Or.inr (moves.locks different owns)
  | removing => exact Gone.moves holds moves
  | removingParts => exact Gone.moves holds moves

theorem Doomed.moves (doomed : Doomed db other id) (moves : Moves db next task)
    (different : other ≠ task) : Doomed next other id := by
  obtain ⟨used, owns, row, stored, loose⟩ := doomed
  refine ⟨moves.used used, moves.locks different owns, row, ?_, loose⟩
  rw [moves.rows different owns used]
  exact stored

theorem SweepStage.Holds.moves {stage : SweepStage}
    (holds : stage.Holds db other) (moves : Moves db next task)
    (different : other ≠ task) : stage.Holds next other := by
  cases stage with
  | begun => trivial
  | deleting now busy => trivial
  | deleted now doomed =>
      exact fun id mem => (holds id mem).moves moves different
  | selected doomed =>
      exact fun id mem => (holds id mem).moves moves different
  | committed doomed => exact fun id mem => (holds id mem).moves moves
  | removing doomed known => exact fun id mem => (holds id mem).moves moves
  | removingParts id doomed known =>
      exact ⟨holds.1.moves moves, fun id mem => (holds.2 id mem).moves moves⟩
  | unlinking paths known =>
      exact fun id mem unknown => (holds id mem unknown).moves moves

theorem Task.Holds.moves {held : Task} (holds : held.Holds db other)
    (moves : Moves db next task) (different : other ≠ task) :
    held.Holds next other := by
  cases held with
  | create id row => exact holds
  | put id user stage => exact PutStage.Holds.moves holds moves different
  | delete id user stage => exact DeleteStage.Holds.moves holds moves different
  | attach message user channel ids stage =>
      cases stage with
      | begun => trivial
      | locked =>
          intro id mem
          obtain ⟨used, owns, row, stored, committed⟩ := holds id mem
          refine ⟨moves.used used, moves.locks different owns, row, ?_, committed⟩
          rw [moves.rows different owns used]
          exact stored
  | sweep stage => exact SweepStage.Holds.moves holds moves different

variable {sha256 : Bytes → Digest}

theorem Sound.moved (sound : Sound sha256 db) (moves : Moves db next task)
    (accounted : Accounted sha256 next.used next.rows next.finals)
    (own : ∀ held, next.tasks.get? task = some held → held.Holds next task) :
    Sound sha256 next where
  accounted := accounted
  tasks := by
    intro other held stored
    by_cases same : other = task
    · subst same
      exact own held stored
    · rw [moves.tasks same] at stored
      exact (sound.tasks other held stored).moves moves same

end

section

variable {db next : Db} {task : TaskId} {id : FileId}

theorem moves_setTask (db : Db) (task : TaskId) (held : Task) :
    Moves db (db.setTask task held) task where
  used here := here
  sizes _ stored := ⟨_, stored, rfl⟩
  tasks different := Table.get?_put_ne _ _ different
  locks _ owns := owns
  rows _ _ _ := rfl
  inFlight _ mine := mine
  parts _ _ stored := stored
  finals _ _ _ _ := rfl

theorem moves_release (db : Db) (task : TaskId) :
    Moves db (db.release task) task where
  used here := here
  sizes _ stored := ⟨_, stored, rfl⟩
  tasks _ := rfl
  locks different owns := by
    simp only [Owns, Db.release, Table.get?_filter, Option.filter_eq_some_iff]
    exact ⟨owns, by simpa using different⟩
  rows _ _ _ := rfl
  inFlight _ mine := mine
  parts _ _ stored := stored
  finals _ _ _ _ := rfl

theorem moves_finish (db : Db) (task : TaskId) :
    Moves db (db.finish task) task where
  used here := here
  sizes _ stored := ⟨_, stored, rfl⟩
  tasks different := by
    apply Table.get?_filter_kept
    exact fun _ => by simpa using different
  locks different owns := (moves_release db task).locks different owns
  rows _ _ _ := rfl
  inFlight _ mine := mine
  parts _ _ stored := stored
  finals _ _ _ _ := rfl

theorem get?_lockRows (db : Db) (task : TaskId) (ids : List FileId)
    (id : FileId) :
    (db.lockRows task ids).locks.get? id =
      if id ∈ ids then some task else db.locks.get? id := by
  induction ids generalizing db with
  | nil => rfl
  | cons first rest ih =>
      have later : (db.lockRows task (first :: rest)).locks.get? id = _ :=
        ih { db with locks := db.locks.put first task }
      rw [later, Table.get?_put]
      by_cases head : id = first
      · simp [head]
      · simp [head]

theorem moves_lockRows {ids : List FileId}
    (free : ∀ id ∈ ids, db.waits task id = false) :
    Moves db (db.lockRows task ids) task where
  used here := here
  sizes _ stored := ⟨_, stored, rfl⟩
  tasks _ := rfl
  locks := by
    intro other id different owns
    rw [Owns, get?_lockRows, if_neg]
    · exact owns
    · intro mem
      have waits := free id mem
      rw [Owns] at owns
      simp [Db.waits, owns, different] at waits
  rows _ _ _ := rfl
  inFlight _ mine := mine
  parts _ _ stored := stored
  finals _ _ _ _ := rfl

theorem moves_deleteRows {ids : List FileId}
    (mine : ∀ id ∈ ids, db.rows.get? id = none ∨ Owns db task id) :
    Moves db (db.deleteRows ids) task where
  used here := here
  sizes := by
    intro id row _ stored
    simp only [Db.deleteRows, Table.get?_filter, Option.filter_eq_some_iff] at stored
    exact ⟨row, stored.1, rfl⟩
  tasks _ := rfl
  locks _ owns := owns
  rows := by
    intro other id different owns _
    by_cases mem : id ∈ ids
    · rcases mine id mem with absent | taken
      · simp [Db.deleteRows, absent]
      · rw [Owns, taken, Option.some.injEq] at owns
        exact (different owns.symm).elim
    · apply Table.get?_filter_kept
      exact fun _ => by simpa using mem
  inFlight _ mine := mine
  parts _ _ stored := stored
  finals _ _ _ _ := rfl

theorem moves_unlink_final (gone : Gone db id) :
    Moves db (db.unlink (.final id)) task where
  used here := here
  sizes _ stored := ⟨_, stored, rfl⟩
  tasks _ := rfl
  locks _ owns := owns
  rows _ _ _ := rfl
  inFlight _ mine := mine
  parts _ _ stored := stored
  finals := by
    intro other target row _ _ _ stored
    apply Table.get?_filter_kept
    have different : target ≠ id := by
      rintro rfl
      simp [gone.2] at stored
    exact fun _ => by simpa using different

theorem moves_filterParts (db : Db) (task : TaskId)
    (keep : FileId × PartName → Stored → Bool) :
    Moves db { db with parts := db.parts.filter keep } task where
  used here := here
  sizes _ stored := ⟨_, stored, rfl⟩
  tasks _ := rfl
  locks _ owns := owns
  rows _ _ _ := rfl
  inFlight _ mine := mine
  parts := by
    intro other id name stored _ _ found
    simp only [Table.get?_filter, Option.filter_eq_some_iff] at found
    exact found.1
  finals _ _ _ _ := rfl

/-- What a `PUT` does to its own part. -/
theorem moves_parts (mine : db.inFlight.get? id = some task)
    {parts : Table (FileId × PartName) Stored}
    (kept : ∀ other name, other ≠ id →
      parts.get? (other, name) = db.parts.get? (other, name)) :
    Moves db { db with parts := parts } task where
  used here := here
  sizes _ stored := ⟨_, stored, rfl⟩
  tasks _ := rfl
  locks _ owns := owns
  rows _ _ _ := rfl
  inFlight _ mine := mine
  parts := by
    intro other target name stored different registered found
    rw [kept target name] at found
    · exact found
    · rintro rfl
      rw [mine, Option.some.injEq] at registered
      exact different registered.symm
  finals _ _ _ _ := rfl

/-- What a transaction does to a row that it holds. -/
theorem moves_rows {rows : Table FileId File}
    (sizes : ∀ id row, rows.get? id = some row →
      ∃ old, db.rows.get? id = some old ∧ old.size = row.size)
    (kept : ∀ id, ¬ Owns db task id → rows.get? id = db.rows.get? id) :
    Moves db { db with rows } task where
  used here := here
  sizes _ stored := sizes _ _ stored
  tasks _ := rfl
  locks _ owns := owns
  rows := by
    intro other id different owns _
    apply kept
    intro taken
    rw [Owns, taken, Option.some.injEq] at owns
    exact different owns.symm
  inFlight _ mine := mine
  parts _ _ stored := stored
  finals _ _ _ _ := rfl

/-- A rename under the lock of the row. -/
theorem moves_rename (owns : Owns db task id) (stored : Stored) :
    Moves db { db with finals := db.finals.put id stored } task where
  used here := here
  sizes _ stored := ⟨_, stored, rfl⟩
  tasks _ := rfl
  locks _ owns := owns
  rows _ _ _ := rfl
  inFlight _ mine := mine
  parts _ _ stored := stored
  finals := by
    intro other target row different held _ _
    apply Table.get?_put_ne
    rintro rfl
    rw [Owns, owns, Option.some.injEq] at held
    exact different held.symm

theorem moves_register (free : db.inFlight.get? id = none) :
    Moves db (db.register task id) task where
  used here := here
  sizes _ stored := ⟨_, stored, rfl⟩
  tasks _ := rfl
  locks _ owns := owns
  rows _ _ _ := rfl
  inFlight := by
    intro other target _ registered
    rw [Db.register, Table.get?_put_ne]
    · exact registered
    · rintro rfl
      simp [free] at registered
  parts _ _ stored := stored
  finals _ _ _ _ := rfl

theorem moves_leave (mine : db.inFlight.get? id = some task) :
    Moves db (db.leave id) task where
  used here := here
  sizes _ stored := ⟨_, stored, rfl⟩
  tasks _ := rfl
  locks _ owns := owns
  rows _ _ _ := rfl
  inFlight := by
    intro other target different registered
    rw [Db.leave, Table.get?_filter_kept]
    · exact registered
    · have apart : target ≠ id := by
        rintro rfl
        rw [mine, Option.some.injEq] at registered
        exact different registered.symm
      simpa using apart
  parts _ _ stored := stored
  finals _ _ _ _ := rfl

theorem moves_create {row : File} (fresh : id ∉ db.used) :
    Moves db { db with used := id :: db.used, rows := db.rows.put id row }
      task where
  used here := List.mem_cons_of_mem _ here
  sizes := by
    intro other found here stored
    have different : other ≠ id := fun same => fresh (same ▸ here)
    rw [Table.get?_put_ne _ _ different] at stored
    exact ⟨found, stored, rfl⟩
  tasks _ := rfl
  locks _ owns := owns
  rows := by
    intro other target _ _ here
    apply Table.get?_put_ne
    exact fun same => fresh (same ▸ here)
  inFlight _ mine := mine
  parts _ _ stored := stored
  finals _ _ _ _ := rfl

end

section

variable {sha256 : Bytes → Digest} {db mid next : Db} {task : TaskId}
variable {id : FileId} {user : UserId}

/-- A step that goes on to `held`. -/
theorem Sound.setTask (sound : Sound sha256 db) (moves : Moves db mid task)
    (accounted : Accounted sha256 mid.used mid.rows mid.finals) {held : Task}
    (holds : held.Holds mid task) : Sound sha256 (mid.setTask task held) := by
  apply sound.moved (moves.trans (moves_setTask mid task held)) accounted
  intro current stored
  rw [Db.setTask, Table.get?_put_self, Option.some.injEq] at stored
  subst stored
  exact holds

theorem Sound.finish (sound : Sound sha256 db) (moves : Moves db mid task)
    (accounted : Accounted sha256 mid.used mid.rows mid.finals) :
    Sound sha256 (mid.finish task) := by
  apply sound.moved (moves.trans (moves_finish mid task)) accounted
  intro held stored
  simp [Db.finish] at stored

theorem Moves.refl (db : Db) (task : TaskId) : Moves db db task where
  used here := here
  sizes _ stored := ⟨_, stored, rfl⟩
  tasks _ := rfl
  locks _ owns := owns
  rows _ _ _ := rfl
  inFlight _ mine := mine
  parts _ _ stored := stored
  finals _ _ _ _ := rfl

end

end Brook.Files
