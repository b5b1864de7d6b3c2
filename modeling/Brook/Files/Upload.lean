import Brook.Files.Frame

namespace Brook.Files

/-! A `PUT` keeps the account of the files, whatever runs between its steps. -/

section

variable {sha256 : Bytes → Digest} {db mid next : Db} {task : TaskId}
variable {id : FileId} {user : UserId}

theorem discard_sound (sound : Sound sha256 db)
    (mine : db.inFlight.get? id = some task) (name : PartName) :
    Sound sha256 (discard db task id user name) :=
  sound.setTask (moves_filterParts db task _) sound.accounted mine

theorem uploadStep_sound (sound : Sound sha256 db) {stage : PutStage}
    (holds : stage.Holds db task id)
    (taken : uploadStep db task id user stage = some next) :
    Sound sha256 next := by
  have ended := sound.finish (Moves.refl db task) sound.accounted
  cases stage with
  | begun =>
      simp only [uploadStep] at taken
      split at taken
      · cases taken
        exact ended
      · rename_i row stored
        split at taken
        · cases taken
          exact ended
        · split at taken
          · cases taken
            exact ended
          · cases taken
            have sized : Sized db id row.size := by
              refine ⟨sound.accounted.rowsUsed id row stored, ?_⟩
              intro other found
              rw [stored, Option.some.injEq] at found
              rw [found]
            exact sound.setTask (Moves.refl db task) sound.accounted sized
  | looked declared =>
      simp only [uploadStep] at taken
      split at taken
      · cases taken
        exact ended
      · rename_i free
        split at taken
        · cases taken
          exact ended
        · cases taken
          have absent : db.inFlight.get? id = none := by
            simpa [Table.contains] using free
          apply sound.setTask (moves_register absent) sound.accounted
          exact ⟨Table.get?_put_self _ _ _, holds⟩
  | _ => cases taken

theorem openPart_sound (sound : Sound sha256 db) {declared : Nat}
    (mine : db.inFlight.get? id = some task) (sized : Sized db id declared)
    (name : PartName) :
    Sound sha256 ((db.openPart id name).setTask task
      (.put id user (.streaming declared name []))) := by
  have moves : Moves db (db.openPart id name) task := by
    apply moves_parts mine
    intro other part different
    apply Table.get?_put_ne
    simp [different]
  apply sound.setTask moves sound.accounted
  refine ⟨mine, sized, ?_⟩
  intro stored found
  rw [Db.openPart, Table.get?_put_self, Option.some.injEq] at found
  rw [← found]

theorem writePart_sound (sound : Sound sha256 db) {declared : Nat}
    (mine : db.inFlight.get? id = some task) (sized : Sized db id declared)
    (name : PartName) (written : Bytes) :
    Sound sha256 ((db.writePart id name written).setTask task
      (.put id user (.streaming declared name written))) := by
  have moves : Moves db (db.writePart id name written) task := by
    apply moves_parts mine
    intro other part different
    simp [different]
  apply sound.setTask moves sound.accounted
  refine ⟨mine, sized, ?_⟩
  intro stored found
  simp only [Db.writePart, Table.get?_mapRows, if_true,
    Option.map_eq_some_iff] at found
  obtain ⟨_, _, rfl⟩ := found
  rfl

theorem streamStep_sound (sound : Sound sha256 db) {stage : PutStage}
    {event : Event} (holds : stage.Holds db task id)
    (taken : streamStep db task id user stage event = some next) :
    Sound sha256 next := by
  unfold streamStep at taken
  split at taken
  · split at taken
    · cases taken
    · cases taken
      exact openPart_sound sound holds.1 holds.2 _
  · split at taken
    · cases taken
      exact discard_sound sound holds.1 _
    · cases taken
      exact writePart_sound sound holds.1 holds.2.1 _ _
  · split at taken
    · cases taken
      exact discard_sound sound holds.1 _
    · rename_i complete
      cases taken
      obtain ⟨mine, sized, writes⟩ := holds
      rw [← not_not.mp complete] at sized
      exact sound.setTask (Moves.refl db task) sound.accounted
        ⟨mine, sized, writes⟩
  · cases taken

theorem Accounted.rename {used : List FileId} {rows : Table FileId File}
    {finals : Table FileId Stored} (accounted : Accounted sha256 used rows finals)
    {row : File} (stored : rows.get? id = some row)
    (pending : row.status = .pending) (part : Stored) :
    Accounted sha256 used rows (finals.put id part) where
  backed := by
    intro other committed found status
    rw [Table.get?_put_ne]
    · exact accounted.backed other committed found status
    · rintro rfl
      rw [stored, Option.some.injEq] at found
      rw [found, status] at pending
      cases pending
  loose := accounted.loose
  rowsUsed := accounted.rowsUsed
  finalsUsed := by
    intro other final found
    by_cases same : other = id
    · rw [same]
      exact accounted.rowsUsed id row stored
    · rw [Table.get?_put_ne _ _ same] at found
      exact accounted.finalsUsed other final found

/-- The commit of a `PUT` whose bytes are in place. -/
theorem Accounted.commit {used : List FileId} {rows : Table FileId File}
    {finals : Table FileId Stored} (accounted : Accounted sha256 used rows finals)
    {row : File} (stored : rows.get? id = some row) {final : Stored}
    (placed : finals.get? id = some final)
    (size : row.size = final.bytes.length) :
    Accounted sha256 used (rows.put id (row.commit (sha256 final.bytes)))
      finals where
  backed := by
    intro other committed found status
    by_cases same : other = id
    · subst same
      rw [Table.get?_put_self, Option.some.injEq] at found
      subst found
      exact ⟨final, placed, size.symm, rfl⟩
    · rw [Table.get?_put_ne _ _ same] at found
      exact accounted.backed other committed found status
  loose := by
    intro other pending found status
    by_cases same : other = id
    · subst same
      rw [Table.get?_put_self, Option.some.injEq] at found
      subst found
      cases status
    · rw [Table.get?_put_ne _ _ same] at found
      exact accounted.loose other pending found status
  rowsUsed := by
    intro other committed found
    by_cases same : other = id
    · rw [same]
      exact accounted.rowsUsed id row stored
    · rw [Table.get?_put_ne _ _ same] at found
      exact accounted.rowsUsed other committed found
  finalsUsed := accounted.finalsUsed

theorem moves_flip (owns : Owns db task id) {row committed : File}
    (stored : db.rows.get? id = some row) (size : row.size = committed.size) :
    Moves db { db with rows := db.rows.put id committed } task := by
  apply moves_rows
  · intro other found storedFound
    by_cases same : other = id
    · subst same
      rw [Table.get?_put_self, Option.some.injEq] at storedFound
      exact ⟨row, stored, by rw [← storedFound, size]⟩
    · rw [Table.get?_put_ne _ _ same] at storedFound
      exact ⟨found, storedFound, rfl⟩
  · intro other free
    apply Table.get?_put_ne
    rintro rfl
    exact free owns

theorem commitStep_sound (sound : Sound sha256 db) {stage : PutStage}
    (holds : stage.Holds db task id)
    (taken : commitStep sha256 db task id user stage = some next) :
    Sound sha256 next := by
  cases stage with
  | finished name written =>
      obtain ⟨mine, sized, writes⟩ := holds
      have lost : Sound sha256 (discard db task id user name) :=
        discard_sound sound mine name
      simp only [commitStep] at taken
      split at taken
      · cases taken
      · rename_i free
        split at taken
        · cases taken
          exact lost
        · rename_i row stored
          split at taken
          · rename_i pending
            cases taken
            have moves : Moves db (db.lockRows task [id]) task := by
              apply moves_lockRows
              simpa using free
            apply sound.setTask moves sound.accounted
            refine ⟨mine, sized, writes, ?_, row, stored, pending⟩
            simp [Owns, get?_lockRows]
          · cases taken
            exact lost
  | flipped name written =>
      obtain ⟨mine, sized, writes, owns, row, stored, pending⟩ := holds
      simp only [commitStep] at taken
      split at taken
      · cases taken
        exact sound.setTask (moves_release db task) sound.accounted mine
      · rename_i part found
        cases taken
        have moves : Moves db (db.rename id name part) task := by
          have owned : Owns (db.unlink (.part id name)) task id := owns
          exact (moves_filterParts db task _).trans (moves_rename owned part)
        apply sound.setTask moves (sound.accounted.rename stored pending part)
        refine ⟨mine, sized, ⟨owns, row, stored, pending⟩, part, ?_,
          writes part found⟩
        exact Table.get?_put_self _ _ _
  | renamed written =>
      obtain ⟨mine, sized, ⟨owns, row, stored, -⟩, final, placed, rfl⟩ := holds
      simp only [commitStep, stored, Option.some.injEq] at taken
      subst taken
      have size := sized.2 row stored
      have same : row.size = (row.commit (sha256 final.bytes)).size := rfl
      have flip := moves_flip owns stored same
      apply sound.setTask (flip.trans (moves_release _ task))
      · exact sound.accounted.commit stored placed size
      · exact mine
  | closing =>
      cases taken
      exact sound.setTask (moves_leave holds) sound.accounted trivial
  | closed =>
      cases taken
      exact sound.finish (Moves.refl db task) sound.accounted
  | _ => cases taken

theorem putStep_sound (sound : Sound sha256 db) {stage : PutStage}
    {event : Event} (holds : stage.Holds db task id)
    (taken : putStep sha256 db task id user stage event = some next) :
    Sound sha256 next := by
  unfold putStep at taken
  split at taken
  · exact uploadStep_sound sound holds taken
  · exact uploadStep_sound sound holds taken
  · exact streamStep_sound sound holds taken
  · exact streamStep_sound sound holds taken
  · exact commitStep_sound sound holds taken
  · cases taken

theorem failPut_sound (sound : Sound sha256 db) {stage : PutStage}
    (holds : stage.Holds db task id) :
    Sound sha256 (failPut db task id user stage) := by
  have ended := sound.finish (Moves.refl db task) sound.accounted
  cases stage with
  | begun => exact ended
  | looked declared => exact ended
  | registered declared =>
      exact sound.setTask (Moves.refl db task) sound.accounted holds.1
  | streaming declared name written => exact discard_sound sound holds.1 name
  | finished name written => exact discard_sound sound holds.1 name
  | flipped name written => exact discard_sound sound holds.1 name
  | renamed written =>
      exact sound.setTask (Moves.refl db task) sound.accounted holds.1
  | closing => exact sound
  | closed => exact sound

end

end Brook.Files
