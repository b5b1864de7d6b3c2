import Mathlib.Algebra.GroupWithZero.Nat
import Brook.Files.Storage

namespace Brook.Files

open Transition

/-! `POST /channels/{id}/files`, statement by statement.  Each request sums the
table before its own insert, and nothing is locked until then. -/

abbrev ClientId := Nat

structure Settings where
  filesMaxBytes : Nat
  filesQuotaBytes : Nat
  filesMinFreeBytes : Nat

structure FileCreate where
  channelId : ChannelId
  size : Nat
  clientId : Option ClientId

structure FileRow where
  channelId : ChannelId
  uploaderId : UserId
  size : Nat
  clientId : Option ClientId
  status : Status

/-- A sum over the table, with the number of rows it was taken over. -/
structure Reading where
  sum : Nat
  rows : Nat

inductive CreateStage
  | begun
  | looked
  | metered (used : Reading)
  | weighed (used pending : Reading)
  | inserted (used pending : Reading)

structure Creating where
  user : UserId
  body : FileCreate
  stage : CreateStage

/-- The committed rows, the newest first, the free space, how many creates were
accepted, and the requests under way. -/
structure Disk where
  settings : Settings
  free : Nat
  files : List FileRow
  accepted : Nat
  requests : Table TaskId Creating

/-- `sum(size)` of one uploader's files. -/
def usedBy (user : UserId) (files : List FileRow) : Nat :=
  ((files.filter fun row => row.uploaderId = user).map (·.size)).sum

/-- `sum(size)` of the pending files. -/
def pendingIn (files : List FileRow) : Nat :=
  ((files.filter fun row => row.status = .pending).map (·.size)).sum

namespace Disk

def start (settings : Settings) (free : Nat) (files : List FileRow) : Disk :=
  ⟨settings, free, files, 0, ∅⟩

def setStage (disk : Disk) (task : TaskId) (creating : Creating)
    (stage : CreateStage) : Disk :=
  { disk with requests := disk.requests.put task { creating with stage } }

def finish (disk : Disk) (task : TaskId) : Disk :=
  { disk with requests := disk.requests.filter fun other _ => other ≠ task }

/-- A row with this uploader and `client_id` is stored. -/
def stored (disk : Disk) (user : UserId) (clientId : Option ClientId) : Bool :=
  clientId.isSome && disk.files.any fun row =>
    row.uploaderId = user && row.clientId = clientId

/-- Another transaction has inserted such a row and not ended yet. -/
def contested (disk : Disk) (task : TaskId) (user : UserId)
    (clientId : Option ClientId) : Bool :=
  clientId.isSome && disk.requests.rows.any fun entry =>
    match entry.2.stage with
    | .inserted _ _ =>
        entry.1 ≠ task && entry.2.user = user &&
          entry.2.body.clientId = clientId
    | _ => false

end Disk

inductive CreateAction
  | begin (task : TaskId) (user : UserId) (body : FileCreate)
  | lookUp (task : TaskId)
  | sumUsed (task : TaskId)
  | sumPending (task : TaskId)
  | insert (task : TaskId)
  | commit (task : TaskId)
  | refuse (task : TaskId)

/-- A retry is answered with the stored row, or refused in another channel. -/
def lookUpStep (disk : Disk) (task : TaskId) (creating : Creating) : Disk :=
  if disk.stored creating.user creating.body.clientId then disk.finish task
  else disk.setStage task creating .looked

def sumUsedStep (disk : Disk) (task : TaskId) (creating : Creating) : Disk :=
  if disk.settings.filesMaxBytes < creating.body.size then disk.finish task
  else
    let used := usedBy creating.user disk.files
    if disk.settings.filesQuotaBytes < used + creating.body.size then
      disk.finish task
    else disk.setStage task creating (.metered ⟨used, disk.files.length⟩)

/-- The disk floor; the free space is read right after the sum. -/
def sumPendingStep (disk : Disk) (task : TaskId) (creating : Creating)
    (used : Reading) : Disk :=
  let pending := pendingIn disk.files
  if (disk.free : Int) - pending - creating.body.size <
      disk.settings.filesMinFreeBytes then
    disk.finish task
  else
    disk.setStage task creating (.weighed used ⟨pending, disk.files.length⟩)

/-- The insert in its savepoint: it waits for a transaction with the same
`client_id`, and a lost race is answered with the winner's row. -/
def insertStep (disk : Disk) (task : TaskId) (creating : Creating)
    (used pending : Reading) : Option Disk :=
  if disk.contested task creating.user creating.body.clientId then none
  else if disk.stored creating.user creating.body.clientId then
    some (disk.finish task)
  else some (disk.setStage task creating (.inserted used pending))

def Creating.row (creating : Creating) : FileRow where
  channelId := creating.body.channelId
  uploaderId := creating.user
  size := creating.body.size
  clientId := creating.body.clientId
  status := .pending

def createFileStep (disk : Disk) : CreateAction → Option Disk
  | .begin task user body =>
      if disk.requests.contains task then none
      else some (disk.setStage task ⟨user, body, .begun⟩ .begun)
  | .lookUp task =>
      match disk.requests.get? task with
      | some ⟨user, body, .begun⟩ =>
          some (lookUpStep disk task ⟨user, body, .begun⟩)
      | _ => none
  | .sumUsed task =>
      match disk.requests.get? task with
      | some ⟨user, body, .looked⟩ =>
          some (sumUsedStep disk task ⟨user, body, .looked⟩)
      | _ => none
  | .sumPending task =>
      match disk.requests.get? task with
      | some ⟨user, body, .metered used⟩ =>
          some (sumPendingStep disk task ⟨user, body, .metered used⟩ used)
      | _ => none
  | .insert task =>
      match disk.requests.get? task with
      | some ⟨user, body, .weighed used pending⟩ =>
          insertStep disk task ⟨user, body, .weighed used pending⟩ used pending
      | _ => none
  | .commit task =>
      match disk.requests.get? task with
      | some ⟨user, body, .inserted used pending⟩ =>
          let row := Creating.row ⟨user, body, .inserted used pending⟩
          some ({ disk with
            files := row :: disk.files
            accepted := disk.accepted + 1 }.finish task)
      | _ => none
  | .refuse task => some (disk.finish task)

/-! ### The limits -/

/-- No uploader is past the quota, and no accepted create has left less than the
floor. -/
structure Limits (disk : Disk) : Prop where
  quota : ∀ user, usedBy user disk.files ≤ disk.settings.filesQuotaBytes
  floor : disk.accepted = 0 ∨
    disk.settings.filesMinFreeBytes + pendingIn disk.files ≤ disk.free

/-- What was committed since the reading. -/
def Reading.later (reading : Reading) (files : List FileRow) : List FileRow :=
  files.take (files.length - reading.rows)

/-- What others committed since a request summed the table fits in the room that
its sums and its own file left. -/
def Fits (disk : Disk) : CreateAction → Prop
  | .commit task =>
      ∀ user body used pending,
        disk.requests.get? task = some ⟨user, body, .inserted used pending⟩ →
        usedBy user (used.later disk.files) + (used.sum + body.size) ≤
            disk.settings.filesQuotaBytes ∧
          disk.settings.filesMinFreeBytes +
            (pendingIn (pending.later disk.files) + (pending.sum + body.size)) ≤
            disk.free
  | _ => True

/-- The reading is the sum over the rows that were there. -/
def Reading.Of (reading : Reading) (sum : List FileRow → Nat)
    (files : List FileRow) : Prop :=
  reading.rows ≤ files.length ∧
    reading.sum = sum (files.drop (files.length - reading.rows))

def CreateStage.Holds (files : List FileRow) (user : UserId) :
    CreateStage → Prop
  | .begun | .looked => True
  | .metered used => used.Of (usedBy user) files
  | .weighed used pending | .inserted used pending =>
      used.Of (usedBy user) files ∧ pending.Of pendingIn files

structure Metered (disk : Disk) : Prop where
  limits : Limits disk
  stages : ∀ task creating, disk.requests.get? task = some creating →
    creating.stage.Holds disk.files creating.user

section

variable {disk next : Disk} {task : TaskId} {creating : Creating}

theorem usedBy_append (user : UserId) (newer older : List FileRow) :
    usedBy user (newer ++ older) = usedBy user newer + usedBy user older := by
  simp [usedBy]

theorem pendingIn_append (newer older : List FileRow) :
    pendingIn (newer ++ older) = pendingIn newer + pendingIn older := by
  simp [pendingIn]

/-- The sum over the table is the reading and what came later. -/
theorem Reading.Of.total {reading : Reading} {sum : List FileRow → Nat}
    {files : List FileRow} (read : reading.Of sum files)
    (append : ∀ newer older, sum (newer ++ older) = sum newer + sum older) :
    sum files = sum (reading.later files) + reading.sum := by
  rw [read.2, Reading.later, ← append, List.take_append_drop]

theorem Reading.Of.cons {reading : Reading} {sum : List FileRow → Nat}
    {files : List FileRow} (read : reading.Of sum files) (row : FileRow) :
    reading.Of sum (row :: files) := by
  refine ⟨Nat.le_succ_of_le read.1, ?_⟩
  rw [List.length_cons, Nat.succ_sub read.1, List.drop_succ_cons]
  exact read.2

theorem reading_of_now (sum : List FileRow → Nat) (files : List FileRow) :
    Reading.Of ⟨sum files, files.length⟩ sum files := by
  simp [Reading.Of]

theorem CreateStage.Holds.cons {files : List FileRow} {user : UserId}
    {stage : CreateStage} (holds : stage.Holds files user) (row : FileRow) :
    stage.Holds (row :: files) user := by
  cases stage with
  | begun => trivial
  | looked => trivial
  | metered used => exact Reading.Of.cons holds row
  | weighed used pending => exact ⟨holds.1.cons row, holds.2.cons row⟩
  | inserted used pending => exact ⟨holds.1.cons row, holds.2.cons row⟩

theorem Metered.setStage (sound : Metered disk) {stage : CreateStage}
    (holds : stage.Holds disk.files creating.user) :
    Metered (disk.setStage task creating stage) where
  limits := ⟨sound.limits.quota, sound.limits.floor⟩
  stages := by
    intro other current stored
    by_cases same : other = task
    · subst same
      rw [Disk.setStage, Table.get?_put_self, Option.some.injEq] at stored
      subst stored
      exact holds
    · rw [Disk.setStage, Table.get?_put_ne _ _ same] at stored
      exact sound.stages other current stored

theorem Metered.finish (sound : Metered disk) (task : TaskId) :
    Metered (disk.finish task) where
  limits := ⟨sound.limits.quota, sound.limits.floor⟩
  stages := by
    intro other current stored
    simp only [Disk.finish, Table.get?_filter, Option.filter_eq_some_iff] at stored
    exact sound.stages other current stored.1

theorem sumUsedStep_metered (sound : Metered disk) :
    Metered (sumUsedStep disk task creating) := by
  unfold sumUsedStep
  split
  · exact sound.finish task
  · dsimp only
    split
    · exact sound.finish task
    · exact sound.setStage (reading_of_now _ _)

theorem sumPendingStep_metered (sound : Metered disk) {used : Reading}
    (read : used.Of (usedBy creating.user) disk.files) :
    Metered (sumPendingStep disk task creating used) := by
  unfold sumPendingStep
  dsimp only
  split
  · exact sound.finish task
  · exact sound.setStage ⟨read, reading_of_now _ _⟩

/-- The table after an accepted create is within the limits exactly when what
came after its readings still fits. -/
theorem limits_commit (sound : Metered disk) {user : UserId} {body : FileCreate}
    {used pending : Reading}
    (stored : disk.requests.get? task = some ⟨user, body, .inserted used pending⟩)
    (taken : createFileStep disk (.commit task) = some next) :
    Limits next ↔ Fits disk (.commit task) := by
  obtain ⟨readUsed, readPending⟩ := sound.stages task _ stored
  have usedNow := readUsed.total (usedBy_append user)
  have pendingNow := readPending.total pendingIn_append
  simp only [createFileStep, stored, Option.some.injEq] at taken
  subst taken
  constructor
  · intro limits user' body' used' pending' stored'
    rw [stored, Option.some.injEq, Creating.mk.injEq, CreateStage.inserted.injEq]
      at stored'
    obtain ⟨rfl, rfl, rfl, rfl⟩ := stored'
    have quota := limits.quota user
    have floor := limits.floor
    simp only [Disk.finish, Creating.row, usedBy, pendingIn, List.filter_cons,
      decide_true, if_true, List.map_cons, List.sum_cons] at quota floor
    simp only [usedBy, pendingIn] at usedNow pendingNow ⊢
    omega
  · intro fits
    obtain ⟨fitsUsed, fitsPending⟩ := fits user body used pending stored
    constructor
    · intro other
      by_cases same : user = other
      · subst same
        simp only [Disk.finish, Creating.row, usedBy, List.filter_cons,
          decide_true, if_true, List.map_cons, List.sum_cons]
        simp only [usedBy] at usedNow fitsUsed
        omega
      · have quota := sound.limits.quota other
        simpa [Disk.finish, Creating.row, usedBy, List.filter_cons, same] using quota
    · right
      simp only [Disk.finish, Creating.row, pendingIn, List.filter_cons,
        decide_true, if_true, List.map_cons, List.sum_cons]
      simp only [pendingIn] at pendingNow fitsPending
      omega

theorem createFileStep_metered {action : CreateAction} (sound : Metered disk)
    (fits : Fits disk action) (taken : createFileStep disk action = some next) :
    Metered next := by
  cases action with
  | begin task user body =>
      simp only [createFileStep] at taken
      split at taken
      · cases taken
      · cases taken
        exact sound.setStage trivial
  | lookUp task =>
      simp only [createFileStep] at taken
      split at taken
      · cases taken
        unfold lookUpStep
        split
        · exact sound.finish task
        · exact sound.setStage trivial
      · cases taken
  | sumUsed task =>
      simp only [createFileStep] at taken
      split at taken
      · cases taken
        exact sumUsedStep_metered sound
      · cases taken
  | sumPending task =>
      simp only [createFileStep] at taken
      split at taken
      · rename_i user body used stored
        cases taken
        have read : used.Of (usedBy user) disk.files := sound.stages task _ stored
        exact sumPendingStep_metered sound read
      · cases taken
  | insert task =>
      simp only [createFileStep] at taken
      split at taken
      · rename_i user body used pending stored
        have read := sound.stages task _ stored
        unfold insertStep at taken
        split at taken
        · cases taken
        · split at taken
          · cases taken
            exact sound.finish task
          · cases taken
            exact sound.setStage read
      · cases taken
  | commit task =>
      cases stored : disk.requests.get? task with
      | none => simp [createFileStep, stored] at taken
      | some creating =>
          obtain ⟨user, body, stage⟩ := creating
          cases stage with
          | inserted used pending =>
              have limits := (limits_commit sound stored taken).mpr fits
              simp only [createFileStep, stored, Option.some.injEq] at taken
              subst taken
              refine ⟨limits, ?_⟩
              intro other current kept
              simp only [Disk.finish, Table.get?_filter,
                Option.filter_eq_some_iff] at kept
              exact (sound.stages other current kept.1).cons _
          | _ => simp [createFileStep, stored] at taken
  | refuse task =>
      cases taken
      exact sound.finish task

theorem fits_of_limits {action : CreateAction} (sound : Metered disk)
    (taken : createFileStep disk action = some next) (limits : Limits next) :
    Fits disk action := by
  cases action with
  | commit task =>
      intro user body used pending stored
      exact (limits_commit sound stored taken).mp limits user body used pending
        stored
  | _ => trivial

end

/-- One request, from its lookup to its commit. -/
def createAlone (task : TaskId) (user : UserId) (size : Nat) :
    List CreateAction :=
  [.begin task user ⟨1, size, none⟩, .lookUp task, .sumUsed task,
    .sumPending task, .insert task, .commit task]

/-- Two creates of one user, who has room for either. -/
def bothCreate : List CreateAction :=
  [.begin 1 7 ⟨1, 60, none⟩, .begin 2 7 ⟨1, 60, none⟩, .lookUp 1, .lookUp 2,
    .sumUsed 1, .sumUsed 2, .sumPending 1, .sumPending 2, .insert 1, .insert 2,
    .commit 1, .commit 2]

end Brook.Files
