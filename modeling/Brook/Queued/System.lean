import Brook.Snapshot.Write
import Brook.Table.Basic

namespace Brook.Queued

open Aead Readers Snapshot

universe u

/-! The files of queued messages: `enqueue_with_files` copies each into `snap` before its row
commits, `remove_row` journals their names and unlinks them, and `open` cleans up.  Between
two awaits of one task any other may go on, and the process may end. -/

abbrev ClientId := Nat

abbrev ChannelId := Nat

abbrev TaskId := Nat

abbrev Name := Snapshot.Id

/-- At most this many files per message. -/
def maxFilesPerMessage : Nat := 10

def maxFileBytes : Nat := 100 * 1024 * 1024

variable {Key : Type u}

/-- A row of `outbox_files`. -/
structure FileRow (Key : Type u) where
  clientId : ClientId
  fileClientId : Name
  chunk : Nat
  written : Written Key

/-- The await that an `enqueue_files_task` is at. -/
inductive Stage (Key : Type u)
  | looking
  | copying (made : List (Name × Written Key)) (left : List Name)
  | writing (made : List (Name × Written Key)) (name : Name) (left : List Name)
  /-- `write` has failed, and removes what it wrote. -/
  | discarding (made : List (Name × Written Key)) (name : Name)
  /-- `remove_snapshots` -/
  | removing (names : List Name)

/-- An `enqueue_files_task`. -/
structure Enqueuing (Key : Type u) where
  clientId : ClientId
  channel : ChannelId
  files : Nat
  stage : Stage Key

/-- A `remove_row` after its transaction. -/
structure Removing where
  names : List Name
  left : List Name

structure Store (Key : Type u) where
  /-- What lies in `snap`. -/
  snap : Table Name Bytes
  /-- The files that were synced, with their directory. -/
  synced : List Name
  rows : Table ClientId ChannelId
  fileRows : List (FileRow Key)
  deletions : List Name
  enqueuing : Table TaskId (Enqueuing Key)
  removing : Table TaskId Removing
  /-- The names that `new_client_id` made for files. -/
  issued : List Name
  opened : Bool

/-- What the files are sealed with, and how. -/
structure Setup (Key : Type u) where
  cipher : Cipher Key
  sha256 : Bytes → Bytes
  chunk : Nat

/-- A copy: the source as it is read, the key that is made for it, and what stops it. -/
structure Source (Key : Type u) where
  data : Bytes
  grants : Nat → Nat
  key : Key
  total : Nat
  fails : Nat → Option WriteError
  progress : Nat → Nat → Bool

/-- Every `Bool` says whether the step comes through. -/
inductive Action (Key : Type u)
  /-- A row without files. -/
  | enqueue (id : ClientId) (channel : ChannelId)
  | begin (task : TaskId) (id : ClientId) (channel : ChannelId) (files : Nat)
  | look (task : TaskId) (names : List Name) (read : Bool)
  | create (task : TaskId) (created : Bool)
  | part (task : TaskId) (bytes : Bytes)
  | copy (task : TaskId) (source : Source Key) (synced : Bool)
  | discard (task : TaskId) (removed : Bool)
  | unlink (task : TaskId) (removed : Bool)
  | insert (task : TaskId) (written : Bool)
  /-- By the sender, or a Delete. -/
  | remove (task : TaskId) (id : ClientId)
  | unlinkGone (task : TaskId) (removed : Bool)
  /-- The journal is cleared, but for these. -/
  | clear (task : TaskId) (kept : List Name)
  /-- The process ends, and this is what lies in `snap`. -/
  | crash (snap : Table Name Bytes)
  /-- `stuck` cannot be removed, `kept` cannot be taken from the journal. -/
  | reopen (stuck : List Name) (listed : Bool) (kept : List Name)

namespace Store

def start : Store Key := ⟨∅, [], ∅, [], [], ∅, ∅, [], true⟩

def enqueue (store : Store Key) (id : ClientId) (channel : ChannelId) : Store Key :=
  if store.rows.contains id then store
  else { store with rows := store.rows.put id channel }

def move (store : Store Key) (task : TaskId) (sending : Enqueuing Key) (stage : Stage Key) :
    Store Key :=
  { store with enqueuing := store.enqueuing.put task { sending with stage } }

def ends (store : Store Key) (task : TaskId) : Store Key :=
  { store with enqueuing := store.enqueuing.filter fun other _ => other ≠ task }

/-- `remove_file` -/
def unlink (store : Store Key) (name : Name) (removed : Bool) : Store Key :=
  if removed then { store with snap := store.snap.filter fun other _ => other ≠ name }
  else store

/-- The call gives up: what it made goes. -/
def giveUp (store : Store Key) (task : TaskId) (sending : Enqueuing Key)
    (made : List (Name × Written Key)) : Store Key :=
  store.move task sending (.removing (made.map Prod.fst))

/-- The rows of the message and its files, in one transaction. -/
def insert (store : Store Key) (chunk : Nat) (task : TaskId) (sending : Enqueuing Key)
    (made : List (Name × Written Key)) : Store Key :=
  if store.rows.contains sending.clientId then store.giveUp task sending made
  else
    { store.ends task with
      rows := store.rows.put sending.clientId sending.channel
      fileRows := store.fileRows ++
        made.map fun file => ⟨sending.clientId, file.1, chunk, file.2⟩ }

def namesOf (store : Store Key) (id : ClientId) : List Name :=
  (store.fileRows.filter (·.clientId = id)).map (·.fileClientId)

/-- The transaction of `remove_row`. -/
def remove (store : Store Key) (task : TaskId) (id : ClientId) : Store Key :=
  let names := store.namesOf id
  { store with
    rows := store.rows.filter fun other _ => other ≠ id
    fileRows := store.fileRows.filter (·.clientId ≠ id)
    deletions := store.deletions ++ names.filter (· ∉ store.deletions)
    removing := if names = [] then store.removing else store.removing.put task ⟨names, names⟩ }

def live (store : Store Key) : List Name := store.fileRows.map (·.fileClientId)

/-- The journal's files go, and the snapshots that no row names; then the journal. -/
def reopen (store : Store Key) (stuck : List Name) (listed : Bool) (kept : List Name) :
    Store Key :=
  { store with
    opened := true
    snap := store.snap.filter fun name _ =>
      name ∈ stuck ∨ name ∉ store.deletions ∧ (listed → name ∈ store.live)
    deletions := store.deletions.filter fun name =>
      name ∈ kept ∨ name ∈ stuck ∧ store.snap.contains name }

end Store

def Source.options (source : Source Key) (name : Name) (chunk : Nat) : CopyOptions Key :=
  ⟨source.key, name, chunk, maxFileBytes, source.total, source.fails, source.progress⟩

def Source.write (source : Source Key) (setup : Setup Key) (name : Name) :
    Except WriteError (Written Key × Bytes) :=
  Snapshot.write setup.cipher setup.sha256 (source.options name setup.chunk)
    (Reader.fresh source.data source.grants)

def step (setup : Setup Key) (store : Store Key) : Action Key → Option (Store Key)
  | .enqueue id channel => if store.opened then some (store.enqueue id channel) else none
  | .begin task id channel files =>
      if store.opened ∧ ¬ store.enqueuing.contains task ∧ 0 < files ∧
          files ≤ maxFilesPerMessage then
        some { store with
          enqueuing := store.enqueuing.put task ⟨id, channel, files, .looking⟩ }
      else none
  | .look task names read =>
      match store.enqueuing.get? task with
      | some ⟨id, channel, files, .looking⟩ =>
          if read = false ∨ store.rows.contains id then some (store.ends task)
          else if names.length = files ∧ names.Nodup ∧ ∀ name ∈ names, name ∉ store.issued then
            some { store.move task ⟨id, channel, files, .looking⟩ (.copying [] names) with
              issued := names ++ store.issued }
          else none
      | _ => none
  | .create task created =>
      match store.enqueuing.get? task with
      | some ⟨id, channel, files, .copying made (name :: left)⟩ =>
          let sending : Enqueuing Key := ⟨id, channel, files, .copying made (name :: left)⟩
          -- `create_new`
          some (if created ∧ ¬ store.snap.contains name then
              { store with snap := store.snap.put name [] }.move task sending
                (.writing made name left)
            else store.giveUp task sending made)
      | _ => none
  | .part task bytes =>
      match store.enqueuing.get? task with
      | some ⟨id, channel, files, .writing made name left⟩ =>
          let sending : Enqueuing Key := ⟨id, channel, files, .writing made name left⟩
          some ({ store with snap := store.snap.put name bytes }.move task sending sending.stage)
      | _ => none
  | .copy task source synced =>
      match store.enqueuing.get? task with
      | some ⟨id, channel, files, .writing made name left⟩ =>
          let sending : Enqueuing Key := ⟨id, channel, files, .writing made name left⟩
          match source.write setup name with
          | .ok (written, bytes) =>
              some (if synced then
                  { store with
                    snap := store.snap.put name bytes
                    synced := name :: store.synced }.move task sending
                      (.copying (made ++ [(name, written)]) left)
                else store.move task sending (.discarding made name))
          | .error _ => some (store.move task sending (.discarding made name))
      | _ => none
  | .discard task removed =>
      match store.enqueuing.get? task with
      | some ⟨id, channel, files, .discarding made name⟩ =>
          some ((store.unlink name removed).giveUp task
            ⟨id, channel, files, .discarding made name⟩ made)
      | _ => none
  | .unlink task removed =>
      match store.enqueuing.get? task with
      | some ⟨id, channel, files, .removing (name :: names)⟩ =>
          some ((store.unlink name removed).move task
            ⟨id, channel, files, .removing (name :: names)⟩ (.removing names))
      | some ⟨_, _, _, .removing []⟩ => some (store.ends task)
      | _ => none
  | .insert task written =>
      match store.enqueuing.get? task with
      | some ⟨id, channel, files, .copying made []⟩ =>
          let sending : Enqueuing Key := ⟨id, channel, files, .copying made []⟩
          some (if written then store.insert setup.chunk task sending made
            else store.giveUp task sending made)
      | _ => none
  | .remove task id =>
      if store.opened ∧ ¬ store.removing.contains task then some (store.remove task id) else none
  | .unlinkGone task removed =>
      match store.removing.get? task with
      | some ⟨names, name :: left⟩ =>
          some { store.unlink name removed with
            removing := store.removing.put task ⟨names, left⟩ }
      | _ => none
  | .clear task kept =>
      match store.removing.get? task with
      | some ⟨names, []⟩ =>
          some { store with
            deletions := store.deletions.filter fun name => name ∉ names ∨ name ∈ kept
            removing := store.removing.filter fun other _ => other ≠ task }
      | _ => none
  | .crash snap =>
      -- What was synced and not unlinked is there; of the rest there may be anything.
      if store.synced.all fun name =>
          (store.snap.get? name).all fun bytes => snap.get? name = some bytes then
        some { store with snap, enqueuing := ∅, removing := ∅, opened := false }
      else none
  | .reopen stuck listed kept =>
      if store.opened then none else some (store.reopen stuck listed kept)

end Brook.Queued
