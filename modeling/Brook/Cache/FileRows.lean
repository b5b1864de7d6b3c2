import Brook.Cache.Quotes

namespace Brook

/-! Which cached files belong to which cached message: the index that a batch keeps
with the messages that it stores. -/

/-- Where a file is listed. -/
structure FileEntry where
  messageId : MessageId
  channelId : ChannelId
deriving DecidableEq

/-- The tables of the file cache: the index, the cached files, and the blobs to unlink. -/
structure FileTables where
  messageFiles : Table FileId FileEntry
  files : List FileId
  deletions : List String

namespace FileTables

def empty : FileTables := ⟨∅, [], []⟩

def blobPath (file : FileId) : String := "files/" ++ toString file

/-- Drop a file's cache row and journal its blob. -/
def dropFile (tables : FileTables) (file : FileId) : FileTables :=
  if tables.files.contains file then
    { tables with
      files := tables.files.filter (· ≠ file)
      deletions :=
        if tables.deletions.contains (blobPath file) then tables.deletions
        else tables.deletions ++ [blobPath file] }
  else
    tables

def dropFiles (tables : FileTables) (gone : List FileId) : FileTables :=
  gone.foldl dropFile tables

/-- The files that the index has under a test of their entry. -/
def ids (tables : FileTables) (test : FileEntry → Bool) : List FileId :=
  (tables.messageFiles.rows.filter fun row => test row.2).map Prod.fst

/-- `INSERT OR REPLACE` of the files that a message lists. -/
def listFiles (index : Table FileId FileEntry) (message : MessageId) (channel : ChannelId)
    (now : List FileId) : Table FileId FileEntry :=
  now.foldl (fun index file => index.put file ⟨message, channel⟩) index

/-- Index the stored version of a message; the files that it no longer lists go. -/
def indexMessage (tables : FileTables) (message : MessageId) (channel : ChannelId)
    (now : List FileId) : FileTables :=
  let gone := (tables.ids (·.messageId = message)).filter fun file => !now.contains file
  dropFiles
    { tables with
      messageFiles := listFiles
        (tables.messageFiles.filter fun _ entry => entry.messageId ≠ message)
        message channel now }
    gone

/-- A message is gone or a tombstone: all its files go. -/
def dropMessage (tables : FileTables) (message : MessageId) : FileTables :=
  dropFiles
    { tables with
      messageFiles := tables.messageFiles.filter fun _ entry => entry.messageId ≠ message }
    (tables.ids (·.messageId = message))

def dropChannel (tables : FileTables) (channel : ChannelId) : FileTables :=
  dropFiles
    { tables with
      messageFiles := tables.messageFiles.filter fun _ entry => entry.channelId ≠ channel }
    (tables.ids (·.channelId = channel))

theorem dropFiles_messageFiles (tables : FileTables) (gone : List FileId) :
    (tables.dropFiles gone).messageFiles = tables.messageFiles := by
  unfold dropFiles
  induction gone generalizing tables with
  | nil => rfl
  | cons file rest ih =>
      rw [List.foldl_cons, ih]
      unfold dropFile
      split
      · rfl
      · rfl

theorem get?_listFiles (index : Table FileId FileEntry) (message : MessageId)
    (channel : ChannelId) (now : List FileId) (file : FileId) :
    (listFiles index message channel now).get? file =
      if file ∈ now then some ⟨message, channel⟩ else index.get? file := by
  unfold listFiles
  induction now generalizing index with
  | nil => simp
  | cons first rest ih =>
      rw [List.foldl_cons, ih, Table.get?_put]
      by_cases later : file ∈ rest
      · simp [later]
      · by_cases same : file = first
        · simp [same]
        · simp [later, same]

/-- The entries after a message is indexed: the listed files are its own, the others
stay where they were, unless they were its own. -/
theorem get?_indexMessage (tables : FileTables) (message : MessageId) (channel : ChannelId)
    (now : List FileId) (file : FileId) :
    (tables.indexMessage message channel now).messageFiles.get? file =
      if file ∈ now then some ⟨message, channel⟩
      else (tables.messageFiles.get? file).filter fun entry => entry.messageId ≠ message := by
  rw [indexMessage, dropFiles_messageFiles, get?_listFiles, Table.get?_filter]

theorem get?_dropMessage (tables : FileTables) (message : MessageId) (file : FileId) :
    (tables.dropMessage message).messageFiles.get? file =
      (tables.messageFiles.get? file).filter fun entry => entry.messageId ≠ message := by
  rw [dropMessage, dropFiles_messageFiles, Table.get?_filter]

end FileTables

/-- The synced tables and those of the file cache, which one transaction writes. -/
structure IndexedCache where
  cache : Cache
  tables : FileTables

namespace IndexedCache

/-- `apply_removal`; the files of the channel go first. -/
def applyRemoval (me : UserId) (state : IndexedCache) (removal : ChannelId × Int) :
    IndexedCache :=
  if (state.cache.ownSeq me removal.1).any (removal.2 ≤ ·) then
    state
  else if (state.cache.floorOf removal.1).any (removal.2 ≤ ·) then
    state
  else
    ⟨Cache.applyRemoval me state.cache removal, state.tables.dropChannel removal.1⟩

/-- A message, and its files where its row is written. -/
def applyMessage (batch : Batch) (state : IndexedCache) (row : MessageRow) : IndexedCache :=
  if Cache.staleHistory batch state.cache row.channelId then
    state
  else if state.cache.messageMayLand row.channelId row.seq batch.history then
    ⟨Cache.applyMessage batch state.cache row,
      if state.cache.messages.upserts newerMessage row.id (CachedMessage.ofRow row) then
        state.tables.indexMessage row.id row.channelId row.json.attachments
      else state.tables⟩
  else
    state

def applyTombstone (state : IndexedCache) (tombstone : MessageId × ChannelId × Int) :
    IndexedCache :=
  if state.cache.messageMayLand tombstone.2.1 tombstone.2.2 false then
    ⟨Cache.applyTombstone state.cache tombstone, state.tables.dropMessage tombstone.1⟩
  else
    state

/-- The stages that keep to the synced tables. -/
def applyRows (me : UserId) (state : IndexedCache) (batch : Batch) : IndexedCache :=
  { state with
    cache := Cache.userStage (Cache.leftStage (Cache.memberStage me
      (Cache.channelStage state.cache batch) batch) batch) batch }

def apply (me : UserId) (state : IndexedCache) (batch : Batch) : IndexedCache :=
  let state := { state with cache := Cache.ownStage me state.cache batch }
  let state := batch.removed.foldl (applyRemoval me) state
  let state := state.applyRows me batch
  let state := batch.messages.foldl (applyMessage batch) state
  batch.tombstones.foldl applyTombstone state

theorem applyRemoval_cache (me : UserId) (state : IndexedCache) (removal : ChannelId × Int) :
    (state.applyRemoval me removal).cache = state.cache.applyRemoval me removal := by
  unfold applyRemoval Cache.applyRemoval
  split
  · rfl
  · split <;> rfl

theorem applyMessage_cache (batch : Batch) (state : IndexedCache) (row : MessageRow) :
    (state.applyMessage batch row).cache = state.cache.applyMessage batch row := by
  unfold applyMessage Cache.applyMessage
  split
  · rfl
  · split <;> rfl

theorem applyTombstone_cache (state : IndexedCache)
    (tombstone : MessageId × ChannelId × Int) :
    (state.applyTombstone tombstone).cache = state.cache.applyTombstone tombstone := by
  unfold applyTombstone Cache.applyTombstone
  split <;> rfl

theorem foldl_cache {Entry : Type} {indexed : IndexedCache → Entry → IndexedCache}
    {plain : Cache → Entry → Cache}
    (same : ∀ state entry, (indexed state entry).cache = plain state.cache entry)
    (entries : List Entry) (state : IndexedCache) :
    (entries.foldl indexed state).cache = entries.foldl plain state.cache := by
  induction entries generalizing state with
  | nil => rfl
  | cons entry rest ih => rw [List.foldl_cons, ih, same, List.foldl_cons]

/-- The index is kept beside the synced tables and has no part in them. -/
theorem apply_cache (me : UserId) (state : IndexedCache) (batch : Batch) :
    (state.apply me batch).cache = state.cache.apply me batch := by
  rw [apply, foldl_cache applyTombstone_cache, foldl_cache (applyMessage_cache batch)]
  dsimp only [applyRows]
  rw [foldl_cache (applyRemoval_cache me)]
  rfl

end IndexedCache

end Brook
