import Brook.Cache.Landing

namespace Brook

/-! The quotes of replies follow the messages that they quote. -/

namespace MessageTable

/-- The quotes of these replies read as deleted where their target is a tombstone. -/
def QuotedBy (among : MessageId → Prop) (messages : MessageTable) : Prop :=
  ∀ id row quote target quoted, among id → messages.get? id = some row →
    row.json.replyTo = some quote → row.json.replyToId = some target →
    messages.get? target = some quoted → quoted.isDeleted = true →
    quote = deletedExcerpt

/-- Every quote of a tombstone reads as deleted. -/
def Quoted (messages : MessageTable) : Prop :=
  QuotedBy (fun _ => True) messages

variable {messages : MessageTable}

/-! ### What the quotes are rewritten to -/

/-- The reply of a row that `refresh_excerpts` rewrites. -/
def refreshed (target : MessageId) (body : Option Text) (row : CachedMessage) :
    Option ReplyExcerpt :=
  if row.json.replyToId = some target then
    row.json.replyTo.map fun quote =>
      match body with
      | some text => { quote with body := text.take Server.replyExcerptLen }
      | none => deletedExcerpt
  else row.json.replyTo

/-- A row of the refreshed table is a stored one, with its quote rewritten. -/
theorem get?_refreshExcerpts {target id : MessageId} {body : Option Text}
    {row : CachedMessage} (found : (refreshExcerpts messages target body).get? id = some row) :
    ∃ old, messages.get? id = some old ∧ row.json.replyToId = old.json.replyToId ∧
      row.isDeleted = old.isDeleted ∧ row.json.replyTo = refreshed target body old := by
  rw [refreshExcerpts, Table.get?_mapRows, Option.map_eq_some_iff] at found
  obtain ⟨old, stored, rfl⟩ := found
  refine ⟨old, stored, ?_⟩
  unfold refreshed
  split
  · exact ⟨rfl, rfl, rfl⟩
  · exact ⟨rfl, rfl, rfl⟩

theorem get?_settleExcerpt {settled id : MessageId} {row : CachedMessage}
    (found : (settleExcerpt messages settled).get? id = some row) :
    ∃ old, messages.get? id = some old ∧ row.json.replyToId = old.json.replyToId ∧
      row.isDeleted = old.isDeleted ∧
      row.json.replyTo =
        if id = settled ∧ (old.json.replyToId.bind messages.get?).any
            CachedMessage.isDeleted = true then
          old.json.replyTo.map fun _ => deletedExcerpt
        else old.json.replyTo := by
  rw [settleExcerpt, Table.get?_mapRows, Option.map_eq_some_iff] at found
  obtain ⟨old, stored, rfl⟩ := found
  refine ⟨old, stored, ?_⟩
  simp only [Bool.and_eq_true, decide_eq_true_eq]
  split
  · exact ⟨rfl, rfl, rfl⟩
  · exact ⟨rfl, rfl, rfl⟩

/-! ### Each write of the table -/

theorem Quoted.filter (quoted : Quoted messages) (keep : MessageId → CachedMessage → Bool) :
    Quoted (messages.filter keep) := by
  intro id row quote target quotedRow _ found replies names there deleted
  rw [Table.get?_filter, Option.filter_eq_some_iff] at found there
  exact quoted id row quote target quotedRow trivial found.1 replies names there.1 deleted

variable {among : MessageId → Prop}

/-- Once the quotes of a row are set as deleted, those of other tombstones are left to
read so. -/
theorem QuotedBy.refresh_deleted {target : MessageId}
    (others : ∀ id row quote other quotedRow, among id → messages.get? id = some row →
      row.json.replyTo = some quote → row.json.replyToId = some other → other ≠ target →
      messages.get? other = some quotedRow → quotedRow.isDeleted = true →
      quote = deletedExcerpt) :
    QuotedBy among (refreshExcerpts messages target none) := by
  intro id row quote other quotedRow counts found replies names there deleted
  obtain ⟨old, stored, sameId, -, rewritten⟩ := get?_refreshExcerpts found
  obtain ⟨oldTarget, storedTarget, -, sameDeleted, -⟩ := get?_refreshExcerpts there
  rw [names] at sameId
  rw [replies, refreshed, ← sameId] at rewritten
  by_cases own : other = target
  · rw [own, if_pos rfl] at rewritten
    obtain ⟨-, -, rfl⟩ := Option.map_eq_some_iff.mp rewritten.symm
    rfl
  · rw [if_neg fun same => own (Option.some.inj same)] at rewritten
    exact others id old quote other oldTarget counts stored rewritten.symm sameId.symm own
      storedTarget (sameDeleted ▸ deleted)

/-- The quotes of a row that is no tombstone may read as they like. -/
theorem QuotedBy.refresh_text {target : MessageId} {text : Text}
    (quoted : QuotedBy among messages)
    (alive : ∀ row, messages.get? target = some row → row.isDeleted = false) :
    QuotedBy among (refreshExcerpts messages target (some text)) := by
  intro id row quote other quotedRow counts found replies names there deleted
  obtain ⟨old, stored, sameId, -, rewritten⟩ := get?_refreshExcerpts found
  obtain ⟨oldTarget, storedTarget, -, sameDeleted, -⟩ := get?_refreshExcerpts there
  rw [names] at sameId
  rw [replies, refreshed, ← sameId] at rewritten
  rw [sameDeleted] at deleted
  by_cases own : other = target
  · rw [own] at storedTarget
    rw [alive oldTarget storedTarget] at deleted
    cases deleted
  · rw [if_neg fun same => own (Option.some.inj same)] at rewritten
    exact quoted id old quote other oldTarget counts stored rewritten.symm sameId.symm
      storedTarget deleted

/-- The row that lands is settled with its own target. -/
theorem QuotedBy.settle {settled : MessageId} (quoted : QuotedBy (· ≠ settled) messages) :
    Quoted (settleExcerpt messages settled) := by
  intro id row quote other quotedRow _ found replies names there deleted
  obtain ⟨old, stored, sameId, -, rewritten⟩ := get?_settleExcerpt found
  obtain ⟨oldTarget, storedTarget, -, sameDeleted, -⟩ := get?_settleExcerpt there
  rw [names] at sameId
  rw [replies] at rewritten
  rw [sameDeleted] at deleted
  by_cases own : id = settled
  · have dead : (old.json.replyToId.bind messages.get?).any CachedMessage.isDeleted = true := by
      rw [← sameId, Option.bind_some, storedTarget]
      exact deleted
    rw [if_pos ⟨own, dead⟩] at rewritten
    obtain ⟨-, -, rfl⟩ := Option.map_eq_some_iff.mp rewritten.symm
    rfl
  · rw [if_neg fun both => own both.1] at rewritten
    exact quoted id old quote other oldTarget own stored rewritten.symm sameId.symm
      storedTarget deleted

theorem Quoted.bury (quoted : Quoted messages) (id : MessageId) (channel : ChannelId)
    (seq : Int) : Quoted (bury messages id channel seq) := by
  apply QuotedBy.refresh_deleted
  intro reply row quote other quotedRow _ found replies names apart there deleted
  -- Only the buried row itself was written, and it quotes nothing any more.
  split at found
  case h_1 old stored =>
    split at found
    case isTrue =>
      simp only [stored] at there
      rw [if_pos (by assumption), Table.get?_put_ne _ _ apart] at there
      rw [Table.get?_put] at found
      split at found
      case isTrue =>
        cases found
        cases replies
      case isFalse =>
        exact quoted reply row quote other quotedRow trivial found replies names there deleted
    case isFalse =>
      simp only [stored] at there
      rw [if_neg (by assumption)] at there
      exact quoted reply row quote other quotedRow trivial found replies names there deleted
  case h_2 absent =>
    simp only [absent] at there
    rw [Table.get?_put_ne _ _ apart] at there
    rw [Table.get?_put] at found
    split at found
    case isTrue =>
      cases found
      cases replies
    case isFalse =>
      exact quoted reply row quote other quotedRow trivial found replies names there deleted

/-- The row of an upsert that goes through is the incoming one. -/
theorem upserted_json {row : MessageRow} {kept : CachedMessage}
    (lands : messages.upserts newerMessage row.id (CachedMessage.ofRow row) = true)
    (found : (messages.upsert newerMessage row.id (CachedMessage.ofRow row)).get? row.id =
      some kept) : kept.json = row.json := by
  rw [Table.get?_upsert_self, Option.some.injEq] at found
  unfold Table.upserts at lands
  cases stored : messages.get? row.id with
  | none =>
      simp only [stored] at found
      rw [← found]
      rfl
  | some old =>
      simp only [stored] at found
      rw [stored] at lands
      rw [if_pos (by exact lands)] at found
      rw [← found]
      rfl

theorem Quoted.store (quoted : Quoted messages) (history : Bool) {row : MessageRow}
    (sent : row.json.deleted = true → row.json.deletedAt = true) :
    Quoted (store messages history row) := by
  unfold MessageTable.store
  dsimp only
  split
  case isFalse => exact quoted
  case isTrue lands =>
    let stored := messages.upsert newerMessage row.id (CachedMessage.ofRow row)
    have before : ∀ {id kept}, id ≠ row.id → stored.get? id = some kept →
        messages.get? id = some kept := by
      intro id kept apart found
      rwa [Table.get?_upsert_ne _ _ _ apart] at found
    have others : ∀ id kept quote other quotedRow, id ≠ row.id →
        stored.get? id = some kept → kept.json.replyTo = some quote →
        kept.json.replyToId = some other → other ≠ row.id →
        stored.get? other = some quotedRow → quotedRow.isDeleted = true →
        quote = deletedExcerpt := by
      intro id kept quote other quotedRow apart found replies names elsewhere there deleted
      exact quoted id kept quote other quotedRow trivial (before apart found) replies names
        (before elsewhere there) deleted
    apply QuotedBy.settle
    split
    case isTrue => exact QuotedBy.refresh_deleted others
    case isFalse alive =>
      have dead : ∀ kept, stored.get? row.id = some kept → kept.isDeleted = false := by
        intro kept found
        have json := upserted_json lands found
        rw [Bool.eq_false_iff]
        intro deleted
        rw [CachedMessage.isDeleted, json, Bool.or_eq_true] at deleted
        exact alive (deleted.elim sent id)
      have quotedBy : QuotedBy (· ≠ row.id) stored := by
        intro id kept quote other quotedRow apart found replies names there deleted
        by_cases own : other = row.id
        · rw [own] at there
          rw [dead quotedRow there] at deleted
          cases deleted
        · exact others id kept quote other quotedRow apart found replies names own there
            deleted
      split
      case isTrue => exact quotedBy
      case isFalse => exact quotedBy.refresh_text dead

end MessageTable

/-! ### Batches -/

/-- The rows are the server's, which says of a deleted message when it was. -/
def Batch.Sent (batch : Batch) : Prop :=
  ∀ row ∈ batch.messages, row.json.deleted = true → row.json.deletedAt = true

instance (batch : Batch) : Decidable batch.Sent :=
  inferInstanceAs (Decidable (∀ row ∈ batch.messages, _))

namespace Cache

theorem quoted_removalStage (me : UserId) (removed : List (ChannelId × Int)) {cache : Cache}
    (quoted : MessageTable.Quoted cache.messages) :
    MessageTable.Quoted (removed.foldl (applyRemoval me) cache).messages := by
  induction removed generalizing cache with
  | nil => exact quoted
  | cons removal rest ih =>
      apply ih
      unfold applyRemoval
      split
      · exact quoted
      · split
        · exact quoted
        · exact quoted.filter _

theorem quoted_messageStage (batch : Batch) (rows : List MessageRow) {cache : Cache}
    (sent : ∀ row ∈ rows, row.json.deleted = true → row.json.deletedAt = true)
    (quoted : MessageTable.Quoted cache.messages) :
    MessageTable.Quoted (rows.foldl (applyMessage batch) cache).messages := by
  induction rows generalizing cache with
  | nil => exact quoted
  | cons row rest ih =>
      apply ih fun later member => sent later (List.mem_cons_of_mem row member)
      unfold applyMessage
      split
      · exact quoted
      · split
        · exact quoted.store batch.history (sent row List.mem_cons_self)
        · exact quoted

theorem quoted_tombstoneStage (tombstones : List (MessageId × ChannelId × Int))
    {cache : Cache} (quoted : MessageTable.Quoted cache.messages) :
    MessageTable.Quoted (tombstones.foldl applyTombstone cache).messages := by
  induction tombstones generalizing cache with
  | nil => exact quoted
  | cons tombstone rest ih =>
      apply ih
      unfold applyTombstone
      split
      · exact quoted.bury tombstone.1 tombstone.2.1 tombstone.2.2
      · exact quoted

/-- One batch keeps the quotes of tombstones deleted. -/
theorem quoted_apply (me : UserId) {cache : Cache} {batch : Batch} (sent : batch.Sent)
    (quoted : MessageTable.Quoted cache.messages) :
    MessageTable.Quoted (apply me cache batch).messages := by
  rw [apply_eq]
  apply quoted_tombstoneStage
  apply quoted_messageStage batch batch.messages sent
  rw [userStage_eq, leftStage_eq, memberStage_eq, channelStage_eq]
  apply quoted_removalStage me batch.removed
  rw [(sameRows_ownStage me cache batch).messages]
  exact quoted

end Cache

/-- In every cache that batches lead to, a reply to a stored tombstone quotes it as
deleted. -/
theorem quotes_of_tombstones_deleted (me : UserId) (batches : List Batch)
    (sent : ∀ batch ∈ batches, batch.Sent) (id target : MessageId) (reply quoted : CachedMessage)
    (quote : ReplyExcerpt) :
    (batches.foldl (Cache.apply me) Cache.empty).messages.get? id = some reply →
    reply.json.replyTo = some quote → reply.json.replyToId = some target →
    (batches.foldl (Cache.apply me) Cache.empty).messages.get? target = some quoted →
    quoted.json.deleted = true ∨ quoted.json.deletedAt = true →
    quote.body = "(deleted)".toList ∧ quote.deleted = true ∧ quote.attachments = 0 := by
  have kept : ∀ (batches : List Batch) {cache : Cache}, (∀ batch ∈ batches, batch.Sent) →
      MessageTable.Quoted cache.messages →
      MessageTable.Quoted (batches.foldl (Cache.apply me) cache).messages := by
    intro batches
    induction batches with
    | nil => exact fun _ quoted => quoted
    | cons batch rest ih =>
        intro cache sent quoted
        exact ih (fun later member => sent later (List.mem_cons_of_mem batch member))
          (Cache.quoted_apply me (sent batch List.mem_cons_self) quoted)
  intro found replies names there deleted
  have nothing : MessageTable.Quoted Cache.empty.messages := by
    intro id row quote target quoted _ found
    cases found
  have same := kept batches sent nothing id reply quote target quoted trivial found replies
    names there (by rw [CachedMessage.isDeleted, Bool.or_eq_true]; exact deleted)
  rw [same]
  exact ⟨rfl, rfl, rfl⟩

/-- A channel's row, and a message of channel 1 that replies to another one or to none. -/
def ChannelRow.plain (id : ChannelId) (seq : Int) : ChannelRow :=
  ⟨id, seq, ⟨.channel, none, none, true, false, [], []⟩⟩

def MessageRow.plain (id : MessageId) (seq : Int) (body : Text)
    (reply : Option (MessageId × ReplyExcerpt)) (attachments : List FileId) : MessageRow :=
  ⟨id, 1, seq, some 0, ⟨some 9, body, false, false, false, reply.map Prod.fst,
    reply.map Prod.snd, attachments, none, false, []⟩⟩

/-- A reply is there when the message it quotes is deleted. -/
def deletedLive : List Batch :=
  [{ channels := [.plain 1 1] },
    { messages := [.plain 2 3 "it".toList (some (1, ⟨"words".toList, false, 0⟩)) []] },
    { messages := [.plain 1 2 "words".toList none []] },
    { tombstones := [(1, 1, 4)] }]

theorem deletedLive_quote : ∃ reply quote,
    (deletedLive.foldl (Cache.apply 9) Cache.empty).messages.get? 2 = some reply ∧
      reply.json.replyTo = some quote ∧ quote.body = "(deleted)".toList ∧
      quote.deleted = true ∧ quote.attachments = 0 :=
  ⟨_, _, rfl, rfl, quotes_of_tombstones_deleted 9 deletedLive (by decide) 2 1 _ _ _ rfl rfl
    rfl rfl (Or.inl rfl)⟩

end Brook
