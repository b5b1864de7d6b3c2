import Brook.Cache.Collapse

namespace Brook

/-! The same over whole batches: how rows and live deletes are grouped has no part in it. -/

/-- A batch with messages and live deletes of one channel only. A history page is asked
for after the channel's last removal, and has what came after it. -/
structure Batch.Carries (batch : Batch) (channel : ChannelId) (floor : Option Int) : Prop where
  channels : batch.channels = []
  memberships : batch.memberships = []
  users : batch.users = []
  removed : batch.removed = []
  left : batch.left = []
  messages : ∀ row ∈ batch.messages, row.channelId = channel
  tombstones : ∀ tombstone ∈ batch.tombstones, tombstone.2.1 = channel
  current : batch.history = true → (batch.historyFloors.lookup channel).join = floor ∧
    ∀ row ∈ batch.messages, floor.any (row.seq ≤ ·) = false

/-- What of a batch may land above the channel's last removal. -/
def Batch.ops (batch : Batch) (floor : Option Int) : List MessageOp :=
  (batch.messages.filter fun row => !floor.any (row.seq ≤ ·)).map (.message batch.history) ++
    (batch.tombstones.filter fun tombstone => !floor.any (tombstone.2.2 ≤ ·)).map
      fun tombstone => .delete tombstone.1 tombstone.2.2

namespace IndexedCache

/-- The state with other messages and another index. -/
def holding (state : IndexedCache) (held : MessageTable × FileTables) : IndexedCache :=
  ⟨{ state.cache with messages := held.1 }, held.2⟩

def held (state : IndexedCache) : MessageTable × FileTables :=
  (state.cache.messages, state.tables)

variable {state : IndexedCache} {channel : ChannelId} {floor : Option Int} {batch : Batch}

theorem messages_ops (present : state.cache.channelPresent channel = true)
    (unfenced : state.cache.fenceOf channel = none)
    (floored : state.cache.floorOf channel = floor)
    {rows : List MessageRow} (here : ∀ row ∈ rows, row.channelId = channel)
    (current : batch.history = true → (batch.historyFloors.lookup channel).join = floor ∧
      ∀ row ∈ rows, floor.any (row.seq ≤ ·) = false) :
    rows.foldl (applyMessage batch) state =
      state.holding (((rows.filter fun row => !floor.any (row.seq ≤ ·)).map
        (.message batch.history)).foldl (MessageOp.run channel) state.held) := by
  induction rows generalizing state with
  | nil => rfl
  | cons row rest ih =>
      have own := here row List.mem_cons_self
      have hereRest : ∀ row ∈ rest, row.channelId = channel :=
        fun other member => here other (List.mem_cons_of_mem row member)
      have currentRest : batch.history = true →
          (batch.historyFloors.lookup channel).join = floor ∧
            ∀ row ∈ rest, floor.any (row.seq ≤ ·) = false :=
        fun history => ⟨(current history).1, fun other member =>
          (current history).2 other (List.mem_cons_of_mem row member)⟩
      have fresh : Cache.staleHistory batch state.cache row.channelId = false := by
        rw [Cache.staleHistory, own, floored]
        cases history : batch.history with
        | false => rfl
        | true => simp [(current history).1]
      have lands : state.cache.messageMayLand row.channelId row.seq batch.history =
          !floor.any (row.seq ≤ ·) := by
        rw [own]
        cases history : batch.history with
        | false => rw [Cache.mayLand_iff present unfenced, floored]
        | true =>
            rw [(current history).2 row List.mem_cons_self]
            simp [Cache.messageMayLand, Cache.fencedAtOrAbove, present, unfenced]
      have step : state.applyMessage batch row =
          if (!floor.any (row.seq ≤ ·)) = true then
            state.holding (MessageOp.run channel state.held (.message batch.history row))
          else state := by
        rw [applyMessage, Cache.applyMessage, fresh, lands]
        split
        case isTrue absurd => cases absurd
        case isFalse => split <;> rfl
      rw [List.foldl_cons, step, List.filter_cons]
      split
      case isTrue =>
        rw [List.map_cons, List.foldl_cons]
        exact @ih (state.holding _) present unfenced floored hereRest currentRest
      case isFalse => exact ih present unfenced floored hereRest currentRest

theorem tombstones_ops (present : state.cache.channelPresent channel = true)
    (unfenced : state.cache.fenceOf channel = none)
    (floored : state.cache.floorOf channel = floor)
    {tombstones : List (MessageId × ChannelId × Int)}
    (here : ∀ tombstone ∈ tombstones, tombstone.2.1 = channel) :
    tombstones.foldl applyTombstone state =
      state.holding (((tombstones.filter fun tombstone =>
        !floor.any (tombstone.2.2 ≤ ·)).map fun tombstone =>
          MessageOp.delete tombstone.1 tombstone.2.2).foldl (MessageOp.run channel)
            state.held) := by
  induction tombstones generalizing state with
  | nil => rfl
  | cons tombstone rest ih =>
      have own := here tombstone List.mem_cons_self
      have hereRest : ∀ tombstone ∈ rest, tombstone.2.1 = channel :=
        fun other member => here other (List.mem_cons_of_mem tombstone member)
      have step : state.applyTombstone tombstone =
          if (!floor.any (tombstone.2.2 ≤ ·)) = true then
            state.holding
              (MessageOp.run channel state.held (.delete tombstone.1 tombstone.2.2))
          else state := by
        rw [applyTombstone, Cache.applyTombstone, own, Cache.mayLand_iff present unfenced,
          floored]
        split <;> rfl
      rw [List.foldl_cons, step, List.filter_cons]
      split
      case isTrue =>
        rw [List.map_cons, List.foldl_cons]
        exact @ih (state.holding _) present unfenced floored hereRest
      case isFalse => exact ih present unfenced floored hereRest

theorem apply_ops (me : UserId) (present : state.cache.channelPresent channel = true)
    (unfenced : state.cache.fenceOf channel = none)
    (floored : state.cache.floorOf channel = floor) (carries : batch.Carries channel floor) :
    state.apply me batch =
      state.holding ((batch.ops floor).foldl (MessageOp.run channel) state.held) := by
  have rows : (batch.removed.foldl (applyRemoval me)
      { state with cache := Cache.ownStage me state.cache batch }).applyRows me batch =
        state := by
    simp [applyRows, Cache.ownStage, Cache.channelStage, Cache.memberStage, Cache.leftStage,
      Cache.userStage, carries.removed, carries.memberships, carries.channels, carries.left,
      carries.users]
  rw [apply, rows, messages_ops present unfenced floored carries.messages carries.current,
    @tombstones_ops (state.holding _) channel floor present unfenced floored _
      carries.tombstones, Batch.ops, List.foldl_append]
  rfl

/-- Batches are the operations that they carry, one after the other. -/
theorem foldl_apply_ops (me : UserId) (present : state.cache.channelPresent channel = true)
    (unfenced : state.cache.fenceOf channel = none)
    (floored : state.cache.floorOf channel = floor) {batches : List Batch}
    (carries : ∀ batch ∈ batches, batch.Carries channel floor) :
    batches.foldl (apply me) state =
      state.holding ((batches.flatMap (Batch.ops · floor)).foldl (MessageOp.run channel)
        state.held) := by
  induction batches generalizing state with
  | nil => rfl
  | cons batch rest ih =>
      rw [List.foldl_cons, apply_ops me present unfenced floored
        (carries batch List.mem_cons_self), List.flatMap_cons, List.foldl_append]
      exact @ih (state.holding _) present unfenced floored
        fun later member => carries later (List.mem_cons_of_mem batch member)

end IndexedCache

/-! ### Any order and any grouping -/

/-- The rows and live deletes of one channel: one JSON for each number, and for each live
delete the tombstone of its message, with nothing undeleted above. -/
structure SentFor (channel : ChannelId) (rows : List MessageRow)
    (deletes : List (MessageId × Int)) : Prop where
  here : ∀ row ∈ rows, row.channelId = channel
  one : ∀ row ∈ rows, ∀ other ∈ rows, row.id = other.id → row.seq = other.seq →
    row.json = other.json ∧ row.createdAt = other.createdAt
  buried : ∀ delete ∈ deletes, ∃ row ∈ rows, row.id = delete.1 ∧ delete.2 ≤ row.seq ∧
    row.json.deletedAt = true
  above : ∀ delete ∈ deletes, ∀ row ∈ rows, row.id = delete.1 → delete.2 < row.seq →
    row.json.deletedAt = true

/-- A file is of one message, and a tombstone lists none. -/
structure Deliverable (channel : ChannelId) (rows : List MessageRow)
    (deletes : List (MessageId × Int)) : Prop extends SentFor channel rows deletes where
  tombstone : ∀ row ∈ rows, row.json.deletedAt = true → row.json.attachments = []
  unshared : ∀ row ∈ rows, ∀ other ∈ rows, ∀ file ∈ row.json.attachments,
    file ∈ other.json.attachments → row.id = other.id

/-- The channel is there, and nothing of these messages and of their files yet. -/
structure Awaits (state : IndexedCache) (channel : ChannelId) (rows : List MessageRow) :
    Prop where
  present : state.cache.channelPresent channel = true
  unfenced : state.cache.fenceOf channel = none
  unstored : ∀ row ∈ rows, state.cache.messages.get? row.id = none
  unlisted : ∀ row ∈ rows, ∀ file ∈ row.json.attachments,
    state.tables.messageFiles.get? file = none
  unknown : ∀ file entry, state.tables.messageFiles.get? file = some entry →
    ∀ row ∈ rows, row.id ≠ entry.messageId

/-- The batches carry these rows and live deletes, in some order and grouping. -/
structure Grouping (batches : List Batch) (channel : ChannelId) (floor : Option Int)
    (rows : List MessageRow) (deletes : List (MessageId × Int)) : Prop where
  carries : ∀ batch ∈ batches, batch.Carries channel floor
  rows : ∀ row, row ∈ rows ↔ ∃ batch ∈ batches, row ∈ batch.messages
  deletes : ∀ id seq, (id, seq) ∈ deletes ↔
    ∃ batch ∈ batches, (id, channel, seq) ∈ batch.tombstones

section

variable {channel : ChannelId} {floor : Option Int} {rows : List MessageRow}
variable {deletes : List (MessageId × Int)} {batches others : List Batch}
variable {state : IndexedCache}

namespace Grouping

theorem row_iff (grouped : Grouping batches channel floor rows deletes) (row : MessageRow) :
    (∃ history, .message history row ∈ batches.flatMap (Batch.ops · floor)) ↔
      row ∈ rows ∧ floor.any (row.seq ≤ ·) = false := by
  simp only [Batch.ops, List.mem_flatMap, List.mem_append, List.mem_map, List.mem_filter,
    Bool.not_eq_true', MessageOp.message.injEq, reduceCtorEq, and_false, exists_false, or_false,
    grouped.rows row]
  constructor
  · rintro ⟨history, batch, member, other, ⟨there, above⟩, -, rfl⟩
    exact ⟨⟨batch, member, there⟩, above⟩
  · rintro ⟨⟨batch, member, there⟩, above⟩
    exact ⟨batch.history, batch, member, row, ⟨there, above⟩, rfl, rfl⟩

theorem delete_iff (grouped : Grouping batches channel floor rows deletes) (id : MessageId)
    (seq : Int) :
    .delete id seq ∈ batches.flatMap (Batch.ops · floor) ↔
      (id, seq) ∈ deletes ∧ floor.any (seq ≤ ·) = false := by
  simp only [Batch.ops, List.mem_flatMap, List.mem_append, List.mem_map, List.mem_filter,
    Bool.not_eq_true', MessageOp.delete.injEq, reduceCtorEq, and_false, exists_false, false_or,
    grouped.deletes id seq]
  constructor
  · rintro ⟨batch, member, ⟨other, place, number⟩, ⟨there, above⟩, rfl, rfl⟩
    obtain rfl : place = channel := (grouped.carries batch member).tombstones _ there
    exact ⟨⟨batch, member, there⟩, above⟩
  · rintro ⟨⟨batch, member, there⟩, above⟩
    exact ⟨batch, member, (id, channel, seq), ⟨there, above⟩, rfl, rfl⟩

theorem row (grouped : Grouping batches channel floor rows deletes) {history : Bool}
    {row : MessageRow} (member : .message history row ∈ batches.flatMap (Batch.ops · floor)) :
    row ∈ rows :=
  ((grouped.row_iff row).mp ⟨history, member⟩).1

/-- Every operation is on a message with a row. -/
theorem id_known (grouped : Grouping batches channel floor rows deletes)
    (sent : Deliverable channel rows deletes) {op : MessageOp}
    (member : op ∈ batches.flatMap (Batch.ops · floor)) : ∃ row ∈ rows, row.id = op.id := by
  cases op with
  | message history row => exact ⟨row, grouped.row member, rfl⟩
  | delete id seq =>
      obtain ⟨row, there, same, -⟩ := sent.buried _ ((grouped.delete_iff id seq).mp member).1
      exact ⟨row, there, same⟩

theorem alike (grouped : Grouping batches channel floor rows deletes)
    (grouped' : Grouping others channel floor rows deletes) :
    Alike (batches.flatMap (Batch.ops · floor)) (others.flatMap (Batch.ops · floor)) where
  rows row := by rw [grouped.row_iff, grouped'.row_iff]
  deletes id seq := by rw [grouped.delete_iff, grouped'.delete_iff]

theorem consistent (grouped : Grouping batches channel floor rows deletes)
    (sent : Deliverable channel rows deletes) :
    Consistent (batches.flatMap (Batch.ops · floor)) where
  one history row history' other here there :=
    sent.one row (grouped.row here) other (grouped.row there)
  buried id seq member := by
    obtain ⟨there, above⟩ := (grouped.delete_iff id seq).mp member
    obtain ⟨row, here, same, bound, deleted⟩ := sent.buried _ there
    -- The tombstone is above the floor, as the live delete below it is.
    have onward : floor.any (row.seq ≤ ·) = false := by
      cases floor with
      | none => rfl
      | some low =>
          simp only [Option.any_some, decide_eq_false_iff_not, not_le] at above ⊢
          exact lt_of_lt_of_le above bound
    obtain ⟨history, lands⟩ := (grouped.row_iff row).mpr ⟨here, onward⟩
    exact ⟨history, row, lands, same, bound, deleted⟩
  above id seq member history row there :=
    sent.above _ ((grouped.delete_iff id seq).mp member).1 row (grouped.row there)
  tombstone history row member := sent.tombstone row (grouped.row member)

theorem unstored (grouped : Grouping batches channel floor rows deletes)
    (sent : Deliverable channel rows deletes) (awaits : Awaits state channel rows) :
    Unstored state.cache.messages channel (batches.flatMap (Batch.ops · floor)) where
  absent op member := by
    obtain ⟨row, there, same⟩ := grouped.id_known sent member
    rw [← same]
    exact awaits.unstored row there
  here history row member := sent.here row (grouped.row member)

theorem unshared (grouped : Grouping batches channel floor rows deletes)
    (sent : Deliverable channel rows deletes) (awaits : Awaits state channel rows) :
    Unshared state.tables (batches.flatMap (Batch.ops · floor)) where
  apart history row history' other file here there lists :=
    sent.unshared row (grouped.row here) other (grouped.row there) file lists
  unlisted history row file member := awaits.unlisted row (grouped.row member) file
  unknown file entry found op member := by
    obtain ⟨row, there, same⟩ := grouped.id_known sent member
    rw [← same]
    exact awaits.unknown file entry found row there

end Grouping

end

/-- Rows and live deletes make the same tables in every order and grouping: of each message
its newest row, and the files that it lists. -/
theorem message_guard_confluent (me : UserId) (state : IndexedCache) (channel : ChannelId)
    (rows : List MessageRow) (deletes : List (MessageId × Int))
    (awaits : Awaits state channel rows) (sent : Deliverable channel rows deletes)
    (first second : List Batch)
    (grouped : Grouping first channel (state.cache.floorOf channel) rows deletes)
    (regrouped : Grouping second channel (state.cache.floorOf channel) rows deletes) :
    (∀ id, ((first.foldl (IndexedCache.apply me) state).cache.messages.get? id).map
        CachedMessage.unquoted =
      ((second.foldl (IndexedCache.apply me) state).cache.messages.get? id).map
        CachedMessage.unquoted) ∧
      (∀ file, (first.foldl (IndexedCache.apply me) state).tables.messageFiles.get? file =
        (second.foldl (IndexedCache.apply me) state).tables.messageFiles.get? file) ∧
      ∀ row ∈ rows, (state.cache.floorOf channel).any (row.seq ≤ ·) = false →
        ∃ newest ∈ rows, newest.id = row.id ∧
          (∀ other ∈ rows, other.id = row.id → other.seq ≤ newest.seq) ∧
          ((first.foldl (IndexedCache.apply me) state).cache.messages.get? row.id).map
            CachedMessage.unquoted = some (CachedMessage.ofRow newest).unquoted := by
  have consistent := grouped.consistent sent
  have unstored := grouped.unstored sent awaits
  have alike := grouped.alike regrouped
  obtain ⟨collapsed, listed⟩ := run_collapsed unstored (grouped.unshared sent awaits)
  obtain ⟨collapsed', listed'⟩ :=
    run_collapsed (regrouped.unstored sent awaits) (regrouped.unshared sent awaits)
  have same := collapsed.congr consistent unstored alike collapsed'
  rw [IndexedCache.foldl_apply_ops me awaits.present awaits.unfenced rfl grouped.carries,
    IndexedCache.foldl_apply_ops me awaits.present awaits.unfenced rfl regrouped.carries]
  refine ⟨fun id => ?_, ?_, fun row member above => ?_⟩
  · rw [← MessageTable.get?_unquoted, ← MessageTable.get?_unquoted]
    exact same id
  · exact listed.congr consistent alike collapsed collapsed' listed' same
  · obtain ⟨history, lands⟩ := (grouped.row_iff row).mpr ⟨member, above⟩
    obtain ⟨kept, found, source⟩ := collapsed.stored _ lands
    obtain ⟨_, newest, there, sameId, rfl, top⟩ := source.newest consistent
    refine ⟨newest, grouped.row there, sameId, fun other here sameOther => ?_, ?_⟩
    · -- A row that does not land is below the floor, and so below one that does.
      by_cases onward : (state.cache.floorOf channel).any (other.seq ≤ ·) = false
      · obtain ⟨_, landsOther⟩ := (grouped.row_iff other).mpr ⟨here, onward⟩
        exact top _ landsOther sameOther
      · have bound := top _ lands rfl
        cases floor : state.cache.floorOf channel with
        | none => exact absurd (by rw [floor]; rfl) onward
        | some low =>
            simp only [floor, Option.any_some, decide_eq_false_iff_not, not_le,
              not_lt] at onward above
            exact le_trans onward (le_trans (le_of_lt above) bound)
    · rw [← MessageTable.get?_unquoted]
      exact found

/-- A channel with nothing in it, and no file. -/
def quietIndexed : IndexedCache := ⟨quietCache, FileTables.empty⟩

theorem quietIndexed_awaits (rows : List MessageRow) : Awaits quietIndexed 1 rows where
  present := by decide
  unfenced := by decide
  unstored _ _ := rfl
  unlisted _ _ _ _ := rfl
  unknown _ _ found := by cases found

/-- Batches of messages and live deletes and nothing else. -/
def plainBatch (messages : List MessageRow) (tombstones : List (MessageId × ChannelId × Int)) :
    Batch :=
  { messages := messages, tombstones := tombstones }

theorem plainBatch_carries {channel : ChannelId} {floor : Option Int}
    {messages : List MessageRow} {tombstones : List (MessageId × ChannelId × Int)}
    (rows : ∀ row ∈ messages, row.channelId = channel)
    (deletes : ∀ tombstone ∈ tombstones, tombstone.2.1 = channel) :
    (plainBatch messages tombstones).Carries channel floor where
  channels := rfl
  memberships := rfl
  users := rfl
  removed := rfl
  left := rfl
  messages := rows
  tombstones := deletes
  current history := by cases history

/-- Two messages that list one file. -/
def sharing : List MessageRow :=
  [.plain 1 2 "one".toList none [7], .plain 2 3 "two".toList none [7]]

theorem sharing_sent : SentFor 1 sharing [] where
  here := by decide
  one := by decide
  buried := by decide
  above := by decide

theorem sharing_grouped (order : List MessageRow) (same : ∀ row, row ∈ sharing ↔ row ∈ order) :
    Grouping (order.map fun row => plainBatch [row] []) 1 (quietIndexed.cache.floorOf 1)
      sharing [] where
  carries batch member := by
    obtain ⟨row, there, rfl⟩ := List.mem_map.mp member
    refine plainBatch_carries (fun other here => ?_) fun tombstone here => ?_
    · cases List.mem_singleton.mp here
      exact sharing_sent.here row ((same row).mpr there)
    · cases here
  rows row := by simp [same row, plainBatch]
  deletes id seq := by simp [plainBatch]

/-- The message that lands last has the file. -/
theorem shared_file_goes_to_last : ∃ first second : List Batch,
    Awaits quietIndexed 1 sharing ∧ SentFor 1 sharing [] ∧
      Grouping first 1 (quietIndexed.cache.floorOf 1) sharing [] ∧
      Grouping second 1 (quietIndexed.cache.floorOf 1) sharing [] ∧
      (first.foldl (IndexedCache.apply 9) quietIndexed).tables.messageFiles.get? 7 =
        some ⟨2, 1⟩ ∧
      (second.foldl (IndexedCache.apply 9) quietIndexed).tables.messageFiles.get? 7 =
        some ⟨1, 1⟩ :=
  ⟨_, _, quietIndexed_awaits sharing, sharing_sent,
    sharing_grouped sharing fun _ => Iff.rfl,
    sharing_grouped sharing.reverse fun _ => List.mem_reverse.symm, by decide, by decide⟩

/-- A message with a file, its tombstone, and the live delete of it. -/
def erased : List MessageRow :=
  [.plain 1 2 "words".toList none [7],
    ⟨1, 1, 4, some 0, ⟨some 9, [], true, false, false, none, none, [], none, false, []⟩⟩]

theorem erased_sent : Deliverable 1 erased [(1, 4)] where
  here := by decide
  one := by decide
  buried := by decide
  above := by decide
  tombstone := by decide
  unshared := by decide

/-- The live delete comes between the two rows, or after both in one batch. -/
def erasedLive : List Batch :=
  [plainBatch [erased[0]] [], plainBatch [] [(1, 1, 4)], plainBatch [erased[1]] []]

def erasedAtOnce : List Batch :=
  [plainBatch erased.reverse [(1, 1, 4)]]

theorem erasedLive_grouped :
    Grouping erasedLive 1 (quietIndexed.cache.floorOf 1) erased [(1, 4)] where
  carries := by
    intro batch member
    simp only [erasedLive, List.mem_cons, List.not_mem_nil, or_false] at member
    rcases member with rfl | rfl | rfl <;> exact plainBatch_carries (by decide) (by decide)
  rows row := by simp [erasedLive, erased, plainBatch]
  deletes id seq := by simp [erasedLive, plainBatch]

theorem erasedAtOnce_grouped :
    Grouping erasedAtOnce 1 (quietIndexed.cache.floorOf 1) erased [(1, 4)] where
  carries := by
    intro batch member
    cases List.mem_singleton.mp member
    exact plainBatch_carries (by decide) (by decide)
  rows row := by simp [erasedAtOnce, plainBatch]
  deletes id seq := by simp [erasedAtOnce, plainBatch]

theorem erased_either_way :
    ((erasedLive.foldl (IndexedCache.apply 9) quietIndexed).cache.messages.get? 1).map
        CachedMessage.unquoted =
      ((erasedAtOnce.foldl (IndexedCache.apply 9) quietIndexed).cache.messages.get? 1).map
        CachedMessage.unquoted ∧
    (erasedLive.foldl (IndexedCache.apply 9) quietIndexed).tables.messageFiles.get? 7 =
      (erasedAtOnce.foldl (IndexedCache.apply 9) quietIndexed).tables.messageFiles.get? 7 :=
  have same := message_guard_confluent 9 quietIndexed 1 erased [(1, 4)]
    (quietIndexed_awaits erased) erased_sent erasedLive erasedAtOnce erasedLive_grouped
    erasedAtOnce_grouped
  ⟨same.1 1, same.2.1 7⟩

end Brook
