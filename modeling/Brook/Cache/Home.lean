import Brook.Cache.Commit

namespace Brook

/-! The channel that each cached message is stored under.  Every way into the
table either leaves it as it was or stores a message that was not there. -/

namespace MessageTable

def home (messages : MessageTable) (id : MessageId) : Option ChannelId :=
  (messages.get? id).map (·.channelId)

theorem home_eq_some {messages : MessageTable} {id : MessageId}
    {channel : ChannelId} :
    home messages id = some channel ↔
      ∃ row, messages.get? id = some row ∧ row.channelId = channel := by
  simp [home]

theorem home_mapRows {messages : MessageTable}
    {update : MessageId → CachedMessage → CachedMessage}
    (moves : ∀ id row, (update id row).channelId = row.channelId)
    (id : MessageId) :
    home (messages.mapRows update) id = home messages id := by
  rw [home, Table.get?_mapRows, home, Option.map_map]
  congr 1
  funext row
  exact moves id row

@[simp] theorem home_unquoted (messages : MessageTable) (id : MessageId) :
    home (unquoted messages) id = home messages id := by
  refine home_mapRows ?_ id
  intro key row
  rfl

theorem home_refreshExcerpts (messages : MessageTable) (target : MessageId)
    (body : Option Text) (id : MessageId) :
    home (refreshExcerpts messages target body) id = home messages id := by
  rw [← home_unquoted, unquoted_refreshExcerpts, home_unquoted]

theorem home_upsert (messages : MessageTable) (key : MessageId)
    (row : CachedMessage) (id : MessageId) :
    home (messages.upsert newerMessage key row) id =
      if id = key then some ((home messages key).getD row.channelId)
      else home messages id := by
  by_cases same : id = key
  · subst same
    rw [if_pos rfl, home, Table.get?_upsert_self, home]
    cases messages.get? id with
    | none => rfl
    | some old =>
        simp only [Option.map_some, Option.getD_some]
        split <;> rfl
  · rw [if_neg same, home, Table.get?_upsert_ne newerMessage messages row same,
      home]

/-- Live deletes patch a row where it is, or leave a tombstone. -/
theorem home_bury (messages : MessageTable) (key : MessageId)
    (channel : ChannelId) (seq : Int) (id : MessageId) :
    home (bury messages key channel seq) id =
      if id = key then some ((home messages key).getD channel)
      else home messages id := by
  unfold bury
  rw [home_refreshExcerpts]
  cases stored : messages.get? key with
  | none =>
      by_cases same : id = key
      · simp [home, same, stored]
      · simp [home, same, Table.get?_put]
  | some old =>
      by_cases same : id = key
      · subst same
        by_cases older : old.seq < seq
        · simp [home, stored, older]
        · simp [home, stored, older]
      · by_cases older : old.seq < seq
        · simp [home, same, older, Table.get?_put]
        · simp [home, same, older]

/-- Nothing moves, and what is added is known. -/
structure Grows (before after : MessageTable)
    (added : MessageId → ChannelId → Prop) : Prop where
  kept : ∀ {id channel}, home before id = some channel →
    home after id = some channel
  origin : ∀ {id channel}, home after id = some channel →
    home before id = some channel ∨ added id channel

theorem Grows.refl (messages : MessageTable)
    (added : MessageId → ChannelId → Prop) : Grows messages messages added :=
  ⟨id, Or.inl⟩

theorem Grows.of_home {before after : MessageTable} {key : MessageId}
    {channel : ChannelId}
    (stored : ∀ id, home after id =
      if id = key then some ((home before key).getD channel)
      else home before id) :
    Grows before after fun id here => id = key ∧ here = channel where
  kept := by
    intro id here found
    rw [stored]
    by_cases same : id = key
    · subst same
      simp [found]
    · simpa [same] using found
  origin := by
    intro id here found
    rw [stored] at found
    by_cases same : id = key
    · subst same
      rw [if_pos rfl] at found
      cases known : home before id with
      | some old =>
          rw [known] at found
          exact Or.inl found
      | none =>
          rw [known] at found
          cases found
          exact Or.inr ⟨rfl, rfl⟩
    · rw [if_neg same] at found
      exact Or.inl found

theorem Grows.trans {first second third : MessageTable}
    {added : MessageId → ChannelId → Prop}
    (one : Grows first second added) (two : Grows second third added) :
    Grows first third added where
  kept found := two.kept (one.kept found)
  origin found := by
    rcases two.origin found with before | new
    · exact one.origin before
    · exact Or.inr new

theorem Grows.imp {before after : MessageTable}
    {added weaker : MessageId → ChannelId → Prop}
    (grows : Grows before after added)
    (implies : ∀ {id channel}, added id channel → weaker id channel) :
    Grows before after weaker where
  kept := grows.kept
  origin found := (grows.origin found).imp_right implies

/-- The entries that rows are stored as, quotes apart. -/
def entries (rows : List MessageRow) : List (MessageId × CachedMessage) :=
  rows.map fun row => (row.id, (CachedMessage.ofRow row).unquoted)

theorem grows_upsertAll (messages : MessageTable) (rows : List MessageRow) :
    Grows messages (messages.upsertAll newerMessage (entries rows))
      fun id channel => ∃ row ∈ rows, row.id = id ∧ row.channelId = channel := by
  induction rows generalizing messages with
  | nil => exact Grows.refl messages _
  | cons row rest ih =>
      have first := Grows.of_home
        (home_upsert messages row.id (CachedMessage.ofRow row).unquoted)
      have head : Grows messages (messages.upsert newerMessage row.id
          (CachedMessage.ofRow row).unquoted)
          fun id channel => ∃ other ∈ row :: rest, other.id = id ∧
            other.channelId = channel :=
        first.imp fun here => ⟨row, List.mem_cons_self, here.1.symm, here.2.symm⟩
      have tail := ih (messages.upsert newerMessage row.id
        (CachedMessage.ofRow row).unquoted)
      exact head.trans (tail.imp fun ⟨other, member, here⟩ =>
        ⟨other, List.mem_cons_of_mem row member, here⟩)

theorem home_upsertAll_of_mem (messages : MessageTable)
    {rows : List MessageRow} {row : MessageRow} (member : row ∈ rows) :
    ∃ channel, home (messages.upsertAll newerMessage (entries rows)) row.id =
      some channel := by
  obtain ⟨kept, found, _⟩ := Table.upsertAll_ge_new guards_newerMessage
    (show (row.id, (CachedMessage.ofRow row).unquoted) ∈ entries rows from
      List.mem_map.mpr ⟨row, member, rfl⟩)
  exact ⟨kept.channelId, by rw [home, found]; rfl⟩

end MessageTable

namespace Cache

abbrev home (cache : Cache) (id : MessageId) : Option ChannelId :=
  MessageTable.home cache.messages id

/-- Applying messages alone: the rows that may land are stored. -/
theorem apply_messages (me : UserId) (cache : Cache) (batch : Batch)
    (only : batch.memberships = [] ∧ batch.removed = [] ∧
      batch.channels = [] ∧ batch.left = [] ∧ batch.users = [] ∧
      batch.tombstones = []) :
    ∃ messages, apply me cache batch = { cache with messages := messages } ∧
      MessageTable.Grows cache.messages messages (fun id channel =>
        ∃ row ∈ cache.landingMessages batch, row.id = id ∧
          row.channelId = channel) ∧
      ∀ row ∈ cache.landingMessages batch, ∃ channel,
        MessageTable.home messages row.id = some channel := by
  obtain ⟨messages, stage, unquoted⟩ := messageStage_eq cache batch
  obtain ⟨memberships, removed, channels, left, users, tombstones⟩ := only
  have applied : apply me cache batch = messageStage cache batch := by
    simp [apply, messageStage, memberships, removed, channels, left, users,
      tombstones]
  have grows := MessageTable.grows_upsertAll
    (MessageTable.unquoted cache.messages) (cache.landingMessages batch)
  have same : ∀ id, MessageTable.home messages id =
      MessageTable.home ((MessageTable.unquoted cache.messages).upsertAll
        newerMessage (MessageTable.entries (cache.landingMessages batch)))
        id := by
    intro id
    rw [← MessageTable.home_unquoted, unquoted]
    rfl
  refine ⟨messages, applied.trans stage, ⟨?_, ?_⟩, ?_⟩
  · intro id channel found
    rw [same]
    apply grows.kept
    rw [MessageTable.home_unquoted]
    exact found
  · intro id channel found
    rw [same] at found
    rw [← MessageTable.home_unquoted cache.messages]
    exact grows.origin found
  · intro row member
    rw [same]
    exact MessageTable.home_upsertAll_of_mem _ member

end Cache

end Brook
