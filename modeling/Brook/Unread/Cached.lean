import Brook.Unread.Counts
import Brook.History.System

namespace Brook

/-! The channels as the cache lists them offline, and whose rows it shows there. -/

/-- A channel of the caller with its unread counts (`CachedChannel` in `cached_channels`). -/
structure Listing where
  channel : ChannelId
  json : ChannelJson
  unread : Nat
  unreadMentions : Nat
  lastMessageId : Option MessageId

namespace Cache

/-- Above the marker, by someone else, and not deleted. -/
def isUnread (me : UserId) (channel : ChannelId) (marker : Option MessageId)
    (entry : MessageId × CachedMessage) : Bool :=
  entry.2.channelId = channel && marker.all (· < entry.1) &&
    entry.2.json.authorId ≠ some me && !entry.2.isDeleted

def mentionsUser (me : UserId) (entry : MessageId × CachedMessage) : Bool :=
  entry.2.json.mentionEveryone || me ∈ entry.2.json.mentions

/-- The channel's row joined with the caller's own membership. -/
def listing (me : UserId) (cache : Cache) (entry : ChannelId × CachedChannel) :
    Option Listing :=
  ((cache.memberships.get? (entry.1, me)).filter (!·.left)).map fun my =>
    let unread := cache.messages.rows.filter
      (isUnread me entry.1 (my.json.bind (·.lastRead)))
    { channel := entry.1
      json := entry.2.json
      unread := unread.length
      unreadMentions := (unread.filter (mentionsUser me)).length
      lastMessageId := ((cache.messages.rows.filter fun message =>
        message.2.channelId = entry.1).map Prod.fst).max? }

/-- `cached_channels` -/
def cachedChannels (me : UserId) (cache : Cache) : List Listing :=
  (cache.channels.rows.insertionSort fun first second => first.1 ≤ second.1).filterMap
    (cache.listing me)

end Cache

/-- The cached row is the message as it was, whatever it quotes. -/
structure CachedMessage.Shows (kept : CachedMessage) (message : Message) : Prop where
  seq : kept.seq = message.seq
  channel : kept.channelId = message.channelId
  deleted : kept.isDeleted = message.deleted
  live : message.deleted = false → kept.json.authorId = some message.authorId ∧
    kept.json.mentionEveryone = message.mentionEveryone ∧
    kept.json.mentions = message.mentions

/-- A state in which the message was what the cached row shows. -/
def Shown (past : List Server) (id : MessageId) (kept : CachedMessage) : Prop :=
  ∃ state ∈ past, ∃ message, state.messages.get? id = some message ∧ kept.Shows message

/-- A state that had the caller's membership as the cached row has it. -/
def OwnShown (me : UserId) (past : List Server) (channel : ChannelId)
    (kept : CachedMembership) : Prop :=
  kept.left = false ∧ ∃ state ∈ past, ∃ row, state.memberships.get? (channel, me) = some row ∧
    kept.seq = row.seq ∧ kept.json.bind (·.lastRead) = row.lastRead

/-- Rows and deletions as the server was in some of the states. -/
structure Batch.From (me : UserId) (past : List Server) (batch : Batch) : Prop where
  messages : ∀ row ∈ batch.messages, ∃ state ∈ past, ∃ message,
    state.messages.get? row.id = some message ∧ row = state.messageOut row.id message
  tombstones : ∀ tombstone ∈ batch.tombstones, ∃ state ∈ past, ∃ message,
    state.messages.get? tombstone.1 = some message ∧ message.channelId = tombstone.2.1 ∧
      message.seq = tombstone.2.2 ∧ message.deleted = true
  memberships : ∀ row ∈ batch.memberships, row.userId = me → ∃ state ∈ past, ∃ membership,
    state.memberships.get? (row.channelId, me) = some membership ∧
      row = Server.membershipOut me (row.channelId, me) membership
  left : ∀ left ∈ batch.left, left.2.1 ≠ me

/-- Every state has the message in one and the same channel. -/
def OneHome (past : List Server) : Prop :=
  ∀ {first second id message other}, first ∈ past → second ∈ past →
    first.messages.get? id = some message → second.messages.get? id = some other →
    message.channelId = other.channelId

variable {me : UserId} {past : List Server} {messages : MessageTable} {cache : Cache}
  {batch : Batch}

theorem CachedMessage.Shows.quote {kept : CachedMessage} {message : Message}
    (shows' : kept.Shows message) (quote : Option ReplyExcerpt) :
    CachedMessage.Shows { kept with json := { kept.json with replyTo := quote } } message :=
  ⟨shows'.seq, shows'.channel, shows'.deleted, shows'.live⟩

theorem shows_ofRow {state : Server} {id : MessageId} {message : Message} :
    (CachedMessage.ofRow (state.messageOut id message)).Shows message where
  seq := rfl
  channel := rfl
  deleted := by simp [CachedMessage.ofRow, CachedMessage.isDeleted, Server.messageOut]
  live _ := ⟨rfl, rfl, rfl⟩

namespace MessageTable

def AllShown (past : List Server) (messages : MessageTable) : Prop :=
  ∀ id kept, messages.get? id = some kept → Shown past id kept

theorem AllShown.mapRows (shown : AllShown past messages)
    {update : MessageId → CachedMessage → CachedMessage}
    (quotes : ∀ id kept, ∃ quote, update id kept =
      { kept with json := { kept.json with replyTo := quote } }) :
    AllShown past (Table.mapRows update messages) := by
  intro id kept found
  rw [Table.get?_mapRows, Option.map_eq_some_iff] at found
  obtain ⟨old, stored, rfl⟩ := found
  obtain ⟨state, member, message, there, same⟩ := shown id old stored
  obtain ⟨quote, updated⟩ := quotes id old
  exact ⟨state, member, message, there, updated ▸ same.quote quote⟩

theorem AllShown.refreshExcerpts (shown : AllShown past messages) (target : MessageId)
    (body : Option Text) : AllShown past (refreshExcerpts messages target body) := by
  refine shown.mapRows fun id kept => ?_
  split
  · exact ⟨_, rfl⟩
  · exact ⟨kept.json.replyTo, rfl⟩

theorem AllShown.settleExcerpt (shown : AllShown past messages) (id : MessageId) :
    AllShown past (settleExcerpt messages id) := by
  refine shown.mapRows fun key kept => ?_
  split
  · exact ⟨_, rfl⟩
  · exact ⟨kept.json.replyTo, rfl⟩

theorem AllShown.store (oneHome : OneHome past) (shown : AllShown past messages)
    (history : Bool) {row : MessageRow} (sent : ∃ state ∈ past, ∃ message,
      state.messages.get? row.id = some message ∧ row = state.messageOut row.id message) :
    AllShown past (store messages history row) := by
  obtain ⟨state, member, message, stored, same⟩ := sent
  have incoming : (CachedMessage.ofRow row).Shows message := by
    rw [same]
    exact shows_ofRow
  have upserted : AllShown past
      (messages.upsert newerMessage row.id (CachedMessage.ofRow row)) := by
    intro id kept found
    rcases Table.upsert_origin found with old | ⟨rfl, rfl | ⟨old, before, rfl⟩⟩
    · exact shown id kept old
    · exact ⟨state, member, message, stored, incoming⟩
    · -- The merged row keeps the channel it was stored under.
      obtain ⟨other, alsoMember, earlier, there, showed⟩ := shown _ old before
      refine ⟨state, member, message, stored, incoming.seq, ?_, incoming.deleted, incoming.live⟩
      exact showed.channel.trans (oneHome alsoMember member there stored)
  unfold MessageTable.store
  dsimp only
  split
  · refine AllShown.settleExcerpt ?_ row.id
    split
    · exact upserted.refreshExcerpts row.id none
    · split
      · exact upserted
      · exact upserted.refreshExcerpts row.id _
  · exact shown

theorem AllShown.bury (oneHome : OneHome past) (shown : AllShown past messages)
    {id : MessageId} {channel : ChannelId} {seq : Int} (sent : ∃ state ∈ past, ∃ message,
      state.messages.get? id = some message ∧ message.channelId = channel ∧
        message.seq = seq ∧ message.deleted = true) :
    AllShown past (bury messages id channel seq) := by
  obtain ⟨state, member, message, stored, rfl, rfl, gone⟩ := sent
  have dead : ¬ message.deleted = false := by simp [gone]
  unfold MessageTable.bury
  dsimp only
  refine AllShown.refreshExcerpts ?_ id none
  split
  · rename_i old before
    split
    · intro key kept found
      rw [Table.get?_put] at found
      split at found
      · rename_i same
        subst same
        cases found
        obtain ⟨other, alsoMember, earlier, there, showed⟩ := shown _ old before
        exact ⟨state, member, message, stored, rfl,
          showed.channel.trans (oneHome alsoMember member there stored),
          by simp [CachedMessage.isDeleted, gone], fun live => (dead live).elim⟩
      · exact shown key kept found
    · exact shown
  · intro key kept found
    rw [Table.get?_put] at found
    split at found
    · rename_i same
      subst same
      cases found
      exact ⟨state, member, message, stored, rfl, rfl,
        by simp [CachedMessage.isDeleted, gone], fun live => (dead live).elim⟩
    · exact shown key kept found

end MessageTable

namespace Cache

/-- Every message and every own membership is as the server once had it. -/
structure AllShown (me : UserId) (past : List Server) (cache : Cache) : Prop where
  messages : MessageTable.AllShown past cache.messages
  own : ∀ {channel kept}, cache.memberships.get? (channel, me) = some kept →
    OwnShown me past channel kept

theorem AllShown.of_sublist {after : Cache} (shown : cache.AllShown me past)
    (messages : ∀ {id kept}, after.messages.get? id = some kept →
      cache.messages.get? id = some kept)
    (own : ∀ {channel kept}, after.memberships.get? (channel, me) = some kept →
      cache.memberships.get? (channel, me) = some kept) : after.AllShown me past :=
  ⟨fun id kept found => shown.messages id kept (messages found),
    fun found => shown.own (own found)⟩

theorem AllShown.ownStage (shown : cache.AllShown me past) (sent : batch.From me past) :
    (ownStage me cache batch).AllShown me past where
  messages := (sameRows_ownStage me cache batch).messages ▸ shown.messages
  own := by
    intro channel kept found
    rcases ownStage_origin me cache batch found with old | ⟨row, member, rfl, mine, rfl⟩
    · exact shown.own old
    · obtain ⟨state, inPast, membership, stored, same⟩ := sent.memberships row member mine
      refine ⟨rfl, state, inPast, membership, stored, ?_, ?_⟩
      · exact congrArg MemberRow.seq same
      · rw [same]
        simp [Server.membershipOut]

theorem AllShown.applyRemoval (shown : cache.AllShown me past) (removal : ChannelId × Int) :
    (applyRemoval me cache removal).AllShown me past := by
  unfold Cache.applyRemoval
  split
  · exact shown
  · split
    · exact shown
    · refine shown.of_sublist ?_ ?_
      · intro id kept found
        simp only [removeChannelRows, Table.get?_filter] at found
        exact (Option.filter_eq_some_iff.mp found).1
      · intro channel kept found
        simp only [removeChannelRows, Table.get?_filter] at found
        exact (Option.filter_eq_some_iff.mp found).1

theorem AllShown.applyMembership (shown : cache.AllShown me past) {row : MemberRow}
    (other : row.userId ≠ me) : (cache.applyMembership row).AllShown me past := by
  unfold Cache.applyMembership
  split
  · exact shown
  · refine shown.of_sublist id fun {channel kept} found => ?_
    rw [← found]
    exact (Table.get?_upsert_ne _ _ _ fun same => other (congrArg Prod.snd same).symm).symm

theorem AllShown.applyLeft (shown : cache.AllShown me past)
    {left : ChannelId × UserId × Int} (other : left.2.1 ≠ me) :
    (cache.applyLeft left).AllShown me past := by
  refine shown.of_sublist id fun {channel kept} found => ?_
  rw [← found]
  exact (Table.get?_upsert_ne _ _ _ fun same => other (congrArg Prod.snd same).symm).symm

theorem AllShown.applyChannel (shown : cache.AllShown me past) (row : ChannelRow) :
    (cache.applyChannel row).AllShown me past := by
  unfold Cache.applyChannel
  split
  · exact shown
  · exact shown.of_sublist id id

theorem AllShown.applyMessage (oneHome : OneHome past) (shown : cache.AllShown me past)
    {row : MessageRow} (sent : ∃ state ∈ past, ∃ message,
      state.messages.get? row.id = some message ∧ row = state.messageOut row.id message) :
    (applyMessage batch cache row).AllShown me past := by
  unfold Cache.applyMessage
  split
  · exact shown
  · split
    · exact ⟨MessageTable.AllShown.store oneHome shown.messages _ sent, shown.own⟩
    · exact shown

theorem AllShown.applyTombstone (oneHome : OneHome past) (shown : cache.AllShown me past)
    {tombstone : MessageId × ChannelId × Int} (sent : ∃ state ∈ past, ∃ message,
      state.messages.get? tombstone.1 = some message ∧ message.channelId = tombstone.2.1 ∧
        message.seq = tombstone.2.2 ∧ message.deleted = true) :
    (applyTombstone cache tombstone).AllShown me past := by
  unfold Cache.applyTombstone
  split
  · exact ⟨MessageTable.AllShown.bury oneHome shown.messages sent, shown.own⟩
  · exact shown

theorem AllShown.apply (oneHome : OneHome past) (shown : cache.AllShown me past)
    (sent : batch.From me past) : (apply me cache batch).AllShown me past := by
  rw [apply_eq]
  have own := shown.ownStage sent
  have removed : (removalStage me (Cache.ownStage me cache batch) batch).AllShown me past :=
    List.foldlRecOn (motive := fun after : Cache => after.AllShown me past) _ _ own
      fun _ before removal _ => before.applyRemoval removal
  have channels := List.foldlRecOn (motive := fun after : Cache => after.AllShown me past)
    batch.channels Cache.applyChannel removed fun _ before row _ => before.applyChannel row
  have members := List.foldlRecOn (motive := fun after : Cache => after.AllShown me past)
    (batch.memberships.filter (·.userId ≠ me)) Cache.applyMembership channels
    fun _ before row member => before.applyMembership (by simpa using (List.mem_filter.mp member).2)
  have left := List.foldlRecOn (motive := fun after : Cache => after.AllShown me past)
    batch.left Cache.applyLeft members fun _ before left member =>
      before.applyLeft (sent.left left member)
  have users := List.foldlRecOn (motive := fun after : Cache => after.AllShown me past)
    batch.users Cache.applyUser left fun _ before row _ => before.of_sublist id id
  have messages := List.foldlRecOn (motive := fun after : Cache => after.AllShown me past)
    batch.messages (Cache.applyMessage batch) users fun _ before row member =>
      before.applyMessage oneHome (sent.messages row member)
  exact List.foldlRecOn (motive := fun after : Cache => after.AllShown me past)
    batch.tombstones Cache.applyTombstone messages fun _ before tombstone member =>
      before.applyTombstone oneHome (sent.tombstones tombstone member)

end Cache

end Brook
