import Brook.Server.Stamp

namespace Brook

namespace Server

/-! What one committed transaction can do, table by table.  Every invariant of
the server and of a cache filled from it follows from these cases. -/

inductive UserChange (after : Server) :
    Option User → Option User → Prop where
  | same {row : Option User} : UserChange after row row
  | stamped {old : Option User} {new : User} :
      new.seq = after.counter → UserChange after old (some new)

inductive ChannelChange (after : Server) :
    Option Channel → Option Channel → Prop where
  | same {row : Option Channel} : ChannelChange after row row
  | stamped {old : Option Channel} {new : Channel} :
      new.seq = after.counter → ChannelChange after old (some new)
  | deleted {old : Channel} : ChannelChange after (some old) none

inductive MembershipChange (after : Server) (key : ChannelId × UserId) :
    Option Membership → Option Membership → Prop where
  | same {row : Option Membership} : MembershipChange after key row row
  | stamped {old new : Membership} :
      new.seq = after.counter → new.joinedSeq = old.joinedSeq →
        MembershipChange after key (some old) (some new)
  | joined {new : Membership} :
      new.seq = after.counter → new.joinedSeq = after.counter →
        MembershipChange after key none (some new)
  | ended {old : Membership} :
      ⟨key.1, key.2, after.counter⟩ ∈ after.tombstones →
        MembershipChange after key (some old) none

inductive MessageChange (before after : Server) (id : MessageId) :
    Option Message → Option Message → Prop where
  | same {row : Option Message} : MessageChange before after id row row
  | created {new : Message} :
      new.seq = after.counter → id ∉ before.messageIds →
        MessageChange before after id none (some new)
  | stamped {old new : Message} :
      new.seq = after.counter → new.channelId = old.channelId →
        old.deleted = false →
        MessageChange before after id (some old) (some new)
  | removed {old : Message} : MessageChange before after id (some old) none

/-- One transaction that took a number. -/
structure Committed (before after : Server) : Prop where
  counter : after.counter = before.counter + 1
  floor : after.floor = before.floor
  users : ∀ user,
    UserChange after (before.users.get? user) (after.users.get? user)
  channels : ∀ channel,
    ChannelChange after (before.channels.get? channel)
      (after.channels.get? channel)
  memberships : ∀ key,
    MembershipChange after key (before.memberships.get? key)
      (after.memberships.get? key)
  messages : ∀ id,
    MessageChange before after id (before.messages.get? id)
      (after.messages.get? id)
  /-- A new membership re-stamps its channel and belongs to a stored user. -/
  joined : ∀ {key new}, before.memberships.get? key = none →
    after.memberships.get? key = some new →
      (∃ channel, after.channels.get? key.1 = some channel ∧
        channel.seq = after.counter) ∧
      ∃ user, after.users.get? key.2 = some user
  /-- A deleted channel takes its memberships and messages with it. -/
  deletedMemberships : ∀ {channel user}, before.channels.get? channel ≠ none →
    after.channels.get? channel = none →
      after.memberships.get? (channel, user) = none
  deletedMessages : ∀ {channel id row}, before.channels.get? channel ≠ none →
    after.channels.get? channel = none →
      after.messages.get? id = some row → row.channelId ≠ channel
  messageChannel : ∀ {id row}, before.messages.get? id = none →
    after.messages.get? id = some row →
      before.channels.get? row.channelId ≠ none
  tombstones : ∀ {tombstone}, tombstone ∈ before.tombstones →
    tombstone ∈ after.tombstones
  tombstones_new : ∀ {tombstone}, tombstone ∈ after.tombstones →
    tombstone ∈ before.tombstones ∨
      (tombstone.seq = after.counter ∧
        after.memberships.get? (tombstone.channelId, tombstone.userId) = none)
  channelIds : ∀ {id}, id ∈ before.channelIds → id ∈ after.channelIds
  channelIds_stored : ∀ {id row}, after.channels.get? id = some row →
    before.channels.get? id = none → id ∈ after.channelIds
  messageIds : ∀ {id}, id ∈ before.messageIds → id ∈ after.messageIds
  messageIds_stored : ∀ {id row}, after.messages.get? id = some row →
    before.messages.get? id = none → id ∈ after.messageIds

section

variable {server : Server} {changes : Changes}

theorem commit_of_isEmpty (empty : changes.isEmpty = true) :
    server.commit changes = server := by
  simp [commit, empty]

private theorem commit_counter (stamped : changes.isEmpty = false) :
    (server.commit changes).counter = server.counter + 1 := by
  simp [commit, stamped]

private theorem commit_users (stamped : changes.isEmpty = false)
    (user : UserId) :
    UserChange (server.commit changes) (server.users.get? user)
      ((server.commit changes).users.get? user) := by
  have stored : (server.commit changes).users =
      server.users.putAll (changes.users.map fun entry =>
        (entry.1, { entry.2 with seq := server.counter + 1 })) := by
    simp [commit, stamped]
  rw [stored]
  rcases Table.putAll_cases server.users
      (changes.users.map fun entry =>
        (entry.1, { entry.2 with seq := server.counter + 1 })) user with
    ⟨_, kept⟩ | ⟨row, member, found⟩
  · rw [kept]
    exact UserChange.same
  · have numbered : row.seq = server.counter + 1 := by
      obtain ⟨_, _, equality⟩ := List.mem_map.mp member
      cases equality
      rfl
    rw [found]
    exact UserChange.stamped (by rw [numbered, commit_counter stamped])

/-- The channels before the deletions of the transaction. -/
def writtenChannels (server : Server) (changes : Changes) :
    Table ChannelId Channel :=
  (server.channels.putAll
    (changes.channels.map fun entry =>
      (entry.1, { entry.2 with seq := server.counter + 1 }))).mapRows
    fun channel row =>
      if channel ∈ changes.memberChanges server then
        { row with seq := server.counter + 1 }
      else
        row

theorem commit_get?_channels (stamped : changes.isEmpty = false)
    (channel : ChannelId) :
    (server.commit changes).channels.get? channel =
      if channel ∈ changes.deadChannels then
        none
      else
        (writtenChannels server changes).get? channel := by
  simp only [commit, stamped, Bool.false_eq_true, if_false,
    Table.get?_filter, writtenChannels]
  cases (Table.get? _ channel) with
  | none => simp
  | some row =>
      by_cases dead : channel ∈ changes.deadChannels
      · simp [Option.filter, dead]
      · simp [Option.filter, dead]

private theorem writtenChannels_cases (server : Server) (changes : Changes)
    (channel : ChannelId) :
    ((writtenChannels server changes).get? channel =
        server.channels.get? channel ∧
      channel ∉ changes.memberChanges server) ∨
      ((writtenChannels server changes).get? channel = none ∧
        server.channels.get? channel = none ∧
        ∀ row, (channel, row) ∉ changes.channels) ∨
      ∃ row, (writtenChannels server changes).get? channel = some row ∧
        row.seq = server.counter + 1 := by
  unfold writtenChannels
  rw [Table.get?_mapRows]
  rcases Table.putAll_cases server.channels
      (changes.channels.map fun entry =>
        (entry.1, { entry.2 with seq := server.counter + 1 })) channel with
    ⟨absent, kept⟩ | ⟨row, member, found⟩
  · rw [kept]
    cases stored : server.channels.get? channel with
    | none =>
        refine Or.inr (Or.inl ⟨rfl, rfl, ?_⟩)
        intro row member
        exact absent _ (List.mem_map.mpr ⟨_, member, rfl⟩)
    | some row =>
        by_cases changed : channel ∈ changes.memberChanges server
        · exact Or.inr (Or.inr ⟨_, rfl, by simp [changed]⟩)
        · exact Or.inl ⟨by simp [changed], changed⟩
  · have numbered : row.seq = server.counter + 1 := by
      obtain ⟨_, _, equality⟩ := List.mem_map.mp member
      cases equality
      rfl
    rw [found]
    refine Or.inr (Or.inr ⟨_, rfl, ?_⟩)
    split
    · rfl
    · exact numbered

private theorem commit_channels (stamped : changes.isEmpty = false)
    (channel : ChannelId) :
    ChannelChange (server.commit changes) (server.channels.get? channel)
      ((server.commit changes).channels.get? channel) := by
  rw [commit_get?_channels stamped]
  by_cases dead : channel ∈ changes.deadChannels
  · rw [if_pos dead]
    cases server.channels.get? channel with
    | none => exact ChannelChange.same
    | some row => exact ChannelChange.deleted
  · rw [if_neg dead]
    rcases writtenChannels_cases server changes channel with
      ⟨same, _⟩ | ⟨absent, stored, _⟩ | ⟨row, found, numbered⟩
    · rw [same]
      exact ChannelChange.same
    · rw [absent, stored]
      exact ChannelChange.same
    · rw [found]
      exact ChannelChange.stamped (by rw [numbered, commit_counter stamped])

/-- The memberships before the deletions of the transaction. -/
def written (server : Server) (changes : Changes) :
    Table (ChannelId × UserId) Membership :=
  (server.memberships.putAll
    (changes.memberships.map fun entry =>
      (entry.1, { entry.2 with seq := server.counter + 1 }))).putAll
    (changes.joined.map fun entry =>
      (entry.1, { entry.2 with
        seq := server.counter + 1, joinedSeq := server.counter + 1 }))

private theorem written_cases (valid : changes.Valid server)
    (key : ChannelId × UserId) :
    (written server changes).get? key = server.memberships.get? key ∨
      (∃ old new, server.memberships.get? key = some old ∧
        (written server changes).get? key = some new ∧
        new.seq = server.counter + 1 ∧ new.joinedSeq = old.joinedSeq) ∨
      (∃ row new, (key, row) ∈ changes.joined ∧
        server.memberships.get? key = none ∧
        (written server changes).get? key = some new ∧
        new.seq = server.counter + 1 ∧
        new.joinedSeq = server.counter + 1) := by
  unfold written
  rcases Table.putAll_cases (server.memberships.putAll
      (changes.memberships.map fun entry =>
        (entry.1, { entry.2 with seq := server.counter + 1 })))
      (changes.joined.map fun entry =>
        (entry.1, { entry.2 with
          seq := server.counter + 1, joinedSeq := server.counter + 1 })) key with
    ⟨_, kept⟩ | ⟨new, member, found⟩
  · rcases Table.putAll_cases server.memberships
        (changes.memberships.map fun entry =>
          (entry.1, { entry.2 with seq := server.counter + 1 })) key with
      ⟨_, same⟩ | ⟨new, member, found⟩
    · exact Or.inl (kept.trans same)
    · obtain ⟨⟨_, row⟩, modified, equality⟩ := List.mem_map.mp member
      cases equality
      obtain ⟨old, stored, joinedSeq⟩ := valid.modified modified
      exact Or.inr (Or.inl ⟨old, _, stored, kept.trans found, rfl, joinedSeq⟩)
  · obtain ⟨⟨_, row⟩, joined, equality⟩ := List.mem_map.mp member
    cases equality
    exact Or.inr (Or.inr
      ⟨row, _, joined, valid.joined_new joined, found, rfl, rfl⟩)

theorem commit_get?_memberships (stamped : changes.isEmpty = false)
    (key : ChannelId × UserId) :
    (server.commit changes).memberships.get? key =
      if key ∈ changes.ended ∨ key.1 ∈ changes.deadChannels then
        none
      else
        (written server changes).get? key := by
  simp only [commit, stamped, Bool.false_eq_true, if_false,
    Table.get?_filter, written]
  cases (Table.get? _ key) with
  | none => simp
  | some row =>
      by_cases gone : key ∈ changes.ended ∨ key.1 ∈ changes.deadChannels
      · rw [if_pos gone]
        rcases gone with ended | dead
        · simp [Option.filter, ended]
        · simp [Option.filter, dead]
      · rw [if_neg gone]
        simp only [not_or] at gone
        simp [Option.filter, gone]

private theorem commit_mem_tombstones (stamped : changes.isEmpty = false)
    (tombstone : SyncTombstone) :
    tombstone ∈ (server.commit changes).tombstones ↔
      tombstone ∈ server.tombstones ∨
        (tombstone.seq = server.counter + 1 ∧
          ((tombstone.channelId, tombstone.userId) ∈ changes.ended ∨
            (tombstone.channelId ∈ changes.deadChannels ∧
              ∃ row, server.memberships.get?
                (tombstone.channelId, tombstone.userId) = some row))) := by
  obtain ⟨channel, user, seq⟩ := tombstone
  simp only [commit, stamped, Bool.false_eq_true, if_false,
    List.mem_append, List.mem_map, List.mem_flatMap, mem_members,
    SyncTombstone.mk.injEq, Prod.exists]
  constructor
  · rintro ((old | ⟨_, _, ended, rfl, rfl, rfl⟩) |
      ⟨_, dead, _, member, rfl, rfl, rfl⟩)
    · exact Or.inl old
    · exact Or.inr ⟨rfl, Or.inl ended⟩
    · exact Or.inr ⟨rfl, Or.inr ⟨dead, member⟩⟩
  · rintro (old | ⟨rfl, ended | ⟨dead, member⟩⟩)
    · exact Or.inl (Or.inl old)
    · exact Or.inl (Or.inr ⟨_, _, ended, rfl, rfl, rfl⟩)
    · exact Or.inr ⟨_, dead, _, member, rfl, rfl, rfl⟩

private theorem commit_memberships (stamped : changes.isEmpty = false)
    (valid : changes.Valid server) (key : ChannelId × UserId) :
    MembershipChange (server.commit changes) key
      (server.memberships.get? key)
      ((server.commit changes).memberships.get? key) := by
  rw [commit_get?_memberships stamped]
  by_cases gone : key ∈ changes.ended ∨ key.1 ∈ changes.deadChannels
  · rw [if_pos gone]
    cases stored : server.memberships.get? key with
    | none => exact MembershipChange.same
    | some old =>
        refine MembershipChange.ended ?_
        rw [commit_mem_tombstones stamped, commit_counter stamped]
        refine Or.inr ⟨rfl, ?_⟩
        rcases gone with ended | dead
        · exact Or.inl ended
        · exact Or.inr ⟨dead, old, stored⟩
  · rw [if_neg gone]
    rcases written_cases valid key with
      same | ⟨old, new, stored, found, numbered, kept⟩ |
        ⟨_, new, _, stored, found, numbered, joined⟩
    · rw [same]
      exact MembershipChange.same
    · rw [found, stored]
      exact MembershipChange.stamped
        (by rw [numbered, commit_counter stamped]) kept
    · rw [found, stored]
      exact MembershipChange.joined
        (by rw [numbered, commit_counter stamped])
        (by rw [joined, commit_counter stamped])

/-- Only a row that the route adds makes a new member. -/
theorem joined_of_commit (stamped : changes.isEmpty = false)
    (valid : changes.Valid server) {key : ChannelId × UserId}
    {new : Membership} (absent : server.memberships.get? key = none)
    (found : (server.commit changes).memberships.get? key = some new) :
    ∃ row, (key, row) ∈ changes.joined := by
  rw [commit_get?_memberships stamped] at found
  split at found
  · cases found
  · rcases written_cases valid key with
      same | ⟨old, _, stored, _⟩ | ⟨row, _, joined, _⟩
    · rw [same, absent] at found
      cases found
    · rw [absent] at stored
      cases stored
    · exact ⟨row, joined⟩

private theorem commit_joined (stamped : changes.isEmpty = false)
    (valid : changes.Valid server) {key : ChannelId × UserId}
    {new : Membership} (absent : server.memberships.get? key = none)
    (found : (server.commit changes).memberships.get? key = some new) :
    (∃ channel, (server.commit changes).channels.get? key.1 = some channel ∧
      channel.seq = (server.commit changes).counter) ∧
      ∃ user, (server.commit changes).users.get? key.2 = some user := by
  rw [commit_get?_memberships stamped] at found
  split at found
  · cases found
  · rename_i alive
    rw [not_or] at alive
    rcases written_cases valid key with
      same | ⟨old, _, stored, _⟩ | ⟨row, _, joined, _⟩
    · rw [same, absent] at found
      cases found
    · rw [absent] at stored
      cases stored
    · have changed : key.1 ∈ changes.memberChanges server := by
        simp only [Changes.memberChanges, List.mem_append, List.mem_map]
        exact Or.inl (Or.inl (Or.inl (Or.inl ⟨_, joined, rfl⟩)))
      constructor
      · rw [commit_get?_channels stamped, if_neg alive.2, commit_counter stamped]
        rcases writtenChannels_cases server changes key.1 with
          ⟨_, unchanged⟩ | ⟨_, missing, fresh⟩ | found
        · exact (unchanged changed).elim
        · rcases valid.joined_channel joined with
            ⟨channel, stored⟩ | ⟨channel, member⟩
          · rw [missing] at stored
            cases stored
          · exact (fresh channel member).elim
        · exact found
      · obtain ⟨user, stored⟩ := valid.joined_user joined
        have change : UserChange (server.commit changes)
            (server.users.get? key.2)
            ((server.commit changes).users.get? key.2) :=
          commit_users stamped key.2
        rw [stored] at change
        cases h : (server.commit changes).users.get? key.2 with
        | some user => exact ⟨user, rfl⟩
        | none =>
            rw [h] at change
            cases change

/-- The messages before the deletions of the transaction. -/
def writtenMessages (server : Server) (changes : Changes) :
    Table MessageId Message :=
  (server.messages.putAll
    (changes.messages.map fun entry =>
      (entry.1, { entry.2 with seq := server.counter + 1 }))).mapRows
    fun id row =>
      if id ∈ changes.touched then
        { row with seq := server.counter + 1 }
      else
        row

theorem writtenMessages_cases (valid : changes.Valid server)
    (id : MessageId) :
    (writtenMessages server changes).get? id = server.messages.get? id ∨
      (∃ old new, server.messages.get? id = some old ∧
        (writtenMessages server changes).get? id = some new ∧
        new.seq = server.counter + 1 ∧ new.channelId = old.channelId ∧
        old.deleted = false) ∨
      (∃ row new, (id, row) ∈ changes.messages ∧
        server.messages.get? id = none ∧
        (writtenMessages server changes).get? id = some new ∧
        new.seq = server.counter + 1 ∧ new.channelId = row.channelId) := by
  unfold writtenMessages
  rw [Table.get?_mapRows]
  rcases Table.putAll_cases server.messages
      (changes.messages.map fun entry =>
        (entry.1, { entry.2 with seq := server.counter + 1 })) id with
    ⟨_, kept⟩ | ⟨new, member, found⟩
  · rw [kept]
    cases stored : server.messages.get? id with
    | none => exact Or.inl rfl
    | some row =>
        by_cases touched : id ∈ changes.touched
        · exact Or.inr (Or.inl ⟨row, _, rfl, rfl, by simp [touched],
            by simp [touched], valid.touched_live touched stored⟩)
        · exact Or.inl (by simp [touched])
  · obtain ⟨row, written, numbered, channel⟩ :
        ∃ row, (id, row) ∈ changes.messages ∧
          new.seq = server.counter + 1 ∧ new.channelId = row.channelId := by
      obtain ⟨⟨_, row⟩, written, equality⟩ := List.mem_map.mp member
      cases equality
      exact ⟨row, written, rfl, rfl⟩
    have final : ∃ last,
        some last = Option.map (fun row : Message =>
          if id ∈ changes.touched then
            { row with seq := server.counter + 1 }
          else row) (some new) ∧
        last.seq = server.counter + 1 ∧ last.channelId = row.channelId := by
      refine ⟨_, rfl, ?_⟩
      split
      · exact ⟨rfl, channel⟩
      · exact ⟨numbered, channel⟩
    obtain ⟨last, stored, lastNumbered, lastChannel⟩ := final
    rw [found, ← stored]
    cases before : server.messages.get? id with
    | none =>
        exact Or.inr (Or.inr
          ⟨row, last, written, rfl, rfl, lastNumbered, lastChannel⟩)
    | some old =>
        obtain ⟨sameChannel, live⟩ := valid.message_kept written before
        exact Or.inr (Or.inl
          ⟨old, last, rfl, rfl, lastNumbered,
            lastChannel.trans sameChannel.symm, live⟩)

theorem commit_get?_messages (stamped : changes.isEmpty = false)
    (id : MessageId) :
    (server.commit changes).messages.get? id =
      ((writtenMessages server changes).get? id).filter
        fun row => row.channelId ∉ changes.deadChannels := by
  simp only [commit, stamped, Bool.false_eq_true, if_false,
    Table.get?_filter, writtenMessages]

private theorem commit_messages (stamped : changes.isEmpty = false)
    (valid : changes.Valid server) (id : MessageId) :
    MessageChange server (server.commit changes) id
      (server.messages.get? id)
      ((server.commit changes).messages.get? id) := by
  rw [commit_get?_messages stamped]
  rcases writtenMessages_cases valid id with
    same | ⟨old, new, stored, found, numbered, channel, live⟩ |
      ⟨row, new, written, stored, found, numbered, _⟩
  · rw [same]
    cases stored : server.messages.get? id with
    | none => exact MessageChange.same
    | some old =>
        cases kept : decide (old.channelId ∉ changes.deadChannels) with
        | true =>
            rw [Option.filter_some, if_pos kept]
            exact MessageChange.same
        | false =>
            rw [Option.filter_some, if_neg (by simp [kept])]
            exact MessageChange.removed
  · rw [found, stored]
    cases kept : decide (new.channelId ∉ changes.deadChannels) with
    | true =>
        rw [Option.filter_some, if_pos kept]
        exact MessageChange.stamped
          (by rw [numbered, commit_counter stamped]) channel live
    | false =>
        rw [Option.filter_some, if_neg (by simp [kept])]
        exact MessageChange.removed
  · rw [found, stored]
    cases kept : decide (new.channelId ∉ changes.deadChannels) with
    | true =>
        rw [Option.filter_some, if_pos kept]
        exact MessageChange.created
          (by rw [numbered, commit_counter stamped])
          (valid.message_new written stored).1
    | false =>
        rw [Option.filter_some, if_neg (by simp [kept])]
        exact MessageChange.same

theorem dead_of_deleted (stamped : changes.isEmpty = false)
    {channel : ChannelId} (stored : server.channels.get? channel ≠ none)
    (deleted : (server.commit changes).channels.get? channel = none) :
    channel ∈ changes.deadChannels := by
  rw [commit_get?_channels stamped] at deleted
  by_cases dead : channel ∈ changes.deadChannels
  · exact dead
  · rw [if_neg dead] at deleted
    rcases writtenChannels_cases server changes channel with
      ⟨same, _⟩ | ⟨_, absent, _⟩ | ⟨row, found, _⟩
    · exact (stored (same ▸ deleted)).elim
    · exact (stored absent).elim
    · rw [found] at deleted
      cases deleted

theorem commit_channel_new (stamped : changes.isEmpty = false)
    {channel : ChannelId} {row : Channel}
    (absent : server.channels.get? channel = none)
    (found : (server.commit changes).channels.get? channel = some row) :
    ∃ sent, (channel, sent) ∈ changes.channels := by
  have written : (writtenChannels server changes).get? channel = some row := by
    rw [commit_get?_channels stamped] at found
    split at found
    · cases found
    · exact found
  unfold writtenChannels at written
  rw [Table.get?_mapRows] at written
  rcases Table.putAll_cases server.channels
      (changes.channels.map fun entry =>
        (entry.1, { entry.2 with seq := server.counter + 1 })) channel with
    ⟨_, kept⟩ | ⟨_, member, _⟩
  · rw [kept, absent] at written
    cases written
  · obtain ⟨⟨_, sent⟩, sentMember, equality⟩ := List.mem_map.mp member
    cases equality
    exact ⟨sent, sentMember⟩

private theorem commit_message_new (stamped : changes.isEmpty = false)
    (valid : changes.Valid server) {id : MessageId} {row : Message}
    (absent : server.messages.get? id = none)
    (found : (server.commit changes).messages.get? id = some row) :
    ∃ sent, (id, sent) ∈ changes.messages ∧
      row.channelId = sent.channelId := by
  rw [commit_get?_messages stamped] at found
  have written := (Option.filter_eq_some_iff.mp found).1
  rcases writtenMessages_cases valid id with
    same | ⟨old, _, stored, _⟩ | ⟨sent, new, member, _, stored, _, channel⟩
  · rw [same, absent] at written
    cases written
  · rw [absent] at stored
    cases stored
  · rw [stored] at written
    cases written
    exact ⟨sent, member, channel⟩

/-- A transaction whose session was valid commits as `Committed` says. -/
theorem commit_committed (stamped : changes.isEmpty = false)
    (valid : changes.Valid server) :
    Committed server (server.commit changes) where
  counter := commit_counter stamped
  floor := by simp [commit, stamped]
  users := commit_users stamped
  channels := commit_channels stamped
  memberships := commit_memberships stamped valid
  messages := commit_messages stamped valid
  joined := commit_joined stamped valid
  deletedMemberships := by
    intro channel user stored deleted
    have dead := dead_of_deleted stamped stored deleted
    rw [commit_get?_memberships stamped, if_pos (Or.inr dead)]
  deletedMessages := by
    intro channel id row stored deleted found equality
    have dead := dead_of_deleted stamped stored deleted
    rw [commit_get?_messages stamped] at found
    have kept := (Option.filter_eq_some_iff.mp found).2
    simp [equality, dead] at kept
  messageChannel := by
    intro id row absent found
    obtain ⟨sent, member, equality⟩ :=
      commit_message_new stamped valid absent found
    obtain ⟨channel, stored⟩ := (valid.message_new member absent).2
    rw [equality, stored]
    simp
  tombstones := by
    intro tombstone member
    exact (commit_mem_tombstones stamped tombstone).mpr (Or.inl member)
  tombstones_new := by
    intro tombstone member
    rcases (commit_mem_tombstones stamped tombstone).mp member with
      old | ⟨numbered, gone⟩
    · exact Or.inl old
    · refine Or.inr ⟨by rw [numbered, commit_counter stamped], ?_⟩
      rw [commit_get?_memberships stamped, if_pos]
      rcases gone with ended | ⟨dead, _⟩
      · exact Or.inl ended
      · exact Or.inr dead
  channelIds := by
    intro id member
    simp only [commit, stamped, Bool.false_eq_true, if_false,
      List.mem_append]
    exact Or.inr member
  channelIds_stored := by
    intro id row found absent
    obtain ⟨sent, member⟩ := commit_channel_new stamped absent found
    simp only [commit, stamped, Bool.false_eq_true, if_false,
      List.mem_append, List.mem_map]
    exact Or.inl ⟨_, member, rfl⟩
  messageIds := by
    intro id member
    simp only [commit, stamped, Bool.false_eq_true, if_false,
      List.mem_append]
    exact Or.inr member
  messageIds_stored := by
    intro id row found absent
    obtain ⟨sent, member, _⟩ :=
      commit_message_new stamped valid absent found
    simp only [commit, stamped, Bool.false_eq_true, if_false,
      List.mem_append, List.mem_map]
    exact Or.inl ⟨_, member, rfl⟩

end

end Server

end Brook
