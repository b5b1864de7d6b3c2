import Brook.Server.Invariant

namespace Brook

/-! The unread counts of the server, and what its markers have always read. -/

/-- The marker is at the message or past it. -/
def ReadBy (marker : Option MessageId) (id : MessageId) : Bool :=
  marker.any (id ≤ ·)

namespace Server

/-- A message of the channel that is not deleted and newer than the marker. -/
def isUnread (channel : ChannelId) (marker : Option MessageId)
    (entry : MessageId × Message) : Bool :=
  entry.2.channelId = channel && !entry.2.deleted && marker.all (· < entry.1)

/-- It names the user or everyone, and someone else wrote it. -/
def mentionsUser (user : UserId) (entry : MessageId × Message) : Bool :=
  entry.2.authorId ≠ user && (entry.2.mentionEveryone || user ∈ entry.2.mentions)

def membershipsOf (server : Server) (user : UserId) : List (ChannelId × Membership) :=
  (server.memberships.rows.filter fun entry => entry.1.2 = user).map fun entry =>
    (entry.1.1, entry.2)

/-- `_unread_counts` -/
def unreadCounts (server : Server) (user : UserId) : List (ChannelId × Nat) :=
  (server.membershipsOf user).map fun entry =>
    (entry.1, (server.messages.rows.filter (isUnread entry.1 entry.2.lastRead)).length)

/-- `_unread_mentions`: a channel without one is not in it. -/
def unreadMentions (server : Server) (user : UserId) : List (ChannelId × Nat) :=
  ((server.membershipsOf user).map fun entry =>
    (entry.1, (server.messages.rows.filter fun message =>
      isUnread entry.1 entry.2.lastRead message && mentionsUser user message).length)).filter
    fun entry => entry.2 ≠ 0

/-- `counts.get(channel.id, 0)` -/
def countOf (counts : List (ChannelId × Nat)) (channel : ChannelId) : Nat :=
  (counts.lookup channel).getD 0

/-- Every member has read their own messages that are not deleted. -/
def OwnRead (server : Server) : Prop :=
  ∀ {channel user row id message}, server.memberships.get? (channel, user) = some row →
    server.messages.get? id = some message → message.channelId = channel →
    message.authorId = user → message.deleted = false → ReadBy row.lastRead id = true

/-- What the routes promise about markers and new rows. -/
structure Changes.Reads (changes : Changes) (server : Server) : Prop where
  sent : ∀ {id row}, (id, row) ∈ changes.messages →
    (∃ old, server.messages.get? id = some old ∧ old.deleted = false ∧
      row.channelId = old.channelId ∧ row.authorId = old.authorId) ∨
    changes.memberships = server.readUpTo row.channelId row.authorId id
  marked : ∀ {key row}, (key, row) ∈ changes.memberships →
    ∃ old, server.memberships.get? key = some old ∧
      ∀ id, ReadBy old.lastRead id = true → ReadBy row.lastRead id = true
  joined : ∀ {channel user row id message}, ((channel, user), row) ∈ changes.joined →
    server.messages.get? id = some message → message.channelId = channel →
    message.deleted = false → ReadBy row.lastRead id = true
  apart : changes.joined = [] ∨ changes.messages = []
  created : ∀ {id row}, (id, row) ∈ changes.channels → server.channels.get? id = none →
    id ∉ server.channelIds

section

variable {server : Server} {changes : Changes}

theorem not_all_lt_iff {marker : Option MessageId} {id : MessageId} :
    marker.all (· < id) = false ↔ ReadBy marker id = true := by
  cases marker <;> simp [ReadBy]

/-- The marker after reading up to a message is there or further. -/
theorem readUpTo_cases (channel : ChannelId) (user : UserId) (id : MessageId) :
    (server.readUpTo channel user id = [] ∧
      ∀ row, server.memberships.get? (channel, user) = some row →
        ReadBy row.lastRead id = true) ∨
    ∃ old, server.memberships.get? (channel, user) = some old ∧
      old.lastRead.all (· < id) = true ∧
      server.readUpTo channel user id =
        [((channel, user), { old with lastRead := some id })] := by
  unfold readUpTo
  cases stored : server.memberships.get? (channel, user) with
  | none => exact Or.inl ⟨rfl, fun row found => (nomatch found)⟩
  | some old =>
      cases behind : old.lastRead.all (· < id) with
      | true => exact Or.inr ⟨old, rfl, behind, by simp [behind]⟩
      | false =>
          refine Or.inl ⟨by simp [behind], ?_⟩
          rintro row ⟨⟩
          exact not_all_lt_iff.mp behind

theorem marked_of_readUpTo {channel : ChannelId} {user : UserId} {id : MessageId}
    {key : ChannelId × UserId} {row : Membership}
    (member : (key, row) ∈ server.readUpTo channel user id) :
    ∃ old, server.memberships.get? key = some old ∧
      ∀ earlier, ReadBy old.lastRead earlier = true → ReadBy row.lastRead earlier = true := by
  rcases @readUpTo_cases server channel user id with
    ⟨none, _⟩ | ⟨old, stored, behind, one⟩
  · rw [none] at member
    cases member
  · rw [one, List.mem_singleton, Prod.mk.injEq] at member
    obtain ⟨rfl, rfl⟩ := member
    refine ⟨old, stored, fun earlier read => ?_⟩
    cases marker : old.lastRead with
    | none => simp [marker, ReadBy] at read
    | some last =>
        have below : last < id := by simpa [marker] using behind
        have within : earlier ≤ last := by simpa [marker, ReadBy] using read
        simpa [ReadBy] using Nat.le_trans within (Nat.le_of_lt below)

/-- A member who joins starts at the latest message that is not deleted. -/
theorem read_latest {channel : ChannelId} {id : MessageId} {message : Message}
    (stored : server.messages.get? id = some message) (here : message.channelId = channel)
    (live : message.deleted = false) :
    ReadBy (server.latestMessageId channel) id = true := by
  have member : id ∈ (server.messages.rows.filter fun entry =>
      entry.2.channelId = channel && !entry.2.deleted).map Prod.fst :=
    List.mem_map.mpr ⟨(id, message), List.mem_filter.mpr
      ⟨Table.mem_rows.mpr stored, by simp [here, live]⟩, rfl⟩
  cases latest : server.latestMessageId channel with
  | none =>
      unfold latestMessageId at latest
      rw [List.max?_eq_none_iff] at latest
      rw [latest] at member
      cases member
  | some last =>
      unfold latestMessageId at latest
      simpa [ReadBy] using (List.max?_eq_some_iff.mp latest).2 id member

/-! What each route promises. -/

theorem Changes.reads_of_quiet (joined : changes.joined = [])
    (memberships : changes.memberships = []) (messages : changes.messages = [])
    (created : ∀ {id row}, (id, row) ∈ changes.channels → server.channels.get? id = none →
      id ∉ server.channelIds) : changes.Reads server where
  sent member := by simp [messages] at member
  marked member := by simp [memberships] at member
  joined member := by simp [joined] at member
  apart := Or.inl joined
  created := created

theorem Changes.reads_of_written {id : MessageId} {row old : Message}
    (stored : server.messages.get? id = some old) (live : old.deleted = false)
    (channel : row.channelId = old.channelId) (author : row.authorId = old.authorId) :
    Changes.Reads { messages := [(id, row)] } server where
  sent member := by
    simp only [List.mem_singleton, Prod.mk.injEq] at member
    obtain ⟨rfl, rfl⟩ := member
    exact Or.inl ⟨old, stored, live, channel, author⟩
  marked member := by cases member
  joined member := by cases member
  apart := Or.inl rfl
  created member := by cases member

theorem Changes.reads_of_marked {memberships : List ((ChannelId × UserId) × Membership)}
    {offers : List (ChannelId × UserId)}
    (marked : ∀ {key row}, (key, row) ∈ memberships →
      ∃ old, server.memberships.get? key = some old ∧
        ∀ id, ReadBy old.lastRead id = true → ReadBy row.lastRead id = true) :
    Changes.Reads { memberships := memberships, deadOffers := offers } server where
  sent member := by cases member
  marked := marked
  joined member := by cases member
  apart := Or.inl rfl
  created member := by cases member

/-- A channel whose id was never drawn has no messages. -/
theorem Changes.reads_of_created (wf : server.Wf) {channel : ChannelId} {row : Channel}
    {joined : List ((ChannelId × UserId) × Membership)}
    (fresh : channel ∉ server.channelIds) (own : ∀ {key row}, (key, row) ∈ joined →
      key.1 = channel) :
    Changes.Reads { channels := [(channel, row)], joined := joined } server where
  sent member := by cases member
  marked member := by cases member
  joined member stored here := by
    obtain ⟨kept, found⟩ := wf.messageChannel stored
    have undrawn := own member ▸ fresh
    exact (undrawn (wf.channelIds (here ▸ found))).elim
  apart := Or.inr rfl
  created member := by
    simp only [List.mem_singleton, Prod.mk.injEq] at member
    exact fun _ => member.1 ▸ fresh

theorem reads_of_joining (channel : ChannelId) (user : UserId) :
    (server.joining channel user).Reads server := by
  unfold joining
  split
  · exact Changes.reads_of_quiet rfl rfl rfl (by simp)
  · constructor
    case joined =>
      intro other member row id message joined stored here live
      simp only [List.mem_singleton, Prod.mk.injEq] at joined
      obtain ⟨⟨rfl, rfl⟩, rfl⟩ := joined
      exact read_latest stored here live
    case apart => exact Or.inr rfl
    all_goals simp

theorem sendMessage_reads {actor : UserId} {channel : ChannelId} {id : MessageId} {now : Nat}
    {body : Text} {replyTo : Option MessageId} {clientId : Option ClientId}
    {attachments : List FileId} {tokens : List Text}
    (answered : server.sendMessage actor channel id now body replyTo clientId attachments
      tokens = .ok changes) : changes.Reads server := by
  unfold sendMessage at answered
  repeat' split at answered
  all_goals cases answered
  · exact Changes.reads_of_quiet rfl rfl rfl (by simp)
  · constructor
    case sent =>
      intro other row member
      simp only [List.mem_singleton, Prod.mk.injEq] at member
      obtain ⟨rfl, rfl⟩ := member
      exact Or.inr rfl
    case marked => exact marked_of_readUpTo
    case apart => exact Or.inl rfl
    all_goals simp

theorem route_reads (wf : server.Wf) {request : Request}
    (fresh : request.fresh server = true) (answered : request.route server = .ok changes) :
    changes.Reads server := by
  cases request with
  | createChannel actor channel name topic isPublic =>
      simp only [Request.route, createChannel] at answered
      repeat' split at answered
      all_goals cases answered
      exact Changes.reads_of_created wf (by simpa [Request.fresh] using fresh) (by simp)
  | openDm actor channel handle =>
      simp only [Request.route, openDm] at answered
      repeat' split at answered
      all_goals cases answered
      · exact Changes.reads_of_quiet rfl rfl rfl (by simp)
      · refine Changes.reads_of_created wf (by simpa [Request.fresh] using fresh) ?_
        simp only [List.mem_cons, Prod.mk.injEq, List.not_mem_nil, or_false]
        rintro key row (⟨rfl, _⟩ | ⟨rfl, _⟩) <;> rfl
  | addMember actor channel handle =>
      simp only [Request.route, addMember] at answered
      repeat' split at answered
      all_goals cases answered
      exact reads_of_joining channel _
  | joinChannel actor channel =>
      simp only [Request.route, joinChannel] at answered
      repeat' split at answered
      all_goals cases answered
      exact reads_of_joining channel actor
  | acceptOwnership actor channel =>
      simp only [Request.route, acceptOwnership] at answered
      repeat' split at answered
      all_goals cases answered
      rename_i row stored
      refine Changes.reads_of_marked ?_
      intro key other member
      simp only [List.mem_singleton, Prod.mk.injEq] at member
      obtain ⟨rfl, rfl⟩ := member
      exact ⟨row, stored, fun _ read => read⟩
  | updateChannel actor channel name topic archived =>
      simp only [Request.route, updateChannel, requireChannelAdmin] at answered
      repeat' split at answered
      all_goals cases answered
      · exact Changes.reads_of_quiet rfl rfl rfl (by simp)
      · refine Changes.reads_of_quiet rfl rfl rfl ?_
        intro id row member absent
        simp only [List.mem_singleton, Prod.mk.injEq] at member
        simp_all
  | sendMessage actor channel id now body replyTo clientId attachments tokens =>
      exact sendMessage_reads answered
  | editMessage actor channel id body =>
      simp only [Request.route, editMessage] at answered
      repeat' split at answered
      all_goals cases answered
      rename_i message found _ _
      obtain ⟨stored, live⟩ := liveMessage_stored found
      exact Changes.reads_of_written stored live rfl rfl
  | deleteMessage actor channel id =>
      simp only [Request.route, deleteMessage] at answered
      repeat' split at answered
      all_goals cases answered
      rename_i message found _
      obtain ⟨stored, live⟩ := liveMessage_stored found
      exact Changes.reads_of_written stored live rfl rfl
  | deleteFile actor file =>
      simp only [Request.route, deleteFile] at answered
      repeat' split at answered
      all_goals cases answered
      rename_i id message found _ _
      have attached := List.find?_some found
      simp only [Bool.and_eq_true, decide_eq_true_eq, Bool.not_eq_true'] at attached
      exact Changes.reads_of_written (Table.mem_rows.mp (List.mem_of_find?_eq_some found))
        attached.2 rfl rfl
  | markRead actor channel target =>
      simp only [Request.route, markRead] at answered
      repeat' split at answered
      all_goals cases answered
      · exact Changes.reads_of_quiet rfl rfl rfl (by simp)
      · exact Changes.reads_of_marked marked_of_readUpTo
      · exact Changes.reads_of_marked marked_of_readUpTo
  | _ =>
      simp only [Request.route, register, updateMe, removeMember, offerOwnership,
        withdrawOwnershipOffer, declineOwnership, deleteChannel, toggleReaction] at answered
      repeat' split at answered
      all_goals cases answered
      all_goals exact Changes.reads_of_quiet rfl rfl rfl (by simp)

/-! What a transaction leaves of the markers. -/

theorem writtenMessages_origin {id : MessageId} {row : Message}
    (found : (writtenMessages server changes).get? id = some row) :
    ∃ source, ((id, source) ∈ changes.messages ∨ server.messages.get? id = some source) ∧
      row.channelId = source.channelId ∧ row.authorId = source.authorId ∧
      row.deleted = source.deleted := by
  unfold writtenMessages at found
  rw [Table.get?_mapRows, Option.map_eq_some_iff] at found
  obtain ⟨put, stored, rfl⟩ := found
  have same : ∀ stamp : Message, (stamp = put ∨ stamp = { put with seq := server.counter + 1 }) →
      stamp.channelId = put.channelId ∧ stamp.authorId = put.authorId ∧
        stamp.deleted = put.deleted := by
    rintro stamp (rfl | rfl) <;> exact ⟨rfl, rfl, rfl⟩
  have stamped := same (if id ∈ changes.touched then
    { put with seq := server.counter + 1 } else put) (by split <;> simp)
  rcases Table.putAll_cases server.messages (changes.messages.map fun entry =>
      (entry.1, { entry.2 with seq := server.counter + 1 })) id with
    ⟨_, kept⟩ | ⟨new, member, alsoStored⟩
  · exact ⟨put, Or.inr (kept ▸ stored), stamped⟩
  · obtain ⟨⟨_, source⟩, sent, same⟩ := List.mem_map.mp member
    cases same
    obtain rfl := Option.some.inj (alsoStored.symm.trans stored)
    exact ⟨source, Or.inl sent, stamped⟩

theorem written_origin {key : ChannelId × UserId} {row : Membership}
    (found : (written server changes).get? key = some row) :
    (∃ source, (key, source) ∈ changes.joined ∧ row.lastRead = source.lastRead) ∨
    (∃ source, (key, source) ∈ changes.memberships ∧ row.lastRead = source.lastRead) ∨
    (server.memberships.get? key = some row ∧ ∀ source, (key, source) ∉ changes.memberships) := by
  unfold written at found
  rcases Table.putAll_cases (server.memberships.putAll (changes.memberships.map fun entry =>
      (entry.1, { entry.2 with seq := server.counter + 1 })))
      (changes.joined.map fun entry => (entry.1, { entry.2 with
        seq := server.counter + 1, joinedSeq := server.counter + 1 })) key with
    ⟨_, kept⟩ | ⟨new, member, stored⟩
  · rcases Table.putAll_cases server.memberships (changes.memberships.map fun entry =>
        (entry.1, { entry.2 with seq := server.counter + 1 })) key with
      ⟨absent, same⟩ | ⟨new, member, stored⟩
    · refine Or.inr (Or.inr ⟨same ▸ kept ▸ found, fun source written => ?_⟩)
      exact absent _ (List.mem_map.mpr ⟨_, written, rfl⟩)
    · obtain ⟨⟨_, source⟩, written, same⟩ := List.mem_map.mp member
      cases same
      obtain rfl := Option.some.inj ((kept.trans stored).symm.trans found)
      exact Or.inr (Or.inl ⟨source, written, rfl⟩)
  · obtain ⟨⟨_, source⟩, joined, same⟩ := List.mem_map.mp member
    cases same
    obtain rfl := Option.some.inj (stored.symm.trans found)
    exact Or.inl ⟨source, joined, rfl⟩

/-- A message that was there and undeleted stays read by its author. -/
theorem read_of_stored (ownRead : server.OwnRead) (reads : changes.Reads server)
    {channel : ChannelId} {user : UserId} {row : Membership} {id : MessageId} {old : Message}
    (found : (written server changes).get? (channel, user) = some row)
    (stored : server.messages.get? id = some old) (here : old.channelId = channel)
    (own : old.authorId = user) (live : old.deleted = false) :
    ReadBy row.lastRead id = true := by
  rcases written_origin found with
    ⟨source, joined, same⟩ | ⟨source, marked, same⟩ | ⟨kept, _⟩
  · exact same ▸ reads.joined joined stored here live
  · obtain ⟨before, member, further⟩ := reads.marked marked
    exact same ▸ further id (ownRead member stored here own live)
  · exact ownRead kept stored here own live

theorem OwnRead.commit (ownRead : server.OwnRead) (reads : changes.Reads server) :
    (server.commit changes).OwnRead := by
  cases stamped : changes.isEmpty with
  | true =>
      rw [commit_of_isEmpty stamped]
      exact ownRead
  | false =>
      intro channel user row id message member stored here own live
      rw [commit_get?_memberships stamped] at member
      rw [commit_get?_messages stamped] at stored
      split at member
      · cases member
      · obtain ⟨source, origin, sameChannel, sameAuthor, sameLive⟩ :=
          writtenMessages_origin (Option.filter_eq_some_iff.mp stored).1
        rw [sameChannel] at here
        rw [sameAuthor] at own
        rw [sameLive] at live
        rcases origin with sent | old
        · rcases reads.sent sent with ⟨old, before, alive, channelKept, authorKept⟩ | readUp
          · exact read_of_stored ownRead reads member before (channelKept ▸ here)
              (authorKept ▸ own) alive
          · rw [here, own] at readUp
            rcases written_origin member with
              ⟨_, joined, _⟩ | ⟨entry, marked, same⟩ | ⟨kept, unmarked⟩
            · rcases reads.apart with none | none
              · rw [none] at joined
                cases joined
              · rw [none] at sent
                cases sent
            · rcases @readUpTo_cases server channel user id with
                ⟨none, _⟩ | ⟨old, _, _, one⟩
              · rw [readUp, none] at marked
                cases marked
              · rw [readUp, one, List.mem_singleton, Prod.mk.injEq] at marked
                simp [same, marked.2, ReadBy]
            · rcases @readUpTo_cases server channel user id with
                ⟨_, read⟩ | ⟨old, _, _, one⟩
              · exact read row kept
              · exact (unmarked _ (readUp ▸ one ▸ List.mem_singleton_self _)).elim
        · exact read_of_stored ownRead reads member old here own live

theorem OwnRead.handle {after : Server} (wf : server.Wf) (ownRead : server.OwnRead)
    {request : Request} (handled : server.handle request = some after) : after.OwnRead := by
  unfold Server.handle at handled
  split at handled
  · rename_i fresh
    split at handled
    · cases handled
    · rename_i changes answered
      cases handled
      exact ownRead.commit (route_reads wf fresh answered)
  · cases handled

/-- While its channel exists no message leaves the database. -/
theorem message_stays {after : Server} (wf : server.Wf) {request : Request}
    (handled : server.handle request = some after) {id : MessageId} {message : Message}
    (stored : server.messages.get? id = some message) {row : Channel}
    (here : after.channels.get? message.channelId = some row) :
    ∃ now, after.messages.get? id = some now := by
  unfold Server.handle at handled
  split at handled
  · rename_i fresh
    split at handled
    · cases handled
    · rename_i changes answered
      cases handled
      cases stamped : changes.isEmpty with
      | true => exact ⟨message, (commit_of_isEmpty stamped).symm ▸ stored⟩
      | false =>
          have valid := route_valid wf fresh answered
          rw [commit_get?_channels stamped] at here
          split at here
          · cases here
          · rename_i alive
            rw [commit_get?_messages stamped]
            rcases writtenMessages_cases valid id with
              same | ⟨old, new, before, found, _, channel, _⟩ | ⟨_, _, _, absent, _⟩
            · exact ⟨message, by simp [same, stored, alive]⟩
            · obtain rfl := Option.some.inj (before.symm.trans stored)
              exact ⟨new, by simp [found, channel, alive]⟩
            · cases absent.symm.trans stored
  · cases handled

/-- A channel that was not there is under an id never drawn before. -/
theorem channel_fresh {after : Server} (wf : server.Wf) {request : Request}
    (handled : server.handle request = some after) {channel : ChannelId} {row : Channel}
    (absent : server.channels.get? channel = none)
    (found : after.channels.get? channel = some row) : channel ∉ server.channelIds := by
  unfold Server.handle at handled
  split at handled
  · rename_i fresh
    split at handled
    · cases handled
    · rename_i changes answered
      cases handled
      cases stamped : changes.isEmpty with
      | true =>
          rw [commit_of_isEmpty stamped, absent] at found
          cases found
      | false =>
          obtain ⟨sent, member⟩ := commit_channel_new stamped absent found
          exact (route_reads wf fresh answered).created member absent
  · cases handled

end

end Server

end Brook
