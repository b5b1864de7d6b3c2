import Brook.History.Held
import Brook.Unread.Tracked

namespace Brook

universe u v w

namespace Table

variable {Key : Type u} {Row : Type v} {Other : Type w} [DecidableEq Key]

/-- Two tables have as many rows of a kind when the keys of these are the same. -/
theorem length_filter_eq {table : Table Key Row} {other : Table Key Other}
    {kind : Key × Row → Bool} {otherKind : Key × Other → Bool}
    (same : ∀ key, (∃ row, table.get? key = some row ∧ kind (key, row) = true) ↔
      ∃ row, other.get? key = some row ∧ otherKind (key, row) = true) :
    (table.rows.filter kind).length = (other.rows.filter otherKind).length := by
  have keys : ((table.rows.filter kind).map Prod.fst).Perm
      ((other.rows.filter otherKind).map Prod.fst) := by
    refine (List.perm_ext_iff_of_nodup ?_ ?_).mpr fun key => ?_
    · exact (List.filter_sublist.map Prod.fst).nodup table.keysNodup
    · exact (List.filter_sublist.map Prod.fst).nodup other.keysNodup
    · simpa only [List.mem_map, List.mem_filter, Prod.exists, exists_and_right,
        exists_eq_right, mem_rows] using same key
  simpa only [List.length_map] using keys.length_eq

end Table

namespace Server

variable {server : Server} {user : UserId} {channel : ChannelId} {row : Membership}

theorem countOf_eq {counts : List (ChannelId × Nat)} {count : Nat}
    (once : (counts.map Prod.fst).Nodup) (member : (channel, count) ∈ counts) :
    countOf counts channel = count := by
  induction counts with
  | nil => cases member
  | cons entry rest ih =>
      rw [List.map_cons, List.nodup_cons] at once
      rcases List.mem_cons.mp member with rfl | later
      · simp [countOf]
      · have other : channel ≠ entry.1 := by
          rintro rfl
          exact once.1 (List.mem_map.mpr ⟨_, later, rfl⟩)
        have skip : (channel == entry.1) = false := by simpa using other
        rw [← ih once.2 later, countOf, countOf, List.lookup_cons, skip]

/-- A count of 0 may as well be left out. -/
theorem countOf_filter {counts : List (ChannelId × Nat)} {count : Nat}
    (once : (counts.map Prod.fst).Nodup) (member : (channel, count) ∈ counts) :
    countOf (counts.filter fun entry => entry.2 ≠ 0) channel = count := by
  by_cases nothing : count = 0
  · subst nothing
    have absent : (counts.filter fun entry => entry.2 ≠ 0).lookup channel = none := by
      rw [List.lookup_eq_none_iff]
      rintro ⟨other, number⟩ kept
      obtain ⟨listed, some⟩ := List.mem_filter.mp kept
      rw [bne_iff_ne]
      rintro rfl
      have first := countOf_eq once member
      rw [countOf_eq once listed] at first
      simp [first] at some
    rw [countOf, absent, Option.getD_none]
  · exact countOf_eq ((List.filter_sublist.map Prod.fst).nodup once)
      (List.mem_filter.mpr ⟨member, by simpa using nothing⟩)

theorem mem_membershipsOf : (channel, row) ∈ server.membershipsOf user ↔
    server.memberships.get? (channel, user) = some row := by
  simp only [membershipsOf, List.mem_map, List.mem_filter, decide_eq_true_eq, Prod.mk.injEq,
    Prod.exists, Table.mem_rows]
  constructor
  · rintro ⟨_, _, _, ⟨stored, rfl⟩, rfl, rfl⟩
    exact stored
  · intro stored
    exact ⟨channel, user, row, ⟨stored, rfl⟩, rfl, rfl⟩

theorem membershipsOf_once (count : ChannelId × Membership → Nat) :
    (((server.membershipsOf user).map fun entry => (entry.1, count entry)).map
      Prod.fst).Nodup := by
  have keys := (List.filter_sublist (p := fun entry : (ChannelId × UserId) × Membership =>
    decide (entry.1.2 = user)) (l := server.memberships.rows)).map Prod.fst |>.nodup
      server.memberships.keysNodup
  rw [List.map_map, membershipsOf, List.map_map]
  refine List.Nodup.map_on ?_ (List.Nodup.of_map _ keys)
  rintro ⟨⟨first, one⟩, row⟩ member ⟨⟨second, two⟩, other⟩ alsoMember same
  obtain ⟨stored, rfl⟩ : _ ∧ one = user := by simpa using List.mem_filter.mp member
  obtain ⟨alsoStored, rfl⟩ : _ ∧ two = one := by simpa using List.mem_filter.mp alsoMember
  obtain rfl : first = second := same
  have rows := (Table.mem_rows.mp stored).symm.trans (Table.mem_rows.mp alsoStored)
  rw [Option.some.inj rows]

theorem countOf_unreadCounts (stored : server.memberships.get? (channel, user) = some row) :
    countOf (server.unreadCounts user) channel =
      (server.messages.rows.filter (isUnread channel row.lastRead)).length :=
  countOf_eq (membershipsOf_once _)
    (List.mem_map.mpr ⟨(channel, row), mem_membershipsOf.mpr stored, rfl⟩)

theorem countOf_unreadMentions
    (stored : server.memberships.get? (channel, user) = some row) :
    countOf (server.unreadMentions user) channel =
      (server.messages.rows.filter fun message =>
        isUnread channel row.lastRead message && mentionsUser user message).length :=
  countOf_filter (membershipsOf_once _)
    (List.mem_map.mpr ⟨(channel, row), mem_membershipsOf.mpr stored, rfl⟩)

end Server

/-- What the cache has of the channel is as new as the server has it, and it has every
message above the caller's marker, but for the deleted ones. -/
structure Cache.UpToDate (me : UserId) (channel : ChannelId) (server : Server)
    (cache : Cache) : Prop where
  present : ∀ {row}, server.channels.get? channel = some row →
    ∃ kept, cache.channels.get? channel = some kept ∧ row.seq ≤ kept.seq
  own : ∀ {row}, server.memberships.get? (channel, me) = some row →
    ∃ kept, cache.memberships.get? (channel, me) = some kept ∧ row.seq ≤ kept.seq
  messages : ∀ {id message kept}, server.Has channel id message →
    cache.messages.get? id = some kept → message.seq ≤ kept.seq
  above : ∀ {row id message}, server.memberships.get? (channel, me) = some row →
    server.Has channel id message → message.deleted = false →
    row.lastRead.all (· < id) = true → ∃ kept, cache.messages.get? id = some kept

namespace Cache

variable {me : UserId} {channel : ChannelId} {server : Server} {cache : Cache}

theorem upToDate_iff : cache.UpToDate me channel server ↔
    (∀ row ∈ server.channels.get? channel,
      ∃ kept ∈ cache.channels.get? channel, row.seq ≤ kept.seq) ∧
    (∀ row ∈ server.memberships.get? (channel, me),
      (∃ kept ∈ cache.memberships.get? (channel, me), row.seq ≤ kept.seq) ∧
      ∀ entry ∈ server.messages.rows, entry.2.channelId = channel →
        entry.2.deleted = false → row.lastRead.all (· < entry.1) = true →
        (cache.messages.get? entry.1).isSome = true) ∧
    ∀ entry ∈ server.messages.rows, entry.2.channelId = channel →
      ∀ kept ∈ cache.messages.get? entry.1, entry.2.seq ≤ kept.seq := by
  constructor
  · intro upToDate
    refine ⟨fun row stored => upToDate.present stored, fun row stored =>
      ⟨upToDate.own stored, fun entry member here live above => ?_⟩,
      fun entry member here kept found =>
        upToDate.messages ⟨Table.mem_rows.mp member, here⟩ found⟩
    exact Option.isSome_iff_exists.mpr
      (upToDate.above stored ⟨Table.mem_rows.mp member, here⟩ live above)
  · rintro ⟨present, own, messages⟩
    refine ⟨fun {row} stored => present row stored, fun {row} stored => (own row stored).1,
      fun {id message kept} has found =>
        messages (id, message) (Table.mem_rows.mpr has.1) has.2 kept found,
      fun {row id message} stored has live above => ?_⟩
    exact Option.isSome_iff_exists.mp
      ((own row stored).2 (id, message) (Table.mem_rows.mpr has.1) has.2 live above)

instance : Decidable (cache.UpToDate me channel server) :=
  decidable_of_iff _ upToDate_iff.symm

end Cache

namespace HistorySystem

variable {me : UserId} {system : HistorySystem} {channel : ChannelId} {row : Membership}
  {id : MessageId} {kept : CachedMessage} {message : Message}

/-- The cached membership has the marker that the server has. -/
theorem Tracked.own_marker (tracked : system.Tracked me)
    (upToDate : system.cache.UpToDate me channel system.server)
    (stored : system.server.memberships.get? (channel, me) = some row) :
    ∃ kept, system.cache.memberships.get? (channel, me) = some kept ∧ kept.left = false ∧
      kept.json.bind (·.lastRead) = row.lastRead := by
  obtain ⟨kept, found, level⟩ := upToDate.own stored
  obtain ⟨present, state, member, old, before, seq, marker⟩ := tracked.shown.own found
  have counted := ((tracked.recorded.wf member).membershipSeq before).2
  have known : row.seq ≤ state.counter := by omega
  have same := (tracked.recorded.retains member).membership stored known
  obtain rfl := Option.some.inj (before.symm.trans same)
  exact ⟨kept, found, present, marker⟩

/-- A cached message of a channel that exists is the server's. -/
theorem Tracked.server_message (tracked : system.Tracked me)
    (upToDate : system.cache.UpToDate me channel system.server)
    (stored : system.server.memberships.get? (channel, me) = some row)
    (found : system.cache.messages.get? id = some kept) (here : kept.channelId = channel) :
    ∃ message, system.server.Has channel id message ∧ kept.Shows message := by
  have wf := tracked.recorded.wf tracked.recorded.current
  obtain ⟨state, member, old, before, showed⟩ := tracked.shown.messages id kept found
  have retains := tracked.recorded.retains member
  have place : old.channelId = channel := showed.channel.symm.trans here
  obtain ⟨channelRow, alive, _⟩ := wf.memberChannel stored
  obtain ⟨now, current⟩ := retains.message before (place ▸ alive)
  have sameChannel : now.channelId = channel :=
    (retains.since.channel before current).trans place
  have level := upToDate.messages ⟨current, sameChannel⟩ found
  have counted := (tracked.recorded.wf member).messageSeq before
  have seq := showed.seq
  have known : now.seq ≤ state.counter := by omega
  obtain rfl := Option.some.inj (before.symm.trans (retains.since.unchanged current known))
  exact ⟨old, ⟨current, sameChannel⟩, showed⟩

/-- A message of the server that the cache has is cached under its channel. -/
theorem Tracked.cached_message (tracked : system.Tracked me)
    (upToDate : system.cache.UpToDate me channel system.server)
    (has : system.server.Has channel id message)
    (found : system.cache.messages.get? id = some kept) : kept.Shows message := by
  obtain ⟨state, member, old, before, showed⟩ := tracked.shown.messages id kept found
  have retains := tracked.recorded.retains member
  have level := upToDate.messages has found
  have counted := (tracked.recorded.wf member).messageSeq before
  have seq := showed.seq
  have known : message.seq ≤ state.counter := by omega
  obtain rfl := Option.some.inj (before.symm.trans (retains.since.unchanged has.1 known))
  exact showed

/-- What is unread in the cache is unread on the server, with the same mentions. -/
theorem Tracked.unread_iff (tracked : system.Tracked me)
    (upToDate : system.cache.UpToDate me channel system.server)
    (stored : system.server.memberships.get? (channel, me) = some row) (id : MessageId)
    (mention : Bool) :
    (∃ kept, system.cache.messages.get? id = some kept ∧
      (Cache.isUnread me channel row.lastRead (id, kept) &&
        (!mention || Cache.mentionsUser me (id, kept))) = true) ↔
    ∃ message, system.server.messages.get? id = some message ∧
      (Server.isUnread channel row.lastRead (id, message) &&
        (!mention || Server.mentionsUser me (id, message))) = true := by
  simp only [Cache.isUnread, Server.isUnread, Cache.mentionsUser, Server.mentionsUser,
    Bool.and_eq_true, Bool.or_eq_true, decide_eq_true_eq, Bool.not_eq_true', ne_eq]
  constructor
  · rintro ⟨kept, found, ⟨⟨⟨here, above⟩, other⟩, present⟩, mentions⟩
    obtain ⟨message, ⟨current, place⟩, showed⟩ :=
      tracked.server_message upToDate stored found here
    have live : message.deleted = false := showed.deleted ▸ present
    obtain ⟨author, everyone, users⟩ := showed.live live
    refine ⟨message, current, ⟨⟨place, live⟩, above⟩, mentions.imp_right fun named => ?_⟩
    rw [author, Option.some.injEq] at other
    exact ⟨other, everyone ▸ users ▸ named⟩
  · rintro ⟨message, current, ⟨⟨place, live⟩, above⟩, mentions⟩
    obtain ⟨kept, found⟩ := upToDate.above stored ⟨current, place⟩ live above
    have showed := tracked.cached_message upToDate ⟨current, place⟩ found
    obtain ⟨author, everyone, users⟩ := showed.live live
    have other : ¬ message.authorId = me := by
      intro own
      have read := tracked.ownRead stored current place own live
      rw [← Server.not_all_lt_iff, above] at read
      cases read
    refine ⟨kept, found, ⟨⟨⟨showed.channel.trans place, above⟩, ?_⟩,
      showed.deleted.trans live⟩, mentions.imp_right fun named => ?_⟩
    · rw [author, Option.some.injEq]
      exact other
    · exact everyone.symm ▸ users.symm ▸ named.2

theorem mem_cachedChannels {cache : Cache} {listing : Listing} :
    listing ∈ cache.cachedChannels me ↔ ∃ channel row,
      cache.channels.get? channel = some row ∧
        cache.listing me (channel, row) = some listing := by
  simp only [Cache.cachedChannels, List.mem_filterMap, List.mem_insertionSort, Prod.exists,
    Table.mem_rows]

/-- The listing of a channel that the cache is up to date in. -/
theorem Tracked.listing_eq (tracked : system.Tracked me)
    (upToDate : system.cache.UpToDate me channel system.server)
    (stored : system.server.memberships.get? (channel, me) = some row)
    (shown : CachedChannel) :
    ∃ listing, system.cache.listing me (channel, shown) = some listing ∧
      listing.channel = channel ∧
      listing.unread = Server.countOf (system.server.unreadCounts me) channel ∧
      listing.unreadMentions = Server.countOf (system.server.unreadMentions me) channel := by
  obtain ⟨own, found, present, marker⟩ := tracked.own_marker upToDate stored
  refine ⟨_, by rw [Cache.listing, found, Option.filter_some, if_pos (by simp [present]),
    Option.map_some], rfl, ?_, ?_⟩
  · dsimp only
    rw [marker, Server.countOf_unreadCounts stored]
    exact Table.length_filter_eq fun id => by
      simpa using tracked.unread_iff upToDate stored id false
  · dsimp only
    rw [marker, Server.countOf_unreadMentions stored, List.filter_filter]
    refine Table.length_filter_eq fun id => ?_
    simpa [and_comm] using tracked.unread_iff upToDate stored id true

/-- In every run the two counts of a channel agree once the cache is up to date in it. -/
theorem unread_agrees {actions : List HistoryAction}
    (reached : Transition.run (step me) (start Server.init) actions = some system)
    (member : system.server.isMember channel me = true)
    (upToDate : system.cache.UpToDate me channel system.server) :
    (∃ listing ∈ system.cache.cachedChannels me, listing.channel = channel) ∧
    ∀ listing ∈ system.cache.cachedChannels me, listing.channel = channel →
      listing.unread = Server.countOf (system.server.unreadCounts me) channel ∧
      listing.unreadMentions = Server.countOf (system.server.unreadMentions me) channel := by
  have tracked := tracked_run reached
  have wf := tracked.recorded.wf tracked.recorded.current
  obtain ⟨row, stored⟩ := Server.isMember_iff.mp member
  obtain ⟨channelRow, alive, _⟩ := wf.memberChannel stored
  obtain ⟨shown, present, _⟩ := upToDate.present alive
  constructor
  · obtain ⟨listing, listed, same, _⟩ := tracked.listing_eq upToDate stored shown
    exact ⟨listing, mem_cachedChannels.mpr ⟨channel, shown, present, listed⟩, same⟩
  · intro listing listed here
    obtain ⟨other, otherShown, _, given⟩ := mem_cachedChannels.mp listed
    obtain ⟨my, _, same⟩ := Option.map_eq_some_iff.mp given
    obtain rfl : other = channel := by rw [← here, ← same]
    obtain ⟨expected, alsoGiven, _, unread, mentions⟩ :=
      tracked.listing_eq upToDate stored otherShown
    obtain rfl := Option.some.inj (given.symm.trans alsoGiven)
    exact ⟨unread, mentions⟩

/-- Two users write to a channel, and the second one's cache hears of it. -/
def badgeRun : List HistoryAction :=
  [.serve (.register none 0 "ann".toList []),
    .serve (.register (some 0) 1 "bob".toList []),
    .serve (.createChannel 0 10 "tea".toList none false),
    .serve (.addMember 0 10 "bob".toList),
    .ask 500, .commit,
    .serve (.sendMessage 0 10 100 7 "one @bob".toList none none [] ["bob".toList]),
    .serve (.sendMessage 1 10 101 8 "two".toList none none []),
    .serve (.sendMessage 0 10 102 9 "three".toList none none []),
    .serve (.sendMessage 0 10 103 9 "four @here".toList none none [] ["here".toList]),
    .serve (.editMessage 0 10 103 "four".toList),
    .ask 500, .commit]

theorem unread_agrees_badge : ∃ system,
    Transition.run (step 1) (start Server.init) badgeRun = some system ∧
    (∃ listing ∈ system.cache.cachedChannels 1, listing.channel = 10) ∧
    ∀ listing ∈ system.cache.cachedChannels 1, listing.channel = 10 →
      listing.unread = Server.countOf (system.server.unreadCounts 1) 10 ∧
      listing.unreadMentions = Server.countOf (system.server.unreadMentions 1) 10 := by
  have heard : (Transition.run (step 1) (start Server.init) badgeRun).any (fun system =>
      system.server.isMember 10 1 ∧ system.cache.UpToDate 1 10 system.server) = true := by
    decide +kernel
  rw [Option.any_eq_true] at heard
  obtain ⟨system, reached, both⟩ := heard
  obtain ⟨member, upToDate⟩ := of_decide_eq_true both
  exact ⟨system, reached, unread_agrees reached member upToDate⟩

example : (Transition.run (step 1) (start Server.init) badgeRun).map (fun system =>
    (system.cache.cachedChannels 1).map fun listing => (listing.unread, listing.unreadMentions)) =
    some [(2, 1)] := by decide +kernel

end HistorySystem

end Brook
