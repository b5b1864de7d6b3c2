import Brook.Server.Model

namespace Brook

namespace Server

/-- What one transaction leaves in its session for `_stamp`: rows new or
modified, memberships added or deleted, and what re-stamps another row. -/
structure Changes where
  users : List (UserId × User) := []
  channels : List (ChannelId × Channel) := []
  deadChannels : List ChannelId := []
  joined : List ((ChannelId × UserId) × Membership) := []
  memberships : List ((ChannelId × UserId) × Membership) := []
  ended : List (ChannelId × UserId) := []
  newOffers : List ((ChannelId × UserId) × UserId) := []
  deadOffers : List (ChannelId × UserId) := []
  messages : List (MessageId × Message) := []
  /-- Messages of the transaction's reactions and deleted files. -/
  touched : List MessageId := []

namespace Changes

def isEmpty (changes : Changes) : Bool :=
  changes.users.isEmpty && changes.channels.isEmpty &&
    changes.deadChannels.isEmpty && changes.joined.isEmpty &&
    changes.memberships.isEmpty && changes.ended.isEmpty &&
    changes.newOffers.isEmpty && changes.deadOffers.isEmpty &&
    changes.messages.isEmpty && changes.touched.isEmpty

/-- Modified memberships whose role differs from the stored one. -/
def roles (server : Server) (changes : Changes) : List ChannelId :=
  (changes.memberships.filter fun entry =>
    (server.memberships.get? entry.1).any (·.role ≠ entry.2.role)).map
      fun entry => entry.1.1

/-- The channels whose member list, roles or offers changed. -/
def memberChanges (server : Server) (changes : Changes) : List ChannelId :=
  changes.joined.map (·.1.1) ++ changes.ended.map (·.1) ++
    changes.newOffers.map (·.1.1) ++ changes.deadOffers.map (·.1) ++
    changes.roles server

end Changes

/-- `_stamp` and the commit: every changed row takes the transaction's number,
ended memberships leave tombstones, and a deleted channel takes its rows with
it. -/
def commit (server : Server) (changes : Changes) : Server :=
  if changes.isEmpty then
    server
  else
    let seq := server.counter + 1
    let memberChanges := changes.memberChanges server
    { counter := seq
      floor := server.floor
      users := server.users.putAll
        (changes.users.map fun entry => (entry.1, { entry.2 with seq := seq }))
      channels :=
        ((server.channels.putAll
          (changes.channels.map fun entry =>
            (entry.1, { entry.2 with seq := seq }))).mapRows
          fun channel row =>
            if channel ∈ memberChanges then { row with seq := seq } else row).filter
          fun channel _ => channel ∉ changes.deadChannels
      memberships :=
        ((server.memberships.putAll
          (changes.memberships.map fun entry =>
            (entry.1, { entry.2 with seq := seq }))).putAll
          (changes.joined.map fun entry =>
            (entry.1, { entry.2 with seq := seq, joinedSeq := seq }))).filter
          fun key _ =>
            key ∉ changes.ended && key.1 ∉ changes.deadChannels
      offers :=
        (server.offers.filter fun key _ =>
          key ∉ changes.deadOffers && key.1 ∉ changes.deadChannels).putAll
          changes.newOffers
      messages :=
        ((server.messages.putAll
          (changes.messages.map fun entry =>
            (entry.1, { entry.2 with seq := seq }))).mapRows
          fun id row =>
            if id ∈ changes.touched then { row with seq := seq } else row).filter
          fun _ row => row.channelId ∉ changes.deadChannels
      tombstones :=
        server.tombstones ++
          changes.ended.map (fun key => ⟨key.1, key.2, seq⟩) ++
          changes.deadChannels.flatMap fun channel =>
            (server.members channel).map fun user => ⟨channel, user, seq⟩
      channelIds := changes.channels.map Prod.fst ++ server.channelIds
      messageIds := changes.messages.map Prod.fst ++ server.messageIds }

/-- What the routes promise about the session they commit. -/
structure Changes.Valid (changes : Changes) (server : Server) : Prop where
  joined_new : ∀ {key row}, (key, row) ∈ changes.joined →
    server.memberships.get? key = none
  joined_channel : ∀ {key row}, (key, row) ∈ changes.joined →
    (∃ channel, server.channels.get? key.1 = some channel) ∨
      ∃ channel, (key.1, channel) ∈ changes.channels
  joined_user : ∀ {key row}, (key, row) ∈ changes.joined →
    ∃ user, server.users.get? key.2 = some user
  modified : ∀ {key row}, (key, row) ∈ changes.memberships →
    ∃ old, server.memberships.get? key = some old ∧
      row.joinedSeq = old.joinedSeq
  ended_stored : ∀ {key}, key ∈ changes.ended →
    ∃ old, server.memberships.get? key = some old
  message_kept : ∀ {id row old}, (id, row) ∈ changes.messages →
    server.messages.get? id = some old →
      old.channelId = row.channelId ∧ old.deleted = false
  message_new : ∀ {id row}, (id, row) ∈ changes.messages →
    server.messages.get? id = none →
      id ∉ server.messageIds ∧
        ∃ channel, server.channels.get? row.channelId = some channel
  touched_live : ∀ {id old}, id ∈ changes.touched →
    server.messages.get? id = some old → old.deleted = false

end Server

end Brook
