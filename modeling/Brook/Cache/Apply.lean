import Brook.Sync.Page
import Brook.Table.Versioned

namespace Brook

structure CachedChannel where
  seq : Int
  json : ChannelJson

/-- A departure (`left`) is a row too. -/
structure CachedMembership where
  seq : Int
  left : Bool
  json : Option MembershipJson

structure CachedUser where
  seq : Int
  json : Profile

structure CachedMessage where
  channelId : ChannelId
  seq : Int
  createdAt : Option Nat
  json : MessageJson
deriving DecidableEq

/-- A removal: a fence while active, a floor ever after. -/
structure Removal where
  seq : Int
  active : Bool

/-- The covered range of a channel's history; both ids are absent for a channel
covered and empty. -/
structure Range where
  newestId : Option MessageId
  oldestId : Option MessageId
  completeToStart : Bool

/-- The synced tables of a client's cache and its `meta` row. -/
structure Cache where
  cursor : Int
  generation : Nat
  channels : Table ChannelId CachedChannel
  removed : Table ChannelId Removal
  memberships : Table (ChannelId × UserId) CachedMembership
  users : Table UserId CachedUser
  messages : Table MessageId CachedMessage
  coverage : Table ChannelId Range

/-- Rows from one source, applied together. -/
structure Batch where
  channels : List ChannelRow := []
  memberships : List MemberRow := []
  users : List UserRow := []
  messages : List MessageRow := []
  removed : List (ChannelId × Int) := []
  left : List (ChannelId × UserId × Int) := []
  history : Bool := false
  historyFloors : List (ChannelId × Option Int) := []
  tombstones : List (MessageId × ChannelId × Int) := []

/-- `excluded.seq > seq`. -/
def newerChannel : ConflictClause CachedChannel where
  wins new old := old.seq < new.seq
  merged new _ := new

def newerMembership : ConflictClause CachedMembership where
  wins new old := old.seq < new.seq
  merged new _ := new

/-- `UPDATE ... SET left = 1, seq`, or the insert of a bare departure. -/
def newerDeparture : ConflictClause CachedMembership where
  wins new old := old.seq < new.seq
  merged new old := { old with left := true, seq := new.seq }

def newerUser : ConflictClause CachedUser where
  wins new old := old.seq < new.seq
  merged new _ := new

/-- A row from a live delete gives way to the server's own row. -/
def newerMessage : ConflictClause CachedMessage where
  wins new old :=
    old.seq < new.seq || (new.seq = old.seq && old.json.isPartial)
  merged new old := { new with channelId := old.channelId }

namespace CachedMessage

def isDeleted (message : CachedMessage) : Bool :=
  message.json.deleted || message.json.deletedAt

def ofRow (row : MessageRow) : CachedMessage where
  channelId := row.channelId
  seq := row.seq
  createdAt := row.createdAt
  json := row.json

end CachedMessage

abbrev MessageTable := Table MessageId CachedMessage

namespace MessageTable

/-- The excerpt of a deleted message. -/
def deletedExcerpt : ReplyExcerpt where
  body := Server.deletedText
  deleted := true
  attachments := 0

/-- Set the excerpt of the replies quoting the target: to the first characters
of its new text, or as deleted. -/
def refreshExcerpts (messages : MessageTable) (target : MessageId)
    (body : Option Text) : MessageTable :=
  messages.mapRows fun _ row =>
    if row.json.replyToId = some target then
      { row with json := { row.json with
        replyTo := row.json.replyTo.map fun quote =>
          match body with
          | some text =>
              { quote with body := text.take Server.replyExcerptLen }
          | none => deletedExcerpt } }
    else
      row

/-- A reply landing after its target was deleted quotes it as deleted. -/
def settleExcerpt (messages : MessageTable) (id : MessageId) :
    MessageTable :=
  messages.mapRows fun key row =>
    if key = id && (row.json.replyToId.bind messages.get?).any
        CachedMessage.isDeleted then
      { row with json := { row.json with
        replyTo := row.json.replyTo.map fun _ => deletedExcerpt } }
    else
      row

/-- Store a row that may land, and let the quotes follow it. -/
def store (messages : MessageTable) (history : Bool) (row : MessageRow) :
    MessageTable :=
  let incoming := CachedMessage.ofRow row
  if messages.upserts newerMessage row.id incoming then
    let stored := messages.upsert newerMessage row.id incoming
    let quoted :=
      if row.json.deletedAt then
        refreshExcerpts stored row.id none
      else if history then
        stored
      else
        refreshExcerpts stored row.id (some row.json.body)
    settleExcerpt quoted row.id
  else
    messages

/-- A live delete: the stored row loses its content; an unknown one becomes a
tombstone, so that an older version cannot bring it back. -/
def bury (messages : MessageTable) (id : MessageId) (channel : ChannelId)
    (seq : Int) : MessageTable :=
  let patched := match messages.get? id with
    | some old =>
        if old.seq < seq then
          messages.put id { old with
            seq := seq
            json := { old.json with
              body := [], deleted := true, isPartial := true
              replyTo := none, attachments := [] } }
        else
          messages
    | none =>
        messages.put id {
          channelId := channel
          seq := seq
          createdAt := none
          json := {
            authorId := none, body := [], deletedAt := false
            deleted := true, isPartial := true, replyToId := none
            replyTo := none, attachments := [], clientId := none } }
  refreshExcerpts patched id none

end MessageTable

namespace Cache

def empty : Cache where
  cursor := 0
  generation := 0
  channels := ∅
  removed := ∅
  memberships := ∅
  users := ∅
  messages := ∅
  coverage := ∅

/-- The active removal fence: the caller is out of this channel. -/
def fenceOf (cache : Cache) (channel : ChannelId) : Option Int :=
  ((cache.removed.get? channel).filter (·.active)).map (·.seq)

/-- The last removal, active or not. -/
def floorOf (cache : Cache) (channel : ChannelId) : Option Int :=
  (cache.removed.get? channel).map (·.seq)

def fencedAtOrAbove (cache : Cache) (channel : ChannelId) (seq : Int) :
    Bool :=
  (cache.fenceOf channel).any (seq ≤ ·)

def channelPresent (cache : Cache) (channel : ChannelId) : Bool :=
  cache.channels.contains channel

def messageMayLand (cache : Cache) (channel : ChannelId) (seq : Int)
    (history : Bool) : Bool :=
  if !cache.channelPresent channel || cache.fencedAtOrAbove channel seq then
    false
  else
    history || !(cache.floorOf channel).any (seq ≤ ·)

def memberEntry (row : MemberRow) :
    (ChannelId × UserId) × CachedMembership :=
  ((row.channelId, row.userId), ⟨row.seq, false, some row.json⟩)

/-- 1. The caller's own membership; above a fence it lifts it. -/
def applyOwn (cache : Cache) (row : MemberRow) : Cache :=
  let entry := memberEntry row
  if cache.fencedAtOrAbove row.channelId row.seq then
    cache
  else if cache.memberships.upserts newerMembership entry.1 entry.2 then
    { cache with
      memberships := cache.memberships.upsert newerMembership entry.1 entry.2
      removed := cache.removed.mapRows fun channel removal =>
        if channel = row.channelId then
          { removal with active := false }
        else
          removal }
  else
    cache

def removeChannelRows (cache : Cache) (channel : ChannelId) : Cache :=
  { cache with
    messages := cache.messages.filter fun _ row => row.channelId ≠ channel
    memberships := cache.memberships.filter fun key _ => key.1 ≠ channel
    coverage := cache.coverage.filter fun key _ => key ≠ channel
    channels := cache.channels.filter fun key _ => key ≠ channel }

/-- The caller's own stored membership, unless it ended. -/
def ownSeq (cache : Cache) (me : UserId) (channel : ChannelId) :
    Option Int :=
  ((cache.memberships.get? (channel, me)).filter (!·.left)).map (·.seq)

/-- 2. A removal, only above the caller's own membership. -/
def applyRemoval (me : UserId) (cache : Cache) (removal : ChannelId × Int) :
    Cache :=
  if (cache.ownSeq me removal.1).any (removal.2 ≤ ·) then
    cache
  else if (cache.floorOf removal.1).any (removal.2 ≤ ·) then
    cache
  else
    removeChannelRows
      { cache with
        removed := cache.removed.put removal.1 ⟨removal.2, true⟩ }
      removal.1

def applyChannel (cache : Cache) (row : ChannelRow) : Cache :=
  if cache.fencedAtOrAbove row.id row.seq then
    cache
  else
    { cache with
      channels := cache.channels.upsert newerChannel row.id
        ⟨row.seq, row.json⟩ }

def applyMembership (cache : Cache) (row : MemberRow) : Cache :=
  if cache.fencedAtOrAbove row.channelId row.seq then
    cache
  else
    { cache with
      memberships := cache.memberships.upsert newerMembership
        (memberEntry row).1 (memberEntry row).2 }

def applyLeft (cache : Cache) (left : ChannelId × UserId × Int) : Cache :=
  { cache with
    memberships := cache.memberships.upsert newerDeparture
      (left.1, left.2.1) ⟨left.2.2, true, none⟩ }

def applyUser (cache : Cache) (row : UserRow) : Cache :=
  { cache with
    users := cache.users.upsert newerUser row.id ⟨row.seq, row.json⟩ }

/-- A removal happened since the history page was asked for. -/
def staleHistory (batch : Batch) (cache : Cache) (channel : ChannelId) :
    Bool :=
  batch.history &&
    (batch.historyFloors.lookup channel).join ≠ cache.floorOf channel

/-- 4. A message; a history page asked for before a removal is dropped. -/
def applyMessage (batch : Batch) (cache : Cache) (row : MessageRow) :
    Cache :=
  if staleHistory batch cache row.channelId then
    cache
  else if cache.messageMayLand row.channelId row.seq batch.history then
    { cache with messages := MessageTable.store cache.messages batch.history row }
  else
    cache

def applyTombstone (cache : Cache)
    (tombstone : MessageId × ChannelId × Int) : Cache :=
  if cache.messageMayLand tombstone.2.1 tombstone.2.2 false then
    { cache with
      messages := MessageTable.bury cache.messages tombstone.1 tombstone.2.1
        tombstone.2.2 }
  else
    cache

/-- Apply a batch for the signed-in user. -/
def apply (me : UserId) (cache : Cache) (batch : Batch) : Cache :=
  let cache := (batch.memberships.filter (·.userId = me)).foldl applyOwn cache
  let cache := batch.removed.foldl (applyRemoval me) cache
  let cache := batch.channels.foldl applyChannel cache
  let cache :=
    (batch.memberships.filter (·.userId ≠ me)).foldl applyMembership cache
  let cache := batch.left.foldl applyLeft cache
  let cache := batch.users.foldl applyUser cache
  let cache := batch.messages.foldl (applyMessage batch) cache
  batch.tombstones.foldl applyTombstone cache

end Cache

end Brook
