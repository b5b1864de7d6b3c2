import Brook.Cache.Apply
import Brook.Table.Newest

namespace Brook

namespace Cache

/-! History coverage: per channel, the contiguous range of messages held. -/

/-- The range after the newest page was merged over the range held before. -/
def headRange (held : Option Range) (newest oldest : MessageId)
    (complete : Bool) : Range :=
  let kept : MessageId × Bool := match held with
    | some ⟨some heldNewest, some heldOldest, heldComplete⟩ =>
        if oldest ≤ heldNewest ∧ heldOldest ≤ newest then
          (min heldOldest oldest, heldComplete || complete)
        else
          (oldest, complete)
    | _ => (oldest, complete)
  { newestId := some (max ((held.bind (·.newestId)).getD newest) newest)
    oldestId := some kept.1
    completeToStart := kept.2 }

/-- The newest page was fetched and merged: it defines the range. -/
def recordHead (cache : Cache) (channel : ChannelId) (ids : List MessageId)
    (limit : Nat) : Cache :=
  let held := cache.coverage.get? channel
  match ids.max?, ids.min? with
  | some newest, some oldest =>
      -- A head page wholly older than the held range is a delayed one.
      if (held.bind (·.oldestId)).any (newest < ·) then
        cache
      else
        { cache with
          coverage := cache.coverage.put channel
            (headRange held newest oldest (ids.length < limit)) }
  | _, _ =>
      match held with
      | none =>
          { cache with
            coverage := cache.coverage.put channel ⟨none, none, true⟩ }
      | some range =>
          if range.newestId = none then
            { cache with
              coverage := cache.coverage.put channel
                { range with completeToStart := true } }
          else
            cache

/-- An older page was merged: it extends the range only from its bottom. -/
def recordOlder (cache : Cache) (channel : ChannelId) (before : MessageId)
    (ids : List MessageId) (limit : Nat) : Cache :=
  match cache.coverage.get? channel with
  | none => cache
  | some range =>
      if range.oldestId = some before then
        { cache with
          coverage := cache.coverage.put channel
            { range with
              oldestId := ids.min?.orElse fun _ => range.oldestId
              completeToStart :=
                range.completeToStart || ids.length < limit } }
      else
        cache

/-- The channel's messages that a snapshot at the cursor accounts for. -/
def settledIds (cache : Cache) (channel : ChannelId) (cursor : Int) :
    List MessageId :=
  (cache.messages.rows.filter fun entry =>
    entry.2.channelId = channel && 0 < entry.2.seq &&
      entry.2.seq ≤ cursor).map Prod.fst

/-- A run caught up: each covered range reaches its newest settled message. -/
def settleTops (cache : Cache) (cursor : Int) : Cache :=
  { cache with
    coverage := cache.coverage.mapRows fun channel range =>
      match (cache.settledIds channel cursor).max? with
      | none => range
      | some top =>
          if range.newestId.all (· < top) then
            { range with
              newestId := some top
              oldestId := range.oldestId.orElse fun _ =>
                (cache.settledIds channel cursor).min? }
          else
            range }

/-- Cached messages of a channel, newest first, below `before` if given. -/
def newestFirst (cache : Cache) (channel : ChannelId)
    (before : Option MessageId) (limit : Nat) :
    List (MessageId × CachedMessage) :=
  Table.newest (cache.messages.rows.filter fun entry =>
    entry.2.channelId = channel && before.all (entry.1 < ·)) limit

structure MessagesPage where
  messages : List (MessageId × CachedMessage)
  needsNetwork : Bool

/-- `cached_messages`: a page of the cache, and whether it may have holes. -/
def cachedMessages (cache : Cache) (channel : ChannelId)
    (before : Option MessageId) (limit : Nat) : MessagesPage :=
  let messages := cache.newestFirst channel before limit
  { messages := messages
    needsNetwork := match cache.coverage.get? channel with
      | none => true
      | some range =>
          let edge := match before with
            | some id => some id
            | none =>
                (messages.find? fun entry : MessageId × CachedMessage =>
                  !entry.2.isDeleted).map Prod.fst
          let topOk := edge.all fun id => range.newestId.any (id ≤ ·)
          let bottomOk := range.completeToStart ||
            (limit ≤ messages.length &&
              messages.getLast?.any fun last : MessageId × CachedMessage =>
                range.oldestId.any (· ≤ last.1))
          !(topOk && bottomOk) }

/-! What `/sync` does to the cache. -/

def batchOf (page : Page) : Batch where
  channels := page.channels
  memberships := page.memberships
  users := page.users
  messages := page.messages
  removed := page.removedChannels
  left := page.leftMembers

/-- A page and its cursor in one transaction; the last page settles the tops. -/
def commitPage (me : UserId) (cache : Cache) (page : Page) : Cache :=
  let applied := { apply me cache (batchOf page) with cursor := page.next }
  if page.more then applied else applied.settleTops page.next

/-- After `410 sync.reset`: every synced row goes, and the cursor starts over. -/
def resetRows (cache : Cache) : Cache :=
  { empty with generation := cache.generation + 1 }

def commitAnswer (me : UserId) (cache : Cache) : SyncAnswer → Cache
  | .reset => cache.resetRows
  | .page page => commitPage me cache page

end Cache

end Brook
