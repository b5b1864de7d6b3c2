import Brook.Cache.Coverage
import Brook.Server.Routes

namespace Brook

/-! History pages, and the live events that reach a cache. -/

namespace Server

/-- `GET /channels/{id}/messages`: the newest messages below `before`, oldest
first, without the deleted ones. -/
def history (server : Server) (actor : UserId) (channel : ChannelId)
    (before : Option MessageId) (limit : Nat) :
    Except Refusal (List MessageRow) :=
  if server.isMember channel actor then
    .ok (((Table.newest (server.messages.rows.filter fun entry =>
      entry.2.channelId = channel && !entry.2.deleted &&
        before.all (entry.1 < ·)) limit).reverse).map
      fun entry => server.messageOut entry.1 entry.2)
  else
    .error .notFound

end Server

/-- A live event, by the row that it is about. -/
inductive LiveEvent where
  /-- `message.new`, `message.update` and the acknowledgement of a send. -/
  | message (id : MessageId)
  | channelUpdate (channel : ChannelId)
  | messageDelete (id : MessageId)
  | channelDelete (channel : ChannelId) (seq : Int)

/-- `event_batch`, of an event that the server sends in this state. -/
def Server.eventBatch (server : Server) : LiveEvent → Option Batch
  | .message id =>
      (server.messages.get? id).map fun row =>
        { messages := [server.messageOut id row] }
  | .channelUpdate channel =>
      (server.channels.get? channel).map fun row =>
        { channels := [server.channelOut channel row] }
  | .messageDelete id =>
      ((server.messages.get? id).filter (·.deleted)).map fun row =>
        { tombstones := [(id, row.channelId, row.seq)] }
  | .channelDelete channel seq =>
      if server.channels.contains channel then
        none
      else
        (server.tombstones.find? fun tombstone =>
          tombstone.channelId = channel && tombstone.seq = seq).map
          fun tombstone => { removed := [(channel, tombstone.seq)] }

def historyMax : Nat := 100

/-- A history request that is out, with what the cache read before it. -/
structure Load where
  channel : ChannelId
  before : Option MessageId
  limit : Nat
  floor : Option Int
  generation : Nat
  /-- The rows of the answer, and the server's counter when it gave them. -/
  answer : Option (Int × List MessageRow)

namespace Load

/-- The message lies in the page that the answer shows, or would. -/
def Spans (load : Load) (rows : List MessageRow) (id : MessageId) : Prop :=
  load.before.all (id < ·) = true ∧
    (rows.length < load.limit ∨ ∃ row ∈ rows, row.id ≤ id)

/-- The page sets or moves the bottom of the range. -/
def movesRange (load : Load) (range : Option Range) (ids : List MessageId) :
    Bool :=
  match load.before with
  | none =>
      match ids.max? with
      | some newest => !(range.bind (·.oldestId)).any (newest < ·)
      | none => (range.bind (·.newestId)).isNone
  | some before => range.bind (·.oldestId) = some before

end Load

namespace Cache

/-- The request of `load`: the removal floor and the generation as of now. -/
def startLoad (cache : Cache) (channel : ChannelId)
    (before : Option MessageId) (limit : Nat) : Load where
  channel := channel
  before := before
  limit := max 1 (min limit historyMax)
  floor := cache.floorOf channel
  generation := cache.generation
  answer := none

/-- The answer's rows can land: no removal since the request, and the channel
is here and not fenced. -/
def unchangedFloor (cache : Cache) (load : Load) : Bool :=
  cache.floorOf load.channel = load.floor &&
    cache.channelPresent load.channel &&
    (cache.fenceOf load.channel).isNone

/-- The end of `load`: its rows, and the coverage if they landed. -/
def landLoad (me : UserId) (cache : Cache) (load : Load)
    (rows : List MessageRow) : Cache :=
  if cache.generation ≠ load.generation then
    cache
  else
    let applied := apply me cache {
      messages := rows
      history := true
      historyFloors := [(load.channel, load.floor)] }
    if cache.unchangedFloor load then
      match load.before with
      | none =>
          applied.recordHead load.channel (rows.map (·.id)) load.limit
      | some before =>
          applied.recordOlder load.channel before (rows.map (·.id)) load.limit
    else
      applied

end Cache

end Brook
