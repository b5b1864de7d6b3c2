import Brook.Table.Basic

namespace Brook

/-! The rows that `/sync` serves, as `models.py` declares them.  Identifiers are
drawn from the natural numbers; message ids keep their order (UUIDv7). -/

abbrev UserId := Nat
abbrev ChannelId := Nat
abbrev MessageId := Nat
abbrev FileId := Nat
abbrev ClientId := Nat
abbrev Text := List Char

/-- What other members can see of a user (`_PROFILE`). -/
structure Profile where
  handle : Text
  displayName : Text
  status : Text
  statusText : Text
deriving DecidableEq

structure User where
  profile : Profile
  /-- `global_role == "admin"`. -/
  admin : Bool
  seq : Int
deriving DecidableEq

inductive ChannelKind where
  | channel
  | dm
deriving DecidableEq

structure Channel where
  kind : ChannelKind
  name : Option Text
  topic : Option Text
  createdBy : UserId
  isPublic : Bool
  archived : Bool
  seq : Int
deriving DecidableEq

inductive Role where
  | owner
  | member
deriving DecidableEq

structure Membership where
  role : Role
  seq : Int
  /-- The number of the insert; `seq` moves with every read marker. -/
  joinedSeq : Int
  lastRead : Option MessageId
deriving DecidableEq

structure Message where
  channelId : ChannelId
  authorId : UserId
  body : Text
  replyTo : Option MessageId
  clientId : Option ClientId
  createdAt : Nat
  /-- Committed files attached to it, in the sender's order. -/
  attachments : List FileId
  deleted : Bool
  seq : Int
  /-- `@channel` or `@here`, resolved at the send. -/
  mentionEveryone : Bool := false
  /-- Its rows of `message_mentions`. -/
  mentions : List UserId := []
deriving DecidableEq

/-- A membership that ended: left, removed, or its channel deleted. -/
structure SyncTombstone where
  channelId : ChannelId
  userId : UserId
  seq : Int
deriving DecidableEq

structure Server where
  /-- `SyncCounter.seq`. -/
  counter : Int
  /-- `SyncCounter.floor`: cursors below it get `410 sync.reset`. -/
  floor : Int
  users : Table UserId User
  channels : Table ChannelId Channel
  memberships : Table (ChannelId × UserId) Membership
  /-- Pending offers of ownership, with the one who offered. -/
  offers : Table (ChannelId × UserId) UserId
  messages : Table MessageId Message
  tombstones : List SyncTombstone
  /-- Every channel id and message id ever drawn; a UUID is not drawn twice. -/
  channelIds : List ChannelId
  messageIds : List MessageId
deriving DecidableEq

namespace Server

/-- A fresh database: the counter starts at 1. -/
def init : Server where
  counter := 1
  floor := 0
  users := ∅
  channels := ∅
  memberships := ∅
  offers := ∅
  messages := ∅
  tombstones := []
  channelIds := []
  messageIds := []

def isMember (server : Server) (channel : ChannelId) (user : UserId) : Bool :=
  server.memberships.contains (channel, user)

def isOwner (server : Server) (channel : ChannelId) (user : UserId) : Bool :=
  (server.memberships.get? (channel, user)).any (·.role = .owner)

def isAdmin (server : Server) (user : UserId) : Bool :=
  (server.users.get? user).any (·.admin)

/-- The users of a channel (`_members`). -/
def members (server : Server) (channel : ChannelId) : List UserId :=
  (server.memberships.rows.filter fun entry => entry.1.1 = channel).map
    fun entry => entry.1.2

def userByHandle (server : Server) (handle : Text) : Option UserId :=
  (server.users.rows.find? fun entry => entry.2.profile.handle = handle).map
    Prod.fst

/-- `_latest_message_id`: the newest message that is not deleted. -/
def latestMessageId (server : Server) (channel : ChannelId) :
    Option MessageId :=
  ((server.messages.rows.filter fun entry =>
    entry.2.channelId = channel && !entry.2.deleted).map Prod.fst).max?

theorem isMember_iff {server : Server} {channel : ChannelId} {user : UserId} :
    server.isMember channel user = true ↔
      ∃ row, server.memberships.get? (channel, user) = some row :=
  Table.contains_iff

theorem mem_members {server : Server} {channel : ChannelId} {user : UserId} :
    user ∈ server.members channel ↔
      ∃ row, server.memberships.get? (channel, user) = some row := by
  simp [members, ← Table.mem_rows]

end Server

end Brook
