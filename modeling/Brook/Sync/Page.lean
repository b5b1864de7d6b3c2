import Brook.Server.Model
import Mathlib.Data.List.Destutter
import Mathlib.Data.List.Sort

namespace Brook

/-! The rows as they travel from the server to a client's cache. -/

structure ChannelJson where
  kind : ChannelKind
  name : Option Text
  topic : Option Text
  isPublic : Bool
  archived : Bool
  members : List (UserId × Role)
  ownerOffers : List (UserId × UserId)

structure ChannelRow where
  id : ChannelId
  seq : Int
  json : ChannelJson

structure MembershipJson where
  role : Role
  lastRead : Option MessageId
deriving DecidableEq

structure MemberRow where
  channelId : ChannelId
  userId : UserId
  seq : Int
  json : MembershipJson
deriving DecidableEq

structure UserRow where
  id : UserId
  seq : Int
  json : Profile

/-- What a reply carries of the message it quotes (`reply_to`). -/
structure ReplyExcerpt where
  body : Text
  deleted : Bool
  attachments : Nat
deriving DecidableEq

/-- A message's JSON.  The server sends `deletedAt`; `deleted` and `isPartial`
are set by the cache when it patches a row after a live delete. -/
structure MessageJson where
  authorId : Option UserId
  body : Text
  deletedAt : Bool
  deleted : Bool
  isPartial : Bool
  replyToId : Option MessageId
  replyTo : Option ReplyExcerpt
  attachments : List FileId
  clientId : Option ClientId
  mentionEveryone : Bool := false
  mentions : List UserId := []
deriving DecidableEq

structure MessageRow where
  id : MessageId
  channelId : ChannelId
  seq : Int
  /-- Empty on a tombstone made from a live delete. -/
  createdAt : Option Nat
  json : MessageJson
deriving DecidableEq

structure Page where
  channels : List ChannelRow
  removedChannels : List (ChannelId × Int)
  memberships : List MemberRow
  leftMembers : List (ChannelId × UserId × Int)
  users : List UserRow
  messages : List MessageRow
  next : Int
  more : Bool

inductive SyncAnswer where
  /-- `410 sync.reset`. -/
  | reset
  | page (page : Page)

namespace Server

def replyExcerptLen : Nat := 140

def deletedText : Text := "(deleted)".toList

def excerpt (quoted : Message) : ReplyExcerpt where
  body :=
    (if quoted.deleted then deletedText else quoted.body).take replyExcerptLen
  deleted := quoted.deleted
  attachments := if quoted.deleted then 0 else quoted.attachments.length

def messageOut (server : Server) (id : MessageId) (message : Message) :
    MessageRow where
  id := id
  channelId := message.channelId
  seq := message.seq
  createdAt := some message.createdAt
  json := {
    authorId := some message.authorId
    body := if message.deleted then [] else message.body
    deletedAt := message.deleted
    deleted := false
    isPartial := false
    replyToId := message.replyTo
    replyTo := (message.replyTo.bind server.messages.get?).map excerpt
    attachments := if message.deleted then [] else message.attachments
    clientId := message.clientId
    mentionEveryone := message.mentionEveryone
    mentions := message.mentions }

def channelOut (server : Server) (id : ChannelId) (channel : Channel) :
    ChannelRow where
  id := id
  seq := channel.seq
  json := {
    kind := channel.kind
    name := channel.name
    topic := channel.topic
    isPublic := channel.isPublic
    archived := channel.archived
    members := (server.memberships.rows.filter fun entry =>
      entry.1.1 = id).map fun entry => (entry.1.2, entry.2.role)
    ownerOffers := (server.offers.rows.filter fun entry =>
      entry.1.1 = id).map fun entry => (entry.1.2, entry.2) }

/-- Read state is private: only the caller's own marker leaves the server. -/
def membershipOut (me : UserId) (key : ChannelId × UserId)
    (row : Membership) : MemberRow where
  channelId := key.1
  userId := key.2
  seq := row.seq
  json := {
    role := row.role
    lastRead := if key.2 = me then row.lastRead else none }

def userOut (id : UserId) (user : User) : UserRow where
  id := id
  seq := user.seq
  json := user.profile

section

variable (server : Server) (me : UserId)

/-- The user belongs to a channel that the caller belongs to. -/
def sharesChannel (user : UserId) : Bool :=
  server.memberships.rows.any fun entry =>
    entry.1.2 = user && server.isMember entry.1.1 me

/-- The caller hears of a tombstone as the one who left, or as a member. -/
def seesTombstone (tombstone : SyncTombstone) : Bool :=
  tombstone.userId = me || server.isMember tombstone.channelId me

/-- The numbers after the cursor of all that the caller may see. -/
def visibleSeqs (cursor : Int) : List Int :=
  (((server.channels.rows.filter fun entry =>
        server.isMember entry.1 me).map (·.2.seq)) ++
    ((server.memberships.rows.filter fun entry =>
        server.isMember entry.1.1 me).map (·.2.seq)) ++
    ((server.messages.rows.filter fun entry =>
        server.isMember entry.2.channelId me).map (·.2.seq)) ++
    ((server.users.rows.filter fun entry =>
        server.sharesChannel me entry.1).map (·.2.seq)) ++
    ((server.tombstones.filter (server.seesTombstone me)).map (·.seq))).filter
      fun seq => cursor < seq

/-- The first `limit + 1` distinct numbers after the cursor, in order. -/
def pageSeqs (cursor : Int) (limit : Nat) : List Int :=
  ((((server.visibleSeqs me cursor).filter (· ≤ server.counter)).insertionSort
    (· ≤ ·)).destutter (· ≠ ·)).take (limit + 1)

/-- Whether more than `limit` numbers are left. -/
def pageMore (cursor : Int) (limit : Nat) : Bool :=
  limit < (server.pageSeqs me cursor limit).length

/-- The `limit`-th number after the cursor when there are more, else the
current one: a page never splits a transaction. -/
def pageUpper (cursor : Int) (limit : Nat) : Int :=
  if server.pageMore me cursor limit then
    (server.pageSeqs me cursor limit).getD (limit - 1) server.counter
  else
    server.counter

end

def inWindow (cursor upper seq : Int) : Bool :=
  cursor < seq && seq ≤ upper

section

variable (server : Server) (me : UserId) (cursor upper : Int)

/-- By `joined_seq`: the caller's own `seq` moves with every read marker. -/
def newToMe (channel : ChannelId) : Bool :=
  (server.memberships.get? (channel, me)).any fun row =>
    inWindow cursor upper row.joinedSeq

def pageChannels : List ChannelRow :=
  ((server.channels.rows.filter fun entry =>
      server.isMember entry.1 me &&
        inWindow cursor upper entry.2.seq) ++
    (server.channels.rows.filter fun entry =>
      server.newToMe me cursor upper entry.1 &&
        !(server.isMember entry.1 me &&
          inWindow cursor upper entry.2.seq))).map
    fun entry => server.channelOut entry.1 entry.2

def pageMembershipRows : List ((ChannelId × UserId) × Membership) :=
  (server.memberships.rows.filter fun entry =>
      server.isMember entry.1.1 me &&
        inWindow cursor upper entry.2.seq) ++
    (server.memberships.rows.filter fun entry =>
      server.newToMe me cursor upper entry.1.1 &&
        !(server.isMember entry.1.1 me &&
          inWindow cursor upper entry.2.seq))

/-- `user_ids_in_page`: the members of the channels new to the caller. -/
def newChannelMember (user : UserId) : Bool :=
  (server.pageMembershipRows me cursor upper).any fun entry =>
    entry.1.2 = user && server.newToMe me cursor upper entry.1.1

def pageUsers : List UserRow :=
  (server.users.rows.filter fun entry =>
    server.sharesChannel me entry.1 &&
      (inWindow cursor upper entry.2.seq ||
        server.newChannelMember me cursor upper entry.1)).map
    fun entry => userOut entry.1 entry.2

def pageTombstones : List SyncTombstone :=
  server.tombstones.filter fun tombstone =>
    inWindow cursor upper tombstone.seq && server.seesTombstone me tombstone

/-- The messages of the window, ordered by number and id. -/
def pageMessages : List MessageRow :=
  ((server.messages.rows.filter fun entry =>
      server.isMember entry.2.channelId me &&
        inWindow cursor upper entry.2.seq).insertionSort
    fun first second =>
      first.2.seq < second.2.seq ∨
        (first.2.seq = second.2.seq ∧ first.1 ≤ second.1)).map
    fun entry => server.messageOut entry.1 entry.2

end

/-- The page of a cursor other than 0, up to its upper bound. -/
def pageUpTo (server : Server) (me : UserId) (cursor upper : Int)
    (more : Bool) : Page where
  channels := server.pageChannels me cursor upper
  removedChannels :=
    ((server.pageTombstones me cursor upper).filter fun tombstone =>
      tombstone.userId = me && !server.isMember tombstone.channelId me).map
      fun tombstone => (tombstone.channelId, tombstone.seq)
  memberships := (server.pageMembershipRows me cursor upper).map
    fun entry => membershipOut me entry.1 entry.2
  leftMembers :=
    ((server.pageTombstones me cursor upper).filter fun tombstone =>
      tombstone.userId ≠ me && server.isMember tombstone.channelId me).map
      fun tombstone =>
        (tombstone.channelId, tombstone.userId, tombstone.seq)
  users := server.pageUsers me cursor upper
  messages := server.pageMessages me cursor upper
  next := upper
  more := more

/-- `_state_only`: the current state and no messages. -/
def stateOnly (server : Server) (me : UserId) : Page where
  channels := (server.channels.rows.filter fun entry =>
    server.isMember entry.1 me).map
      fun entry => server.channelOut entry.1 entry.2
  removedChannels := []
  memberships := (server.memberships.rows.filter fun entry =>
    server.isMember entry.1.1 me).map
      fun entry => membershipOut me entry.1 entry.2
  leftMembers := []
  users := (server.users.rows.filter fun entry =>
    server.sharesChannel me entry.1).map
      fun entry => userOut entry.1 entry.2
  messages := []
  next := server.counter
  more := false

/-- `GET /sync?since=cursor&limit=limit`. -/
def sync (server : Server) (me : UserId) (cursor : Int) (limit : Nat) :
    SyncAnswer :=
  if server.counter < cursor || (cursor ≠ 0 && cursor < server.floor) then
    .reset
  else if cursor = 0 then
    .page (server.stateOnly me)
  else
    .page (server.pageUpTo me cursor (server.pageUpper me cursor limit)
      (server.pageMore me cursor limit))

/-! What a page holds. -/

theorem inWindow_iff {cursor upper seq : Int} :
    inWindow cursor upper seq = true ↔ cursor < seq ∧ seq ≤ upper := by
  simp [inWindow]

section

variable {server : Server} {me : UserId} {cursor upper : Int}

theorem newToMe_iff {channel : ChannelId} :
    server.newToMe me cursor upper channel = true ↔
      ∃ row, server.memberships.get? (channel, me) = some row ∧
        cursor < row.joinedSeq ∧ row.joinedSeq ≤ upper := by
  cases h : server.memberships.get? (channel, me) <;>
    simp [newToMe, h, inWindow]

theorem isMember_of_newToMe {channel : ChannelId}
    (new : server.newToMe me cursor upper channel = true) :
    server.isMember channel me = true := by
  obtain ⟨row, stored, _⟩ := newToMe_iff.mp new
  exact isMember_iff.mpr ⟨row, stored⟩

theorem mem_pageChannels {row : ChannelRow} :
    row ∈ server.pageChannels me cursor upper ↔
      ∃ id channel, server.channels.get? id = some channel ∧
        row = server.channelOut id channel ∧
        ((server.isMember id me = true ∧
            cursor < channel.seq ∧ channel.seq ≤ upper) ∨
          server.newToMe me cursor upper id = true) := by
  simp only [pageChannels, List.mem_map, List.mem_append, List.mem_filter,
    Bool.and_eq_true, Bool.not_eq_true', inWindow_iff, Prod.exists,
    Table.mem_rows]
  constructor
  · rintro ⟨id, channel, ⟨stored, windowed⟩ | ⟨stored, new, _⟩, rfl⟩
    · exact ⟨id, channel, stored, rfl, Or.inl windowed⟩
    · exact ⟨id, channel, stored, rfl, Or.inr new⟩
  · rintro ⟨id, channel, stored, rfl, here⟩
    refine ⟨id, channel, ?_, rfl⟩
    cases windowed : server.isMember id me &&
        inWindow cursor upper channel.seq with
    | true =>
        rw [Bool.and_eq_true, inWindow_iff] at windowed
        exact Or.inl ⟨stored, windowed⟩
    | false =>
        rcases here with here | new
        · rw [← inWindow_iff, ← Bool.and_eq_true] at here
          rw [here] at windowed
          cases windowed
        · exact Or.inr ⟨stored, new, rfl⟩

theorem mem_pageMembershipRows {key : ChannelId × UserId}
    {row : Membership} :
    (key, row) ∈ server.pageMembershipRows me cursor upper ↔
      server.memberships.get? key = some row ∧
        ((server.isMember key.1 me = true ∧
            cursor < row.seq ∧ row.seq ≤ upper) ∨
          server.newToMe me cursor upper key.1 = true) := by
  simp only [pageMembershipRows, List.mem_append, List.mem_filter,
    Bool.and_eq_true, Bool.not_eq_true', inWindow_iff, Table.mem_rows]
  constructor
  · rintro (⟨stored, windowed⟩ | ⟨stored, new, _⟩)
    · exact ⟨stored, Or.inl windowed⟩
    · exact ⟨stored, Or.inr new⟩
  · rintro ⟨stored, here⟩
    cases windowed : server.isMember key.1 me &&
        inWindow cursor upper row.seq with
    | true =>
        rw [Bool.and_eq_true, inWindow_iff] at windowed
        exact Or.inl ⟨stored, windowed⟩
    | false =>
        rcases here with here | new
        · rw [← inWindow_iff, ← Bool.and_eq_true] at here
          rw [here] at windowed
          cases windowed
        · exact Or.inr ⟨stored, new, rfl⟩

theorem sharesChannel_iff {user : UserId} :
    server.sharesChannel me user = true ↔
      ∃ channel row, server.memberships.get? (channel, user) = some row ∧
        server.isMember channel me = true := by
  simp only [sharesChannel, List.any_eq_true, Bool.and_eq_true,
    decide_eq_true_eq, Prod.exists, Table.mem_rows]
  constructor
  · rintro ⟨channel, _, row, stored, rfl, member⟩
    exact ⟨channel, row, stored, member⟩
  · rintro ⟨channel, row, stored, member⟩
    exact ⟨channel, user, row, stored, rfl, member⟩

theorem mem_pageUsers {row : UserRow} :
    row ∈ server.pageUsers me cursor upper ↔
      ∃ id user, server.users.get? id = some user ∧ row = userOut id user ∧
        server.sharesChannel me id = true ∧
        ((cursor < user.seq ∧ user.seq ≤ upper) ∨
          server.newChannelMember me cursor upper id = true) := by
  simp only [pageUsers, List.mem_map, List.mem_filter, Bool.and_eq_true,
    Bool.or_eq_true, inWindow_iff, Prod.exists, Table.mem_rows]
  constructor
  · rintro ⟨id, user, ⟨stored, shares, here⟩, rfl⟩
    exact ⟨id, user, stored, rfl, shares, here⟩
  · rintro ⟨id, user, stored, rfl, shares, here⟩
    exact ⟨id, user, ⟨stored, shares, here⟩, rfl⟩

/-- The members of a channel new to the caller come with their profiles. -/
theorem newChannelMember_of {channel : ChannelId} {user : UserId}
    {row : Membership}
    (stored : server.memberships.get? (channel, user) = some row)
    (new : server.newToMe me cursor upper channel = true) :
    server.newChannelMember me cursor upper user = true := by
  simp only [newChannelMember, List.any_eq_true, Bool.and_eq_true,
    decide_eq_true_eq]
  exact ⟨((channel, user), row),
    mem_pageMembershipRows.mpr ⟨stored, Or.inr new⟩, rfl, new⟩

theorem mem_pageTombstones {tombstone : SyncTombstone} :
    tombstone ∈ server.pageTombstones me cursor upper ↔
      tombstone ∈ server.tombstones ∧
        (cursor < tombstone.seq ∧ tombstone.seq ≤ upper) ∧
        (tombstone.userId = me ∨
          server.isMember tombstone.channelId me = true) := by
  simp [pageTombstones, seesTombstone, inWindow_iff]

theorem mem_pageMessages {row : MessageRow} :
    row ∈ server.pageMessages me cursor upper ↔
      ∃ id message, server.messages.get? id = some message ∧
        row = server.messageOut id message ∧
        server.isMember message.channelId me = true ∧
        cursor < message.seq ∧ message.seq ≤ upper := by
  simp only [pageMessages, List.mem_map, List.mem_insertionSort,
    List.mem_filter, Bool.and_eq_true, inWindow_iff, Prod.exists,
    Table.mem_rows]
  constructor
  · rintro ⟨id, message, ⟨stored, here⟩, rfl⟩
    exact ⟨id, message, stored, rfl, here⟩
  · rintro ⟨id, message, stored, rfl, here⟩
    exact ⟨id, message, ⟨stored, here⟩, rfl⟩

theorem mem_removedChannels {more : Bool} {channel : ChannelId}
    {seq : Int} :
    (channel, seq) ∈
        (server.pageUpTo me cursor upper more).removedChannels ↔
      ⟨channel, me, seq⟩ ∈ server.tombstones ∧
        (cursor < seq ∧ seq ≤ upper) ∧
        server.isMember channel me = false := by
  simp only [pageUpTo, List.mem_map, List.mem_filter, Bool.and_eq_true,
    decide_eq_true_eq, Bool.not_eq_true', mem_pageTombstones,
    Prod.mk.injEq]
  constructor
  · rintro ⟨⟨_, _, _⟩, ⟨⟨member, windowed, _⟩, rfl, out⟩, rfl, rfl⟩
    exact ⟨member, windowed, out⟩
  · rintro ⟨member, windowed, out⟩
    exact ⟨⟨channel, me, seq⟩, ⟨⟨member, windowed, Or.inl rfl⟩, rfl, out⟩,
      rfl, rfl⟩

theorem mem_leftMembers {more : Bool} {channel : ChannelId}
    {user : UserId} {seq : Int} :
    (channel, user, seq) ∈
        (server.pageUpTo me cursor upper more).leftMembers ↔
      ⟨channel, user, seq⟩ ∈ server.tombstones ∧
        (cursor < seq ∧ seq ≤ upper) ∧ user ≠ me ∧
        server.isMember channel me = true := by
  simp only [pageUpTo, List.mem_map, List.mem_filter, Bool.and_eq_true,
    decide_eq_true_eq, mem_pageTombstones, Prod.mk.injEq]
  constructor
  · rintro ⟨⟨_, _, _⟩, ⟨⟨member, windowed, _⟩, other, inside⟩, rfl, rfl, rfl⟩
    exact ⟨member, windowed, other, inside⟩
  · rintro ⟨member, windowed, other, inside⟩
    exact ⟨⟨channel, user, seq⟩,
      ⟨⟨member, windowed, Or.inr inside⟩, other, inside⟩, rfl, rfl, rfl⟩

theorem mem_pageMemberships {more : Bool} {row : MemberRow} :
    row ∈ (server.pageUpTo me cursor upper more).memberships ↔
      ∃ key membership, server.memberships.get? key = some membership ∧
        row = membershipOut me key membership ∧
        ((server.isMember key.1 me = true ∧
            cursor < membership.seq ∧ membership.seq ≤ upper) ∨
          server.newToMe me cursor upper key.1 = true) := by
  simp only [pageUpTo, List.mem_map]
  constructor
  · rintro ⟨⟨key, membership⟩, member, rfl⟩
    obtain ⟨stored, here⟩ := mem_pageMembershipRows.mp member
    exact ⟨key, membership, stored, rfl, here⟩
  · rintro ⟨key, membership, stored, rfl, here⟩
    exact ⟨(key, membership), mem_pageMembershipRows.mpr ⟨stored, here⟩, rfl⟩

end

/-! The bounds of a page. -/

section

variable {server : Server} {me : UserId} {cursor : Int} {limit : Nat}

theorem mem_pageSeqs {seq : Int}
    (member : seq ∈ server.pageSeqs me cursor limit) :
    cursor < seq ∧ seq ≤ server.counter := by
  have sorted := (List.destutter_sublist (· ≠ ·) _).subset
    (List.mem_of_mem_take member)
  rw [List.mem_insertionSort, List.mem_filter] at sorted
  obtain ⟨visible, bounded⟩ := sorted
  exact ⟨by simpa using (List.mem_filter.mp visible).2, by simpa using bounded⟩

theorem pageUpper_of_not_more
    (caughtUp : server.pageMore me cursor limit = false) :
    server.pageUpper me cursor limit = server.counter := by
  simp [pageUpper, caughtUp]

theorem pageUpper_bounds (known : cursor ≤ server.counter) :
    cursor ≤ server.pageUpper me cursor limit ∧
      server.pageUpper me cursor limit ≤ server.counter := by
  unfold pageUpper
  split
  · rename_i more
    simp only [pageMore, decide_eq_true_eq] at more
    have inside : limit - 1 < (server.pageSeqs me cursor limit).length := by
      omega
    rw [List.getD_eq_getElem?_getD, List.getElem?_eq_getElem inside,
      Option.getD_some]
    obtain ⟨above, below⟩ := mem_pageSeqs (List.getElem_mem inside)
    omega
  · omega

end

end Server

end Brook
