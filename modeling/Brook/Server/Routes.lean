import Brook.Server.Transition

namespace Brook

namespace Server

/-- The refusals of the channel routes, by their error codes. -/
inductive Refusal where
  | forbidden
  | notFound
  | validation
  | conflict
  | dm
  | lastOwner
  | notMember
  | alreadyOwner
  | offerNotFound
  | replyTargetGone
  | notAttachable

/-- The status and the `code` of the answer. -/
def Refusal.code : Refusal → Nat × String
  | .forbidden => (403, "authz.forbidden")
  | .notFound => (404, "not_found")
  | .validation => (422, "validation.error")
  | .conflict => (409, "conflict")
  | .dm => (422, "channel.dm")
  | .lastOwner => (409, "channel.last_owner")
  | .notMember => (422, "channel.not_member")
  | .alreadyOwner => (409, "channel.already_owner")
  | .offerNotFound => (404, "offer.not_found")
  | .replyTargetGone => (422, "message.reply_target_gone")
  | .notAttachable => (422, "file.not_attachable")

/-- A route reads the committed rows and leaves its session to `_stamp`. -/
abbrev Route := Except Refusal Changes

/-- `str.isspace`. -/
def isSpace (char : Char) : Bool :=
  let code := char.toNat
  (9 ≤ code && code ≤ 13) || (28 ≤ code && code ≤ 32) || code = 0x85 ||
    code = 0xA0 || code = 0x1680 || (0x2000 ≤ code && code ≤ 0x200A) ||
    code = 0x2028 || code = 0x2029 || code = 0x202F || code = 0x205F ||
    code = 0x3000

/-- `not text.strip()`. -/
def isBlank (text : Text) : Bool := text.all isSpace

variable (server : Server)

/-- The first user becomes admin; later ones are added by an admin. -/
def register (actor : Option UserId) (user : UserId)
    (handle displayName : Text) : Route :=
  let isFirst := server.users.rows.isEmpty
  if !isFirst && !actor.any server.isAdmin then
    .error .forbidden
  else if (server.userByHandle handle).isSome then
    .error .conflict
  else
    .ok { users := [(user,
      { profile := ⟨handle, displayName, "active".toList, []⟩
        admin := isFirst
        seq := 0 })] }

/-- The texts arrive cleaned (`_clean_profile_text`); only a visible change is
stamped (`_profile_changed`). -/
def updateMe (actor : UserId) (displayName statusText : Option Text) :
    Route :=
  match server.users.get? actor with
  | none => .error .notFound
  | some user =>
      let profile := { user.profile with
        displayName := displayName.getD user.profile.displayName
        statusText := statusText.getD user.profile.statusText }
      if profile = user.profile then
        .ok {}
      else
        .ok { users := [(actor, { user with profile := profile })] }

def newMembership (role : Role) (lastRead : Option MessageId) : Membership :=
  { role := role, seq := 0, joinedSeq := 0, lastRead := lastRead }

/-- `create_channel` with `kind == "channel"`. -/
def createChannel (actor : UserId) (channel : ChannelId) (name : Text)
    (topic : Option Text) (isPublic : Bool) : Route :=
  if !server.isAdmin actor then
    .error .forbidden
  else if name = [] then
    .error .validation
  else
    .ok {
      channels := [(channel,
        { kind := .channel, name := some name, topic := topic
          createdBy := actor, isPublic := isPublic, archived := false
          seq := 0 })]
      joined := [((channel, actor), newMembership .owner none)] }

/-- A DM that both already share. -/
def existingDm (first second : UserId) : Bool :=
  server.channels.rows.any fun entry =>
    entry.2.kind = .dm && server.isMember entry.1 first &&
      server.isMember entry.1 second

/-- `create_channel` with `kind == "dm"`. -/
def openDm (actor : UserId) (channel : ChannelId) (handle : Text) : Route :=
  match server.users.get? actor, server.userByHandle handle with
  | some _, some other =>
      if other = actor then
        .error .validation
      else if server.existingDm actor other then
        .ok {}
      else
        .ok {
          channels := [(channel,
            { kind := .dm, name := none, topic := none, createdBy := actor
              isPublic := false, archived := false, seq := 0 })]
          joined :=
            [((channel, actor), newMembership .member none),
              ((channel, other), newMembership .member none)] }
  | _, _ => .error .validation

/-- A new member starts at the latest message; an existing one is left. -/
def joining (channel : ChannelId) (user : UserId) : Changes :=
  if server.isMember channel user then
    {}
  else
    { joined := [((channel, user),
        newMembership .member (server.latestMessageId channel))] }

def addMember (actor : UserId) (channel : ChannelId) (handle : Text) :
    Route :=
  match server.channels.get? channel with
  | none => .error .notFound
  | some row =>
      if row.kind = .dm then
        .error .validation
      else if !server.isAdmin actor && !server.isOwner channel actor then
        .error .forbidden
      else
        match server.userByHandle handle with
        | none => .error .validation
        | some target => .ok (server.joining channel target)

def joinChannel (actor : UserId) (channel : ChannelId) : Route :=
  match server.channels.get? channel, server.users.get? actor with
  | some row, some _ =>
      if row.kind ≠ .channel || !row.isPublic || row.archived then
        .error .notFound
      else
        .ok (server.joining channel actor)
  | _, _ => .error .notFound

def ownerCount (channel : ChannelId) : Nat :=
  (server.memberships.rows.filter fun entry =>
    entry.1.1 = channel && entry.2.role = .owner).length

/-- Offers made to the user or by the user in the channel. -/
def offersOf (channel : ChannelId) (user : UserId) :
    List (ChannelId × UserId) :=
  (server.offers.rows.filter fun entry =>
    entry.1.1 = channel && (entry.1.2 = user || entry.2 = user)).map Prod.fst

def removeMember (actor : UserId) (channel : ChannelId) (user : UserId) :
    Route :=
  match server.channels.get? channel with
  | none => .error .notFound
  | some row =>
      let leaving : Bool := user = actor
      if !server.isMember channel actor && !server.isAdmin actor then
        .error .notFound
      else if row.kind = .dm then
        .error .dm
      else if !leaving && !server.isAdmin actor &&
          !server.isOwner channel actor then
        .error .forbidden
      else
        match server.memberships.get? (channel, user) with
        | none => .error .notFound
        | some target =>
            if target.role = .owner && !leaving && !server.isAdmin actor then
              .error .forbidden
            else if target.role = .owner && server.ownerCount channel ≤ 1 then
              .error .lastOwner
            else
              .ok {
                deadOffers := server.offersOf channel user
                ended := [(channel, user)] }

def lockedChannelFor (actor : UserId) (channel : ChannelId) :
    Except Refusal Channel :=
  match server.channels.get? channel with
  | none => .error .notFound
  | some row =>
      if !server.isMember channel actor && !server.isAdmin actor then
        .error .notFound
      else if row.kind = .dm then
        .error .dm
      else
        .ok row

def offerOwnership (actor : UserId) (channel : ChannelId) (handle : Text) :
    Route :=
  match server.lockedChannelFor actor channel with
  | .error refusal => .error refusal
  | .ok _ =>
      if !server.isAdmin actor && !server.isOwner channel actor then
        .error .forbidden
      else
        match server.userByHandle handle with
        | none => .error .notMember
        | some target =>
            match server.memberships.get? (channel, target) with
            | none => .error .notMember
            | some row =>
                if row.role = .owner then
                  .error .alreadyOwner
                else if server.offers.contains (channel, target) then
                  .ok {}
                else
                  .ok { newOffers := [((channel, target), actor)] }

def withdrawOwnershipOffer (actor : UserId) (channel : ChannelId)
    (user : UserId) : Route :=
  match server.lockedChannelFor actor channel with
  | .error refusal => .error refusal
  | .ok _ =>
      if !server.isAdmin actor && !server.isOwner channel actor then
        .error .forbidden
      else if server.offers.contains (channel, user) then
        .ok { deadOffers := [(channel, user)] }
      else
        .error .offerNotFound

def acceptOwnership (actor : UserId) (channel : ChannelId) : Route :=
  match server.lockedChannelFor actor channel with
  | .error refusal => .error refusal
  | .ok _ =>
      if !server.offers.contains (channel, actor) then
        .error .offerNotFound
      else
        match server.memberships.get? (channel, actor) with
        | none => .error .notFound
        | some row =>
            .ok {
              memberships :=
                [((channel, actor), { row with role := .owner })]
              deadOffers := [(channel, actor)] }

def declineOwnership (actor : UserId) (channel : ChannelId) : Route :=
  match server.lockedChannelFor actor channel with
  | .error refusal => .error refusal
  | .ok _ =>
      if server.offers.contains (channel, actor) then
        .ok { deadOffers := [(channel, actor)] }
      else
        .error .offerNotFound

def requireChannelAdmin (actor : UserId) (channel : ChannelId) :
    Except Refusal Channel :=
  match server.channels.get? channel with
  | none => .error .notFound
  | some row =>
      if row.kind = .dm then
        .error .validation
      else if !server.isAdmin actor && !server.isOwner channel actor then
        .error .forbidden
      else
        .ok row

def updateChannel (actor : UserId) (channel : ChannelId)
    (name topic : Option Text) (archived : Option Bool) : Route :=
  match server.requireChannelAdmin actor channel with
  | .error refusal => .error refusal
  | .ok row =>
      if name.any isBlank then
        .error .validation
      else
        let next := { row with
          name := name.orElse fun _ => row.name
          topic := topic.orElse fun _ => row.topic
          archived := archived.getD row.archived }
        -- Archiving again sets a new `archived_at`: a change of its own.
        if next = row && archived ≠ some true then
          .ok {}
        else
          .ok { channels := [(channel, next)] }

def deleteChannel (actor : UserId) (channel : ChannelId) : Route :=
  match server.requireChannelAdmin actor channel with
  | .error refusal => .error refusal
  | .ok _ => .ok { deadChannels := [channel] }

/-- `_stored_send`: the message the author already stored with this id. -/
def storedSend (author : UserId) (clientId : ClientId) :
    Option (MessageId × Message) :=
  server.messages.rows.find? fun entry =>
    entry.2.authorId = author && entry.2.clientId = some clientId

/-- The quoted message must be a live one of the same channel. -/
def replyTargetGone (channel : ChannelId) (replyTo : Option MessageId) :
    Bool :=
  replyTo.any fun target =>
    !(server.messages.get? target).any fun quoted =>
      quoted.channelId = channel && !quoted.deleted

/-- Uploads are not modelled: a file that no message lists counts as the
author's committed upload to this channel. -/
def attachable (files : List FileId) : Bool :=
  files.Nodup && files.all fun file =>
    !server.messages.rows.any fun entry => file ∈ entry.2.attachments

/-- Sending reads the channel up to the message; the marker only advances. -/
def readUpTo (channel : ChannelId) (user : UserId) (target : MessageId) :
    List ((ChannelId × UserId) × Membership) :=
  match server.memberships.get? (channel, user) with
  | none => []
  | some row =>
      if row.lastRead.all (· < target) then
        [((channel, user), { row with lastRead := some target })]
      else
        []

/-- `_mentions_in`, of the tokens that `_MENTION_RE` finds in the body. -/
def mentionsIn (tokens : List Text) (channel : ChannelId) : List UserId × Bool :=
  ((server.members channel).filter fun user =>
      (server.users.get? user).any (·.profile.handle ∈ tokens),
    tokens.any fun token =>
      token.map Char.toLower = "channel".toList || token.map Char.toLower = "here".toList)

def sendMessage (actor : UserId) (channel : ChannelId) (id : MessageId)
    (now : Nat) (body : Text) (replyTo : Option MessageId)
    (clientId : Option ClientId) (attachments : List FileId)
    (tokens : List Text) : Route :=
  if isBlank body && attachments.isEmpty || 4000 < body.length ||
      10 < attachments.length then
    .error .validation
  else
    match server.channels.get? channel with
    | none => .error .notFound
    | some row =>
        if !server.isMember channel actor then
          .error .notFound
        else if row.archived then
          .error .forbidden
        else
          match clientId.bind (server.storedSend actor) with
          | some (_, stored) =>
              if stored.channelId = channel then .ok {} else .error .conflict
          | none =>
              if server.replyTargetGone channel replyTo then
                .error .replyTargetGone
              else if !server.attachable attachments then
                .error .notAttachable
              else
                .ok {
                  messages := [(id,
                    { channelId := channel, authorId := actor, body := body
                      replyTo := replyTo, clientId := clientId
                      createdAt := now
                      attachments := attachments, deleted := false
                      seq := 0
                      mentionEveryone := (server.mentionsIn tokens channel).2
                      mentions := (server.mentionsIn tokens channel).1 })]
                  memberships := server.readUpTo channel actor id }

/-- `_require_member` and `_get_message`: a live message of a channel the
caller belongs to. -/
def liveMessage (actor : UserId) (channel : ChannelId) (id : MessageId) :
    Except Refusal Message :=
  if !server.isMember channel actor then
    .error .notFound
  else
    match server.messages.get? id with
    | none => .error .notFound
    | some message =>
        if message.channelId ≠ channel || message.deleted then
          .error .notFound
        else
          .ok message

def editMessage (actor : UserId) (channel : ChannelId) (id : MessageId)
    (body : Text) : Route :=
  match server.liveMessage actor channel id with
  | .error refusal => .error refusal
  | .ok message =>
      if message.authorId ≠ actor then
        .error .forbidden
      else if isBlank body && message.attachments.isEmpty then
        .error .validation
      else
        .ok { messages := [(id, { message with body := body })] }

/-- The row stays as a tombstone; its files and mentions go with it. -/
def deleteMessage (actor : UserId) (channel : ChannelId) (id : MessageId) :
    Route :=
  match server.liveMessage actor channel id with
  | .error refusal => .error refusal
  | .ok message =>
      if message.authorId ≠ actor && !server.isAdmin actor then
        .error .forbidden
      else
        .ok { messages :=
          [(id, { message with
            deleted := true, attachments := [], mentionEveryone := false
            mentions := [] })] }

/-- A reaction, added or taken back, re-stamps its message. -/
def toggleReaction (actor : UserId) (channel : ChannelId) (id : MessageId) :
    Route :=
  match server.liveMessage actor channel id with
  | .error refusal => .error refusal
  | .ok _ => .ok { touched := [id] }

/-- Remove an attached file: its author's own, or by an owner. -/
def deleteFile (actor : UserId) (file : FileId) : Route :=
  match server.messages.rows.find? fun entry =>
      file ∈ entry.2.attachments && !entry.2.deleted with
  | none => .error .notFound
  | some (id, message) =>
      if !server.isMember message.channelId actor then
        .error .notFound
      else if message.authorId ≠ actor &&
          !server.isOwner message.channelId actor then
        .error .forbidden
      else
        .ok { messages := [(id, { message with
          attachments := message.attachments.filter (· ≠ file) })] }

def markRead (actor : UserId) (channel : ChannelId)
    (target : Option MessageId) : Route :=
  if !server.isMember channel actor then
    .error .notFound
  else
    match target with
    | none =>
        match server.latestMessageId channel with
        | none => .ok {}
        | some latest =>
            .ok { memberships := server.readUpTo channel actor latest }
    | some id =>
        if (server.messages.get? id).any fun message =>
            message.channelId = channel && !message.deleted then
          .ok { memberships := server.readUpTo channel actor id }
        else
          .error .validation

end Server

/-- One request; the ids of new rows are the ones the server draws. -/
inductive Request where
  | register (actor : Option UserId) (user : UserId)
      (handle displayName : Text)
  | updateMe (actor : UserId) (displayName statusText : Option Text)
  | createChannel (actor : UserId) (channel : ChannelId) (name : Text)
      (topic : Option Text) (isPublic : Bool)
  | openDm (actor : UserId) (channel : ChannelId) (handle : Text)
  | addMember (actor : UserId) (channel : ChannelId) (handle : Text)
  | joinChannel (actor : UserId) (channel : ChannelId)
  | removeMember (actor : UserId) (channel : ChannelId) (user : UserId)
  | offerOwnership (actor : UserId) (channel : ChannelId) (handle : Text)
  | withdrawOwnershipOffer (actor : UserId) (channel : ChannelId)
      (user : UserId)
  | acceptOwnership (actor : UserId) (channel : ChannelId)
  | declineOwnership (actor : UserId) (channel : ChannelId)
  | updateChannel (actor : UserId) (channel : ChannelId)
      (name topic : Option Text) (archived : Option Bool)
  | deleteChannel (actor : UserId) (channel : ChannelId)
  | sendMessage (actor : UserId) (channel : ChannelId) (id : MessageId)
      (now : Nat) (body : Text) (replyTo : Option MessageId)
      (clientId : Option ClientId) (attachments : List FileId)
      (tokens : List Text := [])
  | editMessage (actor : UserId) (channel : ChannelId) (id : MessageId)
      (body : Text)
  | deleteMessage (actor : UserId) (channel : ChannelId) (id : MessageId)
  | toggleReaction (actor : UserId) (channel : ChannelId) (id : MessageId)
  | deleteFile (actor : UserId) (file : FileId)
  | markRead (actor : UserId) (channel : ChannelId)
      (target : Option MessageId)

namespace Request

/-- The drawn id is one that was never drawn before. -/
def fresh (server : Server) : Request → Bool
  | .register _ user _ _ => !server.users.contains user
  | .createChannel _ channel _ _ _ => channel ∉ server.channelIds
  | .openDm _ channel _ => channel ∉ server.channelIds
  | .sendMessage _ _ id _ _ _ _ _ _ => id ∉ server.messageIds
  | _ => true

def route (server : Server) : Request → Server.Route
  | .register actor user handle displayName =>
      server.register actor user handle displayName
  | .updateMe actor displayName statusText =>
      server.updateMe actor displayName statusText
  | .createChannel actor channel name topic isPublic =>
      server.createChannel actor channel name topic isPublic
  | .openDm actor channel handle => server.openDm actor channel handle
  | .addMember actor channel handle => server.addMember actor channel handle
  | .joinChannel actor channel => server.joinChannel actor channel
  | .removeMember actor channel user =>
      server.removeMember actor channel user
  | .offerOwnership actor channel handle =>
      server.offerOwnership actor channel handle
  | .withdrawOwnershipOffer actor channel user =>
      server.withdrawOwnershipOffer actor channel user
  | .acceptOwnership actor channel => server.acceptOwnership actor channel
  | .declineOwnership actor channel => server.declineOwnership actor channel
  | .updateChannel actor channel name topic archived =>
      server.updateChannel actor channel name topic archived
  | .deleteChannel actor channel => server.deleteChannel actor channel
  | .sendMessage actor channel id now body replyTo clientId attachments
      tokens =>
      server.sendMessage actor channel id now body replyTo clientId attachments
        tokens
  | .editMessage actor channel id body =>
      server.editMessage actor channel id body
  | .deleteMessage actor channel id => server.deleteMessage actor channel id
  | .toggleReaction actor channel id =>
      server.toggleReaction actor channel id
  | .deleteFile actor file => server.deleteFile actor file
  | .markRead actor channel target => server.markRead actor channel target

/-- The request is one to make the user a member of the channel. -/
def adds (server : Server) (channel : ChannelId) (user : UserId) :
    Request → Bool
  | .createChannel actor id _ _ _ => id = channel && actor = user
  | .openDm actor id handle =>
      id = channel && (actor = user || server.userByHandle handle = some user)
  | .addMember _ id handle =>
      id = channel && server.userByHandle handle = some user
  | .joinChannel actor id => id = channel && actor = user
  | _ => false

end Request

/-- Answer a request: `none` when it is refused and nothing changes. -/
def Server.handle (server : Server) (request : Request) : Option Server :=
  if request.fresh server then
    match request.route server with
    | .error _ => none
    | .ok changes => some (server.commit changes)
  else
    none

end Brook
