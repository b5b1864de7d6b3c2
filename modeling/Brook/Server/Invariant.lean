import Brook.Server.Routes

namespace Brook

namespace Server

/-- What holds of every committed state of the database. -/
structure Wf (server : Server) : Prop where
  counter : 1 ≤ server.counter
  floor : server.floor = 0
  userSeq : ∀ {user row}, server.users.get? user = some row →
    row.seq ≤ server.counter
  channelSeq : ∀ {channel row}, server.channels.get? channel = some row →
    row.seq ≤ server.counter
  membershipSeq : ∀ {key row}, server.memberships.get? key = some row →
    row.joinedSeq ≤ row.seq ∧ row.seq ≤ server.counter
  messageSeq : ∀ {id row}, server.messages.get? id = some row →
    row.seq ≤ server.counter
  tombstoneSeq : ∀ {tombstone}, tombstone ∈ server.tombstones →
    tombstone.seq ≤ server.counter
  memberChannel : ∀ {key row}, server.memberships.get? key = some row →
    ∃ channel, server.channels.get? key.1 = some channel ∧
      row.joinedSeq ≤ channel.seq
  memberUser : ∀ {key row}, server.memberships.get? key = some row →
    ∃ user, server.users.get? key.2 = some user
  messageChannel : ∀ {id row}, server.messages.get? id = some row →
    ∃ channel, server.channels.get? row.channelId = some channel
  /-- A tombstone is older than the membership that followed it. -/
  tombstoneBefore : ∀ {tombstone row}, tombstone ∈ server.tombstones →
    server.memberships.get? (tombstone.channelId, tombstone.userId) =
      some row → tombstone.seq < row.joinedSeq
  channelIds : ∀ {channel row}, server.channels.get? channel = some row →
    channel ∈ server.channelIds
  messageIds : ∀ {id row}, server.messages.get? id = some row →
    id ∈ server.messageIds

theorem wf_init : Wf init where
  counter := by decide
  floor := rfl
  userSeq h := by cases h
  channelSeq h := by cases h
  membershipSeq h := by cases h
  messageSeq h := by cases h
  tombstoneSeq h := by cases h
  memberChannel h := by cases h
  memberUser h := by cases h
  messageChannel h := by cases h
  tombstoneBefore h := by cases h
  channelIds h := by cases h
  messageIds h := by cases h

/-! The step: a committed transaction keeps the invariant. -/

section

variable {before after : Server}

theorem Committed.user_kept (committed : Committed before after)
    {user : UserId} {row : User}
    (stored : before.users.get? user = some row) :
    ∃ new, after.users.get? user = some new := by
  have change := committed.users user
  rw [stored] at change
  cases h : after.users.get? user with
  | none => rw [h] at change; cases change
  | some new => exact ⟨new, rfl⟩

theorem Committed.wf (committed : Committed before after)
    (wf : before.Wf) : after.Wf where
  counter := by
    have numbered := committed.counter
    have positive := wf.counter
    omega
  floor := committed.floor.trans wf.floor
  userSeq := by
    intro user row found
    have numbered := committed.counter
    have change := committed.users user
    rw [found] at change
    cases h : before.users.get? user with
    | none =>
        rw [h] at change
        cases change with
        | stamped seq => omega
    | some old =>
        rw [h] at change
        cases change with
        | same =>
            have bound := wf.userSeq h
            omega
        | stamped seq => omega
  channelSeq := by
    intro channel row found
    have numbered := committed.counter
    have change := committed.channels channel
    rw [found] at change
    cases h : before.channels.get? channel with
    | none =>
        rw [h] at change
        cases change with
        | stamped seq => omega
    | some old =>
        rw [h] at change
        cases change with
        | same =>
            have bound := wf.channelSeq h
            omega
        | stamped seq => omega
  membershipSeq := by
    intro key row found
    have numbered := committed.counter
    have change := committed.memberships key
    rw [found] at change
    cases h : before.memberships.get? key with
    | none =>
        rw [h] at change
        cases change with
        | joined seq joined => omega
    | some old =>
        have bound := wf.membershipSeq h
        rw [h] at change
        cases change with
        | same => omega
        | stamped seq joined => omega
  messageSeq := by
    intro id row found
    have numbered := committed.counter
    have change := committed.messages id
    rw [found] at change
    cases h : before.messages.get? id with
    | none =>
        rw [h] at change
        cases change with
        | created seq _ => omega
    | some old =>
        have bound := wf.messageSeq h
        rw [h] at change
        cases change with
        | same => omega
        | stamped seq _ _ => omega
  tombstoneSeq := by
    intro tombstone member
    have numbered := committed.counter
    rcases committed.tombstones_new member with old | ⟨seq, _⟩
    · have bound := wf.tombstoneSeq old
      omega
    · omega
  memberChannel := by
    intro key row found
    have change := committed.memberships key
    rw [found] at change
    cases h : before.memberships.get? key with
    | none =>
        obtain ⟨⟨channel, stored, seq⟩, _⟩ := committed.joined h found
        rw [h] at change
        cases change with
        | joined _ joined => exact ⟨channel, stored, by omega⟩
    | some old =>
        obtain ⟨channel, stored, bound⟩ := wf.memberChannel h
        have kept : row.joinedSeq = old.joinedSeq := by
          rw [h] at change
          cases change with
          | same => rfl
          | stamped _ joined => exact joined
        have channelChange := committed.channels key.1
        rw [stored] at channelChange
        cases now : after.channels.get? key.1 with
        | none =>
            have gone : after.memberships.get? key = none :=
              committed.deletedMemberships (by rw [stored]; simp) now
            rw [found] at gone
            cases gone
        | some new =>
            rw [now] at channelChange
            have channelSeq := wf.channelSeq stored
            have numbered := committed.counter
            cases channelChange with
            | same => exact ⟨_, rfl, by omega⟩
            | stamped seq => exact ⟨new, rfl, by omega⟩
  memberUser := by
    intro key row found
    cases h : before.memberships.get? key with
    | none => exact (committed.joined h found).2
    | some old =>
        obtain ⟨user, stored⟩ := wf.memberUser h
        exact committed.user_kept stored
  messageChannel := by
    intro id row found
    have present : ∃ channel,
        before.channels.get? row.channelId = some channel := by
      have change := committed.messages id
      rw [found] at change
      cases h : before.messages.get? id with
      | none =>
          exact Option.ne_none_iff_exists'.mp
            (committed.messageChannel h found)
      | some old =>
          rw [h] at change
          cases change with
          | same => exact wf.messageChannel h
          | stamped _ channel _ =>
              rw [channel]
              exact wf.messageChannel h
    obtain ⟨channel, stored⟩ := present
    cases now : after.channels.get? row.channelId with
    | some new => exact ⟨new, rfl⟩
    | none =>
        exact (committed.deletedMessages (by rw [stored]; simp) now found
          rfl).elim
  tombstoneBefore := by
    intro tombstone row member found
    have numbered := committed.counter
    rcases committed.tombstones_new member with old | ⟨_, gone⟩
    · have change := committed.memberships
        (tombstone.channelId, tombstone.userId)
      have bound := wf.tombstoneSeq old
      rw [found] at change
      cases h : before.memberships.get?
          (tombstone.channelId, tombstone.userId) with
      | none =>
          rw [h] at change
          cases change with
          | joined _ joined => omega
      | some stored =>
          have earlier := wf.tombstoneBefore old h
          rw [h] at change
          cases change with
          | same => exact earlier
          | stamped _ joined => omega
    · rw [found] at gone
      cases gone
  channelIds := by
    intro channel row found
    cases h : before.channels.get? channel with
    | none => exact committed.channelIds_stored found h
    | some old => exact committed.channelIds (wf.channelIds h)
  messageIds := by
    intro id row found
    cases h : before.messages.get? id with
    | none => exact committed.messageIds_stored found h
    | some old => exact committed.messageIds (wf.messageIds h)

end

/-! Every route leaves a valid session. -/

section

variable {server : Server}

theorem isAdmin_stored {user : UserId} (admin : server.isAdmin user = true) :
    ∃ row, server.users.get? user = some row := by
  unfold isAdmin at admin
  cases h : server.users.get? user with
  | none => simp [h] at admin
  | some row => exact ⟨row, rfl⟩

theorem userByHandle_stored {handle : Text} {user : UserId}
    (found : server.userByHandle handle = some user) :
    ∃ row, server.users.get? user = some row := by
  unfold userByHandle at found
  obtain ⟨⟨key, row⟩, first, equality⟩ := Option.map_eq_some_iff.mp found
  have member := List.mem_of_find?_eq_some first
  cases equality
  exact ⟨row, Table.mem_rows.mp member⟩

theorem Wf.unjoined (wf : server.Wf) {channel : ChannelId}
    (fresh : channel ∉ server.channelIds) (user : UserId) :
    server.memberships.get? (channel, user) = none := by
  cases h : server.memberships.get? (channel, user) with
  | none => rfl
  | some row =>
      obtain ⟨_, stored, _⟩ := wf.memberChannel h
      exact (fresh (wf.channelIds stored)).elim

namespace Changes

theorem valid_of_users (users : List (UserId × User)) :
    Valid { users := users } server := by
  constructor <;> simp

theorem valid_of_channels (channels : List (ChannelId × Channel))
    (dead : List ChannelId) :
    Valid { channels := channels, deadChannels := dead } server := by
  constructor <;> simp

theorem valid_of_offers
    (offers : List ((ChannelId × UserId) × UserId))
    (dead : List (ChannelId × UserId)) :
    Valid { newOffers := offers, deadOffers := dead } server := by
  constructor <;> simp

theorem valid_of_ended (dead : List (ChannelId × UserId))
    {key : ChannelId × UserId} {row : Membership}
    (stored : server.memberships.get? key = some row) :
    Valid { deadOffers := dead, ended := [key] } server := by
  constructor <;> simp [stored]

theorem valid_of_modified (dead : List (ChannelId × UserId))
    {memberships : List ((ChannelId × UserId) × Membership)}
    (modified : ∀ {key row}, (key, row) ∈ memberships →
      ∃ old, server.memberships.get? key = some old ∧
        row.joinedSeq = old.joinedSeq) :
    Valid { memberships := memberships, deadOffers := dead } server := by
  constructor
  case modified => exact modified
  all_goals simp

theorem valid_of_created (wf : server.Wf) {channel : ChannelId}
    {row : Channel} (fresh : channel ∉ server.channelIds)
    {joined : List ((ChannelId × UserId) × Membership)}
    (here : ∀ {key membership}, (key, membership) ∈ joined →
      key.1 = channel ∧ ∃ user, server.users.get? key.2 = some user) :
    Valid { channels := [(channel, row)], joined := joined } server := by
  constructor
  case joined_new =>
    intro key membership member
    obtain ⟨key, user⟩ := key
    obtain ⟨rfl, _⟩ := here member
    exact wf.unjoined fresh user
  case joined_channel =>
    intro key membership member
    obtain ⟨same, _⟩ := here member
    exact Or.inr ⟨row, by simp [same]⟩
  case joined_user =>
    intro key membership member
    exact (here member).2
  all_goals simp

theorem valid_of_joining {channel : ChannelId} {user : UserId}
    {row : Channel} {profile : User}
    (stored : server.channels.get? channel = some row)
    (known : server.users.get? user = some profile) :
    Valid (server.joining channel user) server := by
  unfold joining
  split
  · constructor <;> simp
  · rename_i absent
    rw [isMember_iff] at absent
    constructor
    case joined_new =>
      intro key membership member
      simp only [List.mem_singleton, Prod.mk.injEq] at member
      rw [member.1]
      exact Option.eq_none_iff_forall_ne_some.mpr fun old found =>
        absent ⟨old, found⟩
    case joined_channel =>
      intro key membership member
      simp only [List.mem_singleton, Prod.mk.injEq] at member
      rw [member.1]
      exact Or.inl ⟨row, stored⟩
    case joined_user =>
      intro key membership member
      simp only [List.mem_singleton, Prod.mk.injEq] at member
      rw [member.1]
      exact ⟨profile, known⟩
    all_goals simp

theorem valid_of_changed_message {id : MessageId} {old new : Message}
    (stored : server.messages.get? id = some old)
    (channel : new.channelId = old.channelId) (live : old.deleted = false) :
    Valid { messages := [(id, new)] } server := by
  constructor
  case message_kept =>
    intro other row before member found
    simp only [List.mem_singleton, Prod.mk.injEq] at member
    obtain ⟨rfl, rfl⟩ := member
    rw [stored] at found
    cases found
    exact ⟨channel.symm, live⟩
  case message_new =>
    intro other row member absent
    simp only [List.mem_singleton, Prod.mk.injEq] at member
    rw [member.1, stored] at absent
    cases absent
  all_goals simp

theorem valid_of_touched {id : MessageId} {old : Message}
    (stored : server.messages.get? id = some old)
    (live : old.deleted = false) :
    Valid { touched := [id] } server := by
  constructor
  case touched_live =>
    intro other row member found
    simp only [List.mem_singleton] at member
    rw [member, stored] at found
    cases found
    exact live
  all_goals simp

end Changes

theorem mem_readUpTo {channel : ChannelId} {user : UserId}
    {target : MessageId} {key : ChannelId × UserId} {row : Membership}
    (member : (key, row) ∈ server.readUpTo channel user target) :
    ∃ old, server.memberships.get? key = some old ∧
      row.joinedSeq = old.joinedSeq := by
  unfold readUpTo at member
  cases h : server.memberships.get? (channel, user) with
  | none => simp [h] at member
  | some old =>
      simp only [h] at member
      split at member
      · simp only [List.mem_singleton, Prod.mk.injEq] at member
        obtain ⟨rfl, rfl⟩ := member
        exact ⟨old, h, rfl⟩
      · cases member

theorem Changes.valid_of_sent (wf : server.Wf) {channel : ChannelId}
    {user : UserId} {id : MessageId} {row : Channel} {sent : Message}
    (fresh : id ∉ server.messageIds)
    (stored : server.channels.get? channel = some row)
    (here : sent.channelId = channel) :
    Changes.Valid
      { messages := [(id, sent)]
        memberships := server.readUpTo channel user id } server := by
  constructor
  case modified => exact mem_readUpTo
  case message_kept =>
    intro other message old member found
    simp only [List.mem_singleton, Prod.mk.injEq] at member
    rw [member.1] at found
    exact (fresh (wf.messageIds found)).elim
  case message_new =>
    intro other message member _
    simp only [List.mem_singleton, Prod.mk.injEq] at member
    obtain ⟨rfl, rfl⟩ := member
    exact ⟨fresh, row, by rw [here, stored]⟩
  all_goals simp

theorem liveMessage_stored {actor : UserId} {channel : ChannelId}
    {id : MessageId} {message : Message}
    (found : server.liveMessage actor channel id = .ok message) :
    server.messages.get? id = some message ∧ message.deleted = false := by
  unfold liveMessage at found
  split at found
  · cases found
  · split at found
    · cases found
    · rename_i stored
      split at found
      · cases found
      · rename_i live
        cases found
        simp only [ne_eq, Bool.or_eq_true, decide_eq_true_eq, not_or,
          Bool.not_eq_true] at live
        exact ⟨stored, live.2⟩

end

/-! The routes, one by one. -/

section

variable {server : Server} {changes : Changes}

theorem createChannel_valid (wf : server.Wf) {actor : UserId}
    {channel : ChannelId} {name : Text} {topic : Option Text}
    {isPublic : Bool} (fresh : channel ∉ server.channelIds)
    (answered : server.createChannel actor channel name topic isPublic =
      .ok changes) :
    changes.Valid server := by
  unfold createChannel at answered
  split at answered
  · cases answered
  · rename_i admin
    split at answered
    · cases answered
    · cases answered
      refine Changes.valid_of_created wf fresh ?_
      intro key membership member
      simp only [List.mem_singleton, Prod.mk.injEq] at member
      rw [member.1]
      exact ⟨rfl, isAdmin_stored (by simpa using admin)⟩

theorem openDm_valid (wf : server.Wf) {actor : UserId}
    {channel : ChannelId} {handle : Text}
    (fresh : channel ∉ server.channelIds)
    (answered : server.openDm actor channel handle = .ok changes) :
    changes.Valid server := by
  unfold openDm at answered
  split at answered
  · rename_i row other stored found
    split at answered
    · cases answered
    · split at answered
      · cases answered
        constructor <;> simp
      · cases answered
        refine Changes.valid_of_created wf fresh ?_
        intro key membership member
        simp only [List.mem_cons, Prod.mk.injEq, List.not_mem_nil,
          or_false] at member
        rcases member with ⟨rfl, _⟩ | ⟨rfl, _⟩
        · exact ⟨rfl, row, stored⟩
        · exact ⟨rfl, userByHandle_stored found⟩
  · cases answered

theorem addMember_valid {actor : UserId} {channel : ChannelId}
    {handle : Text}
    (answered : server.addMember actor channel handle = .ok changes) :
    changes.Valid server := by
  unfold addMember at answered
  split at answered
  · cases answered
  · rename_i row stored
    split at answered
    · cases answered
    · split at answered
      · cases answered
      · split at answered
        · cases answered
        · rename_i target found
          cases answered
          obtain ⟨profile, known⟩ := userByHandle_stored found
          exact Changes.valid_of_joining stored known

theorem joinChannel_valid {actor : UserId} {channel : ChannelId}
    (answered : server.joinChannel actor channel = .ok changes) :
    changes.Valid server := by
  unfold joinChannel at answered
  split at answered
  · rename_i row profile stored known
    split at answered
    · cases answered
    · cases answered
      exact Changes.valid_of_joining stored known
  · cases answered

theorem removeMember_valid {actor user : UserId} {channel : ChannelId}
    (answered : server.removeMember actor channel user = .ok changes) :
    changes.Valid server := by
  unfold removeMember at answered
  split at answered
  · cases answered
  · simp only at answered
    repeat' split at answered
    all_goals first
      | cases answered
        apply Changes.valid_of_ended
        assumption
      | cases answered

theorem acceptOwnership_valid {actor : UserId} {channel : ChannelId}
    (answered : server.acceptOwnership actor channel = .ok changes) :
    changes.Valid server := by
  unfold acceptOwnership at answered
  split at answered
  · cases answered
  · split at answered
    · cases answered
    · split at answered
      · cases answered
      · rename_i row stored
        cases answered
        refine Changes.valid_of_modified _ ?_
        intro key membership member
        simp only [List.mem_singleton, Prod.mk.injEq] at member
        obtain ⟨rfl, rfl⟩ := member
        exact ⟨row, stored, rfl⟩

theorem sendMessage_valid (wf : server.Wf) {actor : UserId}
    {channel : ChannelId} {id : MessageId} {now : Nat} {body : Text}
    {replyTo : Option MessageId} {clientId : Option ClientId}
    {attachments : List FileId} {tokens : List Text}
    (fresh : id ∉ server.messageIds)
    (answered : server.sendMessage actor channel id now body replyTo clientId
      attachments tokens = .ok changes) :
    changes.Valid server := by
  unfold sendMessage at answered
  split at answered
  · cases answered
  · split at answered
    · cases answered
    · rename_i row stored
      split at answered
      · cases answered
      · split at answered
        · cases answered
        · split at answered
          · split at answered
            · cases answered
              constructor <;> simp
            · cases answered
          · split at answered
            · cases answered
            · split at answered
              · cases answered
              · cases answered
                exact Changes.valid_of_sent wf fresh stored rfl

theorem editMessage_valid {actor : UserId} {channel : ChannelId}
    {id : MessageId} {body : Text}
    (answered : server.editMessage actor channel id body = .ok changes) :
    changes.Valid server := by
  unfold editMessage at answered
  split at answered
  · cases answered
  · rename_i message found
    obtain ⟨stored, live⟩ := liveMessage_stored found
    split at answered
    · cases answered
    · split at answered
      · cases answered
      · cases answered
        exact Changes.valid_of_changed_message stored rfl live

theorem deleteMessage_valid {actor : UserId} {channel : ChannelId}
    {id : MessageId}
    (answered : server.deleteMessage actor channel id = .ok changes) :
    changes.Valid server := by
  unfold deleteMessage at answered
  split at answered
  · cases answered
  · rename_i message found
    obtain ⟨stored, live⟩ := liveMessage_stored found
    split at answered
    · cases answered
    · cases answered
      exact Changes.valid_of_changed_message stored rfl live

theorem deleteFile_valid {actor : UserId} {file : FileId}
    (answered : server.deleteFile actor file = .ok changes) :
    changes.Valid server := by
  unfold deleteFile at answered
  split at answered
  · cases answered
  · rename_i id message found
    have member := List.mem_of_find?_eq_some found
    have listed := List.find?_some found
    simp only [Bool.and_eq_true, Bool.not_eq_true'] at listed
    split at answered
    · cases answered
    · split at answered
      · cases answered
      · cases answered
        exact Changes.valid_of_changed_message (Table.mem_rows.mp member)
          rfl listed.2

theorem markRead_valid {actor : UserId} {channel : ChannelId}
    {target : Option MessageId}
    (answered : server.markRead actor channel target = .ok changes) :
    changes.Valid server := by
  unfold markRead at answered
  split at answered
  · cases answered
  · split at answered
    · split at answered
      · cases answered
        constructor <;> simp
      · cases answered
        exact Changes.valid_of_modified [] mem_readUpTo
    · split at answered
      · cases answered
        exact Changes.valid_of_modified [] mem_readUpTo
      · cases answered

theorem route_valid (wf : server.Wf) {request : Request}
    (fresh : request.fresh server = true)
    (answered : request.route server = .ok changes) :
    changes.Valid server := by
  cases request with
  | register actor user handle displayName =>
      simp only [Request.route, register] at answered
      split at answered
      · cases answered
      · split at answered
        · cases answered
        · cases answered
          exact Changes.valid_of_users _
  | updateMe actor displayName statusText =>
      simp only [Request.route, updateMe] at answered
      split at answered
      · cases answered
      · split at answered
        · cases answered
          exact Changes.valid_of_users []
        · cases answered
          exact Changes.valid_of_users _
  | createChannel actor channel name topic isPublic =>
      exact createChannel_valid wf (by simpa [Request.fresh] using fresh)
        answered
  | openDm actor channel handle =>
      exact openDm_valid wf (by simpa [Request.fresh] using fresh) answered
  | addMember actor channel handle => exact addMember_valid answered
  | joinChannel actor channel => exact joinChannel_valid answered
  | removeMember actor channel user => exact removeMember_valid answered
  | offerOwnership actor channel handle =>
      simp only [Request.route, offerOwnership] at answered
      repeat' split at answered
      all_goals cases answered
      · exact Changes.valid_of_offers [] []
      · exact Changes.valid_of_offers _ []
  | withdrawOwnershipOffer actor channel user =>
      simp only [Request.route, withdrawOwnershipOffer] at answered
      repeat' split at answered
      all_goals cases answered
      exact Changes.valid_of_offers [] _
  | acceptOwnership actor channel => exact acceptOwnership_valid answered
  | declineOwnership actor channel =>
      simp only [Request.route, declineOwnership] at answered
      repeat' split at answered
      all_goals cases answered
      exact Changes.valid_of_offers [] _
  | updateChannel actor channel name topic archived =>
      simp only [Request.route, updateChannel] at answered
      repeat' split at answered
      all_goals cases answered
      · exact Changes.valid_of_channels [] []
      · exact Changes.valid_of_channels _ []
  | deleteChannel actor channel =>
      simp only [Request.route, deleteChannel] at answered
      split at answered
      · cases answered
      · cases answered
        exact Changes.valid_of_channels [] _
  | sendMessage actor channel id now body replyTo clientId attachments
      tokens =>
      exact sendMessage_valid wf (by simpa [Request.fresh] using fresh)
        answered
  | editMessage actor channel id body => exact editMessage_valid answered
  | deleteMessage actor channel id => exact deleteMessage_valid answered
  | toggleReaction actor channel id =>
      simp only [Request.route, toggleReaction] at answered
      split at answered
      · cases answered
      · rename_i message found
        obtain ⟨stored, live⟩ := liveMessage_stored found
        cases answered
        exact Changes.valid_of_touched stored live
  | deleteFile actor file => exact deleteFile_valid answered
  | markRead actor channel target => exact markRead_valid answered

end

/-- What a request does to the database: nothing, or one transaction. -/
theorem handle_cases {before after : Server} (wf : before.Wf)
    {request : Request} (handled : before.handle request = some after) :
    after = before ∨ Committed before after := by
  unfold handle at handled
  split at handled
  · rename_i fresh
    split at handled
    · cases handled
    · rename_i changes answered
      cases handled
      cases stamped : changes.isEmpty with
      | true => exact Or.inl (commit_of_isEmpty stamped)
      | false =>
          exact Or.inr (commit_committed stamped
            (route_valid wf fresh answered))
  · cases handled

theorem mem_joining {channel : ChannelId} {user : UserId}
    {key : ChannelId × UserId} {row : Membership} {server : Server}
    (member : (key, row) ∈ (server.joining channel user).joined) :
    key = (channel, user) := by
  unfold joining at member
  split at member
  · cases member
  · simp only [List.mem_singleton, Prod.mk.injEq] at member
    exact member.1

/-- The rows that a route adds are those of the users it is about. -/
theorem adds_of_joined {server : Server} {changes : Changes}
    {request : Request} (answered : request.route server = .ok changes)
    {channel : ChannelId} {user : UserId} {row : Membership}
    (member : ((channel, user), row) ∈ changes.joined) :
    request.adds server channel user = true := by
  cases request with
  | createChannel actor id name topic isPublic =>
      simp only [Request.route, createChannel] at answered
      repeat' split at answered
      all_goals cases answered
      simp only [List.mem_singleton, Prod.mk.injEq] at member
      simp [Request.adds, member]
  | openDm actor id handle =>
      simp only [Request.route, openDm] at answered
      repeat' split at answered
      all_goals cases answered
      · cases member
      · simp only [List.mem_cons, Prod.mk.injEq, List.not_mem_nil,
          or_false] at member
        rcases member with ⟨⟨rfl, rfl⟩, _⟩ | ⟨⟨rfl, rfl⟩, _⟩
        · simp [Request.adds]
        · simp_all [Request.adds]
  | addMember actor id handle =>
      simp only [Request.route, addMember] at answered
      repeat' split at answered
      all_goals cases answered
      rename_i named
      cases mem_joining member
      simp [Request.adds, named]
  | joinChannel actor id =>
      simp only [Request.route, joinChannel] at answered
      repeat' split at answered
      all_goals cases answered
      cases mem_joining member
      simp [Request.adds]
  | _ =>
      simp only [Request.route, register, updateMe, removeMember,
        offerOwnership, withdrawOwnershipOffer, acceptOwnership,
        declineOwnership, updateChannel, deleteChannel, sendMessage,
        editMessage, deleteMessage, toggleReaction, deleteFile,
        markRead] at answered
      repeat' split at answered
      all_goals cases answered
      all_goals cases member

theorem handle_adds {before after : Server} (wf : before.Wf)
    {request : Request} (handled : before.handle request = some after)
    {channel : ChannelId} {user : UserId} {row : Membership}
    (absent : before.memberships.get? (channel, user) = none)
    (found : after.memberships.get? (channel, user) = some row) :
    request.adds before channel user = true := by
  unfold handle at handled
  split at handled
  · rename_i fresh
    split at handled
    · cases handled
    · rename_i changes answered
      cases handled
      cases stamped : changes.isEmpty with
      | true =>
          rw [commit_of_isEmpty stamped, absent] at found
          cases found
      | false =>
          obtain ⟨_, joined⟩ := joined_of_commit stamped
            (route_valid wf fresh answered) absent found
          exact adds_of_joined answered joined
  · cases handled

theorem handle_wf {before after : Server} (wf : before.Wf)
    {request : Request} (handled : before.handle request = some after) :
    after.Wf := by
  rcases handle_cases wf handled with rfl | committed
  · exact wf
  · exact committed.wf wf

end Server

end Brook
