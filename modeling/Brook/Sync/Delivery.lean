import Brook.Server.Invariant
import Brook.Sync.Page

namespace Brook

/-- What a client relies on in an answer to `/sync`: its rows are the server's,
and nothing of the window is left out.  Only the page from cursor 0 leaves out
messages and departures, which an empty cache has no use for. -/
structure Delivers (server : Server) (me : UserId) (cursor : Int)
    (page : Page) : Prop where
  next_pos : 0 < page.next
  next_ge : cursor ≤ page.next
  next_le : page.next ≤ server.counter
  caughtUp : page.more = false → page.next = server.counter
  channel_of : ∀ {row}, row ∈ page.channels →
    ∃ channel, server.channels.get? row.id = some channel ∧
      row.seq = channel.seq ∧ server.isMember row.id me = true
  channel_in : ∀ {id channel own}, server.channels.get? id = some channel →
    server.memberships.get? (id, me) = some own →
    (cursor < channel.seq ∧ channel.seq ≤ page.next) ∨
      (cursor < own.joinedSeq ∧ own.joinedSeq ≤ page.next) →
    ∃ row ∈ page.channels, row.id = id ∧ row.seq = channel.seq
  channel_all : cursor = 0 → ∀ {id channel},
    server.channels.get? id = some channel → server.isMember id me = true →
    ∃ row ∈ page.channels, row.id = id ∧ row.seq = channel.seq
  member_of : ∀ {row}, row ∈ page.memberships →
    ∃ membership, server.memberships.get? (row.channelId, row.userId) =
        some membership ∧
      row.seq = membership.seq ∧ row.json.role = membership.role ∧
      server.isMember row.channelId me = true
  member_in : ∀ {channel user membership own},
    server.memberships.get? (channel, user) = some membership →
    server.memberships.get? (channel, me) = some own →
    (cursor < membership.seq ∧ membership.seq ≤ page.next) ∨
      (cursor < own.joinedSeq ∧ own.joinedSeq ≤ page.next) →
    ∃ row ∈ page.memberships, row.channelId = channel ∧ row.userId = user ∧
      row.seq = membership.seq
  user_of : ∀ {row}, row ∈ page.users →
    ∃ user, server.users.get? row.id = some user ∧ row.seq = user.seq ∧
      row.json = user.profile
  user_in : ∀ {channel id membership own user},
    server.memberships.get? (channel, id) = some membership →
    server.memberships.get? (channel, me) = some own →
    server.users.get? id = some user →
    (cursor < user.seq ∧ user.seq ≤ page.next) ∨
      (cursor < own.joinedSeq ∧ own.joinedSeq ≤ page.next) →
    ∃ row ∈ page.users, row.id = id ∧ row.seq = user.seq
  removed_of : ∀ {channel seq}, (channel, seq) ∈ page.removedChannels →
    ⟨channel, me, seq⟩ ∈ server.tombstones ∧
      (cursor < seq ∧ seq ≤ page.next) ∧
      server.isMember channel me = false
  removed_in : cursor ≠ 0 → ∀ {channel seq},
    ⟨channel, me, seq⟩ ∈ server.tombstones →
    cursor < seq ∧ seq ≤ page.next →
    server.isMember channel me = false →
    (channel, seq) ∈ page.removedChannels
  left_of : ∀ {channel user seq},
    (channel, user, seq) ∈ page.leftMembers →
    ⟨channel, user, seq⟩ ∈ server.tombstones ∧
      (cursor < seq ∧ seq ≤ page.next) ∧ user ≠ me ∧
      server.isMember channel me = true
  left_in : cursor ≠ 0 → ∀ {channel user seq},
    ⟨channel, user, seq⟩ ∈ server.tombstones →
    cursor < seq ∧ seq ≤ page.next → user ≠ me →
    server.isMember channel me = true →
    (channel, user, seq) ∈ page.leftMembers
  message_of : ∀ {row}, row ∈ page.messages →
    ∃ message, server.messages.get? row.id = some message ∧
      row = server.messageOut row.id message ∧
      server.isMember message.channelId me = true ∧
      cursor < message.seq ∧ message.seq ≤ page.next
  message_in : cursor ≠ 0 → ∀ {id message},
    server.messages.get? id = some message →
    server.isMember message.channelId me = true →
    cursor < message.seq ∧ message.seq ≤ page.next →
    server.messageOut id message ∈ page.messages

namespace Server

section

variable {server : Server} {me : UserId} {cursor : Int}

theorem pageUpTo_delivers {upper : Int} {more : Bool}
    (positive : 0 < cursor) (above : cursor ≤ upper) (below : upper ≤ server.counter)
    (last : more = false → upper = server.counter) :
    Delivers server me cursor
      (server.pageUpTo me cursor upper more) where
  next_pos := Int.lt_of_lt_of_le positive above
  next_ge := above
  next_le := below
  caughtUp := last
  channel_of := by
    intro row member
    obtain ⟨id, channel, stored, rfl, here⟩ := mem_pageChannels.mp member
    refine ⟨channel, stored, rfl, ?_⟩
    rcases here with ⟨inside, _⟩ | new
    · exact inside
    · exact isMember_of_newToMe new
  channel_in := by
    intro id channel own stored inside window
    refine ⟨_, mem_pageChannels.mpr ⟨id, channel, stored, rfl, ?_⟩, rfl, rfl⟩
    rcases window with window | joined
    · exact Or.inl ⟨isMember_iff.mpr ⟨own, inside⟩, window⟩
    · exact Or.inr (newToMe_iff.mpr ⟨own, inside, joined⟩)
  channel_all zero := by omega
  member_of := by
    intro row member
    obtain ⟨key, membership, stored, rfl, here⟩ :=
      mem_pageMemberships.mp member
    refine ⟨membership, stored, rfl, rfl, ?_⟩
    rcases here with ⟨inside, _⟩ | new
    · exact inside
    · exact isMember_of_newToMe new
  member_in := by
    intro channel user membership own stored inside window
    refine ⟨_, mem_pageMemberships.mpr
      ⟨(channel, user), membership, stored, rfl, ?_⟩, rfl, rfl, rfl⟩
    rcases window with window | joined
    · exact Or.inl ⟨isMember_iff.mpr ⟨own, inside⟩, window⟩
    · exact Or.inr (newToMe_iff.mpr ⟨own, inside, joined⟩)
  user_of := by
    intro row member
    obtain ⟨id, user, stored, rfl, _⟩ := mem_pageUsers.mp member
    exact ⟨user, stored, rfl, rfl⟩
  user_in := by
    intro channel id membership own user stored inside known window
    refine ⟨_, mem_pageUsers.mpr ⟨id, user, known, rfl, ?_, ?_⟩, rfl, rfl⟩
    · exact sharesChannel_iff.mpr
        ⟨channel, membership, stored, isMember_iff.mpr ⟨own, inside⟩⟩
    · rcases window with window | joined
      · exact Or.inl window
      · exact Or.inr (newChannelMember_of stored
          (newToMe_iff.mpr ⟨own, inside, joined⟩))
  removed_of := mem_removedChannels.mp
  removed_in := by
    intro _ channel seq member window out
    exact mem_removedChannels.mpr ⟨member, window, out⟩
  left_of := mem_leftMembers.mp
  left_in := by
    intro _ channel user seq member window other inside
    exact mem_leftMembers.mpr ⟨member, window, other, inside⟩
  message_of := by
    intro row member
    obtain ⟨id, message, stored, rfl, inside, window⟩ :=
      mem_pageMessages.mp member
    exact ⟨message, stored, rfl, inside, window⟩
  message_in := by
    intro _ id message stored inside window
    exact mem_pageMessages.mpr ⟨id, message, stored, rfl, inside, window⟩

theorem stateOnly_delivers (wf : server.Wf) :
    Delivers server me 0 (server.stateOnly me) where
  next_pos := by
    have positive := wf.counter
    simp only [stateOnly]
    omega
  next_ge := by
    have positive := wf.counter
    simp only [stateOnly]
    omega
  next_le := Int.le_refl _
  caughtUp _ := rfl
  channel_of := by
    intro row member
    simp only [stateOnly, List.mem_map, List.mem_filter, Prod.exists,
      Table.mem_rows] at member
    obtain ⟨id, channel, ⟨stored, inside⟩, rfl⟩ := member
    exact ⟨channel, stored, rfl, inside⟩
  channel_in := by
    intro id channel own stored inside _
    refine ⟨server.channelOut id channel, ?_, rfl, rfl⟩
    simp only [stateOnly, List.mem_map, List.mem_filter, Prod.exists,
      Table.mem_rows]
    exact ⟨id, channel, ⟨stored, isMember_iff.mpr ⟨own, inside⟩⟩, rfl⟩
  channel_all _ := by
    intro id channel stored inside
    refine ⟨server.channelOut id channel, ?_, rfl, rfl⟩
    simp only [stateOnly, List.mem_map, List.mem_filter, Prod.exists,
      Table.mem_rows]
    exact ⟨id, channel, ⟨stored, inside⟩, rfl⟩
  member_of := by
    intro row member
    simp only [stateOnly, List.mem_map, List.mem_filter, Prod.exists,
      Table.mem_rows] at member
    obtain ⟨channel, user, membership, ⟨stored, inside⟩, rfl⟩ := member
    exact ⟨membership, stored, rfl, rfl, inside⟩
  member_in := by
    intro channel user membership own stored inside _
    refine ⟨membershipOut me (channel, user) membership, ?_, rfl, rfl, rfl⟩
    simp only [stateOnly, List.mem_map, List.mem_filter, Prod.exists,
      Table.mem_rows]
    exact ⟨channel, user, membership,
      ⟨stored, isMember_iff.mpr ⟨own, inside⟩⟩, rfl⟩
  user_of := by
    intro row member
    simp only [stateOnly, List.mem_map, List.mem_filter, Prod.exists,
      Table.mem_rows] at member
    obtain ⟨id, user, ⟨stored, _⟩, rfl⟩ := member
    exact ⟨user, stored, rfl, rfl⟩
  user_in := by
    intro channel id membership own user stored inside known _
    refine ⟨userOut id user, ?_, rfl, rfl⟩
    simp only [stateOnly, List.mem_map, List.mem_filter, Prod.exists,
      Table.mem_rows]
    exact ⟨id, user, ⟨known, sharesChannel_iff.mpr
      ⟨channel, membership, stored, isMember_iff.mpr ⟨own, inside⟩⟩⟩, rfl⟩
  removed_of := by
    intro channel seq member
    cases member
  removed_in h := (h rfl).elim
  left_of := by
    intro channel user seq member
    cases member
  left_in h := (h rfl).elim
  message_of := by
    intro row member
    cases member
  message_in h := (h rfl).elim

/-- Every page that `/sync` answers delivers its window. -/
theorem sync_delivers (wf : server.Wf) {limit : Nat} {page : Page}
    (nonneg : 0 ≤ cursor) (known : cursor ≤ server.counter)
    (answered : server.sync me cursor limit = .page page) :
    Delivers server me cursor page := by
  unfold sync at answered
  split at answered
  · cases answered
  · split at answered
    · rename_i zero
      cases answered
      rw [zero]
      exact stateOnly_delivers wf
    · rename_i nonzero
      cases answered
      obtain ⟨above, below⟩ := pageUpper_bounds known
      exact pageUpTo_delivers (by omega) above below pageUpper_of_not_more

/-- A cursor that the server gave is never reset. -/
theorem sync_page (wf : server.Wf) (nonneg : 0 ≤ cursor)
    (known : cursor ≤ server.counter) (limit : Nat) :
    ∃ page, server.sync me cursor limit = .page page := by
  unfold sync
  have floor := wf.floor
  rw [if_neg]
  · split <;> exact ⟨_, rfl⟩
  · simp only [Bool.or_eq_true, decide_eq_true_eq, Bool.and_eq_true,
      not_or, not_and]
    omega

end

end Server

end Brook
