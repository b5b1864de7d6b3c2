import Brook.Cache.Commit
import Brook.Server.Invariant
import Brook.Sync.Delivery

namespace Brook

/-- What ties any synced cache to the server it was filled from. -/
structure Grounded (me : UserId) (server : Server) (cache : Cache) :
    Prop where
  cursor_nonneg : 0 ≤ cache.cursor
  cursor_le : cache.cursor ≤ server.counter
  fenced : cache.Fenced me
  /-- Before the first page there is nothing. -/
  blankChannels : cache.cursor = 0 →
    ∀ channel, cache.channels.get? channel = none
  blankMemberships : cache.cursor = 0 →
    ∀ key, cache.memberships.get? key = none
  floor : ∀ {channel removal}, cache.removed.get? channel = some removal →
    removal.seq ≤ cache.cursor
  membershipSeq : ∀ {key row}, cache.memberships.get? key = some row →
    row.seq ≤ server.counter
  /-- A cached channel that the caller is out of has its removal ahead. -/
  outside : ∀ {channel row},
    server.memberships.get? (channel, me) = none →
    cache.channels.get? channel = some row →
    ∃ seq, ⟨channel, me, seq⟩ ∈ server.tombstones ∧ cache.cursor < seq ∧
      ∀ {own}, cache.memberships.get? (channel, me) = some own →
        own.seq < seq

namespace Grounded

theorem empty (me : UserId) {server : Server} (wf : server.Wf)
    (generation : Nat) :
    Grounded me server { Cache.empty with generation := generation } where
  cursor_nonneg := Int.le_refl 0
  cursor_le := by
    have positive := wf.counter
    simp only [Cache.empty]
    omega
  fenced _ active := (active rfl).elim
  blankChannels _ _ := rfl
  blankMemberships _ _ := rfl
  floor h := by cases h
  membershipSeq h := by cases h
  outside _ h := by cases h

section

variable {me : UserId} {before after : Server} {cache : Cache}

/-- A request leaves the cache where it was, and the server ahead of it. -/
theorem serve (grounded : Grounded me before cache)
    (committed : Server.Committed before after) :
    Grounded me after cache where
  cursor_nonneg := grounded.cursor_nonneg
  cursor_le := by
    have numbered := committed.counter
    have known := grounded.cursor_le
    omega
  fenced := grounded.fenced
  blankChannels := grounded.blankChannels
  blankMemberships := grounded.blankMemberships
  floor := grounded.floor
  membershipSeq := by
    intro key row found
    have numbered := committed.counter
    have bound := grounded.membershipSeq found
    omega
  outside := by
    intro channel row out found
    have change := committed.memberships (channel, me)
    rw [out] at change
    cases h : before.memberships.get? (channel, me) with
    | none =>
        obtain ⟨seq, member, ahead, own⟩ := grounded.outside h found
        exact ⟨seq, committed.tombstones member, ahead, own⟩
    | some old =>
        rw [h] at change
        have numbered := committed.counter
        have known := grounded.cursor_le
        cases change with
        | ended member =>
            refine ⟨after.counter, member, by omega, ?_⟩
            intro own stored
            have bound := grounded.membershipSeq stored
            omega

end

section

variable {me : UserId} {server : Server} {cache : Cache} {page : Page}

theorem cursor_pos_of_channel (grounded : Grounded me server cache)
    {channel : ChannelId} {row : CachedChannel}
    (found : cache.channels.get? channel = some row) :
    cache.cursor ≠ 0 := by
  intro zero
  rw [grounded.blankChannels zero] at found
  cases found

theorem ownStage_outside
    (delivers : Delivers server me cache.cursor page) {channel : ChannelId}
    (out : server.isMember channel me = false) :
    Cache.KeepsChannel cache
      (Cache.ownStage me cache (Cache.batchOf page)) channel := by
  refine Cache.ownStage_keeps me cache ?_
  intro row member _ here
  obtain ⟨_, _, _, _, inside⟩ := delivers.member_of member
  rw [here, out] at inside
  cases inside

/-- A page has nothing of a channel that the caller is out of, unless a
removal: then the channel goes, and otherwise it stays as it was. -/
theorem settled_outside
    (delivers : Delivers server me cache.cursor page) {channel : ChannelId}
    (out : server.isMember channel me = false) :
    Cache.KeepsChannel cache (cache.settled me page) channel ∨
      ∃ seq, (channel, seq) ∈ page.removedChannels ∧
        Cache.DropsChannel (cache.settled me page) channel seq := by
  have keeps := ownStage_outside delivers out
  rcases Cache.removalStage_cases me
      (Cache.ownStage me cache (Cache.batchOf page)) (Cache.batchOf page)
      channel with later | ⟨seq, listed, drops⟩
  · exact Or.inl (keeps.trans later)
  · exact Or.inr ⟨seq, listed, drops⟩

/-- No removal of a page concerns a channel that the caller is in. -/
theorem settled_inside
    (delivers : Delivers server me cache.cursor page) {channel : ChannelId}
    (inside : server.isMember channel me = true) :
    Cache.KeepsChannel (Cache.ownStage me cache (Cache.batchOf page))
      (cache.settled me page) channel := by
  rcases Cache.removalStage_cases me
      (Cache.ownStage me cache (Cache.batchOf page)) (Cache.batchOf page)
      channel with keeps | ⟨seq, listed, _⟩
  · exact keeps
  · have out := (delivers.removed_of listed).2.2
    rw [inside] at out
    cases out

theorem settled_floor (grounded : Grounded me server cache)
    (delivers : Delivers server me cache.cursor page) {channel : ChannelId}
    {removal : Removal}
    (found : (cache.settled me page).removed.get? channel = some removal) :
    removal.seq ≤ page.next := by
  have ahead := delivers.next_ge
  have floor : ∀ {before : Cache},
      before.floorOf channel = cache.floorOf channel →
      before.removed.get? channel = some removal →
      removal.seq ≤ page.next := by
    intro before same stored
    simp only [Cache.floorOf, stored, Option.map_some] at same
    cases h : cache.removed.get? channel with
    | none => simp [h] at same
    | some old =>
        have bound := grounded.floor h
        simp only [h, Option.map_some, Option.some.injEq] at same
        omega
  rcases Cache.removalStage_cases me
      (Cache.ownStage me cache (Cache.batchOf page)) (Cache.batchOf page)
      channel with keeps | ⟨seq, listed, drops⟩
  · refine floor (Cache.floorOf_ownStage me cache (Cache.batchOf page)
      channel) ?_
    rw [← keeps.removed]
    exact found
  · have window := (delivers.removed_of listed).2.1
    rw [Cache.settled, drops.removed] at found
    cases found
    exact window.2

/-- Where a cached channel comes from. -/
theorem settledChannels_outside
    (delivers : Delivers server me cache.cursor page) {channel : ChannelId}
    (out : server.isMember channel me = false) :
    (cache.settledChannels me page).get? channel =
      (cache.settled me page).channels.get? channel := by
  unfold Cache.settledChannels
  refine Table.get?_upsertAll_of_not_mem ?_
  intro row member
  obtain ⟨sent, listed, equality⟩ := List.mem_map.mp member
  cases equality
  obtain ⟨_, _, _, inside⟩ :=
    delivers.channel_of (List.mem_filter.mp listed).1
  rw [out] at inside
  cases inside

/-- The caller's own membership changes only in the first stages. -/
theorem settledMembers_own
    (delivers : Delivers server me cache.cursor page) (channel : ChannelId) :
    (cache.settledMembers me page).get? (channel, me) =
      (cache.settled me page).memberships.get? (channel, me) := by
  unfold Cache.settledMembers
  rw [Table.get?_upsertAll_of_not_mem, Table.get?_upsertAll_of_not_mem]
  · intro row member
    obtain ⟨sent, listed, equality⟩ := List.mem_map.mp member
    have other := (List.mem_filter.mp (List.mem_filter.mp listed).1).2
    simp only [Cache.memberEntry, Prod.mk.injEq] at equality
    simp [equality.1.2] at other
  · intro row member
    obtain ⟨⟨_, _, _⟩, listed, equality⟩ := List.mem_map.mp member
    have other := (delivers.left_of listed).2.2.1
    simp only [Prod.mk.injEq] at equality
    exact other equality.1.2

theorem fenced_settled (grounded : Grounded me server cache) :
    (cache.settled me page).Fenced me := by
  intro channel active
  rcases Cache.removalStage_cases me
      (Cache.ownStage me cache (Cache.batchOf page)) (Cache.batchOf page)
      channel with keeps | ⟨_, _, drops⟩
  · rw [Cache.settled, keeps.fenceOf] at active
    rw [Cache.settled, keeps.memberships]
    exact grounded.fenced.ownStage channel active
  · exact drops.memberships me

/-- The removal ahead of a channel is either still ahead or takes it. -/
theorem settled_ahead (grounded : Grounded me server cache)
    (delivers : Delivers server me cache.cursor page) {channel : ChannelId}
    {row : CachedChannel}
    (out : server.memberships.get? (channel, me) = none)
    (found : (cache.settled me page).channels.get? channel = some row) :
    Cache.KeepsChannel cache (cache.settled me page) channel ∧
      ∃ seq, ⟨channel, me, seq⟩ ∈ server.tombstones ∧ page.next < seq ∧
        ∀ {own}, cache.memberships.get? (channel, me) = some own →
          own.seq < seq := by
  have notMember : server.isMember channel me = false := by
    simp [Server.isMember, Table.contains, out]
  rcases settled_outside delivers notMember with keeps | ⟨_, _, drops⟩
  · refine ⟨keeps, ?_⟩
    have stored := (keeps.channels).symm.trans found
    obtain ⟨seq, member, ahead, own⟩ := grounded.outside out stored
    refine ⟨seq, member, ?_, own⟩
    by_contra passed
    -- The page would bring the removal, and it would take the channel.
    have listed : (channel, seq) ∈ (Cache.batchOf page).removed :=
      delivers.removed_in (grounded.cursor_pos_of_channel stored)
        member ⟨ahead, by omega⟩ notMember
    have before := ownStage_outside delivers notMember
    obtain ⟨last, _, drops⟩ := Cache.removalStage_drops me
      (Cache.ownStage me cache (Cache.batchOf page)) listed
      (by
        rw [before.ownSeq]
        exact Cache.ownSeq_below me cache own)
      (by
        rw [before.floorOf]
        refine Cache.floorOf_below cache ?_
        intro removal stored
        have bound := grounded.floor stored
        omega)
    have gone := drops.channels
    rw [Cache.settled, gone] at found
    cases found
  · rw [drops.channels] at found
    cases found

/-- Committing a page keeps the cache tied to the server. -/
theorem land (wf : server.Wf) (grounded : Grounded me server cache)
    (delivers : Delivers server me cache.cursor page) :
    Grounded me server (cache.commitPage me page) := by
  obtain ⟨messages, coverage, committed, _⟩ :=
    Cache.commitPage_eq me cache page
  have positive := delivers.next_pos
  rw [committed]
  constructor
  case cursor_nonneg => exact Int.le_of_lt positive
  case cursor_le => exact delivers.next_le
  case fenced =>
    intro channel active
    dsimp only
    rw [settledMembers_own delivers]
    exact grounded.fenced_settled channel active
  case blankChannels =>
    intro zero
    dsimp only at zero
    omega
  case blankMemberships =>
    intro zero
    dsimp only at zero
    omega
  case floor =>
    intro channel removal found
    exact grounded.settled_floor delivers found
  case membershipSeq =>
    intro key row found
    have departed : ∀ {seq}, (key.1, key.2, seq) ∈ page.leftMembers →
        seq ≤ server.counter := by
      intro seq listed
      have window := (delivers.left_of listed).2.1
      have below := delivers.next_le
      omega
    refine Cache.settledMembers_induction me cache page
      (fun row => row.seq ≤ server.counter) ?_ ?_ ?_ ?_ found
    · intro old stored
      exact grounded.membershipSeq stored
    · intro sent member _
      obtain ⟨held, seen, seq, _⟩ := delivers.member_of member
      have bound := (wf.membershipSeq seen).2
      simp only [Cache.memberEntry]
      omega
    · intro seq listed
      exact departed listed
    · intro seq row listed _
      exact departed listed
  case outside =>
    intro channel row out found
    dsimp only at found
    have notMember : server.isMember channel me = false := by
      simp [Server.isMember, Table.contains, out]
    rw [settledChannels_outside delivers notMember] at found
    obtain ⟨keeps, seq, member, ahead, own⟩ :=
      grounded.settled_ahead delivers out found
    refine ⟨seq, member, ahead, ?_⟩
    intro held stored
    dsimp only at stored
    rw [settledMembers_own delivers, keeps.memberships] at stored
    exact own stored

end

end Grounded

end Brook
