import Brook.Sync.NoSkip

namespace Brook

/-! A caught-up cache holds the server's channels, members and profiles. -/

/-- A cached membership is the server's, or an older version of it. -/
structure Faithful (membership : Membership) (cached : CachedMembership) :
    Prop where
  seq_le : cached.seq ≤ membership.seq
  role : cached.left = false → cached.seq = membership.seq →
    cached.json.map (·.role) = some membership.role
  joined : cached.left = true → cached.seq < membership.joinedSeq

/-- The channels that the cache has heard all of: the caller joined at or
before the cursor. -/
def Heard (me : UserId) (server : Server) (cursor : Int)
    (channel : ChannelId) : Prop :=
  ∃ own, server.memberships.get? (channel, me) = some own ∧
    own.joinedSeq ≤ cursor

/-- A membership that ended, with its tombstone past the cursor. -/
def DepartureAhead (server : Server) (cursor : Int)
    (key : ChannelId × UserId) : Prop :=
  ∃ seq, ⟨key.1, key.2, seq⟩ ∈ server.tombstones ∧ cursor < seq

/-- The cached profile is as new as the server's. -/
def ProfileKnown (server : Server) (cache : Cache) (user : UserId) : Prop :=
  ∀ profile, server.users.get? user = some profile →
    profile.seq ≤ cache.cursor →
    ∃ kept, cache.users.get? user = some kept ∧ profile.seq ≤ kept.seq

structure Mirrored (me : UserId) (server : Server) (cache : Cache) :
    Prop where
  unfenced : ∀ {channel}, Heard me server cache.cursor channel →
    cache.fenceOf channel = none
  channelSeq : ∀ {channel row}, cache.channels.get? channel = some row →
    row.seq ≤ server.counter
  channelFaithful : ∀ {channel row stored},
    cache.channels.get? channel = some row →
    server.channels.get? channel = some stored → row.seq ≤ stored.seq
  channelKnown : ∀ {channel stored}, Heard me server cache.cursor channel →
    server.channels.get? channel = some stored →
    stored.seq ≤ cache.cursor →
    ∃ row, cache.channels.get? channel = some row ∧ stored.seq ≤ row.seq
  memberFaithful : ∀ {key kept membership},
    cache.memberships.get? key = some kept →
    server.memberships.get? key = some membership → Faithful membership kept
  memberKnown : ∀ {channel user membership},
    Heard me server cache.cursor channel →
    server.memberships.get? (channel, user) = some membership →
    membership.seq ≤ cache.cursor →
    ∃ kept, cache.memberships.get? (channel, user) = some kept ∧
      membership.seq ≤ kept.seq
  memberGone : ∀ {key kept}, cache.memberships.get? key = some kept →
    kept.left = false → server.memberships.get? key = none →
    ∃ seq, ⟨key.1, key.2, seq⟩ ∈ server.tombstones ∧ kept.seq < seq ∧
      (server.isMember key.1 me = true → cache.cursor < seq)
  userSeq : ∀ {user kept}, cache.users.get? user = some kept →
    kept.seq ≤ server.counter
  userFaithful : ∀ {user kept profile},
    cache.users.get? user = some kept →
    server.users.get? user = some profile →
    kept.seq ≤ profile.seq ∧
      (kept.seq = profile.seq → kept.json = profile.profile)
  userKnown : ∀ {channel user membership},
    Heard me server cache.cursor channel →
    server.memberships.get? (channel, user) = some membership →
    ProfileKnown server cache user

namespace Mirrored

theorem empty (me : UserId) {server : Server} (generation : Nat)
    (alone : ∀ key, server.memberships.get? key = none) :
    Mirrored me server { Cache.empty with generation := generation } where
  unfenced _ := rfl
  channelSeq h := by cases h
  channelFaithful h := by cases h
  channelKnown heard := by
    obtain ⟨own, stored, _⟩ := heard
    rw [alone] at stored
    cases stored
  memberFaithful h := by cases h
  memberKnown _ stored := by
    rw [alone] at stored
    cases stored
  memberGone h := by cases h
  userSeq h := by cases h
  userFaithful h := by cases h
  userKnown _ stored := by
    rw [alone] at stored
    cases stored

/-! The step of a request. -/

section

variable {me : UserId} {before after : Server} {cache : Cache}

/-- A channel that is heard after a request was heard before it: a new
membership is numbered past the cursor. -/
theorem heard_before (committed : Server.Committed before after)
    {cursor : Int} (known : cursor ≤ before.counter) {channel : ChannelId}
    (heard : Heard me after cursor channel) :
    Heard me before cursor channel := by
  obtain ⟨own, stored, joined⟩ := heard
  have numbered := committed.counter
  have change := committed.memberships (channel, me)
  rw [stored] at change
  cases h : before.memberships.get? (channel, me) with
  | none =>
      rw [h] at change
      cases change with
      | joined _ later => omega
  | some old =>
      rw [h] at change
      cases change with
      | same => exact ⟨own, h, joined⟩
      | stamped _ kept => exact ⟨old, h, by omega⟩

theorem membership_before (committed : Server.Committed before after)
    {cursor : Int} (known : cursor ≤ before.counter)
    {key : ChannelId × UserId} {membership : Membership}
    (stored : after.memberships.get? key = some membership)
    (passed : membership.seq ≤ cursor) :
    before.memberships.get? key = some membership := by
  have numbered := committed.counter
  have change := committed.memberships key
  rw [stored] at change
  cases h : before.memberships.get? key with
  | none =>
      rw [h] at change
      cases change with
      | joined later _ => omega
  | some old =>
      rw [h] at change
      cases change with
      | same => rfl
      | stamped later _ => omega

theorem channel_before (committed : Server.Committed before after)
    {cursor : Int} (known : cursor ≤ before.counter) {channel : ChannelId}
    {row : Channel} (stored : after.channels.get? channel = some row)
    (passed : row.seq ≤ cursor) :
    before.channels.get? channel = some row := by
  have numbered := committed.counter
  have change := committed.channels channel
  rw [stored] at change
  cases h : before.channels.get? channel with
  | none =>
      rw [h] at change
      cases change with
      | stamped later => omega
  | some old =>
      rw [h] at change
      cases change with
      | same => rfl
      | stamped later => omega

theorem user_before (committed : Server.Committed before after)
    {cursor : Int} (known : cursor ≤ before.counter) {user : UserId}
    {row : User} (stored : after.users.get? user = some row)
    (passed : row.seq ≤ cursor) :
    before.users.get? user = some row := by
  have numbered := committed.counter
  have change := committed.users user
  rw [stored] at change
  cases h : before.users.get? user with
  | none =>
      rw [h] at change
      cases change with
      | stamped later => omega
  | some old =>
      rw [h] at change
      cases change with
      | same => rfl
      | stamped later => omega

theorem memberFaithful_serve (grounded : Grounded me before cache)
    (mirrored : Mirrored me before cache)
    (committed : Server.Committed before after)
    {key : ChannelId × UserId} {kept : CachedMembership}
    {membership : Membership}
    (found : cache.memberships.get? key = some kept)
    (stored : after.memberships.get? key = some membership) :
    Faithful membership kept := by
  have numbered := committed.counter
  have bound := grounded.membershipSeq found
  have change := committed.memberships key
  rw [stored] at change
  cases h : before.memberships.get? key with
  | none =>
      rw [h] at change
      cases change with
      | joined seq joinedSeq =>
          exact ⟨by omega, fun _ _ => by omega, fun _ => by omega⟩
  | some old =>
      have faithful := mirrored.memberFaithful found h
      rw [h] at change
      cases change with
      | same => exact faithful
      | stamped seq joinedSeq =>
          refine ⟨by omega, fun _ _ => by omega, ?_⟩
          intro left
          have early := faithful.joined left
          omega

theorem memberGone_serve (grounded : Grounded me before cache)
    (mirrored : Mirrored me before cache)
    (committed : Server.Committed before after)
    (rejoined : ∀ {channel}, before.memberships.get? (channel, me) = none →
      after.isMember channel me = true → ∀ {user kept},
      cache.memberships.get? (channel, user) = some kept →
      kept.left = false → user ≠ me →
      before.memberships.get? (channel, user) = none →
      DepartureAhead before cache.cursor (channel, user))
    {key : ChannelId × UserId} {kept : CachedMembership}
    (found : cache.memberships.get? key = some kept)
    (present : kept.left = false)
    (gone : after.memberships.get? key = none) :
    ∃ seq, ⟨key.1, key.2, seq⟩ ∈ after.tombstones ∧ kept.seq < seq ∧
      (after.isMember key.1 me = true → cache.cursor < seq) := by
  obtain ⟨channel, user⟩ := key
  have numbered := committed.counter
  have change := committed.memberships (channel, user)
  rw [gone] at change
  cases h : before.memberships.get? (channel, user) with
  | some old =>
      have bound := grounded.membershipSeq found
      have known := grounded.cursor_le
      rw [h] at change
      cases change with
      | ended member => exact ⟨_, member, by omega, fun _ => by omega⟩
  | none =>
      obtain ⟨seq, member, above, ahead⟩ := mirrored.memberGone found present h
      cases was : before.isMember channel me with
      | true =>
          exact ⟨seq, committed.tombstones member, above, fun _ => ahead was⟩
      | false =>
          cases now : after.isMember channel me with
          | false =>
              exact ⟨seq, committed.tombstones member, above,
                fun inside => by cases inside⟩
          | true =>
              have other : user ≠ me := by
                intro same
                rw [same, ← isMember_eq_false, now] at gone
                cases gone
              obtain ⟨later, listed, past⟩ := rejoined
                (isMember_eq_false.mp was) now found present other h
              -- One of the two tombstones is past both numbers.
              by_cases enough : kept.seq < later
              · exact ⟨later, committed.tombstones listed, enough,
                  fun _ => past⟩
              · exact ⟨seq, committed.tombstones member, above,
                  fun _ => by omega⟩

theorem serve (grounded : Grounded me before cache)
    (mirrored : Mirrored me before cache)
    (committed : Server.Committed before after)
    (rejoined : ∀ {channel}, before.memberships.get? (channel, me) = none →
      after.isMember channel me = true → ∀ {user kept},
      cache.memberships.get? (channel, user) = some kept →
      kept.left = false → user ≠ me →
      before.memberships.get? (channel, user) = none →
      DepartureAhead before cache.cursor (channel, user))
    (profiled : ∀ {channel user membership},
      Heard me before cache.cursor channel →
      before.memberships.get? (channel, user) = none →
      after.memberships.get? (channel, user) = some membership →
      ProfileKnown before cache user) :
    Mirrored me after cache where
  unfenced heard :=
    mirrored.unfenced (heard_before committed grounded.cursor_le heard)
  channelSeq found := by
    have numbered := committed.counter
    have bound := mirrored.channelSeq found
    omega
  channelFaithful := by
    intro channel row stored found now
    have numbered := committed.counter
    have bound := mirrored.channelSeq found
    have change := committed.channels channel
    rw [now] at change
    cases h : before.channels.get? channel with
    | none =>
        rw [h] at change
        cases change with
        | stamped seq => omega
    | some old =>
        rw [h] at change
        cases change with
        | same => exact mirrored.channelFaithful found h
        | stamped seq => omega
  channelKnown heard stored passed :=
    mirrored.channelKnown (heard_before committed grounded.cursor_le heard)
      (channel_before committed grounded.cursor_le stored passed) passed
  memberFaithful := memberFaithful_serve grounded mirrored committed
  memberKnown heard stored passed :=
    mirrored.memberKnown (heard_before committed grounded.cursor_le heard)
      (membership_before committed grounded.cursor_le stored passed) passed
  memberGone := memberGone_serve grounded mirrored committed rejoined
  userSeq found := by
    have numbered := committed.counter
    have bound := mirrored.userSeq found
    omega
  userFaithful := by
    intro user kept profile found now
    have numbered := committed.counter
    have bound := mirrored.userSeq found
    have change := committed.users user
    rw [now] at change
    cases h : before.users.get? user with
    | none =>
        rw [h] at change
        cases change with
        | stamped seq => exact ⟨by omega, fun _ => by omega⟩
    | some old =>
        rw [h] at change
        cases change with
        | same => exact mirrored.userFaithful found h
        | stamped seq => exact ⟨by omega, fun _ => by omega⟩
  userKnown := by
    intro channel user membership heard stored profile current passed
    have earlier := heard_before committed grounded.cursor_le heard
    have old := user_before committed grounded.cursor_le current passed
    cases h : before.memberships.get? (channel, user) with
    | some former => exact mirrored.userKnown earlier h profile old passed
    | none => exact profiled earlier h stored profile old passed

end

/-! The step of a page. -/

section

variable {me : UserId} {server : Server} {cache : Cache} {page : Page}
variable {channel : ChannelId} {user : UserId}

theorem isMember_of_heard {cursor : Int}
    (heard : Heard me server cursor channel) :
    server.isMember channel me = true := by
  obtain ⟨own, stored, _⟩ := heard
  exact Server.isMember_iff.mpr ⟨own, stored⟩

/-- Above the cursor, no fence rejects a row. -/
theorem open_past (grounded : Grounded me server cache) {seq : Int}
    (past : cache.cursor < seq) :
    cache.fencedAtOrAbove channel seq = false := by
  unfold Cache.fencedAtOrAbove Cache.fenceOf
  cases h : cache.removed.get? channel with
  | none => rfl
  | some removal =>
      have bound := grounded.floor h
      by_cases active : removal.active = true
      · simp only [Option.filter, active, if_true, Option.map_some,
          Option.any_some, decide_eq_false_iff_not]
        omega
      · simp [Option.filter, active]

/-- The caller's row of a page, and that it is stored, with the fence of its
channel lifted. -/
theorem own_lands (wf : server.Wf) (grounded : Grounded me server cache)
    (mirrored : Mirrored me server cache)
    (delivers : Delivers server me cache.cursor page) {own : Membership}
    (stored : server.memberships.get? (channel, me) = some own)
    (window : (cache.cursor < own.seq ∧ own.seq ≤ page.next) ∨
      (cache.cursor < own.joinedSeq ∧ own.joinedSeq ≤ page.next)) :
    (Cache.ownStage me cache (Cache.batchOf page)).fenceOf channel = none ∧
      ∃ kept, (Cache.ownStage me cache (Cache.batchOf page)).memberships.get?
        (channel, me) = some kept ∧ own.seq ≤ kept.seq := by
  obtain ⟨row, listed, here, same, seq⟩ :=
    delivers.member_in stored stored window
  have order := (wf.membershipSeq stored).1
  have above : cache.fencedAtOrAbove row.channelId row.seq = false := by
    by_cases known : own.joinedSeq ≤ cache.cursor
    · have lifted := mirrored.unfenced ⟨own, stored, known⟩
      rw [here]
      simp [Cache.fencedAtOrAbove, lifted]
    · exact open_past grounded (by omega)
  have sent : row ∈ (Cache.batchOf page).memberships := listed
  have lands := Cache.ownStage_lands grounded.fenced sent same above
  rw [here, seq] at lands
  exact lands

theorem unfenced_settled (wf : server.Wf)
    (grounded : Grounded me server cache)
    (mirrored : Mirrored me server cache)
    (delivers : Delivers server me cache.cursor page)
    (heard : Heard me server page.next channel) :
    (cache.settled me page).fenceOf channel = none := by
  have inside := isMember_of_heard heard
  obtain ⟨own, stored, joined⟩ := heard
  have keeps := Grounded.settled_inside delivers inside
  rw [keeps.fenceOf]
  by_cases known : own.joinedSeq ≤ cache.cursor
  · have lifted := mirrored.unfenced ⟨own, stored, known⟩
    rcases Cache.fenceOf_ownStage me cache (Cache.batchOf page) channel with
      same | none
    · rw [same, lifted]
    · exact none
  · exact (own_lands wf grounded mirrored delivers stored
      (Or.inr ⟨by omega, joined⟩)).1

/-- What is new in the window, or was heard before it. -/
theorem window_cases {next seq : Int} {cursor : Int}
    (heard : Heard me server next channel) (passed : seq ≤ next) :
    Heard me server cursor channel ∧ seq ≤ cursor ∨
      ∃ own, server.memberships.get? (channel, me) = some own ∧
        ((cursor < seq ∧ seq ≤ next) ∨
          (cursor < own.joinedSeq ∧ own.joinedSeq ≤ next)) := by
  obtain ⟨own, stored, joined⟩ := heard
  by_cases known : own.joinedSeq ≤ cursor
  · by_cases old : seq ≤ cursor
    · exact Or.inl ⟨⟨own, stored, known⟩, old⟩
    · exact Or.inr ⟨own, stored, Or.inl ⟨by omega, passed⟩⟩
  · exact Or.inr ⟨own, stored, Or.inr ⟨by omega, joined⟩⟩

theorem channelKnown_land (wf : server.Wf)
    (grounded : Grounded me server cache)
    (mirrored : Mirrored me server cache)
    (delivers : Delivers server me cache.cursor page)
    (heard : Heard me server page.next channel) {stored : Channel}
    (current : server.channels.get? channel = some stored)
    (passed : stored.seq ≤ page.next) :
    ∃ row, (cache.settledChannels me page).get? channel = some row ∧
      stored.seq ≤ row.seq := by
  have lifted := unfenced_settled wf grounded mirrored delivers heard
  rcases window_cases heard passed with ⟨earlier, old⟩ | ⟨own, mine, window⟩
  · obtain ⟨row, found, above⟩ := mirrored.channelKnown earlier current old
    have keeps := Grounded.settled_inside delivers (isMember_of_heard heard)
    have kept : (cache.settled me page).channels.get? channel = some row := by
      rw [keeps.channels,
        (Cache.sameRows_ownStage me cache (Cache.batchOf page)).channels]
      exact found
    obtain ⟨last, final, higher⟩ := Table.upsertAll_ge_old
      Cache.guards_newerChannel
      ((page.channels.filter fun row =>
        !(cache.settled me page).fencedAtOrAbove row.id row.seq).map
        fun row => (row.id, ⟨row.seq, row.json⟩)) kept
    exact ⟨last, final, Int.le_trans above higher⟩
  · obtain ⟨row, listed, here, seq⟩ := delivers.channel_in current mine window
    have entry : (channel, (⟨row.seq, row.json⟩ : CachedChannel)) ∈
        (page.channels.filter fun row =>
          !(cache.settled me page).fencedAtOrAbove row.id row.seq).map
          fun row => (row.id, ⟨row.seq, row.json⟩) := by
      refine List.mem_map.mpr ⟨row, List.mem_filter.mpr ⟨listed, ?_⟩, ?_⟩
      · simp [Cache.fencedAtOrAbove, here, lifted]
      · rw [here]
    rw [← seq]
    exact Table.upsertAll_ge_new Cache.guards_newerChannel entry

theorem memberKnown_land (wf : server.Wf)
    (grounded : Grounded me server cache)
    (mirrored : Mirrored me server cache)
    (delivers : Delivers server me cache.cursor page)
    (heard : Heard me server page.next channel) {membership : Membership}
    (stored : server.memberships.get? (channel, user) = some membership)
    (passed : membership.seq ≤ page.next) :
    ∃ kept, (cache.settledMembers me page).get? (channel, user) =
      some kept ∧ membership.seq ≤ kept.seq := by
  have keeps := Grounded.settled_inside delivers (isMember_of_heard heard)
  have lifted := unfenced_settled wf grounded mirrored delivers heard
  -- No row of the page lowers one that the cache had.
  have raised : ∀ {old : CachedMembership},
      (cache.settled me page).memberships.get? (channel, user) = some old →
      membership.seq ≤ old.seq →
      ∃ kept, (cache.settledMembers me page).get? (channel, user) =
        some kept ∧ membership.seq ≤ kept.seq := by
    intro old found above
    obtain ⟨middle, here, higher⟩ := Table.upsertAll_ge_old
      Cache.guards_newerMembership
      (((page.memberships.filter (·.userId ≠ me)).filter fun row =>
        !(cache.settled me page).fencedAtOrAbove row.channelId row.seq).map
        Cache.memberEntry) found
    obtain ⟨last, final, highest⟩ := Table.upsertAll_ge_old
      Cache.guards_newerDeparture
      (page.leftMembers.map fun left =>
        ((left.1, left.2.1), (⟨left.2.2, true, none⟩ : CachedMembership)))
      here
    exact ⟨last, final,
      Int.le_trans above (Int.le_trans higher highest)⟩
  rcases window_cases heard passed with ⟨earlier, old⟩ | ⟨own, mine, window⟩
  · obtain ⟨kept, found, above⟩ := mirrored.memberKnown earlier stored old
    obtain ⟨next, here, higher⟩ : ∃ next,
        (Cache.ownStage me cache (Cache.batchOf page)).memberships.get?
          (channel, user) = some next ∧ kept.seq ≤ next.seq :=
      Cache.ownStage_ge_old found
    refine raised ?_ (Int.le_trans above higher)
    rw [keeps.memberships]
    exact here
  · by_cases same : user = me
    · subst same
      rw [stored] at mine
      cases mine
      obtain ⟨_, kept, found, above⟩ :=
        own_lands wf grounded mirrored delivers stored window
      refine raised ?_ above
      rw [keeps.memberships]
      exact found
    · obtain ⟨row, listed, here, other, seq⟩ :=
        delivers.member_in stored mine window
      have entry : ((channel, user), (Cache.memberEntry row).2) ∈
          ((page.memberships.filter (·.userId ≠ me)).filter fun row =>
            !(cache.settled me page).fencedAtOrAbove row.channelId
              row.seq).map Cache.memberEntry := by
        refine List.mem_map.mpr ⟨row, List.mem_filter.mpr
          ⟨List.mem_filter.mpr ⟨listed, ?_⟩, ?_⟩, ?_⟩
        · simp [other, same]
        · simp [Cache.fencedAtOrAbove, here, lifted]
        · simp [Cache.memberEntry, here, other]
      obtain ⟨middle, found, above⟩ := Table.upsertAll_ge_new
        Cache.guards_newerMembership entry
      obtain ⟨last, final, higher⟩ := Table.upsertAll_ge_old
        Cache.guards_newerDeparture
        (page.leftMembers.map fun left =>
          ((left.1, left.2.1), (⟨left.2.2, true, none⟩ : CachedMembership)))
        found
      refine ⟨last, final, ?_⟩
      rw [← seq]
      exact Int.le_trans above higher

theorem memberFaithful_land (wf : server.Wf)
    (mirrored : Mirrored me server cache)
    (delivers : Delivers server me cache.cursor page)
    {key : ChannelId × UserId} {kept : CachedMembership}
    {membership : Membership}
    (found : (cache.settledMembers me page).get? key = some kept)
    (stored : server.memberships.get? key = some membership) :
    Faithful membership kept := by
  have order := (wf.membershipSeq stored).1
  -- A departure is older than the membership that followed it.
  have departed : ∀ {seq}, (key.1, key.2, seq) ∈ page.leftMembers →
      seq < membership.joinedSeq := by
    intro seq listed
    exact wf.tombstoneBefore (delivers.left_of listed).1 stored
  refine Cache.settledMembers_induction me cache page (Faithful membership)
    ?_ ?_ ?_ ?_ found
  · intro row old
    exact mirrored.memberFaithful old stored
  · intro row member here
    obtain ⟨sent, current, seq, role, _⟩ := delivers.member_of member
    rw [here, stored] at current
    cases current
    refine ⟨Int.le_of_eq seq, ?_, ?_⟩
    · intro _ _
      simp [Cache.memberEntry, role]
    · intro left
      cases left
  · intro seq listed
    have early := departed listed
    refine ⟨by dsimp only; omega, ?_, fun _ => early⟩
    intro present
    cases present
  · intro seq row listed _
    have early := departed listed
    refine ⟨by dsimp only; omega, ?_, fun _ => early⟩
    intro present
    cases present

theorem memberGone_land (grounded : Grounded me server cache)
    (mirrored : Mirrored me server cache)
    (delivers : Delivers server me cache.cursor page)
    {kept : CachedMembership}
    (found : (cache.settledMembers me page).get? (channel, user) = some kept)
    (present : kept.left = false)
    (gone : server.memberships.get? (channel, user) = none) :
    ∃ seq, ⟨channel, user, seq⟩ ∈ server.tombstones ∧ kept.seq < seq ∧
      (server.isMember channel me = true → page.next < seq) := by
  have before : cache.memberships.get? (channel, user) = some kept ∨
      kept.left = true := by
    refine Cache.settledMembers_induction me cache page
      (fun row => cache.memberships.get? (channel, user) = some row ∨
        row.left = true) ?_ ?_ ?_ ?_ found
    · intro row old
      exact Or.inl old
    · intro row member here
      obtain ⟨sent, current, _⟩ := delivers.member_of member
      rw [here, gone] at current
      cases current
    · intro _ _
      exact Or.inr rfl
    · intro _ _ _ _
      exact Or.inr rfl
  rcases before with old | left
  · obtain ⟨seq, member, above, ahead⟩ :=
      mirrored.memberGone old present gone
    refine ⟨seq, member, above, ?_⟩
    intro inside
    by_contra passed
    have nonzero : cache.cursor ≠ 0 := by
      intro zero
      rw [grounded.blankMemberships zero] at old
      cases old
    have other : user ≠ me := by
      intro same
      rw [same, ← isMember_eq_false, inside] at gone
      cases gone
    -- The page would bring the departure, above the row that is stored.
    have listed := delivers.left_in nonzero member
      ⟨ahead inside, by omega⟩ other inside
    have entry : ((channel, user), (⟨seq, true, none⟩ : CachedMembership)) ∈
        page.leftMembers.map fun left =>
          ((left.1, left.2.1), (⟨left.2.2, true, none⟩ : CachedMembership)) :=
      List.mem_map.mpr ⟨_, listed, rfl⟩
    obtain ⟨last, final, higher⟩ := Table.upsertAll_ge_new
      Cache.guards_newerDeparture entry
    rw [Cache.settledMembers, final] at found
    cases found
    dsimp only at higher
    omega
  · rw [left] at present
    cases present

theorem userKnown_land (mirrored : Mirrored me server cache)
    (delivers : Delivers server me cache.cursor page)
    (heard : Heard me server page.next channel) {membership : Membership}
    (stored : server.memberships.get? (channel, user) = some membership)
    {profile : User} (current : server.users.get? user = some profile)
    (passed : profile.seq ≤ page.next) :
    ∃ kept, (cache.settledUsers me page).get? user = some kept ∧
      profile.seq ≤ kept.seq := by
  rcases window_cases heard passed with ⟨earlier, old⟩ | ⟨own, mine, window⟩
  · obtain ⟨row, found, above⟩ :=
      mirrored.userKnown earlier stored profile current old
    have kept : (cache.settled me page).users.get? user = some row := by
      rw [Cache.settled_users]
      exact found
    obtain ⟨last, final, higher⟩ := Table.upsertAll_ge_old
      Cache.guards_newerUser
      (page.users.map fun row => (row.id, (⟨row.seq, row.json⟩ : CachedUser)))
      kept
    exact ⟨last, final, Int.le_trans above higher⟩
  · obtain ⟨row, listed, here, seq⟩ :=
      delivers.user_in stored mine current window
    have entry : (user, (⟨row.seq, row.json⟩ : CachedUser)) ∈
        page.users.map fun row => (row.id, ⟨row.seq, row.json⟩) :=
      List.mem_map.mpr ⟨row, listed, by rw [here]⟩
    rw [← seq]
    exact Table.upsertAll_ge_new Cache.guards_newerUser entry

/-- Where a profile stored after the commit comes from. -/
theorem settledUsers_cases (delivers : Delivers server me cache.cursor page)
    {kept : CachedUser}
    (found : (cache.settledUsers me page).get? user = some kept) :
    cache.users.get? user = some kept ∨
      ∃ profile, server.users.get? user = some profile ∧
        kept = ⟨profile.seq, profile.profile⟩ := by
  have sent : ∀ {row : UserRow}, row ∈ page.users → row.id = user →
      ∃ profile, server.users.get? user = some profile ∧
        (⟨row.seq, row.json⟩ : CachedUser) =
          ⟨profile.seq, profile.profile⟩ := by
    intro row member here
    obtain ⟨profile, current, seq, json⟩ := delivers.user_of member
    rw [here] at current
    exact ⟨profile, current, by rw [seq, json]⟩
  refine Table.upsertAll_induction
    (fun row => cache.users.get? user = some row ∨
      ∃ profile, server.users.get? user = some profile ∧
        row = ⟨profile.seq, profile.profile⟩) ?_ ?_ ?_ found
  · intro row old
    rw [Cache.settled_users] at old
    exact Or.inl old
  · intro row member
    obtain ⟨_, listed, equality⟩ := List.mem_map.mp member
    cases equality
    exact Or.inr (sent listed rfl)
  · intro row _ member _
    obtain ⟨_, listed, equality⟩ := List.mem_map.mp member
    cases equality
    exact Or.inr (sent listed rfl)

/-- Where a channel stored after the commit comes from. -/
theorem settledChannels_cases
    (delivers : Delivers server me cache.cursor page) {kept : CachedChannel}
    (found : (cache.settledChannels me page).get? channel = some kept) :
    cache.channels.get? channel = some kept ∨
      ∃ stored, server.channels.get? channel = some stored ∧
        kept.seq = stored.seq := by
  have sent : ∀ {row : ChannelRow}, row ∈ page.channels → row.id = channel →
      ∃ stored, server.channels.get? channel = some stored ∧
        row.seq = stored.seq := by
    intro row member here
    obtain ⟨stored, current, seq, _⟩ := delivers.channel_of member
    rw [here] at current
    exact ⟨stored, current, seq⟩
  refine Table.upsertAll_induction
    (fun row => cache.channels.get? channel = some row ∨
      ∃ stored, server.channels.get? channel = some stored ∧
        row.seq = stored.seq) ?_ ?_ ?_ found
  · intro row old
    exact Or.inl (Cache.settled_channels me cache page old)
  · intro row member
    obtain ⟨_, listed, equality⟩ := List.mem_map.mp member
    cases equality
    exact Or.inr (sent (List.mem_filter.mp listed).1 rfl)
  · intro row _ member _
    obtain ⟨_, listed, equality⟩ := List.mem_map.mp member
    cases equality
    exact Or.inr (sent (List.mem_filter.mp listed).1 rfl)

/-- Committing a page keeps the mirror. -/
theorem land (wf : server.Wf) (grounded : Grounded me server cache)
    (mirrored : Mirrored me server cache)
    (delivers : Delivers server me cache.cursor page) :
    Mirrored me server (cache.commitPage me page) := by
  obtain ⟨messages, coverage, committed, _⟩ :=
    Cache.commitPage_eq me cache page
  rw [committed]
  constructor
  case unfenced =>
    intro channel heard
    exact unfenced_settled wf grounded mirrored delivers heard
  case channelSeq =>
    intro channel row found
    rcases settledChannels_cases delivers found with old | ⟨stored, here, seq⟩
    · exact mirrored.channelSeq old
    · rw [seq]
      exact wf.channelSeq here
  case channelFaithful =>
    intro channel row stored found current
    rcases settledChannels_cases delivers found with old | ⟨sent, here, seq⟩
    · exact mirrored.channelFaithful old current
    · rw [current] at here
      cases here
      exact Int.le_of_eq seq
  case channelKnown =>
    intro channel stored heard current passed
    exact channelKnown_land wf grounded mirrored delivers heard current passed
  case memberFaithful =>
    intro key kept membership found stored
    exact memberFaithful_land wf mirrored delivers found stored
  case memberKnown =>
    intro channel user membership heard stored passed
    exact memberKnown_land wf grounded mirrored delivers heard stored passed
  case memberGone =>
    intro key kept found present gone
    exact memberGone_land grounded mirrored delivers found present gone
  case userSeq =>
    intro user kept found
    rcases settledUsers_cases delivers found with old | ⟨profile, here, rfl⟩
    · exact mirrored.userSeq old
    · exact wf.userSeq here
  case userFaithful =>
    intro user kept profile found current
    rcases settledUsers_cases delivers found with old | ⟨sent, here, rfl⟩
    · exact mirrored.userFaithful old current
    · rw [current] at here
      cases here
      exact ⟨Int.le_refl _, fun _ => rfl⟩
  case userKnown =>
    intro channel user membership heard stored profile current passed
    exact userKnown_land mirrored delivers heard stored current passed

end

end Mirrored

end Brook
