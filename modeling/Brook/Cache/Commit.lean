import Brook.Cache.Coverage
import Brook.Cache.Landing

namespace Brook

namespace Cache

/-! What committing a page does, table by table. -/

/-- The cache of a page's commit once its removals have been applied. -/
def settled (me : UserId) (cache : Cache) (page : Page) : Cache :=
  removalStage me (ownStage me cache (batchOf page)) (batchOf page)

section

variable (me : UserId) (cache : Cache) (page : Page)

/-- The channels table that the page's messages meet. -/
def settledChannels : Table ChannelId CachedChannel :=
  (settled me cache page).channels.upsertAll newerChannel
    ((page.channels.filter fun row =>
      !(settled me cache page).fencedAtOrAbove row.id row.seq).map
      fun row => (row.id, ⟨row.seq, row.json⟩))

def settledMembers : Table (ChannelId × UserId) CachedMembership :=
  ((settled me cache page).memberships.upsertAll newerMembership
    (((page.memberships.filter (·.userId ≠ me)).filter fun row =>
      !(settled me cache page).fencedAtOrAbove row.channelId row.seq).map
      memberEntry)).upsertAll newerDeparture
    (page.leftMembers.map fun left =>
      ((left.1, left.2.1), ⟨left.2.2, true, none⟩))

def settledUsers : Table UserId CachedUser :=
  (settled me cache page).users.upsertAll newerUser
    (page.users.map fun row => (row.id, ⟨row.seq, row.json⟩))

/-- The page's messages whose channel is present and not fenced. -/
def landing : List MessageRow :=
  page.messages.filter fun row =>
    messageMayLand
      { settled me cache page with
        channels := settledChannels me cache page }
      row.channelId row.seq false

private theorem apply_page :
    ∃ messages, apply me cache (batchOf page) =
      { settled me cache page with
        channels := settledChannels me cache page
        memberships := settledMembers me cache page
        users := settledUsers me cache page
        messages := messages } ∧
      MessageTable.unquoted messages =
        (MessageTable.unquoted (settled me cache page).messages).upsertAll
          newerMessage ((landing me cache page).map fun row =>
            (row.id, (CachedMessage.ofRow row).unquoted)) := by
  have tables : userStage (leftStage (memberStage me (channelStage
      (settled me cache page) (batchOf page)) (batchOf page))
      (batchOf page)) (batchOf page) =
      { settled me cache page with
        channels := settledChannels me cache page
        memberships := settledMembers me cache page
        users := settledUsers me cache page } := by
    rw [userStage_eq, leftStage_eq, memberStage_eq, channelStage_eq]
    rfl
  obtain ⟨messages, stage, unquoted⟩ := messageStage_eq
    { settled me cache page with
      channels := settledChannels me cache page
      memberships := settledMembers me cache page
      users := settledUsers me cache page } (batchOf page)
  refine ⟨messages, ?_, ?_⟩
  · rw [apply_eq]
    change tombstoneStage (messageStage (userStage (leftStage (memberStage me
      (channelStage (settled me cache page) (batchOf page)) (batchOf page))
      (batchOf page)) (batchOf page)) (batchOf page)) (batchOf page) = _
    rw [tables, stage]
    rfl
  · rw [unquoted]
    congr 2

/-- The commit changes the tables of `apply` and the cursor, and settles the
tops after the last page. -/
theorem commitPage_cases :
    ∃ messages, ∃ applied : Cache, applied =
      { settled me cache page with
        cursor := page.next
        channels := settledChannels me cache page
        memberships := settledMembers me cache page
        users := settledUsers me cache page
        messages := messages } ∧
      commitPage me cache page =
        (if page.more then applied else applied.settleTops page.next) ∧
      MessageTable.unquoted messages =
        (MessageTable.unquoted (settled me cache page).messages).upsertAll
          newerMessage ((landing me cache page).map fun row =>
            (row.id, (CachedMessage.ofRow row).unquoted)) := by
  obtain ⟨messages, applied, unquoted⟩ := apply_page me cache page
  refine ⟨messages, _, rfl, ?_, unquoted⟩
  unfold commitPage
  rw [applied]

/-- The same, with whatever the coverage came to. -/
theorem commitPage_eq :
    ∃ messages coverage, commitPage me cache page =
      { settled me cache page with
        cursor := page.next
        channels := settledChannels me cache page
        memberships := settledMembers me cache page
        users := settledUsers me cache page
        messages := messages
        coverage := coverage } ∧
      MessageTable.unquoted messages =
        (MessageTable.unquoted (settled me cache page).messages).upsertAll
          newerMessage ((landing me cache page).map fun row =>
            (row.id, (CachedMessage.ofRow row).unquoted)) := by
  obtain ⟨messages, _, rfl, committed, unquoted⟩ :=
    commitPage_cases me cache page
  rw [committed]
  split
  · exact ⟨messages, _, rfl, unquoted⟩
  · exact ⟨messages, _, rfl, unquoted⟩

theorem settled_messages {id : MessageId} {row : CachedMessage}
    (found : (settled me cache page).messages.get? id = some row) :
    cache.messages.get? id = some row := by
  rw [← (sameRows_ownStage me cache (batchOf page)).messages]
  rcases removalStage_cases me (ownStage me cache (batchOf page))
      (batchOf page) row.channelId with keeps | ⟨_, _, drops⟩
  · exact (keeps.messages id row rfl).mp found
  · exact (drops.messages id row found rfl).elim

/-- A membership that is stored when the removals have been applied was stored
before, or is a row of the caller's from the page. -/
theorem settled_memberships {key : ChannelId × UserId}
    {kept : CachedMembership}
    (found : (settled me cache page).memberships.get? key = some kept) :
    cache.memberships.get? key = some kept ∨
      ∃ row ∈ page.memberships, (row.channelId, row.userId) = key ∧
        kept = (memberEntry row).2 := by
  have stored : (ownStage me cache (batchOf page)).memberships.get? key =
      some kept := by
    rcases removalStage_cases me (ownStage me cache (batchOf page))
        (batchOf page) key.1 with keeps | ⟨_, _, drops⟩
    · rw [← keeps.memberships key.2]
      exact found
    · have gone := drops.memberships key.2
      rw [settled, gone] at found
      cases found
  by_cases own : key.2 = me
  · obtain ⟨channel, user⟩ := key
    cases own
    rcases ownStage_origin user cache (batchOf page) stored with
      old | ⟨row, member, here, same, equality⟩
    · exact Or.inl old
    · exact Or.inr ⟨row, member, Prod.ext here same, equality⟩
  · rw [get?_ownStage_ne me cache _ own] at stored
    exact Or.inl stored

/-- Where a membership stored after the commit comes from. -/
theorem settledMembers_induction (good : CachedMembership → Prop)
    {key : ChannelId × UserId} {kept : CachedMembership}
    (old : ∀ {row}, cache.memberships.get? key = some row → good row)
    (new : ∀ {row}, row ∈ page.memberships →
      (row.channelId, row.userId) = key → good (memberEntry row).2)
    (bare : ∀ {seq}, (key.1, key.2, seq) ∈ page.leftMembers →
      good ⟨seq, true, none⟩)
    (left : ∀ {seq row}, (key.1, key.2, seq) ∈ page.leftMembers →
      good row → good { row with left := true, seq := seq })
    (found : (settledMembers me cache page).get? key = some kept) :
    good kept := by
  unfold settledMembers at found
  refine Table.upsertAll_induction good ?_ ?_ ?_ found
  · intro row stored
    refine Table.upsertAll_induction good ?_ ?_ ?_ stored
    · intro row settled
      rcases settled_memberships me cache page settled with
        before | ⟨sent, member, here, rfl⟩
      · exact old before
      · exact new member here
    · intro row member
      obtain ⟨sent, listed, equality⟩ := List.mem_map.mp member
      cases equality
      exact new (List.mem_filter.mp (List.mem_filter.mp listed).1).1 rfl
    · intro row _ member _
      obtain ⟨sent, listed, equality⟩ := List.mem_map.mp member
      cases equality
      exact new (List.mem_filter.mp (List.mem_filter.mp listed).1).1 rfl
  · intro row member
    obtain ⟨departure, listed, equality⟩ := List.mem_map.mp member
    cases equality
    exact bare listed
  · intro row stored member
    obtain ⟨departure, listed, equality⟩ := List.mem_map.mp member
    cases equality
    exact left listed

theorem settled_users :
    (settled me cache page).users = cache.users := by
  rw [← (sameRows_ownStage me cache (batchOf page)).users, settled,
    removalStage_users]

theorem settled_channels {channel : ChannelId} {row : CachedChannel}
    (found : (settled me cache page).channels.get? channel = some row) :
    cache.channels.get? channel = some row := by
  rw [← (sameRows_ownStage me cache (batchOf page)).channels]
  rcases removalStage_cases me (ownStage me cache (batchOf page))
      (batchOf page) channel with keeps | ⟨_, _, drops⟩
  · rw [← keeps.channels]
    exact found
  · rw [settled, drops.channels] at found
    cases found

end

end Cache

end Brook
