import Brook.Cache.Fence

namespace Brook

namespace Cache

/-! A batch that was applied has nothing left to do, while its channels stand as they did. -/

/-- The channel was removed in between. -/
def Raised (before after : Cache) (channel : ChannelId) : Prop :=
  ∃ last, after.floorOf channel = some last ∧
    (before.floorOf channel).all (· < last) = true

/-- A membership of the caller's with this number is behind the fence or the stored one. -/
def OwnDone (me : UserId) (cache : Cache) (channel : ChannelId) (seq : Int) : Prop :=
  cache.fencedAtOrAbove channel seq = true ∨ (cache.ownSeq me channel).any (seq ≤ ·) = true

/-- A removal with this number is behind the caller's own membership or the floor. -/
def RemovalDone (me : UserId) (cache : Cache) (channel : ChannelId) (seq : Int) : Prop :=
  (cache.ownSeq me channel).any (seq ≤ ·) = true ∨
    (cache.floorOf channel).any (seq ≤ ·) = true

/-- What batches leave of the cache before them. -/
structure Onward (me : UserId) (before after : Cache) : Prop where
  floor : ∀ channel last, before.floorOf channel = some last →
    ∃ later, after.floorOf channel = some later ∧ last ≤ later
  own : ∀ channel seq, before.OwnDone me channel seq → after.OwnDone me channel seq
  removal : ∀ channel seq, before.RemovalDone me channel seq → after.RemovalDone me channel seq
  channels : ∀ channel row, before.channels.get? channel = some row →
    Raised before after channel ∨
      ∃ kept, after.channels.get? channel = some kept ∧ row.seq ≤ kept.seq
  memberships : ∀ key row, before.memberships.get? key = some row →
    Raised before after key.1 ∨
      ∃ kept, after.memberships.get? key = some kept ∧ row.seq ≤ kept.seq
  users : ∀ user row, before.users.get? user = some row →
    ∃ kept, after.users.get? user = some kept ∧ row.seq ≤ kept.seq
  messages : ∀ id row, (MessageTable.unquoted before.messages).get? id = some row →
    Raised before after row.channelId ∨
      ∃ kept, (MessageTable.unquoted after.messages).get? id = some kept ∧
        kept.channelId = row.channelId ∧ row.seq ≤ kept.seq ∧
        (kept.seq = row.seq → kept.json.isPartial = true → row.json.isPartial = true)

namespace Onward

variable {me : UserId} {first second third before after : Cache}

theorem refl (me : UserId) (cache : Cache) : Onward me cache cache where
  floor _ last found := ⟨last, found, le_rfl⟩
  own _ _ done := done
  removal _ _ done := done
  channels _ row found := Or.inr ⟨row, found, le_rfl⟩
  memberships _ row found := Or.inr ⟨row, found, le_rfl⟩
  users _ row found := ⟨row, found, le_rfl⟩
  messages _ row found := Or.inr ⟨row, found, rfl, le_rfl, fun _ kept => kept⟩

theorem raised_left (later : Onward me second third) {channel : ChannelId}
    (raised : Raised first second channel) : Raised first third channel := by
  obtain ⟨last, found, above⟩ := raised
  obtain ⟨higher, final, reaches⟩ := later.floor channel last found
  refine ⟨higher, final, ?_⟩
  cases bound : first.floorOf channel with
  | none => rfl
  | some low =>
      rw [bound, Option.all_some, decide_eq_true_eq] at above
      exact decide_eq_true (lt_of_lt_of_le above reaches)

theorem raised_right (earlier : Onward me first second) {channel : ChannelId}
    (raised : Raised second third channel) : Raised first third channel := by
  obtain ⟨last, final, above⟩ := raised
  refine ⟨last, final, ?_⟩
  cases bound : first.floorOf channel with
  | none => rfl
  | some low =>
      obtain ⟨middle, found, reaches⟩ := earlier.floor channel low bound
      rw [found, Option.all_some, decide_eq_true_eq] at above
      exact decide_eq_true (lt_of_le_of_lt reaches above)

theorem trans (earlier : Onward me first second) (later : Onward me second third) :
    Onward me first third where
  floor channel last found := by
    obtain ⟨middle, between, below⟩ := earlier.floor channel last found
    obtain ⟨final, there, above⟩ := later.floor channel middle between
    exact ⟨final, there, le_trans below above⟩
  own channel seq done := later.own channel seq (earlier.own channel seq done)
  removal channel seq done := later.removal channel seq (earlier.removal channel seq done)
  channels channel row found := by
    rcases earlier.channels channel row found with raised | ⟨middle, between, below⟩
    · exact Or.inl (later.raised_left raised)
    · rcases later.channels channel middle between with raised | ⟨kept, final, above⟩
      · exact Or.inl (earlier.raised_right raised)
      · exact Or.inr ⟨kept, final, le_trans below above⟩
  memberships key row found := by
    rcases earlier.memberships key row found with raised | ⟨middle, between, below⟩
    · exact Or.inl (later.raised_left raised)
    · rcases later.memberships key middle between with raised | ⟨kept, final, above⟩
      · exact Or.inl (earlier.raised_right raised)
      · exact Or.inr ⟨kept, final, le_trans below above⟩
  users user row found := by
    obtain ⟨middle, between, below⟩ := earlier.users user row found
    obtain ⟨kept, final, above⟩ := later.users user middle between
    exact ⟨kept, final, le_trans below above⟩
  messages id row found := by
    rcases earlier.messages id row found with
      raised | ⟨middle, between, place, below, whole⟩
    · exact Or.inl (later.raised_left raised)
    · rcases later.messages id middle between with
        raised | ⟨kept, final, samePlace, above, still⟩
      · exact Or.inl (earlier.raised_right (place ▸ raised))
      · refine Or.inr ⟨kept, final, samePlace.trans place, le_trans below above,
          fun same isPartial => ?_⟩
        have level : middle.seq = row.seq := le_antisymm (same ▸ above) below
        exact whole level (still (same.trans level.symm) isPartial)

/-- Where the removals and the caller's own memberships stay as they are. -/
theorem of_tables (removed : after.removed = before.removed)
    (own : ∀ channel, after.memberships.get? (channel, me) =
      before.memberships.get? (channel, me))
    (channels : ∀ channel row, before.channels.get? channel = some row →
      ∃ kept, after.channels.get? channel = some kept ∧ row.seq ≤ kept.seq)
    (memberships : ∀ key row, before.memberships.get? key = some row →
      ∃ kept, after.memberships.get? key = some kept ∧ row.seq ≤ kept.seq)
    (users : ∀ user row, before.users.get? user = some row →
      ∃ kept, after.users.get? user = some kept ∧ row.seq ≤ kept.seq)
    (messages : ∀ id row, (MessageTable.unquoted before.messages).get? id = some row →
      ∃ kept, (MessageTable.unquoted after.messages).get? id = some kept ∧
        kept.channelId = row.channelId ∧ row.seq ≤ kept.seq ∧
        (kept.seq = row.seq → kept.json.isPartial = true → row.json.isPartial = true)) :
    Onward me before after where
  floor channel last found := ⟨last, by rw [floorOf, removed]; exact found, le_rfl⟩
  own channel seq done := by
    rw [OwnDone, fencedAtOrAbove, fenceOf, removed, ownSeq, own]
    exact done
  removal channel seq done := by
    rw [RemovalDone, floorOf, removed, ownSeq, own]
    exact done
  channels channel row found := Or.inr (channels channel row found)
  memberships key row found := Or.inr (memberships key row found)
  users := users
  messages id row found := Or.inr (messages id row found)

end Onward

section

variable {me : UserId} {cache : Cache}

theorem any_le {bound : Option Int} {seq : Int} :
    bound.any (seq ≤ ·) = true ↔ ∃ last, bound = some last ∧ seq ≤ last := by
  cases bound <;> simp

theorem all_lt {bound : Option Int} {seq last : Int} (above : bound.all (· < seq) = true)
    (found : bound = some last) : last < seq := by
  rw [found, Option.all_some, decide_eq_true_eq] at above
  exact above

theorem ownSeq_eq_some {channel : ChannelId} {seq : Int} :
    cache.ownSeq me channel = some seq ↔
      ∃ kept, cache.memberships.get? (channel, me) = some kept ∧ kept.left = false ∧
        kept.seq = seq := by
  simp only [ownSeq, Option.map_eq_some_iff, Option.filter_eq_some_iff, Bool.not_eq_true']
  constructor
  · rintro ⟨kept, ⟨found, stays⟩, same⟩
    exact ⟨kept, found, stays, same⟩
  · rintro ⟨kept, found, stays, same⟩
    exact ⟨kept, ⟨found, stays⟩, same⟩

theorem floorOf_of_fenceOf {channel : ChannelId} {seq : Int}
    (fence : cache.fenceOf channel = some seq) : cache.floorOf channel = some seq := by
  rw [fenceOf, Option.map_eq_some_iff] at fence
  obtain ⟨removal, found, same⟩ := fence
  rw [floorOf, (Option.filter_eq_some_iff.mp found).1, Option.map_some, same]

/-- No departure of the caller's own is stored: a removal takes the whole channel. -/
def Mine (me : UserId) (cache : Cache) : Prop :=
  ∀ channel row, cache.memberships.get? (channel, me) = some row → row.left = false

/-! ### The caller's own memberships -/

theorem applyOwn_cases (cache : Cache) {row : MemberRow} (own : row.userId = me) :
    (cache.applyOwn row = cache ∧
      (cache.fencedAtOrAbove row.channelId row.seq = true ∨
        ∃ kept, cache.memberships.get? (row.channelId, me) = some kept ∧
          row.seq ≤ kept.seq)) ∨
      (cache.fencedAtOrAbove row.channelId row.seq = false ∧
        (∀ kept, cache.memberships.get? (row.channelId, me) = some kept →
          kept.seq < row.seq) ∧
        (cache.applyOwn row).memberships.get? (row.channelId, me) =
          some ⟨row.seq, false, some row.json⟩) := by
  subst own
  unfold applyOwn
  dsimp only
  split
  case isTrue fenced => exact Or.inl ⟨rfl, Or.inl fenced⟩
  case isFalse above =>
    rw [Bool.not_eq_true] at above
    split
    case isTrue wins =>
      rw [Table.upserts, Option.all_eq_true] at wins
      refine Or.inr ⟨above, fun kept found => of_decide_eq_true (wins kept found), ?_⟩
      have stored := Table.get?_upsert_self newerMembership cache.memberships
        (memberEntry row).1 (memberEntry row).2
      refine stored.trans ?_
      cases found : cache.memberships.get? (memberEntry row).1 with
      | none => rfl
      | some old =>
          dsimp only
          rw [if_pos (wins old found)]
          rfl
    case isFalse loses =>
      rw [Table.upserts, Option.all_eq_true] at loses
      push Not at loses
      obtain ⟨kept, found, behind⟩ := loses
      exact Or.inl ⟨rfl, Or.inr ⟨kept, found, not_lt.mp fun wins =>
        behind (decide_eq_true wins)⟩⟩

theorem Mine.applyOwn (mine : cache.Mine me) {row : MemberRow} (own : row.userId = me) :
    (cache.applyOwn row).Mine me := by
  intro channel kept found
  rcases applyOwn_cases cache own with ⟨same, -⟩ | ⟨-, -, stored⟩
  · rw [same] at found
    exact mine channel kept found
  · by_cases here : channel = row.channelId
    · rw [here, stored, Option.some.injEq] at found
      rw [← found]
    · rw [get?_applyOwn_ne cache row (by simp [here])] at found
      exact mine channel kept found

theorem applyOwn_done (mine : cache.Mine me) {row : MemberRow} (own : row.userId = me) :
    (cache.applyOwn row).OwnDone me row.channelId row.seq := by
  rcases applyOwn_cases cache own with ⟨same, fenced | ⟨kept, found, behind⟩⟩ | ⟨-, -, stored⟩
  · rw [same]
    exact Or.inl fenced
  · rw [same]
    exact Or.inr (any_le.mpr ⟨kept.seq,
      ownSeq_eq_some.mpr ⟨kept, found, mine _ kept found, rfl⟩, behind⟩)
  · exact Or.inr (any_le.mpr ⟨row.seq, ownSeq_eq_some.mpr ⟨_, stored, rfl, rfl⟩, le_rfl⟩)

theorem onward_applyOwn (cache : Cache) {row : MemberRow} (own : row.userId = me) :
    Onward me cache (cache.applyOwn row) := by
  rcases applyOwn_cases cache own with ⟨same, -⟩ | ⟨above, newer, stored⟩
  · rw [same]
    exact Onward.refl me cache
  · have rows := sameRows_applyOwn cache row
    have mine : (cache.applyOwn row).ownSeq me row.channelId = some row.seq :=
      ownSeq_eq_some.mpr ⟨_, stored, rfl, rfl⟩
    have others : ∀ channel, channel ≠ row.channelId →
        (cache.applyOwn row).ownSeq me channel = cache.ownSeq me channel := by
      intro channel apart
      rw [ownSeq, get?_applyOwn_ne cache row (by simp [apart]), ownSeq]
    have ownLater : ∀ channel seq, (cache.ownSeq me channel).any (seq ≤ ·) = true →
        ((cache.applyOwn row).ownSeq me channel).any (seq ≤ ·) = true := by
      intro channel seq behind
      by_cases here : channel = row.channelId
      · subst here
        obtain ⟨last, found, below⟩ := any_le.mp behind
        obtain ⟨kept, there, -, rfl⟩ := ownSeq_eq_some.mp found
        exact any_le.mpr ⟨row.seq, mine, le_trans below (le_of_lt (newer kept there))⟩
      · rw [others channel here]
        exact behind
    refine ⟨fun channel last found => ⟨last, ?_, le_rfl⟩, fun channel seq done => ?_,
      fun channel seq done => ?_, fun channel kept found => Or.inr ⟨kept, ?_, le_rfl⟩,
      fun key kept found => Or.inr ?_, fun user kept found => ⟨kept, ?_, le_rfl⟩,
      fun id kept found => Or.inr ⟨kept, ?_, rfl, le_rfl, fun _ still => still⟩⟩
    · rw [floorOf_applyOwn]
      exact found
    · rcases done with fenced | behind
      · by_cases here : channel = row.channelId
        · -- The fence is lifted by a membership above it.
          subst here
          obtain ⟨last, found, below⟩ := any_le.mp fenced
          rw [fencedAtOrAbove, found, Option.any_some, decide_eq_false_iff_not, not_le] at above
          exact Or.inr (any_le.mpr ⟨row.seq, mine, le_trans below (le_of_lt above)⟩)
        · left
          rw [fencedAtOrAbove, fenceOf, get?_removed_applyOwn_ne cache row here]
          exact fenced
      · exact Or.inr (ownLater channel seq behind)
    · rw [RemovalDone, floorOf_applyOwn]
      exact done.imp (ownLater channel seq) id
    · rw [rows.channels]
      exact found
    · rcases applyOwn_memberships cache row with same | written
      · exact ⟨kept, by rw [same, found], le_rfl⟩
      · rw [written]
        exact Table.upsert_ge_old guards_newerMembership _ _ found
    · rw [rows.users]
      exact found
    · rw [rows.messages]
      exact found

/-! ### Removals -/

theorem Mine.applyRemoval (mine : cache.Mine me) (removal : ChannelId × Int) :
    (cache.applyRemoval me removal).Mine me := by
  intro channel kept found
  rcases applyRemoval_cases me cache removal channel with keeps | ⟨-, drops⟩
  · rw [keeps.memberships] at found
    exact mine channel kept found
  · rw [drops.memberships] at found
    cases found

theorem applyRemoval_done (cache : Cache) (removal : ChannelId × Int) :
    (cache.applyRemoval me removal).RemovalDone me removal.1 removal.2 := by
  unfold applyRemoval
  split
  case isTrue behind => exact Or.inl behind
  case isFalse =>
    split
    case isTrue below => exact Or.inr below
    case isFalse =>
      right
      have drops := removeChannelRows_drops cache removal.1 removal.2
      rw [floorOf, drops.removed]
      exact decide_eq_true le_rfl

theorem applyRemoval_users (cache : Cache) (removal : ChannelId × Int) :
    (cache.applyRemoval me removal).users = cache.users := by
  unfold applyRemoval
  split
  · rfl
  · split <;> rfl

theorem onward_applyRemoval (cache : Cache) (removal : ChannelId × Int) :
    Onward me cache (cache.applyRemoval me removal) := by
  have effect := applyRemoval_effect me cache removal
  have raised : ∀ {channel}, (cache.floorOf channel).all (· < removal.2) = true →
      DropsChannel (cache.applyRemoval me removal) channel removal.2 →
      Raised cache (cache.applyRemoval me removal) channel := by
    intro channel floor drops
    exact ⟨removal.2, by rw [floorOf, drops.removed]; rfl, floor⟩
  refine ⟨fun channel last found => ?_, fun channel seq done => ?_, fun channel seq done => ?_,
    fun channel kept found => ?_, fun key kept found => ?_, fun user kept found =>
      ⟨kept, by rw [applyRemoval_users]; exact found, le_rfl⟩, fun id kept found => ?_⟩
  · rcases effect channel with keeps | ⟨-, -, floor, drops⟩
    · exact ⟨last, by rw [keeps.floorOf]; exact found, le_rfl⟩
    · exact ⟨removal.2, by rw [floorOf, drops.removed]; rfl, le_of_lt (all_lt floor found)⟩
  · rcases effect channel with keeps | ⟨-, own, floor, drops⟩
    · rw [OwnDone, fencedAtOrAbove, keeps.fenceOf, keeps.ownSeq]
      exact done
    · left
      rw [fencedAtOrAbove, fenceOf_of_active drops.removed]
      rcases done with fenced | behind
      · obtain ⟨last, found, below⟩ := any_le.mp fenced
        exact decide_eq_true (le_trans below (le_of_lt (all_lt floor (floorOf_of_fenceOf found))))
      · obtain ⟨last, found, below⟩ := any_le.mp behind
        exact decide_eq_true (le_trans below (le_of_lt (all_lt own found)))
  · rcases effect channel with keeps | ⟨-, own, floor, drops⟩
    · rw [RemovalDone, keeps.floorOf, keeps.ownSeq]
      exact done
    · right
      rw [floorOf, drops.removed]
      rcases done with behind | below
      · obtain ⟨last, found, below⟩ := any_le.mp behind
        exact decide_eq_true (le_trans below (le_of_lt (all_lt own found)))
      · obtain ⟨last, found, below⟩ := any_le.mp below
        exact decide_eq_true (le_trans below (le_of_lt (all_lt floor found)))
  · rcases effect channel with keeps | ⟨-, -, floor, drops⟩
    · exact Or.inr ⟨kept, by rw [keeps.channels]; exact found, le_rfl⟩
    · exact Or.inl (raised floor drops)
  · rcases effect key.1 with keeps | ⟨-, -, floor, drops⟩
    · exact Or.inr ⟨kept, (keeps.memberships key.2).trans found, le_rfl⟩
    · exact Or.inl (raised floor drops)
  · rcases effect kept.channelId with keeps | ⟨-, -, floor, drops⟩
    · right
      rw [MessageTable.get?_unquoted, Option.map_eq_some_iff] at found
      obtain ⟨stored, there, rfl⟩ := found
      refine ⟨stored.unquoted, ?_, rfl, le_rfl, fun _ still => still⟩
      rw [MessageTable.get?_unquoted, (keeps.messages id stored rfl).mpr there]
      rfl
    · exact Or.inl (raised floor drops)

/-! ### The guarded tables -/

theorem Mine.of_same (mine : cache.Mine me) {after : Cache}
    (own : ∀ channel, after.memberships.get? (channel, me) =
      cache.memberships.get? (channel, me)) : after.Mine me := by
  intro channel row found
  rw [own] at found
  exact mine channel row found

theorem onward_channelStage (cache : Cache) (batch : Batch) :
    Onward me cache (channelStage cache batch) := by
  rw [channelStage_eq]
  exact Onward.of_tables rfl (fun _ => rfl)
    (fun _ _ found => Table.upsertAll_ge_old guards_newerChannel _ found)
    (fun _ row found => ⟨row, found, le_rfl⟩) (fun _ row found => ⟨row, found, le_rfl⟩)
    (fun _ row found => ⟨row, found, rfl, le_rfl, fun _ still => still⟩)

theorem memberStage_own (cache : Cache) (batch : Batch) (channel : ChannelId) :
    (memberStage me cache batch).memberships.get? (channel, me) =
      cache.memberships.get? (channel, me) := by
  rw [memberStage_eq]
  refine Table.get?_upsertAll_of_not_mem fun row member => ?_
  obtain ⟨sent, listed, same⟩ := List.mem_map.mp member
  have other := (List.mem_filter.mp (List.mem_filter.mp listed).1).2
  cases same
  simp at other

theorem onward_memberStage (cache : Cache) (batch : Batch) :
    Onward me cache (memberStage me cache batch) := by
  refine Onward.of_tables ?_ (memberStage_own cache batch) ?_ ?_ ?_ ?_
  · rw [memberStage_eq]
  · rw [memberStage_eq]
    exact fun _ row found => ⟨row, found, le_rfl⟩
  · rw [memberStage_eq]
    exact fun _ _ found => Table.upsertAll_ge_old guards_newerMembership _ found
  · rw [memberStage_eq]
    exact fun _ row found => ⟨row, found, le_rfl⟩
  · rw [memberStage_eq]
    exact fun _ row found => ⟨row, found, rfl, le_rfl, fun _ still => still⟩

theorem leftStage_own (cache : Cache) {batch : Batch} (others : ∀ left ∈ batch.left, left.2.1 ≠ me)
    (channel : ChannelId) :
    (leftStage cache batch).memberships.get? (channel, me) =
      cache.memberships.get? (channel, me) := by
  rw [leftStage_eq]
  refine Table.get?_upsertAll_of_not_mem fun row member => ?_
  obtain ⟨left, listed, same⟩ := List.mem_map.mp member
  cases same
  exact others _ listed rfl

theorem onward_leftStage (cache : Cache) {batch : Batch}
    (others : ∀ left ∈ batch.left, left.2.1 ≠ me) : Onward me cache (leftStage cache batch) := by
  refine Onward.of_tables ?_ (leftStage_own cache others) ?_ ?_ ?_ ?_
  · rw [leftStage_eq]
  · rw [leftStage_eq]
    exact fun _ row found => ⟨row, found, le_rfl⟩
  · rw [leftStage_eq]
    exact fun _ _ found => Table.upsertAll_ge_old guards_newerDeparture _ found
  · rw [leftStage_eq]
    exact fun _ row found => ⟨row, found, le_rfl⟩
  · rw [leftStage_eq]
    exact fun _ row found => ⟨row, found, rfl, le_rfl, fun _ still => still⟩

theorem onward_userStage (cache : Cache) (batch : Batch) :
    Onward me cache (userStage cache batch) := by
  rw [userStage_eq]
  exact Onward.of_tables rfl (fun _ => rfl) (fun _ row found => ⟨row, found, le_rfl⟩)
    (fun _ row found => ⟨row, found, le_rfl⟩)
    (fun _ _ found => Table.upsertAll_ge_old guards_newerUser _ found)
    (fun _ row found => ⟨row, found, rfl, le_rfl, fun _ still => still⟩)

/-! ### Messages -/

theorem Onward.of_messages {messages : MessageTable}
    (grow : ∀ id row, (MessageTable.unquoted cache.messages).get? id = some row →
      ∃ kept, (MessageTable.unquoted messages).get? id = some kept ∧
        kept.channelId = row.channelId ∧ row.seq ≤ kept.seq ∧
        (kept.seq = row.seq → kept.json.isPartial = true → row.json.isPartial = true)) :
    Onward me cache { cache with messages := messages } :=
  Onward.of_tables rfl (fun _ => rfl) (fun _ row found => ⟨row, found, le_rfl⟩)
    (fun _ row found => ⟨row, found, le_rfl⟩) (fun _ row found => ⟨row, found, le_rfl⟩) grow

theorem onward_applyMessage (cache : Cache) (batch : Batch) (row : MessageRow) :
    Onward me cache (applyMessage batch cache row) := by
  unfold applyMessage
  split
  · exact Onward.refl me cache
  · split
    case isFalse => exact Onward.refl me cache
    case isTrue =>
      refine Onward.of_messages fun id old found => ?_
      rw [MessageTable.get?_unquoted_store]
      by_cases same : id = row.id
      · subst same
        rw [if_pos rfl, found, Option.elim_some]
        split
        case isTrue wins =>
          refine ⟨_, rfl, rfl, MessageTable.guards_newerMessage.le_of_wins wins, ?_⟩
          intro level _
          have level : row.seq = old.seq := level
          simp only [newerMessage, CachedMessage.unquoted, CachedMessage.ofRow, level,
            lt_irrefl, decide_false, Bool.false_or, decide_true, Bool.true_and] at wins
          exact wins
        case isFalse => exact ⟨old, rfl, rfl, le_rfl, fun _ still => still⟩
      · rw [if_neg same]
        exact ⟨old, found, rfl, le_rfl, fun _ still => still⟩

theorem onward_applyTombstone (cache : Cache) (tombstone : MessageId × ChannelId × Int) :
    Onward me cache (applyTombstone cache tombstone) := by
  unfold applyTombstone
  split
  case isFalse => exact Onward.refl me cache
  case isTrue =>
    refine Onward.of_messages fun id old found => ?_
    rw [MessageTable.get?_unquoted_bury]
    by_cases same : id = tombstone.1
    · subst same
      rw [if_pos rfl, found, Option.elim_some]
      split
      case isTrue below =>
        exact ⟨_, rfl, rfl, le_of_lt below, fun level => absurd level (ne_of_gt below)⟩
      case isFalse => exact ⟨old, rfl, rfl, le_rfl, fun _ still => still⟩
    · rw [if_neg same]
      exact ⟨old, found, rfl, le_rfl, fun _ still => still⟩

theorem messageStage_memberships (cache : Cache) (batch : Batch) :
    (messageStage cache batch).memberships = cache.memberships := by
  obtain ⟨messages, same, -⟩ := messageStage_eq cache batch
  rw [same]

theorem applyTombstone_tables (cache : Cache) (tombstone : MessageId × ChannelId × Int) :
    ∃ messages, applyTombstone cache tombstone = { cache with messages := messages } := by
  unfold applyTombstone
  split
  · exact ⟨_, rfl⟩
  · exact ⟨cache.messages, rfl⟩

theorem tombstoneStage_memberships (cache : Cache) (batch : Batch) :
    (tombstoneStage cache batch).memberships = cache.memberships := by
  unfold tombstoneStage
  refine List.foldlRecOn
    (motive := fun after : Cache => after.memberships = cache.memberships) _ _ rfl ?_
  intro before same tombstone _
  obtain ⟨messages, made⟩ := applyTombstone_tables before tombstone
  rw [made, ← same]

theorem onward_foldl {Entry : Type} {step : Cache → Entry → Cache} (entries : List Entry)
    (onward : ∀ cache, ∀ entry ∈ entries, Onward me cache (step cache entry)) (cache : Cache) :
    Onward me cache (entries.foldl step cache) :=
  List.foldlRecOn (motive := fun after : Cache => Onward me cache after) entries _
    (Onward.refl me cache) fun before earlier entry member =>
      earlier.trans (onward before entry member)

theorem onward_ownStage (cache : Cache) (batch : Batch) :
    Onward me cache (ownStage me cache batch) :=
  onward_foldl _ (fun before _ member =>
    onward_applyOwn before (by simpa using (List.mem_filter.mp member).2)) cache

theorem onward_removalStage (cache : Cache) (batch : Batch) :
    Onward me cache (removalStage me cache batch) :=
  onward_foldl _ (fun before removal _ => onward_applyRemoval before removal) cache

theorem onward_messageStage (cache : Cache) (batch : Batch) :
    Onward me cache (messageStage cache batch) :=
  onward_foldl _ (fun before row _ => onward_applyMessage before batch row) cache

theorem onward_tombstoneStage (cache : Cache) (batch : Batch) :
    Onward me cache (tombstoneStage cache batch) :=
  onward_foldl _ (fun before tombstone _ => onward_applyTombstone before tombstone) cache

/-- A batch as the server's answers and events make it: the departures are of others, and
the messages are whole. -/
structure Whole (me : UserId) (batch : Batch) : Prop where
  others : ∀ left ∈ batch.left, left.2.1 ≠ me
  full : ∀ row ∈ batch.messages, row.json.isPartial = false
  sent : batch.Sent

theorem onward_apply (cache : Cache) {batch : Batch} (whole : Whole me batch) :
    Onward me cache (apply me cache batch) := by
  rw [apply_eq]
  exact ((((((onward_ownStage cache batch).trans (onward_removalStage _ batch)).trans
    (onward_channelStage _ batch)).trans (onward_memberStage _ batch)).trans
    (onward_leftStage _ whole.others)).trans (onward_userStage _ batch)).trans
    ((onward_messageStage _ batch).trans (onward_tombstoneStage _ batch))

theorem Mine.apply (mine : cache.Mine me) {batch : Batch} (whole : Whole me batch) :
    (apply me cache batch).Mine me := by
  have own : (ownStage me cache batch).Mine me :=
    List.foldlRecOn (motive := fun after : Cache => after.Mine me) _ _ mine
      fun before mine row member =>
        mine.applyOwn (by simpa using (List.mem_filter.mp member).2)
  have removed : (removalStage me (ownStage me cache batch) batch).Mine me :=
    List.foldlRecOn (motive := fun after : Cache => after.Mine me) _ _ own
      fun _ mine removal _ => mine.applyRemoval removal
  have rows : (rowsIn me cache batch).Mine me := by
    have channels : (channelStage _ batch).Mine me :=
      removed.of_same fun channel => by rw [channelStage_eq]
    have members := channels.of_same (memberStage_own _ batch)
    have left := members.of_same (leftStage_own _ whole.others)
    exact left.of_same fun channel => by rw [rowsIn, userStage_eq]
  have same : ∀ channel, (Cache.apply me cache batch).memberships.get? (channel, me) =
      (rowsIn me cache batch).memberships.get? (channel, me) := by
    intro channel
    rw [apply_rowsIn, tombstoneStage_memberships, messageStage_memberships]
  exact rows.of_same same

/-! ### What is left to do -/

def ChannelDone (cache : Cache) (row : ChannelRow) : Prop :=
  cache.fencedAtOrAbove row.id row.seq = true ∨
    ∃ kept, cache.channels.get? row.id = some kept ∧ row.seq ≤ kept.seq

def MemberDone (cache : Cache) (row : MemberRow) : Prop :=
  cache.fencedAtOrAbove row.channelId row.seq = true ∨
    ∃ kept, cache.memberships.get? (row.channelId, row.userId) = some kept ∧
      row.seq ≤ kept.seq

def MessageDone (batch : Batch) (cache : Cache) (row : MessageRow) : Prop :=
  staleHistory batch cache row.channelId = true ∨
    cache.messageMayLand row.channelId row.seq batch.history = false ∨
    ∃ kept, (MessageTable.unquoted cache.messages).get? row.id = some kept ∧
      row.seq ≤ kept.seq ∧ (kept.seq = row.seq → kept.json.isPartial = false)

def TombstoneDone (cache : Cache) (tombstone : MessageId × ChannelId × Int) : Prop :=
  cache.messageMayLand tombstone.2.1 tombstone.2.2 false = false ∨
    ∃ kept, (MessageTable.unquoted cache.messages).get? tombstone.1 = some kept ∧
      tombstone.2.2 ≤ kept.seq

/-- No row of the batch has anything left to do. -/
structure Settled (me : UserId) (cache : Cache) (batch : Batch) : Prop where
  own : ∀ row ∈ batch.memberships, row.userId = me → cache.OwnDone me row.channelId row.seq
  removed : ∀ removal ∈ batch.removed, cache.RemovalDone me removal.1 removal.2
  channels : ∀ row ∈ batch.channels, cache.ChannelDone row
  members : ∀ row ∈ batch.memberships, row.userId ≠ me → cache.MemberDone row
  left : ∀ left ∈ batch.left, ∃ kept,
    cache.memberships.get? (left.1, left.2.1) = some kept ∧ left.2.2 ≤ kept.seq
  users : ∀ row ∈ batch.users, ∃ kept,
    cache.users.get? row.id = some kept ∧ row.seq ≤ kept.seq
  messages : ∀ row ∈ batch.messages, cache.MessageDone batch row
  tombstones : ∀ tombstone ∈ batch.tombstones, cache.TombstoneDone tombstone

/-- The channels' removals are the same. -/
def SameRemovals (before after : Cache) : Prop :=
  ∀ channel, after.fenceOf channel = before.fenceOf channel ∧
    after.floorOf channel = before.floorOf channel

/-- The channels are there or not as they were, with the same removals. -/
structure Standing (before after : Cache) : Prop where
  present : ∀ channel, after.channelPresent channel = before.channelPresent channel
  removals : SameRemovals before after

theorem SameRemovals.of_removed {before after : Cache} (removed : after.removed = before.removed) :
    SameRemovals before after := fun channel => by
  rw [fenceOf, floorOf, removed]
  exact ⟨rfl, rfl⟩

section

variable {before after : Cache}

theorem SameRemovals.fenced (same : SameRemovals before after) (channel : ChannelId)
    (seq : Int) : after.fencedAtOrAbove channel seq = before.fencedAtOrAbove channel seq := by
  rw [fencedAtOrAbove, (same channel).1, fencedAtOrAbove]

theorem SameRemovals.not_raised (same : SameRemovals before after) (channel : ChannelId) :
    ¬ Raised before after channel := by
  rintro ⟨last, found, above⟩
  rw [(same channel).2] at found
  exact lt_irrefl last (all_lt above found)

theorem ChannelDone.later {row : ChannelRow} (done : before.ChannelDone row)
    (onward : Onward me before after) (same : SameRemovals before after) :
    after.ChannelDone row := by
  rcases done with fenced | ⟨kept, found, below⟩
  · exact Or.inl ((same.fenced row.id row.seq).trans fenced)
  · rcases onward.channels row.id kept found with raised | ⟨later, there, above⟩
    · exact absurd raised (same.not_raised _)
    · exact Or.inr ⟨later, there, le_trans below above⟩

theorem membership_later {key : ChannelId × UserId} {seq : Int}
    (stored : ∃ kept, before.memberships.get? key = some kept ∧ seq ≤ kept.seq)
    (onward : Onward me before after) (same : SameRemovals before after) :
    ∃ kept, after.memberships.get? key = some kept ∧ seq ≤ kept.seq := by
  obtain ⟨kept, found, below⟩ := stored
  rcases onward.memberships key kept found with raised | ⟨later, there, above⟩
  · exact absurd raised (same.not_raised _)
  · exact ⟨later, there, le_trans below above⟩

theorem MemberDone.later {row : MemberRow} (done : before.MemberDone row)
    (onward : Onward me before after) (same : SameRemovals before after) :
    after.MemberDone row := by
  rcases done with fenced | stored
  · exact Or.inl ((same.fenced row.channelId row.seq).trans fenced)
  · exact Or.inr (membership_later stored onward same)

theorem Standing.mayLand (standing : Standing before after) (channel : ChannelId) (seq : Int)
    (history : Bool) :
    after.messageMayLand channel seq history = before.messageMayLand channel seq history := by
  rw [messageMayLand, standing.present, standing.removals.fenced,
    (standing.removals channel).2, messageMayLand]

theorem MessageDone.later {batch : Batch} {row : MessageRow}
    (done : before.MessageDone batch row) (onward : Onward me before after)
    (standing : Standing before after) : after.MessageDone batch row := by
  rcases done with stale | shut | ⟨kept, found, below, whole⟩
  · left
    rw [staleHistory, (standing.removals row.channelId).2]
    exact stale
  · right; left
    rw [standing.mayLand]
    exact shut
  · rcases onward.messages row.id kept found with raised | ⟨later, there, -, above, still⟩
    · exact absurd raised (standing.removals.not_raised _)
    · refine Or.inr (Or.inr ⟨later, there, le_trans below above, fun level => ?_⟩)
      have stays : kept.seq = row.seq := le_antisymm (level ▸ above) below
      by_contra isPartial
      have was := still (level.trans stays.symm) (Bool.not_eq_false _ ▸ isPartial)
      rw [whole stays] at was
      cases was

theorem TombstoneDone.later {tombstone : MessageId × ChannelId × Int}
    (done : before.TombstoneDone tombstone) (onward : Onward me before after)
    (standing : Standing before after) : after.TombstoneDone tombstone := by
  rcases done with shut | ⟨kept, found, below⟩
  · left
    rw [standing.mayLand]
    exact shut
  · rcases onward.messages tombstone.1 kept found with raised | ⟨later, there, -, above, -⟩
    · exact absurd raised (standing.removals.not_raised _)
    · exact Or.inr ⟨later, there, le_trans below above⟩

theorem Settled.later {batch : Batch} (settled : Settled me before batch)
    (onward : Onward me before after) (standing : Standing before after) :
    Settled me after batch where
  own row member own := onward.own _ _ (settled.own row member own)
  removed removal member := onward.removal _ _ (settled.removed removal member)
  channels row member := (settled.channels row member).later onward standing.removals
  members row member other := (settled.members row member other).later onward standing.removals
  left left member := membership_later (settled.left left member) onward standing.removals
  users row member := by
    obtain ⟨kept, found, below⟩ := settled.users row member
    obtain ⟨later, there, above⟩ := onward.users row.id kept found
    exact ⟨later, there, le_trans below above⟩
  messages row member := (settled.messages row member).later onward standing
  tombstones tombstone member := (settled.tombstones tombstone member).later onward standing

end

/-! ### A batch settles its rows -/

/-- Every entry is done at its turn, and stays so. -/
theorem foldl_done {Entry : Type} (step : Cache → Entry → Cache) (good : Cache → Prop)
    (done : Cache → Entry → Prop) (entries : List Entry)
    (kept : ∀ cache, ∀ entry ∈ entries, good cache → good (step cache entry))
    (turn : ∀ cache, ∀ entry ∈ entries, good cache → done (step cache entry) entry)
    (later : ∀ cache entry, ∀ other ∈ entries, done cache entry → done (step cache other) entry)
    {cache : Cache} (start : good cache) :
    ∀ entry ∈ entries, done (entries.foldl step cache) entry := by
  induction entries generalizing cache with
  | nil =>
      intro entry member
      cases member
  | cons first rest ih =>
      have rest' := ih (fun cache entry member => kept cache entry (List.mem_cons_of_mem _ member))
        (fun cache entry member => turn cache entry (List.mem_cons_of_mem _ member))
        (fun cache entry other member => later cache entry other (List.mem_cons_of_mem _ member))
        (kept cache first List.mem_cons_self start)
      intro entry member
      rcases List.mem_cons.mp member with rfl | inside
      · exact List.foldlRecOn (motive := fun after : Cache => done after entry) rest _
          (turn cache entry List.mem_cons_self start) fun before held other there =>
            later before entry other (List.mem_cons_of_mem _ there) held
      · exact rest' entry inside

theorem standing_of_messages {messages : MessageTable} :
    Standing cache { cache with messages := messages } where
  present _ := rfl
  removals := SameRemovals.of_removed rfl

theorem standing_applyMessage (cache : Cache) (batch : Batch) (row : MessageRow) :
    Standing cache (applyMessage batch cache row) := by
  unfold applyMessage
  split
  · exact standing_of_messages
  · split
    · exact standing_of_messages
    · exact standing_of_messages

theorem standing_applyTombstone (cache : Cache) (tombstone : MessageId × ChannelId × Int) :
    Standing cache (applyTombstone cache tombstone) := by
  obtain ⟨messages, made⟩ := applyTombstone_tables cache tombstone
  rw [made]
  exact standing_of_messages

theorem applyMessage_done (batch : Batch) (cache : Cache) {row : MessageRow}
    (full : row.json.isPartial = false) :
    (applyMessage batch cache row).MessageDone batch row := by
  unfold applyMessage
  split
  case isTrue stale => exact Or.inl stale
  case isFalse =>
    split
    case isFalse shut => exact Or.inr (Or.inl (Bool.eq_false_iff.mpr shut))
    case isTrue =>
      right; right
      have made := @MessageTable.get?_unquoted_store cache.messages batch.history row row.id
      rw [if_pos rfl] at made
      refine ⟨_, made, ?_⟩
      cases (MessageTable.unquoted cache.messages).get? row.id with
      | none => exact ⟨le_rfl, fun _ => full⟩
      | some old =>
          rw [Option.elim_some]
          split
          case isTrue => exact ⟨le_rfl, fun _ => full⟩
          case isFalse loses =>
            rw [Bool.not_eq_true] at loses
            refine ⟨MessageTable.guards_newerMessage.le_of_loses loses, fun level => ?_⟩
            simp only [newerMessage, CachedMessage.unquoted, CachedMessage.ofRow, ← level,
              lt_irrefl, decide_false, Bool.false_or, decide_true, Bool.true_and] at loses
            exact loses

theorem applyTombstone_done (cache : Cache) (tombstone : MessageId × ChannelId × Int) :
    (applyTombstone cache tombstone).TombstoneDone tombstone := by
  unfold applyTombstone
  split
  case isFalse shut => exact Or.inl (Bool.eq_false_iff.mpr shut)
  case isTrue =>
    right
    have made := @MessageTable.get?_unquoted_bury cache.messages tombstone.1 tombstone.2.1
      tombstone.2.2 tombstone.1
    rw [if_pos rfl] at made
    refine ⟨_, made, ?_⟩
    cases (MessageTable.unquoted cache.messages).get? tombstone.1 with
    | none => exact le_rfl
    | some old =>
        rw [Option.elim_some]
        split
        case isTrue => exact le_rfl
        case isFalse above => exact not_lt.mp above

theorem ownStage_done (mine : cache.Mine me) (batch : Batch) :
    ∀ row ∈ batch.memberships, row.userId = me →
      (ownStage me cache batch).OwnDone me row.channelId row.seq := by
  have done := foldl_done applyOwn (Mine me)
    (fun cache row => cache.OwnDone me row.channelId row.seq)
    (batch.memberships.filter (·.userId = me))
    (fun _ _ member mine => mine.applyOwn (by simpa using (List.mem_filter.mp member).2))
    (fun _ _ member mine => applyOwn_done mine (by simpa using (List.mem_filter.mp member).2))
    (fun before _ _ member held =>
      (onward_applyOwn before (by simpa using (List.mem_filter.mp member).2)).own _ _ held) mine
  intro row member own
  exact done row (List.mem_filter.mpr ⟨member, by simpa using own⟩)

theorem removalStage_done (cache : Cache) (batch : Batch) :
    ∀ removal ∈ batch.removed,
      (removalStage me cache batch).RemovalDone me removal.1 removal.2 :=
  foldl_done (applyRemoval me) (fun _ => True)
    (fun cache removal => cache.RemovalDone me removal.1 removal.2) batch.removed
    (fun _ _ _ _ => trivial) (fun before removal _ _ => applyRemoval_done before removal)
    (fun before _ other _ held => (onward_applyRemoval before other).removal _ _ held) trivial

theorem channelStage_done (cache : Cache) (batch : Batch) :
    ∀ row ∈ batch.channels, (channelStage cache batch).ChannelDone row := by
  intro row member
  rw [channelStage_eq]
  cases fenced : cache.fencedAtOrAbove row.id row.seq with
  | true => exact Or.inl fenced
  | false =>
      refine Or.inr (Table.upsertAll_ge_new guards_newerChannel
        (?_ : (row.id, (⟨row.seq, row.json⟩ : CachedChannel)) ∈ _))
      exact List.mem_map.mpr ⟨row, List.mem_filter.mpr ⟨member, by simp [fenced]⟩, rfl⟩

theorem memberStage_done (cache : Cache) (batch : Batch) :
    ∀ row ∈ batch.memberships, row.userId ≠ me → (memberStage me cache batch).MemberDone row := by
  intro row member other
  rw [memberStage_eq]
  cases fenced : cache.fencedAtOrAbove row.channelId row.seq with
  | true => exact Or.inl fenced
  | false =>
      refine Or.inr (Table.upsertAll_ge_new guards_newerMembership
        (?_ : ((memberEntry row).1, (memberEntry row).2) ∈ _))
      have listed : row ∈ batch.memberships.filter (·.userId ≠ me) :=
        List.mem_filter.mpr ⟨member, decide_eq_true other⟩
      exact List.mem_map.mpr ⟨row, List.mem_filter.mpr ⟨listed, by simp [fenced]⟩, rfl⟩

theorem leftStage_done (cache : Cache) (batch : Batch) : ∀ left ∈ batch.left, ∃ kept,
    (leftStage cache batch).memberships.get? (left.1, left.2.1) = some kept ∧
      left.2.2 ≤ kept.seq := by
  intro left member
  rw [leftStage_eq]
  refine Table.upsertAll_ge_new guards_newerDeparture
    (?_ : ((left.1, left.2.1), (⟨left.2.2, true, none⟩ : CachedMembership)) ∈ _)
  exact List.mem_map.mpr ⟨left, member, rfl⟩

theorem userStage_done (cache : Cache) (batch : Batch) : ∀ row ∈ batch.users, ∃ kept,
    (userStage cache batch).users.get? row.id = some kept ∧ row.seq ≤ kept.seq := by
  intro row member
  rw [userStage_eq]
  refine Table.upsertAll_ge_new guards_newerUser
    (?_ : (row.id, (⟨row.seq, row.json⟩ : CachedUser)) ∈ _)
  exact List.mem_map.mpr ⟨row, member, rfl⟩

theorem messageStage_done (cache : Cache) {batch : Batch}
    (full : ∀ row ∈ batch.messages, row.json.isPartial = false) :
    ∀ row ∈ batch.messages, (messageStage cache batch).MessageDone batch row :=
  foldl_done (applyMessage batch) (fun _ => True) (MessageDone batch) batch.messages
    (fun _ _ _ _ => trivial) (fun before row member _ => applyMessage_done batch before
      (full row member))
    (fun before _ other _ held => held.later (@onward_applyMessage 0 before batch other)
      (standing_applyMessage before batch other)) trivial

theorem tombstoneStage_done (cache : Cache) (batch : Batch) :
    ∀ tombstone ∈ batch.tombstones, (tombstoneStage cache batch).TombstoneDone tombstone :=
  foldl_done applyTombstone (fun _ => True) TombstoneDone batch.tombstones
    (fun _ _ _ _ => trivial) (fun before tombstone _ _ => applyTombstone_done before tombstone)
    (fun before _ other _ held => held.later (@onward_applyTombstone 0 before other)
      (standing_applyTombstone before other)) trivial

/-- Right after it was applied, a batch has nothing left to do. -/
theorem settled_apply (mine : cache.Mine me) {batch : Batch} (whole : Whole me batch) :
    Settled me (apply me cache batch) batch := by
  -- The stages that follow each one, and that they leave the removals alone.
  have afterMessages : ∀ cache, Onward me cache (tombstoneStage cache batch) := fun cache =>
    onward_tombstoneStage cache batch
  have afterUsers : ∀ cache, Onward me cache (tombstoneStage (messageStage cache batch) batch) :=
    fun cache => (onward_messageStage cache batch).trans (afterMessages _)
  have afterLeft : ∀ cache, Onward me cache
      (tombstoneStage (messageStage (userStage cache batch) batch) batch) := fun cache =>
    (onward_userStage cache batch).trans (afterUsers _)
  have afterMembers : ∀ cache, Onward me cache
      (tombstoneStage (messageStage (userStage (leftStage cache batch) batch) batch) batch) :=
    fun cache => (onward_leftStage cache whole.others).trans (afterLeft _)
  have afterChannels : ∀ cache, Onward me cache (tombstoneStage (messageStage (userStage
      (leftStage (memberStage me cache batch) batch) batch) batch) batch) := fun cache =>
    (onward_memberStage cache batch).trans (afterMembers _)
  have afterRemovals : ∀ cache, Onward me cache (tombstoneStage (messageStage (userStage
      (leftStage (memberStage me (channelStage cache batch) batch) batch) batch) batch) batch) :=
    fun cache => (onward_channelStage cache batch).trans (afterChannels _)
  have removed : (apply me cache batch).removed =
      (removalStage me (ownStage me cache batch) batch).removed := apply_removed me cache batch
  have sameChannels : SameRemovals
      (channelStage (removalStage me (ownStage me cache batch) batch) batch)
      (apply me cache batch) :=
    SameRemovals.of_removed (by rw [removed, channelStage_eq])
  have sameMembers : SameRemovals (memberStage me
      (channelStage (removalStage me (ownStage me cache batch) batch) batch) batch)
      (apply me cache batch) :=
    SameRemovals.of_removed (by rw [removed, memberStage_eq, channelStage_eq])
  have sameLeft : SameRemovals (leftStage (memberStage me
      (channelStage (removalStage me (ownStage me cache batch) batch) batch) batch) batch)
      (apply me cache batch) :=
    SameRemovals.of_removed (by rw [removed, leftStage_eq, memberStage_eq, channelStage_eq])
  refine ⟨fun row member own => ?_, fun removal member => ?_, fun row member => ?_,
    fun row member other => ?_, fun left member => ?_, fun row member => ?_,
    fun row member => ?_, tombstoneStage_done _ batch⟩
  · have done := ownStage_done mine batch row member own
    exact ((onward_removalStage _ batch).trans (afterRemovals _)).own _ _ done
  · exact (afterRemovals _).removal _ _ (removalStage_done _ batch removal member)
  · exact (channelStage_done _ batch row member).later (afterChannels _) sameChannels
  · exact (memberStage_done _ batch row member other).later (afterMembers _) sameMembers
  · exact membership_later (leftStage_done _ batch left member) (afterLeft _) sameLeft
  · obtain ⟨kept, found, below⟩ := userStage_done _ batch row member
    obtain ⟨later, there, above⟩ := (afterUsers _).users row.id kept found
    exact ⟨later, there, le_trans below above⟩
  · have standing : ∀ cache, Standing cache (tombstoneStage cache batch) := by
      intro cache
      exact List.foldlRecOn (motive := fun after : Cache => Standing cache after) batch.tombstones _
        (standing_of_messages) fun before earlier tombstone _ => by
          have next := standing_applyTombstone before tombstone
          exact ⟨fun channel => (next.present channel).trans (earlier.present channel),
            fun channel => ⟨((next.removals channel).1).trans (earlier.removals channel).1,
              ((next.removals channel).2).trans (earlier.removals channel).2⟩⟩
    exact (messageStage_done _ whole.full row member).later (afterMessages _) (standing _)

/-! ### A settled batch is idle -/

theorem foldl_idle {Entry : Type} {step : Cache → Entry → Cache} {entries : List Entry}
    (idle : ∀ entry ∈ entries, step cache entry = cache) : entries.foldl step cache = cache := by
  induction entries with
  | nil => rfl
  | cons entry rest ih =>
      rw [List.foldl_cons, idle entry List.mem_cons_self]
      exact ih fun later member => idle later (List.mem_cons_of_mem entry member)

theorem upsert_idle {Key Row : Type} [DecidableEq Key] {clause : ConflictClause Row}
    {table : Table Key Row} {key : Key} {row kept : Row} (found : table.get? key = some kept)
    (loses : clause.wins row kept = false) : table.upsert clause key row = table := by
  apply Table.upsert_of_not_upserts
  rw [Table.upserts, found, Option.all_some]
  exact loses

theorem applyOwn_idle {row : MemberRow} (own : row.userId = me)
    (done : cache.OwnDone me row.channelId row.seq) : cache.applyOwn row = cache := by
  rcases applyOwn_cases cache own with ⟨same, -⟩ | ⟨above, newer, -⟩
  · exact same
  · rcases done with fenced | behind
    · rw [above] at fenced
      cases fenced
    · obtain ⟨last, found, below⟩ := any_le.mp behind
      obtain ⟨kept, there, -, rfl⟩ := ownSeq_eq_some.mp found
      exact absurd (newer kept there) (not_lt.mpr below)

theorem applyRemoval_idle {removal : ChannelId × Int}
    (done : cache.RemovalDone me removal.1 removal.2) : cache.applyRemoval me removal = cache := by
  unfold applyRemoval
  rcases done with behind | below
  · rw [if_pos behind]
  · rw [if_pos below, ite_self]

theorem applyChannel_idle {row : ChannelRow} (done : cache.ChannelDone row) :
    cache.applyChannel row = cache := by
  unfold applyChannel
  rcases done with fenced | ⟨kept, found, below⟩
  · rw [if_pos fenced]
  · split
    · rfl
    · rw [upsert_idle found (decide_eq_false (not_lt.mpr below))]

theorem applyMembership_idle {row : MemberRow} (done : cache.MemberDone row) :
    cache.applyMembership row = cache := by
  unfold applyMembership
  rcases done with fenced | ⟨kept, found, below⟩
  · rw [if_pos fenced]
  · split
    · rfl
    · rw [upsert_idle (by exact found) (decide_eq_false (not_lt.mpr below))]

theorem applyMessage_idle {batch : Batch} {row : MessageRow}
    (done : cache.MessageDone batch row) : applyMessage batch cache row = cache := by
  unfold applyMessage
  rcases done with stale | shut | ⟨kept, found, below, whole⟩
  · rw [if_pos stale]
  · split
    · rfl
    · rw [if_neg (by rw [shut]; decide)]
  · split
    · rfl
    · split
      case isFalse => rfl
      case isTrue =>
        have loses : cache.messages.upserts newerMessage row.id (CachedMessage.ofRow row) =
            false := by
          rw [MessageTable.upserts_unquoted, found, Option.all_some]
          simp only [newerMessage, CachedMessage.unquoted, CachedMessage.ofRow,
            Bool.or_eq_false_iff, decide_eq_false_iff_not, not_lt, Bool.and_eq_false_iff]
          refine ⟨below, ?_⟩
          by_cases level : kept.seq = row.seq
          · exact Or.inr (whole level)
          · exact Or.inl fun same => level same.symm
        rw [MessageTable.store_of_not_upserts loses]

/-- Nothing is rewritten where every quote of the message reads as deleted. -/
theorem refreshExcerpts_idle {messages : MessageTable} {target : MessageId}
    (quoted : MessageTable.Quoted messages) {kept : CachedMessage}
    (found : messages.get? target = some kept) (deleted : kept.isDeleted = true) :
    MessageTable.refreshExcerpts messages target none = messages := by
  have same : ∀ entry ∈ messages.rows, (entry.1,
      if entry.2.json.replyToId = some target then
        { entry.2 with json := { entry.2.json with
          replyTo := entry.2.json.replyTo.map fun _ => MessageTable.deletedExcerpt } }
      else entry.2) = entry := by
    rintro ⟨id, row⟩ member
    dsimp only
    split
    case isFalse => rfl
    case isTrue names =>
      have stored := Table.mem_rows.mp member
      have quote : row.json.replyTo.map (fun _ => MessageTable.deletedExcerpt) =
          row.json.replyTo := by
        cases replies : row.json.replyTo with
        | none => rfl
        | some quote =>
            rw [Option.map_some, quoted id row quote target kept trivial stored replies names
              found deleted]
      rw [quote]
  obtain ⟨rows, keysNodup⟩ := messages
  unfold MessageTable.refreshExcerpts Table.mapRows
  congr 1
  exact (List.map_congr_left same).trans (List.map_id rows)

theorem applyTombstone_idle {tombstone : MessageId × ChannelId × Int}
    (done : cache.TombstoneDone tombstone) (quoted : MessageTable.Quoted cache.messages)
    (buried : cache.messageMayLand tombstone.2.1 tombstone.2.2 false = true →
      ∀ kept, cache.messages.get? tombstone.1 = some kept → kept.isDeleted = true) :
    applyTombstone cache tombstone = cache := by
  unfold applyTombstone
  split
  case isFalse => rfl
  case isTrue lands =>
    rcases done with shut | ⟨kept, found, below⟩
    · rw [lands] at shut
      cases shut
    · rw [MessageTable.get?_unquoted, Option.map_eq_some_iff] at found
      obtain ⟨stored, there, rfl⟩ := found
      have stays : MessageTable.bury cache.messages tombstone.1 tombstone.2.1 tombstone.2.2 =
          MessageTable.refreshExcerpts cache.messages tombstone.1 none := by
        unfold MessageTable.bury
        simp only [there]
        rw [if_neg (not_lt.mpr (by exact below))]
      rw [stays, refreshExcerpts_idle quoted there (buried lands stored there)]

/-- The messages that a batch deletes live are still deleted. -/
def Buried (cache : Cache) (batch : Batch) : Prop :=
  ∀ tombstone ∈ batch.tombstones,
    cache.messageMayLand tombstone.2.1 tombstone.2.2 false = true →
    ∀ kept, cache.messages.get? tombstone.1 = some kept → kept.isDeleted = true

theorem apply_idle {batch : Batch} (settled : Settled me cache batch)
    (quoted : MessageTable.Quoted cache.messages) (buried : cache.Buried batch) :
    apply me cache batch = cache := by
  have own : ownStage me cache batch = cache := foldl_idle fun row member => by
    obtain ⟨listed, own⟩ := List.mem_filter.mp member
    exact applyOwn_idle (of_decide_eq_true own) (settled.own row listed (of_decide_eq_true own))
  have removed : removalStage me cache batch = cache := foldl_idle fun removal member =>
    applyRemoval_idle (settled.removed removal member)
  have channels : channelStage cache batch = cache := foldl_idle fun row member =>
    applyChannel_idle (settled.channels row member)
  have members : memberStage me cache batch = cache := foldl_idle fun row member => by
    obtain ⟨listed, other⟩ := List.mem_filter.mp member
    exact applyMembership_idle (settled.members row listed (of_decide_eq_true other))
  have left : leftStage cache batch = cache := foldl_idle fun left member => by
    obtain ⟨kept, found, below⟩ := settled.left left member
    rw [applyLeft, upsert_idle found (decide_eq_false (not_lt.mpr below))]
  have users : userStage cache batch = cache := foldl_idle fun row member => by
    obtain ⟨kept, found, below⟩ := settled.users row member
    rw [applyUser, upsert_idle found (decide_eq_false (not_lt.mpr below))]
  have messages : messageStage cache batch = cache := foldl_idle fun row member =>
    applyMessage_idle (settled.messages row member)
  have tombstones : tombstoneStage cache batch = cache := foldl_idle fun tombstone member =>
    applyTombstone_idle (settled.tombstones tombstone member) quoted (buried tombstone member)
  rw [apply_eq, own, removed, channels, members, left, users, messages, tombstones]

end

end Cache

open Cache

/-- Batches one after the other, from an empty cache. -/
def applied (me : UserId) (batches : List Batch) : Cache :=
  batches.foldl (Cache.apply me) Cache.empty

/-- A message comes before its channel is there. -/
def earlyMessage : Batch :=
  { messages := [.plain 1 2 "words".toList none []] }

def channelArrives : Batch :=
  { channels := [.plain 1 1] }

/-- A removal, and a message from before it that comes after. -/
def leavesChannel : Batch :=
  { removed := [(1, 5)] }

def lateMessage : Batch :=
  { messages := [.plain 1 2 "words".toList none []] }

end Brook
