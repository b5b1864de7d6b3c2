import Brook.Cache.Collapse

namespace Brook

namespace Cache

/-! What a removal keeps out of the cache. -/

/-- The last removal of the channel is passed over by none of the guards. -/
def TakesEffect (me : UserId) (cache : Cache) (batch : Batch) (channel : ChannelId)
    (seq : Int) : Prop :=
  ∃ front back, batch.removed = front ++ (channel, seq) :: back ∧
    ((front.foldl (applyRemoval me) (ownStage me cache batch)).ownSeq me channel).all
      (· < seq) = true ∧
    ((front.foldl (applyRemoval me) (ownStage me cache batch)).floorOf channel).all
      (· < seq) = true

/-- Nothing of the channel is left from before the removal, and no membership of the
caller's own. -/
structure Out (me : UserId) (cache : Cache) (channel : ChannelId) (seq : Int) : Prop where
  channels : ∀ row, cache.channels.get? channel = some row → seq < row.seq
  messages : ∀ id row, cache.messages.get? id = some row → row.channelId = channel →
    seq < row.seq
  memberships : ∀ user row, cache.memberships.get? (channel, user) = some row →
    row.left = false → seq < row.seq
  own : ∀ row, cache.memberships.get? (channel, me) = some row → row.left = true

/-- The caller is out, and the fence is up. -/
structure Shut (me : UserId) (cache : Cache) (channel : ChannelId) (seq : Int) : Prop
    extends Out me cache channel seq where
  fence : ∃ last, cache.removed.get? channel = some ⟨last, true⟩ ∧ seq ≤ last

variable {me : UserId} {cache after : Cache} {channel : ChannelId} {seq : Int}

theorem fenceOf_of_active {last : Int} (fence : cache.removed.get? channel = some ⟨last, true⟩) :
    cache.fenceOf channel = some last := by
  simp [fenceOf, fence, Option.filter]

theorem Shut.fenced (shut : cache.Shut me channel seq) {number : Int} (below : number ≤ seq) :
    cache.fencedAtOrAbove channel number = true := by
  obtain ⟨last, fence, reaches⟩ := shut.fence
  simp [fencedAtOrAbove, fenceOf_of_active fence, le_trans below reaches]

theorem Shut.above (shut : cache.Shut me channel seq) {number : Int}
    (lands : cache.fencedAtOrAbove channel number = false) : seq < number := by
  by_contra below
  rw [shut.fenced (not_lt.mp below)] at lands
  cases lands

theorem shut_of_drops {last : Int} (drops : DropsChannel cache channel last)
    (reaches : seq ≤ last) : cache.Shut me channel seq where
  channels row found := by
    rw [drops.channels] at found
    cases found
  messages id row found here := absurd here (drops.messages id row found)
  memberships user row found := by
    rw [drops.memberships] at found
    cases found
  own row found := by
    rw [drops.memberships] at found
    cases found
  fence := ⟨last, drops.removed, reaches⟩

theorem Shut.keep (shut : cache.Shut me channel seq) (keeps : KeepsChannel cache after channel) :
    after.Shut me channel seq where
  channels row found := shut.channels row (keeps.channels ▸ found)
  messages id row found here := shut.messages id row ((keeps.messages id row here).mp found) here
  memberships user row found := by
    rw [keeps.memberships] at found
    exact shut.memberships user row found
  own row found := by
    rw [keeps.memberships] at found
    exact shut.own row found
  fence := by
    rw [keeps.removed]
    exact shut.fence

/-! ### Removals -/

/-- A removal does nothing to a channel, or it is above the floor and the caller's own
membership and takes it. -/
theorem applyRemoval_effect (me : UserId) (cache : Cache) (removal : ChannelId × Int)
    (channel : ChannelId) :
    KeepsChannel cache (applyRemoval me cache removal) channel ∨
      (removal.1 = channel ∧ (cache.ownSeq me channel).all (· < removal.2) = true ∧
        (cache.floorOf channel).all (· < removal.2) = true ∧
        DropsChannel (applyRemoval me cache removal) channel removal.2) := by
  have below : ∀ {bound : Option Int}, ¬ bound.any (removal.2 ≤ ·) = true →
      bound.all (· < removal.2) = true := by
    intro bound
    cases bound <;> simp
  by_cases here : removal.1 = channel
  · subst here
    by_cases own : (cache.ownSeq me removal.1).any (removal.2 ≤ ·) = true
    · left
      rw [applyRemoval, if_pos own]
      exact KeepsChannel.refl cache removal.1
    · by_cases floor : (cache.floorOf removal.1).any (removal.2 ≤ ·) = true
      · left
        rw [applyRemoval, if_neg own, if_pos floor]
        exact KeepsChannel.refl cache removal.1
      · exact Or.inr ⟨rfl, below own, below floor,
          applyRemoval_drops me cache (below own) (below floor)⟩
  · rcases applyRemoval_cases me cache removal channel with keeps | ⟨same, -⟩
    · exact Or.inl keeps
    · exact absurd same here

theorem Shut.applyRemoval (shut : cache.Shut me channel seq) (removal : ChannelId × Int) :
    (cache.applyRemoval me removal).Shut me channel seq := by
  rcases applyRemoval_effect me cache removal channel with keeps | ⟨-, -, floor, drops⟩
  · exact shut.keep keeps
  · obtain ⟨last, fence, reaches⟩ := shut.fence
    apply shut_of_drops drops
    rw [floorOf, fence, Option.map_some, Option.all_some, decide_eq_true_eq] at floor
    exact le_trans reaches (le_of_lt floor)

theorem Shut.removals (shut : cache.Shut me channel seq) (removed : List (ChannelId × Int)) :
    (removed.foldl (Cache.applyRemoval me) cache).Shut me channel seq := by
  induction removed generalizing cache with
  | nil => exact shut
  | cons removal rest ih => exact ih (shut.applyRemoval removal)

theorem shut_of_takesEffect {batch : Batch} (effect : TakesEffect me cache batch channel seq) :
    (removalStage me (ownStage me cache batch) batch).Shut me channel seq := by
  obtain ⟨front, back, listed, own, floor⟩ := effect
  rw [removalStage, listed, List.foldl_append, List.foldl_cons]
  exact (shut_of_drops (applyRemoval_drops me _ own floor) le_rfl).removals back

/-! ### The caller's own memberships -/

theorem Shut.applyOwn (shut : cache.Shut me channel seq) {row : MemberRow}
    (below : row.channelId = channel → row.seq ≤ seq) :
    (cache.applyOwn row).Shut me channel seq := by
  by_cases here : row.channelId = channel
  · have skipped : cache.applyOwn row = cache := by
      rw [Cache.applyOwn, here, if_pos (shut.fenced (below here))]
    rw [skipped]
    exact shut
  · have apart : channel ≠ row.channelId := fun same => here same.symm
    have rows := sameRows_applyOwn cache row
    refine shut.keep ⟨get?_removed_applyOwn_ne cache row apart, ?_, fun user => ?_, ?_,
      fun id message _ => ?_⟩
    · rw [rows.channels]
    · exact get?_applyOwn_ne cache row (by simp [apart])
    · rw [rows.coverage]
    · rw [rows.messages]

theorem Shut.ownStage (shut : cache.Shut me channel seq) {batch : Batch}
    (below : ∀ row ∈ batch.memberships, row.userId = me → row.channelId = channel →
      row.seq ≤ seq) : (ownStage me cache batch).Shut me channel seq := by
  unfold Cache.ownStage
  refine List.foldlRecOn (motive := fun after : Cache => after.Shut me channel seq) _ _ shut ?_
  intro before shut row member
  obtain ⟨listed, own⟩ := List.mem_filter.mp member
  exact shut.applyOwn (below row listed (by simpa using own))

/-! ### The guarded tables -/

theorem Shut.channelStage (shut : cache.Shut me channel seq) (batch : Batch) :
    (channelStage cache batch).Shut me channel seq := by
  rw [channelStage_eq]
  refine { shut with channels := fun row found => ?_ }
  have fromRow : ∀ {row : CachedChannel}, (channel, row) ∈
      (batch.channels.filter fun row => !cache.fencedAtOrAbove row.id row.seq).map
        (fun row => (row.id, (⟨row.seq, row.json⟩ : CachedChannel))) → seq < row.seq := by
    intro row member
    obtain ⟨sent, listed, same⟩ := List.mem_map.mp member
    cases same
    exact shut.above (by simpa using (List.mem_filter.mp listed).2)
  exact Table.upsertAll_induction (fun row => seq < row.seq) (fun stored =>
    shut.channels _ stored) (fun member => fromRow member) (fun member _ => fromRow member) found

/-- What is kept of a member in a shut channel. -/
def keepsOut (me user : UserId) (seq : Int) (row : CachedMembership) : Prop :=
  (row.left = false → seq < row.seq) ∧ (user = me → row.left = true)

theorem Shut.members (shut : cache.Shut me channel seq)
    {memberships : Table (ChannelId × UserId) CachedMembership}
    (kept : ∀ user row, memberships.get? (channel, user) = some row →
      keepsOut me user seq row) :
    Shut me { cache with memberships := memberships } channel seq :=
  { shut with
    memberships := fun user row found => (kept user row found).1
    own := fun row found => (kept me row found).2 rfl }

theorem Shut.memberStage (shut : cache.Shut me channel seq) (batch : Batch) :
    (memberStage me cache batch).Shut me channel seq := by
  rw [memberStage_eq]
  refine shut.members fun user row found => ?_
  have fromRow : ∀ {row}, ((channel, user), row) ∈
      ((batch.memberships.filter (·.userId ≠ me)).filter fun row =>
        !cache.fencedAtOrAbove row.channelId row.seq).map memberEntry →
      keepsOut me user seq row := by
    intro row member
    obtain ⟨sent, listed, same⟩ := List.mem_map.mp member
    cases same
    obtain ⟨inside, above⟩ := List.mem_filter.mp listed
    refine ⟨fun _ => shut.above (by simpa using above), fun own => ?_⟩
    exact absurd own (by simpa using (List.mem_filter.mp inside).2)
  refine Table.upsertAll_induction (keepsOut me user seq) (fun stored => ?_)
    (fun member => fromRow member) (fun member _ => fromRow member) found
  exact ⟨shut.memberships user _ stored, fun own => shut.own _ (own ▸ stored)⟩

theorem Shut.leftStage (shut : cache.Shut me channel seq) (batch : Batch) :
    (leftStage cache batch).Shut me channel seq := by
  rw [leftStage_eq]
  refine shut.members fun user row found => ?_
  have gone : ∀ {row : CachedMembership}, row.left = true → keepsOut me user seq row := by
    intro row left
    exact ⟨fun stays => Bool.noConfusion (left.symm.trans stays), fun _ => left⟩
  refine Table.upsertAll_induction (keepsOut me user seq) (fun stored => ?_)
    (fun member => ?_) (fun _ _ => gone rfl) found
  · exact ⟨shut.memberships user _ stored, fun own => shut.own _ (own ▸ stored)⟩
  · obtain ⟨sent, -, same⟩ := List.mem_map.mp member
    cases same
    exact gone rfl

theorem Shut.userStage (shut : cache.Shut me channel seq) (batch : Batch) :
    (userStage cache batch).Shut me channel seq := by
  rw [userStage_eq]
  exact { shut with }

/-! ### Messages -/

theorem Shut.withMessages (shut : cache.Shut me channel seq) {messages : MessageTable}
    (kept : ∀ id row, (MessageTable.unquoted messages).get? id = some row →
      row.channelId = channel → seq < row.seq) :
    Shut me { cache with messages := messages } channel seq :=
  { shut with
    messages := fun id row found => kept id row.unquoted (by
      rw [MessageTable.get?_unquoted, found]
      rfl) }

theorem Shut.unquoted (shut : cache.Shut me channel seq) {id : MessageId}
    {row : CachedMessage} (found : (MessageTable.unquoted cache.messages).get? id = some row)
    (here : row.channelId = channel) : seq < row.seq := by
  rw [MessageTable.get?_unquoted, Option.map_eq_some_iff] at found
  obtain ⟨stored, there, rfl⟩ := found
  exact shut.messages id stored there here

theorem Shut.mayLand (shut : cache.Shut me channel seq) {number : Int} {history : Bool}
    (lands : cache.messageMayLand channel number history = true) : seq < number := by
  apply shut.above
  rw [messageMayLand] at lands
  cases fenced : cache.fencedAtOrAbove channel number with
  | false => rfl
  | true => simp [fenced] at lands

theorem Shut.applyMessage (shut : cache.Shut me channel seq) (batch : Batch)
    (row : MessageRow) : (applyMessage batch cache row).Shut me channel seq := by
  unfold Cache.applyMessage
  split
  · exact shut
  · split
    case isFalse => exact shut
    case isTrue lands =>
      refine shut.withMessages fun id kept found here => ?_
      rw [MessageTable.unquoted_store] at found
      by_cases same : id = row.id
      · subst same
        rw [Table.get?_upsert_self, Option.some.injEq] at found
        cases stored : (MessageTable.unquoted cache.messages).get? row.id with
        | none =>
            simp only [stored] at found
            rw [← found] at here ⊢
            have place : row.channelId = channel := here
            exact shut.mayLand (place ▸ lands)
        | some old =>
            simp only [stored] at found
            split at found
            case isTrue wins =>
              -- The row keeps the channel that it is stored in.
              rw [← found] at here ⊢
              exact lt_of_lt_of_le (shut.unquoted stored here)
                (MessageTable.guards_newerMessage.le_of_wins wins)
            case isFalse =>
              rw [← found] at here ⊢
              exact shut.unquoted stored here
      · rw [Table.get?_upsert_ne _ _ _ same] at found
        exact shut.unquoted found here

theorem Shut.applyTombstone (shut : cache.Shut me channel seq)
    (tombstone : MessageId × ChannelId × Int) :
    (applyTombstone cache tombstone).Shut me channel seq := by
  unfold Cache.applyTombstone
  split
  case isFalse => exact shut
  case isTrue lands =>
    refine shut.withMessages fun id kept found here => ?_
    rw [MessageTable.get?_unquoted_bury] at found
    split at found
    case isFalse => exact shut.unquoted found here
    case isTrue =>
      rw [Option.some.injEq] at found
      cases stored : (MessageTable.unquoted cache.messages).get? tombstone.1 with
      | none =>
          rw [stored, Option.elim_none] at found
          rw [← found] at here ⊢
          have place : tombstone.2.1 = channel := here
          exact shut.mayLand (place ▸ lands)
      | some old =>
          rw [stored, Option.elim_some] at found
          split at found
          case isTrue below =>
            rw [← found] at here ⊢
            exact lt_trans (shut.unquoted stored here) below
          case isFalse =>
            rw [← found] at here ⊢
            exact shut.unquoted stored here


/-! ### Batches -/

/-- What stages 3 and 4 of a batch make of a shut channel. -/
theorem Shut.guarded {batch : Batch}
    (shut : (removalStage me (Cache.ownStage me cache batch) batch).Shut me channel seq) :
    (apply me cache batch).Shut me channel seq := by
  rw [apply_eq]
  have rows := (((shut.channelStage batch).memberStage batch).leftStage batch).userStage batch
  have messages : (messageStage _ batch).Shut me channel seq :=
    List.foldlRecOn (motive := fun after : Cache => after.Shut me channel seq) batch.messages _
      rows fun _ shut row _ => shut.applyMessage batch row
  exact List.foldlRecOn (motive := fun after : Cache => after.Shut me channel seq)
    batch.tombstones _ messages fun _ shut tombstone _ => shut.applyTombstone tombstone

theorem Shut.apply (shut : cache.Shut me channel seq) {batch : Batch}
    (below : ∀ row ∈ batch.memberships, row.userId = me → row.channelId = channel →
      row.seq ≤ seq) : (apply me cache batch).Shut me channel seq :=
  ((shut.ownStage below).removals batch.removed).guarded

/-! ### The floor -/

/-- The channel's last removal is this one or a later one. -/
def Floored (cache : Cache) (channel : ChannelId) (seq : Int) : Prop :=
  ∃ last, cache.floorOf channel = some last ∧ seq ≤ last

theorem Floored.of_same (floored : cache.Floored channel seq)
    (same : after.floorOf channel = cache.floorOf channel) : after.Floored channel seq := by
  obtain ⟨last, floor, reaches⟩ := floored
  exact ⟨last, same.trans floor, reaches⟩

theorem Shut.floored (shut : cache.Shut me channel seq) : cache.Floored channel seq := by
  obtain ⟨last, fence, reaches⟩ := shut.fence
  exact ⟨last, by rw [floorOf, fence]; rfl, reaches⟩

theorem Floored.removals (floored : cache.Floored channel seq)
    (removed : List (ChannelId × Int)) :
    (removed.foldl (Cache.applyRemoval me) cache).Floored channel seq := by
  induction removed generalizing cache with
  | nil => exact floored
  | cons removal rest ih =>
      apply ih
      rcases applyRemoval_effect me cache removal channel with keeps | ⟨-, -, floor, drops⟩
      · exact floored.of_same keeps.floorOf
      · obtain ⟨last, found, reaches⟩ := floored
        rw [found, Option.all_some, decide_eq_true_eq] at floor
        exact ⟨removal.2, by rw [floorOf, drops.removed]; rfl, le_trans reaches (le_of_lt floor)⟩

theorem applyMessage_removed (batch : Batch) (cache : Cache) (row : MessageRow) :
    (Cache.applyMessage batch cache row).removed = cache.removed := by
  unfold Cache.applyMessage
  split
  · rfl
  · split <;> rfl

theorem applyTombstone_removed (cache : Cache) (tombstone : MessageId × ChannelId × Int) :
    (Cache.applyTombstone cache tombstone).removed = cache.removed := by
  unfold Cache.applyTombstone
  split <;> rfl

theorem messageStage_removed (cache : Cache) (batch : Batch) :
    (messageStage cache batch).removed = cache.removed := by
  unfold messageStage
  refine List.foldlRecOn (motive := fun after : Cache => after.removed = cache.removed) _ _ rfl ?_
  intro before same row _
  rw [applyMessage_removed, same]

theorem tombstoneStage_removed (cache : Cache) (batch : Batch) :
    (tombstoneStage cache batch).removed = cache.removed := by
  unfold tombstoneStage
  refine List.foldlRecOn (motive := fun after : Cache => after.removed = cache.removed) _ _ rfl ?_
  intro before same tombstone _
  rw [applyTombstone_removed, same]

/-- The cache that the messages of a batch meet. -/
def rowsIn (me : UserId) (cache : Cache) (batch : Batch) : Cache :=
  userStage (leftStage (memberStage me (Cache.channelStage
    (removalStage me (Cache.ownStage me cache batch) batch) batch) batch) batch) batch

theorem apply_rowsIn (me : UserId) (cache : Cache) (batch : Batch) :
    Cache.apply me cache batch =
      tombstoneStage (messageStage (rowsIn me cache batch) batch) batch := rfl

theorem rowsIn_removed (me : UserId) (cache : Cache) (batch : Batch) :
    (rowsIn me cache batch).removed =
      (removalStage me (Cache.ownStage me cache batch) batch).removed := by
  rw [rowsIn, userStage_eq, leftStage_eq, memberStage_eq, channelStage_eq]

theorem apply_removed (me : UserId) (cache : Cache) (batch : Batch) :
    (Cache.apply me cache batch).removed =
      (removalStage me (Cache.ownStage me cache batch) batch).removed := by
  rw [apply_rowsIn, tombstoneStage_removed, messageStage_removed, rowsIn_removed]

theorem Floored.removalStage (floored : cache.Floored channel seq) (batch : Batch) :
    (removalStage me (Cache.ownStage me cache batch) batch).Floored channel seq :=
  (floored.of_same (floorOf_ownStage me cache batch channel)).removals batch.removed

theorem Floored.apply (floored : cache.Floored channel seq) (batch : Batch) :
    (Cache.apply me cache batch).Floored channel seq :=
  (floored.removalStage batch).of_same (by rw [floorOf, apply_removed, floorOf])

end Cache

/-- The batch without what it has of a channel's messages up to there. -/
def Batch.without (batch : Batch) (channel : ChannelId) (seq : Int) : Batch :=
  { batch with
    messages := batch.messages.filter fun row => !(row.channelId = channel && row.seq ≤ seq)
    tombstones := batch.tombstones.filter fun tombstone =>
      !(tombstone.2.1 = channel && tombstone.2.2 ≤ seq) }

namespace Cache

variable {me : UserId} {cache : Cache} {channel : ChannelId} {seq : Int}

/-- A history page asked for after the channel's last removal, as it is when the page's
messages are applied. -/
def CurrentHistory (me : UserId) (cache : Cache) (batch : Batch) (channel : ChannelId) : Prop :=
  batch.history = true ∧
    (batch.historyFloors.lookup channel).join =
      (removalStage me (ownStage me cache batch) batch).floorOf channel

theorem Floored.keepsOut (floored : cache.Floored channel seq) {number : Int}
    (below : number ≤ seq) : cache.messageMayLand channel number false = false := by
  obtain ⟨last, floor, reaches⟩ := floored
  unfold messageMayLand
  split
  · rfl
  · simp [floor, le_trans below reaches]

theorem Floored.applyMessage (floored : cache.Floored channel seq) {batch : Batch}
    (stale : batch.history = true → (batch.historyFloors.lookup channel).join ≠
      cache.floorOf channel) {row : MessageRow}
    (old : (row.channelId = channel && row.seq ≤ seq) = true) :
    applyMessage batch cache row = cache := by
  rw [Bool.and_eq_true, decide_eq_true_eq, decide_eq_true_eq] at old
  obtain ⟨rfl, below⟩ := old
  unfold Cache.applyMessage staleHistory
  cases history : batch.history with
  | true => rw [if_pos (by simpa using stale history)]
  | false =>
      rw [if_neg (by simp), if_neg]
      rw [floored.keepsOut below]
      decide

theorem foldl_filter_of_idle {Entry : Type} {step : Cache → Entry → Cache}
    (drops : Entry → Bool) (good : Cache → Prop)
    (kept : ∀ cache entry, good cache → good (step cache entry))
    (idle : ∀ cache entry, good cache → drops entry = true → step cache entry = cache)
    (entries : List Entry) {cache : Cache} (start : good cache) :
    (entries.filter fun entry => !drops entry).foldl step cache = entries.foldl step cache := by
  induction entries generalizing cache with
  | nil => rfl
  | cons entry rest ih =>
      rw [List.filter_cons, List.foldl_cons]
      cases dropped : drops entry with
      | true =>
          rw [idle cache entry start dropped]
          exact ih start
      | false => exact ih (kept cache entry start)

/-- What a batch has of the channel's messages up to its last removal has no effect. -/
theorem Floored.without (floored : cache.Floored channel seq) {batch : Batch}
    (stale : ¬ CurrentHistory me cache batch channel) :
    Cache.apply me cache (batch.without channel seq) = Cache.apply me cache batch := by
  have floor : (rowsIn me cache batch).floorOf channel =
      (Cache.removalStage me (ownStage me cache batch) batch).floorOf channel := by
    rw [floorOf, rowsIn_removed, floorOf]
  have floored' : (rowsIn me cache batch).Floored channel seq :=
    (floored.removalStage batch).of_same floor
  have messages : messageStage (rowsIn me cache batch) (batch.without channel seq) =
      messageStage (rowsIn me cache batch) batch := by
    refine foldl_filter_of_idle
      (fun row : MessageRow => row.channelId = channel && row.seq ≤ seq)
      (fun after : Cache => after.floorOf channel =
        (rowsIn me cache batch).floorOf channel) ?_ ?_ batch.messages rfl
    · intro before row same
      rw [← same, floorOf, applyMessage_removed, floorOf]
    · intro before row same old
      refine (floored'.of_same same).applyMessage (fun history current => stale ?_) old
      exact ⟨history, by rw [← floor, ← same]; exact current⟩
  have rows : rowsIn me cache (batch.without channel seq) = rowsIn me cache batch := rfl
  rw [apply_rowsIn, apply_rowsIn, rows, messages]
  refine foldl_filter_of_idle
    (fun tombstone : MessageId × ChannelId × Int =>
      tombstone.2.1 = channel && tombstone.2.2 ≤ seq)
    (fun after : Cache => after.Floored channel seq) ?_ ?_ batch.tombstones
    (floored'.of_same (by rw [floorOf, messageStage_removed, floorOf]))
  · intro before tombstone floored
    exact floored.of_same (by rw [floorOf, applyTombstone_removed, floorOf])
  · intro before tombstone floored old
    rw [Bool.and_eq_true, decide_eq_true_eq, decide_eq_true_eq] at old
    rw [Cache.applyTombstone, old.1, floored.keepsOut old.2, if_neg (by decide)]

end Cache

end Brook
