import Mathlib.Data.Int.ConditionallyCompleteOrder
import Mathlib.Order.ConditionallyCompleteLattice.Basic
import Brook.Cache.Apply

namespace Brook

namespace Cache

/-! `apply` runs its stages one after the other.  Each stage is described by
what it does to one channel or to one table. -/

def ownStage (me : UserId) (cache : Cache) (batch : Batch) : Cache :=
  (batch.memberships.filter (·.userId = me)).foldl applyOwn cache

def removalStage (me : UserId) (cache : Cache) (batch : Batch) : Cache :=
  batch.removed.foldl (applyRemoval me) cache

def channelStage (cache : Cache) (batch : Batch) : Cache :=
  batch.channels.foldl applyChannel cache

def memberStage (me : UserId) (cache : Cache) (batch : Batch) : Cache :=
  (batch.memberships.filter (·.userId ≠ me)).foldl applyMembership cache

def leftStage (cache : Cache) (batch : Batch) : Cache :=
  batch.left.foldl applyLeft cache

def userStage (cache : Cache) (batch : Batch) : Cache :=
  batch.users.foldl applyUser cache

def messageStage (cache : Cache) (batch : Batch) : Cache :=
  batch.messages.foldl (applyMessage batch) cache

def tombstoneStage (cache : Cache) (batch : Batch) : Cache :=
  batch.tombstones.foldl applyTombstone cache

theorem apply_eq (me : UserId) (cache : Cache) (batch : Batch) :
    apply me cache batch =
      tombstoneStage (messageStage (userStage (leftStage (memberStage me
        (channelStage (removalStage me (ownStage me cache batch) batch) batch)
        batch) batch) batch) batch) batch := rfl

/-- A row of a present channel lands above the last removal. -/
theorem messageMayLand_of_floor {cache : Cache} {channel : ChannelId}
    {seq : Int} {history : Bool} (present : cache.channelPresent channel = true)
    (above : ∀ floor, cache.floorOf channel = some floor → floor < seq) :
    cache.messageMayLand channel seq history = true := by
  unfold messageMayLand
  have open' : cache.fencedAtOrAbove channel seq = false := by
    unfold fencedAtOrAbove fenceOf
    cases h : cache.removed.get? channel with
    | none => rfl
    | some removal =>
        have bound := above removal.seq (by simp [floorOf, h])
        by_cases active : removal.active = true
        · simp [Option.filter, active, bound]
        · simp [Option.filter, active]
  rw [if_neg (by simp [present, open'])]
  cases h : cache.floorOf channel with
  | none => simp
  | some floor =>
      have bound := above floor h
      simp [bound]

theorem channelPresent_of_mayLand {cache : Cache} {channel : ChannelId}
    {seq : Int} {history : Bool}
    (lands : cache.messageMayLand channel seq history = true) :
    cache.channelPresent channel = true := by
  unfold messageMayLand at lands
  cases present : cache.channelPresent channel with
  | true => rfl
  | false => simp [present] at lands

/-! 1. The caller's own memberships. -/

section

variable (me : UserId) (cache : Cache)

/-- Everything but the removals and the memberships is the same. -/
structure SameRows (before after : Cache) : Prop where
  generation : after.generation = before.generation
  channels : after.channels = before.channels
  messages : after.messages = before.messages
  users : after.users = before.users
  coverage : after.coverage = before.coverage

theorem sameRows_applyOwn (row : MemberRow) :
    SameRows cache (cache.applyOwn row) := by
  unfold applyOwn
  split
  · exact ⟨rfl, rfl, rfl, rfl, rfl⟩
  · dsimp only
    split <;> exact ⟨rfl, rfl, rfl, rfl, rfl⟩

theorem floorOf_applyOwn (row : MemberRow) (channel : ChannelId) :
    (cache.applyOwn row).floorOf channel = cache.floorOf channel := by
  unfold applyOwn
  split
  · rfl
  · dsimp only
    split
    · simp only [floorOf, Table.get?_mapRows, Option.map_map]
      congr 1
      funext removal
      simp only [Function.comp_apply]
      split <;> rfl
    · rfl

/-- Lifting removes a fence; nothing else of this stage touches one. -/
theorem fenceOf_applyOwn (row : MemberRow) (channel : ChannelId) :
    (cache.applyOwn row).fenceOf channel = cache.fenceOf channel ∨
      (channel = row.channelId ∧
        (cache.applyOwn row).fenceOf channel = none) := by
  unfold applyOwn
  split
  · exact Or.inl rfl
  · dsimp only
    split
    · by_cases same : channel = row.channelId
      · refine Or.inr ⟨same, ?_⟩
        simp only [fenceOf, Table.get?_mapRows, same, if_true]
        cases cache.removed.get? row.channelId <;> simp
      · refine Or.inl ?_
        simp only [fenceOf, Table.get?_mapRows, same, if_false]
        cases cache.removed.get? channel <;> simp
    · exact Or.inl rfl

theorem get?_removed_applyOwn_ne (row : MemberRow) {channel : ChannelId}
    (other : channel ≠ row.channelId) :
    (cache.applyOwn row).removed.get? channel =
      cache.removed.get? channel := by
  unfold applyOwn
  split
  · rfl
  · dsimp only
    split
    · rw [Table.get?_mapRows]
      cases cache.removed.get? channel <;> simp [other]
    · rfl

theorem get?_applyOwn_ne (row : MemberRow) {key : ChannelId × UserId}
    (other : key ≠ (row.channelId, row.userId)) :
    (cache.applyOwn row).memberships.get? key =
      cache.memberships.get? key := by
  unfold applyOwn
  split
  · rfl
  · dsimp only
    split
    · exact Table.get?_upsert_ne _ _ _ other
    · rfl

theorem guards_newerMembership :
    newerMembership.Guards CachedMembership.seq where
  le_of_wins h := le_of_lt (of_decide_eq_true h)
  le_of_loses h := le_of_not_gt (of_decide_eq_false h)
  merged := rfl

theorem guards_newerDeparture :
    newerDeparture.Guards CachedMembership.seq where
  le_of_wins h := le_of_lt (of_decide_eq_true h)
  le_of_loses h := le_of_not_gt (of_decide_eq_false h)
  merged := rfl

theorem guards_newerChannel :
    newerChannel.Guards CachedChannel.seq where
  le_of_wins h := le_of_lt (of_decide_eq_true h)
  le_of_loses h := le_of_not_gt (of_decide_eq_false h)
  merged := rfl

theorem guards_newerUser : newerUser.Guards CachedUser.seq where
  le_of_wins h := le_of_lt (of_decide_eq_true h)
  le_of_loses h := le_of_not_gt (of_decide_eq_false h)
  merged := rfl

theorem applyOwn_memberships (row : MemberRow) :
    (cache.applyOwn row).memberships = cache.memberships ∨
      (cache.applyOwn row).memberships =
        cache.memberships.upsert newerMembership (memberEntry row).1
          (memberEntry row).2 := by
  unfold applyOwn
  split
  · exact Or.inl rfl
  · dsimp only
    split
    · exact Or.inr rfl
    · exact Or.inl rfl

/-- A fence keeps the caller's own membership out of the cache. -/
def Fenced : Prop :=
  ∀ channel, cache.fenceOf channel ≠ none →
    cache.memberships.get? (channel, me) = none

variable {me cache}

/-- A stored own membership above the fence lifts it. -/
theorem fenceOf_applyOwn_of_upserts {row : MemberRow}
    (above : cache.fencedAtOrAbove row.channelId row.seq = false)
    (written : cache.memberships.upserts newerMembership
      (memberEntry row).1 (memberEntry row).2 = true) :
    (cache.applyOwn row).fenceOf row.channelId = none := by
  simp only [applyOwn, above, written, Bool.false_eq_true, if_false, if_true,
    fenceOf, Table.get?_mapRows]
  cases cache.removed.get? row.channelId <;> simp

theorem Fenced.applyOwn (fenced : cache.Fenced me) {row : MemberRow}
    (own : row.userId = me) : (cache.applyOwn row).Fenced me := by
  intro channel active
  rcases fenceOf_applyOwn cache row channel with same | ⟨_, lifted⟩
  · rw [same] at active
    have absent := fenced channel active
    by_cases here : channel = row.channelId
    · subst here
      cases rejected : cache.fencedAtOrAbove row.channelId row.seq with
      | true => simpa [Cache.applyOwn, rejected] using absent
      | false =>
          have written : cache.memberships.upserts newerMembership
              (memberEntry row).1 (memberEntry row).2 = true := by
            simp [Table.upserts, memberEntry, own, absent]
          have lifted := fenceOf_applyOwn_of_upserts rejected written
          rw [same] at lifted
          exact (active lifted).elim
    · rw [get?_applyOwn_ne cache row (by simp [here])]
      exact absent
  · exact (active lifted).elim

/-- A row above the fence is stored, or a newer one is, and no fence is left. -/
theorem applyOwn_lands (fenced : cache.Fenced me) {row : MemberRow}
    (own : row.userId = me)
    (above : cache.fencedAtOrAbove row.channelId row.seq = false) :
    (cache.applyOwn row).fenceOf row.channelId = none ∧
      ∃ kept, (cache.applyOwn row).memberships.get? (row.channelId, me) =
        some kept ∧ row.seq ≤ kept.seq := by
  subst own
  cases written : cache.memberships.upserts newerMembership
      (memberEntry row).1 (memberEntry row).2 with
  | true =>
      refine ⟨fenceOf_applyOwn_of_upserts above written, ?_⟩
      have stored : (cache.applyOwn row).memberships =
          cache.memberships.upsert newerMembership (memberEntry row).1
            (memberEntry row).2 := by
        simp [applyOwn, above, written]
      rw [stored]
      exact Table.upsert_ge_new guards_newerMembership _ _ (memberEntry row).2
  | false =>
      have same : cache.applyOwn row = cache := by
        simp [applyOwn, above, written]
      rw [same]
      simp only [Table.upserts, memberEntry] at written
      cases stored : cache.memberships.get? (row.channelId, row.userId) with
      | none => simp [stored] at written
      | some old =>
          refine ⟨?_, old, rfl, ?_⟩
          · by_contra active
            have absent := fenced _ active
            rw [stored] at absent
            cases absent
          · simpa [stored, newerMembership] using written

end

section

variable (me : UserId) (cache : Cache) (batch : Batch)

theorem sameRows_ownStage : SameRows cache (ownStage me cache batch) := by
  unfold ownStage
  refine List.foldlRecOn (motive := SameRows cache) _ _
    ⟨rfl, rfl, rfl, rfl, rfl⟩ ?_
  intro before same row _
  have next := sameRows_applyOwn before row
  exact ⟨next.generation.trans same.generation,
    next.channels.trans same.channels, next.messages.trans same.messages,
    next.users.trans same.users, next.coverage.trans same.coverage⟩

theorem floorOf_ownStage (channel : ChannelId) :
    (ownStage me cache batch).floorOf channel = cache.floorOf channel := by
  unfold ownStage
  refine List.foldlRecOn
    (motive := fun after : Cache => after.floorOf channel = cache.floorOf channel)
    _ _ rfl ?_
  intro before same row _
  rw [floorOf_applyOwn, same]

theorem get?_ownStage_ne {key : ChannelId × UserId} (other : key.2 ≠ me) :
    (ownStage me cache batch).memberships.get? key =
      cache.memberships.get? key := by
  unfold ownStage
  refine List.foldlRecOn
    (motive := fun after : Cache =>
      after.memberships.get? key = cache.memberships.get? key) _ _ rfl ?_
  intro before same row member
  have own : row.userId = me := by simpa using (List.mem_filter.mp member).2
  rw [get?_applyOwn_ne before row, same]
  rintro rfl
  exact other own

theorem fenceOf_ownStage (channel : ChannelId) :
    (ownStage me cache batch).fenceOf channel = cache.fenceOf channel ∨
      (ownStage me cache batch).fenceOf channel = none := by
  unfold ownStage
  refine List.foldlRecOn
    (motive := fun after : Cache => after.fenceOf channel = cache.fenceOf channel ∨
      after.fenceOf channel = none) _ _ (Or.inl rfl) ?_
  intro before same row _
  rcases fenceOf_applyOwn before row channel with kept | ⟨_, lifted⟩
  · rw [kept]
    exact same
  · exact Or.inr lifted

/-- The caller's membership stored after the stage is the old one or a row. -/
theorem ownStage_origin {channel : ChannelId} {kept : CachedMembership}
    (found : (ownStage me cache batch).memberships.get? (channel, me) =
      some kept) :
    cache.memberships.get? (channel, me) = some kept ∨
      ∃ row ∈ batch.memberships, row.channelId = channel ∧
        row.userId = me ∧ kept = ⟨row.seq, false, some row.json⟩ := by
  revert found
  unfold ownStage
  refine List.foldlRecOn
    (motive := fun after : Cache => after.memberships.get? (channel, me) = some kept →
      cache.memberships.get? (channel, me) = some kept ∨
        ∃ row ∈ batch.memberships, row.channelId = channel ∧
          row.userId = me ∧ kept = ⟨row.seq, false, some row.json⟩)
    _ _ Or.inl ?_
  intro before known row member found
  obtain ⟨listed, own⟩ := List.mem_filter.mp member
  have fromRow : (channel, me) = (memberEntry row).1 →
      kept = (memberEntry row).2 →
      ∃ row ∈ batch.memberships, row.channelId = channel ∧
        row.userId = me ∧ kept = ⟨row.seq, false, some row.json⟩ := by
    intro key value
    cases key
    exact ⟨row, listed, rfl, rfl, value⟩
  rcases applyOwn_memberships before row with same | written
  · rw [same] at found
    exact known found
  · rw [written] at found
    rcases Table.upsert_origin found with
      old | ⟨key, value | ⟨_, _, value⟩⟩
    · exact known old
    · exact Or.inr (fromRow key value)
    · exact Or.inr (fromRow key value)

variable {me cache batch}

/-- The stage lowers no membership. -/
theorem ownStage_ge_old {key : ChannelId × UserId} {old : CachedMembership}
    (stored : cache.memberships.get? key = some old) :
    ∃ kept, (ownStage me cache batch).memberships.get? key = some kept ∧
      old.seq ≤ kept.seq := by
  unfold ownStage
  refine List.foldlRecOn
    (motive := fun after : Cache => ∃ kept,
      after.memberships.get? key = some kept ∧ old.seq ≤ kept.seq)
    _ _ ⟨old, stored, Int.le_refl _⟩ ?_
  intro before found row _
  obtain ⟨kept, here, above⟩ := found
  rcases applyOwn_memberships before row with same | written
  · rw [same]
    exact ⟨kept, here, above⟩
  · rw [written]
    obtain ⟨last, final, higher⟩ := Table.upsert_ge_old
      guards_newerMembership (memberEntry row).1 (memberEntry row).2 here
    exact ⟨last, final, Int.le_trans above higher⟩

theorem Fenced.ownStage (fenced : cache.Fenced me) :
    (ownStage me cache batch).Fenced me := by
  unfold Cache.ownStage
  refine List.foldlRecOn (motive := fun after : Cache => after.Fenced me) _ _ fenced ?_
  intro before known row member
  exact known.applyOwn (by simpa using (List.mem_filter.mp member).2)

theorem fencedAtOrAbove_mono {before after : Cache} {channel : ChannelId}
    (fence : after.fenceOf channel = before.fenceOf channel ∨
      after.fenceOf channel = none) {seq : Int}
    (above : before.fencedAtOrAbove channel seq = false) :
    after.fencedAtOrAbove channel seq = false := by
  rcases fence with same | lifted
  · rw [fencedAtOrAbove, same]
    exact above
  · simp [fencedAtOrAbove, lifted]

/-- The caller's row above the fence lifts it for the rest of the batch. -/
theorem ownStage_lands (fenced : cache.Fenced me) {row : MemberRow}
    (listed : row ∈ batch.memberships) (own : row.userId = me)
    (above : cache.fencedAtOrAbove row.channelId row.seq = false) :
    (ownStage me cache batch).fenceOf row.channelId = none ∧
      ∃ kept, (ownStage me cache batch).memberships.get? (row.channelId, me) =
        some kept ∧ row.seq ≤ kept.seq := by
  have member : row ∈ batch.memberships.filter (·.userId = me) :=
    List.mem_filter.mpr ⟨listed, by simpa using own⟩
  unfold ownStage
  have rows : ∀ other ∈ batch.memberships.filter (·.userId = me),
      other.userId = me := fun other inside => by
    simpa using (List.mem_filter.mp inside).2
  revert rows member
  generalize batch.memberships.filter (·.userId = me) = entries
  induction entries generalizing cache with
  | nil =>
      intro member
      cases member
  | cons head rest ih =>
      intro member rows
      have headOwn := rows head List.mem_cons_self
      have restOwn : ∀ other ∈ rest, other.userId = me := fun other inside =>
        rows other (List.mem_cons_of_mem _ inside)
      by_cases later : row ∈ rest
      · refine ih (fenced.applyOwn headOwn) ?_ later restOwn
        refine fencedAtOrAbove_mono ?_ above
        rcases fenceOf_applyOwn cache head row.channelId with same | ⟨_, none⟩
        · exact Or.inl same
        · exact Or.inr none
      · have here : row = head := by
          rcases List.mem_cons.mp member with here | inside
          · exact here
          · exact (later inside).elim
        subst here
        obtain ⟨lifted, kept, found, bound⟩ := applyOwn_lands fenced own above
        -- The rest of the stage keeps the fence lifted and the row as new.
        refine List.foldlRecOn
          (motive := fun after : Cache => after.fenceOf row.channelId = none ∧
            ∃ kept, after.memberships.get? (row.channelId, me) = some kept ∧
              row.seq ≤ kept.seq) rest _ ⟨lifted, kept, found, bound⟩ ?_
        intro before ⟨open', kept, found, bound⟩ next _
        constructor
        · rcases fenceOf_applyOwn before next row.channelId with
            same | ⟨_, none⟩
          · rw [same, open']
          · exact none
        · rcases applyOwn_memberships before next with same | written
          · exact ⟨kept, by rw [same, found], bound⟩
          · obtain ⟨last, stored, higher⟩ :=
              Table.upsert_ge_old guards_newerMembership
                (memberEntry next).1 (memberEntry next).2 found
            exact ⟨last, by rw [written, stored], le_trans bound higher⟩

end

/-! 2. Removals.  To one channel a removal does nothing, or it takes every row
and leaves a fence. -/

structure KeepsChannel (before after : Cache) (channel : ChannelId) :
    Prop where
  removed : after.removed.get? channel = before.removed.get? channel
  channels : after.channels.get? channel = before.channels.get? channel
  memberships : ∀ user, after.memberships.get? (channel, user) =
    before.memberships.get? (channel, user)
  coverage : after.coverage.get? channel = before.coverage.get? channel
  messages : ∀ id row, row.channelId = channel →
    (after.messages.get? id = some row ↔ before.messages.get? id = some row)

structure DropsChannel (after : Cache) (channel : ChannelId) (seq : Int) :
    Prop where
  removed : after.removed.get? channel = some ⟨seq, true⟩
  channels : after.channels.get? channel = none
  memberships : ∀ user, after.memberships.get? (channel, user) = none
  coverage : after.coverage.get? channel = none
  messages : ∀ id row, after.messages.get? id = some row →
    row.channelId ≠ channel

theorem KeepsChannel.refl (cache : Cache) (channel : ChannelId) :
    KeepsChannel cache cache channel :=
  ⟨rfl, rfl, fun _ => rfl, rfl, fun _ _ _ => Iff.rfl⟩

theorem KeepsChannel.trans {first second third : Cache}
    {channel : ChannelId} (one : KeepsChannel first second channel)
    (two : KeepsChannel second third channel) :
    KeepsChannel first third channel where
  removed := two.removed.trans one.removed
  channels := two.channels.trans one.channels
  memberships user := (two.memberships user).trans (one.memberships user)
  coverage := two.coverage.trans one.coverage
  messages id row here :=
    (two.messages id row here).trans (one.messages id row here)

theorem DropsChannel.keep {before after : Cache} {channel : ChannelId}
    {seq : Int} (drops : DropsChannel before channel seq)
    (keeps : KeepsChannel before after channel) :
    DropsChannel after channel seq where
  removed := keeps.removed.trans drops.removed
  channels := keeps.channels.trans drops.channels
  memberships user := (keeps.memberships user).trans (drops.memberships user)
  coverage := keeps.coverage.trans drops.coverage
  messages id row found here :=
    drops.messages id row ((keeps.messages id row here).mp found) here

theorem KeepsChannel.floorOf {before after : Cache} {channel : ChannelId}
    (keeps : KeepsChannel before after channel) :
    after.floorOf channel = before.floorOf channel := by
  rw [Cache.floorOf, keeps.removed, Cache.floorOf]

theorem KeepsChannel.fenceOf {before after : Cache} {channel : ChannelId}
    (keeps : KeepsChannel before after channel) :
    after.fenceOf channel = before.fenceOf channel := by
  rw [Cache.fenceOf, keeps.removed, Cache.fenceOf]

theorem KeepsChannel.ownSeq {before after : Cache} {channel : ChannelId}
    (keeps : KeepsChannel before after channel) (me : UserId) :
    after.ownSeq me channel = before.ownSeq me channel := by
  rw [Cache.ownSeq, keeps.memberships, Cache.ownSeq]

section

variable (me : UserId) (cache : Cache)

/-- Without a row of the caller's, the stage leaves the channel alone. -/
theorem ownStage_keeps {batch : Batch} {channel : ChannelId}
    (absent : ∀ row ∈ batch.memberships, row.userId = me →
      row.channelId ≠ channel) :
    KeepsChannel cache (ownStage me cache batch) channel := by
  unfold ownStage
  refine List.foldlRecOn
    (motive := fun after : Cache => KeepsChannel cache after channel)
    _ _ (KeepsChannel.refl cache channel) ?_
  intro before keeps row member
  obtain ⟨listed, own⟩ := List.mem_filter.mp member
  have elsewhere : channel ≠ row.channelId :=
    fun here => absent row listed (by simpa using own) here.symm
  have rows := sameRows_applyOwn before row
  refine keeps.trans ⟨get?_removed_applyOwn_ne before row elsewhere, ?_, ?_,
    ?_, ?_⟩
  · rw [rows.channels]
  · intro user
    exact get?_applyOwn_ne before row (by simp [elsewhere])
  · rw [rows.coverage]
  · intro id message _
    rw [rows.messages]

theorem removeChannelRows_keeps {channel removed : ChannelId} {seq : Int}
    (other : channel ≠ removed) :
    KeepsChannel cache
      (removeChannelRows
        { cache with removed := cache.removed.put removed ⟨seq, true⟩ }
        removed) channel where
  removed := by
    simp [removeChannelRows, Table.get?_put, other]
  channels := by
    simp only [removeChannelRows, Table.get?_filter]
    cases cache.channels.get? channel <;> simp [other]
  memberships user := by
    simp only [removeChannelRows, Table.get?_filter]
    cases cache.memberships.get? (channel, user) <;> simp [other]
  coverage := by
    simp only [removeChannelRows, Table.get?_filter]
    cases cache.coverage.get? channel <;> simp [other]
  messages id row here := by
    simp only [removeChannelRows, Table.get?_filter,
      Option.filter_eq_some_iff]
    simp [here, other]

theorem removeChannelRows_drops (channel : ChannelId) (seq : Int) :
    DropsChannel
      (removeChannelRows
        { cache with removed := cache.removed.put channel ⟨seq, true⟩ }
        channel) channel seq where
  removed := by simp [removeChannelRows]
  channels := by
    simp only [removeChannelRows, Table.get?_filter]
    cases cache.channels.get? channel <;> simp
  memberships user := by
    simp only [removeChannelRows, Table.get?_filter]
    cases cache.memberships.get? (channel, user) <;> simp
  coverage := by
    simp only [removeChannelRows, Table.get?_filter]
    cases cache.coverage.get? channel <;> simp
  messages id row found := by
    simp only [removeChannelRows, Table.get?_filter,
      Option.filter_eq_some_iff] at found
    simpa using found.2

theorem applyRemoval_cursor (removal : ChannelId × Int) :
    (applyRemoval me cache removal).cursor = cache.cursor := by
  unfold applyRemoval
  split
  · rfl
  · split <;> rfl

theorem applyRemoval_messages (removal : ChannelId × Int) {id : MessageId}
    {row : CachedMessage}
    (found : (applyRemoval me cache removal).messages.get? id = some row) :
    cache.messages.get? id = some row := by
  unfold applyRemoval at found
  split at found
  · exact found
  · split at found
    · exact found
    · simp only [removeChannelRows, Table.get?_filter,
        Option.filter_eq_some_iff] at found
      exact found.1

theorem applyRemoval_cases (removal : ChannelId × Int)
    (channel : ChannelId) :
    KeepsChannel cache (applyRemoval me cache removal) channel ∨
      (removal.1 = channel ∧
        DropsChannel (applyRemoval me cache removal) channel removal.2) := by
  unfold applyRemoval
  split
  · exact Or.inl (KeepsChannel.refl cache channel)
  · split
    · exact Or.inl (KeepsChannel.refl cache channel)
    · by_cases here : channel = removal.1
      · subst here
        exact Or.inr ⟨rfl, removeChannelRows_drops cache removal.1 removal.2⟩
      · exact Or.inl (removeChannelRows_keeps cache here)

theorem applyRemoval_drops {removal : ChannelId × Int}
    (own : (cache.ownSeq me removal.1).all (· < removal.2) = true)
    (floor : (cache.floorOf removal.1).all (· < removal.2) = true) :
    DropsChannel (applyRemoval me cache removal) removal.1 removal.2 := by
  have above : ∀ seq : Option Int, seq.all (· < removal.2) = true →
      ¬ seq.any (removal.2 ≤ ·) = true := by
    intro seq
    cases seq <;> simp
  unfold applyRemoval
  rw [if_neg (above _ own), if_neg (above _ floor)]
  exact removeChannelRows_drops cache removal.1 removal.2

/-- A removal takes no profiles. -/
theorem removalStage_users (batch : Batch) :
    (removalStage me cache batch).users = cache.users := by
  unfold removalStage
  refine List.foldlRecOn
    (motive := fun after : Cache => after.users = cache.users) _ _ rfl ?_
  intro before same removal _
  rw [← same]
  unfold applyRemoval
  split
  · rfl
  · split <;> rfl

theorem removalStage_cases (batch : Batch) (channel : ChannelId) :
    KeepsChannel cache (removalStage me cache batch) channel ∨
      ∃ seq, (channel, seq) ∈ batch.removed ∧
        DropsChannel (removalStage me cache batch) channel seq := by
  unfold removalStage
  refine List.foldlRecOn
    (motive := fun after : Cache => KeepsChannel cache after channel ∨
      ∃ seq, (channel, seq) ∈ batch.removed ∧
        DropsChannel after channel seq)
    _ _ (Or.inl (KeepsChannel.refl cache channel)) ?_
  intro before known removal member
  rcases applyRemoval_cases me before removal channel with
    keeps | ⟨rfl, drops⟩
  · rcases known with kept | ⟨seq, listed, drops⟩
    · exact Or.inl (kept.trans keeps)
    · exact Or.inr ⟨seq, listed, drops.keep keeps⟩
  · exact Or.inr ⟨removal.2, member, drops⟩

theorem ownSeq_below {channel : ChannelId} {seq : Int}
    (own : ∀ {row}, cache.memberships.get? (channel, me) = some row →
      row.seq < seq) :
    (cache.ownSeq me channel).all (· < seq) = true := by
  unfold ownSeq
  cases h : cache.memberships.get? (channel, me) with
  | none => rfl
  | some row =>
      have bound := own h
      by_cases left : row.left = true
      · simp [Option.filter, left]
      · simp [Option.filter, left, bound]

theorem floorOf_below {channel : ChannelId} {seq : Int}
    (floor : ∀ {removal}, cache.removed.get? channel = some removal →
      removal.seq < seq) :
    (cache.floorOf channel).all (· < seq) = true := by
  unfold floorOf
  cases h : cache.removed.get? channel with
  | none => rfl
  | some removal => simp [floor h]

/-- A removal above the caller's membership and the floor takes the channel. -/
theorem removalStage_drops {batch : Batch} {channel : ChannelId} {seq : Int}
    (listed : (channel, seq) ∈ batch.removed)
    (own : (cache.ownSeq me channel).all (· < seq) = true)
    (floor : (cache.floorOf channel).all (· < seq) = true) :
    ∃ last, (channel, last) ∈ batch.removed ∧
      DropsChannel (removalStage me cache batch) channel last := by
  unfold removalStage
  generalize batch.removed = entries at listed
  induction entries generalizing cache with
  | nil => cases listed
  | cons head rest ih =>
      have dropped : ∀ first, (channel, first) ∈ head :: rest →
          DropsChannel (applyRemoval me cache head) channel first →
          ∃ last, (channel, last) ∈ head :: rest ∧
            DropsChannel ((head :: rest).foldl (applyRemoval me) cache)
              channel last := by
        intro first inside drops
        refine List.foldlRecOn
          (motive := fun after : Cache => ∃ last,
            (channel, last) ∈ head :: rest ∧ DropsChannel after channel last)
          rest _ ⟨first, inside, drops⟩ ?_
        intro before ⟨last, known, drops⟩ removal member
        rcases applyRemoval_cases me before removal channel with
          keeps | ⟨rfl, again⟩
        · exact ⟨last, known, drops.keep keeps⟩
        · exact ⟨removal.2, List.mem_cons_of_mem _ member, again⟩
      rcases List.mem_cons.mp listed with rfl | later
      · exact dropped seq List.mem_cons_self
          (applyRemoval_drops me cache own floor)
      · rcases applyRemoval_cases me cache head channel with
          keeps | ⟨rfl, drops⟩
        · obtain ⟨last, inside, drops⟩ := ih (applyRemoval me cache head)
            (by rw [keeps.ownSeq]; exact own)
            (by rw [keeps.floorOf]; exact floor) later
          exact ⟨last, List.mem_cons_of_mem _ inside, drops⟩
        · exact dropped head.2 List.mem_cons_self drops

end

end Cache

end Brook
