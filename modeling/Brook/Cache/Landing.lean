import Brook.Cache.Stages

namespace Brook

namespace Cache

/-! 3. The guarded tables.  Removals stay as they are from here on, so whether a
row is fenced is known before the stage starts. -/

/-- Everything but the channels table is the same. -/
theorem channelStage_eq (cache : Cache) (batch : Batch) :
    channelStage cache batch =
      { cache with
        channels := cache.channels.upsertAll newerChannel
          ((batch.channels.filter fun row =>
            !cache.fencedAtOrAbove row.id row.seq).map
            fun row => (row.id, ⟨row.seq, row.json⟩)) } := by
  unfold channelStage
  generalize batch.channels = rows
  induction rows generalizing cache with
  | nil => rfl
  | cons row rest ih =>
      rw [List.foldl_cons, ih]
      cases fenced : cache.fencedAtOrAbove row.id row.seq with
      | true => simp [applyChannel, fenced]
      | false =>
          have stored : applyChannel cache row =
              { cache with
                channels := cache.channels.upsert newerChannel row.id
                  ⟨row.seq, row.json⟩ } := by
            simp [applyChannel, fenced]
          rw [stored, List.filter_cons_of_pos (by simp [fenced])]
          rfl

theorem memberStage_eq (me : UserId) (cache : Cache) (batch : Batch) :
    memberStage me cache batch =
      { cache with
        memberships := cache.memberships.upsertAll newerMembership
          (((batch.memberships.filter (·.userId ≠ me)).filter fun row =>
            !cache.fencedAtOrAbove row.channelId row.seq).map
            memberEntry) } := by
  unfold memberStage
  generalize batch.memberships.filter (·.userId ≠ me) = rows
  induction rows generalizing cache with
  | nil => rfl
  | cons row rest ih =>
      rw [List.foldl_cons, ih]
      cases fenced : cache.fencedAtOrAbove row.channelId row.seq with
      | true => simp [applyMembership, fenced]
      | false =>
          have stored : applyMembership cache row =
              { cache with
                memberships := cache.memberships.upsert newerMembership
                  (memberEntry row).1 (memberEntry row).2 } := by
            simp [applyMembership, fenced]
          rw [stored, List.filter_cons_of_pos (by simp [fenced])]
          rfl

theorem leftStage_eq (cache : Cache) (batch : Batch) :
    leftStage cache batch =
      { cache with
        memberships := cache.memberships.upsertAll newerDeparture
          (batch.left.map fun left =>
            ((left.1, left.2.1), ⟨left.2.2, true, none⟩)) } := by
  unfold leftStage
  generalize batch.left = rows
  induction rows generalizing cache with
  | nil => rfl
  | cons row rest ih =>
      rw [List.foldl_cons, ih]
      rfl

theorem userStage_eq (cache : Cache) (batch : Batch) :
    userStage cache batch =
      { cache with
        users := cache.users.upsertAll newerUser
          (batch.users.map fun row => (row.id, ⟨row.seq, row.json⟩)) } := by
  unfold userStage
  generalize batch.users = rows
  induction rows generalizing cache with
  | nil => rfl
  | cons row rest ih =>
      rw [List.foldl_cons, ih]
      rfl

end Cache

namespace CachedMessage

/-- A row without its quote, which follows another message. -/
def unquoted (message : CachedMessage) : CachedMessage :=
  { message with json := { message.json with replyTo := none } }

end CachedMessage

namespace MessageTable

/-- The table without the quotes. -/
def unquoted (messages : MessageTable) : MessageTable :=
  messages.mapRows fun _ => CachedMessage.unquoted

theorem unquoted_mapRows {messages : MessageTable}
    {update : MessageId → CachedMessage → CachedMessage}
    (quoteOnly : ∀ id row, (update id row).unquoted = row.unquoted) :
    unquoted (messages.mapRows update) = unquoted messages := by
  simp [unquoted, Table.mapRows, Function.comp_def, quoteOnly]

theorem unquoted_refreshExcerpts (messages : MessageTable)
    (target : MessageId) (body : Option Text) :
    unquoted (refreshExcerpts messages target body) = unquoted messages := by
  refine unquoted_mapRows ?_
  intro id row
  split <;> rfl

theorem unquoted_settleExcerpt (messages : MessageTable) (id : MessageId) :
    unquoted (settleExcerpt messages id) = unquoted messages := by
  refine unquoted_mapRows ?_
  intro key row
  split <;> rfl

theorem unquoted_upsert (messages : MessageTable) (id : MessageId)
    (row : CachedMessage) :
    unquoted (messages.upsert newerMessage id row) =
      (unquoted messages).upsert newerMessage id row.unquoted :=
  Table.mapRows_upsert newerMessage CachedMessage.unquoted (fun _ _ => rfl)
    (fun _ _ => rfl) messages id row

/-- Apart from the quotes, storing a row is a guarded upsert. -/
theorem unquoted_store (messages : MessageTable) (history : Bool)
    (row : MessageRow) :
    unquoted (store messages history row) =
      (unquoted messages).upsert newerMessage row.id
        (CachedMessage.ofRow row).unquoted := by
  unfold store
  dsimp only
  cases written : messages.upserts newerMessage row.id
      (CachedMessage.ofRow row) with
  | true =>
      rw [if_pos rfl, unquoted_settleExcerpt]
      split
      · rw [unquoted_refreshExcerpts, unquoted_upsert]
      · split
        · rw [unquoted_upsert]
        · rw [unquoted_refreshExcerpts, unquoted_upsert]
  | false =>
      rw [if_neg (by simp), ← unquoted_upsert,
        Table.upsert_of_not_upserts written]

theorem guards_newerMessage :
    newerMessage.Guards CachedMessage.seq where
  le_of_wins h := by
    simp only [newerMessage, Bool.or_eq_true, decide_eq_true_eq,
      Bool.and_eq_true] at h
    omega
  le_of_loses h := by
    simp only [newerMessage, Bool.or_eq_false_iff,
      decide_eq_false_iff_not] at h
    omega
  merged := rfl

end MessageTable

namespace Cache

/-- The rows of a batch's messages that may land. -/
def landingMessages (cache : Cache) (batch : Batch) : List MessageRow :=
  batch.messages.filter fun row =>
    !staleHistory batch cache row.channelId &&
      cache.messageMayLand row.channelId row.seq batch.history

/-- Everything but the messages table is the same, and apart from the quotes
the landing rows are upserted. -/
theorem messageStage_eq (cache : Cache) (batch : Batch) :
    ∃ messages, messageStage cache batch = { cache with messages := messages } ∧
      MessageTable.unquoted messages =
        (MessageTable.unquoted cache.messages).upsertAll newerMessage
          ((cache.landingMessages batch).map fun row =>
            (row.id, (CachedMessage.ofRow row).unquoted)) := by
  unfold messageStage landingMessages
  generalize batch.messages = rows
  induction rows generalizing cache with
  | nil => exact ⟨cache.messages, rfl, rfl⟩
  | cons row rest ih =>
      rw [List.foldl_cons]
      cases lands : !staleHistory batch cache row.channelId &&
          cache.messageMayLand row.channelId row.seq batch.history with
      | false =>
          have same : applyMessage batch cache row = cache := by
            rw [Bool.and_eq_false_iff, Bool.not_eq_false'] at lands
            rcases lands with stale | blocked
            · simp [applyMessage, stale]
            · simp [applyMessage, blocked]
          rw [same]
          obtain ⟨messages, stage, unquoted⟩ := ih cache
          refine ⟨messages, stage, ?_⟩
          rw [unquoted, List.filter_cons_of_neg (by simpa using lands)]
      | true =>
          have stored : applyMessage batch cache row =
              { cache with messages :=
                  MessageTable.store cache.messages batch.history row } := by
            rw [Bool.and_eq_true, Bool.not_eq_true'] at lands
            simp [applyMessage, lands.1, lands.2]
          rw [stored]
          obtain ⟨messages, stage, unquoted⟩ := ih
            { cache with messages :=
                MessageTable.store cache.messages batch.history row }
          refine ⟨messages, stage, ?_⟩
          rw [unquoted, List.filter_cons_of_pos (by simpa using lands),
            List.map_cons, Table.upsertAll_cons,
            MessageTable.unquoted_store]
          rfl

end Cache

end Brook
