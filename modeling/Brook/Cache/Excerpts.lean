import Brook.Cache.Quotes

namespace Brook

/-! Quotes of edited messages, over single-row batches in any order. -/

/-- A full row of a message that is not deleted, as the server sends it. -/
def MessageRow.Alive (row : MessageRow) : Prop :=
  row.json.deletedAt = false ∧ row.json.deleted = false ∧ row.json.isPartial = false

instance (row : MessageRow) : Decidable row.Alive :=
  inferInstanceAs (Decidable (_ ∧ _))

/-- The rows of one message with one number carry one JSON. -/
def OneJson (rows : List MessageRow) : Prop :=
  ∀ a ∈ rows, ∀ b ∈ rows, a.id = b.id → a.seq = b.seq → a.json = b.json

instance (rows : List MessageRow) : Decidable (OneJson rows) :=
  inferInstanceAs (Decidable (∀ a ∈ rows, ∀ b ∈ rows, _ → _ → _))

/-- No row of the message has a higher number. -/
def Newest (rows : List MessageRow) (row : MessageRow) : Prop :=
  row ∈ rows ∧ ∀ other ∈ rows, other.id = row.id → other.seq ≤ row.seq

/-- Where this version of the message is delivered for the first time. -/
def firstAt (rows : List MessageRow) (row : MessageRow) : Nat :=
  rows.findIdx fun other => other.id = row.id && other.seq = row.seq

theorem firstAt_lt {rows : List MessageRow} {row : MessageRow}
    (member : ∃ other ∈ rows, other.id = row.id ∧ other.seq = row.seq) :
    firstAt rows row < rows.length := by
  obtain ⟨other, here, same⟩ := member
  exact List.findIdx_lt_length_of_exists ⟨other, here, by simpa using same⟩

theorem firstAt_append {rows : List MessageRow} {row : MessageRow} (later : List MessageRow)
    (member : ∃ other ∈ rows, other.id = row.id ∧ other.seq = row.seq) :
    firstAt (rows ++ later) row = firstAt rows row := by
  have inside := firstAt_lt member
  unfold firstAt at inside ⊢
  rw [List.findIdx_append, if_pos inside]

theorem firstAt_last {rows : List MessageRow} {row : MessageRow}
    (absent : ∀ other ∈ rows, ¬ (other.id = row.id ∧ other.seq = row.seq)) :
    firstAt (rows ++ [row]) row = rows.length := by
  have none_there : rows.findIdx (fun other => other.id = row.id && other.seq = row.seq) =
      rows.length :=
    List.findIdx_eq_length.mpr fun other here => by simpa using absent other here
  unfold firstAt
  rw [List.findIdx_append, none_there, if_neg (Nat.lt_irrefl _)]
  simp [List.findIdx_cons]

namespace MessageTable

/-- No stored message is deleted or partial. -/
def Alive (messages : MessageTable) : Prop :=
  ∀ id row, messages.get? id = some row → row.isDeleted = false ∧ row.json.isPartial = false

variable {messages : MessageTable}

theorem get?_settle_alive (alive : messages.Alive) (settled id : MessageId) :
    (settleExcerpt messages settled).get? id = messages.get? id := by
  rw [settleExcerpt, Table.get?_mapRows]
  cases messages.get? id with
  | none => rfl
  | some row =>
      have living : (row.json.replyToId.bind messages.get?).any CachedMessage.isDeleted =
          false := by
        cases found : row.json.replyToId.bind messages.get? with
        | none => rfl
        | some quoted =>
            obtain ⟨target, -, there⟩ := Option.bind_eq_some_iff.mp found
            exact (alive target quoted there).1
      simp [living]

theorem Alive.upsert (alive : messages.Alive) {row : MessageRow} (sent : row.Alive) :
    MessageTable.Alive (messages.upsert newerMessage row.id (CachedMessage.ofRow row)) := by
  intro id kept found
  rcases Table.upsert_origin found with before | ⟨-, rfl | ⟨old, -, rfl⟩⟩
  · exact alive id kept before
  · exact ⟨by simp [CachedMessage.isDeleted, CachedMessage.ofRow, sent.1, sent.2.1], sent.2.2⟩
  · exact ⟨by simp [CachedMessage.isDeleted, CachedMessage.ofRow, newerMessage, sent.1,
      sent.2.1], sent.2.2⟩

theorem Alive.refresh (alive : messages.Alive) (target : MessageId) (body : Option Text) :
    MessageTable.Alive (refreshExcerpts messages target body) := by
  intro id row found
  rw [refreshExcerpts, Table.get?_mapRows, Option.map_eq_some_iff] at found
  obtain ⟨old, stored, rfl⟩ := found
  have before := alive id old stored
  split
  · exact before
  · exact before

theorem upserts_alive (alive : messages.Alive) (row : MessageRow) :
    messages.upserts newerMessage row.id (CachedMessage.ofRow row) =
      (messages.get? row.id).all fun old => decide (old.seq < row.seq) := by
  unfold Table.upserts
  cases stored : messages.get? row.id with
  | none => rfl
  | some old =>
      have whole := (alive row.id old stored).2
      simp [newerMessage, CachedMessage.ofRow, whole]

/-- The row of a reply once `refresh_excerpts` has gone over it. -/
def follow (target : MessageId) (body : Text) (row : CachedMessage) : CachedMessage :=
  { row with json := { row.json with replyTo := refreshed target (some body) row } }

/-- Following an edit changes nothing of a quote but its words. -/
theorem follow_quote (target : MessageId) (text : Text) (row : CachedMessage) (body : Text) :
    (follow target text row).json.replyTo.map (fun quote => { quote with body := body }) =
      row.json.replyTo.map fun quote => { quote with body := body } := by
  unfold follow refreshed
  split
  · simp [Option.map_map, Function.comp_def]
  · rfl

theorem get?_refresh_text (target : MessageId) (body : Text) (id : MessageId) :
    (refreshExcerpts messages target (some body)).get? id =
      (messages.get? id).map (follow target body) := by
  rw [refreshExcerpts, Table.get?_mapRows]
  congr 1
  funext row
  unfold follow refreshed
  split <;> rfl

theorem store_alive (alive : messages.Alive) {row : MessageRow} (sent : row.Alive) :
    MessageTable.Alive (messages.store false row) := by
  unfold MessageTable.store
  dsimp only
  split
  case isFalse => exact alive
  case isTrue =>
    rw [if_neg (by simp [sent.1]), if_neg (by decide)]
    have refreshed := (alive.upsert sent).refresh row.id (some row.json.body)
    intro id kept found
    rw [get?_settle_alive refreshed] at found
    exact refreshed id kept found

/-- What a row makes of the table where nothing is deleted. -/
theorem get?_store_alive (alive : messages.Alive) {row : MessageRow} (sent : row.Alive)
    (id : MessageId) :
    (messages.store false row).get? id =
      if (messages.get? row.id).all (fun old => decide (old.seq < row.seq)) then
        ((messages.upsert newerMessage row.id (CachedMessage.ofRow row)).get? id).map
          (follow row.id row.json.body)
      else messages.get? id := by
  unfold MessageTable.store
  dsimp only
  rw [upserts_alive alive]
  split
  case isFalse => rfl
  case isTrue =>
    rw [if_neg (by simp [sent.1]), if_neg (by decide),
      get?_settle_alive ((alive.upsert sent).refresh row.id (some row.json.body)),
      get?_refresh_text]

end MessageTable

/-- The table that rows, delivered one by one, make of an empty one. -/
def deliverAll (rows : List MessageRow) : MessageTable :=
  rows.foldl (fun messages row => messages.store false row) ∅

namespace MessageTable

/-- What is stored of a message, but for what it quotes, is its newest row. -/
structure Stores (rows : List MessageRow) (id : MessageId) (kept : CachedMessage)
    (row : MessageRow) : Prop where
  newest : Newest rows row
  id : row.id = id
  seq : kept.seq = row.seq
  json : kept.json = { row.json with replyTo := kept.json.replyTo }
  quote : ∀ body : Text, kept.json.replyTo.map (fun quote => { quote with body := body }) =
    row.json.replyTo.map fun quote => { quote with body := body }

end MessageTable

theorem deliverAll_append (rows : List MessageRow) (row : MessageRow) :
    deliverAll (rows ++ [row]) = (deliverAll rows).store false row := by
  simp [deliverAll]

theorem deliverAll_alive {rows : List MessageRow} (sent : ∀ row ∈ rows, row.Alive) :
    (deliverAll rows).Alive := by
  induction rows using List.reverseRecOn with
  | nil =>
      intro id row found
      cases found
  | append_singleton rows row ih =>
      rw [deliverAll_append]
      exact MessageTable.store_alive
        (ih fun other here => sent other (List.mem_append_left _ here))
        (sent row (by simp))

theorem Newest.append {rows : List MessageRow} {row last : MessageRow}
    (newest : Newest rows row) (below : last.id = row.id → last.seq ≤ row.seq) :
    Newest (rows ++ [last]) row := by
  refine ⟨List.mem_append_left _ newest.1, fun other here same => ?_⟩
  rcases List.mem_append.mp here with old | new
  · exact newest.2 other old same
  · cases List.mem_singleton.mp new
    exact below same

/-- Whether the last row of a delivery is written: it is newer than all before it. -/
theorem written_iff {rows : List MessageRow} {row : MessageRow}
    (stores : ∀ id kept, (deliverAll rows).get? id = some kept →
      ∃ row, MessageTable.Stores rows id kept row)
    (there : ∀ row ∈ rows, ((deliverAll rows).get? row.id).isSome) :
    ((deliverAll rows).get? row.id).all (fun old => decide (old.seq < row.seq)) = true ↔
      ∀ other ∈ rows, other.id = row.id → other.seq < row.seq := by
  cases stored : (deliverAll rows).get? row.id with
  | none =>
      refine iff_of_true rfl fun other here same => ?_
      have found := there other here
      rw [same, stored] at found
      cases found
  | some kept =>
      obtain ⟨newest, ⟨member, top⟩, id, seq, -, -⟩ := stores row.id kept stored
      rw [Option.all_some, decide_eq_true_eq, seq]
      constructor
      · intro below other here same
        exact lt_of_le_of_lt (top other here (same.trans id.symm)) below
      · intro all
        exact all newest member id

theorem upsert_json {messages : MessageTable} {row : MessageRow} {kept : CachedMessage}
    (written : messages.upserts newerMessage row.id (CachedMessage.ofRow row) = true)
    (found : (messages.upsert newerMessage row.id (CachedMessage.ofRow row)).get? row.id =
      some kept) : kept.json = row.json ∧ kept.seq = row.seq := by
  refine ⟨MessageTable.upserted_json written found, ?_⟩
  rw [Table.get?_upsert_self, Option.some.injEq] at found
  unfold Table.upserts at written
  cases stored : messages.get? row.id with
  | none =>
      simp only [stored] at found
      rw [← found]
      rfl
  | some old =>
      simp only [stored] at found
      rw [stored] at written
      rw [if_pos (by exact written)] at found
      rw [← found]
      rfl

theorem deliverAll_stores {rows : List MessageRow} (sent : ∀ row ∈ rows, row.Alive) :
    (∀ id kept, (deliverAll rows).get? id = some kept →
        ∃ row, MessageTable.Stores rows id kept row) ∧
      ∀ row ∈ rows, ((deliverAll rows).get? row.id).isSome := by
  induction rows using List.reverseRecOn with
  | nil =>
      refine ⟨fun id kept found => ?_, fun row here => ?_⟩
      · cases found
      · cases here
  | append_singleton rows last ih =>
      have earlier : ∀ row ∈ rows, row.Alive :=
        fun row here => sent row (List.mem_append_left _ here)
      obtain ⟨stores, there⟩ := ih earlier
      have alive := deliverAll_alive earlier
      have got := MessageTable.get?_store_alive alive (sent last (by simp))
      rw [deliverAll_append]
      by_cases written : ((deliverAll rows).get? last.id).all
          (fun old => decide (old.seq < last.seq)) = true
      · have newer := (written_iff stores there).mp written
        have upserts := (MessageTable.upserts_alive alive last).trans written
        constructor
        · intro id kept found
          rw [got, if_pos written, Option.map_eq_some_iff] at found
          obtain ⟨old, stored, rfl⟩ := found
          by_cases own : id = last.id
          · subst own
            obtain ⟨json, seq⟩ := upsert_json upserts stored
            refine ⟨last, ⟨by simp, fun other here same => ?_⟩, rfl, seq, ?_, fun body => ?_⟩
            · rcases List.mem_append.mp here with before | new
              · exact le_of_lt (newer other before same)
              · cases List.mem_singleton.mp new
                exact le_rfl
            · simp [MessageTable.follow, json]
            · rw [MessageTable.follow_quote, json]
          · rw [Table.get?_upsert_ne _ _ _ own] at stored
            obtain ⟨row, newest, rfl, seq, json, quote⟩ := stores id old stored
            refine ⟨row, newest.append fun same => absurd same.symm own, rfl, seq, ?_,
              fun body => ?_⟩
            · simp only [MessageTable.follow]
              rw [json]
            · rw [MessageTable.follow_quote, quote body]
        · intro row here
          rw [got, if_pos written, Option.isSome_map]
          by_cases own : row.id = last.id
          · rw [own, Table.get?_upsert_self]
            rfl
          · rw [Table.get?_upsert_ne _ _ _ own]
            rcases List.mem_append.mp here with before | new
            · exact there row before
            · cases List.mem_singleton.mp new
              exact absurd rfl own
      · have not_newer := fun all => written ((written_iff stores there).mpr all)
        constructor
        · intro id kept found
          rw [got, if_neg written] at found
          obtain ⟨row, newest, rfl, seq, json, quote⟩ := stores id kept found
          refine ⟨row, newest.append fun same => ?_, rfl, seq, json, quote⟩
          by_contra above
          apply not_newer
          intro other here same'
          exact lt_of_le_of_lt (newest.2 other here (same'.trans same)) (not_le.mp above)
        · intro row here
          rw [got, if_neg written]
          rcases List.mem_append.mp here with before | new
          · exact there row before
          · cases List.mem_singleton.mp new
            rw [Option.isSome_iff_ne_none]
            intro absent
            exact written (by rw [absent]; rfl)

theorem Newest.before {rows : List MessageRow} {row last : MessageRow}
    (newest : Newest (rows ++ [last]) row) (member : row ∈ rows) : Newest rows row :=
  ⟨member, fun other here same => newest.2 other (List.mem_append_left _ here) same⟩

/-- Whichever row is the newest one of a message is stored. -/
theorem MessageTable.Stores.of_newest {rows : List MessageRow} {id : MessageId}
    {kept : CachedMessage} {row other : MessageRow} (one : OneJson rows)
    (stores : MessageTable.Stores rows id kept row) (newest : Newest rows other)
    (same : other.id = id) : MessageTable.Stores rows id kept other := by
  have sameId : row.id = other.id := stores.id.trans same.symm
  have sameSeq : row.seq = other.seq :=
    le_antisymm (newest.2 row stores.newest.1 sameId)
      (stores.newest.2 other newest.1 sameId.symm)
  have sameJson := one row stores.newest.1 other newest.1 sameId sameSeq
  refine ⟨newest, same, stores.seq.trans sameSeq, ?_, ?_⟩
  · rw [← sameJson]
    exact stores.json
  · rw [← sameJson]
    exact stores.quote

/-- A row that is not new adds no version of its message. -/
theorem Newest.earlier {rows : List MessageRow} {row last : MessageRow}
    (newest : Newest (rows ++ [last]) row) (one : OneJson (rows ++ [last]))
    (old : ∃ other ∈ rows, other.id = last.id ∧ last.seq ≤ other.seq) :
    ∃ same, Newest rows same ∧ same.id = row.id ∧ same.seq = row.seq ∧
      same.json = row.json := by
  rcases List.mem_append.mp newest.1 with before | new
  · exact ⟨row, newest.before before, rfl, rfl, rfl⟩
  · cases List.mem_singleton.mp new
    obtain ⟨other, here, sameId, above⟩ := old
    have member := List.mem_append_left [row] here
    have sameSeq : other.seq = row.seq :=
      le_antisymm (newest.2 other member sameId) above
    refine ⟨other, ⟨here, fun third there same => ?_⟩, sameId, sameSeq,
      one other member row (by simp) sameId sameSeq⟩
    rw [sameSeq]
    exact newest.2 third (List.mem_append_left _ there) (same.trans sameId)

theorem firstAt_congr {rows : List MessageRow} {row same : MessageRow}
    (id : row.id = same.id) (seq : row.seq = same.seq) :
    firstAt rows row = firstAt rows same := by
  unfold firstAt
  rw [id, seq]

/-- What the last row of a delivery, being newer than all before it, makes of a reply. -/
theorem follow_last {rows : List MessageRow} {last reply target : MessageRow}
    {old : CachedMessage} {id : MessageId}
    (newer : ∀ other ∈ rows, other.id = last.id → other.seq < last.seq)
    (stores : MessageTable.Stores (rows ++ [last]) id
      (MessageTable.follow last.id last.json.body old) reply)
    (newest : Newest (rows ++ [last]) target) (member : reply ∈ rows)
    (names : reply.json.replyToId = some target.id) (lands : target.id = last.id) :
    (MessageTable.follow last.id last.json.body old).json.replyTo =
      reply.json.replyTo.map fun quote =>
        if firstAt (rows ++ [last]) reply < firstAt (rows ++ [last]) target then
          { quote with body := target.json.body.take Server.replyExcerptLen }
        else quote := by
  have isLast : target = last := by
    rcases List.mem_append.mp newest.1 with before | new
    · exact absurd (newest.2 last (by simp) lands.symm) (not_le.mpr (newer target before lands))
    · exact List.mem_singleton.mp new
  subst isLast
  have quotes : old.json.replyToId = some target.id := by
    have sameQuote := congrArg MessageJson.replyToId stores.json
    exact Eq.trans sameQuote names
  have first : firstAt (rows ++ [target]) target = rows.length :=
    firstAt_last fun other here same => absurd same.2 (ne_of_lt (newer other here same.1))
  have earlier : firstAt (rows ++ [target]) reply < rows.length := by
    rw [firstAt_append _ ⟨reply, member, rfl, rfl⟩]
    exact firstAt_lt ⟨reply, member, rfl, rfl⟩
  simp only [first, if_pos earlier]
  rw [← stores.quote, MessageTable.follow_quote]
  simp only [MessageTable.follow, MessageTable.refreshed]
  rw [if_pos quotes]

/-- A quote reads as its reply's row has it, until the newest row of its target lands. -/
theorem deliverAll_quote {rows : List MessageRow} (sent : ∀ row ∈ rows, row.Alive)
    (one : OneJson rows) {id : MessageId} {kept : CachedMessage} {reply target : MessageRow}
    (found : (deliverAll rows).get? id = some kept)
    (stores : MessageTable.Stores rows id kept reply) (newest : Newest rows target)
    (names : reply.json.replyToId = some target.id) (apart : target.id ≠ id) :
    kept.json.replyTo = reply.json.replyTo.map fun quote =>
      if firstAt rows reply < firstAt rows target then
        { quote with body := target.json.body.take Server.replyExcerptLen }
      else quote := by
  induction rows using List.reverseRecOn generalizing kept reply target with
  | nil => cases found
  | append_singleton rows last ih =>
      have earlier : ∀ row ∈ rows, row.Alive :=
        fun row here => sent row (List.mem_append_left _ here)
      have oneEarlier : OneJson rows := fun a here b there =>
        one a (List.mem_append_left _ here) b (List.mem_append_left _ there)
      obtain ⟨allStores, there⟩ := deliverAll_stores earlier
      have alive := deliverAll_alive earlier
      rw [deliverAll_append, MessageTable.get?_store_alive alive (sent last (by simp))]
        at found
      by_cases written : ((deliverAll rows).get? last.id).all
          (fun old => decide (old.seq < last.seq)) = true
      · have newer := (written_iff allStores there).mp written
        have upserts := (MessageTable.upserts_alive alive last).trans written
        rw [if_pos written, Option.map_eq_some_iff] at found
        obtain ⟨old, stored, rfl⟩ := found
        by_cases own : id = last.id
        · -- The reply itself lands: its target's newest row was there before.
          subst own
          obtain ⟨json, seq⟩ := upsert_json upserts stored
          have version : last.seq = reply.seq := seq.symm.trans stores.seq
          have same : reply.json = last.json :=
            one reply stores.newest.1 last (by simp) stores.id version.symm
          have before : target ∈ rows := by
            rcases List.mem_append.mp newest.1 with before | new
            · exact before
            · cases List.mem_singleton.mp new
              exact absurd rfl apart
          have replyAt : firstAt (rows ++ [last]) reply = rows.length := by
            rw [firstAt_congr stores.id version.symm]
            exact firstAt_last fun other here same =>
              absurd same.2 (ne_of_lt (newer other here same.1))
          have targetAt : firstAt (rows ++ [last]) target < rows.length := by
            rw [firstAt_append _ ⟨target, before, rfl, rfl⟩]
            exact firstAt_lt ⟨target, before, rfl, rfl⟩
          simp only [replyAt, if_neg (not_lt.mpr targetAt.le), Option.map_id']
          simp only [MessageTable.follow, MessageTable.refreshed]
          rw [json, ← same, names, if_neg fun same => apart (Option.some.inj same)]
        · rw [Table.get?_upsert_ne _ _ _ own] at stored
          have member : reply ∈ rows := by
            rcases List.mem_append.mp stores.newest.1 with before | new
            · exact before
            · cases List.mem_singleton.mp new
              exact absurd stores.id.symm own
          by_cases lands : target.id = last.id
          · exact follow_last newer stores newest member names lands
          · have before : target ∈ rows := by
              rcases List.mem_append.mp newest.1 with before | new
              · exact before
              · cases List.mem_singleton.mp new
                exact absurd rfl lands
            have unmoved : MessageTable.follow last.id last.json.body old = old := by
              have quotes : old.json.replyToId = reply.json.replyToId := by
                have sameQuote := congrArg MessageJson.replyToId stores.json
                exact sameQuote
              unfold MessageTable.follow MessageTable.refreshed
              rw [quotes, names, if_neg fun same => lands (Option.some.inj same)]
            rw [unmoved] at stores ⊢
            rw [firstAt_append _ ⟨reply, member, rfl, rfl⟩,
              firstAt_append _ ⟨target, before, rfl, rfl⟩]
            exact ih earlier oneEarlier stored
              ⟨stores.newest.before member, stores.id, stores.seq, stores.json, stores.quote⟩
              (newest.before before) names apart
      · -- The last row changes nothing: its version, or a newer one, was there before.
        rw [if_neg written] at found
        have old : ∃ other ∈ rows, other.id = last.id ∧ last.seq ≤ other.seq := by
          by_contra none
          apply written
          apply (written_iff allStores there).mpr
          intro other here same
          by_contra above
          exact none ⟨other, here, same, not_lt.mp above⟩
        obtain ⟨reply', newestReply, replyId, replySeq, replyJson⟩ :=
          stores.newest.earlier one old
        obtain ⟨target', newestTarget, targetId, targetSeq, targetJson⟩ :=
          newest.earlier one old
        rw [← firstAt_congr replyId replySeq, ← firstAt_congr targetId targetSeq,
          firstAt_append _ ⟨reply', newestReply.1, rfl, rfl⟩,
          firstAt_append _ ⟨target', newestTarget.1, rfl, rfl⟩, ← replyJson, ← targetJson]
        refine ih earlier oneEarlier found ⟨newestReply, replyId.trans stores.id,
          stores.seq.trans replySeq.symm, ?_, ?_⟩ newestTarget ?_ ?_
        · rw [replyJson]
          exact stores.json
        · rw [replyJson]
          exact stores.quote
        · rw [replyJson, targetId]
          exact names
        · rw [targetId]
          exact apart

namespace Cache

/-- Rows applied one by one, each a batch of its own. -/
def deliver (me : UserId) (cache : Cache) (rows : List MessageRow) : Cache :=
  rows.foldl (fun cache row => cache.apply me { messages := [row] }) cache

/-- The rows that a removal of their channel in the past does not keep out. -/
def aboveFloor (cache : Cache) (channel : ChannelId) (rows : List MessageRow) :
    List MessageRow :=
  rows.filter fun row => !(cache.floorOf channel).any (row.seq ≤ ·)

/-- A cache that holds a channel, and messages of none, with the caller in it. -/
structure Ready (cache : Cache) (channel : ChannelId) : Prop where
  present : cache.channelPresent channel = true
  unfenced : cache.fenceOf channel = none
  nothing : cache.messages = ∅

/-- Quotes have the words of the messages they quote, if these are from later on. -/
def QuotesFollow (cache : Cache) (rows : List MessageRow) : Prop :=
  ∀ id target reply quoted quote, cache.messages.get? id = some reply →
    reply.json.replyToId = some target → reply.json.replyTo = some quote →
    cache.messages.get? target = some quoted →
    (∃ row ∈ rows, row.id = target ∧ reply.seq < row.seq) →
    quote.body = quoted.json.body.take Server.replyExcerptLen

/-- An edit lands after every reply to the message, or the reply quotes it already. -/
def EditsLandLater (rows : List MessageRow) : Prop :=
  ∀ reply target quote, Newest rows reply → Newest rows target →
    reply.json.replyToId = some target.id → reply.json.replyTo = some quote →
    reply.seq < target.seq →
    firstAt rows reply < firstAt rows target ∨
      quote.body = target.json.body.take Server.replyExcerptLen

variable {cache : Cache} {channel : ChannelId}

theorem apply_single (me : UserId) (cache : Cache) (row : MessageRow) :
    cache.apply me { messages := [row] } =
      if cache.messageMayLand row.channelId row.seq false then
        { cache with messages := MessageTable.store cache.messages false row }
      else cache := by
  simp [apply, applyMessage, staleHistory]

theorem mayLand_iff (present : cache.channelPresent channel = true)
    (unfenced : cache.fenceOf channel = none) (seq : Int) :
    cache.messageMayLand channel seq false = !(cache.floorOf channel).any (seq ≤ ·) := by
  simp [messageMayLand, fencedAtOrAbove, present, unfenced]

theorem deliver_messages (me : UserId) (present : cache.channelPresent channel = true)
    (unfenced : cache.fenceOf channel = none) {rows : List MessageRow}
    (here : ∀ row ∈ rows, row.channelId = channel) :
    (deliver me cache rows).messages =
      (cache.aboveFloor channel rows).foldl
        (fun messages row => MessageTable.store messages false row) cache.messages := by
  induction rows generalizing cache with
  | nil => rfl
  | cons row rest ih =>
      have later : ∀ row ∈ rest, row.channelId = channel :=
        fun other member => here other (List.mem_cons_of_mem row member)
      have own := here row List.mem_cons_self
      rw [deliver, List.foldl_cons, apply_single, own, mayLand_iff present unfenced,
        aboveFloor, List.filter_cons]
      split
      · rw [List.foldl_cons]
        exact ih present unfenced later
      · exact ih present unfenced later

theorem quotesFollow_of_landLater {rows : List MessageRow} (sent : ∀ row ∈ rows, row.Alive)
    (one : OneJson rows) (later : EditsLandLater rows) {id target : MessageId}
    {reply quoted : CachedMessage} {quote : ReplyExcerpt}
    (found : (deliverAll rows).get? id = some reply)
    (names : reply.json.replyToId = some target) (quotes : reply.json.replyTo = some quote)
    (there : (deliverAll rows).get? target = some quoted)
    (above : ∃ row ∈ rows, row.id = target ∧ reply.seq < row.seq) :
    quote.body = quoted.json.body.take Server.replyExcerptLen := by
  obtain ⟨stores, -⟩ := deliverAll_stores sent
  obtain ⟨row, storesReply⟩ := stores id reply found
  obtain ⟨targetRow, storesTarget⟩ := stores target quoted there
  obtain ⟨rfl⟩ := storesTarget.id
  obtain ⟨edited, member, same, higher⟩ := above
  have newer : row.seq < targetRow.seq := by
    rw [← storesReply.seq]
    exact lt_of_lt_of_le higher (storesTarget.newest.2 edited member same)
  have apart : targetRow.id ≠ id := by
    intro own
    exact absurd (storesReply.newest.2 targetRow storesTarget.newest.1
      (own.trans storesReply.id.symm)) (not_le.mpr newer)
  have rowNames : row.json.replyToId = some targetRow.id := by
    have sameQuote := congrArg MessageJson.replyToId storesReply.json
    exact Eq.trans (Eq.symm sameQuote) names
  have text : quoted.json.body = targetRow.json.body := by
    have sameBody := congrArg MessageJson.body storesTarget.json
    exact sameBody
  have reads := deliverAll_quote sent one found storesReply storesTarget.newest rowNames apart
  rw [quotes] at reads
  obtain ⟨sentQuote, asSent, rfl⟩ := Option.map_eq_some_iff.mp reads.symm
  rw [text]
  rcases later row targetRow sentQuote storesReply.newest storesTarget.newest rowNames asSent
    newer with lands | already
  · rw [if_pos lands]
  · split
    · rfl
    · exact already

theorem landLater_of_quotesFollow {rows : List MessageRow} (sent : ∀ row ∈ rows, row.Alive)
    (one : OneJson rows)
    (follow : ∀ id target reply quoted quote, (deliverAll rows).get? id = some reply →
      reply.json.replyToId = some target → reply.json.replyTo = some quote →
      (deliverAll rows).get? target = some quoted →
      (∃ row ∈ rows, row.id = target ∧ reply.seq < row.seq) →
      quote.body = quoted.json.body.take Server.replyExcerptLen) : EditsLandLater rows := by
  intro reply target quote newestReply newestTarget names asSent newer
  by_cases lands : firstAt rows reply < firstAt rows target
  · exact Or.inl lands
  · right
    have apart : target.id ≠ reply.id := by
      intro same
      exact absurd (newestReply.2 target newestTarget.1 same) (not_le.mpr newer)
    obtain ⟨stores, there⟩ := deliverAll_stores sent
    obtain ⟨kept, found⟩ := Option.isSome_iff_exists.mp (there reply newestReply.1)
    obtain ⟨quoted, foundTarget⟩ := Option.isSome_iff_exists.mp (there target newestTarget.1)
    obtain ⟨row, storesRow⟩ := stores reply.id kept found
    obtain ⟨targetRow, storesTargetRow⟩ := stores target.id quoted foundTarget
    have storesReply := storesRow.of_newest one newestReply rfl
    have storesTarget := storesTargetRow.of_newest one newestTarget rfl
    have keptNames : kept.json.replyToId = some target.id := by
      have sameQuote := congrArg MessageJson.replyToId storesReply.json
      exact Eq.trans sameQuote names
    have text : quoted.json.body = target.json.body := by
      have sameBody := congrArg MessageJson.body storesTarget.json
      exact sameBody
    have reads := deliverAll_quote sent one found storesReply newestTarget names apart
    rw [asSent, Option.map_some, if_neg lands] at reads
    have higher : kept.seq < target.seq := by
      rw [storesReply.seq]
      exact newer
    rw [← text]
    exact follow reply.id target.id kept quoted quote found keptNames reads foundTarget
      ⟨target, newestTarget.1, rfl, higher⟩

end Cache

/-- The quotes of the rows that were delivered follow edits just when no edit lands before
a reply with the older words. -/
theorem quotes_follow_iff (me : UserId) (cache : Cache) (channel : ChannelId)
    (ready : cache.Ready channel) (rows : List MessageRow)
    (here : ∀ row ∈ rows, row.channelId = channel) (sent : ∀ row ∈ rows, row.Alive)
    (one : OneJson rows) :
    Cache.QuotesFollow (Cache.deliver me cache rows) rows ↔
      Cache.EditsLandLater (cache.aboveFloor channel rows) := by
  have lands : ∀ {row}, row ∈ cache.aboveFloor channel rows → row ∈ rows :=
    fun member => (List.mem_filter.mp member).1
  have sentLanding : ∀ row ∈ cache.aboveFloor channel rows, row.Alive :=
    fun row member => sent row (lands member)
  have oneLanding : OneJson (cache.aboveFloor channel rows) :=
    fun a inA b inB => one a (lands inA) b (lands inB)
  have messages :
      (Cache.deliver me cache rows).messages = deliverAll (cache.aboveFloor channel rows) := by
    rw [Cache.deliver_messages me ready.present ready.unfenced here, ready.nothing, deliverAll]
  unfold Cache.QuotesFollow
  rw [messages]
  constructor
  · intro follow
    apply Cache.landLater_of_quotesFollow sentLanding oneLanding
    intro id target reply quoted quote found names quotes there above
    obtain ⟨row, member, same⟩ := above
    exact follow id target reply quoted quote found names quotes there
      ⟨row, lands member, same⟩
  · intro later id target reply quoted quote found names quotes there above
    apply Cache.quotesFollow_of_landLater sentLanding oneLanding later found names quotes there
    -- What is above the stored reply is above the floor, as the reply is.
    obtain ⟨stored, storesReply⟩ := (deliverAll_stores sentLanding).1 id reply found
    obtain ⟨row, member, same, higher⟩ := above
    refine ⟨row, List.mem_filter.mpr ⟨member, ?_⟩, same, higher⟩
    have aboveFloor := (List.mem_filter.mp storesReply.newest.1).2
    rw [storesReply.seq] at higher
    cases floor : cache.floorOf channel with
    | none => rfl
    | some seq =>
        simp only [floor, Option.any_some, Bool.not_eq_true', decide_eq_false_iff_not,
          not_le] at aboveFloor ⊢
        exact lt_trans aboveFloor higher

/-- A channel with no message in it, and no removal. -/
def quietCache : Cache :=
  Cache.apply 9 Cache.empty { channels := [.plain 1 1] }

theorem quietCache_ready : quietCache.Ready 1 := ⟨by decide, by decide, by decide⟩

/-- The edit of message 1 is delivered before the reply to its older words. -/
def editFirst : List MessageRow :=
  [.plain 1 5 "new".toList none [],
    .plain 2 3 "reply".toList (some (1, ⟨"old".toList, false, 0⟩)) []]

theorem stale_quote_stays : ∃ reply quoted quote,
    (Cache.deliver 9 quietCache editFirst).messages.get? 2 = some reply ∧
      (Cache.deliver 9 quietCache editFirst).messages.get? 1 = some quoted ∧
      reply.json.replyToId = some 1 ∧ reply.json.replyTo = some quote ∧ reply.seq < quoted.seq ∧
      quote.body = "old".toList ∧ quoted.json.body = "new".toList ∧
      ¬ Cache.QuotesFollow (Cache.deliver 9 quietCache editFirst) editFirst := by
  refine ⟨_, _, _, rfl, rfl, rfl, rfl, by decide, rfl, rfl, fun follow => ?_⟩
  have same := follow 2 1 _ _ _ rfl rfl rfl rfl ⟨_, List.mem_cons_self, rfl, by decide⟩
  exact absurd same (by decide)

theorem edit_lands_later : Cache.QuotesFollow
    (Cache.deliver 9 quietCache editFirst.reverse) editFirst.reverse := by
  refine (quotes_follow_iff 9 quietCache 1 quietCache_ready editFirst.reverse (by decide)
    (by decide) (by decide)).mpr ?_
  intro reply target quote newestReply newestTarget names asSent newer
  rcases List.mem_pair.mp newestReply.1 with rfl | rfl
  · rcases List.mem_pair.mp newestTarget.1 with rfl | rfl
    · cases names
    · exact Or.inl (by decide)
  · cases names

end Brook
