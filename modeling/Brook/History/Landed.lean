import Brook.History.Held

namespace Brook

/-! What a page of history adds to the covered range. -/

namespace Cache

variable {me : UserId} {cache : Cache} {channel : ChannelId}
variable {range : Range} {id : MessageId}

/-- The message was in the range held before. -/
def Covered (cache : Cache) (channel : ChannelId) (id : MessageId) : Prop :=
  ∃ held, cache.coverage.get? channel = some held ∧ held.Covers id

theorem headRange_covers {held : Option Range} {newest oldest : MessageId}
    {complete : Bool}
    (covers : (headRange held newest oldest complete).Covers id) :
    (∃ range, held = some range ∧ range.Covers id) ∨ complete = true ∨
      oldest ≤ id := by
  have page : ∀ {bottom : MessageId} {whole : Bool},
      whole = true ∨ (∃ first, some bottom = some first ∧ first ≤ id) →
      whole = true ∨ bottom ≤ id := by
    intro bottom whole known
    rcases known with all | ⟨first, same, below⟩
    · exact Or.inl all
    · cases same
      exact Or.inr below
  cases held with
  | none => exact Or.inr (page covers)
  | some range =>
      obtain ⟨heldNewest, heldOldest, heldComplete⟩ := range
      cases heldNewest with
      | none => exact Or.inr (page covers)
      | some top =>
          cases heldOldest with
          | none => exact Or.inr (page covers)
          | some bottom =>
              simp only [headRange] at covers
              split at covers
              · -- The ranges overlap, and the merged one has both bottoms.
                rcases page covers with whole | below
                · rcases Bool.or_eq_true_iff.mp whole with before | now
                  · exact Or.inl ⟨_, rfl, Or.inl before⟩
                  · exact Or.inr (Or.inl now)
                · rcases min_le_iff.mp below with before | now
                  · exact Or.inl ⟨_, rfl, Or.inr ⟨bottom, rfl, before⟩⟩
                  · exact Or.inr (Or.inr now)
              · exact Or.inr (page covers)

theorem recordHead_covers (load : Load) (head : load.before = none)
    {ids : List MessageId} {limit : Nat} (positive : 0 < limit)
    (found : (cache.recordHead channel ids limit).coverage.get? channel =
      some range) (covers : range.Covers id) :
    cache.Covered channel id ∨
      (load.movesRange (cache.coverage.get? channel) ids = true ∧
        (ids.length < limit ∨ ∃ first ∈ ids, first ≤ id)) := by
  unfold recordHead at found
  cases top : ids.max? with
  | none =>
      rw [List.max?_eq_none_iff] at top
      subst top
      cases held : cache.coverage.get? channel with
      | none =>
          refine Or.inr ⟨?_, Or.inl positive⟩
          simp [Load.movesRange, head]
      | some old =>
          by_cases blank : old.newestId = none
          · refine Or.inr ⟨?_, Or.inl positive⟩
            simp [Load.movesRange, head, blank]
          · simp only [List.max?_nil, held, blank, if_false] at found
            cases found
            exact Or.inl ⟨range, held, covers⟩
  | some newest =>
      cases bottom : ids.min? with
      | none =>
          rw [List.min?_eq_none_iff.mp bottom] at top
          cases top
      | some oldest =>
          simp only [top, bottom] at found
          cases delayed : ((cache.coverage.get? channel).bind
              (·.oldestId)).any (newest < ·) with
          | true =>
              rw [if_pos delayed] at found
              exact Or.inl ⟨range, found, covers⟩
          | false =>
              rw [if_neg (by rw [delayed]; decide)] at found
              rw [Table.get?_put_self] at found
              cases found
              have moves : load.movesRange (cache.coverage.get? channel) ids =
                  true := by
                simp only [Load.movesRange, head, top, delayed, Bool.not_false]
              rcases headRange_covers covers with before | short | below
              · exact Or.inl before
              · exact Or.inr ⟨moves, Or.inl (of_decide_eq_true short)⟩
              · exact Or.inr ⟨moves,
                  Or.inr ⟨oldest, List.min?_mem bottom, below⟩⟩

theorem recordOlder_covers (load : Load) {before : MessageId}
    (older : load.before = some before) {ids : List MessageId} {limit : Nat}
    (found : (cache.recordOlder channel before ids limit).coverage.get?
      channel = some range) (covers : range.Covers id) :
    cache.Covered channel id ∨
      (load.movesRange (cache.coverage.get? channel) ids = true ∧
        id < before ∧ (ids.length < limit ∨ ∃ first ∈ ids, first ≤ id)) := by
  unfold recordOlder at found
  cases held : cache.coverage.get? channel with
  | none =>
      rw [held] at found
      dsimp only at found
      rw [held] at found
      cases found
  | some old =>
      rw [held] at found
      dsimp only at found
      by_cases bottom : old.oldestId = some before
      · rw [if_pos bottom] at found
        simp only [Table.get?_put_self, Option.some.injEq] at found
        subst found
        by_cases above : before ≤ id
        · exact Or.inl ⟨old, held, Or.inr ⟨before, bottom, above⟩⟩
        · have moves : load.movesRange (some old) ids = true := by
            simp [Load.movesRange, older, bottom]
          have below : id < before := Nat.lt_of_not_le above
          rcases covers with whole | ⟨first, same, under⟩
          · rcases Bool.or_eq_true_iff.mp whole with was | short
            · exact Or.inl ⟨old, held, Or.inl was⟩
            · exact Or.inr ⟨moves, below, Or.inl (of_decide_eq_true short)⟩
          · cases least : ids.min? with
            | none =>
                simp only [least, Option.orElse_none] at same
                exact Or.inl ⟨old, held, Or.inr ⟨first, same, under⟩⟩
            | some oldest =>
                simp only [least, Option.orElse_some, Option.some.injEq]
                  at same
                subst same
                exact Or.inr ⟨moves, below,
                  Or.inr ⟨oldest, List.min?_mem least, under⟩⟩
      · rw [if_neg bottom] at found
        exact Or.inl ⟨range, found, covers⟩

/-- A range without a bottom is the whole channel. -/
def Bottomed (cache : Cache) (channel : ChannelId) : Prop :=
  ∀ range, cache.coverage.get? channel = some range →
    range.oldestId = none → range.completeToStart = true

theorem recordHead_bottomed {ids : List MessageId} {limit : Nat}
    (bottomed : cache.Bottomed channel) :
    (cache.recordHead channel ids limit).Bottomed channel := by
  intro range found blank
  unfold recordHead at found
  dsimp only at found
  split at found
  · split at found
    · exact bottomed range found blank
    · simp only [Table.get?_put_self, Option.some.injEq] at found
      rw [← found] at blank
      cases blank
  · split at found
    · simp only [Table.get?_put_self, Option.some.injEq] at found
      rw [← found]
    · split at found
      · simp only [Table.get?_put_self, Option.some.injEq] at found
        rw [← found]
      · exact bottomed range found blank

theorem recordOlder_bottomed {before : MessageId} {ids : List MessageId}
    {limit : Nat} (bottomed : cache.Bottomed channel) :
    (cache.recordOlder channel before ids limit).Bottomed channel := by
  intro range found blank
  unfold recordOlder at found
  split at found
  · exact bottomed range found blank
  · rename_i old held
    split at found
    · rename_i bottom
      simp only [Table.get?_put_self, Option.some.injEq] at found
      rw [← found] at blank
      cases least : ids.min? with
      | none => simp [least, bottom] at blank
      | some oldest => simp [least] at blank
    · exact bottomed range found blank

/-! `settle_tops` moves tops, and gives a bottom to a range that is whole. -/

theorem settleTops_covers {cursor : Int} (bottomed : cache.Bottomed channel)
    (found : (cache.settleTops cursor).coverage.get? channel = some range)
    (covers : range.Covers id) : cache.Covered channel id := by
  simp only [settleTops, Table.get?_mapRows, Option.map_eq_some_iff] at found
  obtain ⟨old, held, equality⟩ := found
  refine ⟨old, held, ?_⟩
  split at equality
  · rw [equality]
    exact covers
  · split at equality
    · subst equality
      rcases covers with whole | ⟨first, same, below⟩
      · exact Or.inl whole
      · cases bottom : old.oldestId with
        | none => exact Or.inl (bottomed old held bottom)
        | some oldest =>
            simp only [bottom, Option.orElse_some] at same
            exact Or.inr ⟨first, bottom.trans same, below⟩
    · rw [equality]
      exact covers

theorem settleTops_bottomed {cursor : Int}
    (bottomed : cache.Bottomed channel) :
    (cache.settleTops cursor).Bottomed channel := by
  intro range found blank
  simp only [settleTops, Table.get?_mapRows, Option.map_eq_some_iff] at found
  obtain ⟨old, held, equality⟩ := found
  split at equality
  · subst equality
    exact bottomed old held blank
  · split at equality
    · subst equality
      cases bottom : old.oldestId with
      | none => exact bottomed old held bottom
      | some oldest => simp [bottom] at blank
    · subst equality
      exact bottomed old held blank

end Cache

/-! What the server's page holds. -/

namespace Server

variable {server : Server} {me : UserId} {channel : ChannelId}
variable {before : Option MessageId} {limit : Nat} {rows : List MessageRow}

theorem history_of (answered : server.history me channel before limit =
      .ok rows) {row : MessageRow} (member : row ∈ rows) :
    ∃ message, server.messages.get? row.id = some message ∧
      row.channelId = channel ∧ message.channelId = channel := by
  unfold history at answered
  split at answered
  · cases answered
    simp only [List.mem_map, List.mem_reverse] at member
    obtain ⟨⟨id, message⟩, listed, rfl⟩ := member
    have kept := Table.mem_of_mem_newest listed
    simp only [List.mem_filter, Table.mem_rows, Bool.and_eq_true,
      decide_eq_true_eq] at kept
    exact ⟨message, kept.1, kept.2.1.1, kept.2.1.1⟩
  · cases answered

/-- The page has every message of its span. -/
theorem history_in (answered : server.history me channel before limit =
      .ok rows) {id : MessageId} {message : Message}
    (has : server.Has channel id message) (live : message.deleted = false)
    (below : before.all (id < ·) = true)
    (reached : rows.length < limit ∨ ∃ row ∈ rows, row.id ≤ id) :
    server.messageOut id message ∈ rows := by
  unfold history at answered
  split at answered
  · cases answered
    obtain ⟨stored, here⟩ := has
    have keys : ((server.messages.rows.filter fun entry =>
        entry.2.channelId = channel && !entry.2.deleted &&
          before.all (entry.1 < ·)).map Prod.fst).Nodup :=
      (List.filter_sublist.map Prod.fst).nodup server.messages.keysNodup
    have listed : (id, message) ∈ server.messages.rows.filter fun entry =>
        entry.2.channelId = channel && !entry.2.deleted &&
          before.all (entry.1 < ·) := by
      simp [List.mem_filter, Table.mem_rows.mpr stored, here, live, below]
    refine List.mem_map.mpr ⟨(id, message), List.mem_reverse.mpr
      (Table.mem_newest_of_reached keys listed ?_), rfl⟩
    rcases reached with short | ⟨row, member, under⟩
    · exact Or.inl (by simpa using short)
    · simp only [List.mem_map, List.mem_reverse] at member
      obtain ⟨last, inside, rfl⟩ := member
      exact Or.inr ⟨last, inside, under⟩
  · cases answered

end Server

namespace Held

variable {me : UserId} {channel : ChannelId} {server state : Server}
variable {past : List Server} {cache : Cache} {base asOf : Int}

/-- Only the page from 0 makes use of the number. -/
theorem recorded (held : Held channel server cache base asOf) {counter : Int}
    (nonneg : 0 ≤ counter) (known : counter ≤ server.counter)
    (lower : ∀ range, cache.coverage.get? channel = some range →
      counter ≤ asOf) :
    Held channel server cache base counter :=
  { held with
    asOf_nonneg := nonneg
    asOf_le := known
    covered := by
      intro range found id message covers has live passed
      refine held.covered found covers has live ?_
      have below := lower range found
      unfold horizon at passed ⊢
      split at passed
      · rename_i zero
        rw [if_pos zero]
        omega
      · rename_i nonzero
        rw [if_neg nonzero]
        exact passed }

/-- The rows of a page of history. -/
def historyBatch (load : Load) (rows : List MessageRow) : Batch where
  messages := rows
  history := true
  historyFloors := [(load.channel, load.floor)]

theorem grows_history (timeline : Timeline me channel server past)
    (member : state ∈ past) {load : Load} {rows : List MessageRow}
    (answered : state.history me load.channel load.before load.limit =
      .ok rows) (cache : Cache) :
    Cache.Grows channel server cache
      (cache.apply me (historyBatch load rows)) := by
  obtain ⟨messages, applied, grows, _⟩ := Cache.apply_messages me cache
    (historyBatch load rows) ⟨rfl, rfl, rfl, rfl, rfl, rfl⟩
  rw [applied]
  refine Cache.Grows.of_messages grows ?_
  intro id here listed
  obtain ⟨row, landing, rfl, rfl⟩ := listed
  obtain ⟨message, stored, sent, same⟩ :=
    Server.history_of answered (List.mem_filter.mp landing).1
  rw [sent, ← same]
  exact timeline.placed member stored

/-- While the floor has not moved, every row of the page is stored. -/
theorem history_lands {load : Load} {rows : List MessageRow}
    (answered : state.history me load.channel load.before load.limit =
      .ok rows) (unchanged : cache.unchangedFloor load = true)
    {row : MessageRow} (member : row ∈ rows) :
    ∃ here, (cache.apply me (historyBatch load rows)).home row.id =
      some here := by
  obtain ⟨messages, applied, _, stored⟩ := Cache.apply_messages me cache
    (historyBatch load rows) ⟨rfl, rfl, rfl, rfl, rfl, rfl⟩
  rw [applied]
  refine stored row (List.mem_filter.mpr ⟨member, ?_⟩)
  obtain ⟨_, _, sent, _⟩ := Server.history_of answered member
  simp only [Cache.unchangedFloor, Bool.and_eq_true, decide_eq_true_eq,
    Option.isNone_iff_eq_none] at unchanged
  obtain ⟨⟨floor, present⟩, unfenced⟩ := unchanged
  simp [Cache.staleHistory, historyBatch, sent, floor, Cache.messageMayLand,
    present, Cache.fencedAtOrAbove, unfenced]

end Held

end Brook
