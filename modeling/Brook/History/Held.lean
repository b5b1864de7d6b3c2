import Brook.History.Timeline

namespace Brook

/-- The range holds the message, or would if it were in the channel. -/
def Range.Covers (range : Range) (id : MessageId) : Prop :=
  range.completeToStart = true ∨
    ∃ oldest, range.oldestId = some oldest ∧ oldest ≤ id

/-- A stored message of the channel. -/
def Server.Has (server : Server) (channel : ChannelId) (id : MessageId)
    (message : Message) : Prop :=
  server.messages.get? id = some message ∧ message.channelId = channel

/-- The cached message is known to the server under the same channel. -/
def Server.Placed (server : Server) (id : MessageId) (channel : ChannelId) :
    Prop :=
  id ∈ server.messageIds ∧
    ∀ message, server.messages.get? id = some message →
      message.channelId = channel

/-- The number up to which the covered range is complete. -/
def horizon (cursor asOf : Int) : Int :=
  if cursor = 0 then asOf else cursor

/-- What the cache holds of the channel: everything that `/sync` delivered
after the page from 0, and everything in the covered range. -/
structure Held (channel : ChannelId) (server : Server) (cache : Cache)
    (base asOf : Int) : Prop where
  cursor_nonneg : 0 ≤ cache.cursor
  cursor_le : cache.cursor ≤ server.counter
  asOf_nonneg : 0 ≤ asOf
  asOf_le : asOf ≤ server.counter
  placed : ∀ {id here}, cache.home id = some here →
    server.Placed id here
  open' : cache.removed.get? channel = none
  present : cache.cursor ≠ 0 →
    ∃ row, cache.channels.get? channel = some row
  synced : cache.cursor ≠ 0 → ∀ {id message}, server.Has channel id message →
    base < message.seq → message.seq ≤ cache.cursor →
    cache.home id = some channel
  covered : ∀ {range}, cache.coverage.get? channel = some range →
    ∀ {id message}, range.Covers id → server.Has channel id message →
    message.deleted = false → message.seq ≤ horizon cache.cursor asOf →
    cache.home id = some channel
  bottom : ∀ {range}, cache.coverage.get? channel = some range →
    range.oldestId = none → range.completeToStart = true

namespace Held

variable {channel : ChannelId} {server : Server} {cache : Cache}
variable {base asOf : Int}

theorem empty (wf : server.Wf) :
    Held channel server Cache.empty 0 0 where
  cursor_nonneg := Int.le_refl 0
  cursor_le := by
    have positive := wf.counter
    simp only [Cache.empty]
    omega
  asOf_nonneg := Int.le_refl 0
  asOf_le := by
    have positive := wf.counter
    omega
  placed found := by cases found
  open' := rfl
  present h := (h rfl).elim
  synced h := (h rfl).elim
  covered found := by cases found
  bottom found := by cases found

/-! The step of a request. -/

theorem placed_serve {before after : Server}
    (committed : Server.Committed before after) {id : MessageId}
    {here : ChannelId} (placed : before.Placed id here) :
    after.Placed id here := by
  obtain ⟨drawn, same⟩ := placed
  refine ⟨committed.messageIds drawn, ?_⟩
  intro message stored
  have change := committed.messages id
  rw [stored] at change
  cases h : before.messages.get? id with
  | none =>
      rw [h] at change
      cases change with
      | created _ undrawn => exact (undrawn drawn).elim
  | some old =>
      have kept := same old h
      rw [h] at change
      cases change with
      | same => exact kept
      | stamped _ moved _ => exact moved.trans kept

/-- What is numbered at or below the counter was there before. -/
theorem has_before {before after : Server}
    (committed : Server.Committed before after) {id : MessageId}
    {message : Message} (has : after.Has channel id message)
    (known : message.seq ≤ before.counter) :
    before.Has channel id message := by
  obtain ⟨stored, here⟩ := has
  refine ⟨?_, here⟩
  have numbered := committed.counter
  have change := committed.messages id
  rw [stored] at change
  cases h : before.messages.get? id with
  | none =>
      rw [h] at change
      cases change with
      | created seq _ => omega
  | some old =>
      rw [h] at change
      cases change with
      | same => rfl
      | stamped seq _ _ => omega

theorem serve {before after : Server}
    (held : Held channel before cache base asOf)
    (committed : Server.Committed before after) :
    Held channel after cache base asOf where
  cursor_nonneg := held.cursor_nonneg
  cursor_le := by
    have numbered := committed.counter
    have bound := held.cursor_le
    omega
  asOf_nonneg := held.asOf_nonneg
  asOf_le := by
    have numbered := committed.counter
    have bound := held.asOf_le
    omega
  placed found := placed_serve committed (held.placed found)
  open' := held.open'
  present := held.present
  synced := by
    intro nonzero id message has above passed
    have bound := held.cursor_le
    exact held.synced nonzero
      (has_before committed has (Int.le_trans passed bound)) above passed
  covered := by
    intro range found id message covers has live passed
    have known : message.seq ≤ before.counter := by
      have first := held.cursor_le
      have second := held.asOf_le
      unfold horizon at passed
      split at passed <;> omega
    exact held.covered found covers (has_before committed has known) live
      passed
  bottom := held.bottom

end Held

/-! Rows that arrive apart from `/sync`. -/

/-- What applying rows from elsewhere does to the channel. -/
structure Cache.Grows (channel : ChannelId) (server : Server)
    (before after : Cache) : Prop where
  cursor : after.cursor = before.cursor
  removed : after.removed.get? channel = before.removed.get? channel
  channels : ∀ {row}, before.channels.get? channel = some row →
    ∃ new, after.channels.get? channel = some new
  coverage : after.coverage.get? channel = before.coverage.get? channel
  kept : ∀ {id}, before.home id = some channel →
    after.home id = some channel
  origin : ∀ {id here}, after.home id = some here →
    before.home id = some here ∨ server.Placed id here

theorem Cache.Grows.refl (channel : ChannelId) (server : Server)
    (cache : Cache) : Cache.Grows channel server cache cache :=
  ⟨rfl, rfl, fun found => ⟨_, found⟩, rfl, fun found => found, Or.inl⟩

theorem Cache.Grows.of_messages {channel : ChannelId} {server : Server}
    {cache : Cache} {messages : MessageTable}
    {added : MessageId → ChannelId → Prop}
    (grows : MessageTable.Grows cache.messages messages added)
    (placed : ∀ {id here}, added id here → server.Placed id here) :
    Cache.Grows channel server cache { cache with messages := messages } where
  cursor := rfl
  removed := rfl
  channels found := ⟨_, found⟩
  coverage := rfl
  kept := grows.kept
  origin found := (grows.origin found).imp_right placed

namespace Held

variable {channel : ChannelId} {server : Server} {before after : Cache}
variable {base asOf : Int}

theorem grow (held : Held channel server before base asOf)
    (grows : Cache.Grows channel server before after) :
    Held channel server after base asOf where
  cursor_nonneg := by
    rw [grows.cursor]
    exact held.cursor_nonneg
  cursor_le := by
    rw [grows.cursor]
    exact held.cursor_le
  asOf_nonneg := held.asOf_nonneg
  asOf_le := held.asOf_le
  placed found := by
    rcases grows.origin found with old | new
    · exact held.placed old
    · exact new
  open' := by
    rw [grows.removed]
    exact held.open'
  present nonzero := by
    rw [grows.cursor] at nonzero
    obtain ⟨row, found⟩ := held.present nonzero
    exact grows.channels found
  synced nonzero id message has above passed := by
    rw [grows.cursor] at nonzero passed
    exact grows.kept (held.synced nonzero has above passed)
  covered found id message covers has live passed := by
    rw [grows.coverage] at found
    rw [grows.cursor] at passed
    exact grows.kept (held.covered found covers has live passed)
  bottom found := by
    rw [grows.coverage] at found
    exact held.bottom found

end Held

namespace Timeline

variable {me : UserId} {channel : ChannelId} {server state : Server}
variable {past : List Server}

/-- A row of an earlier state is known to the present one. -/
theorem placed (timeline : Timeline me channel server past)
    (member : state ∈ past) {id : MessageId} {message : Message}
    (stored : state.messages.get? id = some message) :
    server.Placed id message.channelId := by
  have since := timeline.since member
  exact ⟨since.drawn stored, fun _ now => since.channel stored now⟩

theorem grows_live (timeline : Timeline me channel server past)
    (member : state ∈ past) (cache : Cache) {event : LiveEvent}
    {batch : Batch} (sent : state.eventBatch event = some batch) :
    Cache.Grows channel server cache (cache.apply me batch) := by
  cases event with
  | message id =>
      simp only [Server.eventBatch, Option.map_eq_some_iff] at sent
      obtain ⟨message, stored, rfl⟩ := sent
      obtain ⟨messages, applied, grows, _⟩ := Cache.apply_messages me cache
        { messages := [state.messageOut id message] }
        ⟨rfl, rfl, rfl, rfl, rfl, rfl⟩
      rw [applied]
      refine Cache.Grows.of_messages grows ?_
      intro key here listed
      obtain ⟨row, landing, rfl, rfl⟩ := listed
      have only := (List.mem_filter.mp landing).1
      rw [List.mem_singleton] at only
      rw [only]
      exact timeline.placed member stored
  | channelUpdate id =>
      simp only [Server.eventBatch, Option.map_eq_some_iff] at sent
      obtain ⟨row, stored, rfl⟩ := sent
      have applied : cache.apply me
          { channels := [state.channelOut id row] } =
          cache.applyChannel (state.channelOut id row) := by
        simp [Cache.apply]
      rw [applied]
      unfold Cache.applyChannel
      split
      · exact Cache.Grows.refl channel server cache
      · refine ⟨rfl, rfl, ?_, rfl, fun found => found, Or.inl⟩
        intro old found
        obtain ⟨new, kept, _⟩ := Table.upsert_ge_old Cache.guards_newerChannel
          (state.channelOut id row).id
          ⟨(state.channelOut id row).seq, (state.channelOut id row).json⟩ found
        exact ⟨new, kept⟩
  | messageDelete id =>
      simp only [Server.eventBatch, Option.map_eq_some_iff,
        Option.filter_eq_some_iff] at sent
      obtain ⟨message, ⟨stored, _⟩, rfl⟩ := sent
      have applied : cache.apply me
          { tombstones := [(id, message.channelId, message.seq)] } =
          cache.applyTombstone (id, message.channelId, message.seq) := by
        simp [Cache.apply]
      rw [applied]
      unfold Cache.applyTombstone
      split
      · refine Cache.Grows.of_messages (MessageTable.Grows.of_home
          (MessageTable.home_bury cache.messages id message.channelId
            message.seq)) ?_
        intro key here listed
        obtain ⟨rfl, rfl⟩ := listed
        exact timeline.placed member stored
      · exact Cache.Grows.refl channel server cache
  | channelDelete id seq =>
      simp only [Server.eventBatch] at sent
      split at sent
      · cases sent
      · rename_i gone
        rw [Option.map_eq_some_iff] at sent
        obtain ⟨tombstone, _, rfl⟩ := sent
        have applied : cache.apply me { removed := [(id, tombstone.seq)] } =
            Cache.applyRemoval me cache (id, tombstone.seq) := by
          simp [Cache.apply]
        rw [applied]
        -- The channel that went is not the one the caller is in.
        have other : id ≠ channel := by
          intro same
          obtain ⟨row, found⟩ := timeline.channel_stored member
          rw [same] at gone
          exact gone (Table.contains_iff.mpr ⟨row, found⟩)
        rcases Cache.applyRemoval_cases me cache (id, tombstone.seq) channel
          with keeps | ⟨same, _⟩
        · refine ⟨?_, keeps.removed, ?_, keeps.coverage, ?_, ?_⟩
          · exact Cache.applyRemoval_cursor me cache (id, tombstone.seq)
          · intro row found
            exact ⟨row, keeps.channels.trans found⟩
          · intro key found
            obtain ⟨row, stored, here⟩ := MessageTable.home_eq_some.mp found
            exact MessageTable.home_eq_some.mpr
              ⟨row, (keeps.messages key row here).mpr stored, here⟩
          · intro key here found
            obtain ⟨row, stored, same⟩ := MessageTable.home_eq_some.mp found
            exact Or.inl (MessageTable.home_eq_some.mpr
              ⟨row, Cache.applyRemoval_messages me cache (id, tombstone.seq)
                stored, same⟩)
        · exact (other same).elim

end Timeline

end Brook
