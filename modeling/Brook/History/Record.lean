import Brook.History.Landed

namespace Brook

/-- The message is in the cache. -/
def Cache.Caches (cache : Cache) (id : MessageId) : Prop :=
  ∃ row, cache.messages.get? id = some row

/-- A page of history that was answered before the page from 0, and moves the
range, misses nothing of its span that was numbered between the two: it is in
the cache by then. -/
def Load.Timely (load : Load) (channel : ChannelId) (server : Server)
    (cache : Cache) (base counter : Int) (rows : List MessageRow) : Prop :=
  cache.cursor ≠ 0 → load.channel = channel →
    cache.unchangedFloor load = true →
    load.movesRange (cache.coverage.get? channel) (rows.map (·.id)) = true →
    ∀ id message, server.Has channel id message →
      message.deleted = false → load.Spans rows id →
      counter < message.seq → message.seq ≤ base → cache.Caches id

/-- A page from 0 that meets a range misses nothing of it that was numbered
since the history in it: it is in the cache by then. -/
def Page.Timely (page : Page) (channel : ChannelId) (server : Server)
    (cache : Cache) (asOf : Int) : Prop :=
  cache.cursor = 0 → ∀ id message, cache.Covered channel id →
    server.Has channel id message → message.deleted = false →
    asOf < message.seq → message.seq ≤ page.next → cache.Caches id

namespace Held

variable {me : UserId} {channel : ChannelId} {server state : Server}
variable {past : List Server} {cache : Cache} {base asOf : Int}

theorem home_of_caches (held : Held channel server cache base asOf)
    {id : MessageId} {message : Message}
    (has : server.Has channel id message) (caches : cache.Caches id) :
    cache.home id = some channel := by
  obtain ⟨row, found⟩ := caches
  have here : cache.home id = some row.channelId :=
    MessageTable.home_eq_some.mpr ⟨row, found, rfl⟩
  obtain ⟨_, same⟩ := held.placed here
  rw [here, ← same message has.1, has.2]

theorem has_past (since : Extends state server) {id : MessageId}
    {message : Message} (has : server.Has channel id message)
    (known : message.seq ≤ state.counter) :
    state.Has channel id message :=
  ⟨since.unchanged has.1 known, has.2⟩

/-- A cache that differs in the channel's coverage only. -/
theorem with_coverage (held : Held channel server cache base asOf)
    {coverage : Table ChannelId Range}
    (covered : ∀ {range}, coverage.get? channel = some range →
      ∀ {id message}, range.Covers id → server.Has channel id message →
      message.deleted = false → message.seq ≤ horizon cache.cursor asOf →
      cache.home id = some channel)
    (bottom : ∀ {range}, coverage.get? channel = some range →
      range.oldestId = none → range.completeToStart = true) :
    Held channel server { cache with coverage := coverage } base asOf where
  cursor_nonneg := held.cursor_nonneg
  cursor_le := held.cursor_le
  asOf_nonneg := held.asOf_nonneg
  asOf_le := held.asOf_le
  placed := held.placed
  open' := held.open'
  present := held.present
  synced := held.synced
  covered := covered
  bottom := bottom

end Held

namespace Cache

/-- Recording a page changes the coverage only. -/
theorem recordHead_eq (cache : Cache) (channel : ChannelId)
    (ids : List MessageId) (limit : Nat) :
    cache.recordHead channel ids limit =
      { cache with
        coverage := (cache.recordHead channel ids limit).coverage } := by
  unfold recordHead
  dsimp only
  split
  · split <;> rfl
  · split
    · rfl
    · split <;> rfl

theorem recordOlder_eq (cache : Cache) (channel : ChannelId)
    (before : MessageId) (ids : List MessageId) (limit : Nat) :
    cache.recordOlder channel before ids limit =
      { cache with
        coverage :=
          (cache.recordOlder channel before ids limit).coverage } := by
  unfold recordOlder
  split
  · rfl
  · split <;> rfl

/-- The coverage after the end of a load that could land. -/
def recorded (cache : Cache) (load : Load) (rows : List MessageRow) : Cache :=
  match load.before with
  | none => cache.recordHead load.channel (rows.map (·.id)) load.limit
  | some before =>
      cache.recordOlder load.channel before (rows.map (·.id)) load.limit

variable {cache : Cache} {channel : ChannelId} {load : Load}
variable {rows : List MessageRow}

theorem recorded_eq (cache : Cache) (load : Load) (rows : List MessageRow) :
    cache.recorded load rows =
      { cache with coverage := (cache.recorded load rows).coverage } := by
  unfold recorded
  split
  · exact recordHead_eq cache load.channel _ load.limit
  · exact recordOlder_eq cache load.channel _ _ load.limit

theorem recorded_ne (other : channel ≠ load.channel) :
    (cache.recorded load rows).coverage.get? channel =
      cache.coverage.get? channel := by
  unfold recorded recordHead recordOlder
  dsimp only
  repeat' split
  all_goals first
    | rfl
    | exact Table.get?_put_ne cache.coverage _ other

theorem recorded_bottomed (bottomed : cache.Bottomed load.channel) :
    (cache.recorded load rows).Bottomed load.channel := by
  unfold recorded
  split
  · exact recordHead_bottomed bottomed
  · exact recordOlder_bottomed bottomed

theorem recorded_covers (positive : 0 < load.limit) {range : Range}
    {id : MessageId}
    (found : (cache.recorded load rows).coverage.get? load.channel =
      some range) (covers : range.Covers id) :
    cache.Covered load.channel id ∨
      (load.movesRange (cache.coverage.get? load.channel)
        (rows.map (·.id)) = true ∧ load.Spans rows id) := by
  have listed : (rows.map (·.id)).length < load.limit ∨
      (∃ first ∈ rows.map (·.id), first ≤ id) →
      rows.length < load.limit ∨ ∃ row ∈ rows, row.id ≤ id := by
    intro reached
    simpa using reached
  unfold recorded at found
  split at found
  · rename_i head
    rcases recordHead_covers load head positive found covers with
      before | ⟨moves, reached⟩
    · exact Or.inl before
    · exact Or.inr ⟨moves, by simp [head], listed reached⟩
  · rename_i before older
    rcases recordOlder_covers load older found covers with
      held | ⟨moves, below, reached⟩
    · exact Or.inl held
    · exact Or.inr ⟨moves, by simpa [older] using below, listed reached⟩

theorem landLoad_eq (me : UserId) (cache : Cache) (load : Load)
    (rows : List MessageRow) :
    cache.landLoad me load rows =
      if cache.generation ≠ load.generation then
        cache
      else if cache.unchangedFloor load then
        (cache.apply me (Held.historyBatch load rows)).recorded load rows
      else
        cache.apply me (Held.historyBatch load rows) := by
  by_cases moved : cache.generation ≠ load.generation
  · rw [landLoad, if_pos moved, if_pos moved]
  · rw [landLoad, if_neg moved, if_neg moved]
    by_cases unchanged : cache.unchangedFloor load = true
    · rw [if_pos unchanged, recorded]
      simp only [unchanged, if_true]
      cases load.before <;> rfl
    · rw [if_neg unchanged]
      simp only [unchanged]
      rfl

end Cache

end Brook
