import Brook.History.Record

namespace Brook

namespace Held

variable {me : UserId} {channel : ChannelId} {server state : Server}
variable {past : List Server} {cache : Cache} {base asOf : Int}

/-! The step of a page of history. -/

theorem earliest_le (held : Held channel server cache base asOf)
    {load : Load} {counter : Int} (known : counter ≤ server.counter) :
    cache.earliest load counter channel asOf ≤ server.counter := by
  have bound := held.asOf_le
  unfold Cache.earliest
  split
  · split
    · exact Int.le_trans (Int.min_le_left asOf counter) bound
    · exact known
  · exact bound

theorem earliest_nonneg (held : Held channel server cache base asOf)
    {load : Load} {counter : Int} (nonneg : 0 ≤ counter) :
    0 ≤ cache.earliest load counter channel asOf := by
  have known := held.asOf_nonneg
  unfold Cache.earliest
  split
  · split
    · exact Int.le_min.mpr ⟨known, nonneg⟩
    · exact nonneg
  · exact known

theorem earliest_le_asOf {load : Load} {counter : Int} {range : Range}
    (found : cache.coverage.get? channel = some range) :
    cache.earliest load counter channel asOf ≤ asOf := by
  unfold Cache.earliest
  split
  · rw [if_pos (Table.contains_iff.mpr ⟨range, found⟩)]
    exact Int.min_le_left asOf counter
  · exact Int.le_refl asOf

theorem earliest_le_counter {load : Load} {counter : Int}
    (here : load.channel = channel)
    (unchanged : cache.unchangedFloor load = true) :
    cache.earliest load counter channel asOf ≤ counter := by
  unfold Cache.earliest
  rw [if_pos (by simp [here, unchanged])]
  split
  · exact Int.min_le_right asOf counter
  · exact Int.le_refl counter

/-- A message of the page's span is stored once the page has landed. -/
theorem home_of_spans (timeline : Timeline me channel server past)
    (member : state ∈ past) (held : Held channel server cache base asOf)
    {load : Load} {rows : List MessageRow} (here : load.channel = channel)
    (answered : state.history me load.channel load.before load.limit =
      .ok rows) (unchanged : cache.unchangedFloor load = true)
    (moves : load.movesRange (cache.coverage.get? channel)
      (rows.map (·.id)) = true)
    (timely : load.Timely channel server cache base state.counter rows)
    {id : MessageId} {message : Message} (spans : load.Spans rows id)
    (has : server.Has channel id message) (live : message.deleted = false)
    (passed : message.seq ≤
      horizon cache.cursor (cache.earliest load state.counter channel asOf)) :
    (cache.apply me (historyBatch load rows)).home id = some channel := by
  have grows := grows_history timeline member answered cache
  have after := held.grow grows
  by_cases seen : message.seq ≤ state.counter
  · have old := has_past (timeline.since member) has seen
    rw [← here] at old
    have sent := Server.history_in answered old live spans.1 spans.2
    obtain ⟨place, found⟩ : ∃ place,
        (cache.apply me (historyBatch load rows)).home id = some place :=
      history_lands answered unchanged sent
    rw [found, ← (after.placed found).2 message has.1, has.2]
  · -- It is newer than the answer: `/sync` brought it, or it was in time.
    have nonzero : cache.cursor ≠ 0 := by
      intro zero
      rw [horizon, if_pos zero] at passed
      have bound : cache.earliest load state.counter channel asOf ≤
          state.counter := earliest_le_counter here unchanged
      omega
    rw [horizon, if_neg nonzero] at passed
    apply grows.kept
    by_cases late : base < message.seq
    · exact held.synced nonzero has late passed
    · refine held.home_of_caches has (timely nonzero here unchanged moves id
        message has live spans ?_ ?_)
      · omega
      · omega

theorem land (timeline : Timeline me channel server past)
    (member : state ∈ past) (held : Held channel server cache base asOf)
    {load : Load} {rows : List MessageRow} (positive : 0 < load.limit)
    (answered : state.history me load.channel load.before load.limit =
      .ok rows)
    (timely : load.Timely channel server cache base state.counter rows) :
    Held channel server (cache.landLoad me load rows) base
      (cache.earliest load state.counter channel asOf) := by
  have known := (timeline.since member).counter
  have first := (timeline.wf member).counter
  have earlier : Held channel server cache base
      (cache.earliest load state.counter channel asOf) :=
    held.recorded (held.earliest_nonneg (by omega)) (held.earliest_le known)
      fun _ found => earliest_le_asOf found
  have grows := grows_history timeline member answered cache
  have applied := earlier.grow grows
  rw [Cache.landLoad_eq]
  split
  · exact earlier
  · split
    · rename_i unchanged
      rw [Cache.recorded_eq]
      refine applied.with_coverage ?_ ?_
      · intro range found id message covers has live passed
        by_cases here : load.channel = channel
        · rw [grows.cursor] at passed
          rw [← here] at found
          rcases Cache.recorded_covers positive found covers with
            ⟨range, old, covered⟩ | ⟨moves, spans⟩
          · rw [here] at old
            refine applied.covered old covered has live ?_
            rw [grows.cursor]
            exact passed
          · rw [here, grows.coverage] at moves
            exact home_of_spans timeline member held here answered unchanged
              moves timely spans has live passed
        · rw [Cache.recorded_ne (fun same => here same.symm)] at found
          exact applied.covered found covers has live passed
      · intro range found blank
        by_cases here : load.channel = channel
        · rw [← here] at found
          refine Cache.recorded_bottomed ?_ range found blank
          intro old held bottom
          rw [here] at held
          exact applied.bottom held bottom
        · rw [Cache.recorded_ne (fun same => here same.symm)] at found
          exact applied.bottom found blank
    · exact applied

/-! The step of a page of `/sync`. -/

section

variable {page : Page}

theorem settled_open (held : Held channel server cache base asOf)
    (inside : state.isMember channel me = true)
    (delivers : Delivers state me cache.cursor page) :
    (cache.settled me page).removed.get? channel = none := by
  have keeps := Grounded.settled_inside delivers inside
  have floor := Cache.floorOf_ownStage me cache (Cache.batchOf page) channel
  rw [Cache.floorOf, Cache.floorOf, held.open'] at floor
  rw [keeps.removed]
  exact Option.map_eq_none_iff.mp floor

theorem settled_home (inside : state.isMember channel me = true)
    (delivers : Delivers state me cache.cursor page) {id : MessageId}
    (found : cache.home id = some channel) :
    (cache.settled me page).home id = some channel := by
  have keeps := Grounded.settled_inside delivers inside
  obtain ⟨row, stored, here⟩ := MessageTable.home_eq_some.mp found
  refine MessageTable.home_eq_some.mpr
    ⟨row, (keeps.messages id row here).mpr ?_, here⟩
  rw [(Cache.sameRows_ownStage me cache (Cache.batchOf page)).messages]
  exact stored

theorem settled_coverage (inside : state.isMember channel me = true)
    (delivers : Delivers state me cache.cursor page) :
    (cache.settled me page).coverage.get? channel =
      cache.coverage.get? channel := by
  have keeps := Grounded.settled_inside delivers inside
  rw [keeps.coverage,
    (Cache.sameRows_ownStage me cache (Cache.batchOf page)).coverage]

/-- The channel is present after any page. -/
theorem settledChannels_present (timeline : Timeline me channel server past)
    (member : state ∈ past) (held : Held channel server cache base asOf)
    (delivers : Delivers state me cache.cursor page) :
    ∃ row, (cache.settledChannels me page).get? channel = some row := by
  have inside := timeline.inside member
  by_cases zero : cache.cursor = 0
  · obtain ⟨stored, current⟩ := timeline.channel_stored member
    obtain ⟨row, listed, here, _⟩ :=
      delivers.channel_all zero current inside
    have unfenced := held.settled_open inside delivers
    have entry : (channel, (⟨row.seq, row.json⟩ : CachedChannel)) ∈
        (page.channels.filter fun row =>
          !(cache.settled me page).fencedAtOrAbove row.id row.seq).map
          fun row => (row.id, ⟨row.seq, row.json⟩) := by
      refine List.mem_map.mpr ⟨row, List.mem_filter.mpr ⟨listed, ?_⟩, ?_⟩
      · simp [Cache.fencedAtOrAbove, Cache.fenceOf, here, unfenced]
      · rw [here]
    obtain ⟨kept, found, _⟩ :=
      Table.upsertAll_ge_new Cache.guards_newerChannel entry
    exact ⟨kept, found⟩
  · obtain ⟨row, found⟩ := held.present zero
    have keeps := Grounded.settled_inside delivers inside
    have kept : (cache.settled me page).channels.get? channel = some row := by
      rw [keeps.channels,
        (Cache.sameRows_ownStage me cache (Cache.batchOf page)).channels]
      exact found
    obtain ⟨last, final, _⟩ := Table.upsertAll_ge_old
      Cache.guards_newerChannel
      ((page.channels.filter fun row =>
        !(cache.settled me page).fencedAtOrAbove row.id row.seq).map
        fun row => (row.id, ⟨row.seq, row.json⟩)) kept
    exact ⟨last, final⟩

/-- A message of the page's window lands. -/
theorem mem_landing (timeline : Timeline me channel server past)
    (member : state ∈ past) (held : Held channel server cache base asOf)
    (delivers : Delivers state me cache.cursor page)
    (nonzero : cache.cursor ≠ 0) {id : MessageId} {message : Message}
    (has : server.Has channel id message)
    (window : cache.cursor < message.seq ∧ message.seq ≤ page.next) :
    state.messageOut id message ∈ cache.landing me page := by
  have inside := timeline.inside member
  have known := Int.le_trans window.2 delivers.next_le
  obtain ⟨stored, here⟩ := has_past (timeline.since member) has known
  obtain ⟨row, present⟩ :=
    settledChannels_present timeline member held delivers
  have unfenced := held.settled_open inside delivers
  refine List.mem_filter.mpr ⟨delivers.message_in nonzero stored
    (by rw [here]; exact inside) window, ?_⟩
  refine Cache.messageMayLand_of_floor ?_ ?_
  · simp [Cache.channelPresent, Table.contains, Server.messageOut, here,
      present]
  · intro floor equality
    simp [Cache.floorOf, Server.messageOut, here, unfenced] at equality

/-- The messages after a page: nothing of the channel goes, and what is new in
the window is there. -/
theorem commit_home (timeline : Timeline me channel server past)
    (member : state ∈ past) (held : Held channel server cache base asOf)
    (delivers : Delivers state me cache.cursor page)
    {messages : MessageTable}
    (unquoted : MessageTable.unquoted messages =
      (MessageTable.unquoted (cache.settled me page).messages).upsertAll
        newerMessage (MessageTable.entries (cache.landing me page))) :
    (∀ {id}, cache.home id = some channel →
      MessageTable.home messages id = some channel) ∧
    (∀ {id here}, MessageTable.home messages id = some here →
      server.Placed id here) ∧
    (cache.cursor ≠ 0 → ∀ {id message}, server.Has channel id message →
      cache.cursor < message.seq → message.seq ≤ page.next →
      MessageTable.home messages id = some channel) := by
  have grows := MessageTable.grows_upsertAll
    (MessageTable.unquoted (cache.settled me page).messages)
    (cache.landing me page)
  rw [← unquoted] at grows
  have placed : ∀ {id here}, MessageTable.home messages id = some here →
      server.Placed id here := by
    intro id here found
    rw [← MessageTable.home_unquoted] at found
    rcases grows.origin found with old | ⟨row, listed, rfl, rfl⟩
    · rw [MessageTable.home_unquoted] at old
      obtain ⟨row, stored, same⟩ := MessageTable.home_eq_some.mp old
      exact held.placed (MessageTable.home_eq_some.mpr
        ⟨row, Cache.settled_messages me cache page stored, same⟩)
    · obtain ⟨message, stored, sent, _⟩ :=
        delivers.message_of (List.mem_filter.mp listed).1
      rw [sent]
      exact timeline.placed member stored
  refine ⟨?_, placed, ?_⟩
  · intro id found
    rw [← MessageTable.home_unquoted]
    apply grows.kept
    rw [MessageTable.home_unquoted]
    exact settled_home (timeline.inside member) delivers found
  · intro nonzero id message has above passed
    have listed := mem_landing timeline member held delivers nonzero has
      ⟨above, passed⟩
    obtain ⟨here, found⟩ := MessageTable.home_upsertAll_of_mem
      (MessageTable.unquoted (cache.settled me page).messages) listed
    rw [← unquoted, MessageTable.home_unquoted] at found
    simp only [Server.messageOut] at found
    rw [found, ← (placed found).2 message has.1, has.2]

theorem settleTops (held : Held channel server cache base asOf)
    (cursor : Int) :
    Held channel server (cache.settleTops cursor) base asOf := by
  have bottomed : cache.Bottomed channel := fun _ => held.bottom
  refine held.with_coverage ?_ ?_
  · intro range found id message covers has live passed
    obtain ⟨old, stored, before⟩ :=
      Cache.settleTops_covers bottomed found covers
    exact held.covered stored before has live passed
  · intro range found blank
    exact Cache.settleTops_bottomed bottomed range found blank

theorem commit (timeline : Timeline me channel server past)
    (member : state ∈ past) (held : Held channel server cache base asOf)
    (delivers : Delivers state me cache.cursor page)
    (timely : page.Timely channel server cache asOf) :
    Held channel server (cache.commitPage me page)
      (if cache.cursor = 0 then page.next else base) asOf := by
  have inside := timeline.inside member
  have since := timeline.since member
  have positive := delivers.next_pos
  obtain ⟨messages, applied, equality, committed, unquoted⟩ :=
    Cache.commitPage_cases me cache page
  obtain ⟨kept, placed, landed⟩ :=
    commit_home timeline member held delivers unquoted
  have next : Held channel server applied
      (if cache.cursor = 0 then page.next else base) asOf := by
    rw [equality]
    constructor
    case cursor_nonneg => exact Int.le_of_lt positive
    case cursor_le => exact Int.le_trans delivers.next_le since.counter
    case asOf_nonneg => exact held.asOf_nonneg
    case asOf_le => exact held.asOf_le
    case placed => exact placed
    case open' => exact settled_open held inside delivers
    case present =>
      intro _
      exact settledChannels_present timeline member held delivers
    case synced =>
      intro _ id message has above passed
      dsimp only at passed
      by_cases zero : cache.cursor = 0
      · rw [if_pos zero] at above
        omega
      · rw [if_neg zero] at above
        by_cases old : message.seq ≤ cache.cursor
        · exact kept (held.synced zero has above old)
        · exact landed zero has (by omega) passed
    case covered =>
      intro range found id message covers has live passed
      dsimp only at found
      rw [settled_coverage inside delivers] at found
      have above : page.next ≠ 0 := by omega
      simp only [horizon, if_neg above] at passed
      by_cases zero : cache.cursor = 0
      · by_cases old : message.seq ≤ asOf
        · refine kept (held.covered found covers has live ?_)
          rw [horizon, if_pos zero]
          exact old
        · exact kept (held.home_of_caches has (timely zero id message
            ⟨range, found, covers⟩ has live (by omega) passed))
      · by_cases old : message.seq ≤ cache.cursor
        · refine kept (held.covered found covers has live ?_)
          rw [horizon, if_neg zero]
          exact old
        · exact landed zero has (by omega) passed
    case bottom =>
      intro range found blank
      dsimp only at found
      rw [settled_coverage inside delivers] at found
      exact held.bottom found blank
  rw [committed]
  split
  · exact next
  · exact next.settleTops page.next

end

end Held

end Brook
