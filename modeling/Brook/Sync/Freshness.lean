import Brook.Sync.Grounded
import Brook.Sync.System

namespace Brook

/-! Which changes of a channel's messages have reached the cache. -/

/-- The cached row is the server's, or an older version of it. -/
def Mirrors (message : Message) (cached : CachedMessage) : Prop :=
  cached.channelId = message.channelId ∧ cached.seq ≤ message.seq ∧
    (cached.seq = message.seq → message.deleted = true →
      cached.json.deletedAt = true ∧ cached.json.body = [])

/-- The cursor up to which the caller has heard of a channel: the cache's own
while the caller is in it, else the one at which the caller left. -/
def heardTo (me : UserId) (server : Server) (cursor : Int)
    (leftAt : ChannelId → Int) (channel : ChannelId) : Int :=
  if server.isMember channel me then cursor else leftAt channel

structure Fresh (me : UserId) (server : Server) (cache : Cache)
    (leftAt : ChannelId → Int) (caughtUp : Bool) : Prop where
  present : ∀ {id cached}, cache.messages.get? id = some cached →
    ∃ row, cache.channels.get? cached.channelId = some row
  drawn : ∀ {id cached}, cache.messages.get? id = some cached →
    id ∈ server.messageIds
  mirrors : ∀ {id cached message},
    cache.messages.get? id = some cached →
    server.messages.get? id = some message → Mirrors message cached
  heard : ∀ {id cached message},
    cache.messages.get? id = some cached →
    server.messages.get? id = some message →
    message.seq ≤
      heardTo me server cache.cursor leftAt message.channelId →
    message.seq ≤ cached.seq
  leftAt_le : ∀ channel, leftAt channel ≤ server.counter
  settled : caughtUp = true → ∀ {channel row},
    server.isMember channel me = false →
    cache.channels.get? channel = some row →
    leftAt channel = cache.cursor

/-- The channel's removal is still ahead of the cache. -/
def RemovalAhead (me : UserId) (server : Server) (cursor : Int)
    (channel : ChannelId) : Prop :=
  ∃ tombstone ∈ server.tombstones, tombstone.channelId = channel ∧
    tombstone.userId = me ∧ cursor < tombstone.seq

/-- No message that the cache holds of the channel was changed after the
cursor at which the caller left it, and at or before the cursor now. -/
def Unchanged (server : Server) (cache : Cache)
    (leftAt : ChannelId → Int) (channel : ChannelId) : Prop :=
  ∀ id cached message, cache.messages.get? id = some cached →
    server.messages.get? id = some message → message.channelId = channel →
    ¬ (leftAt channel < message.seq ∧ message.seq ≤ cache.cursor)

theorem isMember_eq_false {server : Server} {channel : ChannelId}
    {user : UserId} :
    server.isMember channel user = false ↔
      server.memberships.get? (channel, user) = none := by
  simp [Server.isMember, Table.contains]

namespace Fresh

theorem empty (me : UserId) {server : Server} (generation : Nat)
    {leftAt : ChannelId → Int}
    (bounded : ∀ channel, leftAt channel ≤ server.counter)
    (caughtUp : Bool) :
    Fresh me server { Cache.empty with generation := generation }
      leftAt caughtUp where
  present h := by cases h
  drawn h := by cases h
  mirrors h := by cases h
  heard h := by cases h
  leftAt_le := bounded
  settled _ _ _ _ h := by cases h

/-! The step of a request. -/

section

variable {me : UserId} {before after : Server} {cache : Cache}
variable {leftAt : ChannelId → Int} {caughtUp : Bool}

theorem mirrors_serve (wf : before.Wf)
    (fresh : Fresh me before cache leftAt caughtUp)
    (committed : Server.Committed before after)
    {id : MessageId} {cached : CachedMessage} {message : Message}
    (found : cache.messages.get? id = some cached)
    (stored : after.messages.get? id = some message) :
    Mirrors message cached := by
  have numbered := committed.counter
  have change := committed.messages id
  rw [stored] at change
  cases h : before.messages.get? id with
  | none =>
      rw [h] at change
      cases change with
      | created _ undrawn => exact (undrawn (fresh.drawn found)).elim
  | some old =>
      have bound := wf.messageSeq h
      obtain ⟨channel, below, deleted⟩ := fresh.mirrors found h
      rw [h] at change
      cases change with
      | same => exact ⟨channel, below, deleted⟩
      | stamped seq kept _ =>
          refine ⟨channel.trans kept.symm, by omega, ?_⟩
          intro equality
          omega

/-- What was heard of a channel stays heard: a request changes a message only
at a new number, and brings the caller back only to a quiet channel. -/
theorem heard_serve (grounded : Grounded me before cache)
    (fresh : Fresh me before cache leftAt caughtUp)
    (committed : Server.Committed before after)
    (quiet : ∀ channel, before.isMember channel me = false →
      after.isMember channel me = true →
      RemovalAhead me before cache.cursor channel →
      Unchanged before cache leftAt channel)
    {id : MessageId} {cached : CachedMessage} {message : Message}
    (found : cache.messages.get? id = some cached)
    (stored : after.messages.get? id = some message)
    (reached : message.seq ≤ heardTo me after cache.cursor
      (SyncSystem.leftAfter me before after cache.cursor leftAt)
      message.channelId) :
    message.seq ≤ cached.seq := by
  have numbered := committed.counter
  have known := grounded.cursor_le
  have left := fresh.leftAt_le message.channelId
  have bounded : heardTo me after cache.cursor
      (SyncSystem.leftAfter me before after cache.cursor leftAt)
      message.channelId ≤ before.counter := by
    unfold heardTo SyncSystem.leftAfter
    split
    · exact known
    · split
      · exact known
      · exact left
  have change := committed.messages id
  rw [stored] at change
  cases h : before.messages.get? id with
  | none =>
      rw [h] at change
      cases change with
      | created seq _ => omega
  | some old =>
      rw [h] at change
      cases change with
      | stamped seq _ _ => omega
      | same =>
          refine fresh.heard found h ?_
          unfold heardTo SyncSystem.leftAfter at reached
          unfold heardTo
          cases was : before.isMember message.channelId me with
          | true =>
              rw [if_pos rfl]
              cases now : after.isMember message.channelId me <;>
                simpa [was, now] using reached
          | false =>
              rw [if_neg (by simp)]
              cases now : after.isMember message.channelId me with
              | false => simpa [was, now] using reached
              | true =>
                  -- The caller is back: the removal is still ahead.
                  have here := (fresh.mirrors found h).1
                  obtain ⟨row, channel⟩ := fresh.present found
                  rw [here] at channel
                  obtain ⟨seq, member, ahead, _⟩ := grounded.outside
                    (isMember_eq_false.mp was) channel
                  have unchanged := quiet _ was now
                    ⟨_, member, rfl, rfl, ahead⟩ id cached message found h rfl
                  rw [now, if_pos rfl] at reached
                  by_contra above
                  exact unchanged ⟨by omega, reached⟩

theorem serve (wf : before.Wf) (grounded : Grounded me before cache)
    (fresh : Fresh me before cache leftAt caughtUp)
    (committed : Server.Committed before after)
    (quiet : ∀ channel, before.isMember channel me = false →
      after.isMember channel me = true →
      RemovalAhead me before cache.cursor channel →
      Unchanged before cache leftAt channel) :
    Fresh me after cache
      (SyncSystem.leftAfter me before after cache.cursor leftAt)
      caughtUp where
  present := fresh.present
  drawn found := committed.messageIds (fresh.drawn found)
  mirrors := mirrors_serve wf fresh committed
  heard := heard_serve grounded fresh committed quiet
  leftAt_le := by
    intro channel
    have numbered := committed.counter
    have known := grounded.cursor_le
    have left := fresh.leftAt_le channel
    unfold SyncSystem.leftAfter
    split <;> omega
  settled := by
    intro last channel row out found
    unfold SyncSystem.leftAfter
    cases was : before.isMember channel me with
    | true => simp [out]
    | false => simpa using fresh.settled last was found

end

/-! The step of a page. -/

section

variable {me : UserId} {server : Server} {cache : Cache} {page : Page}
variable {leftAt : ChannelId → Int} {caughtUp : Bool}

theorem settledChannels_of_message
    (fresh : Fresh me server cache leftAt caughtUp) {id : MessageId}
    {cached : CachedMessage}
    (found : (cache.settled me page).messages.get? id = some cached) :
    ∃ row, (cache.settledChannels me page).get? cached.channelId =
      some row := by
  have old := Cache.settled_messages me cache page found
  obtain ⟨row, present⟩ := fresh.present old
  have kept : (cache.settled me page).channels.get? cached.channelId =
      some row := by
    rw [← (Cache.sameRows_ownStage me cache (Cache.batchOf page)).channels]
      at present
    rcases Cache.removalStage_cases me
        (Cache.ownStage me cache (Cache.batchOf page)) (Cache.batchOf page)
        cached.channelId with keeps | ⟨_, _, drops⟩
    · rw [Cache.settled, keeps.channels]
      exact present
    · exact (drops.messages id cached found rfl).elim
  obtain ⟨last, stored, _⟩ := Table.upsertAll_ge_old
    Cache.guards_newerChannel
    ((page.channels.filter fun row =>
      !(cache.settled me page).fencedAtOrAbove row.id row.seq).map
      fun row => (row.id, ⟨row.seq, row.json⟩)) kept
  exact ⟨last, stored⟩

/-- A row of the page of a message that the cache holds lands: its channel is
present, and no removal is as new as the row. -/
theorem mem_landing (grounded : Grounded me server cache)
    (fresh : Fresh me server cache leftAt caughtUp)
    (delivers : Delivers server me cache.cursor page)
    {id : MessageId} {cached : CachedMessage} {message : Message}
    (found : cache.messages.get? id = some cached)
    (stored : server.messages.get? id = some message)
    (inside : server.isMember message.channelId me = true)
    (window : cache.cursor < message.seq ∧ message.seq ≤ page.next) :
    server.messageOut id message ∈ cache.landing me page := by
  have here := (fresh.mirrors found stored).1
  have nonzero : cache.cursor ≠ 0 := by
    obtain ⟨row, channel⟩ := fresh.present found
    exact grounded.cursor_pos_of_channel channel
  have keeps := Grounded.settled_inside delivers inside
  have kept : (cache.settled me page).messages.get? id = some cached := by
    refine (keeps.messages id cached here).mpr ?_
    rw [(Cache.sameRows_ownStage me cache (Cache.batchOf page)).messages]
    exact found
  obtain ⟨row, channel⟩ := fresh.settledChannels_of_message kept
  rw [here] at channel
  have floor : ∀ seq, (cache.settled me page).floorOf message.channelId =
      some seq → seq ≤ cache.cursor := by
    intro seq equality
    rw [keeps.floorOf, Cache.floorOf_ownStage] at equality
    obtain ⟨removal, removed, rfl⟩ := Option.map_eq_some_iff.mp equality
    exact grounded.floor removed
  refine List.mem_filter.mpr ⟨delivers.message_in nonzero stored inside
    window, ?_⟩
  refine Cache.messageMayLand_of_floor ?_ ?_
  · simp [Cache.channelPresent, Table.contains, Server.messageOut, channel]
  · intro seq equality
    have bound := floor seq equality
    simp only [Server.messageOut]
    omega

/-- Where a message stored after the commit comes from, quotes apart. -/
theorem commit_induction (good : CachedMessage → Prop)
    {messages : MessageTable}
    (unquoted : MessageTable.unquoted messages =
      (MessageTable.unquoted (cache.settled me page).messages).upsertAll
        newerMessage ((cache.landing me page).map fun row =>
          (row.id, (CachedMessage.ofRow row).unquoted)))
    {id : MessageId} {cached : CachedMessage}
    (old : ∀ {row}, (cache.settled me page).messages.get? id = some row →
      good row.unquoted)
    (new : ∀ {row}, row ∈ cache.landing me page → row.id = id →
      good (CachedMessage.ofRow row).unquoted)
    (merge : ∀ {row stored}, row ∈ cache.landing me page → row.id = id →
      good stored → good (newerMessage.merged
        (CachedMessage.ofRow row).unquoted stored))
    (found : messages.get? id = some cached) :
    good cached.unquoted := by
  have final : (MessageTable.unquoted messages).get? id =
      some cached.unquoted := by
    simp [MessageTable.unquoted, found]
  rw [unquoted] at final
  refine Table.upsertAll_induction good ?_ ?_ ?_ final
  · intro row stored
    simp only [MessageTable.unquoted, Table.get?_mapRows,
      Option.map_eq_some_iff] at stored
    obtain ⟨before, kept, rfl⟩ := stored
    exact old kept
  · intro row member
    obtain ⟨sent, listed, equality⟩ := List.mem_map.mp member
    cases equality
    exact new listed rfl
  · intro row stored member
    obtain ⟨sent, listed, equality⟩ := List.mem_map.mp member
    cases equality
    exact merge listed rfl

theorem mirrors_messageOut (id : MessageId) (message : Message) :
    Mirrors message
      (CachedMessage.ofRow (server.messageOut id message)).unquoted := by
  refine ⟨rfl, Int.le_refl _, ?_⟩
  intro _ deleted
  simp [CachedMessage.unquoted, CachedMessage.ofRow, Server.messageOut,
    deleted]

/-- A landing row of a stored message is that message. -/
theorem landing_of_stored
    (delivers : Delivers server me cache.cursor page) {id : MessageId}
    {message : Message} {row : MessageRow}
    (stored : server.messages.get? id = some message)
    (listed : row ∈ cache.landing me page) (same : row.id = id) :
    row = server.messageOut id message ∧
      server.isMember message.channelId me = true ∧
      cache.cursor < message.seq ∧ message.seq ≤ page.next := by
  obtain ⟨sent, held, equality, inside, window⟩ :=
    delivers.message_of (List.mem_filter.mp listed).1
  rw [same, stored] at held
  cases held
  rw [same] at equality
  exact ⟨equality, inside, window⟩

theorem land (wf : server.Wf) (grounded : Grounded me server cache)
    (fresh : Fresh me server cache leftAt caughtUp)
    (delivers : Delivers server me cache.cursor page) :
    Fresh me server (cache.commitPage me page) leftAt (!page.more) := by
  obtain ⟨messages, coverage, committed, unquoted⟩ :=
    Cache.commitPage_eq me cache page
  rw [committed]
  constructor
  case present =>
    intro id cached found
    refine commit_induction (fun row =>
      ∃ channel, (cache.settledChannels me page).get? row.channelId =
        some channel) unquoted ?_ ?_ ?_ found
    · exact fresh.settledChannels_of_message
    · intro row listed _
      exact Table.contains_iff.mp
        (Cache.channelPresent_of_mayLand (List.mem_filter.mp listed).2)
    · intro row stored _ _ known
      exact known
  case drawn =>
    intro id cached found
    by_cases sent : ∃ row ∈ cache.landing me page, row.id = id
    · obtain ⟨row, listed, rfl⟩ := sent
      obtain ⟨message, stored, _⟩ :=
        delivers.message_of (List.mem_filter.mp listed).1
      exact wf.messageIds stored
    · refine commit_induction (fun _ => id ∈ server.messageIds)
        unquoted ?_ ?_ ?_ found
      · intro row stored
        exact fresh.drawn (Cache.settled_messages me cache page stored)
      · intro row listed same
        exact (sent ⟨row, listed, same⟩).elim
      · intro row _ listed same _
        exact (sent ⟨row, listed, same⟩).elim
  case mirrors =>
    intro id cached message found stored
    refine commit_induction (Mirrors message) unquoted
      ?_ ?_ ?_ found
    · intro row old
      have before := Cache.settled_messages me cache page old
      have mirrored := fresh.mirrors before stored
      exact mirrored
    · intro row listed same
      obtain ⟨rfl, _⟩ := landing_of_stored delivers stored listed same
      exact mirrors_messageOut id message
    · intro row before listed same known
      obtain ⟨rfl, _⟩ := landing_of_stored delivers stored listed same
      exact ⟨known.1, (mirrors_messageOut id message).2⟩
  case heard =>
    intro id cached message found stored reached
    dsimp only at reached
    cases inside : server.isMember message.channelId me with
    | false =>
        -- Nothing of a channel the caller is out of is in the page.
        rw [heardTo, inside, if_neg (by simp)] at reached
        refine commit_induction (fun row => message.seq ≤ row.seq)
          unquoted ?_ ?_ ?_ found
        · intro row old
          have before := Cache.settled_messages me cache page old
          have heard := fresh.heard before stored
          rw [heardTo, inside, if_neg (by simp)] at heard
          exact heard reached
        · intro row listed same
          obtain ⟨_, member, _⟩ :=
            landing_of_stored delivers stored listed same
          rw [inside] at member
          cases member
        · intro row _ listed same _
          obtain ⟨_, member, _⟩ :=
            landing_of_stored delivers stored listed same
          rw [inside] at member
          cases member
    | true =>
        rw [heardTo, inside, if_pos rfl] at reached
        have arrived : ∀ {row}, row ∈ cache.landing me page → row.id = id →
            row.seq = message.seq := by
          intro row listed same
          obtain ⟨rfl, _⟩ := landing_of_stored delivers stored listed same
          rfl
        by_cases listed :
            server.messageOut id message ∈ cache.landing me page
        · have final : (MessageTable.unquoted messages).get? id =
              some cached.unquoted := by
            simp [MessageTable.unquoted, found]
          rw [unquoted] at final
          have entry : (id, (CachedMessage.ofRow
              (server.messageOut id message)).unquoted) ∈
              (cache.landing me page).map fun row =>
                (row.id, (CachedMessage.ofRow row).unquoted) :=
            List.mem_map.mpr ⟨_, listed, rfl⟩
          obtain ⟨last, held, above⟩ := Table.upsertAll_ge_new
            MessageTable.guards_newerMessage entry
          rw [final] at held
          cases held
          exact above
        · refine commit_induction (fun row => message.seq ≤ row.seq)
            unquoted ?_ ?_ ?_ found
          · intro row old
            have before := Cache.settled_messages me cache page old
            by_cases window : cache.cursor < message.seq
            · exact (listed (mem_landing grounded fresh delivers before stored
                inside ⟨window, reached⟩)).elim
            · have heard := fresh.heard before stored
              rw [heardTo, inside, if_pos rfl] at heard
              exact heard (by omega)
          · intro row member same
            exact Int.le_of_eq (arrived member same).symm
          · intro row _ member same _
            exact Int.le_of_eq (arrived member same).symm
  case leftAt_le => exact fresh.leftAt_le
  case settled =>
    intro last channel row out found
    dsimp only at found
    rw [Grounded.settledChannels_outside delivers out] at found
    obtain ⟨_, seq, member, ahead, _⟩ :=
      grounded.settled_ahead delivers (isMember_eq_false.mp out) found
    have bound := wf.tombstoneSeq member
    have caught := delivers.caughtUp (by simpa using last)
    dsimp only at bound
    omega

end

end Fresh

end Brook
