import Brook.Unread.Cached
import Brook.History.Timeline

namespace Brook

/-! Whatever the cache shows, the server once had, and what is of the present number it
still has. -/

/-- What an earlier state says about the present memberships, messages and channels. -/
structure Retains (past present : Server) : Prop where
  since : Extends past present
  membership : ∀ {key row}, present.memberships.get? key = some row →
    row.seq ≤ past.counter → past.memberships.get? key = some row
  message : ∀ {id message row}, past.messages.get? id = some message →
    present.channels.get? message.channelId = some row →
    ∃ now, present.messages.get? id = some now
  channelIds : ∀ {id}, id ∈ past.channelIds → id ∈ present.channelIds

/-- The states of the server so far. -/
structure Recorded (server : Server) (past : List Server) : Prop where
  current : server ∈ past
  wf : ∀ {state}, state ∈ past → state.Wf
  retains : ∀ {state}, state ∈ past → Retains state server
  oneHome : OneHome past

variable {me : UserId} {server after : Server} {past : List Server}

theorem Retains.refl (wf : server.Wf) : Retains server server where
  since := Extends.refl wf
  membership stored _ := stored
  message stored _ := ⟨_, stored⟩
  channelIds member := member

theorem Retains.serve {state : Server} (wf : server.Wf) (earlier : state.Wf)
    (retains : Retains state server) {request : Request}
    (handled : server.handle request = some after) (committed : Server.Committed server after) :
    Retains state after where
  since := retains.since.serve committed
  membership := by
    intro key row now known
    have numbered := committed.counter
    have counted := retains.since.counter
    have change := committed.memberships key
    rw [now] at change
    cases before : server.memberships.get? key with
    | none =>
        rw [before] at change
        cases change with
        | joined seq _ => omega
    | some old =>
        rw [before] at change
        cases change with
        | same => exact retains.membership before known
        | stamped seq _ => omega
  message := by
    intro id message row stored here
    cases before : server.channels.get? message.channelId with
    | none =>
        -- Its id was drawn, so the channel cannot have come back.
        obtain ⟨channel, found⟩ := earlier.messageChannel stored
        exact (Server.channel_fresh wf handled before here
          (retains.channelIds (earlier.channelIds found))).elim
    | some channel =>
        obtain ⟨now, found⟩ := retains.message stored before
        have same := retains.since.channel stored found
        exact Server.message_stays wf handled found (same ▸ here)
  channelIds member := committed.channelIds (retains.channelIds member)

theorem Recorded.start (wf : server.Wf) : Recorded server [server] where
  current := List.mem_singleton_self server
  wf member := List.mem_singleton.mp member ▸ wf
  retains member := by
    obtain rfl := List.mem_singleton.mp member
    exact Retains.refl wf
  oneHome := by
    intro first second id message other one two stored alsoStored
    rw [List.mem_singleton] at one two
    subst one two
    exact congrArg Message.channelId (Option.some.inj (stored.symm.trans alsoStored))

theorem Recorded.serve (recorded : Recorded server past) {request : Request}
    (handled : server.handle request = some after) : Recorded after (after :: past) := by
  have wf := recorded.wf recorded.current
  have afterWf := Server.handle_wf wf handled
  have retains : ∀ {state}, state ∈ past → Retains state after := by
    intro state member
    rcases Server.handle_cases wf handled with rfl | committed
    · exact recorded.retains member
    · exact (recorded.retains member).serve wf (recorded.wf member) handled committed
  refine ⟨List.mem_cons_self, ?_, ?_, ?_⟩
  · intro state member
    rcases List.mem_cons.mp member with rfl | earlier
    · exact afterWf
    · exact recorded.wf earlier
  · intro state member
    rcases List.mem_cons.mp member with rfl | earlier
    · exact Retains.refl afterWf
    · exact retains earlier
  · intro first second id message other one two stored alsoStored
    rcases List.mem_cons.mp one with rfl | earlier
    · rcases List.mem_cons.mp two with rfl | alsoEarlier
      · exact congrArg Message.channelId (Option.some.inj (stored.symm.trans alsoStored))
      · exact (retains alsoEarlier).since.channel alsoStored stored
    · rcases List.mem_cons.mp two with rfl | alsoEarlier
      · exact ((retains earlier).since.channel stored alsoStored).symm
      · exact recorded.oneHome earlier alsoEarlier stored alsoStored

/-! Where the rows that reach the cache come from. -/

/-- The row of a message as one of the states sends it. -/
def SentRow (past : List Server) (row : MessageRow) : Prop :=
  ∃ state ∈ past, ∃ message, state.messages.get? row.id = some message ∧
    row = state.messageOut row.id message

theorem sentRow_of_stored {state : Server} (member : state ∈ past) {id : MessageId}
    {message : Message} (stored : state.messages.get? id = some message) :
    SentRow past (state.messageOut id message) :=
  ⟨state, member, message, stored, rfl⟩

theorem from_pageUpTo {state : Server} (member : state ∈ past) (cursor upper : Int)
    (more : Bool) : (Cache.batchOf (state.pageUpTo me cursor upper more)).From me past where
  messages row listed := by
    obtain ⟨id, message, stored, rfl, _⟩ := Server.mem_pageMessages.mp listed
    exact ⟨state, member, message, stored, rfl⟩
  tombstones tombstone listed := nomatch listed
  memberships row listed mine := by
    have inPage : row ∈ (state.pageUpTo me cursor upper more).memberships := listed
    obtain ⟨key, membership, stored, rfl, _⟩ := Server.mem_pageMemberships.mp inPage
    obtain rfl : key.2 = me := mine
    exact ⟨state, member, membership, stored, rfl⟩
  left left listed := by
    have inPage : (left.1, left.2.1, left.2.2) ∈
        (state.pageUpTo me cursor upper more).leftMembers := listed
    exact (Server.mem_leftMembers.mp inPage).2.2.1

theorem from_page {state : Server} (member : state ∈ past) {cursor : Int} {limit : Nat}
    {page : Page} (answered : state.sync me cursor limit = .page page) :
    (Cache.batchOf page).From me past := by
  unfold Server.sync at answered
  split at answered
  · cases answered
  · split at answered
    · cases answered
      refine ⟨by simp [Cache.batchOf, Server.stateOnly], by simp [Cache.batchOf], ?_,
        by simp [Cache.batchOf, Server.stateOnly]⟩
      intro row listed mine
      obtain ⟨⟨key, membership⟩, stored, rfl⟩ := List.mem_map.mp listed
      obtain rfl : key.2 = me := mine
      exact ⟨state, member, membership, Table.mem_rows.mp (List.mem_filter.mp stored).1, rfl⟩
    · cases answered
      exact from_pageUpTo member cursor _ _

theorem from_event {state : Server} (member : state ∈ past) {event : LiveEvent}
    {batch : Batch} (sent : state.eventBatch event = some batch) : batch.From me past := by
  cases event with
  | message id =>
      obtain ⟨message, stored, rfl⟩ := Option.map_eq_some_iff.mp sent
      refine ⟨?_, by simp, by simp, by simp⟩
      intro row listed
      rw [List.mem_singleton.mp listed]
      exact sentRow_of_stored member stored
  | channelUpdate channel =>
      obtain ⟨row, stored, rfl⟩ := Option.map_eq_some_iff.mp sent
      exact ⟨by simp, by simp, by simp, by simp⟩
  | messageDelete id =>
      obtain ⟨message, stored, rfl⟩ := Option.map_eq_some_iff.mp sent
      obtain ⟨found, gone⟩ := Option.filter_eq_some_iff.mp stored
      refine ⟨by simp, ?_, by simp, by simp⟩
      intro tombstone listed
      rw [List.mem_singleton.mp listed]
      exact ⟨state, member, message, found, rfl, rfl, gone⟩
  | channelDelete channel seq =>
      simp only [Server.eventBatch] at sent
      split at sent
      · cases sent
      · obtain ⟨tombstone, _, rfl⟩ := Option.map_eq_some_iff.mp sent
        exact ⟨by simp, by simp, by simp, by simp⟩

theorem sent_of_history {state : Server} (member : state ∈ past) {channel : ChannelId}
    {before : Option MessageId} {limit : Nat} {rows : List MessageRow}
    (answered : state.history me channel before limit = .ok rows) :
    ∀ row ∈ rows, SentRow past row := by
  unfold Server.history at answered
  split at answered
  · cases answered
    intro row listed
    obtain ⟨⟨id, message⟩, newest, rfl⟩ := List.mem_map.mp listed
    have stored := (List.mem_filter.mp (Table.mem_of_mem_newest (List.mem_reverse.mp newest))).1
    exact sentRow_of_stored member (Table.mem_rows.mp stored)
  · cases answered

/-! The state of the system. -/

structure HistorySystem.Tracked (me : UserId) (system : HistorySystem) : Prop where
  recorded : Recorded system.server system.past
  ownRead : system.server.OwnRead
  shown : system.cache.AllShown me system.past
  answered : ∀ {answer}, system.answered = some answer → ∃ state ∈ system.past,
    ∃ cursor limit, answer = state.sync me cursor limit
  loads : ∀ load ∈ system.loads, ∀ {counter rows}, load.answer = some (counter, rows) →
    ∀ row ∈ rows, SentRow system.past row

/-! Later states keep what the earlier ones show. -/

theorem SentRow.later {row : MessageRow} (sent : SentRow past row) (server : Server) :
    SentRow (server :: past) row := by
  obtain ⟨state, member, message⟩ := sent
  exact ⟨state, List.mem_cons_of_mem server member, message⟩

namespace Cache.AllShown

variable {cache : Cache}

theorem later (shown : cache.AllShown me past) (server : Server) :
    cache.AllShown me (server :: past) where
  messages := by
    intro id kept found
    obtain ⟨state, member, message⟩ := shown.messages id kept found
    exact ⟨state, List.mem_cons_of_mem server member, message⟩
  own found := by
    obtain ⟨present, state, member, row⟩ := shown.own found
    exact ⟨present, state, List.mem_cons_of_mem server member, row⟩

theorem same_rows (shown : cache.AllShown me past) {after : Cache}
    (messages : after.messages = cache.messages)
    (memberships : after.memberships = cache.memberships) : after.AllShown me past :=
  ⟨messages ▸ shown.messages, memberships ▸ shown.own⟩

theorem settleTops (shown : cache.AllShown me past) (cursor : Int) :
    (cache.settleTops cursor).AllShown me past :=
  shown.same_rows rfl rfl

theorem recordHead (shown : cache.AllShown me past) (channel : ChannelId)
    (ids : List MessageId) (limit : Nat) :
    (cache.recordHead channel ids limit).AllShown me past := by
  unfold Cache.recordHead
  dsimp only
  repeat' split
  all_goals exact shown.same_rows rfl rfl

theorem recordOlder (shown : cache.AllShown me past) (channel : ChannelId)
    (before : MessageId) (ids : List MessageId) (limit : Nat) :
    (cache.recordOlder channel before ids limit).AllShown me past := by
  unfold Cache.recordOlder
  repeat' split
  all_goals exact shown.same_rows rfl rfl

theorem commitAnswer (oneHome : OneHome past) (shown : cache.AllShown me past)
    {state : Server} (member : state ∈ past) {cursor : Int} {limit : Nat}
    {answer : SyncAnswer} (answered : answer = state.sync me cursor limit) :
    (cache.commitAnswer me answer).AllShown me past := by
  cases answer with
  | reset => exact ⟨fun _ _ found => (nomatch found), fun found => (nomatch found)⟩
  | page page =>
      have applied := shown.apply oneHome (from_page member answered.symm)
      have stored : Cache.AllShown me past
          { Cache.apply me cache (batchOf page) with cursor := page.next } :=
        applied.same_rows rfl rfl
      unfold Cache.commitAnswer Cache.commitPage
      dsimp only
      split
      · exact stored
      · exact stored.settleTops page.next

theorem landLoad (oneHome : OneHome past) (shown : cache.AllShown me past) {load : Load}
    {rows : List MessageRow} (sent : ∀ row ∈ rows, SentRow past row) :
    (cache.landLoad me load rows).AllShown me past := by
  have history : Batch.From me past { messages := rows, history := true
                                      historyFloors := [(load.channel, load.floor)] } :=
    ⟨sent, by simp, by simp, by simp⟩
  have applied := shown.apply oneHome history
  unfold Cache.landLoad
  split
  · exact shown
  · dsimp only
    split
    · split
      · exact applied.recordHead _ _ _
      · exact applied.recordOlder _ _ _ _
    · exact applied

end Cache.AllShown

namespace HistorySystem

variable {system next : HistorySystem} {action : HistoryAction}

theorem tracked_start (me : UserId) : (start Server.init).Tracked me where
  recorded := Recorded.start Server.wf_init
  ownRead stored := nomatch stored
  shown := ⟨fun _ _ found => (nomatch found), fun found => (nomatch found)⟩
  answered found := nomatch found
  loads _ member := nomatch member

theorem Tracked.step (tracked : system.Tracked me)
    (stepped : system.step me action = some next) : next.Tracked me := by
  have wf := tracked.recorded.wf tracked.recorded.current
  cases action with
  | serve request =>
      obtain ⟨after, handled, rfl⟩ := Option.map_eq_some_iff.mp stepped
      refine ⟨tracked.recorded.serve handled, Server.OwnRead.handle wf tracked.ownRead handled,
        tracked.shown.later after, ?_, ?_⟩
      · intro answer found
        obtain ⟨state, member, asked⟩ := tracked.answered found
        exact ⟨state, List.mem_cons_of_mem after member, asked⟩
      · intro load listed counter rows answered row member
        exact (tracked.loads load listed answered row member).later after
  | ask limit =>
      simp only [HistorySystem.step] at stepped
      split at stepped
      · cases stepped
      · cases stepped
        refine ⟨tracked.recorded, tracked.ownRead, tracked.shown, ?_, tracked.loads⟩
        rintro answer ⟨⟩
        exact ⟨system.server, tracked.recorded.current, _, _, rfl⟩
  | commit =>
      simp only [HistorySystem.step] at stepped
      split at stepped
      · cases stepped
      · rename_i answer out
        cases stepped
        obtain ⟨state, member, cursor, limit, asked⟩ := tracked.answered out
        exact ⟨tracked.recorded, tracked.ownRead,
          tracked.shown.commitAnswer tracked.recorded.oneHome member asked,
          fun found => (nomatch found), tracked.loads⟩
  | live index event =>
      obtain ⟨batch, sent, rfl⟩ := Option.map_eq_some_iff.mp stepped
      obtain ⟨state, there, given⟩ := Option.bind_eq_some_iff.mp sent
      have member := List.mem_of_getElem? there
      exact ⟨tracked.recorded, tracked.ownRead,
        tracked.shown.apply tracked.recorded.oneHome (from_event member given),
        tracked.answered, tracked.loads⟩
  | load channel before limit =>
      cases stepped
      refine ⟨tracked.recorded, tracked.ownRead, tracked.shown, tracked.answered, ?_⟩
      intro load listed counter rows answered
      rcases List.mem_append.mp listed with old | new
      · exact tracked.loads load old answered
      · rw [List.mem_singleton.mp new] at answered
        cases answered
  | answer index =>
      simp only [HistorySystem.step] at stepped
      split at stepped
      · cases stepped
      · rename_i load there
        split at stepped
        · rename_i rows _ given
          cases stepped
          refine ⟨tracked.recorded, tracked.ownRead, tracked.shown, tracked.answered, ?_⟩
          intro other listed counter others answered
          rcases List.mem_or_eq_of_mem_set listed with old | rfl
          · exact tracked.loads other old answered
          · cases answered
            exact sent_of_history tracked.recorded.current given
        · cases stepped
  | land index =>
      simp only [HistorySystem.step] at stepped
      split at stepped
      · cases stepped
      · rename_i load there
        split at stepped
        · cases stepped
        · rename_i counter rows answered
          cases stepped
          have listed := List.mem_of_getElem? there
          refine ⟨tracked.recorded, tracked.ownRead,
            tracked.shown.landLoad tracked.recorded.oneHome
              (tracked.loads load listed answered), tracked.answered, ?_⟩
          intro other kept
          exact tracked.loads other (List.mem_of_mem_eraseIdx kept)

theorem tracked_run {actions : List HistoryAction}
    (reached : Transition.run (step me) (start Server.init) actions = some system) :
    system.Tracked me :=
  Transition.run_invariant_of_step (fun tracked stepped => tracked.step stepped)
    (tracked_start me) reached

end HistorySystem

end Brook
