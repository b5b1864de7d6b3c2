import Brook.History.Step

namespace Brook

/-- A cached page that needs no network has every undeleted message of its
span that the server numbered at or before the cursor. -/
def NoHoles (channel : ChannelId) (server : Server) (cache : Cache) : Prop :=
  ∀ before limit, (cache.cachedMessages channel before limit).needsNetwork =
      false →
    ∀ id message, server.Has channel id message → message.deleted = false →
      message.seq ≤ cache.cursor → before.all (id < ·) = true →
      ((cache.cachedMessages channel before limit).messages.length < limit ∨
        ∃ last, (cache.cachedMessages channel before limit).messages.getLast? =
          some last ∧ last.1 ≤ id) →
      ∃ row, (id, row) ∈
        (cache.cachedMessages channel before limit).messages

namespace Held

variable {channel : ChannelId} {server : Server} {cache : Cache}
variable {base asOf : Int}

/-- The page ends inside the covered range. -/
theorem covers_of_page {before : Option MessageId} {limit : Nat}
    (enough : (cache.cachedMessages channel before limit).needsNetwork =
      false) {id : MessageId}
    (reached :
      (cache.cachedMessages channel before limit).messages.length < limit ∨
        ∃ last, (cache.cachedMessages channel before limit).messages.getLast? =
          some last ∧ last.1 ≤ id) :
    cache.Covered channel id := by
  unfold Cache.cachedMessages at enough reached
  cases held : cache.coverage.get? channel with
  | none => simp [held] at enough
  | some range =>
      refine ⟨range, held, ?_⟩
      simp only [held, Bool.not_eq_false', Bool.and_eq_true] at enough
      rcases Bool.or_eq_true_iff.mp enough.2 with whole | bottom
      · exact Or.inl whole
      · simp only [Bool.and_eq_true, decide_eq_true_eq, Option.any_eq_true]
          at bottom
        obtain ⟨full, last, ends, oldest, stored, under⟩ := bottom
        rcases reached with short | ⟨final, same, below⟩
        · dsimp only at short
          omega
        · rw [ends] at same
          cases same
          exact Or.inr ⟨oldest, stored, le_trans under below⟩

theorem noHoles (held : Held channel server cache base asOf) :
    NoHoles channel server cache := by
  intro before limit enough id message has live known below reached
  obtain ⟨range, stored, covers⟩ := covers_of_page enough reached
  have passed : message.seq ≤ horizon cache.cursor asOf := by
    have nonneg := held.asOf_nonneg
    unfold horizon
    split <;> omega
  obtain ⟨row, found, here⟩ := MessageTable.home_eq_some.mp
    (held.covered stored covers has live passed)
  refine ⟨row, ?_⟩
  have keys : ((cache.messages.rows.filter fun entry =>
      entry.2.channelId = channel && before.all (entry.1 < ·)).map
      Prod.fst).Nodup :=
    (List.filter_sublist.map Prod.fst).nodup cache.messages.keysNodup
  have listed : (id, row) ∈ cache.messages.rows.filter fun entry =>
      entry.2.channelId = channel && before.all (entry.1 < ·) := by
    simp [List.mem_filter, Table.mem_rows.mpr found, here, below]
  apply Table.mem_newest_of_reached keys listed
  rcases reached with short | ⟨last, ends, under⟩
  · exact Or.inl short
  · exact Or.inr ⟨last, List.mem_of_getLast? ends, under⟩

end Held

namespace Cache

theorem landLoad_cursor {me : UserId} {channel : ChannelId}
    {server state : Server} {past : List Server}
    (timeline : Timeline me channel server past) (member : state ∈ past)
    {load : Load} {rows : List MessageRow}
    (answered : state.history me load.channel load.before load.limit =
      .ok rows) (cache : Cache) :
    (cache.landLoad me load rows).cursor = cache.cursor := by
  have grows := Held.grows_history timeline member answered cache
  rw [landLoad_eq]
  split
  · rfl
  · split
    · rw [recorded_eq]
      exact grows.cursor
    · exact grows.cursor

end Cache

namespace HistorySystem

variable {me : UserId} {channel : ChannelId} {system next : HistorySystem}
variable {action : HistoryAction}

/-- The caller stays a member of the channel. -/
def staysMember (me : UserId) (channel : ChannelId)
    (system : HistorySystem) : HistoryAction → Bool
  | .serve request =>
      (system.server.handle request).all (·.isMember channel me)
  | _ => true

/-- History and the page from 0 leave no gap between them. -/
def InTime (channel : ChannelId) (system : HistorySystem) :
    HistoryAction → Prop
  | .commit => ∀ page, system.answered = some (.page page) →
      page.Timely channel system.server system.cache (system.asOf channel)
  | .land index => ∀ load counter rows, system.loads[index]? = some load →
      load.answer = some (counter, rows) →
      load.Timely channel system.server system.cache system.base counter rows
  | _ => True

structure Opened (me : UserId) (channel : ChannelId)
    (system : HistorySystem) : Prop where
  timeline : Timeline me channel system.server system.past
  held : Held channel system.server system.cache system.base
    (system.asOf channel)
  answered : ∀ {answer}, system.answered = some answer →
    ∃ state ∈ system.past, ∃ page, answer = .page page ∧
      Delivers state me system.cache.cursor page
  limits : ∀ {load}, load ∈ system.loads → 0 < load.limit
  pages : ∀ {load counter rows}, load ∈ system.loads →
    load.answer = some (counter, rows) →
    ∃ state ∈ system.past, state.counter = counter ∧
      state.history me load.channel load.before load.limit = .ok rows

theorem opened_start {server : Server} (wf : server.Wf)
    (inside : server.isMember channel me = true) :
    Opened me channel (start server) where
  timeline := Timeline.start wf inside
  held := Held.empty wf
  answered h := by cases h
  limits h := by cases h
  pages h := by cases h

theorem Opened.serve (opened : Opened me channel system) {request : Request}
    {after : Server} (handled : system.server.handle request = some after)
    (inside : after.isMember channel me = true) :
    Opened me channel
      { system with server := after, past := after :: system.past } where
  timeline := opened.timeline.serve handled inside
  held := by
    rcases Server.handle_cases (opened.timeline.wf opened.timeline.current)
      handled with same | committed
    · subst same
      exact opened.held
    · exact opened.held.serve committed
  answered out := by
    obtain ⟨state, member, delivered⟩ := opened.answered out
    exact ⟨state, List.mem_cons_of_mem after member, delivered⟩
  limits := opened.limits
  pages member out := by
    obtain ⟨state, earlier, answered⟩ := opened.pages member out
    exact ⟨state, List.mem_cons_of_mem after earlier, answered⟩

theorem Opened.ask (opened : Opened me channel system) (limit : Nat) :
    Opened me channel { system with
      answered :=
        some (system.server.sync me system.cache.cursor limit) } where
  timeline := opened.timeline
  held := opened.held
  answered out := by
    cases out
    have wf := opened.timeline.wf opened.timeline.current
    have nonneg := opened.held.cursor_nonneg
    have known := opened.held.cursor_le
    obtain ⟨page, answered⟩ := Server.sync_page wf nonneg known limit
    exact ⟨system.server, opened.timeline.current, page, answered,
      Server.sync_delivers wf nonneg known answered⟩
  limits := opened.limits
  pages := opened.pages

theorem Opened.commit (opened : Opened me channel system)
    (inTime : InTime channel system .commit) {answer : SyncAnswer}
    (out : system.answered = some answer) :
    Opened me channel { system with
      cache := system.cache.commitAnswer me answer
      answered := none
      base := if system.cache.cursor = 0
        then (system.cache.commitAnswer me answer).cursor
        else system.base } := by
  obtain ⟨state, member, page, rfl, delivers⟩ := opened.answered out
  have next := opened.held.commit opened.timeline member delivers
    (inTime page out)
  have cursor : (system.cache.commitPage me page).cursor = page.next := by
    obtain ⟨_, _, committed, _⟩ := Cache.commitPage_eq me system.cache page
    rw [committed]
  refine ⟨opened.timeline, ?_, ?_, opened.limits, opened.pages⟩
  · simp only [Cache.commitAnswer, cursor]
    exact next
  · intro answer gone
    cases gone

theorem Opened.live (opened : Opened me channel system) {state : Server}
    (member : state ∈ system.past) {event : LiveEvent} {batch : Batch}
    (sent : state.eventBatch event = some batch) :
    Opened me channel
      { system with cache := system.cache.apply me batch } := by
  have grows := opened.timeline.grows_live member system.cache sent
  refine ⟨opened.timeline, opened.held.grow grows, ?_, opened.limits,
    opened.pages⟩
  intro answer out
  obtain ⟨state, earlier, page, same, delivers⟩ := opened.answered out
  refine ⟨state, earlier, page, same, ?_⟩
  dsimp only
  rw [grows.cursor]
  exact delivers

theorem Opened.load (opened : Opened me channel system) (other : ChannelId)
    (before : Option MessageId) (limit : Nat) :
    Opened me channel { system with
      loads := system.loads ++
        [system.cache.startLoad other before limit] } where
  timeline := opened.timeline
  held := opened.held
  answered := opened.answered
  limits member := by
    rcases List.mem_append.mp member with old | new
    · exact opened.limits old
    · rw [List.mem_singleton.mp new]
      exact Nat.le_max_left 1 (min limit historyMax)
  pages member out := by
    rcases List.mem_append.mp member with old | new
    · exact opened.pages old out
    · rw [List.mem_singleton.mp new] at out
      cases out

theorem Opened.answer (opened : Opened me channel system) {index : Nat}
    {load : Load} (found : system.loads[index]? = some load)
    {rows : List MessageRow}
    (answered : system.server.history me load.channel load.before
      load.limit = .ok rows) :
    Opened me channel { system with
      loads := system.loads.set index
        { load with answer := some (system.server.counter, rows) } } where
  timeline := opened.timeline
  held := opened.held
  answered := opened.answered
  limits member := by
    have listed := List.mem_of_getElem? found
    have positive := opened.limits listed
    rcases List.mem_or_eq_of_mem_set member with old | rfl
    · exact opened.limits old
    · exact positive
  pages member out := by
    rcases List.mem_or_eq_of_mem_set member with old | rfl
    · exact opened.pages old out
    · cases out
      exact ⟨system.server, opened.timeline.current, rfl, answered⟩

theorem Opened.land (opened : Opened me channel system) {index : Nat}
    (inTime : InTime channel system (.land index)) {load : Load}
    (found : system.loads[index]? = some load) {counter : Int}
    {rows : List MessageRow} (out : load.answer = some (counter, rows)) :
    Opened me channel (system.landed me index load counter rows) := by
  have listed := List.mem_of_getElem? found
  obtain ⟨state, member, rfl, answered⟩ := opened.pages listed out
  have cursor := Cache.landLoad_cursor opened.timeline member answered
    system.cache
  refine ⟨opened.timeline, ?_, ?_, ?_, ?_⟩
  · exact opened.held.land opened.timeline member (opened.limits listed)
      answered (inTime load state.counter rows found out)
  · intro answer asked
    obtain ⟨state, earlier, page, same, delivers⟩ := opened.answered asked
    refine ⟨state, earlier, page, same, ?_⟩
    simp only [landed, cursor]
    exact delivers
  · intro other inside
    exact opened.limits (List.mem_of_mem_eraseIdx inside)
  · intro other counter rows inside given
    exact opened.pages (List.mem_of_mem_eraseIdx inside) given

theorem Opened.step (opened : Opened me channel system)
    (stays : staysMember me channel system action = true)
    (inTime : InTime channel system action)
    (stepped : system.step me action = some next) :
    Opened me channel next := by
  cases action with
  | serve request =>
      simp only [HistorySystem.step, Option.map_eq_some_iff] at stepped
      obtain ⟨after, handled, rfl⟩ := stepped
      simp only [staysMember, handled, Option.all_some] at stays
      exact opened.serve handled stays
  | ask limit =>
      simp only [HistorySystem.step] at stepped
      split at stepped
      · cases stepped
      · cases stepped
        exact opened.ask limit
  | commit =>
      simp only [HistorySystem.step] at stepped
      split at stepped
      · cases stepped
      · rename_i answer out
        cases stepped
        exact opened.commit inTime out
  | live state event =>
      simp only [HistorySystem.step, Option.map_eq_some_iff,
        Option.bind_eq_some_iff] at stepped
      obtain ⟨batch, ⟨earlier, found, sent⟩, rfl⟩ := stepped
      exact opened.live (List.mem_of_getElem? found) sent
  | load other before limit =>
      cases stepped
      exact opened.load other before limit
  | answer index =>
      simp only [HistorySystem.step] at stepped
      split at stepped
      · cases stepped
      · rename_i load found
        split at stepped
        · rename_i rows waiting answered
          cases stepped
          exact opened.answer found answered
        · cases stepped
  | land index =>
      simp only [HistorySystem.step] at stepped
      split at stepped
      · cases stepped
      · rename_i load found
        split at stepped
        · cases stepped
        · rename_i counter rows out
          cases stepped
          exact opened.land inTime found out

/-- While the caller stays a member, and history is in time, no page that
needs no network has a hole. -/
theorem no_holes_of_inTime {requests : List Request} {server : Server}
    (served : Transition.run Server.handle Server.init requests =
      some server)
    (inside : server.isMember channel me = true)
    {actions : List HistoryAction} {finish : HistorySystem}
    (guarded : Transition.Along (HistorySystem.step me)
      (fun system action => staysMember me channel system action = true ∧
        InTime channel system action) (start server) actions)
    (reached : Transition.run (HistorySystem.step me) (start server)
      actions = some finish) :
    NoHoles channel finish.server finish.cache := by
  have wf : server.Wf := Transition.run_invariant_of_step
    (fun wf handled => Server.handle_wf wf handled) Server.wf_init served
  have opened : Opened me channel finish := Transition.run_invariant
    (fun opened guard => opened.step guard.1 guard.2)
    (opened_start wf inside) guarded reached
  exact opened.held.noHoles

/-- History that was answered after the page from 0 is in time. -/
def prompt (channel : ChannelId) (system : HistorySystem) :
    HistoryAction → Bool
  | .commit => system.cache.cursor ≠ 0 ||
      (system.cache.coverage.get? channel).isNone
  | .land index =>
      (system.loads[index]?.bind (·.answer)).all (system.base ≤ ·.1)
  | _ => true

theorem inTime_of_prompt (first : prompt channel system action = true) :
    InTime channel system action := by
  cases action with
  | commit =>
      simp only [prompt, Bool.or_eq_true, decide_eq_true_eq,
        Option.isNone_iff_eq_none] at first
      intro page _ zero id message covered
      obtain ⟨range, found, _⟩ := covered
      rcases first with nonzero | blank
      · exact (nonzero zero).elim
      · rw [blank] at found
        cases found
  | land index =>
      intro load counter rows found out _ _ _ _ id message _ _ _ late early
      simp only [prompt, found, Option.bind_some, out, Option.all_some,
        decide_eq_true_eq] at first
      omega
  | _ => exact trivial

/-- A channel of two users, with one message. -/
def opening : List Request :=
  [.register none 0 "ann".toList [],
    .register (some 0) 1 "bob".toList [],
    .createChannel 0 10 "tea".toList none false,
    .addMember 0 10 "bob".toList,
    .sendMessage 0 10 100 7 "one".toList none none []]

def second : Request := .sendMessage 0 10 101 8 "two".toList none none []

/-- The newest page is asked for once the cache has its cursor. -/
def promptRun : List HistoryAction :=
  [.ask 500, .commit, .load 10 none 50, .answer 0, .serve second, .ask 500,
    .commit, .land 0]

theorem no_holes_of_prompt_run :
    ∃ server finish, Transition.run Server.handle Server.init opening =
        some server ∧
      Transition.run (HistorySystem.step 1) (start server) promptRun =
        some finish ∧
      NoHoles 10 finish.server finish.cache := by
  have served : (Transition.run Server.handle Server.init opening).any
      (fun server => server.isMember 10 1) = true := by decide +kernel
  rw [Option.any_eq_true] at served
  obtain ⟨server, opened, inside⟩ := served
  have guarded : (Transition.run Server.handle Server.init opening).all
      (fun server => decide (Transition.Along (HistorySystem.step 1)
        (fun system action => staysMember 1 10 system action = true ∧
          prompt 10 system action = true) (start server) promptRun)) =
        true := by
    decide +kernel
  have done : (Transition.run Server.handle Server.init opening).all
      (fun server => (Transition.run (HistorySystem.step 1) (start server)
        promptRun).isSome) = true := by
    decide +kernel
  rw [opened] at guarded done
  obtain ⟨finish, reached⟩ := Option.isSome_iff_exists.mp done
  have along := of_decide_eq_true guarded
  exact ⟨server, finish, opened, reached, no_holes_of_inTime opened inside
    (along.imp fun both => ⟨both.1, inTime_of_prompt both.2⟩) reached⟩

/-- The newest page is asked for before the cache has its cursor, and lands
after it: a message sent in between is in neither. -/
def lateRun : List HistoryAction :=
  [.load 10 none 50, .answer 0, .serve second, .ask 500, .commit, .land 0]

theorem hole_of_late_run :
    ∃ server finish, Transition.run Server.handle Server.init opening =
        some server ∧ server.isMember 10 1 = true ∧
      Transition.Along (HistorySystem.step 1)
        (fun system action => staysMember 1 10 system action = true)
        (start server) lateRun ∧
      Transition.run (HistorySystem.step 1) (start server) lateRun =
        some finish ∧
      ¬ NoHoles 10 finish.server finish.cache := by
  have served : (Transition.run Server.handle Server.init opening).any
      (fun server => server.isMember 10 1 &&
        decide (Transition.Along (HistorySystem.step 1)
          (fun system action => staysMember 1 10 system action = true)
          (start server) lateRun)) = true := by
    decide +kernel
  rw [Option.any_eq_true] at served
  obtain ⟨server, opened, here⟩ := served
  rw [Bool.and_eq_true] at here
  obtain ⟨inside, stays⟩ := here
  have missed : (Transition.run Server.handle Server.init opening).all
      (fun server => (Transition.run (HistorySystem.step 1) (start server)
        lateRun).any fun finish =>
          !(finish.cache.cachedMessages 10 none 50).needsNetwork &&
          (finish.cache.cachedMessages 10 none 50).messages.map Prod.fst =
            [100] &&
          (finish.server.messages.get? 101).any fun message =>
            message.channelId = 10 && !message.deleted &&
              message.seq ≤ finish.cache.cursor) = true := by
    decide +kernel
  rw [opened, Option.all_some, Option.any_eq_true] at missed
  obtain ⟨finish, reached, held⟩ := missed
  simp only [Bool.and_eq_true, Bool.not_eq_true', decide_eq_true_eq,
    Option.any_eq_true] at held
  obtain ⟨⟨enough, page⟩, message, stored, ⟨channel, live⟩, known⟩ := held
  refine ⟨server, finish, opened, inside, of_decide_eq_true stays, reached, ?_⟩
  intro whole
  have short : (finish.cache.cachedMessages 10 none 50).messages.length <
      50 := by
    have length := congrArg List.length page
    simp only [List.length_map, List.length_cons, List.length_nil] at length
    omega
  obtain ⟨row, member⟩ := whole none 50 enough 101 message
    ⟨stored, channel⟩ live known rfl (Or.inl short)
  have listed := List.mem_map_of_mem (f := Prod.fst) member
  rw [page] at listed
  simp at listed

end HistorySystem

end Brook
