import Brook.Sync.Freshness

namespace Brook

namespace SyncSystem

variable {me : UserId} {system next : SyncSystem} {action : SyncAction}

/-- What one step does to the cache that the client will have once the answer
that is out has been committed. -/
theorem step_cases (wf : system.server.Wf)
    (grounded : Grounded me system.server (system.landed me))
    (stepped : system.step me action = some next) :
    (∃ request after, action = .serve request ∧
      system.server.handle request = some after ∧
      next = system.serve me after) ∨
    (∃ limit page, action = .ask limit ∧
      Delivers system.server me (system.landed me).cursor page ∧
      next.server = system.server ∧ next.leftAt = system.leftAt ∧
      next.landed me = (system.landed me).commitPage me page ∧
      next.landedCaughtUp = !page.more) ∨
    (action = .commit ∧ next.server = system.server ∧
      next.leftAt = system.leftAt ∧
      next.landed me = system.landed me ∧
      next.landedCaughtUp = system.landedCaughtUp) := by
  cases action with
  | serve request =>
      simp only [step, Option.map_eq_some_iff] at stepped
      obtain ⟨after, handled, rfl⟩ := stepped
      exact Or.inl ⟨request, after, rfl, handled, rfl⟩
  | ask limit =>
      simp only [step] at stepped
      split at stepped
      · cases stepped
      · rename_i idle
        cases stepped
        have waiting : system.answered = none := by
          simp only [Bool.or_eq_true, not_or, Bool.not_eq_true,
            Option.isSome_eq_false_iff, Option.isNone_iff_eq_none] at idle
          exact idle.1.1
        have same : system.landed me = system.cache := by
          simp [landed, waiting]
        rw [same] at grounded
        obtain ⟨page, answered⟩ := Server.sync_page wf
          grounded.cursor_nonneg grounded.cursor_le limit
        refine Or.inr (Or.inl ⟨limit, page, rfl, ?_, rfl, rfl, ?_, ?_⟩)
        · rw [same]
          exact Server.sync_delivers wf grounded.cursor_nonneg
            grounded.cursor_le answered
        · rw [same]
          simp [landed, answered, Cache.commitAnswer]
        · simp [landedCaughtUp, answered]
  | commit =>
      simp only [step] at stepped
      split at stepped
      · cases stepped
      · rename_i answer out
        cases stepped
        refine Or.inr (Or.inr ⟨rfl, rfl, rfl, ?_, ?_⟩)
        · simp [landed, out]
        · simp [landedCaughtUp]

/-- The invariant of a client that syncs. -/
structure Synced (me : UserId) (system : SyncSystem) : Prop where
  wf : system.server.Wf
  grounded : Grounded me system.server (system.landed me)
  fresh : Fresh me system.server (system.landed me) system.leftAt
    system.landedCaughtUp

theorem synced_init (me : UserId) : Synced me init where
  wf := Server.wf_init
  grounded := Grounded.empty me Server.wf_init 0
  fresh := Fresh.empty me 0 
    (fun _ => (by decide : (0 : Int) ≤ 1)) false

/-- A request may bring the caller back to a channel whose removal the cache
has not heard of only when no message that the cache holds of it was changed
while the caller was out. -/
def QuietRejoin (me : UserId) (system : SyncSystem) : SyncAction → Prop
  | .serve request => ∀ channel,
      system.server.isMember channel me = false →
      request.adds system.server channel me = true →
      RemovalAhead me system.server (system.landed me).cursor channel →
      Unchanged system.server (system.landed me) system.leftAt channel
  | _ => True

theorem quiet_of_handle (wf : system.server.Wf) {request : Request}
    {after : Server} (quiet : QuietRejoin me system (.serve request))
    (handled : system.server.handle request = some after)
    {channel : ChannelId} (out : system.server.isMember channel me = false)
    (inside : after.isMember channel me = true)
    (ahead : RemovalAhead me system.server (system.landed me).cursor
      channel) :
    Unchanged system.server (system.landed me) system.leftAt channel := by
  obtain ⟨row, found⟩ := Server.isMember_iff.mp inside
  have added := Server.handle_adds wf handled (isMember_eq_false.mp out) found
  exact quiet channel out added ahead

theorem Synced.step (synced : Synced me system)
    (quiet : QuietRejoin me system action)
    (stepped : system.step me action = some next) : Synced me next := by
  obtain ⟨wf, grounded, fresh⟩ := synced
  rcases step_cases wf grounded stepped with
    ⟨request, after, rfl, handled, rfl⟩ |
    ⟨_, page, rfl, delivers, server, leftAt, landed, caughtUp⟩ |
    ⟨rfl, server, leftAt, landed, caughtUp⟩
  · have unasked : (system.serve me after).landed me = system.landed me := rfl
    rcases Server.handle_cases wf handled with same | committed
    · subst same
      have stayed : leftAfter me system.server system.server
          (system.landed me).cursor system.leftAt = system.leftAt := by
        funext channel
        simp [leftAfter]
      refine ⟨wf, grounded, ?_⟩
      simp only [serve, stayed]
      exact fresh
    · refine ⟨committed.wf wf, ?_, ?_⟩
      · rw [unasked]
        exact grounded.serve committed
      · rw [unasked]
        exact fresh.serve wf grounded committed fun _ =>
          quiet_of_handle wf quiet handled
  · refine ⟨server ▸ wf, ?_, ?_⟩
    · rw [server, landed]
      exact grounded.land wf delivers
    · rw [server, landed, leftAt, caughtUp]
      exact fresh.land wf grounded delivers
  · refine ⟨server ▸ wf, ?_, ?_⟩
    · rw [server, landed]
      exact grounded
    · rw [server, landed, leftAt, caughtUp]
      exact fresh

/-- Of every channel that the cache shows, the cached messages are as new as
the server's up to the cursor, and none that was deleted shows its content. -/
def NothingSkipped (me : UserId) (server : Server) (cache : Cache) : Prop :=
  ∀ channel row own id cached message,
    cache.channels.get? channel = some row →
    cache.memberships.get? (channel, me) = some own → own.left = false →
    cache.messages.get? id = some cached → cached.channelId = channel →
    server.messages.get? id = some message → message.seq ≤ cache.cursor →
    message.seq ≤ cached.seq ∧
      (message.deleted = true →
        cached.json.deletedAt = true ∧ cached.json.body = [])

theorem Synced.nothingSkipped (synced : Synced me system)
    (waiting : system.answered = none) (last : system.caughtUp = true) :
    NothingSkipped me system.server system.cache := by
  obtain ⟨_, _, fresh⟩ := synced
  have same : system.landed me = system.cache := by simp [landed, waiting]
  have final : system.landedCaughtUp = true := by
    simp [landedCaughtUp, waiting, last]
  rw [same] at fresh
  intro channel row own id cached message shown _ _ found here stored known
  obtain ⟨moved, below, content⟩ := fresh.mirrors found stored
  have heard : message.seq ≤ cached.seq := by
    refine fresh.heard found stored ?_
    cases inside : system.server.isMember message.channelId me with
    | true => simpa [heardTo, inside] using known
    | false =>
        have reached := fresh.settled final inside
          (by rw [← moved, here]; exact shown)
        simpa [heardTo, inside, reached] using known
  exact ⟨heard, content (by omega)⟩

/-- While every rejoin is quiet, sync never skips a change. -/
theorem nothing_skipped_of_quiet {actions : List SyncAction}
    {finish : SyncSystem}
    (quiet : Transition.Along (SyncSystem.step me) (QuietRejoin me) init
      actions)
    (reached : Transition.run (SyncSystem.step me) init actions =
      some finish)
    (waiting : finish.answered = none) (last : finish.caughtUp = true) :
    NothingSkipped me finish.server finish.cache := by
  have synced : Synced me finish := Transition.run_invariant
    (fun synced => synced.step) (synced_init me) quiet reached
  exact synced.nothingSkipped waiting last

theorem quiet_of_no_tombstones
    (untouched : system.server.tombstones.isEmpty = true) :
    QuietRejoin me system action := by
  cases action with
  | serve request =>
      intro channel _ _ ⟨tombstone, member, _⟩
      rw [List.isEmpty_iff.mp untouched] at member
      cases member
  | ask limit => exact trivial
  | commit => exact trivial

def bob : Text := "bob".toList

def eve : Text := "eve".toList

/-- User 1 shares channels 10 and 11 with user 0, and message 100 of channel
10 is in the cache. -/
def shared : List SyncAction :=
  [.serve (.register none 0 "ann".toList []),
    .serve (.register (some 0) 1 bob []),
    .serve (.register (some 0) 2 eve []),
    .serve (.createChannel 0 10 bob none false),
    .serve (.createChannel 0 11 eve none false),
    .serve (.addMember 0 10 bob),
    .serve (.addMember 0 11 bob),
    .ask maxPage, .commit,
    .serve (.sendMessage 0 10 100 7 "secret".toList none none []),
    .ask maxPage, .commit]

theorem nothing_skipped_of_deletion :
    ∃ finish, Transition.run (SyncSystem.step 1) init
        (shared ++ [.serve (.deleteMessage 0 10 100), .ask 1, .commit]) =
          some finish ∧
      NothingSkipped 1 finish.server finish.cache := by
  have untouched : Transition.Along (SyncSystem.step 1)
      (fun system _ => system.server.tombstones.isEmpty = true) init
      (shared ++ [.serve (.deleteMessage 0 10 100), .ask 1, .commit]) := by
    decide +kernel
  have caughtUp : (Transition.run (SyncSystem.step 1) init
      (shared ++ [.serve (.deleteMessage 0 10 100), .ask 1, .commit])).any
        (fun finish => finish.answered.isNone && finish.caughtUp) = true := by
    decide +kernel
  rw [Option.any_eq_true] at caughtUp
  obtain ⟨finish, reached, settled⟩ := caughtUp
  simp only [Bool.and_eq_true, Option.isNone_iff_eq_none] at settled
  exact ⟨finish, reached, nothing_skipped_of_quiet
    (untouched.imp quiet_of_no_tombstones) reached settled.1 settled.2⟩

/-! The run that skips.  Message 100 is deleted, and then so many members come
and go in channel 11 that the removal of user 1 from channel 10 does not fit on
the next page.  Before the page after it, user 1 is back. -/

def visit : List SyncAction :=
  [.serve (.addMember 0 11 eve), .serve (.removeMember 0 11 2)]

def visits (count : Nat) : List SyncAction :=
  (List.replicate count visit).flatten

def rejoined : List SyncAction :=
  [.serve (.removeMember 0 10 1), .ask maxPage, .commit,
    .serve (.addMember 0 10 bob), .ask maxPage, .commit]

def skippingRun : List SyncAction :=
  shared ++ .serve (.deleteMessage 0 10 100) :: visit ++ visits maxPage ++
    rejoined

/-- The server once the last change was a member's leave of channel 11. -/
def visited (seq : Int) (tombstones : List SyncTombstone) : Server where
  counter := seq
  floor := 0
  users := ⟨[(2, ⟨⟨eve, [], "active".toList, []⟩, false, 4⟩),
    (1, ⟨⟨bob, [], "active".toList, []⟩, false, 3⟩),
    (0, ⟨⟨"ann".toList, [], "active".toList, []⟩, true, 2⟩)], by decide⟩
  channels :=
    ⟨[(11, ⟨.channel, some eve, none, 0, false, false, seq⟩),
      (10, ⟨.channel, some bob, none, 0, false, false, 7⟩)], by simp⟩
  memberships :=
    ⟨[((10, 0), ⟨.owner, 9, 5, some 100⟩), ((11, 1), ⟨.member, 8, 8, none⟩),
      ((10, 1), ⟨.member, 7, 7, none⟩), ((11, 0), ⟨.owner, 6, 6, none⟩)],
      by decide⟩
  offers := ∅
  messages :=
    ⟨[(100, ⟨10, 0, "secret".toList, none, none, 7, [], true, 10, false, []⟩)],
      by decide⟩
  tombstones := tombstones
  channelIds := [11, 10]
  messageIds := [100, 100]

theorem handle_visitor (seq : Int) (tombstones : List SyncTombstone) :
    (visited seq tombstones).handle (.addMember 0 11 eve) =
      some ((visited seq tombstones).commit
        { joined := [((11, 2), Server.newMembership .member none)] }) := rfl

theorem handle_departure (seq : Int) (tombstones : List SyncTombstone) :
    ((visited seq tombstones).commit
        { joined := [((11, 2), Server.newMembership .member none)] }).handle
        (.removeMember 0 11 2) =
      some (visited (seq + 2) (tombstones ++ [⟨11, 2, seq + 2⟩])) := by
  have numbered : seq + 1 + 1 = seq + 2 := by omega
  have handled :
      ((visited seq tombstones).commit
        { joined := [((11, 2), Server.newMembership .member none)] }).handle
        (.removeMember 0 11 2) =
      some (visited (seq + 1 + 1) (tombstones ++ [] ++ [] ++
        [⟨11, 2, seq + 1 + 1⟩] ++ [])) := rfl
  rw [handled, numbered]
  simp only [List.append_nil]

/-- The tombstones of the first visits. -/
def departures (count : Nat) : List SyncTombstone :=
  (List.range (count + 1)).map fun number : Nat =>
    ⟨11, 2, 12 + 2 * (number : Int)⟩

theorem departures_succ (count : Nat) :
    departures (count + 1) =
      departures count ++ [⟨11, 2, 12 + 2 * (count + 1 : Nat)⟩] := by
  simp only [departures, List.range_succ, List.map_append, List.map_cons,
    List.map_nil]

theorem run_visits (me : UserId) (count : Nat) {start : SyncSystem}
    (first : start.server = visited 12 (departures 0)) :
    ∃ leftAt, Transition.run (SyncSystem.step me) start (visits count) =
      some { start with
        server := visited (12 + 2 * count) (departures count)
        leftAt := leftAt } := by
  induction count with
  | zero =>
      refine ⟨start.leftAt, ?_⟩
      obtain ⟨server, cache, answered, caughtUp, leftAt⟩ := start
      cases first
      rfl
  | succ count ih =>
      obtain ⟨leftAt, reached⟩ := ih
      have later : visits (count + 1) = visits count ++ visit := by
        simp [visits, List.replicate_succ']
      have numbered :
          (12 + 2 * count : Int) + 2 = 12 + 2 * (count + 1 : Nat) := by
        omega
      rw [later, Transition.run_append, reached]
      simp only [Option.bind_some, visit, Transition.run, SyncSystem.step,
        handle_visitor, handle_departure, Option.map_some, serve, numbered,
        ← departures_succ]
      exact ⟨_, rfl⟩

/-- Message 100 was deleted at a number that the cache has passed, and the
cache still shows it. -/
def shows (text : Text) (system : SyncSystem) : Bool :=
  system.answered.isNone && system.caughtUp &&
    system.cache.channels.contains 10 &&
    (system.cache.memberships.get? (10, 1)).any (! ·.left) &&
    ((system.server.messages.get? 100).any fun message =>
      message.deleted && message.seq ≤ system.cache.cursor) &&
    (system.cache.messages.get? 100).any fun cached =>
      cached.channelId = 10 && cached.json.body = text

/-- No step reads where the caller left. -/
theorem step_leftAt (me : UserId) (system : SyncSystem)
    (action : SyncAction) (leftAt : ChannelId → Int) :
    ∃ after, ({ system with leftAt := leftAt } : SyncSystem).step me action =
      (system.step me action).map fun next =>
        { next with leftAt := after } := by
  cases action with
  | serve request =>
      cases handled : system.server.handle request with
      | none => exact ⟨leftAt, by simp [step, handled]⟩
      | some after =>
          refine ⟨leftAfter me system.server after (system.landed me).cursor
            leftAt, ?_⟩
          simp [step, handled, serve, landed]
  | ask limit =>
      refine ⟨leftAt, ?_⟩
      simp only [step]
      split <;> rfl
  | commit =>
      refine ⟨leftAt, ?_⟩
      cases out : system.answered <;> simp [step, out, landedCaughtUp]

theorem run_leftAt (me : UserId) (system : SyncSystem)
    (actions : List SyncAction) (leftAt : ChannelId → Int) :
    ∃ after, Transition.run (SyncSystem.step me)
        { system with leftAt := leftAt } actions =
      (Transition.run (SyncSystem.step me) system actions).map fun finish =>
        { finish with leftAt := after } := by
  induction actions generalizing system leftAt with
  | nil => exact ⟨leftAt, rfl⟩
  | cons action rest ih =>
      obtain ⟨after, stepped⟩ := step_leftAt me system action leftAt
      cases h : system.step me action with
      | none =>
          rw [h] at stepped
          exact ⟨leftAt, by simp [Transition.run, h, stepped]⟩
      | some next =>
          rw [h] at stepped
          obtain ⟨last, later⟩ := ih next after
          exact ⟨last, by simp [Transition.run, h, stepped, later]⟩

theorem not_nothingSkipped_of_shows {text : Text} (content : text ≠ [])
    (shown : shows text system = true) :
    ¬ NothingSkipped 1 system.server system.cache := by
  simp only [shows, Bool.and_eq_true, Option.any_eq_true,
    Table.contains_iff, Bool.not_eq_true', decide_eq_true_eq] at shown
  obtain ⟨⟨⟨⟨_, row, channel⟩, own, member, inside⟩, message, stored, deleted,
    known⟩, cached, found, here, body⟩ := shown
  intro nothing
  obtain ⟨_, gone⟩ := nothing 10 row own 100 cached message channel member
    inside found here stored known
  exact content (body.symm.trans (gone deleted).2)

/-- The server when the visits begin, and the cache of user 1. -/
def waiting : Option SyncSystem :=
  Transition.run (SyncSystem.step 1) init
    (shared ++ .serve (.deleteMessage 0 10 100) :: visit)

/-- A deletion is skipped: the cache shows the text of a message that the
server deleted at a number below the cursor. -/
theorem deletion_skipped :
    ∃ finish, Transition.run (SyncSystem.step 1) init skippingRun =
        some finish ∧ finish.answered = none ∧ finish.caughtUp = true ∧
      ¬ NothingSkipped 1 finish.server finish.cache := by
  have opening : waiting.any (fun start =>
      start.server = visited 12 (departures 0)) = true := by
    decide +kernel
  have closing : waiting.all (fun start =>
      (Transition.run (SyncSystem.step 1)
        { start with server := visited (12 + 2 * maxPage) (departures maxPage) }
        rejoined).any (shows "secret".toList)) = true := by
    decide +kernel
  cases h : waiting with
  | none => simp [h] at opening
  | some start =>
      simp only [h, Option.any_some, Option.all_some, decide_eq_true_eq]
        at opening closing
      obtain ⟨left, visiting⟩ := run_visits 1 maxPage opening
      obtain ⟨after, last⟩ := run_leftAt 1
        { start with server := visited (12 + 2 * maxPage) (departures maxPage) }
        rejoined left
      rw [Option.any_eq_true] at closing
      obtain ⟨finish, reached, shown⟩ := closing
      refine ⟨{ finish with leftAt := after }, ?_, ?_⟩
      · have first : Transition.run (SyncSystem.step 1) init
            (shared ++ .serve (.deleteMessage 0 10 100) :: visit) =
              some start := h
        rw [skippingRun, Transition.run_append, Transition.run_append, first,
          Option.bind_some, visiting, Option.bind_some, last, reached]
        rfl
      · have settled := not_nothingSkipped_of_shows (by decide) shown
        simp only [shows, Bool.and_eq_true, Option.isNone_iff_eq_none] at shown
        exact ⟨shown.1.1.1.1.1, shown.1.1.1.1.2, settled⟩

end SyncSystem

end Brook
