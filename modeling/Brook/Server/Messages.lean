import Brook.Server.Invariant
import Brook.Transition.Run

namespace Brook

namespace Server

open Transition (run)

/-! What becomes of a message, from its send on. -/

/-- The same message, at a later time. -/
structure Later (old new : Message) : Prop where
  channelId : new.channelId = old.channelId
  authorId : new.authorId = old.authorId
  replyTo : new.replyTo = old.replyTo
  clientId : new.clientId = old.clientId
  createdAt : new.createdAt = old.createdAt
  deleted : old.deleted = true → new.deleted = true
  attachments : new.attachments.Sublist old.attachments

/-- Nothing is left of what a deleted message listed. -/
def Bare (message : Message) : Prop :=
  message.deleted = true →
    message.attachments = [] ∧ message.mentionEveryone = false ∧ message.mentions = []

structure Distinct (server : Server) : Prop where
  sends : ∀ {id other row there client}, server.messages.get? id = some row →
    server.messages.get? other = some there → row.authorId = there.authorId →
    row.clientId = some client → there.clientId = some client → id = other
  files : ∀ {id other row there file}, server.messages.get? id = some row →
    server.messages.get? other = some there → file ∈ row.attachments →
    file ∈ there.attachments → id = other
  bare : ∀ {id row}, server.messages.get? id = some row → Bare row

/-- The messages that one request writes. -/
inductive Writes (server : Server) : List (MessageId × Message) → Prop
  | nothing : Writes server []
  | sent (id : MessageId) (row : Message) (fresh : id ∉ server.messageIds)
      (live : row.deleted = false)
      (unsent : row.clientId.bind (server.storedSend row.authorId) = none)
      (unattached : server.attachable row.attachments = true) : Writes server [(id, row)]
  | changed (id : MessageId) (old row : Message) (stored : server.messages.get? id = some old)
      (later : Later old row) (bare : Bare row) : Writes server [(id, row)]

theorem Later.refl (message : Message) : Later message message :=
  ⟨rfl, rfl, rfl, rfl, rfl, id, .refl _⟩

theorem Later.trans {first second third : Message} (earlier : Later first second)
    (later : Later second third) : Later first third where
  channelId := later.channelId.trans earlier.channelId
  authorId := later.authorId.trans earlier.authorId
  replyTo := later.replyTo.trans earlier.replyTo
  clientId := later.clientId.trans earlier.clientId
  createdAt := later.createdAt.trans earlier.createdAt
  deleted was := later.deleted (earlier.deleted was)
  attachments := later.attachments.trans earlier.attachments

variable {server next : Server} {changes : Changes}

theorem route_writes {request : Request} (fresh : request.fresh server = true)
    (answered : request.route server = .ok changes) : Writes server changes.messages := by
  cases request with
  | sendMessage actor channel id now body replyTo clientId attachments tokens =>
      simp only [Request.route, sendMessage] at answered
      repeat' split at answered
      all_goals cases answered
      case _ => exact .nothing
      case _ unsent _ attachable =>
        exact .sent id _ (by simpa [Request.fresh] using fresh) rfl unsent
          (by simpa using attachable)
  | editMessage actor channel message body =>
      simp only [Request.route, editMessage] at answered
      split at answered
      · cases answered
      · rename_i old found
        obtain ⟨stored, live⟩ := liveMessage_stored found
        repeat' split at answered
        all_goals cases answered
        exact .changed message old _ stored ⟨rfl, rfl, rfl, rfl, rfl, id, .refl _⟩
          fun gone => absurd (live.symm.trans gone) (by decide)
  | deleteMessage actor channel message =>
      simp only [Request.route, deleteMessage] at answered
      split at answered
      · cases answered
      · rename_i old found
        obtain ⟨stored, live⟩ := liveMessage_stored found
        split at answered
        all_goals cases answered
        exact .changed message old _ stored
          ⟨rfl, rfl, rfl, rfl, rfl, fun _ => rfl, List.nil_sublist _⟩ fun _ => ⟨rfl, rfl, rfl⟩
  | deleteFile actor file =>
      simp only [Request.route, deleteFile] at answered
      split at answered
      · cases answered
      · rename_i message old found
        have stored := Table.mem_rows.mp (List.mem_of_find?_eq_some found)
        have live := List.find?_some found
        simp only [Bool.and_eq_true, Bool.not_eq_true'] at live
        repeat' split at answered
        all_goals cases answered
        exact .changed message old _ stored ⟨rfl, rfl, rfl, rfl, rfl, id, List.filter_sublist⟩
          fun gone => absurd (live.2.symm.trans gone) (by decide)
  | _ =>
      simp only [Request.route, register, updateMe, createChannel, openDm, addMember, joinChannel,
        joining, removeMember, offerOwnership, withdrawOwnershipOffer, acceptOwnership,
        declineOwnership, updateChannel, deleteChannel, toggleReaction, markRead] at answered
      repeat' split at answered
      all_goals cases answered <;> exact .nothing

/-- Where a message of the committed state comes from. -/
inductive Origin (server : Server) (changes : Changes) (id : MessageId) (new : Message) : Prop
  | kept (old : Message) (stored : server.messages.get? id = some old) (later : Later old new)
      (bare : Bare old → Bare new)
  | sent (row : Message) (only : changes.messages = [(id, row)]) (fresh : id ∉ server.messageIds)
      (live : new.deleted = false)
      (unsent : new.clientId.bind (server.storedSend new.authorId) = none)
      (unattached : server.attachable new.attachments = true)

theorem commit_origin (writes : Writes server changes.messages) {id : MessageId} {new : Message}
    (found : (server.commit changes).messages.get? id = some new) :
    Origin server changes id new := by
  cases stamped : changes.isEmpty with
  | true =>
      rw [commit_of_isEmpty stamped] at found
      exact .kept new found (.refl new) fun bare => bare
  | false =>
      rw [commit_get?_messages stamped, Option.filter_eq_some_iff, writtenMessages,
        Table.get?_mapRows, Option.map_eq_some_iff] at found
      obtain ⟨⟨written, put, rfl⟩, -⟩ := found
      -- The number is all that the stamp changes.
      have numbered : ∀ {goal : Message → Prop}, (∀ seq, goal { written with seq }) →
          goal (if id ∈ changes.touched then { written with seq := server.counter + 1 }
            else written) := by
        intro goal all
        split
        · exact all _
        · exact all written.seq
      rcases Table.putAll_cases server.messages
          (changes.messages.map fun entry =>
            (entry.1, { entry.2 with seq := server.counter + 1 })) id with
        ⟨-, same⟩ | ⟨row, member, same⟩
      · rw [same] at put
        refine numbered fun seq => .kept written put ?_ fun bare => bare
        exact ⟨rfl, rfl, rfl, rfl, rfl, fun was => was, .refl _⟩
      · rw [same] at put
        cases put
        obtain ⟨⟨_, row⟩, mem, is⟩ := List.mem_map.mp member
        cases is
        generalize is : changes.messages = messages at writes mem
        cases writes with
        | nothing => cases mem
        | sent other sent fresh live unsent unattached =>
            cases List.mem_singleton.mp mem
            exact numbered fun seq => .sent _ is fresh live unsent unattached
        | changed other old changed stored later bare =>
            cases List.mem_singleton.mp mem
            exact numbered fun seq => .kept old stored ⟨later.channelId, later.authorId,
              later.replyTo, later.clientId, later.createdAt, later.deleted, later.attachments⟩
              fun _ => bare

theorem distinct_init : Distinct init where
  sends is := by cases is
  files is := by cases is
  bare is := by cases is

theorem not_sent {author : UserId} {client : ClientId} {id : MessageId} {row : Message}
    (unsent : (some client).bind (server.storedSend author) = none)
    (stored : server.messages.get? id = some row) (own : row.authorId = author) :
    row.clientId ≠ some client := by
  intro same
  have other := List.find?_eq_none.mp unsent _ (Table.mem_rows.mpr stored)
  exact other (by simp [own, same])

theorem not_attached {files : List FileId} {file : FileId} {id : MessageId} {row : Message}
    (unattached : server.attachable files = true) (mem : file ∈ files)
    (stored : server.messages.get? id = some row) : file ∉ row.attachments := by
  intro attached
  simp only [attachable, Bool.and_eq_true, List.all_eq_true, Bool.not_eq_true',
    List.any_eq_false, decide_eq_true_eq] at unattached
  exact unattached.2 file mem _ (Table.mem_rows.mpr stored) attached

theorem Distinct.commit (distinct : Distinct server) (writes : Writes server changes.messages) :
    Distinct (server.commit changes) where
  sends isRow isThere same sent sentThere := by
    cases commit_origin writes isRow with
    | kept old stored later =>
        rw [later.clientId] at sent
        rw [later.authorId] at same
        cases commit_origin writes isThere with
        | kept was was_stored after =>
            exact distinct.sends stored was_stored (same.trans after.authorId) sent
              (after.clientId.symm.trans sentThere)
        | sent row only fresh live unsent =>
            rw [sentThere] at unsent
            exact absurd sent (not_sent unsent stored same)
    | sent row only fresh live unsent =>
        cases commit_origin writes isThere with
        | kept was was_stored after =>
            rw [sent] at unsent
            exact absurd (after.clientId.symm.trans sentThere)
              (not_sent unsent was_stored (after.authorId.symm.trans same.symm))
        | sent there alone =>
            rw [only] at alone
            cases alone
            rfl
  files isRow isThere mem memThere := by
    cases commit_origin writes isRow with
    | kept old stored later =>
        cases commit_origin writes isThere with
        | kept was was_stored after =>
            exact distinct.files stored was_stored (later.attachments.subset mem)
              (after.attachments.subset memThere)
        | sent row only fresh live unsent unattached =>
            exact absurd (later.attachments.subset mem) (not_attached unattached memThere stored)
    | sent row only fresh live unsent unattached =>
        cases commit_origin writes isThere with
        | kept was was_stored after =>
            exact absurd (after.attachments.subset memThere)
              (not_attached unattached mem was_stored)
        | sent there alone =>
            rw [only] at alone
            cases alone
            rfl
  bare isRow := by
    cases commit_origin writes isRow with
    | kept old stored later bare => exact bare (distinct.bare stored)
    | sent row only fresh live => exact fun gone => absurd (live.symm.trans gone) (by decide)

theorem handle_commit {request : Request} (handled : server.handle request = some next) :
    ∃ changes, next = server.commit changes ∧ Writes server changes.messages := by
  rw [handle] at handled
  split at handled
  case isFalse => cases handled
  case isTrue fresh =>
    split at handled
    · cases handled
    · rename_i changes answered
      cases handled
      exact ⟨changes, rfl, route_writes fresh answered⟩

/-- In every run no author's id is stored twice, no file is attached to two messages and nothing is
left of what a deleted one listed; and between any two moments of it a message that is there at
both keeps its channel, author, quote, id and time, stays deleted and gets no file. -/
theorem messages_last {requests more : List Request}
    (reached : run handle init requests = some server)
    (goesOn : run handle server more = some next) :
    Distinct next ∧ ∀ id old new, server.messages.get? id = some old →
      next.messages.get? id = some new → Later old new := by
  have stepped : ∀ {before after : Server} {request : Request}, before.Wf ∧ Distinct before →
      before.handle request = some after → after.Wf ∧ Distinct after := by
    intro before after request held handled
    refine ⟨handle_wf held.1 handled, ?_⟩
    obtain ⟨changes, rfl, writes⟩ := handle_commit handled
    exact held.2.commit writes
  have first := Transition.run_invariant_of_step stepped ⟨wf_init, distinct_init⟩ reached
  refine ⟨(Transition.run_invariant_of_step stepped first goesOn).2, fun id old new stored => ?_⟩
  have kept : ∀ {before after : Server} {request : Request},
      (before.Wf ∧ id ∈ before.messageIds ∧
        ∀ row, before.messages.get? id = some row → Later old row) →
      before.handle request = some after →
      after.Wf ∧ id ∈ after.messageIds ∧
        ∀ row, after.messages.get? id = some row → Later old row := by
    intro before after request held handled
    obtain ⟨wf, drawn, held⟩ := held
    refine ⟨handle_wf wf handled, ?_, fun row isRow => ?_⟩
    · rcases handle_cases wf handled with rfl | committed
      · exact drawn
      · exact committed.messageIds drawn
    · obtain ⟨changes, rfl, writes⟩ := handle_commit handled
      cases commit_origin writes isRow with
      | kept was stored later => exact (held was stored).trans later
      | sent _ _ fresh => exact absurd drawn fresh
  have start : ∀ row, server.messages.get? id = some row → Later old row := by
    intro row isRow
    rw [stored] at isRow
    cases isRow
    exact .refl old
  exact (Transition.run_invariant_of_step kept ⟨first.1, first.1.messageIds stored, start⟩
    goesOn).2.2 new

/-- Two users share a channel; one sends with a file, and takes the message back. -/
def sending : List Request :=
  [.register none 1 "a".toList "A".toList, .createChannel 1 1 "general".toList none true,
    .sendMessage 1 1 1 0 "hello".toList none (some 9) [5]]

def takingBack : List Request :=
  [.sendMessage 1 1 2 1 "hello".toList none (some 9) [5], .deleteMessage 1 1 1]

theorem messages_last_deleted :
    ∃ server next old new, run handle init sending = some server ∧
      run handle server takingBack = some next ∧ server.messages.get? 1 = some old ∧
      next.messages.get? 1 = some new ∧ next.messages.get? 2 = none ∧ new.deleted = true ∧
      Distinct next ∧ Later old new := by
  refine ⟨_, _, _, _, rfl, rfl, rfl, rfl, rfl, rfl, ?_⟩
  have last := messages_last (show run handle init sending = some _ from rfl)
    (show run handle _ takingBack = some _ from rfl)
  exact ⟨last.1, last.2 1 _ _ rfl rfl⟩

end Server

end Brook
