import Brook.Outbox.Orderly
import Brook.Transition.Run

namespace Brook.Outbox

open Brook.Transition

/-- No id is handed in twice. -/
def Distinct (outbox : OutboxSystem) : OutboxAction → Prop
  | .enqueue id _ _ _ => id ∉ outbox.asked
  | .sendDirect id _ _ => id ∉ outbox.asked
  | _ => True

instance (outbox : OutboxSystem) (action : OutboxAction) :
    Decidable (Distinct outbox action) :=
  match action with
  | .enqueue id _ _ _ | .sendDirect id _ _ =>
      inferInstanceAs (Decidable (id ∉ outbox.asked))
  | .directEnds | .signIn | .signOut | .signedIn | .acquire _ | .mark _
  | .readFiles _ | .upload _ _ | .answer _ | .detach _ | .ack _ | .drop _
  | .settle _ | .retry _ _ | .crash | .reopen | .setMember _ | .setArchived _
  | .setQuotable _ | .setAttachable _ | .receive _ | .resume _ | .fail _ =>
      isTrue trivial

/-- Each message is stored once, and those of the outbox in the order of its
rows; of the rows that are left only the first may have its message stored. -/
structure InOrder (outbox : OutboxSystem) : Prop where
  once : outbox.server.stored.Nodup
  ordinals : (outbox.queued.map Prod.fst).Pairwise (· < ·)
  rows : outbox.keys <:+ outbox.queued
  ordered : outbox.sent <+: outbox.queuedIds
  left : ∀ id ∈ outbox.queuedIds, id ∉ outbox.ids → id ∈ outbox.server.stored
  last : ∀ id ∈ outbox.ids, id ∈ outbox.server.stored →
    outbox.ids.head? = some id ∧ outbox.sent.getLast? = some id

variable {outbox next : OutboxSystem} {attempt : Attempt} {stage : Stage}
  {id : ClientId}

/-- At an await that assures nothing, what is known comes from the attempt. -/
theorem HeldBy.at (held : HeldBy outbox (.sender attempt stage)) {later : Stage}
    (plain : ¬ later.Assured) : HeldBy outbox (.sender attempt later) :=
  ⟨held.1, fun known => held.2 (known.imp_right fun assured =>
    (plain assured).elim)⟩

theorem HeldBy.update (held : HeldBy outbox (.sender attempt stage))
    {write : Row → Row} (keeps : KeepsKey write) :
    HeldBy (outbox.update id write) (.sender attempt stage) := by
  rw [HeldBy, ids_update keeps]
  exact held

theorem HeldBy.assure (held : HeldBy outbox (.sender attempt stage))
    (stored : attempt.clientId ∈ outbox.server.stored) (later : Stage) :
    HeldBy outbox (.sender attempt later) :=
  ⟨held.1, fun _ => stored⟩

namespace Orderly

/-! ### The rounds of an attempt -/

theorem maySend_first (orderly : Orderly outbox)
    (first : outbox.ids.head? = some id) : MaySend outbox id := by
  obtain ⟨gone, queue, -⟩ := orderly.line
  refine ⟨orderly.queued id ?_, fun _ => Or.inr first⟩
  rw [queuedIds_of_queued queue]
  exact List.mem_append_right _ (List.mem_of_head? first)

theorem fail (orderly : Orderly outbox)
    (held : HeldBy outbox (.sender attempt stage)) (code : Code) :
    Orderly (outbox.advance attempt (.settling (.failed code))) :=
  orderly.advance (held.at id)

theorem post (orderly : Orderly outbox)
    (held : HeldBy outbox (.sender attempt stage)) :
    Orderly (outbox.post attempt) := by
  simp only [OutboxSystem.post]
  split
  · have sent : Orderly (outbox.send ⟨attempt.clientId, attempt.msg⟩) :=
      orderly.send (orderly.maySend_first held.1)
    exact sent.advance (held.at id)
  · exact orderly.wait held

theorem acquire (orderly : Orderly outbox) (epoch : Epoch) :
    Orderly (outbox.acquire epoch) := by
  simp only [OutboxSystem.acquire]
  split
  case h_1 => exact orderly
  case h_2 row rest rows =>
    have first : outbox.ids.head? = some row.clientId := by
      rw [OutboxSystem.ids, rows]
      rfl
    have held : HeldBy outbox (.sender ⟨row.clientId,
        ⟨row.body, row.replyTo, []⟩, row.state = .accepted, epoch, [], false⟩
        .marking) := by
      refine ⟨first, ?_⟩
      rintro (known | assured)
      · refine orderly.accepted row ?_ (of_decide_eq_true known)
        rw [rows]
        exact List.mem_cons_self
      · exact (show False from assured).elim
    split
    case h_1 => exact orderly
    case h_2 =>
      split
      · exact orderly.advance (held.at id)
      · exact orderly.wait held
    case h_3 | h_4 => exact orderly.advance held

/-- The row is written but for its state, and the attempt goes on. -/
theorem writeFiles (orderly : Orderly outbox)
    (held : HeldBy outbox (.sender attempt stage)) {write : Row → Row}
    (keeps : KeepsKey write) (state : ∀ row, (write row).state = row.state)
    {later : Stage} (plain : ¬ later.Assured) :
    Orderly ((outbox.update attempt.clientId write).advance attempt later) := by
  have written : Orderly (outbox.update attempt.clientId write) := by
    refine orderly.update keeps ?_
    intro row member _ isAccepted
    rw [state] at isAccepted
    exact orderly.accepted row member isAccepted
  exact written.advance ((held.update keeps).at plain)

theorem readFiles (orderly : Orderly outbox)
    (held : HeldBy outbox (.sender attempt stage)) :
    Orderly (outbox.readFiles attempt) := by
  simp only [OutboxSystem.readFiles]
  split
  · exact orderly.post held
  split
  · exact orderly.post held
  · exact orderly.advance (held.at id)

theorem upload (orderly : Orderly outbox)
    (held : HeldBy outbox (.sender attempt stage)) (ids : List FileId)
    (result : Upload) (left : List (Option FileId)) :
    Orderly (outbox.upload attempt ids result left) := by
  cases left with
  | nil =>
      simp only [OutboxSystem.upload]
      split
      · exact orderly.fail held _
      · exact orderly.post held
  | cons file left =>
      cases file with
      | some known => exact orderly.advance (held.at id)
      | none =>
          simp only [OutboxSystem.upload]
          split
          · exact orderly.wait held
          cases result with
          | file uploaded recorded =>
              cases recorded with
              | false => exact orderly.wait held
              | true =>
                  have keeps : KeepsKey (·.setFile ids.length uploaded) :=
                    fun _ => ⟨rfl, rfl⟩
                  exact orderly.writeFiles held keeps (fun _ => rfl) id
          | failed code => exact orderly.fail held code
          | transient => exact orderly.wait held

theorem answered (orderly : Orderly outbox)
    (held : HeldBy outbox (.sender attempt stage)) {answer : Answer}
    (assured : ∀ message, answer = .ok message →
      message.clientId ∈ outbox.server.stored) :
    Orderly (outbox.answered attempt answer) := by
  simp only [OutboxSystem.answered]
  split
  · exact orderly.wait held
  split
  case h_1 => exact orderly.wait held
  case h_2 code =>
    split
    case isTrue => exact orderly.advance (held.at id)
    case isFalse =>
      split
      case isTrue accepted =>
        exact orderly.advance (held.assure (held.2 (Or.inl accepted)) _)
      case isFalse => exact orderly.fail held code
  case h_3 message =>
    split
    case isTrue echo =>
      exact orderly.advance (held.assure (echo ▸ assured message rfl) _)
    case isFalse => exact orderly.fail held _

theorem step (orderly : Orderly outbox) {action : OutboxAction}
    (guard : Distinct outbox action)
    (taken : outboxStep outbox action = some next) : Orderly next := by
  cases action with
  | enqueue id body replyTo files =>
      simp only [outboxStep] at taken
      split at taken
      · cases taken
        exact orderly.enqueue guard
      · cases taken
  | sendDirect id body replyTo =>
      simp only [outboxStep] at taken
      split at taken
      · cases taken
        exact orderly.sendDirect guard
      · cases taken
  | directEnds =>
      simp only [outboxStep] at taken
      split at taken
      · cases taken
        exact orderly.release
      · cases taken
  | signIn | signOut =>
      cases taken
      exact { orderly with }
  | signedIn =>
      simp only [outboxStep] at taken
      split at taken
      · cases taken
        exact { orderly with }
      · cases taken
  | acquire read =>
      simp only [outboxStep] at taken
      split at taken
      case h_1 epoch ready free =>
        have idle : Orderly { outbox with ready := none } := { orderly with }
        cases taken
        split
        · exact idle.acquire epoch
        · exact idle
      case h_2 => cases taken
  | mark written =>
      simp only [outboxStep] at taken
      split at taken
      case h_1 attempt holding =>
        have held : HeldBy outbox (.sender attempt .marking) :=
          holding ▸ orderly.holder
        cases taken
        split
        · have marked : Orderly (outbox.setState attempt.clientId .sending) :=
            orderly.setState (fun same => by cases same)
          have still : HeldBy (outbox.setState attempt.clientId .sending)
              (.sender attempt .marking) := held.update fun _ => ⟨rfl, rfl⟩
          split
          · exact marked.advance (still.at id)
          · exact marked.wait still
        · exact orderly.release
      case h_2 => cases taken
  | readFiles read =>
      simp only [outboxStep] at taken
      split at taken
      case h_1 attempt holding =>
        have held : HeldBy outbox (.sender attempt .reading) :=
          holding ▸ orderly.holder
        cases taken
        split
        · exact orderly.readFiles held
        · exact orderly.wait held
      case h_2 => cases taken
  | upload cancelled result =>
      simp only [outboxStep] at taken
      split at taken
      case h_1 attempt ids left holding =>
        have held : HeldBy outbox (.sender attempt (.uploading ids left)) :=
          holding ▸ orderly.holder
        cases taken
        split
        · exact orderly.fail held _
        · exact orderly.upload held ids result left
      case h_2 => cases taken
  | answer arrives =>
      simp only [outboxStep] at taken
      split at taken
      case h_1 attempt request holding =>
        have held : HeldBy outbox (.sender attempt (.posting request)) :=
          holding ▸ orderly.holder
        split at taken
        · obtain ⟨answer, found, rfl⟩ := Option.map_eq_some_iff.mp taken
          refine orderly.answered held ?_
          rintro message rfl
          exact orderly.answers request message found
        · cases taken
          exact orderly.answered held (fun _ same => by cases same)
      case h_2 => cases taken
  | detach written =>
      simp only [outboxStep] at taken
      split at taken
      case h_1 attempt holding =>
        have held : HeldBy outbox (.sender attempt .detaching) :=
          holding ▸ orderly.holder
        cases taken
        split
        · have keeps : KeepsKey Row.detach := fun _ => ⟨rfl, rfl⟩
          exact orderly.writeFiles held keeps (fun _ => rfl) id
        · exact orderly.wait held
      case h_2 => cases taken
  | ack written =>
      simp only [outboxStep] at taken
      split at taken
      case h_1 attempt holding =>
        have held : HeldBy outbox (.sender attempt .acking) :=
          holding ▸ orderly.holder
        have stored := held.2 (Or.inr trivial)
        cases taken
        split
        · exact orderly.advance (held.assure stored _)
        · exact orderly.advance (held.assure stored _)
      case h_2 => cases taken
  | drop written =>
      simp only [outboxStep] at taken
      split at taken
      case h_1 attempt holding =>
        have held : HeldBy outbox (.sender attempt .dropping) :=
          holding ▸ orderly.holder
        have stored := held.2 (Or.inr trivial)
        cases taken
        split
        · exact orderly.remove held.1 stored
        split
        · exact orderly.release
        · exact orderly.advance (held.assure stored _)
      case h_2 => cases taken
  | settle written =>
      simp only [outboxStep] at taken
      split at taken
      case h_1 attempt state holding =>
        have held : HeldBy outbox (.sender attempt (.settling state)) :=
          holding ▸ orderly.holder
        cases taken
        split
        · refine (orderly.setState ?_).release
          rintro rfl
          exact held.2 (Or.inr trivial)
        · exact orderly.release
      case h_2 => cases taken
  | retry id dropReply =>
      simp only [outboxStep] at taken
      split at taken
      · cases taken
        refine orderly.update Row.retry_keepsKey ?_
        intro row member _ isAccepted
        exact orderly.accepted row member (Row.accepted_of_retry isAccepted)
      · cases taken
  | crash =>
      have ended : Orderly { outbox with opened := false, ready := none } :=
        { orderly with }
      cases taken
      exact ended.release
  | reopen =>
      simp only [outboxStep] at taken
      split at taken
      · cases taken
      · cases taken
        have opened : Orderly { outbox with opened := true } := { orderly with }
        have keeps : KeepsKey Row.reopen := fun _ => ⟨rfl, rfl⟩
        refine opened.setRows (keys_map keeps) ?_
        intro written member isAccepted
        obtain ⟨row, stored, rfl⟩ := List.mem_map.mp member
        exact orderly.accepted row stored (Row.accepted_of_reopen isAccepted)
  | setMember | setArchived | setQuotable | setAttachable =>
      cases taken
      exact orderly.setHandlers { orderly.sound with } rfl orderly.handlers
  | receive id =>
      obtain ⟨request, found, rfl⟩ := Option.map_eq_some_iff.mp taken
      have received : Orderly { outbox with
          requests := outbox.requests.filter fun other _ => other ≠ id } :=
        { orderly with
          requests := by
            intro other request kept
            rw [Table.get?_filter, Option.filter_eq_some_iff] at kept
            exact orderly.requests other request kept.1 }
      exact received.receive (orderly.requests id request found)
  | resume id =>
      obtain ⟨outcome, resumed, rfl⟩ := Option.map_eq_some_iff.mp taken
      obtain ⟨handler, found, resumes⟩ := Server.resumes resumed
      exact orderly.resume found resumes
  | fail id =>
      obtain ⟨outcome, failed, rfl⟩ := Option.map_eq_some_iff.mp taken
      obtain ⟨handler, found, rfl⟩ := Option.map_eq_some_iff.mp failed
      exact orderly.finish (fun _ same => by cases same)

theorem start : Orderly OutboxSystem.start where
  sound := Server.Sound.start
  answers := by simp [OutboxSystem.start]
  stored := by simp [OutboxSystem.start, Server.start, Server.stored]
  queued := by simp [OutboxSystem.start, OutboxSystem.queuedIds]
  distinct := List.nodup_nil
  ordinals := List.Pairwise.nil
  sequence := by simp [OutboxSystem.start]
  line := ⟨[], rfl, Or.inl rfl⟩
  requests := by simp [OutboxSystem.start]
  handlers := by simp [OutboxSystem.start, Server.start]
  accepted := by simp [OutboxSystem.start]
  holder := trivial

theorem inOrder (orderly : Orderly outbox) : InOrder outbox := by
  obtain ⟨gone, queue, line⟩ := orderly.line
  have queuedIds := queuedIds_of_queued queue
  have distinct := orderly.distinct
  rw [queuedIds] at distinct
  have apart := List.nodup_append.mp distinct
  have gone_sent {id : ClientId} (member : id ∈ gone.map Prod.snd) :
      id ∈ outbox.sent := by
    obtain all | ⟨first, -, all⟩ := line
    · rw [all]
      exact member
    · rw [all]
      exact List.mem_append_left _ member
  exact
    { once := orderly.sound.once
      ordinals := orderly.ordinals
      rows := ⟨gone, queue.symm⟩
      ordered := by
        obtain all | ⟨first, ahead, all⟩ := line
        · rw [all, queuedIds]
          exact List.prefix_append _ _
        · obtain ⟨rest, ids⟩ := List.head?_eq_some_iff.mp ahead
          rw [all, queuedIds, ids]
          exact ⟨rest, by simp⟩
      left := by
        intro id member absent
        rw [queuedIds, List.mem_append] at member
        exact (mem_sent.mp (gone_sent (member.resolve_right absent))).1
      last := by
        intro id member stored
        have isSent : id ∈ outbox.sent := by
          refine mem_sent.mpr ⟨stored, ?_⟩
          rw [queuedIds]
          exact List.mem_append_right _ member
        obtain all | ⟨first, ahead, all⟩ := line
        · rw [all] at isSent
          exact (apart.2.2 id isSent id member rfl).elim
        · rw [all, List.mem_append, List.mem_singleton] at isSent
          obtain earlier | rfl := isSent
          · exact (apart.2.2 id earlier id member rfl).elim
          · exact ⟨ahead, by simp [all]⟩ }

end Orderly

/-- Whatever is lost, late, refused or cut short: each message is stored once,
those of the outbox in the order of its rows, and a row goes only once its
message is stored. -/
theorem stored_in_order {actions : List OutboxAction}
    (distinct : Along outboxStep Distinct OutboxSystem.start actions)
    (reached : run outboxStep OutboxSystem.start actions = some outbox) :
    InOrder outbox := by
  have orderly : Orderly outbox :=
    run_invariant (fun kept guard taken => Orderly.step kept guard taken)
      Orderly.start distinct reached
  exact orderly.inOrder

/-- The sender takes the first row up to its send. -/
def sendFirst : List OutboxAction :=
  [.signedIn, .acquire true, .mark true, .readFiles true]

/-- The server stores the request's message. -/
def serve (request : RequestId) : List OutboxAction :=
  [.receive request, .resume request, .resume request, .resume request,
    .resume request]

/-- The first answer is lost, and the process ends before the second arrives. -/
def lostAnswers : List OutboxAction :=
  [.signIn, .enqueue 7 "one" none 0, .enqueue 8 "two" none 0] ++ sendFirst ++
    serve 0 ++ [.answer false, .settle true] ++ sendFirst ++ [.crash, .reopen] ++
    sendFirst ++ [.receive 2, .resume 2, .answer true, .ack true, .drop true] ++
    sendFirst ++ serve 3 ++ [.receive 1, .resume 1]

theorem stored_in_order_lostAnswers :
    ∃ outbox, run outboxStep OutboxSystem.start lostAnswers = some outbox ∧
      outbox.sent = [7, 8] ∧ outbox.ids = [8] ∧ InOrder outbox := by
  have distinct : Along outboxStep Distinct OutboxSystem.start lostAnswers := by
    decide +kernel
  obtain ⟨outbox, reached, sent, ids⟩ : ∃ outbox,
      run outboxStep OutboxSystem.start lostAnswers = some outbox ∧
        outbox.sent = [7, 8] ∧ outbox.ids = [8] := by
    refine ⟨_, rfl, ?_⟩
    decide +kernel
  exact ⟨outbox, reached, sent, ids, stored_in_order distinct reached⟩

/-- The answer is lost, the channel is archived, and the message is refused when
it is sent again. -/
def refusedAgain : List OutboxAction :=
  [.signIn, .enqueue 7 "one" none 0] ++ sendFirst ++ serve 0 ++
    [.answer false, .settle true, .setArchived true] ++ sendFirst ++
    [.receive 1, .answer true, .settle true]

def RowState.isFailed : RowState → Bool
  | .failed _ => true
  | .pending | .sending | .accepted => false

/-- The ids of the rows that were not failed. -/
def OutboxSystem.unfailedIds (outbox : OutboxSystem) : List ClientId :=
  outbox.queuedIds.filter fun id =>
    !outbox.rows.any fun row => row.clientId = id && row.state.isFailed

theorem failed_row_stored :
    ¬ ∀ (actions : List OutboxAction) (outbox : OutboxSystem),
      Along outboxStep Distinct OutboxSystem.start actions →
      run outboxStep OutboxSystem.start actions = some outbox →
      outbox.sent <+: outbox.unfailedIds := by
  intro claimed
  have distinct : Along outboxStep Distinct OutboxSystem.start refusedAgain := by
    decide +kernel
  obtain ⟨outbox, reached, sent, unfailed⟩ : ∃ outbox,
      run outboxStep OutboxSystem.start refusedAgain = some outbox ∧
        outbox.sent = [7] ∧ outbox.unfailedIds = [] := by
    refine ⟨_, rfl, ?_⟩
    decide +kernel
  have ordered := claimed refusedAgain outbox distinct reached
  rw [sent, unfailed, List.prefix_nil] at ordered
  cases ordered

end Brook.Outbox
