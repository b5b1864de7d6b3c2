import Brook.Outbox.Once
import Brook.Outbox.Sender

namespace Brook.Outbox

/-! The messages that the server stores of an outbox are those of its first rows,
in their order: a row blocks the rows behind it until its message is stored. -/

namespace OutboxSystem

/-- The rows that are left, in their order, by ordinal and id. -/
def keys (outbox : OutboxSystem) : List (Nat × ClientId) :=
  outbox.rows.map fun row => (row.ordinal, row.clientId)

def ids (outbox : OutboxSystem) : List ClientId :=
  outbox.rows.map (·.clientId)

/-- The ids of every row there ever was, in their order. -/
def queuedIds (outbox : OutboxSystem) : List ClientId :=
  outbox.queued.map Prod.snd

/-- The messages of the outbox, in the order of their commits. -/
def sent (outbox : OutboxSystem) : List ClientId :=
  outbox.server.stored.filter (· ∈ outbox.queuedIds)

end OutboxSystem

/-- The await comes only after the server has had the message. -/
def Stage.Assured : Stage → Prop
  | .acking | .dropping | .settling .accepted => True
  | _ => False

/-- A request of the id may be about: it is no row's, or its message is stored,
or its row is the first. -/
def MaySend (outbox : OutboxSystem) (id : ClientId) : Prop :=
  id ∈ outbox.asked ∧
    (id ∈ outbox.queuedIds →
      id ∈ outbox.server.stored ∨ outbox.ids.head? = some id)

def HeldBy (outbox : OutboxSystem) : Holder → Prop
  | .sender attempt stage =>
      outbox.ids.head? = some attempt.clientId ∧
        (attempt.accepted = true ∨ stage.Assured →
          attempt.clientId ∈ outbox.server.stored)
  | .free | .direct => True

structure Orderly (outbox : OutboxSystem) : Prop where
  sound : outbox.server.Sound
  answers : ∀ id message, outbox.answers.get? id = some (.ok message) →
    message.clientId ∈ outbox.server.stored
  stored : ∀ id ∈ outbox.server.stored, id ∈ outbox.asked
  queued : ∀ id ∈ outbox.queuedIds, id ∈ outbox.asked
  distinct : outbox.queuedIds.Nodup
  ordinals : (outbox.queued.map Prod.fst).Pairwise (· < ·)
  sequence : ∀ ordinal ∈ outbox.queued.map Prod.fst, ordinal < outbox.sequence
  /-- The rows that went are the messages, up to the first row's. -/
  line : ∃ gone, outbox.queued = gone ++ outbox.keys ∧
    (outbox.sent = gone.map Prod.snd ∨
      ∃ id, outbox.ids.head? = some id ∧ outbox.sent = gone.map Prod.snd ++ [id])
  requests : ∀ id request, outbox.requests.get? id = some request →
    MaySend outbox request.clientId
  handlers : ∀ id handler, outbox.server.handlers.get? id = some handler →
    MaySend outbox handler.request.clientId
  accepted : ∀ row ∈ outbox.rows, row.state = .accepted →
    row.clientId ∈ outbox.server.stored
  holder : HeldBy outbox outbox.holder

variable {outbox next : OutboxSystem} {attempt : Attempt} {stage : Stage}
  {id : ClientId}

@[simp] theorem mem_sent :
    id ∈ outbox.sent ↔ id ∈ outbox.server.stored ∧ id ∈ outbox.queuedIds := by
  simp [OutboxSystem.sent]

theorem Attempt.assured_waiting (assured : (Stage.settling attempt.waiting).Assured) :
    attempt.accepted = true := by
  cases known : attempt.accepted with
  | true => rfl
  | false => simp [Attempt.waiting, known, Stage.Assured] at assured

theorem map_snd_keys : outbox.keys.map Prod.snd = outbox.ids := by
  simp [OutboxSystem.keys, OutboxSystem.ids, Function.comp_def]

theorem queuedIds_of_queued {gone : List (Nat × ClientId)}
    (queue : outbox.queued = gone ++ outbox.keys) :
    outbox.queuedIds = gone.map Prod.snd ++ outbox.ids := by
  rw [OutboxSystem.queuedIds, queue, List.map_append, map_snd_keys]

/-- The write leaves a row's ordinal and id. -/
def KeepsKey (write : Row → Row) : Prop :=
  ∀ row, (write row).ordinal = row.ordinal ∧ (write row).clientId = row.clientId

theorem keys_map {write : Row → Row} (keeps : KeepsKey write) :
    ({ outbox with rows := outbox.rows.map write } : OutboxSystem).keys =
      outbox.keys := by
  rw [OutboxSystem.keys, List.map_map]
  refine List.map_congr_left fun row _ => ?_
  exact Prod.ext (keeps row).1 (keeps row).2

theorem Row.retry_keepsKey {dropReply : Bool} :
    KeepsKey (·.retry dropReply) := by
  intro row
  simp only [Row.retry]
  split
  · split
    · split
      · exact ⟨rfl, rfl⟩
      · exact ⟨rfl, rfl⟩
    · exact ⟨rfl, rfl⟩
  · exact ⟨rfl, rfl⟩

theorem Row.accepted_of_retry {row : Row} {dropReply : Bool}
    (accepted : (row.retry dropReply).state = .accepted) :
    row.state = .accepted := by
  cases state : row.state with
  | accepted => rfl
  | failed code =>
      simp only [Row.retry, state] at accepted
      split at accepted
      · split at accepted
        · cases accepted
        · exact state.symm.trans accepted
      · cases accepted
  | pending | sending =>
      simp only [Row.retry, state] at accepted
      cases accepted

theorem Row.accepted_of_reopen {row : Row}
    (accepted : row.reopen.state = .accepted) : row.state = .accepted := by
  simp only [Row.reopen] at accepted
  split at accepted
  · cases accepted
  · exact accepted

theorem ids_of_keys (same : next.keys = outbox.keys) : next.ids = outbox.ids := by
  rw [← map_snd_keys, same, map_snd_keys]

theorem keys_update {write : Row → Row} (keeps : KeepsKey write) :
    (outbox.update id write).keys = outbox.keys := by
  refine keys_map fun row => ?_
  split
  · exact keeps row
  · exact ⟨rfl, rfl⟩

theorem ids_update {write : Row → Row} (keeps : KeepsKey write) :
    (outbox.update id write).ids = outbox.ids :=
  ids_of_keys (keys_update keeps)

namespace Orderly

/-! ### What the sender does -/

/-- The rows may change, short of their ids. -/
theorem setRows (orderly : Orderly outbox) {rows : List Row}
    (same : ({ outbox with rows } : OutboxSystem).keys = outbox.keys)
    (accepted : ∀ row ∈ rows, row.state = .accepted →
      row.clientId ∈ outbox.server.stored) :
    Orderly { outbox with rows } := by
  have ids : ({ outbox with rows } : OutboxSystem).ids = outbox.ids :=
    ids_of_keys same
  have maySend {id : ClientId} (may : MaySend outbox id) :
      MaySend { outbox with rows } id := by
    rw [MaySend, ids]
    exact may
  have heldBy {holder : Holder} (held : HeldBy outbox holder) :
      HeldBy { outbox with rows } holder := by
    cases holder with
    | free | direct => trivial
    | sender attempt stage =>
        rw [HeldBy, ids]
        exact held
  exact
    { orderly with
      line := by
        rw [ids, same]
        exact orderly.line
      requests := fun id request found => maySend (orderly.requests id request found)
      handlers := fun id handler found => maySend (orderly.handlers id handler found)
      accepted
      holder := heldBy orderly.holder }

theorem update (orderly : Orderly outbox) {write : Row → Row}
    (keeps : KeepsKey write)
    (accepted : ∀ row ∈ outbox.rows, row.clientId = id →
      (write row).state = .accepted → row.clientId ∈ outbox.server.stored) :
    Orderly (outbox.update id write) := by
  refine orderly.setRows (keys_update keeps) ?_
  intro written member isAccepted
  obtain ⟨row, stored, rfl⟩ := List.mem_map.mp member
  by_cases mine : row.clientId = id
  · rw [if_pos mine] at isAccepted ⊢
    rw [(keeps row).2]
    exact accepted row stored mine isAccepted
  · rw [if_neg mine] at isAccepted ⊢
    exact orderly.accepted row stored isAccepted

theorem setState (orderly : Orderly outbox) {state : RowState}
    (assured : state = .accepted → id ∈ outbox.server.stored) :
    Orderly (outbox.setState id state) := by
  refine orderly.update (fun _ => ⟨rfl, rfl⟩) ?_
  rintro row - rfl isAccepted
  exact assured isAccepted

theorem release (orderly : Orderly outbox) : Orderly outbox.release :=
  { orderly with holder := trivial }

theorem advance (orderly : Orderly outbox)
    (held : HeldBy outbox (.sender attempt stage)) :
    Orderly (outbox.advance attempt stage) :=
  { orderly with holder := held }

theorem wait (orderly : Orderly outbox)
    (held : HeldBy outbox (.sender attempt stage)) :
    Orderly (outbox.wait attempt) := by
  refine orderly.advance ⟨held.1, ?_⟩
  rintro (known | assured)
  · exact held.2 (Or.inl known)
  · exact held.2 (Or.inl (Attempt.assured_waiting assured))

theorem send (orderly : Orderly outbox) {request : Request}
    (may : MaySend outbox request.clientId) : Orderly (outbox.send request) :=
  { orderly with
    requests := by
      intro id sent found
      simp only [OutboxSystem.send, Table.get?_put] at found
      split at found
      case isTrue =>
        cases found
        exact may
      case isFalse => exact orderly.requests id sent found }

/-- A new row comes in behind the others. -/
theorem addRow (orderly : Orderly outbox) {row : Row}
    (ordinal : row.ordinal = outbox.sequence) (pending : row.state = .pending)
    (fresh : row.clientId ∉ outbox.asked) :
    Orderly { outbox with
      rows := outbox.rows ++ [row]
      sequence := outbox.sequence + 1
      queued := outbox.queued ++ [(outbox.sequence, row.clientId)]
      asked := row.clientId :: outbox.asked } := by
  generalize added : ({ outbox with
      rows := outbox.rows ++ [row]
      sequence := outbox.sequence + 1
      queued := outbox.queued ++ [(outbox.sequence, row.clientId)]
      asked := row.clientId :: outbox.asked } : OutboxSystem) = next
  have ids : next.ids = outbox.ids ++ [row.clientId] := by
    simp [← added, OutboxSystem.ids]
  have keys : next.keys = outbox.keys ++ [(outbox.sequence, row.clientId)] := by
    simp [← added, OutboxSystem.keys, ordinal]
  have queuedIds : next.queuedIds = outbox.queuedIds ++ [row.clientId] := by
    simp [← added, OutboxSystem.queuedIds]
  have ahead {id : ClientId} (first : outbox.ids.head? = some id) :
      next.ids.head? = some id := by
    simp [ids, first]
  have sent : next.sent = outbox.sent := by
    rw [OutboxSystem.sent, queuedIds, ← added]
    refine List.filter_congr fun id member => ?_
    have different : id ≠ row.clientId := by
      rintro rfl
      exact fresh (orderly.stored _ member)
    simp [different]
  have maySend {id : ClientId} (may : MaySend outbox id) : MaySend next id := by
    obtain ⟨asked, about⟩ := may
    subst added
    refine ⟨List.mem_cons_of_mem _ asked, ?_⟩
    intro member
    rw [queuedIds, List.mem_append, List.mem_singleton] at member
    obtain before | rfl := member
    · exact (about before).imp_right ahead
    · exact (fresh asked).elim
  have heldBy {holder : Holder} (held : HeldBy outbox holder) :
      HeldBy next holder := by
    subst added
    cases holder with
    | free | direct => trivial
    | sender attempt stage => exact ⟨ahead held.1, held.2⟩
  obtain ⟨gone, queue, line⟩ := orderly.line
  subst added
  exact
    { sound := orderly.sound
      answers := orderly.answers
      stored := fun id member => List.mem_cons_of_mem _ (orderly.stored id member)
      queued := by
        intro id member
        rw [queuedIds, List.mem_append, List.mem_singleton] at member
        obtain before | rfl := member
        · exact List.mem_cons_of_mem _ (orderly.queued id before)
        · exact List.mem_cons_self
      distinct := by
        rw [queuedIds]
        refine List.nodup_append.mpr
          ⟨orderly.distinct, List.nodup_singleton _, ?_⟩
        intro id member other isNew
        cases List.mem_singleton.mp isNew
        rintro rfl
        exact fresh (orderly.queued _ member)
      ordinals := by
        rw [List.map_append]
        refine List.pairwise_append.mpr
          ⟨orderly.ordinals, List.pairwise_singleton _ _, ?_⟩
        intro earlier member later isNew
        cases List.mem_singleton.mp isNew
        exact orderly.sequence earlier member
      sequence := by
        intro ordinal member
        rw [List.map_append, List.mem_append] at member
        obtain before | isNew := member
        · exact Nat.lt_succ_of_lt (orderly.sequence ordinal before)
        · cases List.mem_singleton.mp isNew
          exact Nat.lt_succ_self _
      line := by
        refine ⟨gone, ?_, ?_⟩
        · rw [keys, queue, List.append_assoc]
        · rw [sent]
          exact line.imp_right fun ⟨id, first, all⟩ => ⟨id, ahead first, all⟩
      requests := fun id request found => maySend (orderly.requests id request found)
      handlers := fun id handler found => maySend (orderly.handlers id handler found)
      accepted := by
        intro old member isAccepted
        obtain before | isNew := List.mem_append.mp member
        · exact orderly.accepted old before isAccepted
        · cases List.mem_singleton.mp isNew
          rw [pending] at isAccepted
          cases isAccepted
      holder := heldBy orderly.holder }

theorem enqueue (orderly : Orderly outbox) {body : String}
    {replyTo : Option MessageId} {files : Nat} (fresh : id ∉ outbox.asked) :
    Orderly { outbox.enqueue id body replyTo files with
      asked := id :: outbox.asked } := by
  have isNew : outbox.rows.any (·.clientId = id) = false := by
    rw [List.any_eq_false]
    intro row member same
    rw [decide_eq_true_eq] at same
    obtain ⟨gone, queue, -⟩ := orderly.line
    refine fresh (orderly.queued id ?_)
    rw [queuedIds_of_queued queue, ← same]
    exact List.mem_append_right _ (List.mem_map_of_mem member)
  simp only [OutboxSystem.enqueue, isNew, Bool.false_eq_true, if_false]
  exact orderly.addRow rfl rfl fresh

/-- A message that has no row goes out. -/
theorem sendDirect (orderly : Orderly outbox) {msg : Outgoing}
    (fresh : id ∉ outbox.asked) :
    Orderly { outbox.send ⟨id, msg⟩ with
      holder := .direct
      asked := id :: outbox.asked } := by
  have asked : Orderly { outbox with holder := .direct, asked := id :: outbox.asked } :=
    { orderly with
      stored := fun id member => List.mem_cons_of_mem _ (orderly.stored id member)
      queued := fun id member => List.mem_cons_of_mem _ (orderly.queued id member)
      requests := fun id request found =>
        (orderly.requests id request found).imp_left (List.mem_cons_of_mem _)
      handlers := fun id handler found =>
        (orderly.handlers id handler found).imp_left (List.mem_cons_of_mem _)
      holder := trivial }
  refine asked.send ⟨List.mem_cons_self, ?_⟩
  intro member
  exact (fresh (orderly.queued id member)).elim

/-- The first row goes, its message is stored. -/
theorem remove (orderly : Orderly outbox)
    (first : outbox.ids.head? = some id) (stored : id ∈ outbox.server.stored) :
    Orderly (outbox.remove id).release := by
  obtain ⟨gone, queue, line⟩ := orderly.line
  obtain ⟨row, rest, rows, rfl⟩ : ∃ row rest, outbox.rows = row :: rest ∧
      row.clientId = id := by
    rw [OutboxSystem.ids, List.head?_map, Option.map_eq_some_iff] at first
    obtain ⟨row, ahead, same⟩ := first
    obtain ⟨rest, rows⟩ := List.head?_eq_some_iff.mp ahead
    exact ⟨row, rest, rows, same⟩
  have queuedIds := queuedIds_of_queued queue
  have ids : outbox.ids = row.clientId :: rest.map (·.clientId) := by
    rw [OutboxSystem.ids, rows, List.map_cons]
  have distinct := orderly.distinct
  rw [queuedIds, ids] at distinct
  have apart := List.nodup_append.mp distinct
  have removed : (outbox.remove row.clientId).rows = rest := by
    have others : ∀ other ∈ rest, other.clientId ≠ row.clientId := by
      intro other member same
      exact (List.nodup_cons.mp apart.2.1).1
        (same ▸ List.mem_map_of_mem member)
    simpa [OutboxSystem.remove, rows] using others
  have queued : row.clientId ∈ outbox.queuedIds := by
    rw [queuedIds, ids]
    exact List.mem_append_right _ List.mem_cons_self
  -- Its message is the last one: the rows before it are the others.
  have sent : outbox.sent = gone.map Prod.snd ++ [row.clientId] := by
    obtain before | ⟨other, ahead, sent⟩ := line
    · have member : row.clientId ∈ outbox.sent := mem_sent.mpr ⟨stored, queued⟩
      rw [before] at member
      exact (apart.2.2 row.clientId member row.clientId List.mem_cons_self
        rfl).elim
    · rw [first, Option.some.injEq] at ahead
      rw [sent, ahead]
  have maySend {other : ClientId} (may : MaySend outbox other) :
      MaySend (outbox.remove row.clientId).release other := by
    refine ⟨may.1, fun member => Or.inl ?_⟩
    obtain before | ahead := may.2 member
    · exact before
    · rw [first, Option.some.injEq] at ahead
      exact ahead ▸ stored
  exact
    { orderly with
      line := by
        refine ⟨gone ++ [(row.ordinal, row.clientId)], ?_, Or.inl ?_⟩
        · rw [OutboxSystem.keys, OutboxSystem.release, removed, List.append_assoc]
          rw [OutboxSystem.keys, rows] at queue
          exact queue
        · rw [List.map_append]
          exact sent
      requests := fun id request found => maySend (orderly.requests id request found)
      handlers := fun id handler found => maySend (orderly.handlers id handler found)
      accepted := fun row member =>
        orderly.accepted row (List.mem_filter.mp member).1
      holder := trivial }

/-! ### What the server does -/

theorem putAnswer (orderly : Orderly outbox) {request : RequestId}
    {answer : Answer} (assured : ∀ message, answer = .ok message →
      message.clientId ∈ outbox.server.stored) :
    Orderly { outbox with answers := outbox.answers.put request answer } :=
  { orderly with
    answers := by
      intro id message found
      rw [Table.get?_put] at found
      split at found
      case isTrue =>
        cases found
        exact assured message rfl
      case isFalse => exact orderly.answers id message found }

/-- The messages that were stored stay. -/
theorem setServer (orderly : Orderly outbox) {server : Server}
    (sound : server.Sound)
    (grows : ∀ id ∈ outbox.server.stored, id ∈ server.stored)
    (stored : ∀ id ∈ server.stored, id ∈ outbox.asked)
    (line : ∃ gone, outbox.queued = gone ++ outbox.keys ∧
      (({ outbox with server } : OutboxSystem).sent = gone.map Prod.snd ∨
        ∃ id, outbox.ids.head? = some id ∧
          ({ outbox with server } : OutboxSystem).sent =
            gone.map Prod.snd ++ [id]))
    (handlers : ∀ id handler, server.handlers.get? id = some handler →
      MaySend outbox handler.request.clientId) :
    Orderly { outbox with server } := by
  have maySend {id : ClientId} (may : MaySend outbox id) :
      MaySend { outbox with server } id :=
    ⟨may.1, fun member => (may.2 member).imp_left (grows id)⟩
  have heldBy {holder : Holder} (held : HeldBy outbox holder) :
      HeldBy { outbox with server } holder := by
    cases holder with
    | free | direct => trivial
    | sender attempt stage =>
        exact ⟨held.1, fun assured => grows _ (held.2 assured)⟩
  exact
    { orderly with
      sound
      answers := fun id message found => grows _ (orderly.answers id message found)
      stored
      line
      requests := fun id request found => maySend (orderly.requests id request found)
      handlers := fun id handler found => maySend (handlers id handler found)
      accepted := fun row member isAccepted =>
        grows _ (orderly.accepted row member isAccepted)
      holder := heldBy orderly.holder }

/-- The handlers go on, the messages stay. -/
theorem setHandlers (orderly : Orderly outbox) {server : Server}
    (sound : server.Sound) (same : server.messages = outbox.server.messages)
    (handlers : ∀ id handler, server.handlers.get? id = some handler →
      MaySend outbox handler.request.clientId) :
    Orderly { outbox with server } := by
  have stored : server.stored = outbox.server.stored := by
    rw [Server.stored, same, Server.stored]
  refine orderly.setServer sound ?_ ?_ ?_ handlers
  · rw [stored]
    exact fun id member => member
  · rw [stored]
    exact orderly.stored
  · rw [OutboxSystem.sent, stored]
    exact orderly.line

/-- A message is stored: it is no row's, or the first row's. -/
theorem commit (orderly : Orderly outbox) {server : Server} {message : Message}
    (sound : server.Sound)
    (messages : server.messages = outbox.server.messages ++ [message])
    (handlers : ∀ id handler, server.handlers.get? id = some handler →
      MaySend outbox handler.request.clientId)
    (may : MaySend outbox message.clientId) :
    Orderly { outbox with server } := by
  have stored : server.stored = outbox.server.stored ++ [message.clientId] := by
    rw [Server.stored, messages, List.map_append]
    rfl
  have absent : message.clientId ∉ outbox.server.stored := by
    have once := sound.once
    rw [stored] at once
    intro member
    exact (List.nodup_append.mp once).2.2 _ member _ (List.mem_singleton_self _)
      rfl
  have sent : ({ outbox with server } : OutboxSystem).sent = outbox.sent ++
      [message.clientId].filter (· ∈ outbox.queuedIds) := by
    rw [OutboxSystem.sent, stored, List.filter_append]
    rfl
  refine orderly.setServer sound ?_ ?_ ?_ handlers
  · intro id member
    rw [stored]
    exact List.mem_append_left _ member
  · intro id member
    rw [stored, List.mem_append, List.mem_singleton] at member
    obtain before | rfl := member
    · exact orderly.stored id before
    · exact may.1
  · obtain ⟨gone, queue, line⟩ := orderly.line
    refine ⟨gone, queue, ?_⟩
    rw [sent]
    by_cases queued : message.clientId ∈ outbox.queuedIds
    · have first : outbox.ids.head? = some message.clientId :=
        (may.2 queued).resolve_left absent
      obtain before | ⟨id, ahead, all⟩ := line
      · exact Or.inr ⟨_, first, by simp [before, queued]⟩
      · rw [first, Option.some.injEq] at ahead
        have member : id ∈ outbox.sent := by
          rw [all]
          exact List.mem_append_right _ (List.mem_singleton_self id)
        exact (absent (ahead ▸ (mem_sent.mp member).1)).elim
    · simpa [queued] using line

/-- A request is handled, up to its first statement. -/
theorem receive (orderly : Orderly outbox) {request : Request} {id : RequestId}
    (may : MaySend outbox request.clientId) :
    Orderly (outbox.served id (outbox.server.receive id request)) := by
  simp only [Server.receive]
  split
  · exact orderly.putAnswer (fun _ same => by cases same)
  split
  · exact orderly.putAnswer (fun _ same => by cases same)
  · refine orderly.setHandlers (orderly.sound.keep_early (by decide)) rfl ?_
    intro other handler found
    obtain ⟨-, rfl⟩ | ⟨-, before⟩ := Server.handlers_of_keep found
    · exact may
    · exact orderly.handlers other handler before

/-- A handler ends, with an answer to what is stored. -/
theorem finish (orderly : Orderly outbox) {id : RequestId} {answer : Answer}
    (assured : ∀ message, answer = .ok message →
      message.clientId ∈ outbox.server.stored) :
    Orderly (outbox.served id (outbox.server.finish id, some answer)) := by
  have finished : Orderly { outbox with server := outbox.server.finish id } :=
    orderly.setHandlers orderly.sound.finish rfl fun other handler found =>
      orderly.handlers other handler (Server.handlers_of_finish found).2
  exact finished.putAnswer assured

theorem resume (orderly : Orderly outbox) {id : RequestId} {handler : Handler}
    {outcome : Server × Option Answer}
    (found : outbox.server.handlers.get? id = some handler)
    (resumes : Server.Resumes outbox.server id handler outcome) :
    Orderly (outbox.served id outcome) := by
  have may := orderly.handlers id handler found
  have sound := orderly.sound.resume found resumes
  cases resumes with
  | refused handler code => exact orderly.finish (fun _ same => by cases same)
  | stored handler member =>
      refine orderly.finish ?_
      rintro message ⟨⟩
      exact Server.mem_stored_of_mem member
  | went request early =>
      refine orderly.setHandlers sound rfl ?_
      intro other handler kept
      obtain ⟨-, rfl⟩ | ⟨-, before⟩ := Server.handlers_of_keep kept
      · exact may
      · exact orderly.handlers other handler before
  | inserts alone absent =>
      refine orderly.setHandlers sound rfl ?_
      intro other handler kept
      obtain ⟨-, rfl⟩ | ⟨-, before⟩ := Server.handlers_of_keep kept
      · exact may
      · exact orderly.handlers other handler before
  | commits attachable same =>
      have stored := orderly.commit sound rfl
        (fun other handler kept =>
          orderly.handlers other handler (Server.handlers_of_finish kept).2)
        (same ▸ may)
      refine stored.putAnswer ?_
      rintro message ⟨⟩
      exact Server.mem_stored_of_mem
        (List.mem_append_right _ (List.mem_singleton_self _))

end Orderly

end Brook.Outbox
