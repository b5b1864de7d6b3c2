import Brook.CallTask.Moves

namespace Brook.CallTask

namespace World

variable {kind : List Topic} (w : World)

/-! ### Parts of the task -/

/-- A part of the task is kept, and what is added is about some topics. -/
structure Keeps {α : Type} (kind : List Topic) (part : Task → α) (w later : World) : Prop where
  ended : w.task.ended = true → later.task.ended = true
  moves : w.Moves kind later
  same : part later.task = part w.task

section

variable {α : Type} {part : Task → α} {w : World} {later last : World}

theorem Keeps.refl (w : World) : Keeps kind part w w := ⟨id, .refl w, rfl⟩

theorem Keeps.trans (first : Keeps kind part w later) (second : Keeps kind part later last) :
    Keeps kind part w last where
  ended ended := second.ended (first.ended ended)
  moves := first.moves.trans second.moves
  same := second.same.trans first.same

theorem Keeps.of_moves {topics : List Topic} (moves : w.Moves topics later)
    (within : topics ⊆ kind) (ended : later.task.ended = w.task.ended)
    (same : part later.task = part w.task) : Keeps kind part w later where
  ended := by
    rw [ended]
    exact id
  moves := moves.imp within
  same := same

theorem Keeps.imp {wider : List Topic} (keeps : Keeps kind part w later)
    (within : kind ⊆ wider) : Keeps wider part w later :=
  ⟨keeps.ended, keeps.moves.imp within, keeps.same⟩

/-- Only the task changes. -/
theorem Keeps.of_task {task : Task} (ended : task.ended = w.task.ended)
    (same : part task = part w.task) : Keeps kind part w { w with task := task } :=
  .of_moves (Moves.task w task) (List.Subset.refl _) ended same

theorem Keeps.going (keeps : Keeps kind part w later) (going : later.task.ended = false) :
    w.task.ended = false := by
  cases was : w.task.ended with
  | false => rfl
  | true =>
      rw [keeps.ended was] at going
      cases going

end

/-- The call has ended; of the task only what concerns the media may have changed besides. -/
def Ended (later : World) (task : Task) : Prop :=
  ∃ status media reply, later.task = { task with
    status := status
    media := media
    mediaReply := reply
    ended := true }

theorem Ended.ended {later : World} {task : Task} (is_ended : later.Ended task) :
    later.task.ended = true := by
  obtain ⟨status, media, reply, same⟩ := is_ended
  rw [same]

/-- A handler that may end the call, and otherwise leaves the task as it says. -/
def Ends (later : World) (task : Task) : Prop := later.Ended task ∨ later.task = task

theorem Ends.going {later : World} {task : Task} (ends : later.Ends task)
    (going : ¬ later.task.ended = true) : later.task = task :=
  ends.resolve_left fun is_ended => going is_ended.ended

theorem Ends.closed {later : World} {task : Task} (ends : later.Ends task)
    (finished : later.task.ended = true) : later.Ended task := by
  rcases ends with ended | same
  · exact ended
  · rw [same] at finished
    refine ⟨task.status, task.media, task.mediaReply, ?_⟩
    rw [same, ← finished]

/-- A part that an end does not matter to. -/
theorem Keeps.of_ends {α : Type} {part : Task → α} {w later : World} {task : Task}
    {topics : List Topic} (moves : w.Moves topics later) (within : topics ⊆ kind)
    (ends : later.Ends task) (ended : task.ended = w.task.ended)
    (same : part task = part w.task)
    (ignores : ∀ (task : Task) status media reply, part { task with
      status := status
      media := media
      mediaReply := reply
      ended := true } = part task) : Keeps kind part w later := by
  rcases ends with ⟨status, media, reply, is_task⟩ | is_task
  · refine ⟨fun _ => by rw [is_task], moves.imp within, ?_⟩
    rw [is_task, ignores, same]
  · exact .of_moves moves within (by rw [is_task, ended]) (by rw [is_task, same])

/-! ### The end -/

theorem unroute_moves : w.Moves [] w.unroute ∧ w.unroute.task = w.task := by
  rw [unroute]
  split
  · exact ⟨.refl w, rfl⟩
  · exact ⟨w.note_moves rfl, rfl⟩

theorem notifyLeave_moves (tellServer : Bool) :
    w.Moves [] (w.notifyLeave tellServer) ∧ (w.notifyLeave tellServer).task = w.task := by
  rw [notifyLeave]
  split
  · exact ⟨w.notify_moves _ rfl, w.notify_task _ _⟩
  · exact ⟨.refl w, rfl⟩

theorem dismiss_moves :
    w.Moves [] w.dismiss ∧ ∃ media reply, w.dismiss.task = { w.task with
      media := media
      mediaReply := reply } := by
  rw [dismiss]
  refine ⟨.of_task ((tell_moves _ _ _).trans (tell_moves _ _ _)), ?_⟩
  rw [tell_task, tell_task]
  exact ⟨_, _, rfl⟩

theorem finish_moves (reason : EndReason) (tellServer : Bool) :
    w.Moves [] (w.finish reason tellServer) ∧ (w.finish reason tellServer).Ended w.task := by
  rw [finish]
  split
  case isTrue ended =>
    refine ⟨.refl w, w.task.status, w.task.media, w.task.mediaReply, ?_⟩
    rw [← ended]
  case isFalse =>
    generalize marked : ({ w with
      task.ended := true
      task.status := .ended reason } : World) = m
    have first : w.Moves [] m := by
      rw [← marked]
      exact .task w _
    have second := m.unroute_moves
    have third := (m.unroute.note .closed).notifyLeave_moves tellServer
    obtain ⟨fourth, media, reply, task⟩ :=
      ((m.unroute.note .closed).notifyLeave tellServer).dismiss_moves
    refine ⟨first.trans (second.1.trans ((note_moves _ rfl).trans (third.1.trans fourth))),
      .ended reason, media, reply, ?_⟩
    rw [task, third.2, note_task, second.2, ← marked]

theorem finish_ended (reason : EndReason) (tellServer : Bool) :
    (w.finish reason tellServer).task.ended = true := (w.finish_moves reason tellServer).2.ended

theorem finish_keeps {α : Type} {part : Task → α} (reason : EndReason) (tellServer : Bool)
    (ignores : ∀ (task : Task) status media reply, part { task with
      status := status
      media := media
      mediaReply := reply
      ended := true } = part task) : Keeps kind part w (w.finish reason tellServer) := by
  obtain ⟨moves, ended⟩ := w.finish_moves reason tellServer
  exact .of_ends moves (List.nil_subset _) (.inl ended) rfl rfl ignores

/-! ### ICE -/

theorem addRemote_moves (pc : PcKind) (candidate : Candidate) :
    w.Moves [.remote] (w.addRemote pc candidate) ∧ (w.addRemote pc candidate).Ends w.task := by
  have turned : w.Moves [.remote] w.turn.2 := w.turn_moves
  have same := w.turn_task
  rw [addRemote]
  split
  case h_1 message later at_turn =>
    rw [at_turn] at turned same
    have finished := (later.note (.given pc candidate)).finish_moves
      (.engineFailed message) true
    rw [note_task, same] at finished
    exact ⟨turned.trans ((note_moves _ rfl).trans finished.1.of_nil), .inl finished.2⟩
  case h_2 later at_turn =>
    rw [at_turn] at turned same
    exact ⟨turned.trans (note_moves _ rfl), .inr same⟩

theorem onRemoteCandidate_moves (pc : PcKind) (candidate : Candidate) :
    w.Moves [.remote] (w.onRemoteCandidate pc candidate) ∧
      ∃ buf, (w.onRemoteCandidate pc candidate).Ends { w.task with remoteBuf := buf } := by
  rw [onRemoteCandidate]
  dsimp only
  split
  · exact ⟨(note_moves _ rfl).and_task _, _, .inr rfl⟩
  · obtain ⟨moves, ends⟩ := (w.note (.received pc candidate)).addRemote_moves
      pc candidate
    exact ⟨(note_moves _ rfl).trans moves, w.task.remoteBuf, ends⟩

theorem flushFrom_moves (pc : PcKind) (buffered : List Candidate) :
    w.Moves [.remote] (flushFrom pc buffered w).2 ∧ (flushFrom pc buffered w).2.Ends w.task := by
  induction buffered generalizing w with
  | nil => exact ⟨.refl w, .inr rfl⟩
  | cons candidate rest ih =>
      rw [flushFrom]
      split
      · obtain ⟨moves, ends⟩ := w.addRemote_moves  pc candidate
        dsimp only
        split
        case isTrue ended => exact ⟨moves, .inl (ends.closed ended)⟩
        case isFalse going =>
          obtain ⟨later, later_ends⟩ := ih (w.addRemote pc candidate)
          have same := ends.going going
          rw [same] at later_ends
          exact ⟨moves.trans later, later_ends⟩
      · exact ⟨.refl w, .inr rfl⟩

theorem flushRemote_moves (pc : PcKind) :
    w.Moves [.remote] (w.flushRemote pc) ∧
      ∃ buf, (w.flushRemote pc).Ends { w.task with remoteBuf := buf } := by
  obtain ⟨moves, ends⟩ := w.flushFrom_moves  pc (w.task.remoteBuf pc)
  rw [flushRemote]
  cases flushed : flushFrom pc (w.task.remoteBuf pc) w with
  | mk rest later =>
      rw [flushed] at moves ends
      refine ⟨moves.and_task _, setPc w.task.remoteBuf pc rest, ?_⟩
      rcases ends with ⟨status, media, reply, same⟩ | same
      · left
        have kept : later.task = { w.task with
          status := status
          media := media
          mediaReply := reply
          ended := true } := same
        refine ⟨status, media, reply, ?_⟩
        dsimp only
        rw [kept]
      · right
        have kept : later.task = w.task := same
        dsimp only
        rw [kept]

theorem sendCandidate_moves (pc : PcKind) (candidate : Gathered) :
    w.Moves [.candidates] (w.sendCandidate pc candidate) ∧
      (w.sendCandidate pc candidate).task = w.task := by
  rw [sendCandidate]
  split
  · exact ⟨.refl w, rfl⟩
  · exact ⟨w.notify_moves _ rfl, w.notify_task _ _⟩

theorem sendCandidates_moves (candidates : List Gathered) :
    w.Moves [.candidates] (candidates.foldl (fun w candidate => w.sendCandidate .publish candidate) w) ∧
      (candidates.foldl (fun w candidate => w.sendCandidate .publish candidate) w).task =
        w.task := by
  induction candidates generalizing w with
  | nil => exact ⟨.refl w, rfl⟩
  | cons candidate rest ih =>
      obtain ⟨moves, same⟩ := w.sendCandidate_moves  .publish candidate
      obtain ⟨later, later_same⟩ := ih (w.sendCandidate .publish candidate)
      exact ⟨moves.trans later, later_same.trans same⟩

theorem onLocalCandidate_moves (pc : PcKind) (candidate : Gathered) :
    w.Moves [.candidates] (w.onLocalCandidate pc candidate) ∧
      ∃ held, (w.onLocalCandidate pc candidate).task = { w.task with pubCandidates := held } := by
  rw [onLocalCandidate]
  dsimp only
  split
  · exact ⟨(note_moves _ rfl).and_task _, _, rfl⟩
  · obtain ⟨moves, same⟩ := (w.note (.gathered pc candidate)).sendCandidate_moves  pc
      candidate
    exact ⟨(note_moves _ rfl).trans moves, _, same⟩

/-! ### Publish -/

theorem startPublishOffer_moves : w.Moves [.publish] w.startPublishOffer := by
  rw [startPublishOffer]
  refine .of_task (Moves.trans (spawn_moves _ ?_) (note_moves _ rfl))
  exact List.mem_singleton_self _

theorem releaseCandidates_moves :
    w.Moves [.candidates] w.releaseCandidates ∧
      w.releaseCandidates.task = { w.task with pubCandidates := [] } := by
  obtain ⟨moves, same⟩ := sendCandidates_moves
    { w with task.pubCandidates := [] } w.task.pubCandidates
  exact ⟨.of_task moves, same⟩

/-- An offer as it is sent. -/
def offered (seq : Nat) (offer : PublishOffer) : Outgoing :=
  ⟨.publish w.task.callId seq offer, some "call.publish.answer", w.task.generation⟩

/-- The call once its offer was taken. -/
def awaiting (seq : Nat) : World :=
  { w with task.publish := .awaitingAnswer seq }.releaseCandidates

theorem sendPublish_cases (seq : Nat) (offer : PublishOffer) :
    (w.task.connected = false ∧
        w.sendPublish seq offer = { w with task.unsentOffer := some (seq, offer) }) ∨
      (w.task.connected = true ∧ (w.submit (w.offered seq offer)).1 = .ok () ∧
        w.sendPublish seq offer = ((w.submit (w.offered seq offer)).2.awaiting seq).spawn
          (.publishAnswer w.task.generation seq)) ∨
      (w.task.connected = true ∧ (∃ err, (w.submit (w.offered seq offer)).1 = .error err) ∧
        w.sendPublish seq offer = { (w.submit (w.offered seq offer)).2 with
          task.unsentOffer := some (seq, offer) }) := by
  cases up : w.task.connected with
  | false => exact .inl ⟨rfl, by rw [sendPublish, if_pos up]⟩
  | true =>
      have submitted : w.command w.task.generation (.publish w.task.callId seq offer)
          "call.publish.answer" = w.submit (w.offered seq offer) := rfl
      have task := w.submit_task (w.offered seq offer)
      rw [sendPublish, if_neg (by rw [up]; decide), submitted]
      cases result : w.submit (w.offered seq offer) with
      | mk res later =>
          rw [result] at task
          cases res with
          | error err => exact .inr (.inr ⟨rfl, ⟨err, rfl⟩, rfl⟩)
          | ok _ =>
              refine .inr (.inl ⟨rfl, rfl, ?_⟩)
              show (later.awaiting seq).spawn (.publishAnswer later.task.generation seq) = _
              rw [show later.task = w.task from task]

/-- What becomes of an offer: its answer is awaited, or it is kept. -/
theorem sendPublish_moves (seq : Nat) (offer : PublishOffer) :
    w.Moves [.publish, .candidates] (w.sendPublish seq offer) ∧
      ∃ publish held unsent, (w.sendPublish seq offer).task = { w.task with
        publish := publish
        pubCandidates := held
        unsentOffer := unsent } := by
  rw [sendPublish]
  split
  · exact ⟨.task _ _, _, _, _, rfl⟩
  · have commanded : w.Moves [.publish, .candidates] (w.command w.task.generation
      (.publish w.task.callId seq offer) "call.publish.answer").2 := w.command_moves _ _ rfl
    have same := w.command_task w.task.generation
      (.publish w.task.callId seq offer) "call.publish.answer"
    split
    case h_1 later at_command =>
      rw [at_command] at commanded same
      obtain ⟨released, task⟩ := ({ later with
        task.publish := .awaitingAnswer seq } : World).releaseCandidates_moves
      refine ⟨commanded.trans (Moves.trans ?_ (spawn_moves _ List.mem_cons_self)),
        .awaitingAnswer seq, [], w.task.unsentOffer, ?_⟩
      · exact (Moves.of_task released).imp (by decide)
      · rw [spawn_task, task, ← same]
    case h_2 later at_command =>
      rw [at_command] at commanded same
      refine ⟨commanded.and_task _, w.task.publish, w.task.pubCandidates, some (seq, offer), ?_⟩
      rw [← same]

/-! ### Subscribe -/

theorem maybeApplyOffer_moves :
    w.Moves [.subscribe] w.maybeApplyOffer ∧
      ∃ sub, w.maybeApplyOffer.task = { w.task with sub := sub } := by
  rw [maybeApplyOffer]
  split
  · exact ⟨.of_task (spawn_moves _ (List.mem_singleton_self _)), _, rfl⟩
  · exact ⟨.refl w, _, rfl⟩

theorem sendRetainedAnswer_moves :
    w.Moves [.subscribe] w.sendRetainedAnswer ∧ w.sendRetainedAnswer.task = w.task := by
  rw [sendRetainedAnswer]
  split
  · exact ⟨.refl w, rfl⟩
  · rename_i version sdp _
    split
    · exact ⟨.refl w, rfl⟩
    · have commanded : w.Moves [.subscribe] (w.command w.task.generation
        (.subscribeAnswer w.task.callId version sdp) "call.ok").2 := w.command_moves _ _ rfl
      have same := w.command_task w.task.generation
        (.subscribeAnswer w.task.callId version sdp) "call.ok"
      split
      case h_1 later at_command =>
        rw [at_command] at commanded same
        exact ⟨commanded.trans (spawn_moves _ (List.mem_singleton_self _)), same⟩
      case h_2 later at_command =>
        rw [at_command] at commanded same
        exact ⟨commanded, same⟩

theorem onOffer_moves (version : Nat) (sdp : String) (streams : List SubStream) :
    w.Moves [.subscribe] (w.onOffer version sdp streams) ∧
      ∃ sub, (w.onOffer version sdp streams).task = { w.task with sub := sub } := by
  rw [onOffer]
  split
  · exact ⟨.refl w, _, rfl⟩
  split
  · obtain ⟨moves, same⟩ := w.sendRetainedAnswer_moves
    exact ⟨moves, _, same⟩
  split
  · exact ⟨.refl w, _, rfl⟩
  · obtain ⟨moves, sub, same⟩ := ({ w with
      task.sub.latest := some (version, sdp, streams) } : World).maybeApplyOffer_moves
    exact ⟨.of_task moves, sub, same⟩

theorem release_moves (version : Nat) :
    w.Moves [] (w.release version) ∧
      ∃ sub, (w.release version).task = { w.task with sub := sub } := by
  rw [release]
  split
  · exact ⟨.task _ _, _, rfl⟩
  · exact ⟨.refl w, _, rfl⟩

theorem onSubscribeAck_moves (version : Nat) (res : Except CommandError Unit) :
    w.Moves [] (w.onSubscribeAck version res) ∧
      ∃ sub, (w.onSubscribeAck version res).Ends { w.task with sub := sub } := by
  have kept : w.Moves [] w ∧ ∃ sub, w.Ends { w.task with sub := sub } :=
    ⟨.refl w, w.task.sub, .inr rfl⟩
  have ended (reason : EndReason) : w.Moves [] (w.finish reason true) ∧
      ∃ sub, (w.finish reason true).Ends { w.task with sub := sub } :=
    ⟨(w.finish_moves reason true).1, w.task.sub, .inl (w.finish_moves  reason true).2⟩
  unfold onSubscribeAck
  split
  · obtain ⟨moves, sub, same⟩ := ({ w with
      task.sub.acked := max w.task.sub.acked version } : World).release_moves  version
    exact ⟨.of_task moves, sub, .inr same⟩
  · split
    · obtain ⟨moves, sub, same⟩ := w.release_moves  version
      exact ⟨moves, sub, .inr same⟩
    · exact ended _
  · exact kept
  · exact kept
  · exact kept
  · exact ended _

/-! ### Media -/

/-- Only what concerns the media has changed. -/
def OnlyMedia (later : World) : Prop :=
  ∃ media reply, later.task = { w.task with
    media := media
    mediaReply := reply }

variable {w} in
theorem OnlyMedia.trans {later last : World} (first : w.OnlyMedia later)
    (second : later.OnlyMedia last) : w.OnlyMedia last := by
  obtain ⟨_, _, later_task⟩ := first
  obtain ⟨media, reply, last_task⟩ := second
  exact ⟨media, reply, by rw [last_task, later_task]⟩

variable {w} in
theorem OnlyMedia.of_eq {later : World} (same : later.task = w.task) : w.OnlyMedia later :=
  ⟨w.task.media, w.task.mediaReply, same⟩

theorem startMedia_moves (intent : Intent) :
    w.Moves [.media] (w.startMedia intent).2 ∧ (w.startMedia intent).2.task = w.task := by
  rw [startMedia]
  split
  · have commanded : w.Moves [.media] (w.command w.task.generation
      (.media w.task.callId intent.1 intent.2) "call.ok").2 := w.command_moves _ _ rfl
    have same := w.command_task w.task.generation
      (.media w.task.callId intent.1 intent.2) "call.ok"
    split
    case h_1 later at_command =>
      rw [at_command] at commanded same
      exact ⟨commanded, same⟩
    case h_2 later at_command =>
      rw [at_command] at commanded same
      exact ⟨commanded, same⟩
  · exact ⟨.refl w, rfl⟩

theorem sendMedia_moves (intent prev : Intent) (reply : Option Caller) :
    w.Moves [.media] (w.sendMedia intent prev reply) ∧
      w.OnlyMedia (w.sendMedia intent prev reply) := by
  obtain ⟨moves, same⟩ := w.startMedia_moves  intent
  rw [sendMedia]
  split
  case h_1 later at_start =>
    rw [at_start] at moves same
    exact ⟨(moves.and_task _).trans (spawn_moves _ (List.mem_singleton_self _)), _, _, by
      rw [spawn_task, ← same]⟩
  case h_2 later at_start =>
    rw [at_start] at moves same
    exact ⟨(moves.and_task _).trans (tell_moves _ _ _), _, w.task.mediaReply, by
      rw [tell_task, ← same]⟩

theorem setMedia_moves (intent : Intent) (caller : Caller) :
    w.Moves [.media] (w.setMedia intent caller) ∧ w.OnlyMedia (w.setMedia intent caller) := by
  have turned : w.Moves [.media] w.turn.2 := w.turn_moves
  have same := w.turn_task
  rw [setMedia]
  split
  · exact ⟨.of_task (tell_moves _ _ _), _, w.task.mediaReply, by rw [tell_task]⟩
  · dsimp only
    split
    case h_1 message later at_turn =>
      rw [at_turn] at turned same
      exact ⟨turned.trans (tell_moves _ _ _), .of_eq (by rw [tell_task, ← same])⟩
    case h_2 later at_turn =>
      rw [at_turn] at turned same
      obtain ⟨moves, media, reply, task⟩ := (({ later with
        task.media.engine := some intent } : World).note (.mediaSet intent)).sendMedia_moves
          intent (w.task.media.engine.getD (true, true)) (some caller)
      refine ⟨turned.trans (.of_task ((note_moves _ rfl).trans moves)), media, reply, ?_⟩
      rw [task, note_task, ← same]

theorem flushReannounce_moves :
    w.Moves [.media] w.flushReannounce ∧ w.OnlyMedia w.flushReannounce := by
  rw [flushReannounce]
  split
  · exact ⟨.refl w, .of_eq rfl⟩
  · split
    · exact w.sendMedia_moves _ _ _
    · exact ⟨.refl w, .of_eq rfl⟩

theorem reannounceMedia_moves :
    w.Moves [.media] w.reannounceMedia ∧ w.OnlyMedia w.reannounceMedia := by
  rw [reannounceMedia]
  split
  · obtain ⟨moves, media, reply, task⟩ := ({ w with
      task.media.reannounce := true } : World).flushReannounce_moves
    exact ⟨.of_task moves, media, reply, task⟩
  · exact ⟨.refl w, .of_eq rfl⟩

theorem rollBack_moves (intent prev : Intent) :
    w.Moves [.media] (w.rollBack intent prev) ∧ w.OnlyMedia (w.rollBack intent prev) := by
  have turned : w.Moves [.media] w.turn.2 := w.turn_moves
  have same := w.turn_task
  rw [rollBack]
  split
  · split
    case h_1 message later at_turn =>
      rw [at_turn] at turned same
      exact ⟨turned, .of_eq same⟩
    case h_2 later at_turn =>
      rw [at_turn] at turned same
      exact ⟨(turned.and_task _).trans (note_moves _ rfl), _, w.task.mediaReply, by
        rw [note_task, ← same]⟩
  · exact ⟨.refl w, .of_eq rfl⟩

theorem settleMedia_moves (intent prev : Intent) (res : Except CommandError Unit) :
    w.Moves [.media] (w.settleMedia intent prev res) ∧
      w.OnlyMedia (w.settleMedia intent prev res) := by
  unfold settleMedia
  dsimp only
  split
  · exact ⟨.of_task (tell_moves _ _ _), _, _, by rw [tell_task]⟩
  · obtain ⟨moves, media, reply, task⟩ := ({ w with
      task.media.inFlight := false
      task.mediaReply := none } : World).rollBack_moves intent prev
    exact ⟨.of_task (moves.trans (tell_moves _ _ _)), media, reply, by rw [tell_task, task]⟩
  · exact ⟨.of_task (tell_moves _ _ _), _, _, by rw [tell_task]⟩

theorem sendQueued_moves : w.Moves [.media] w.sendQueued ∧ w.OnlyMedia w.sendQueued := by
  rw [sendQueued]
  split
  · rename_i intent caller _
    obtain ⟨moves, media, reply, task⟩ := ({ w with
      task.media.queued := none } : World).setMedia_moves intent caller
    exact ⟨.of_task moves, media, reply, task⟩
  · exact ⟨.refl w, .of_eq rfl⟩

theorem onMediaAck_moves (intent prev : Intent) (res : Except CommandError Unit) :
    w.Moves [.media] (w.onMediaAck intent prev res) ∧
      w.OnlyMedia (w.onMediaAck intent prev res) := by
  have settled := w.settleMedia_moves intent prev res
  have queued := (w.settleMedia intent prev res).sendQueued_moves
  have flushed := (w.settleMedia intent prev res).sendQueued.flushReannounce_moves
  exact ⟨settled.1.trans (queued.1.trans flushed.1),
    settled.2.trans (queued.2.trans flushed.2)⟩

theorem resendMedia_moves : w.Moves [.media] w.resendMedia ∧ w.OnlyMedia w.resendMedia := by
  rw [resendMedia]
  split
  · dsimp only
    split
    · obtain ⟨moves, media, reply, task⟩ := ({ w with
        task.media.dirty := false } : World).sendMedia_moves _ _ none
      exact ⟨.of_task moves, media, reply, task⟩
    · exact ⟨.task _ _, _, w.task.mediaReply, rfl⟩
  · exact ⟨.refl w, .of_eq rfl⟩

/-! ### A description of the server -/

theorem onSubscribeApplied_moves (version : Nat) (streams : List SubStream) (answer : String) :
    w.Moves [.subscribe, .remote] (w.onSubscribeApplied version streams answer) ∧
      ∃ mids buf sub, (w.onSubscribeApplied version streams answer).Ends { w.task with
        appliedMids := mids
        remoteBuf := buf
        sub := sub } := by
  rw [onSubscribeApplied]
  dsimp only
  generalize noted : (({ w with
    task.appliedMids := setPc w.task.appliedMids .subscribe
      (some (streams.map SubStream.mid)) } : World).note
        (.applied .subscribe (streams.map SubStream.mid))) = m
  have first : w.Moves [.subscribe, .remote] m := by
    rw [← noted]
    exact .of_task (note_moves _ rfl)
  obtain ⟨mids, task⟩ : ∃ mids, m.task = { w.task with appliedMids := mids } := by
    rw [← noted]
    exact ⟨_, rfl⟩
  obtain ⟨flushes, buf, ends⟩ := m.flushRemote_moves .subscribe
  have flushed := first.trans (flushes.imp (by decide))
  split
  case isTrue ended =>
    have finished := ends.closed ended
    rw [task] at finished
    exact ⟨flushed, mids, buf, w.task.sub, .inl finished⟩
  case isFalse going =>
    have same := ends.going going
    rw [task] at same
    split
    · obtain ⟨moves, sub, only⟩ := (m.flushRemote .subscribe).maybeApplyOffer_moves
      refine ⟨flushed.trans (moves.imp (by decide)), mids, buf, sub, .inr ?_⟩
      rw [only, same]
    · obtain ⟨moves, only⟩ := ({ m.flushRemote .subscribe with
        task.sub.retained := some (version, answer) } : World).sendRetainedAnswer_moves
      refine ⟨flushed.trans (.of_task (moves.imp (by decide))), mids, buf,
        { w.task.sub with retained := some (version, answer) }, .inr ?_⟩
      rw [only]
      dsimp only
      rw [same]

/-- A part that the media do not matter to. -/
theorem Keeps.of_onlyMedia {α : Type} {part : Task → α} {w later : World}
    (moves : w.Moves [.media] later) (within : [.media] ⊆ kind) (only : w.OnlyMedia later)
    (ignores : ∀ (task : Task) media reply, part { task with
      media := media
      mediaReply := reply } = part task) : Keeps kind part w later := by
  obtain ⟨media, reply, task⟩ := only
  exact .of_moves moves within (by rw [task]) (by rw [task, ignores])

/-- A part that the subscriptions do not matter to. -/
theorem Keeps.of_onlySub {α : Type} {part : Task → α} {w later : World}
    (moves : w.Moves [.subscribe] later) (within : [.subscribe] ⊆ kind)
    (only : ∃ sub, later.task = { w.task with sub := sub })
    (ignores : ∀ (task : Task) sub, part { task with sub := sub } = part task) :
    Keeps kind part w later := by
  obtain ⟨sub, task⟩ := only
  exact .of_moves moves within (by rw [task]) (by rw [task, ignores])

/-! ### Leaving -/

theorem startLeave_moves :
    w.Moves [] w.startLeave.2 ∧ w.startLeave.2.task = w.task := by
  have commanded : w.Moves []
    (w.command w.task.generation (.leave w.task.callId) "call.ok").2 := w.command_moves _ _ rfl
  have same := w.command_task w.task.generation (.leave w.task.callId) "call.ok"
  rw [startLeave]
  split
  · split
    case h_1 later at_command =>
      rw [at_command] at commanded same
      exact ⟨commanded, same⟩
    case h_2 later at_command =>
      rw [at_command] at commanded same
      exact ⟨commanded, same⟩
  · exact ⟨.refl w, rfl⟩

theorem onLeave_moves (caller : Caller) :
    w.Moves [] (w.onLeave caller) ∧ (w.onLeave caller).Ended w.task := by
  obtain ⟨started, same⟩ := w.startLeave_moves
  obtain ⟨finished, status, media, reply, task⟩ :=
    w.startLeave.2.finish_moves .left (!w.startLeave.1)
  rw [onLeave]
  refine ⟨started.trans (finished.trans (tell_moves _ _ _)), status, media, reply, ?_⟩
  rw [tell_task, task, same]

/-! ### What has nothing to do with the offers, the names and the media -/

structure Ignoring {α : Type} (part : Task → α) : Prop where
  publishing : ∀ (task : Task) publish pending seq unsent held, part { task with
    publish := publish
    republishPending := pending
    pubSeq := seq
    unsentOffer := unsent
    pubCandidates := held } = part task
  named : ∀ (task : Task) callId participantId resumeToken status, part { task with
    callId := callId
    participantId := participantId
    resumeToken := resumeToken
    status := status } = part task
  sub : ∀ (task : Task) sub, part { task with sub := sub } = part task
  media : ∀ (task : Task) media reply, part { task with
    media := media
    mediaReply := reply } = part task
  ended : ∀ (task : Task) status media reply, part { task with
    status := status
    media := media
    mediaReply := reply
    ended := true } = part task

def besides : List Topic := [.publish, .subscribe, .media, .candidates, .asked]

namespace Ignoring

variable {α : Type} {part : Task → α}

theorem of_onlyMedia (ignoring : Ignoring part) {w later : World}
    (moves : w.Moves [.media] later) (only : w.OnlyMedia later) : Keeps besides part w later :=
  .of_onlyMedia moves (by decide) only ignoring.media

theorem of_onlySub (ignoring : Ignoring part) {w later : World}
    (moves : w.Moves [.subscribe] later)
    (only : ∃ sub, later.task = { w.task with sub := sub }) : Keeps besides part w later :=
  .of_onlySub moves (by decide) only ignoring.sub

theorem finish (ignoring : Ignoring part) (reason : EndReason) (tellServer : Bool) :
    Keeps besides part w (w.finish reason tellServer) := w.finish_keeps _ _ ignoring.ended

theorem tell (_ : Ignoring part) (caller : Option Caller) (answer : Answer) :
    Keeps besides part w (w.tell caller answer) :=
  .of_moves (w.tell_moves _ _) (List.Subset.refl _) (by rw [tell_task]) (by rw [tell_task])

theorem startPublishOffer (ignoring : Ignoring part) : Keeps besides part w w.startPublishOffer :=
  .of_moves w.startPublishOffer_moves (by decide) rfl (ignoring.publishing _ _ _ _ _ _)

theorem sendPublish (ignoring : Ignoring part) (seq : Nat) (offer : PublishOffer) :
    Keeps besides part w (w.sendPublish seq offer) := by
  obtain ⟨moves, publish, held, unsent, task⟩ := w.sendPublish_moves seq offer
  refine .of_moves moves (by decide) (by rw [task]) ?_
  rw [task]
  exact ignoring.publishing _ _ _ _ _ _

theorem onJoined (ignoring : Ignoring part) (data : Option Joined) :
    Keeps besides part w (w.onJoined data) := by
  cases data with
  | none => exact ignoring.finish w _ _
  | some joined =>
      have held : Keeps besides part w (w.setJoined joined) :=
        .of_moves (.of_task (note_moves _ rfl)) (List.Subset.refl _) rfl
          (ignoring.named _ _ _ _ _)
      rw [World.onJoined]
      split
      · exact held.trans (ignoring.startPublishOffer _)
      · exact held

theorem onOffer (ignoring : Ignoring part) (version : Nat) (sdp : String)
    (streams : List SubStream) : Keeps besides part w (w.onOffer version sdp streams) := by
  obtain ⟨moves, only⟩ := w.onOffer_moves version sdp streams
  exact ignoring.of_onlySub moves only

theorem onRepublish (ignoring : Ignoring part) (caller : Caller) :
    Keeps besides part w (w.onRepublish caller) := by
  have noted : Keeps besides part w (w.note .republished) :=
    .of_moves (w.note_moves rfl) (List.Subset.refl _) rfl rfl
  rw [World.onRepublish]
  split
  · exact ignoring.tell w _ _
  split
  · exact noted.trans ((ignoring.startPublishOffer _).trans (ignoring.tell _ _ _))
  · have marked : Keeps besides part (w.note .republished)
        { w.note .republished with task.republishPending := true } :=
      .of_task rfl (ignoring.publishing _ _ _ _ _ _)
    exact noted.trans (marked.trans (ignoring.tell _ _ _))

theorem onInput (ignoring : Ignoring part) (input : Input) :
    Keeps besides part w (w.onInput input) := by
  cases input with
  | localCandidate pc candidate =>
      obtain ⟨moves, held, task⟩ := w.onLocalCandidate_moves pc candidate
      refine .of_moves moves (by decide) ?_ ?_
      · rw [World.onInput, task]
      · rw [World.onInput, task]
        exact ignoring.publishing _ _ _ _ _ _
  | engineFailed message => exact ignoring.finish w _ _
  | setMedia intent caller =>
      obtain ⟨moves, only⟩ := w.setMedia_moves intent caller
      exact ignoring.of_onlyMedia moves only
  | republish caller => exact ignoring.onRepublish w caller
  | leave caller =>
      obtain ⟨moves, ended⟩ := w.onLeave_moves caller
      exact .of_ends moves (by decide) (.inl ended) rfl rfl ignoring.ended
  | handleDropped => exact ignoring.finish w _ _

theorem startPending (ignoring : Ignoring part) : Keeps besides part w w.startPending := by
  rw [World.startPending]
  split
  · exact ignoring.startPublishOffer w
  · exact .refl w

theorem restartPublish (ignoring : Ignoring part) : Keeps besides part w w.restartPublish := by
  rw [World.restartPublish]
  split
  · exact ignoring.startPublishOffer w
  · exact ignoring.startPublishOffer w
  · split
    · exact ignoring.startPublishOffer w
    · exact .refl w
  · exact .refl w

theorem resendOffer (ignoring : Ignoring part) : Keeps besides part w w.resendOffer := by
  rw [World.resendOffer]
  split
  · rename_i seq offer _
    have taken : Keeps besides part w { w with task.unsentOffer := none } :=
      .of_task rfl (ignoring.publishing _ _ _ _ _ _)
    dsimp only
    split
    · exact taken.trans (ignoring.sendPublish _ seq offer)
    · exact taken
  · exact .refl w

theorem afterResume (ignoring : Ignoring part) : Keeps besides part w w.afterResume := by
  have first := ignoring.restartPublish w
  have second := ignoring.resendOffer w.restartPublish
  obtain ⟨sub_moves, same⟩ := w.restartPublish.resendOffer.sendRetainedAnswer_moves
  have third := ignoring.of_onlySub sub_moves ⟨_, same⟩
  obtain ⟨moves, only⟩ := w.restartPublish.resendOffer.sendRetainedAnswer.resendMedia_moves
  have fourth := ignoring.of_onlyMedia moves only
  obtain ⟨last_moves, last_only⟩ :=
    w.restartPublish.resendOffer.sendRetainedAnswer.resendMedia.flushReannounce_moves
  exact first.trans (second.trans (third.trans
    (fourth.trans (ignoring.of_onlyMedia last_moves last_only))))

end Ignoring

end World

end Brook.CallTask
