import Brook.CallTask.Handlers
import Brook.Transition.Run

namespace Brook.CallTask

open Transition (run Along run_invariant)

/-! The call follows the socket, as long as the queue takes its resume and no resume is answered
after a newer socket was seen. -/

/-- What a call is joined on. -/
def Task.link (task : Task) : Nat × Bool × Bool :=
  (task.generation, task.connected, task.resuming)

def Work.isResumed : Work → Bool
  | .resumed _ => true
  | _ => false

namespace World

open Work (isResumed)

/-- The call is over, or connected on the socket that it has seen. -/
def Follows (w : World) : Prop :=
  w.task.ended = true ∨
    ((∀ work ∈ w.works, work.isResumed = false) → w.seen = true → w.conn.ready = true →
      w.task.connected = true ∧ w.task.generation = w.conn.generation)

def notResumed : List Topic := [.publish, .subscribe, .media, .remote, .candidates, .asked]

/-- What the resumes of a call that goes on stand for. -/
structure Loose (w : World) : Prop where
  behind : w.task.generation ≤ w.conn.generation
  idle : w.task.resuming = false → w.works.filter isResumed = []
  resuming : w.task.resuming = true → ∃ generation, w.works.filter isResumed =
    [.resumed generation] ∧ w.task.generation < generation ∧ generation ≤ w.conn.generation
  away : w.task.resuming = true → w.task.connected = false
  down : w.task.connected = false → w.conn ≠ ⟨w.task.generation, true⟩

/-- How far it has followed, if all came in time. -/
structure Linked (w : World) (timely : Prop) : Prop extends Loose w where
  follows : timely → w.seen = true → w.task.resuming = false → w.conn.ready = true →
    w.task.connected = true ∧ w.task.generation = w.conn.generation

variable {timely : Prop} {w later : World}

/-- What neither resumes nor connects keeps the link. -/
theorem Loose.moves (loose : w.Loose) (moves : w.Moves notResumed later)
    (same : later.task.link = w.task.link) : later.Loose := by
  obtain ⟨generation, connected, resuming⟩ : later.task.generation = w.task.generation ∧
      later.task.connected = w.task.connected ∧ later.task.resuming = w.task.resuming := by
    simpa [Task.link] using same
  obtain ⟨more, works, all⟩ := moves.works
  have none_more : more.filter isResumed = [] := by
    rw [List.filter_eq_nil_iff]
    intro work mem is_resumed
    have about := all work mem
    cases work with
    | resumed generation => simp [Work.topic, notResumed] at about
    | _ => cases is_resumed
  have resumes : later.works.filter isResumed = w.works.filter isResumed := by
    rw [works, List.filter_append, none_more, List.append_nil]
  refine ⟨?_, ?_, ?_, ?_, ?_⟩
  · rw [generation]
    exact Nat.le_trans loose.behind moves.onward.generation
  · rw [resuming, resumes]
    exact loose.idle
  · rw [resuming, resumes, generation]
    intro up
    obtain ⟨g, only, newer, known⟩ := loose.resuming up
    exact ⟨g, only, newer, Nat.le_trans known moves.onward.generation⟩
  · rw [resuming, connected]
    exact loose.away
  · rw [connected, generation]
    exact fun down => moves.onward.gone loose.behind (loose.down down)

theorem Linked.moves (linked : w.Linked timely) (moves : w.Moves notResumed later)
    (same : later.task.link = w.task.link) : later.Linked timely := by
  refine ⟨linked.toLoose.moves moves same, ?_⟩
  obtain ⟨generation, connected, resuming⟩ : later.task.generation = w.task.generation ∧
      later.task.connected = w.task.connected ∧ later.task.resuming = w.task.resuming := by
    simpa [Task.link] using same
  intro timely seen idle ready
  obtain ⟨was_seen, conn⟩ := moves.onward.seen seen
  rw [resuming] at idle
  rw [conn] at ready ⊢
  rw [connected, generation]
  exact linked.follows timely was_seen idle ready

theorem linked_of_keeps (linked : w.task.ended = false → w.Linked timely)
    (keeps : Keeps notResumed Task.link w later) :
    later.task.ended = false → later.Linked timely := by
  intro going
  exact (linked (keeps.going going)).moves keeps.moves keeps.same

/-! ### Handlers that have nothing to do with the link -/

section Keeps

/-- It keeps what the call is joined on. -/
abbrev KeepsLink (w later : World) : Prop := Keeps notResumed Task.link w later

variable (w)

theorem ignoring_link : Ignoring Task.link :=
  ⟨fun _ _ _ _ _ _ => rfl, fun _ _ _ _ _ => rfl, fun _ _ => rfl, fun _ _ _ => rfl,
    fun _ _ _ _ => rfl⟩

variable {w} in
theorem keepsLink_of_besides (keeps : Keeps besides Task.link w later) : KeepsLink w later :=
  keeps.imp (by decide)

theorem flushRemote_keepsLink (pc : PcKind) : KeepsLink w (w.flushRemote pc) := by
  obtain ⟨moves, buf, ends⟩ := w.flushRemote_moves pc
  exact .of_ends moves (by decide) ends rfl rfl ignoring_link.ended

theorem onFrame_keepsLink (frame : CallFrame) : KeepsLink w (w.onFrame frame) := by
  cases frame with
  | joined data => exact keepsLink_of_besides (ignoring_link.onJoined w data)
  | subscribeOffer version sdp streams =>
      exact keepsLink_of_besides (ignoring_link.onOffer w version sdp streams)
  | ice pc candidate =>
      cases pc with
      | none => exact .refl w
      | some pc =>
          obtain ⟨moves, buf, ends⟩ := w.onRemoteCandidate_moves pc candidate
          exact .of_ends moves (by decide) ends rfl rfl ignoring_link.ended
  | ended reason => exact keepsLink_of_besides (ignoring_link.finish w _ _)
  | other => exact .refl w

theorem onInput_keepsLink (input : Input) : KeepsLink w (w.onInput input) :=
  keepsLink_of_besides (ignoring_link.onInput w input)

theorem onPublishApplied_keepsLink (sdp : String) : KeepsLink w (w.onPublishApplied sdp) := by
  rw [onPublishApplied]
  dsimp only
  generalize noted : (({ w with
    task.appliedMids := setPc w.task.appliedMids .publish (some (midsOf sdp))
    task.publish := .stable } : World).note (.applied .publish (midsOf sdp))) = m
  have first : KeepsLink w m := by
    rw [← noted]
    exact .of_moves (.of_task (note_moves _ rfl)) (List.Subset.refl _) rfl rfl
  obtain ⟨moves, only⟩ := (m.flushRemote .publish).reannounceMedia_moves
  have announced := ignoring_link.of_onlyMedia moves only
  exact first.trans ((m.flushRemote_keepsLink .publish).trans
    (keepsLink_of_besides (announced.trans (ignoring_link.startPending _))))

theorem onSubscribeApplied_keepsLink (version : Nat) (streams : List SubStream)
    (answer : String) : KeepsLink w (w.onSubscribeApplied version streams answer) := by
  obtain ⟨moves, mids, buf, sub, ends⟩ := w.onSubscribeApplied_moves version streams answer
  exact .of_ends moves (by decide) ends rfl rfl ignoring_link.ended

theorem afterResume_keepsLink : KeepsLink w w.afterResume :=
  keepsLink_of_besides (ignoring_link.afterResume w)

end Keeps

/-! ### The connection -/

/-- A resume is due, and meets a full queue on a socket that is still there. -/
def Crowded (w : World) : Prop :=
  w.conn.ready = true ∧ w.task.generation < w.conn.generation ∧ w.turn.2.conn = w.conn ∧
    commandQueue ≤ w.turn.2.queue.length

instance (w : World) : Decidable w.Crowded := inferInstanceAs (Decidable (_ ∧ _))

/-- The call is disconnected from any socket but its own. -/
theorem loose_disconnect (loose : w.Loose) :
    (w.disconnect w.conn).Loose ∧
      ((w.disconnect w.conn).task.connected = true → w.conn = ⟨w.task.generation, true⟩) := by
  rw [disconnect]
  split
  case isTrue away =>
    refine ⟨⟨loose.behind, loose.idle, loose.resuming, fun _ => rfl, fun _ there => ?_⟩, nofun⟩
    rw [show w.conn = ⟨w.task.generation, true⟩ from there] at away
    simp at away
  case isFalse stays =>
    refine ⟨loose, fun up => ?_⟩
    simp only [up, and_true, not_or, Bool.not_eq_false, ne_eq, not_not] at stays
    cases conn : w.conn with
    | mk generation ready =>
        rw [conn] at stays
        obtain ⟨rfl, same⟩ := stays
        rw [← same]

theorem crowded_with (w : World) (task : Task) (works : List Work)
    (same : task.generation = w.task.generation) :
    ({ w with task := task, works := works } : World).Crowded ↔ w.Crowded := by
  rw [Crowded, Crowded, turn_with, same]

theorem disconnect_rest (w : World) (conn : Conn) :
    ∃ task, w.disconnect conn = { w with task := task } ∧
      task.generation = w.task.generation ∧ task.resuming = w.task.resuming := by
  rw [disconnect]
  split
  · exact ⟨_, rfl, rfl, rfl⟩
  · exact ⟨w.task, rfl, rfl, rfl⟩

/-- A resume that is due goes out, or the socket has moved on unseen. -/
theorem linked_resume (loose : w.Loose)
    (here : w.task.connected = true → w.conn = ⟨w.task.generation, true⟩)
    (room : timely → w.task.resuming = true ∨ ¬ w.Crowded) : (w.resume w.conn).Linked timely := by
  rw [resume]
  split
  case isFalse not_due =>
    refine ⟨loose, fun _ _ idle ready => ?_⟩
    have behind := loose.behind
    have same : w.task.generation = w.conn.generation := by
      by_contra apart
      exact not_due ⟨ready, by omega, idle⟩
    refine ⟨?_, same⟩
    by_contra down
    apply loose.down (by simpa using down)
    rw [same, ← ready]
  case isTrue due =>
    obtain ⟨ready, behind, idle⟩ := due
    have off : w.task.connected = false := by
      cases up : w.task.connected with
      | false => rfl
      | true =>
          rw [here up] at behind
          exact absurd behind (Nat.lt_irrefl _)
    generalize out : (⟨.resume w.task.callId w.task.participantId w.task.resumeToken,
      some "call.joined", w.conn.generation⟩ : Outgoing) = outgoing
    have own : outgoing.generation = w.conn.generation := by rw [← out]
    have there : (⟨outgoing.generation, true⟩ : Conn) = w.conn := by rw [own, ← ready]
    have moves : w.Moves notResumed (w.submit outgoing).2 := w.submit_moves outgoing (by rw [← out]; rfl)
    have later := loose.moves moves (by rw [submit_task])
    simp only [command, out]
    rcases w.submit_cases outgoing with ⟨ok, conn, same⟩ | ⟨error, conn, same⟩ | ⟨busy, conn, full⟩
    · split
      case h_2 at_submit => rw [at_submit] at ok; cases ok
      case h_1 after at_submit =>
        rw [at_submit] at later same
        have task : after.task = w.task := by
          have kept := w.submit_task outgoing
          rwa [at_submit] at kept
        have after_conn : after.conn = w.conn := by
          rw [← there, ← conn]
          exact same
        refine ⟨⟨?_, nofun, fun _ => ⟨w.conn.generation, ?_, ?_, ?_⟩, fun _ => ?_, ?_⟩,
          fun _ => nofun⟩
        · exact later.behind
        · have none_yet := later.idle (by rw [task]; exact idle)
          rw [spawn, List.filter_append]
          rw [show after.works.filter isResumed = [] from none_yet]
          rfl
        · rw [show after.task.generation = w.task.generation by rw [task]]
          exact behind
        · exact Nat.le_of_eq (congrArg Conn.generation after_conn.symm)
        · rw [spawn_task]
          show after.task.connected = false
          rw [task]
          exact off
        · exact later.down
    · split
      case h_1 at_submit => rw [at_submit] at error; cases error
      case h_2 after at_submit =>
        rw [at_submit] at later same moves
        refine ⟨later, fun _ seen => ?_⟩
        have kept := (moves.onward.seen seen).2
        apply absurd _ conn
        rw [there, ← kept]
        exact same.symm
    · split
      case h_1 at_submit => rw [at_submit] at busy; cases busy
      case h_2 after at_submit =>
        rw [at_submit] at later
        refine ⟨later, fun timely => ?_⟩
        rw [there] at conn
        have crowded : w.Crowded := ⟨ready, behind, conn, full⟩
        rcases room timely with up | not_full
        · rw [up] at idle
          cases idle
        · exact absurd crowded not_full

/-- Looking at the connection catches up with it, unless the resume is crowded out. -/
theorem linked_onConn (loose : w.Loose)
    (room : timely → w.task.resuming = true ∨ ¬ w.Crowded) (going : w.task.ended = false) :
    (w.onConn w.conn).Linked timely := by
  obtain ⟨task, same, generation, resuming⟩ := w.disconnect_rest w.conn
  have disconnected := loose_disconnect loose
  rw [onConn, if_neg (by rw [going]; exact Bool.false_ne_true)]
  rw [same] at disconnected ⊢
  refine linked_resume (w := { w with task := task }) disconnected.1 ?_ ?_
  · rw [generation]
    exact disconnected.2
  · intro timely
    rcases room timely with up | not_full
    · exact .inl (by rw [resuming]; exact up)
    · exact .inr fun crowded => not_full ((crowded_with w task w.works generation).mp crowded)

/-! ### Steps -/

/-- The task's work goes away with its result. -/
theorem Linked.erase (linked : w.Linked timely) {work : Work}
    (other : work.isResumed = false) (fates : List Fate) :
    ({ w with
      fates := fates
      works := w.works.erase work } : World).Linked timely := by
  have kept : (w.works.erase work).filter isResumed = w.works.filter isResumed := by
    rw [← List.erase_filter]
    apply List.erase_of_not_mem
    intro mem
    rw [(List.mem_filter.mp mem).2] at other
    cases other
  refine ⟨⟨linked.behind, ?_, ?_, linked.away, linked.down⟩, linked.follows⟩
  · rw [kept]
    exact linked.idle
  · rw [kept]
    exact linked.resuming

/-- The results that concern the link are those of resumes. -/
theorem onDone_keepsLink (w : World) {done : Done} (other : done.work.isResumed = false) :
    KeepsLink w (w.onDone done) := by
  cases done with
  | publishOffer seq res =>
      simp only [onDone]
      split
      · exact .refl w
      · cases res with
        | ok offer => exact keepsLink_of_besides (ignoring_link.sendPublish w seq offer)
        | error message => exact keepsLink_of_besides (ignoring_link.finish w _ _)
  | publishAnswer generation seq res =>
      simp only [onDone]
      split
      · exact .refl w
      · cases res with
        | ok sdp => exact 
            .of_moves (.of_task (spawn_moves _ List.mem_cons_self)) (List.Subset.refl _) rfl rfl
        | error err =>
            dsimp only
            split
            · exact .of_task rfl rfl
            · exact keepsLink_of_besides (ignoring_link.finish w _ _)
  | publishApplied seq sdp res =>
      simp only [onDone]
      split
      · exact .refl w
      · cases res with
        | ok _ => exact w.onPublishApplied_keepsLink sdp
        | error message => exact keepsLink_of_besides (ignoring_link.finish w _ _)
  | subscribeApplied seq version streams res =>
      simp only [onDone]
      split
      · exact .refl w
      · have taken : KeepsLink w { w with task.sub.applying := none } :=
          .of_task rfl rfl
        cases res with
        | ok answer => exact taken.trans (onSubscribeApplied_keepsLink _ version streams answer)
        | error message => exact taken.trans (keepsLink_of_besides (ignoring_link.finish _ _ _))
  | subscribeAck generation version res =>
      obtain ⟨moves, sub, ends⟩ := w.onSubscribeAck_moves version res
      exact .of_ends moves (by decide) ends rfl rfl fun _ _ _ _ => rfl
  | resumed generation res => cases other
  | mediaAck generation intent prev res =>
      obtain ⟨moves, only⟩ := w.onMediaAck_moves intent prev res
      exact keepsLink_of_besides (ignoring_link.of_onlyMedia moves only)

/-- The resume that was answered. -/
theorem Loose.resumed (loose : w.Loose) {generation : Nat}
    (out : .resumed generation ∈ w.works) :
    w.task.resuming = true ∧ w.task.generation < generation ∧
      generation ≤ w.conn.generation ∧
      (w.works.erase (.resumed generation)).filter isResumed = [] := by
  have mem : .resumed generation ∈ w.works.filter isResumed := List.mem_filter.mpr ⟨out, rfl⟩
  have up : w.task.resuming = true := by
    by_contra idle
    rw [loose.idle (by simpa using idle)] at mem
    exact List.not_mem_nil mem
  obtain ⟨only, works, newer, known⟩ := loose.resuming up
  rw [works, List.mem_singleton] at mem
  cases mem
  refine ⟨up, newer, known, ?_⟩
  rw [← List.erase_filter, works, List.erase_cons_head]

/-- What the call can count on: a resume that is due finds room, and one that succeeded is
told before a newer socket is seen. -/
def InTime (w : World) : Action → Prop
  | .observe fates =>
      w.task.resuming = true ∨ ¬ ({ w with
        seen := true
        fates := fates } : World).Crowded
  | .done (.resumed generation (.ok _)) _ =>
      w.seen = true → w.conn.ready = true → w.conn.generation = generation
  | .done (.resumed _ (.error (.rejected _ _))) _ => True
  | .done (.resumed _ (.error _)) fates => ¬ ({ w with fates := fates } : World).Crowded
  | _ => True

/-- A resume that failed leaves the call to the socket as it is now. -/
theorem linked_retry (loose : w.Loose) {generation : Nat}
    (out : .resumed generation ∈ w.works) (going : w.task.ended = false) (fates : List Fate)
    (room : timely → ¬ ({ w with fates := fates } : World).Crowded) :
    (({ w with
      task.resuming := false
      fates := fates
      works := w.works.erase (.resumed generation) } : World).onConn w.conn).Linked timely := by
  obtain ⟨up, newer, known, none_left⟩ := loose.resumed out
  refine linked_onConn (w := { w with
    task.resuming := false
    fates := fates
    works := w.works.erase (.resumed generation) }) ?_ ?_ going
  · exact ⟨loose.behind, fun _ => none_left, nofun, nofun, loose.down⟩
  · refine fun timely => .inr fun crowded => room timely ?_
    exact (crowded_with { w with fates := fates } { w.task with resuming := false }
      (w.works.erase (.resumed generation)) rfl).mp crowded

theorem linked_onResumed (loose : w.Loose) {generation : Nat}
    {res : Except CommandError Unit} {fates : List Fate} (out : .resumed generation ∈ w.works)
    (going : w.task.ended = false)
    (guarded : timely → w.InTime (.done (.resumed generation res) fates)) :
    let later := ({ w with
      fates := fates
      works := w.works.erase (.resumed generation) } : World).onResumed generation res
    later.task.ended = false → later.Linked timely := by
  obtain ⟨up, newer, known, none_left⟩ := loose.resumed out
  cases res with
  | ok _ =>
      refine linked_of_keeps (fun _ => ?_) (afterResume_keepsLink _)
      refine ⟨⟨known, fun _ => none_left, nofun, nofun, nofun⟩, fun timely seen _ ready => ⟨rfl, ?_⟩⟩
      exact (guarded timely seen ready).symm
  | error err =>
      cases err with
      | rejected code message =>
          intro later still
          have ended : later.task.ended = true := by
            show (World.onResumed _ generation (.error (.rejected code message))).task.ended = true
            rw [onResumed]
            dsimp only
            split
            · exact finish_ended _ _ _
            · exact finish_ended _ _ _
          rw [ended] at still
          cases still
      | notSent => exact fun _ => linked_retry loose out going fates guarded
      | unknown => exact fun _ => linked_retry loose out going fates guarded
      | timeout => exact fun _ => linked_retry loose out going fates guarded
      | unexpectedReply => exact fun _ => linked_retry loose out going fates guarded
      | tooLarge => exact fun _ => linked_retry loose out going fates guarded
      | busy => exact fun _ => linked_retry loose out going fates guarded

theorem step_linked {w next : World} {action : Action}
    (linked : w.task.ended = false → w.Linked timely) (guarded : timely → w.InTime action)
    (stepped : w.step action = some next) :
    next.task.ended = false → next.Linked timely := by
  cases action with
  | transport t =>
      cases stepped
      exact linked_of_keeps linked (.of_moves (w.transport_moves t) (List.Subset.refl _)
        (by rw [(w.transport_rest t).1]) (by rw [(w.transport_rest t).1]))
  | observe fates =>
      simp only [step] at stepped
      split at stepped
      case isFalse => cases stepped
      case isTrue due =>
        cases stepped
        intro _
        have loose := (linked due.1).toLoose
        refine linked_onConn (w := { w with
          seen := true
          fates := fates }) ?_ guarded due.1
        exact ⟨loose.behind, loose.idle, loose.resuming, loose.away, loose.down⟩
  | frame frame fates =>
      simp only [step] at stepped
      split at stepped
      case isFalse => cases stepped
      case isTrue going =>
        cases stepped
        have fated : KeepsLink w { w with fates := fates } :=
          .of_moves (.fates w fates) (List.Subset.refl _) rfl rfl
        exact linked_of_keeps linked (fated.trans (onFrame_keepsLink _ frame))
  | input input fates =>
      simp only [step] at stepped
      split at stepped
      case isFalse => cases stepped
      case isTrue due =>
        cases stepped
        have fated : KeepsLink w { w with fates := fates } :=
          .of_moves (.fates w fates) (List.Subset.refl _) rfl rfl
        exact linked_of_keeps linked (fated.trans (onInput_keepsLink _ input))
  | done done fates =>
      simp only [step] at stepped
      split at stepped
      case isFalse => cases stepped
      case isTrue due =>
        cases stepped
        obtain ⟨going, out, -⟩ := due
        cases other : done.work.isResumed with
        | false =>
            refine linked_of_keeps (fun _ => ?_) (onDone_keepsLink _ other)
            exact (linked going).erase other fates
        | true =>
            cases done with
            | resumed generation res =>
                exact linked_onResumed (linked going).toLoose out going guarded
            | _ => cases other
  | sessionChanged =>
      simp only [step] at stepped
      split at stepped
      case isFalse => cases stepped
      case isTrue going =>
        cases stepped
        exact linked_of_keeps linked (keepsLink_of_besides (ignoring_link.finish w _ _))

theorem start_linked (generation : Nat) (publishWanted : Bool) :
    (start generation publishWanted).Linked timely :=
  ⟨⟨Nat.le_refl _, fun _ => rfl, nofun, nofun, nofun⟩, fun _ => nofun⟩

/-- Every call is over or connected on the socket that it has seen, once no resume is out, in
every run that keeps the resumes in time. -/
theorem follows_of_inTime (generation : Nat) (publishWanted : Bool) (actions : List Action)
    {w : World} (inTime : Along step InTime (start generation publishWanted) actions)
    (ran : run step (start generation publishWanted) actions = some w) : w.Follows := by
  have linked : w.task.ended = false → w.Linked True :=
    run_invariant (fun linked guarded => step_linked linked fun _ => guarded)
      (fun _ => start_linked generation publishWanted) inTime ran
  cases going : w.task.ended with
  | true => exact .inl going
  | false =>
      right
      intro none_out seen ready
      have linked := linked going
      refine linked.follows trivial seen ?_ ready
      by_contra up
      obtain ⟨g, works, -⟩ := linked.resuming (by simpa using up)
      have out : .resumed g ∈ w.works.filter isResumed := by
        rw [works]
        exact List.mem_singleton_self _
      have is_resumed := none_out _ (List.mem_filter.mp out).1
      cases is_resumed

/-- The socket is lost, and the call resumed on the next one. -/
def reconnecting : List Action :=
  [.frame (.joined (some ⟨"c", "p", "t"⟩)) [], .observe [], .transport .drop, .observe [],
    .transport .ready, .observe [], .done (.resumed 2 (.ok ())) []]

theorem follows_of_inTime_reconnecting :
    ∃ w, run step (start 1 true) reconnecting = some w ∧ w.Follows := by
  refine ⟨_, rfl, follows_of_inTime 1 true reconnecting ?_ rfl⟩
  refine ⟨trivial, .inr ?_, trivial, .inr ?_, trivial, .inr ?_, fun _ _ => ?_, trivial⟩
  · decide +kernel
  · decide +kernel
  · decide +kernel
  · rfl

/-- The resume on the second socket is told when the third one was seen. -/
def overtaken : List Action :=
  [.frame (.joined (some ⟨"c", "p", "t"⟩)) [], .observe [], .transport .drop,
    .transport .ready, .observe [], .transport .drop, .transport .ready, .observe [],
    .done (.resumed 2 (.ok ())) []]

theorem call_left_behind :
    ¬ ∀ (generation : Nat) (publishWanted : Bool) (actions : List Action) (w : World),
      run step (start generation publishWanted) actions = some w → w.Follows := by
  intro claimed
  have follows := claimed 1 false overtaken _ rfl
  rcases follows with ended | follows
  · cases ended
  · have behind := (follows (by decide +kernel) rfl rfl).2
    cases behind

end World

end Brook.CallTask
