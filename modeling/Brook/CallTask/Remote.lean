import Brook.CallTask.Handlers
import Brook.Transition.Run

namespace Brook.CallTask

/-! The remote candidates of a connection reach the engine in order, each with its media section
described. -/

/-- The part of a list before one of its members, when the list was appended to. -/
theorem append_split {α : Type} {log more front back : List α} {event : α}
    (split : log ++ more = front ++ event :: back) :
    (∃ mid, log = front ++ event :: mid ∧ back = mid ++ more) ∨
      ∃ mid, front = log ++ mid ∧ more = mid ++ event :: back := by
  rcases List.append_eq_append_iff.mp split with ⟨mid, is_front, is_more⟩ | ⟨mid, is_log, is_back⟩
  · exact .inr ⟨mid, is_front, is_more⟩
  · cases mid with
    | nil =>
        rw [List.append_nil] at is_log
        exact .inr ⟨[], by rw [is_log, List.append_nil], is_back.symm⟩
    | cons first mid =>
        rw [List.cons_append, List.cons.injEq] at is_back
        obtain ⟨rfl, rfl⟩ := is_back
        exact .inl ⟨mid, is_log, rfl⟩

/-! ### What the log says of a connection -/

def Event.receivedOn (pc : PcKind) : Event → Option Candidate
  | .received of candidate => if of = pc then some candidate else none
  | _ => none

def Event.givenTo (pc : PcKind) : Event → Option Candidate
  | .given of candidate => if of = pc then some candidate else none
  | _ => none

def Event.appliedTo (pc : PcKind) : Event → Option (List String)
  | .applied of mids => if of = pc then some mids else none
  | _ => none

/-- The remote candidates of a connection, as they came. -/
def receivedOn (pc : PcKind) (log : List Event) : List Candidate :=
  log.filterMap (Event.receivedOn pc)

/-- Those that the engine was given. -/
def givenTo (pc : PcKind) (log : List Event) : List Candidate :=
  log.filterMap (Event.givenTo pc)

/-- The media sections of the description that was applied last. -/
def described (pc : PcKind) (log : List Event) : Option (List String) :=
  (log.filterMap (Event.appliedTo pc)).getLast?

def Task.remote (task : Task) :
    (PcKind → Option (List String)) × (PcKind → List Candidate) :=
  (task.appliedMids, task.remoteBuf)

@[simp] theorem setPc_same {α : Type} (of : PcKind → α) (pc : PcKind) (value : α) :
    setPc of pc value pc = value := if_pos rfl

theorem setPc_other {α : Type} (of : PcKind → α) {pc other : PcKind} (value : α)
    (apart : other ≠ pc) : setPc of pc value other = of other := if_neg apart

theorem setPc_self {α : Type} (of : PcKind → α) (pc : PcKind) : setPc of pc (of pc) = of := by
  funext other
  by_cases same : other = pc
  · rw [same, setPc_same]
  · exact setPc_other of _ same

theorem setPc_setPc {α : Type} (of : PcKind → α) (pc : PcKind) (first second : α) :
    setPc (setPc of pc first) pc second = setPc of pc second := by
  funext other
  by_cases same : other = pc
  · rw [same, setPc_same, setPc_same]
  · rw [setPc_other _ _ same, setPc_other _ _ same, setPc_other _ _ same]

namespace World

/-- Candidates keep their order and wait for their description. -/
structure Relayed (w : World) : Prop where
  in_order : ∀ pc, givenTo pc w.log <+: receivedOn pc w.log
  described : ∀ front back pc candidate, w.log = front ++ .given pc candidate :: back →
    ∃ mids, described pc front = some mids ∧ fits mids candidate = true
  waits : ∀ pc candidate rest, w.task.remoteBuf pc = candidate :: rest →
    w.task.applicable pc candidate = false

/-- What is under way for the engine, besides what it was given. -/
structure Relaying (w : World) (buf : PcKind → List Candidate) : Prop where
  mids : ∀ pc, CallTask.described pc w.log = w.task.appliedMids pc
  whole : w.task.ended = false → ∀ pc, givenTo pc w.log ++ buf pc = receivedOn pc w.log
  in_order : ∀ pc, givenTo pc w.log <+: receivedOn pc w.log
  described : ∀ front back pc candidate, w.log = front ++ .given pc candidate :: back →
    ∃ mids, CallTask.described pc front = some mids ∧ fits mids candidate = true

/-- The first candidate that waits has no media section yet. -/
def Waits (w : World) (buf : PcKind → List Candidate) : Prop :=
  ∀ pc candidate rest, buf pc = candidate :: rest → w.task.applicable pc candidate = false

def notRemote : List Topic := [.publish, .subscribe, .resumed, .media, .candidates, .asked]

abbrev KeepsRemote (w later : World) : Prop := Keeps notRemote Task.remote w later

variable {w later : World} {buf : PcKind → List Candidate}

/-- Other events say nothing of it. -/
theorem silent_remote {more : List Event}
    (about : ∀ event ∈ more, event.topic.all (· ∈ notRemote) = true) (pc : PcKind) :
    more.filterMap (Event.receivedOn pc) = [] ∧ more.filterMap (Event.givenTo pc) = [] ∧
      more.filterMap (Event.appliedTo pc) = [] := by
  simp only [List.filterMap_eq_nil_iff]
  refine ⟨fun event mem => ?_, fun event mem => ?_, fun event mem => ?_⟩
  all_goals
    have topic := about event mem
    cases event with
    | received _ _ => cases topic
    | given _ _ => cases topic
    | applied _ _ => cases topic
    | _ => rfl

theorem Relaying.keeps (relaying : w.Relaying buf) (keeps : KeepsRemote w later) :
    later.Relaying buf := by
  obtain ⟨more, log, about⟩ := keeps.moves.log
  have same := keeps.same
  simp only [Task.remote, Prod.mk.injEq] at same
  have silent := silent_remote about
  have received (pc : PcKind) : receivedOn pc later.log = receivedOn pc w.log := by
    rw [log, receivedOn, List.filterMap_append, (silent pc).1, List.append_nil, receivedOn]
  have given (pc : PcKind) : givenTo pc later.log = givenTo pc w.log := by
    rw [log, givenTo, List.filterMap_append, (silent pc).2.1, List.append_nil, givenTo]
  refine ⟨fun pc => ?_, fun going pc => ?_, fun pc => ?_, fun front back pc candidate split => ?_⟩
  · rw [same.1, ← relaying.mids pc, log, CallTask.described, List.filterMap_append,
      (silent pc).2.2, List.append_nil, CallTask.described]
  · rw [given, received]
    exact relaying.whole (keeps.going going) pc
  · rw [given, received]
    exact relaying.in_order pc
  · rw [log] at split
    rcases append_split split with ⟨mid, is_log, -⟩ | ⟨mid, -, is_more⟩
    · exact relaying.described front mid pc candidate is_log
    · have mem : .given pc candidate ∈ more := by
        rw [is_more]
        exact List.mem_append_right _ List.mem_cons_self
      cases about _ mem

theorem Waits.keeps (waits : w.Waits buf) (keeps : KeepsRemote w later) : later.Waits buf := by
  have same := keeps.same
  simp only [Task.remote, Prod.mk.injEq] at same
  intro pc candidate rest first
  rw [Task.applicable, same.1]
  exact waits pc candidate rest first

theorem ignoring_remote : Ignoring Task.remote :=
  ⟨fun _ _ _ _ _ _ => rfl, fun _ _ _ _ _ => rfl, fun _ _ => rfl, fun _ _ _ => rfl,
    fun _ _ _ _ => rfl⟩

theorem keepsRemote_of_besides (keeps : Keeps besides Task.remote w later) :
    KeepsRemote w later := keeps.imp (by decide)

/-! ### What the engine is given -/

theorem mids_of_applicable {task : Task} {pc : PcKind} {candidate : Candidate}
    (applicable : task.applicable pc candidate = true) :
    ∃ mids, task.appliedMids pc = some mids ∧ fits mids candidate = true := by
  rw [Task.applicable] at applicable
  split at applicable
  · cases applicable
  · rename_i mids at_mids
    exact ⟨mids, at_mids, applicable⟩

theorem given_relaying {pc : PcKind} {candidate : Candidate} {rest : List Candidate}
    (relaying : w.Relaying (setPc buf pc (candidate :: rest))) (going : w.task.ended = false)
    (applicable : w.task.applicable pc candidate = true) :
    (w.note (.given pc candidate)).Relaying (setPc buf pc rest) := by
  have given (other : PcKind) : givenTo other (w.note (.given pc candidate)).log =
      givenTo other w.log ++ if pc = other then [candidate] else [] := by
    rw [note, givenTo, List.filterMap_append, givenTo]
    by_cases same : pc = other
    · simp [Event.givenTo, same]
    · simp [Event.givenTo, same]
  have received (other : PcKind) : receivedOn other (w.note (.given pc candidate)).log =
      receivedOn other w.log := by
    rw [note, receivedOn, List.filterMap_append, receivedOn]
    exact List.append_nil _
  have whole (other : PcKind) : givenTo other (w.note (.given pc candidate)).log ++
      setPc buf pc rest other = receivedOn other w.log := by
    rw [given, ← relaying.whole going other]
    by_cases same : pc = other
    · rw [if_pos same, ← same, setPc_same, setPc_same, List.append_assoc]
      rfl
    · rw [if_neg same, setPc_other _ _ (Ne.symm same), setPc_other _ _ (Ne.symm same),
        List.append_nil]
  refine ⟨fun other => ?_, fun _ other => ?_, fun other => ?_, fun front back of c split => ?_⟩
  · rw [note_task, ← relaying.mids other, note, CallTask.described, List.filterMap_append,
      CallTask.described]
    exact congrArg List.getLast? (List.append_nil _)
  · rw [received, whole]
  · rw [received, ← whole other]
    exact List.prefix_append _ _
  · rcases append_split split with ⟨mid, is_log, -⟩ | ⟨mid, is_front, is_last⟩
    · exact relaying.described front mid of c is_log
    · cases mid with
      | nil =>
          rw [List.nil_append, List.cons.injEq, Event.given.injEq] at is_last
          obtain ⟨⟨rfl, rfl⟩, -⟩ := is_last
          rw [is_front, List.append_nil, relaying.mids]
          exact mids_of_applicable applicable
      | cons first mid => simp at is_last

theorem addRemote_relaying {pc : PcKind} {candidate : Candidate} {rest : List Candidate}
    (relaying : w.Relaying (setPc buf pc (candidate :: rest))) (going : w.task.ended = false)
    (applicable : w.task.applicable pc candidate = true) :
    (w.addRemote pc candidate).Relaying (setPc buf pc rest) := by
  have turned : KeepsRemote w w.turn.2 :=
    .of_moves w.turn_moves (List.Subset.refl _) (by rw [turn_task]) (by rw [turn_task])
  have task := w.turn_task
  have given := given_relaying (relaying.keeps turned) (by rw [task]; exact going)
    (by rw [task]; exact applicable)
  rw [addRemote]
  split
  case h_1 message later at_turn =>
    rw [at_turn] at given
    exact given.keeps (keepsRemote_of_besides (ignoring_remote.finish _ _ _))
  case h_2 later at_turn =>
    rw [at_turn] at given
    exact given

theorem addRemote_mids (pc : PcKind) (candidate : Candidate) :
    (w.addRemote pc candidate).task.appliedMids = w.task.appliedMids ∧
      (w.addRemote pc candidate).task.remoteBuf = w.task.remoteBuf := by
  rcases (w.addRemote_moves pc candidate).2 with ⟨status, media, reply, same⟩ | same
  · rw [same]
    exact ⟨rfl, rfl⟩
  · rw [same]
    exact ⟨rfl, rfl⟩

/-- What is left after a flush waits for another description. -/
theorem flushFrom_relaying (pc : PcKind) (buffered : List Candidate)
    (relaying : w.Relaying (setPc buf pc buffered)) (going : w.task.ended = false) :
    (flushFrom pc buffered w).2.Relaying (setPc buf pc (flushFrom pc buffered w).1) ∧
      (∀ candidate rest, (flushFrom pc buffered w).1 = candidate :: rest →
        w.task.applicable pc candidate = false) ∧
      (flushFrom pc buffered w).2.task.appliedMids = w.task.appliedMids ∧
      (flushFrom pc buffered w).2.task.remoteBuf = w.task.remoteBuf := by
  induction buffered generalizing w with
  | nil => exact ⟨relaying, fun _ _ left => (by cases left), rfl, rfl⟩
  | cons candidate rest ih =>
      rw [flushFrom]
      split
      case isFalse not_yet =>
        refine ⟨relaying, fun first others is => ?_, rfl, rfl⟩
        cases is
        simpa using not_yet
      case isTrue applicable =>
        have added := addRemote_relaying relaying going applicable
        obtain ⟨mids, kept⟩ := w.addRemote_mids pc candidate
        dsimp only
        split
        case isTrue ended =>
          refine ⟨⟨added.mids, fun still => ?_, added.in_order, added.described⟩,
            fun _ _ left => (by cases left), mids, kept⟩
          rw [show (w.addRemote pc candidate).task.ended = false from still] at ended
          cases ended
        case isFalse still =>
          obtain ⟨later, waits, later_mids, later_kept⟩ := ih added (by simpa using still)
          refine ⟨later, fun first others is => ?_, later_mids.trans mids, later_kept.trans kept⟩
          have waiting := waits first others is
          rwa [Task.applicable, mids] at waiting

/-- Candidates flow as they should. -/
structure Flows (w : World) : Prop where
  relaying : w.Relaying w.task.remoteBuf
  waits : w.Waits w.task.remoteBuf

theorem Flows.keeps (flows : w.Flows) (keeps : KeepsRemote w later) : later.Flows := by
  have same := keeps.same
  simp only [Task.remote, Prod.mk.injEq] at same
  refine ⟨?_, ?_⟩
  · rw [same.2]
    exact flows.relaying.keeps keeps
  · rw [same.2]
    exact flows.waits.keeps keeps

theorem Flows.besides (flows : w.Flows) (keeps : Keeps besides Task.remote w later) :
    later.Flows := flows.keeps (keepsRemote_of_besides keeps)

theorem flushRemote_flows (pc : PcKind) (relaying : w.Relaying w.task.remoteBuf)
    (others : ∀ other candidate rest, other ≠ pc →
      w.task.remoteBuf other = candidate :: rest → w.task.applicable other candidate = false)
    (going : w.task.ended = false) : (w.flushRemote pc).Flows := by
  rw [← setPc_self w.task.remoteBuf pc] at relaying
  obtain ⟨later, waits, mids, kept⟩ := flushFrom_relaying pc _ relaying going
  rw [flushRemote]
  generalize flushFrom pc (w.task.remoteBuf pc) w = flushed at *
  obtain ⟨rest, last⟩ := flushed
  dsimp only at *
  refine ⟨⟨later.mids, fun still => ?_, later.in_order, later.described⟩,
    fun other candidate others_rest first => ?_⟩
  · dsimp only
    rw [kept]
    exact later.whole still
  · dsimp only at first
    rw [kept] at first
    rw [Task.applicable, mids]
    by_cases same : other = pc
    · rw [same, setPc_same] at first
      rw [same]
      exact waits candidate others_rest first
    · rw [setPc_other _ _ same] at first
      exact others other candidate others_rest same first

/-- A description that was applied. -/
theorem applied_relaying (pc : PcKind) (mids : List String) (task : Task)
    (relaying : w.Relaying buf) (ended : task.ended = w.task.ended)
    (applied : task.appliedMids = setPc w.task.appliedMids pc (some mids)) :
    (({ w with task := task } : World).note (.applied pc mids)).Relaying buf := by
  have received (other : PcKind) :
      receivedOn other (({ w with task := task } : World).note (.applied pc mids)).log =
        receivedOn other w.log := by
    rw [note, receivedOn, List.filterMap_append, receivedOn]
    exact List.append_nil _
  have given (other : PcKind) :
      givenTo other (({ w with task := task } : World).note (.applied pc mids)).log =
        givenTo other w.log := by
    rw [note, givenTo, List.filterMap_append, givenTo]
    exact List.append_nil _
  refine ⟨fun other => ?_, fun going other => ?_, fun other => ?_, fun front back of c split => ?_⟩
  · rw [note_task, applied, note, CallTask.described, List.filterMap_append]
    by_cases same : other = pc
    · simp [Event.appliedTo, same]
    · have mids := relaying.mids other
      rw [CallTask.described] at mids
      simp [Event.appliedTo, Ne.symm same, setPc_other _ _ same, mids]
  · rw [given, received]
    exact relaying.whole (by rw [← ended]; exact going) other
  · rw [given, received]
    exact relaying.in_order other
  · rcases append_split split with ⟨mid, is_log, -⟩ | ⟨mid, -, is_last⟩
    · exact relaying.described front mid of c is_log
    · cases mid with
      | nil => cases is_last
      | cons first mid => simp at is_last

/-- What waits for the other connection still does. -/
theorem Flows.others (flows : w.Flows) (pc : PcKind) (mids : List String) (task : Task)
    (applied : task.appliedMids = setPc w.task.appliedMids pc (some mids))
    (kept : task.remoteBuf = w.task.remoteBuf) :
    ∀ other candidate rest, other ≠ pc →
      task.remoteBuf other = candidate :: rest → task.applicable other candidate = false := by
  intro other candidate rest apart first
  rw [kept] at first
  rw [Task.applicable, applied, setPc_other _ _ apart]
  exact flows.waits other candidate rest first

theorem received_relaying (relaying : w.Relaying buf) (pc : PcKind) (candidate : Candidate) :
    (w.note (.received pc candidate)).Relaying (setPc buf pc (buf pc ++ [candidate])) := by
  have received (other : PcKind) : receivedOn other (w.note (.received pc candidate)).log =
      receivedOn other w.log ++ if pc = other then [candidate] else [] := by
    rw [note, receivedOn, List.filterMap_append, receivedOn]
    by_cases same : pc = other
    · simp [Event.receivedOn, same]
    · simp [Event.receivedOn, same]
  have given (other : PcKind) : givenTo other (w.note (.received pc candidate)).log =
      givenTo other w.log := by
    rw [note, givenTo, List.filterMap_append, givenTo]
    exact List.append_nil _
  refine ⟨fun other => ?_, fun going other => ?_, fun other => ?_, fun front back of c split => ?_⟩
  · rw [note_task, ← relaying.mids other, note, CallTask.described, List.filterMap_append,
      CallTask.described]
    exact congrArg List.getLast? (List.append_nil _)
  · rw [given, received, ← relaying.whole going other]
    by_cases same : pc = other
    · rw [if_pos same, ← same, setPc_same, List.append_assoc]
    · rw [if_neg same, setPc_other _ _ (Ne.symm same), List.append_nil]
  · rw [given, received]
    exact (relaying.in_order other).trans (List.prefix_append _ _)
  · rcases append_split split with ⟨mid, is_log, -⟩ | ⟨mid, -, is_last⟩
    · exact relaying.described front mid of c is_log
    · cases mid with
      | nil => cases is_last
      | cons first mid => simp at is_last

theorem onRemoteCandidate_flows (flows : w.Flows) (going : w.task.ended = false) (pc : PcKind)
    (candidate : Candidate) : (w.onRemoteCandidate pc candidate).Flows := by
  have received := received_relaying flows.relaying pc candidate
  rw [onRemoteCandidate]
  dsimp only
  split
  case isTrue waits =>
    refine ⟨⟨received.mids, received.whole, received.in_order, received.described⟩,
      fun other first rest is => ?_⟩
    dsimp only at is
    by_cases same : other = pc
    · rw [same, setPc_same] at is
      rw [same]
      cases before : w.task.remoteBuf pc with
      | nil =>
          rw [show (w.note (.received pc candidate)).task.remoteBuf pc = [] from before] at is waits
          cases is
          exact waits.resolve_left fun some => some rfl
      | cons head tail =>
          rw [show (w.note (.received pc candidate)).task.remoteBuf pc = head :: tail
            from before] at is
          cases is
          exact flows.waits pc first tail before
    · rw [setPc_other _ _ same] at is
      exact flows.waits other first rest is
  case isFalse direct =>
    simp only [not_or, ne_eq, not_not, Bool.not_eq_false] at direct
    obtain ⟨empty, applicable⟩ := direct
    have none_waits : w.task.remoteBuf pc = [] := empty
    rw [none_waits, List.nil_append] at received
    have added := addRemote_relaying received going applicable
    obtain ⟨mids, kept⟩ := (w.note (.received pc candidate)).addRemote_mids pc candidate
    have unchanged : setPc w.task.remoteBuf pc [] = w.task.remoteBuf := by
      rw [← none_waits, setPc_self]
    rw [unchanged] at added
    refine ⟨?_, fun other first rest is => ?_⟩
    · rw [kept]
      exact added
    · rw [kept] at is
      rw [Task.applicable, mids]
      exact flows.waits other first rest is

/-! ### Steps -/

theorem Flows.same (flows : w.Flows) (log : later.log = w.log) (task : later.task = w.task) :
    later.Flows := by
  refine ⟨⟨?_, ?_, ?_, ?_⟩, ?_⟩
  · rw [log, task]
    exact flows.relaying.mids
  · rw [log, task]
    exact flows.relaying.whole
  · rw [log]
    exact flows.relaying.in_order
  · rw [log]
    exact flows.relaying.described
  · rw [Waits, task]
    exact flows.waits

theorem onPublishApplied_flows (flows : w.Flows) (going : w.task.ended = false) (sdp : String) :
    (w.onPublishApplied sdp).Flows := by
  rw [onPublishApplied]
  dsimp only
  have relaying := applied_relaying .publish (midsOf sdp) { w.task with
    appliedMids := setPc w.task.appliedMids .publish (some (midsOf sdp))
    publish := .stable } flows.relaying rfl rfl
  have others := flows.others .publish (midsOf sdp) { w.task with
    appliedMids := setPc w.task.appliedMids .publish (some (midsOf sdp))
    publish := .stable } rfl rfl
  have flushed := flushRemote_flows .publish relaying others going
  obtain ⟨moves, only⟩ := reannounceMedia_moves (flushRemote _ .publish)
  have announced := flushed.besides (ignoring_remote.of_onlyMedia moves only)
  exact announced.besides (ignoring_remote.startPending _)

theorem onSubscribeApplied_flows (flows : w.Flows) (going : w.task.ended = false)
    (version : Nat) (streams : List SubStream) (answer : String) :
    (w.onSubscribeApplied version streams answer).Flows := by
  rw [onSubscribeApplied]
  dsimp only
  generalize at_mids : streams.map SubStream.mid = mids
  have relaying := applied_relaying .subscribe mids { w.task with
    appliedMids := setPc w.task.appliedMids .subscribe (some mids) } flows.relaying rfl rfl
  have others := flows.others .subscribe mids { w.task with
    appliedMids := setPc w.task.appliedMids .subscribe (some mids) } rfl rfl
  have flushed := flushRemote_flows .subscribe relaying others going
  split
  case isTrue => exact flushed
  case isFalse =>
    split
    case isTrue =>
      obtain ⟨moves, only⟩ := maybeApplyOffer_moves (flushRemote _ .subscribe)
      exact flushed.besides (ignoring_remote.of_onlySub moves only)
    case isFalse =>
      refine Flows.besides ?_ (ignoring_remote.of_onlySub (sendRetainedAnswer_moves _).1
        ⟨_, (sendRetainedAnswer_moves _).2⟩)
      exact flushed.besides (.of_task rfl (ignoring_remote.sub _ _))

theorem onConn_keepsRemote (w : World) (conn : Conn) : KeepsRemote w (w.onConn conn) := by
  have disconnected : KeepsRemote w (w.disconnect conn) := by
    rw [disconnect]
    split
    · exact .of_task rfl rfl
    · exact .refl w
  have resumed (w : World) : KeepsRemote w (w.resume conn) := by
    rw [resume]
    split
    · have commanded : w.Moves notRemote (w.command conn.generation
          (.resume w.task.callId w.task.participantId w.task.resumeToken) "call.joined").2 :=
        w.command_moves _ _ rfl
      have same := w.command_task conn.generation
        (.resume w.task.callId w.task.participantId w.task.resumeToken) "call.joined"
      split
      case h_1 later at_command =>
        rw [at_command] at commanded same
        have kept : later.task = w.task := same
        refine .of_moves ((commanded.and_task _).trans (spawn_moves _ ?_)) (List.Subset.refl _)
          (by rw [← kept]; rfl) (by rw [← kept]; rfl)
        simp [Work.topic, notRemote]
      case h_2 later at_command =>
        rw [at_command] at commanded same
        have kept : later.task = w.task := same
        exact .of_moves commanded (List.Subset.refl _) (by rw [kept]) (by rw [kept])
    · exact .refl w
  rw [onConn]
  split
  · exact .refl w
  · exact disconnected.trans (resumed _)

theorem onResumed_keepsRemote (w : World) (generation : Nat) (res : Except CommandError Unit) :
    KeepsRemote w (w.onResumed generation res) := by
  have idle : KeepsRemote w { w with task.resuming := false } := .of_task rfl rfl
  have retried : KeepsRemote w (({ w with task.resuming := false } : World).onConn w.conn) :=
    idle.trans (onConn_keepsRemote _ _)
  have finished (reason : EndReason) :
      KeepsRemote w (({ w with task.resuming := false } : World).finish reason false) :=
    idle.trans (keepsRemote_of_besides (ignoring_remote.finish _ _ _))
  cases res with
  | ok _ =>
      have connected : KeepsRemote w { w with
          task.resuming := false
          task.generation := generation
          task.connected := true
          task.status := .connected } := .of_task rfl rfl
      exact connected.trans (keepsRemote_of_besides (ignoring_remote.afterResume _))
  | error err =>
      cases err with
      | rejected code message =>
          rw [onResumed]
          dsimp only
          split
          · exact finished _
          · exact finished _
      | notSent => exact retried
      | unknown => exact retried
      | timeout => exact retried
      | unexpectedReply => exact retried
      | tooLarge => exact retried
      | busy => exact retried

theorem onDone_flows (flows : w.Flows) (going : w.task.ended = false) (done : Done) :
    (w.onDone done).Flows := by
  have finished (reason : EndReason) : (w.finish reason true).Flows :=
    flows.besides (ignoring_remote.finish w _ _)
  cases done with
  | publishOffer seq res =>
      simp only [onDone]
      split
      · exact flows
      · cases res with
        | ok offer => exact flows.besides (ignoring_remote.sendPublish w seq offer)
        | error message => exact finished _
  | publishAnswer generation seq res =>
      simp only [onDone]
      split
      · exact flows
      · cases res with
        | ok sdp =>
            have applying : KeepsRemote w (({ w with
                task.publish := .applyingAnswer seq } : World).spawn (.publishApplied seq sdp)) :=
              .of_moves (.of_task (spawn_moves _ List.mem_cons_self)) (List.Subset.refl _) rfl rfl
            exact flows.keeps applying
        | error err =>
            dsimp only
            split
            · exact flows.keeps (.of_task rfl rfl)
            · exact finished _
  | publishApplied seq sdp res =>
      simp only [onDone]
      split
      · exact flows
      · cases res with
        | ok _ => exact onPublishApplied_flows flows going sdp
        | error message => exact finished _
  | subscribeApplied seq version streams res =>
      simp only [onDone]
      split
      · exact flows
      · have taken : Flows { w with task.sub.applying := none } :=
          flows.keeps (.of_task rfl rfl)
        cases res with
        | ok answer => exact onSubscribeApplied_flows taken going version streams answer
        | error message => exact taken.besides (ignoring_remote.finish _ _ _)
  | subscribeAck generation version res =>
      obtain ⟨moves, sub, ends⟩ := w.onSubscribeAck_moves version res
      exact flows.keeps (.of_ends moves (by decide) ends rfl rfl ignoring_remote.ended)
  | resumed generation res => exact flows.keeps (onResumed_keepsRemote w generation res)
  | mediaAck generation intent prev res =>
      obtain ⟨moves, only⟩ := w.onMediaAck_moves intent prev res
      exact flows.besides (ignoring_remote.of_onlyMedia moves only)

theorem onFrame_flows (flows : w.Flows) (going : w.task.ended = false) (frame : CallFrame) :
    (w.onFrame frame).Flows := by
  cases frame with
  | joined data => exact flows.besides (ignoring_remote.onJoined w data)
  | subscribeOffer version sdp streams =>
      exact flows.besides (ignoring_remote.onOffer w version sdp streams)
  | ice pc candidate =>
      cases pc with
      | none => exact flows
      | some pc => exact onRemoteCandidate_flows flows going pc candidate
  | ended reason => exact flows.besides (ignoring_remote.finish w _ _)
  | other => exact flows

theorem step_flows {w next : World} {action : Action} (flows : w.Flows)
    (stepped : w.step action = some next) : next.Flows := by
  cases action with
  | transport t =>
      cases stepped
      exact flows.same (w.transport_rest t).2.2 (w.transport_rest t).1
  | observe fates =>
      simp only [step] at stepped
      split at stepped
      case isFalse => cases stepped
      case isTrue =>
        cases stepped
        have seen : Flows { w with
          seen := true
          fates := fates } := flows.same rfl rfl
        exact seen.keeps (onConn_keepsRemote _ _)
  | frame frame fates =>
      simp only [step] at stepped
      split at stepped
      case isFalse => cases stepped
      case isTrue going =>
        cases stepped
        have fated : Flows { w with fates := fates } := flows.same rfl rfl
        exact onFrame_flows fated going frame
  | input input fates =>
      simp only [step] at stepped
      split at stepped
      case isFalse => cases stepped
      case isTrue =>
        cases stepped
        have fated : Flows { w with fates := fates } := flows.same rfl rfl
        exact fated.besides (ignoring_remote.onInput _ input)
  | done done fates =>
      simp only [step] at stepped
      split at stepped
      case isFalse => cases stepped
      case isTrue due =>
        cases stepped
        have taken : Flows { w with
          fates := fates
          works := w.works.erase done.work } := flows.same rfl rfl
        exact onDone_flows taken due.1 done
  | sessionChanged =>
      simp only [step] at stepped
      split at stepped
      case isFalse => cases stepped
      case isTrue =>
        cases stepped
        exact flows.besides (ignoring_remote.finish w _ _)

theorem start_flows (generation : Nat) (publishWanted : Bool) :
    (start generation publishWanted).Flows := by
  refine ⟨⟨fun _ => rfl, fun _ _ => rfl, fun _ => List.prefix_refl _, ?_⟩, nofun⟩
  intro front back pc candidate split
  cases front with
  | nil => cases split
  | cons first front => cases split

theorem Flows.relayed (flows : w.Flows) : w.Relayed :=
  ⟨flows.relaying.in_order, flows.relaying.described, flows.waits⟩

/-- In every run the remote candidates of each connection reach the engine in order, once, and
with their media section described; the first that waits has none yet. -/
theorem remote_candidates_relayed (generation : Nat) (publishWanted : Bool)
    (actions : List Action) {w : World}
    (ran : Transition.run step (start generation publishWanted) actions = some w) : w.Relayed :=
  (Transition.run_invariant_of_step (fun flows stepped => step_flows flows stepped)
    (start_flows generation publishWanted) ran).relayed

def firstSection : Candidate := some ⟨"a", some "0", none⟩

def secondSection : Candidate := some ⟨"b", some "1", none⟩

/-- Two candidates come before the description; it has the section of the first one only. -/
def early : List Action :=
  [.frame (.joined (some ⟨"c", "p", "t"⟩)) [], .frame (.ice (some .subscribe) firstSection) [],
    .frame (.ice (some .subscribe) secondSection) [],
    .frame (.subscribeOffer 1 "" [⟨"0", "q", .audio, .mic⟩]) [],
    .done (.subscribeApplied 1 1 [⟨"0", "q", .audio, .mic⟩] (.ok "")) []]

theorem remote_candidates_relayed_early :
    ∃ w, Transition.run step (start 1 true) early = some w ∧ w.Relayed ∧
      givenTo .subscribe w.log = [firstSection] ∧
      w.task.remoteBuf .subscribe = [secondSection] :=
  ⟨_, rfl, remote_candidates_relayed 1 true early rfl, rfl, rfl⟩

end World

end Brook.CallTask
