import Brook.CallTask.Task

namespace Brook.CallTask

/-! What every handler leaves as it is: the connection only moves on, work and events are only
added, and each handler has its own topics. -/

/-- What work and events are about. -/
inductive Topic
  | publish
  | subscribe
  | resumed
  | media
  | remote
  | candidates
  | asked
deriving DecidableEq

def Work.topic : Work → Topic
  | .publishOffer _ => .publish
  | .publishAnswer _ _ => .publish
  | .publishApplied _ _ => .publish
  | .subscribeApplied _ _ _ => .subscribe
  | .subscribeAck _ _ => .subscribe
  | .resumed _ => .resumed
  | .mediaAck _ _ _ => .media

def Frame.topic : Frame → Option Topic
  | .publish _ _ _ => some .publish
  | .ice _ _ _ => some .candidates
  | .media _ _ _ => some .media
  | _ => none

/-- Some events are of no matter here. -/
def Event.topic : Event → Option Topic
  | .joined => some .asked
  | .republished => some .asked
  | .received _ _ => some .remote
  | .applied _ _ => some .remote
  | .given _ _ => some .remote
  | .offering _ => some .publish
  | .gathered _ _ => some .candidates
  | .submitted frame _ => frame.topic
  | .mediaSet _ => some .media
  | .answered _ _ => none
  | .unrouted _ => none
  | .closed => none

namespace World

/-- A socket that went away does not come back, and a change is not seen by itself. -/
structure Onward (w later : World) : Prop where
  generation : w.conn.generation ≤ later.conn.generation
  down : later.conn.generation = w.conn.generation → later.conn.ready = true →
    w.conn.ready = true
  broken : later.conn.generation = w.conn.generation → later.conn.ready = true →
    later.broken = false → w.broken = false
  seen : later.seen = true → w.seen = true ∧ later.conn = w.conn

/-- First in, first out: what leaves the queue is written or dropped, and what is added is about
some topics. -/
def Fifo (kind : List Topic) (w later : World) : Prop :=
  ∃ more gone passed, w.queue ++ more = gone ++ later.queue ∧
    later.written = w.written ++ passed ∧ passed.Sublist gone ∧
    ∀ out ∈ more, out.frame.topic.all (· ∈ kind) = true

/-- What is added is about some topics. -/
structure Moves (kind : List Topic) (w later : World) : Prop where
  onward : w.Onward later
  works : ∃ more, later.works = w.works ++ more ∧ ∀ work ∈ more, work.topic ∈ kind
  log : ∃ more, later.log = w.log ++ more ∧
    ∀ event ∈ more, event.topic.all (· ∈ kind) = true
  queue : w.Fifo kind later

variable {kind : List Topic} {w later last : World}

theorem Onward.refl (w : World) : w.Onward w where
  generation := Nat.le_refl _
  down _ ready := ready
  broken _ _ whole := whole
  seen seen := ⟨seen, rfl⟩

theorem Onward.trans (first : w.Onward later) (second : later.Onward last) : w.Onward last where
  generation := Nat.le_trans first.generation second.generation
  down same ready := by
    have before := first.generation
    have after := second.generation
    exact first.down (by omega) (second.down (by omega) ready)
  broken same ready whole := by
    have before := first.generation
    have after := second.generation
    have mid := second.down (by omega) ready
    exact first.broken (by omega) mid (second.broken (by omega) ready whole)
  seen seen := by
    obtain ⟨later_seen, last_conn⟩ := second.seen seen
    obtain ⟨w_seen, later_conn⟩ := first.seen later_seen
    exact ⟨w_seen, last_conn.trans later_conn⟩

/-- A socket that is not what a command was made for will not be it again. -/
theorem Onward.gone (onward : w.Onward later) {generation : Nat}
    (before : generation ≤ w.conn.generation)
    (gone : w.conn ≠ ⟨generation, true⟩) : later.conn ≠ ⟨generation, true⟩ := by
  intro back
  have grown := onward.generation
  rw [back] at grown
  apply gone
  have same : w.conn.generation = generation := Nat.le_antisymm grown before
  have ready := onward.down (by rw [back, same]) (by rw [back])
  cases conn : w.conn with
  | mk number up =>
      rw [conn] at same ready
      cases same
      cases ready
      rfl

/-- The socket is there for what was made for it. -/
def Up (w : World) (generation : Nat) : Prop := w.conn = ⟨generation, true⟩ ∧ w.broken = false

/-- A socket that is not there for it will not be again. -/
theorem Onward.not_up (onward : w.Onward later) {generation : Nat}
    (before : generation ≤ w.conn.generation) (gone : ¬ w.Up generation) :
    ¬ later.Up generation := by
  rintro ⟨conn, whole⟩
  by_cases there : w.conn = ⟨generation, true⟩
  · exact gone ⟨there, onward.broken (by rw [conn, there]) (by rw [conn]) whole⟩
  · exact onward.gone before there conn

theorem Fifo.same (queue : later.queue = w.queue) (written : later.written = w.written) :
    w.Fifo kind later := by
  refine ⟨[], [], [], ?_, ?_, List.Sublist.refl _, fun _ mem => absurd mem List.not_mem_nil⟩
  · rw [queue, List.append_nil, List.nil_append]
  · rw [written, List.append_nil]

theorem Fifo.trans (first : w.Fifo kind later) (second : later.Fifo kind last) :
    w.Fifo kind last := by
  obtain ⟨more, gone, passed, later_queue, later_written, within, about⟩ := first
  obtain ⟨yet, left, also, last_queue, last_written, also_within, also_about⟩ := second
  refine ⟨more ++ yet, gone ++ left, passed ++ also, ?_, ?_, within.append also_within, ?_⟩
  · rw [← List.append_assoc, later_queue, List.append_assoc, last_queue, List.append_assoc]
  · rw [last_written, later_written, List.append_assoc]
  · intro out mem
    rcases List.mem_append.mp mem with mem | mem
    · exact about out mem
    · exact also_about out mem

/-- What is added at the end. -/
theorem Fifo.push (queue : ∃ out : Outgoing, later.queue = w.queue ++ [out] ∧
      out.frame.topic.all (· ∈ kind) = true)
    (written : later.written = w.written) : w.Fifo kind later := by
  obtain ⟨out, queue, about⟩ := queue
  refine ⟨[out], [], [], by rw [queue, List.nil_append], by rw [written, List.append_nil],
    List.Sublist.refl _, fun other mem => ?_⟩
  rw [List.mem_singleton.mp mem]
  exact about

theorem all_within {wider : List Topic} (within : kind ⊆ wider) {topic : Option Topic}
    (about : topic.all (· ∈ kind) = true) : topic.all (· ∈ wider) = true := by
  cases topic with
  | none => rfl
  | some topic =>
      simp only [Option.all_some, decide_eq_true_eq] at about ⊢
      exact within about

theorem Fifo.imp {wider : List Topic} (fifo : w.Fifo kind later) (within : kind ⊆ wider) :
    w.Fifo wider later := by
  obtain ⟨more, gone, passed, queue, written, sublist, about⟩ := fifo
  exact ⟨more, gone, passed, queue, written, sublist,
    fun out mem => all_within within (about out mem)⟩

theorem Moves.of_same (onward : w.Onward later) (works : later.works = w.works)
    (log : later.log = w.log) (queue : w.Fifo kind later) : w.Moves kind later where
  onward := onward
  works := ⟨[], by rw [works, List.append_nil], fun _ mem => absurd mem List.not_mem_nil⟩
  log := ⟨[], by rw [log, List.append_nil], fun _ mem => absurd mem List.not_mem_nil⟩
  queue := queue

theorem Moves.refl (w : World) : w.Moves kind w := .of_same (.refl w) rfl rfl (.same rfl rfl)

theorem Moves.trans (first : w.Moves kind later) (second : later.Moves kind last) :
    w.Moves kind last where
  onward := first.onward.trans second.onward
  works := by
    obtain ⟨more, later_works, first_kind⟩ := first.works
    obtain ⟨yet, last_works, second_kind⟩ := second.works
    refine ⟨more ++ yet, by rw [last_works, later_works, List.append_assoc], ?_⟩
    intro work mem
    rcases List.mem_append.mp mem with mem | mem
    · exact first_kind work mem
    · exact second_kind work mem
  log := by
    obtain ⟨more, later_log, first_kind⟩ := first.log
    obtain ⟨yet, last_log, second_kind⟩ := second.log
    refine ⟨more ++ yet, by rw [last_log, later_log, List.append_assoc], ?_⟩
    intro event mem
    rcases List.mem_append.mp mem with mem | mem
    · exact first_kind event mem
    · exact second_kind event mem
  queue := first.queue.trans second.queue

theorem Moves.imp {wider : List Topic} (moves : w.Moves kind later) (within : kind ⊆ wider) :
    w.Moves wider later where
  onward := moves.onward
  works := by
    obtain ⟨more, works, all⟩ := moves.works
    exact ⟨more, works, fun work mem => within (all work mem)⟩
  log := by
    obtain ⟨more, log, all⟩ := moves.log
    exact ⟨more, log, fun event mem => all_within within (all event mem)⟩
  queue := moves.queue.imp within

theorem Moves.of_nil (moves : w.Moves [] later) : w.Moves kind later :=
  moves.imp (List.nil_subset _)

/-- Work on other topics does not come by itself. -/
theorem Moves.mem_iff (moves : w.Moves kind later) {work : Work} (other : work.topic ∉ kind) :
    work ∈ later.works ↔ work ∈ w.works := by
  obtain ⟨more, works, all⟩ := moves.works
  rw [works, List.mem_append]
  refine ⟨fun mem => mem.resolve_right fun added => other (all work added), .inl⟩

theorem Onward.same (conn : later.conn = w.conn) (broken : later.broken = w.broken)
    (seen : later.seen = w.seen) : w.Onward later where
  generation := by rw [conn]
  down _ ready := by rwa [conn] at ready
  broken _ _ whole := by rwa [broken] at whole
  seen up := ⟨by rwa [seen] at up, conn⟩

/-- Only the task changes. -/
theorem Moves.task (w : World) (task : Task) : w.Moves kind { w with task := task } :=
  .of_same (.same rfl rfl rfl) rfl rfl (.same rfl rfl)

/-- What will happen meanwhile is of no matter. -/
theorem Moves.fates (w : World) (fates : List Fate) : w.Moves kind { w with fates := fates } :=
  .of_same (.same rfl rfl rfl) rfl rfl (.same rfl rfl)

/-- The task may change besides. -/
theorem Moves.and_task (moves : w.Moves kind later) (task : Task) :
    w.Moves kind { later with task := task } :=
  moves.trans (.task later task)

theorem Moves.of_task {task : Task} (moves : { w with task := task }.Moves kind later) :
    w.Moves kind later :=
  (Moves.task w task).trans moves

/-! ### The transport -/

theorem write_onward (w : World) (small : Bool) : w.Onward (w.write small) := by
  rw [write]
  split
  · exact .refl w
  · split
    · exact .same rfl rfl rfl
    · exact .same rfl rfl rfl

theorem transport_onward (w : World) (t : Transport) : w.Onward (w.transport t) := by
  cases t with
  | fail =>
      refine ⟨Nat.le_refl _, fun _ ready => ready, fun _ ready whole => ?_, fun seen => ⟨seen, rfl⟩⟩
      have down : w.conn.ready = false := whole
      rw [show w.conn.ready = true from ready] at down
      cases down
  | drop => exact ⟨Nat.le_refl _, nofun, nofun, nofun⟩
  | ready =>
      exact ⟨Nat.le_succ _, fun same => absurd same (Nat.succ_ne_self _),
        fun same => absurd same (Nat.succ_ne_self _), nofun⟩
  | write small => exact w.write_onward small
  | foreign =>
      rw [transport]
      split
      · exact .same rfl rfl rfl
      · exact .refl w

theorem write_rest (w : World) (small : Bool) :
    (w.write small).task = w.task ∧ (w.write small).works = w.works ∧
      (w.write small).log = w.log := by
  rw [write]
  split
  · exact ⟨rfl, rfl, rfl⟩
  · split
    · exact ⟨rfl, rfl, rfl⟩
    · exact ⟨rfl, rfl, rfl⟩

theorem transport_rest (w : World) (t : Transport) :
    (w.transport t).task = w.task ∧ (w.transport t).works = w.works ∧
      (w.transport t).log = w.log := by
  cases t with
  | fail => exact ⟨rfl, rfl, rfl⟩
  | drop => exact ⟨rfl, rfl, rfl⟩
  | ready => exact ⟨rfl, rfl, rfl⟩
  | write small => exact w.write_rest small
  | foreign =>
      rw [transport]
      split
      · exact ⟨rfl, rfl, rfl⟩
      · exact ⟨rfl, rfl, rfl⟩

theorem write_fifo (w : World) (small : Bool) : w.Fifo kind (w.write small) := by
  rw [write]
  split
  case h_1 => exact .same rfl rfl
  case h_2 out queue at_queue =>
    split
    · exact ⟨[], [out], [out], by rw [at_queue, List.append_nil]; rfl, rfl,
        List.Sublist.refl _, fun _ mem => absurd mem List.not_mem_nil⟩
    · exact ⟨[], [out], [], by rw [at_queue, List.append_nil]; rfl, (List.append_nil _).symm,
        List.nil_sublist _, fun _ mem => absurd mem List.not_mem_nil⟩

theorem transport_fifo (w : World) (t : Transport) : w.Fifo kind (w.transport t) := by
  cases t with
  | fail => exact .same rfl rfl
  | drop => exact .same rfl rfl
  | ready => exact .same rfl rfl
  | write small => exact w.write_fifo small
  | foreign =>
      rw [transport]
      split
      · exact .push ⟨_, rfl, rfl⟩ rfl
      · exact .same rfl rfl

theorem transport_moves (w : World) (t : Transport) : w.Moves kind (w.transport t) :=
  .of_same (w.transport_onward t) (w.transport_rest t).2.1 (w.transport_rest t).2.2
    (w.transport_fifo t)

theorem transports_moves (w : World) (events : List Transport) :
    w.Moves [] (events.foldl transport w) ∧ (events.foldl transport w).task = w.task := by
  induction events generalizing w with
  | nil => exact ⟨.refl w, rfl⟩
  | cons t rest ih =>
      obtain ⟨moves, task⟩ := ih (w.transport t)
      exact ⟨(w.transport_moves t).trans moves, task.trans (w.transport_rest t).1⟩

theorem turn_moves (w : World) : w.Moves kind w.turn.2 := by
  rw [turn]
  split
  · exact .refl w
  · rename_i fate fates _
    have popped : w.Moves kind { w with fates := fates } := .fates w fates
    exact popped.trans (transports_moves { w with fates := fates } fate.meanwhile).1.of_nil

@[simp] theorem turn_task (w : World) : w.turn.2.task = w.task := by
  rw [turn]
  split
  · rfl
  · rename_i fate fates _
    exact (transports_moves { w with fates := fates } fate.meanwhile).2

/-- The transport knows nothing of the task or of its work. -/
theorem transport_with (w : World) (task : Task) (works : List Work) (t : Transport) :
    ({ w with task := task, works := works } : World).transport t =
      { w.transport t with task := task, works := works } := by
  cases t with
  | fail => rfl
  | drop => rfl
  | ready => rfl
  | write small =>
      obtain ⟨_, conn, broken, seen, queue, written, _, fates, log⟩ := w
      cases queue with
      | nil => rfl
      | cons out rest =>
          simp only [transport, write]
          split
          · rfl
          · rfl
  | foreign =>
      simp only [transport]
      split
      · rfl
      · rfl

theorem transports_with (w : World) (task : Task) (works : List Work)
    (events : List Transport) :
    events.foldl transport { w with task := task, works := works } =
      { events.foldl transport w with task := task, works := works } := by
  induction events generalizing w with
  | nil => rfl
  | cons t rest ih => rw [List.foldl_cons, transport_with, ih, List.foldl_cons]

theorem turn_with (w : World) (task : Task) (works : List Work) :
    ({ w with task := task, works := works } : World).turn =
      (w.turn.1, { w.turn.2 with task := task, works := works }) := by
  obtain ⟨_, conn, broken, seen, queue, written, _, fates, log⟩ := w
  cases fates with
  | nil => rfl
  | cons fate fates =>
      simp only [turn]
      rw [← transports_with]

/-! ### Commands, work and answers -/

@[simp] theorem note_task (w : World) (event : Event) : (w.note event).task = w.task := rfl

theorem note_moves (w : World) {event : Event}
    (about : event.topic.all (· ∈ kind) = true) : w.Moves kind (w.note event) where
  onward := .same rfl rfl rfl
  works := ⟨[], (List.append_nil _).symm, fun _ mem => absurd mem List.not_mem_nil⟩
  log := by
    refine ⟨[event], rfl, fun other mem => ?_⟩
    rw [List.mem_singleton.mp mem]
    exact about
  queue := .same rfl rfl

@[simp] theorem spawn_task (w : World) (work : Work) : (w.spawn work).task = w.task := rfl

theorem spawn_moves (w : World) {work : Work} (about : work.topic ∈ kind) :
    w.Moves kind (w.spawn work) where
  onward := .same rfl rfl rfl
  works := by
    refine ⟨[work], rfl, fun other mem => ?_⟩
    rw [List.mem_singleton.mp mem]
    exact about
  log := ⟨[], (List.append_nil _).symm, fun _ mem => absurd mem List.not_mem_nil⟩
  queue := .same rfl rfl

@[simp] theorem tell_task (w : World) (caller : Option Caller) (answer : Answer) :
    (w.tell caller answer).task = w.task := by
  cases caller with
  | none => rfl
  | some caller => rfl

theorem tell_moves (w : World) (caller : Option Caller) (answer : Answer) :
    w.Moves kind (w.tell caller answer) := by
  cases caller with
  | none => exact .refl w
  | some caller => exact w.note_moves rfl

@[simp] theorem submit_task (w : World) (out : Outgoing) : (w.submit out).2.task = w.task := by
  rw [submit]
  split
  · exact w.turn_task
  · split
    · exact w.turn_task
    · exact w.turn_task

theorem submit_moves (w : World) (out : Outgoing)
    (about : out.frame.topic.all (· ∈ kind) = true) : w.Moves kind (w.submit out).2 := by
  have turned : w.Moves kind w.turn.2 := w.turn_moves
  rw [submit]
  split
  · exact turned.trans (note_moves _ about)
  · split
    · refine turned.trans (Moves.trans ?_ (note_moves _ about))
      exact .of_same (.same rfl rfl rfl) rfl rfl (.push ⟨out, rfl, about⟩ rfl)
    · exact turned.trans (note_moves _ about)

@[simp] theorem turn_works (w : World) : w.turn.2.works = w.works := by
  obtain ⟨more, works, all⟩ := (@turn_moves [] w).works
  cases more with
  | nil => rw [works, List.append_nil]
  | cons work rest => exact absurd (all work List.mem_cons_self) List.not_mem_nil

@[simp] theorem submit_works (w : World) (out : Outgoing) :
    (w.submit out).2.works = w.works := by
  rw [submit]
  split
  · exact w.turn_works
  · split
    · exact w.turn_works
    · exact w.turn_works

/-- The log says how it went. -/
theorem submit_told (w : World) (out : Outgoing) :
    .submitted out.frame (w.submit out).1 ∈ (w.submit out).2.log := by
  rw [submit]
  split
  · exact List.mem_append_right _ (List.mem_singleton_self _)
  · split
    · exact List.mem_append_right _ (List.mem_singleton_self _)
    · exact List.mem_append_right _ (List.mem_singleton_self _)

/-- How a submission goes. -/
theorem submit_cases (w : World) (out : Outgoing) :
    ((w.submit out).1 = .ok () ∧ w.turn.2.conn = ⟨out.generation, true⟩ ∧
        (w.submit out).2.conn = w.turn.2.conn) ∨
      ((w.submit out).1 = .error .notSent ∧ w.turn.2.conn ≠ ⟨out.generation, true⟩ ∧
        (w.submit out).2.conn = w.turn.2.conn) ∨
      ((w.submit out).1 = .error .busy ∧ w.turn.2.conn = ⟨out.generation, true⟩ ∧
        commandQueue ≤ w.turn.2.queue.length) := by
  rw [submit]
  split
  case isTrue away =>
    refine .inr (.inl ⟨rfl, ?_, rfl⟩)
    intro there
    rw [there] at away
    simp at away
  case isFalse there =>
    simp only [not_or, Bool.not_eq_false, ne_eq, not_not] at there
    have conn : w.turn.2.conn = ⟨out.generation, true⟩ := by
      cases conn : w.turn.2.conn with
      | mk generation ready =>
          rw [conn] at there
          obtain ⟨rfl, rfl⟩ := there
          rfl
    split
    case isTrue room => exact .inl ⟨rfl, conn, rfl⟩
    case isFalse full => exact .inr (.inr ⟨rfl, conn, Nat.le_of_not_lt full⟩)

@[simp] theorem command_task (w : World) (generation : Nat) (frame : Frame) (expect : String) :
    (w.command generation frame expect).2.task = w.task := w.submit_task _

theorem command_moves (w : World) (generation : Nat) {frame : Frame} (expect : String)
    (about : frame.topic.all (· ∈ kind) = true) :
    w.Moves kind (w.command generation frame expect).2 := w.submit_moves _ about

@[simp] theorem notify_task (w : World) (generation : Nat) (frame : Frame) :
    (w.notify generation frame).task = w.task := w.submit_task _

theorem notify_moves (w : World) (generation : Nat) {frame : Frame}
    (about : frame.topic.all (· ∈ kind) = true) :
    w.Moves kind (w.notify generation frame) := w.submit_moves _ about

end World

end Brook.CallTask
