import Brook.Janus.Client
import Brook.Transition.Log

namespace Brook.Janus

open Brook.Transition (Justified run)

/-! Each request gets the first final answer on the socket that it was sent on, or fails with it. -/

/-- The message is the last word on a request. -/
def Answers (tx : Tx) (request : Request) (message : Message) : Prop :=
  message.transaction = some tx ∧ (message.janus = "ack" → request.ackIsFinal = true)

/-- This ends the wait of a request on a socket. -/
def Event.settles (tx : Tx) (socket : Socket) (request : Request) : Event → Prop
  | .received other message => other = socket ∧ Answers tx request message
  | .lost other => other = socket
  | _ => False

def Quiet (tx : Tx) (socket : Socket) (request : Request) (log : List Event) : Prop :=
  ∀ event ∈ log, ¬event.settles tx socket request

/-- The first final answer on its socket is this message. -/
def Answered (log : List Event) (tx : Tx) (request : Request) (message : Message) : Prop :=
  ∃ before socket mid after,
    log = before ++ .asked tx socket request :: (mid ++ .received socket message :: after) ∧
      Quiet tx socket request mid ∧ Answers tx request message

/-- The socket was lost before any final answer. -/
def Lost (log : List Event) (tx : Tx) : Prop :=
  ∃ before socket request mid after,
    log = before ++ .asked tx socket request :: (mid ++ .lost socket :: after) ∧
      Quiet tx socket request mid

/-- The request that this is the end of. -/
def Event.ends : Event → Option Tx
  | .returned tx _ => some tx
  | .raised tx _ => some tx
  | _ => none

def Open (tx : Tx) (log : List Event) : Prop := ∀ event ∈ log, event.ends ≠ some tx

def Refused (message : Message) (why : String) : Prop :=
  (message.janus = "error" ∧ message.error = why) ∨
    (message.janus ≠ "error" ∧ message.pluginError = some why)

/-- What has to have happened before. -/
def Because (front : List Event) : Event → Prop
  | .returned tx message => Open tx front ∧
      (∃ request, Answered front tx request message) ∧ ∀ why, ¬Refused message why
  | .raised tx (.refused why) => Open tx front ∧
      ∃ request message, Answered front tx request message ∧ Refused message why
  | .raised tx .lost => Open tx front ∧ Lost front tx
  | .raised tx _ => Open tx front
  | .dispatched handle message => message.sender = some handle ∧
      ∃ before socket, front = before ++ [.received socket message]
  | .received socket _ => .lost socket ∉ front
  | .lost socket => .lost socket ∉ front
  | _ => True

/-- What the future of a request says. -/
def Future.Says (client : Client) (tx : Tx) (request : Request) (socket : Socket)
    (mid : List Event) : Future → Prop
  | .pending => client.ws = some socket ∧ tx ∈ client.pending ∧
      (tx ∈ client.ackIsFinal ↔ request.ackIsFinal = true) ∧ Quiet tx socket request mid
  | .result message => ∃ front after, mid = front ++ .received socket message :: after ∧
      Quiet tx socket request front ∧ Answers tx request message
  | .lost => ∃ front after, mid = front ++ .lost socket :: after ∧
      Quiet tx socket request front
  | .cancelled => False

def Fits (client : Client) (tx : Tx) (request : Request) (future : Future) : Prop :=
  ∃ before socket mid, client.log = before ++ .asked tx socket request :: mid ∧
    future.Says client tx request socket mid

/-- The request has been sent, or is being sent. -/
def Stage.asked : Stage → Bool
  | .begun => false
  | .connecting => false
  | .sending => true
  | .waiting => true

structure Sound (client : Client) : Prop where
  live : ∀ tx task, client.tasks.get? tx = some task → tx < client.requests ∧ Open tx client.log
  bounded : ∀ event ∈ client.log, ∀ tx, event.ends = some tx → tx < client.requests
  asked : ∀ tx task, client.tasks.get? tx = some task → task.stage.asked = true →
    ∃ future, client.futures.get? tx = some future ∧ Fits client tx task.request future
  acks : ∀ tx ∈ client.ackIsFinal, tx < client.requests ∧
    ∀ task, client.tasks.get? tx = some task → task.stage.asked = true
  connects : ∀ tx task, client.tasks.get? tx = some task → task.stage = .connecting →
    client.ws = none ∧ client.connecting = some tx
  sockets : ∀ socket, .lost socket ∈ client.log → socket ≤ client.sockets
  current : ∀ socket, client.ws = some socket →
    socket ≤ client.sockets ∧ .lost socket ∉ client.log
  justified : Justified Because client.log

variable {client next : Client} {tx : Tx} {request : Request} {future : Future}

theorem Quiet.append {socket : Socket} {log more : List Event}
    (quiet : Quiet tx socket request log) (still : Quiet tx socket request more) :
    Quiet tx socket request (log ++ more) := by
  intro event mem
  rcases List.mem_append.mp mem with before | after
  · exact quiet event before
  · exact still event after

theorem quiet_nil (socket : Socket) : Quiet tx socket request [] := by
  intro event mem
  cases mem

theorem Fits.grow (fits : Fits client tx request future) (more : List Event)
    (log : next.log = client.log ++ more)
    (still : future = .pending → next.ws = client.ws ∧
      (tx ∈ client.pending → tx ∈ next.pending) ∧
      (tx ∈ next.ackIsFinal ↔ tx ∈ client.ackIsFinal) ∧
      ∀ socket, client.ws = some socket → Quiet tx socket request more) :
    Fits next tx request future := by
  obtain ⟨before, socket, mid, split, told⟩ := fits
  refine ⟨before, socket, mid ++ more, by rw [log, split]; simp, ?_⟩
  cases future with
  | pending =>
      obtain ⟨ws, pending, ack, quiet⟩ := told
      obtain ⟨sameWs, kept, sameAck, stays⟩ := still rfl
      exact ⟨sameWs.trans ws, kept pending, sameAck.trans ack, quiet.append (stays socket ws)⟩
  | result message =>
      obtain ⟨front, after, rfl, quiet, answers⟩ := told
      exact ⟨front, after ++ more, by simp, quiet, answers⟩
  | lost =>
      obtain ⟨front, after, rfl, quiet⟩ := told
      exact ⟨front, after ++ more, by simp, quiet⟩
  | cancelled => exact told.elim

theorem quiet_of_not_socket {more : List Event} (none_ : ∀ event ∈ more, ∀ socket message,
    event ≠ .received socket message ∧ event ≠ .lost socket) (socket : Socket) :
    Quiet tx socket request more := by
  intro event mem settles
  cases event with
  | received other message => exact (none_ _ mem other message).1 rfl
  | lost other => exact (none_ _ mem other ⟨"", none, none, none, "", none, ""⟩).2 rfl
  | _ => exact settles

theorem open_append {log more : List Event} (isOpen : Open tx log)
    (still : ∀ event ∈ more, event.ends ≠ some tx) : Open tx (log ++ more) := by
  intro event mem
  rcases List.mem_append.mp mem with before | after
  · exact isOpen event before
  · exact still event after

theorem Open.of_fresh (sound : Sound client) (fresh : client.requests ≤ tx) :
    Open tx client.log := by
  intro event mem ends
  exact absurd (sound.bounded event mem tx ends) (Nat.not_lt.mpr fresh)

/-- A step adds entries and may begin one request; what it ends was live and is live no more. -/
structure Grows (client next : Client) (more : List Event) : Prop where
  log : next.log = client.log ++ more
  requests : client.requests ≤ next.requests
  tasks : ∀ tx task, next.tasks.get? tx = some task →
    (∃ old, client.tasks.get? tx = some old) ∨
      (tx = client.requests ∧ client.requests < next.requests ∧ ∀ event ∈ more, event.ends = none)
  ended : ∀ event ∈ more, ∀ tx, event.ends = some tx →
    (∃ old, client.tasks.get? tx = some old) ∧ next.tasks.get? tx = none
  asked : ∀ tx task, next.tasks.get? tx = some task → task.stage.asked = true →
    ∃ future, next.futures.get? tx = some future ∧ Fits next tx task.request future
  acks : ∀ tx ∈ next.ackIsFinal, tx < next.requests ∧
    ∀ task, next.tasks.get? tx = some task → task.stage.asked = true
  connects : ∀ tx task, next.tasks.get? tx = some task → task.stage = .connecting →
    next.ws = none ∧ next.connecting = some tx
  because : ∀ front event back, more = front ++ event :: back →
    Because (client.log ++ front) event

theorem Sound.grow (sound : Sound client) (more : List Event) (grows : Grows client next more)
    (sockets : ∀ socket, .lost socket ∈ next.log → socket ≤ next.sockets)
    (current : ∀ socket, next.ws = some socket →
      socket ≤ next.sockets ∧ .lost socket ∉ next.log) : Sound next where
  live tx task is := by
    rcases grows.tasks tx task is with ⟨old, was⟩ | ⟨rfl, begun, still⟩
    · obtain ⟨bound, isOpen⟩ := sound.live tx old was
      refine ⟨Nat.lt_of_lt_of_le bound grows.requests, ?_⟩
      rw [grows.log]
      refine open_append isOpen fun event mem ends => ?_
      rw [(grows.ended event mem tx ends).2] at is
      cases is
    · refine ⟨begun, ?_⟩
      rw [grows.log]
      refine open_append (.of_fresh sound (Nat.le_refl _)) fun event mem ends => ?_
      rw [still event mem] at ends
      cases ends
  bounded event mem tx ends := by
    rw [grows.log] at mem
    rcases List.mem_append.mp mem with before | after
    · exact Nat.lt_of_lt_of_le (sound.bounded event before tx ends) grows.requests
    · obtain ⟨⟨old, was⟩, -⟩ := grows.ended event after tx ends
      exact Nat.lt_of_lt_of_le (sound.live tx old was).1 grows.requests
  asked := grows.asked
  acks := grows.acks
  connects := grows.connects
  sockets := sockets
  current := current
  justified := by
    rw [grows.log]
    exact sound.justified.append grows.because

/-- The connection stays as it is. -/
theorem Sound.beside (sound : Sound client) (more : List Event) (grows : Grows client next more)
    (ws : next.ws = client.ws) (count : next.sockets = client.sockets)
    (kept : ∀ socket, .lost socket ∉ more) : Sound next := by
  have before : ∀ socket, .lost socket ∈ next.log → .lost socket ∈ client.log := by
    intro socket mem
    rw [grows.log] at mem
    exact (List.mem_append.mp mem).resolve_right (kept socket)
  refine sound.grow more grows (fun socket mem => ?_) (fun socket is => ?_)
  · rw [count]
    exact sound.sockets socket (before socket mem)
  · rw [ws] at is
    obtain ⟨bound, here⟩ := sound.current socket is
    exact ⟨by rwa [count], fun mem => here (before socket mem)⟩

/-- Only what no request looks at has changed. -/
structure Same (client next : Client) (more : List Event) : Prop where
  log : next.log = client.log ++ more
  ws : next.ws = client.ws
  count : next.sockets = client.sockets
  connecting : next.connecting = client.connecting
  tasks : next.tasks = client.tasks
  requests : next.requests = client.requests
  futures : next.futures = client.futures
  pending : next.pending = client.pending
  ackIsFinal : next.ackIsFinal = client.ackIsFinal
  quiet : ∀ event ∈ more, ∀ socket message,
    event ≠ .received socket message ∧ event ≠ .lost socket
  open_ : ∀ event ∈ more, event.ends = none

theorem Sound.same (sound : Sound client) (more : List Event) (same : Same client next more)
    (because : ∀ front event back, more = front ++ event :: back →
      Because (client.log ++ front) event) : Sound next := by
  refine sound.beside more ⟨same.log, Nat.le_of_eq same.requests.symm, fun tx task is => ?_,
    fun event mem tx ends => ?_, fun tx task is stage => ?_, fun tx mem => ?_,
    fun tx task is stage => ?_, because⟩ same.ws same.count fun socket mem => ?_
  · rw [same.tasks] at is
    exact .inl ⟨task, is⟩
  · rw [same.open_ event mem] at ends
    cases ends
  · rw [same.tasks] at is
    obtain ⟨future, found, fits⟩ := sound.asked tx task is stage
    refine ⟨future, by rw [same.futures, found], fits.grow more same.log fun _ => ?_⟩
    rw [same.pending, same.ackIsFinal]
    exact ⟨same.ws, id, Iff.rfl, fun socket _ => quiet_of_not_socket same.quiet socket⟩
  · rw [same.ackIsFinal] at mem
    rw [same.requests, same.tasks]
    exact sound.acks tx mem
  · rw [same.tasks] at is
    rw [same.ws, same.connecting]
    exact sound.connects tx task is stage
  · exact (same.quiet _ mem socket ⟨"", none, none, none, "", none, ""⟩).2 rfl

/-- The end of a live request; the others notice nothing. -/
structure Leaves (client base : Client) (tx : Tx) : Prop where
  log : base.log = client.log
  ws : base.ws = client.ws
  count : base.sockets = client.sockets
  tasks : base.tasks = client.tasks
  requests : base.requests = client.requests
  connecting : ∀ other, other ≠ tx → client.connecting = some other →
    base.connecting = some other
  futures : ∀ other, other ≠ tx → base.futures.get? other = client.futures.get? other
  pending : ∀ other, other ≠ tx → other ∈ client.pending → other ∈ base.pending
  acks : ∀ other, other ≠ tx → (other ∈ base.ackIsFinal ↔ other ∈ client.ackIsFinal)
  fewer : ∀ other ∈ base.ackIsFinal, other ∈ client.ackIsFinal

theorem Leaves.refl (client : Client) (tx : Tx) : Leaves client client tx :=
  ⟨rfl, rfl, rfl, rfl, rfl, fun _ _ is => is, fun _ _ => rfl, fun _ _ mem => mem,
    fun _ _ => Iff.rfl, fun _ mem => mem⟩

theorem Sound.settle (sound : Sound client) {base : Client} {event : Event} (task : Task)
    (leaves : Leaves client base tx) (live : client.tasks.get? tx = some task)
    (ends : event.ends = some tx) (because : Because client.log event) :
    Sound (base.settle tx event) := by
  have kept : ∀ {other : Tx} {there : Task},
      (base.settle tx event).tasks.get? other = some there →
        other ≠ tx ∧ client.tasks.get? other = some there := by
    intro other there is
    simp only [Client.settle, Client.note, Table.get?_filter, Option.filter_eq_some_iff,
      decide_eq_true_eq, leaves.tasks] at is
    exact ⟨is.2, is.1⟩
  have quiet : ∀ mid ∈ [event], ∀ socket message,
      mid ≠ .received socket message ∧ mid ≠ .lost socket := by
    intro mid mem socket message
    rw [List.mem_singleton] at mem
    subst mem
    constructor <;> rintro rfl <;> cases ends
  refine sound.beside [event] ⟨by rw [Client.settle, Client.note, leaves.log],
    Nat.le_of_eq leaves.requests.symm, fun other there is => .inl ⟨there, (kept is).2⟩,
    fun mid mem other ended => ?_, fun other there is stage => ?_, fun other mem => ?_,
    fun other there is stage => ?_, Justified.single because⟩ leaves.ws leaves.count
    fun socket mem => (quiet _ mem socket ⟨"", none, none, none, "", none, ""⟩).2 rfl
  · rw [List.mem_singleton] at mem
    subst mem
    rw [ends] at ended
    cases ended
    refine ⟨⟨task, live⟩, Option.eq_none_iff_forall_ne_some.mpr fun there is => ?_⟩
    exact (kept is).1 rfl
  · obtain ⟨apart, was⟩ := kept is
    obtain ⟨future, found, fits⟩ := sound.asked other there was stage
    refine ⟨future, (leaves.futures other apart).trans found,
      fits.grow [event] (by rw [Client.settle, Client.note, leaves.log]) fun _ => ?_⟩
    exact ⟨leaves.ws, leaves.pending other apart, leaves.acks other apart,
      fun socket _ => quiet_of_not_socket quiet socket⟩
  · obtain ⟨bound, staged⟩ := sound.acks other (leaves.fewer other mem)
    refine ⟨by rw [Client.settle, Client.note, leaves.requests]; exact bound,
      fun there is => staged there (kept is).2⟩
  · obtain ⟨apart, was⟩ := kept is
    obtain ⟨down, holds⟩ := sound.connects other there was stage
    exact ⟨leaves.ws.trans down, leaves.connecting other apart holds⟩

/-! ### What each step does -/

theorem Sound.begin (sound : Sound client) (request : Request) : Sound { client with
    requests := client.requests + 1
    tasks := client.tasks.put client.requests ⟨request, .begun⟩ } := by
  have split : ∀ {tx : Tx} {task : Task},
      (client.tasks.put client.requests ⟨request, .begun⟩).get? tx = some task →
        (tx = client.requests ∧ task = ⟨request, .begun⟩) ∨ client.tasks.get? tx = some task := by
    intro tx task is
    rw [Table.get?_put] at is
    split at is
    case isTrue same => exact .inl ⟨same, (Option.some.inj is).symm⟩
    case isFalse => exact .inr is
  refine sound.beside [] ⟨by simp, Nat.le_succ _, fun tx task is => ?_, by simp,
    fun tx task is stage => ?_, fun tx mem => ?_, fun tx task is stage => ?_, by simp⟩ rfl rfl
    (by simp)
  · rcases split is with ⟨rfl, rfl⟩ | was
    · exact .inr ⟨rfl, Nat.lt_succ_self _, by simp⟩
    · exact .inl ⟨task, was⟩
  · rcases split is with ⟨rfl, rfl⟩ | was
    · cases stage
    · obtain ⟨future, found, fits⟩ := sound.asked tx task was stage
      exact ⟨future, found, fits.grow [] (List.append_nil _).symm
        fun _ => ⟨rfl, id, Iff.rfl, fun socket _ => quiet_nil socket⟩⟩
  · obtain ⟨bound, staged⟩ := sound.acks tx mem
    refine ⟨Nat.lt_succ_of_lt bound, fun task is => ?_⟩
    rcases split is with ⟨rfl, -⟩ | was
    · exact absurd bound (Nat.lt_irrefl _)
    · exact staged task was
  · rcases split is with ⟨rfl, rfl⟩ | was
    · cases stage
    · exact sound.connects tx task was stage

/-- The request is sent on the socket that there is now. -/
theorem Sound.ask (sound : Sound client) {base : Client} {task : Task} {socket : Socket}
    (live : client.tasks.get? tx = some task) (unasked : task.stage.asked = false)
    (log : base.log = client.log) (tasks : base.tasks = client.tasks)
    (requests : base.requests = client.requests) (futures : base.futures = client.futures)
    (pending : base.pending = client.pending) (acks : base.ackIsFinal = client.ackIsFinal)
    (ws : base.ws = some socket) (bound : socket ≤ base.sockets)
    (counted : client.sockets ≤ base.sockets) (here : .lost socket ∉ client.log)
    (still : base.ws = client.ws ∨ client.ws = none)
    (nobody : ∀ other there, other ≠ tx → client.tasks.get? other = some there →
      there.stage ≠ .connecting) : Sound (base.ask tx task socket) := by
  have fresh : tx ∉ client.ackIsFinal := fun mem => by
    rw [(sound.acks tx mem).2 task live] at unasked
    cases unasked
  have split : ∀ {other : Tx} {there : Task},
      (base.ask tx task socket).tasks.get? other = some there →
        (other = tx ∧ there = { task with stage := .sending }) ∨
          (other ≠ tx ∧ client.tasks.get? other = some there) := by
    intro other there is
    simp only [Client.ask, Client.note, Client.enter, Table.get?_put, tasks] at is
    split at is
    case isTrue same => exact .inl ⟨same, (Option.some.inj is).symm⟩
    case isFalse apart => exact .inr ⟨apart, is⟩
  have noted : (base.ask tx task socket).log =
      client.log ++ [.asked tx socket task.request] := by
    rw [← log]
    rfl
  have unended : ∀ event ∈ [Event.asked tx socket task.request], event.ends = none := by
    intro event mem
    rw [List.mem_singleton] at mem
    exact mem ▸ rfl
  have quiet : ∀ event ∈ [Event.asked tx socket task.request], ∀ other message,
      event ≠ .received other message ∧ event ≠ .lost other := by
    intro event mem other message
    rw [List.mem_singleton] at mem
    subst mem
    simp
  have ackMem : ∀ other, other ∈ (base.ask tx task socket).ackIsFinal ↔
      (other = tx ∧ task.request.ackIsFinal = true) ∨ other ∈ client.ackIsFinal := by
    intro other
    simp only [Client.ask, Client.note, Client.enter, acks]
    split
    case isTrue final => simp [final]
    case isFalse final => simp [final]
  refine sound.grow _ ⟨noted, Nat.le_of_eq requests.symm, fun other there is => .inl ?_,
    fun event mem other ends => ?_, fun other there is stage => ?_, fun other mem => ?_,
    fun other there is stage => ?_, Justified.single trivial⟩ (fun other mem => ?_)
    (fun other is => ?_)
  · rcases split is with ⟨rfl, -⟩ | ⟨-, was⟩
    · exact ⟨task, live⟩
    · exact ⟨there, was⟩
  · rw [unended event mem] at ends
    cases ends
  · rcases split is with ⟨rfl, rfl⟩ | ⟨apart, was⟩
    · refine ⟨.pending, by simp [Client.ask, Client.note, Client.enter], client.log, socket, [],
        noted, ws, by simp [Client.ask, Client.note, Client.enter], ?_, quiet_nil socket⟩
      rw [ackMem]
      simp [fresh]
    · obtain ⟨future, found, fits⟩ := sound.asked other there was stage
      refine ⟨future, ?_, fits.grow _ noted fun waits => ?_⟩
      · simp only [Client.ask, Client.note, Client.enter, Table.get?_put, futures]
        rw [if_neg apart, found]
      · subst waits
        obtain ⟨_, own, _, _, open_, -⟩ := fits
        refine ⟨?_, fun mem => ?_, ?_, fun _ _ => quiet_of_not_socket quiet _⟩
        · rcases still with same | down
          · exact same
          · rw [down] at open_
            cases open_
        · exact List.mem_cons_of_mem _ (by rwa [pending])
        · rw [ackMem]
          simp [apart]
  · rw [ackMem] at mem
    rcases mem with ⟨rfl, -⟩ | mem
    · refine ⟨by rw [show (base.ask other task socket).requests = base.requests from rfl, requests]
                 exact (sound.live other task live).1, fun there is => ?_⟩
      rcases split is with ⟨-, rfl⟩ | ⟨apart, -⟩
      · rfl
      · exact absurd rfl apart
    · obtain ⟨below, staged⟩ := sound.acks other mem
      refine ⟨by rw [show (base.ask tx task socket).requests = base.requests from rfl, requests]
                 exact below, fun there is => ?_⟩
      rcases split is with ⟨-, rfl⟩ | ⟨-, was⟩
      · rfl
      · exact staged there was
  · rcases split is with ⟨-, rfl⟩ | ⟨apart, was⟩
    · cases stage
    · exact absurd stage (nobody other there apart was)
  · rw [noted] at mem
    have before : .lost other ∈ client.log := by simpa using mem
    exact Nat.le_trans (sound.sockets other before) counted
  · have same : other = socket := Option.some.inj (is.symm.trans ws)
    subst same
    refine ⟨bound, ?_⟩
    rw [noted]
    simpa using here

theorem Sound.lock (sound : Sound client) {task : Task} (live : client.tasks.get? tx = some task)
    (begun : task.stage = .begun) (free : client.connecting = none) :
    Sound (client.ensureConnected tx task) := by
  have nobody : ∀ other there, other ≠ tx → client.tasks.get? other = some there →
      there.stage ≠ .connecting := by
    intro other there _ was stage
    have holds := (sound.connects other there was stage).2
    rw [free] at holds
    cases holds
  have unasked : task.stage.asked = false := by rw [begun]; rfl
  rw [Client.ensureConnected]
  cases ws : client.ws with
  | some socket =>
      obtain ⟨bound, here⟩ := sound.current socket ws
      exact sound.ask live unasked rfl rfl rfl rfl rfl rfl ws bound (Nat.le_refl _) here (.inl rfl)
        nobody
  | none =>
      have split : ∀ {other : Tx} {there : Task},
          (client.tasks.put tx { task with stage := .connecting }).get? other = some there →
            (other = tx ∧ there = { task with stage := .connecting }) ∨
              (other ≠ tx ∧ client.tasks.get? other = some there) := by
        intro other there is
        rw [Table.get?_put] at is
        split at is
        case isTrue same => exact .inl ⟨same, (Option.some.inj is).symm⟩
        case isFalse apart => exact .inr ⟨apart, is⟩
      refine sound.beside [] ⟨(List.append_nil _).symm, Nat.le_refl _,
        fun other there is => .inl ?_, by simp, fun other there is stage => ?_,
        fun other mem => ?_, fun other there is stage => ?_, by simp⟩ ws.symm rfl (by simp)
      · rcases split is with ⟨rfl, -⟩ | ⟨-, was⟩
        · exact ⟨task, live⟩
        · exact ⟨there, was⟩
      · rcases split is with ⟨rfl, rfl⟩ | ⟨-, was⟩
        · cases stage
        · obtain ⟨future, found, fits⟩ := sound.asked other there was stage
          exact ⟨future, found, fits.grow [] (List.append_nil _).symm
            fun _ => ⟨ws.symm, id, Iff.rfl, fun socket _ => quiet_nil socket⟩⟩
      · obtain ⟨below, staged⟩ := sound.acks other mem
        refine ⟨below, fun there is => ?_⟩
        rcases split is with ⟨rfl, -⟩ | ⟨-, was⟩
        · have asked := staged task live
          rw [unasked] at asked
          cases asked
        · exact staged there was
      · rcases split is with ⟨rfl, rfl⟩ | ⟨apart, was⟩
        · exact ⟨rfl, rfl⟩
        · exact absurd stage (nobody other there apart was)

theorem Sound.connected (sound : Sound client) {task : Task}
    (live : client.tasks.get? tx = some task) (connecting : task.stage = .connecting)
    (reached : Bool) : Sound (client.onConnected tx task reached) := by
  obtain ⟨down, holds⟩ := sound.connects tx task live connecting
  rw [Client.onConnected]
  cases reached with
  | false =>
      refine sound.settle task ⟨rfl, rfl, rfl, rfl, rfl, fun other apart is => ?_,
        fun _ _ => rfl, fun _ _ mem => mem, fun _ _ => Iff.rfl, fun _ mem => mem⟩ live rfl
        (sound.live tx task live).2
      rw [holds, Option.some.injEq] at is
      exact absurd is.symm apart
  | true =>
      refine sound.ask live (by rw [connecting]; rfl) rfl rfl rfl rfl rfl rfl rfl (Nat.le_refl _)
        (Nat.le_succ _) (fun mem => ?_) (.inr down) fun other there apart was stage => ?_
      · exact Nat.not_succ_le_self _ (sound.sockets _ mem)
      · have also := (sound.connects other there was stage).2
        rw [holds, Option.some.injEq] at also
        exact apart also.symm

theorem Sound.sent (sound : Sound client) {task : Task} (live : client.tasks.get? tx = some task)
    (sending : task.stage = .sending) (sent : Bool) : Sound (client.onSent tx task sent) := by
  rw [Client.onSent]
  cases sent with
  | false => exact sound.settle task (.refl client tx) live rfl (sound.live tx task live).2
  | true =>
      have split : ∀ {other : Tx} {there : Task},
          (client.tasks.put tx { task with stage := .waiting }).get? other = some there →
            ∃ was : Task, client.tasks.get? other = some was ∧ was.request = there.request ∧
              (was.stage = there.stage ∨ was.stage = .sending ∧ there.stage = .waiting) := by
        intro other there is
        rw [Table.get?_put] at is
        split at is
        case isTrue same =>
          cases is
          exact ⟨task, same ▸ live, rfl, .inr ⟨sending, rfl⟩⟩
        case isFalse => exact ⟨there, is, rfl, .inl rfl⟩
      refine sound.beside [] ⟨(List.append_nil _).symm, Nat.le_refl _,
        fun other there is => .inl ?_, by simp, fun other there is stage => ?_,
        fun other mem => ?_, fun other there is stage => ?_, by simp⟩ rfl rfl (by simp)
      · obtain ⟨was, before, -⟩ := split is
        exact ⟨was, before⟩
      · obtain ⟨was, before, same, stages⟩ := split is
        have staged : was.stage.asked = true := by
          rcases stages with is | ⟨is, -⟩
          · rw [is, stage]
          · rw [is]
            rfl
        obtain ⟨future, found, fits⟩ := sound.asked other was before staged
        refine ⟨future, found, ?_⟩
        rw [← same]
        exact fits.grow [] (List.append_nil _).symm
          fun _ => ⟨rfl, id, Iff.rfl, fun socket _ => quiet_nil socket⟩
      · obtain ⟨below, staged⟩ := sound.acks other mem
        refine ⟨below, fun there is => ?_⟩
        obtain ⟨was, before, -, stages⟩ := split is
        rcases stages with same | ⟨-, is⟩
        · rw [← same]
          exact staged was before
        · rw [is]
          rfl
      · obtain ⟨was, before, -, stages⟩ := split is
        rcases stages with same | ⟨-, is⟩
        · exact sound.connects other was before (same.trans stage)
        · rw [is] at stage
          cases stage

theorem Fits.answered {message : Message} (fits : Fits client tx request (.result message)) :
    Answered client.log tx request message := by
  obtain ⟨before, socket, mid, split, front, after, rfl, quiet, answers⟩ := fits
  exact ⟨before, socket, front, after, split, quiet, answers⟩

theorem Fits.lost (fits : Fits client tx request .lost) : Lost client.log tx := by
  obtain ⟨before, socket, mid, split, front, after, rfl, quiet⟩ := fits
  exact ⟨before, socket, request, front, after, split, quiet⟩

theorem register_same (client : Client) (request : Request) (message : Message) :
    Same client (client.register request message) [] := by
  rw [Client.register]
  split
  · exact ⟨(List.append_nil _).symm, rfl, rfl, rfl, rfl, rfl, rfl, rfl, rfl, by simp, by simp⟩
  · exact ⟨(List.append_nil _).symm, rfl, rfl, rfl, rfl, rfl, rfl, rfl, rfl, by simp, by simp⟩

theorem Sound.resume (sound : Sound client) {task : Task}
    (live : client.tasks.get? tx = some task) (waiting : task.stage = .waiting)
    (resumed : client.resume tx task = some next) : Sound next := by
  obtain ⟨future, found, fits⟩ := sound.asked tx task live (by rw [waiting]; rfl)
  have open_ := (sound.live tx task live).2
  rw [Client.resume, found] at resumed
  cases future with
  | pending => cases resumed
  | cancelled => cases resumed
  | lost =>
      cases resumed
      exact sound.settle task (.refl client tx) live rfl ⟨open_, fits.lost⟩
  | result message =>
      cases resumed
      rw [Client.conclude]
      split
      case isTrue error =>
        exact sound.settle task (.refl client tx) live rfl
          ⟨open_, _, message, fits.answered, .inl ⟨error, rfl⟩⟩
      case isFalse fine =>
        cases plugin : message.pluginError with
        | some why =>
            exact sound.settle task (.refl client tx) live rfl
              ⟨open_, _, message, fits.answered, .inr ⟨fine, plugin⟩⟩
        | none =>
            have returned : Sound (client.settle tx (.returned tx message)) := by
              refine sound.settle task (.refl client tx) live rfl ⟨open_, ⟨_, fits.answered⟩, ?_⟩
              rintro why (⟨error, -⟩ | ⟨-, is⟩)
              · exact fine error
              · rw [plugin] at is
                cases is
            exact returned.same [] (register_same _ _ _) (by simp)

theorem cancelFuture_other (client : Client) (tx other : Tx) (apart : other ≠ tx) :
    (client.cancelFuture tx).futures.get? other = client.futures.get? other := by
  rw [Client.cancelFuture]
  split
  · exact Table.get?_put_ne _ _ apart
  · rfl

theorem cancelFuture_rest (client : Client) (tx : Tx) :
    ∃ futures, client.cancelFuture tx = { client with futures } := by
  rw [Client.cancelFuture]
  split
  · exact ⟨_, rfl⟩
  · exact ⟨_, rfl⟩

theorem Sound.timeout (sound : Sound client) {task : Task}
    (live : client.tasks.get? tx = some task) : Sound (client.onTimeout tx) := by
  have others := cancelFuture_other client tx
  obtain ⟨futures, is⟩ := cancelFuture_rest client tx
  rw [Client.onTimeout]
  rw [is] at others ⊢
  refine sound.settle task ⟨rfl, rfl, rfl, rfl, rfl, fun _ _ is => is, others,
    fun other apart mem => ?_, fun other apart => ?_, fun other mem => ?_⟩ live rfl
    (sound.live tx task live).2
  · simpa [apart] using mem
  · simp [apart]
  · simp only [List.mem_filter] at mem
    exact mem.1

theorem Sound.cancel (sound : Sound client) {task : Task}
    (live : client.tasks.get? tx = some task) : Sound (client.onCancel tx task.stage) := by
  have open_ := (sound.live tx task live).2
  cases stage : task.stage with
  | begun => exact sound.settle task (.refl client tx) live rfl open_
  | sending => exact sound.settle task (.refl client tx) live rfl open_
  | connecting =>
      obtain ⟨-, holds⟩ := sound.connects tx task live stage
      refine sound.settle task ⟨rfl, rfl, rfl, rfl, rfl, fun other apart is => ?_,
        fun _ _ => rfl, fun _ _ mem => mem, fun _ _ => Iff.rfl, fun _ mem => mem⟩ live rfl open_
      rw [holds, Option.some.injEq] at is
      exact absurd is.symm apart
  | waiting =>
      have others := cancelFuture_other client tx
      obtain ⟨futures, is⟩ := cancelFuture_rest client tx
      rw [Client.onCancel]
      rw [is] at others ⊢
      exact sound.settle task ⟨rfl, rfl, rfl, rfl, rfl, fun _ _ is => is, others,
        fun _ _ mem => mem, fun _ _ => Iff.rfl, fun _ mem => mem⟩ live rfl open_

/-! ### The read loop -/

/-- A message came in that is no answer to any live request that still waits. -/
theorem Sound.heard (sound : Sound client) {socket : Socket} (ws : client.ws = some socket)
    (message : Message)
    (other : ∀ tx task, client.tasks.get? tx = some task → task.stage.asked = true →
      client.futures.get? tx = some .pending → ¬Answers tx task.request message) :
    Sound (client.note (.received socket message)) := by
  refine sound.beside _ ⟨rfl, Nat.le_refl _, fun tx task is => .inl ⟨task, is⟩, by
    simp [Event.ends], fun tx task is stage => ?_, sound.acks, sound.connects,
    Justified.single (sound.current socket ws).2⟩ rfl rfl (by simp)
  obtain ⟨future, found, fits⟩ := sound.asked tx task is stage
  refine ⟨future, found, fits.grow _ rfl fun waits => ⟨rfl, id, Iff.rfl, fun _ _ => ?_⟩⟩
  subst waits
  intro event mem settles
  rw [List.mem_singleton] at mem
  subst mem
  exact other tx task is stage found settles.2

/-- Requests that wait are left alone, and nothing is added. -/
theorem Sound.forget (sound : Sound client) (tx : Tx)
    (done : ∀ task, client.tasks.get? tx = some task → task.stage.asked = true →
      client.futures.get? tx ≠ some .pending) :
    Sound { client with
      ackIsFinal := client.ackIsFinal.filter (· ≠ tx)
      pending := client.pending.filter (· ≠ tx) } := by
  refine sound.beside [] ⟨(List.append_nil _).symm, Nat.le_refl _,
    fun other task is => .inl ⟨task, is⟩, by simp, fun other task is stage => ?_,
    fun other mem => ?_, sound.connects, by simp⟩ rfl rfl (by simp)
  · obtain ⟨future, found, fits⟩ := sound.asked other task is stage
    refine ⟨future, found, fits.grow [] (List.append_nil _).symm fun waits => ?_⟩
    have apart : other ≠ tx := by
      rintro rfl
      exact done task is stage (waits ▸ found)
    exact ⟨rfl, fun mem => by simpa [apart] using mem, by simp [apart],
      fun socket _ => quiet_nil socket⟩
  · simp only [List.mem_filter] at mem
    exact sound.acks other mem.1

/-- An event of a handle, right after it came in. -/
theorem Sound.listened (sound : Sound client) {before : List Event} {socket : Socket}
    {message : Message} (last : client.log = before ++ [.received socket message]) :
    Sound (client.toListener message) := by
  rw [Client.toListener]
  split
  case h_1 => exact sound
  case h_2 handle sender =>
    split
    case h_1 => exact sound
    case h_2 listener _ =>
      exact sound.same [.dispatched handle message] ⟨rfl, rfl, rfl, rfl, rfl, rfl, rfl,
        rfl, rfl, by simp, by simp [Event.ends]⟩
        (Justified.single ⟨sender, before, socket, last⟩)

/-- The answer of a request that waits. -/
theorem Sound.answer (sound : Sound client) {socket : Socket} (ws : client.ws = some socket)
    {message : Message} (names : message.transaction = some tx)
    (final : message.janus = "ack" → tx ∈ client.ackIsFinal)
    (waits : client.futures.get? tx = some .pending) :
    Sound { client with
      ackIsFinal := client.ackIsFinal.filter (· ≠ tx)
      pending := client.pending.filter (· ≠ tx)
      futures := client.futures.put tx (.result message)
      log := client.log ++ [.received socket message] } := by
  refine sound.beside _ ⟨rfl, Nat.le_refl _, fun other task is => .inl ⟨task, is⟩,
    by simp [Event.ends], fun other task is stage => ?_, fun other mem => ?_, sound.connects,
    Justified.single (sound.current socket ws).2⟩ rfl rfl (by simp)
  · obtain ⟨future, found, fits⟩ := sound.asked other task is stage
    by_cases same : other = tx
    · subst same
      rw [waits] at found
      cases found
      obtain ⟨before, own, mid, split, open_, -, acks, quiet⟩ := fits
      have here : own = socket := Option.some.inj (open_.symm.trans ws)
      subst here
      exact ⟨.result message, Table.get?_put_self _ _ _, before, own,
        mid ++ [.received own message], by rw [split]; simp, mid, [], rfl, quiet, names,
        fun ack => acks.mp (final ack)⟩
    · refine ⟨future, (Table.get?_put_ne _ _ same).trans found, fits.grow _ rfl fun _ => ?_⟩
      refine ⟨rfl, fun mem => by simpa [same] using mem, by simp [same], fun _ _ => ?_⟩
      intro event mem settles
      rw [List.mem_singleton] at mem
      subst mem
      have own := settles.2.1
      rw [names, Option.some.injEq] at own
      exact same own.symm
  · simp only [List.mem_filter] at mem
    exact sound.acks other mem.1

theorem Sound.received (sound : Sound client) {socket : Socket} (ws : client.ws = some socket)
    (message : Message) : Sound (client.onMessage socket message) := by
  rw [Client.onMessage]
  split
  case isTrue mere =>
    refine sound.heard ws message fun tx task is stage waits answers => ?_
    obtain ⟨future, found, fits⟩ := sound.asked tx task is stage
    rw [waits] at found
    cases found
    obtain ⟨_, _, _, _, -, -, acks, -⟩ := fits
    have named := mere.2
    rw [answers.1] at named
    simp only [Client.note, Option.all_some, Bool.not_eq_true', List.contains_eq_mem,
      decide_eq_false_iff_not] at named
    exact named (acks.mpr (answers.2 mere.1))
  case isFalse final =>
    rw [Client.onFinal]
    split
    case h_1 names =>
      have heard := sound.heard ws message fun tx task _ _ _ answers => by
        rw [answers.1] at names
        cases names
      exact heard.listened rfl
    case h_2 tx names =>
      dsimp only
      split
      case isTrue awaited =>
        refine sound.answer ws names (fun ack => ?_) awaited.2
        have named : ¬(message.janus = "ack" ∧
          message.transaction.all (fun tx => !client.ackIsFinal.contains tx) = true) := final
        rw [names] at named
        simpa [ack] using named
      case isFalse unawaited =>
        have done : ∀ task, client.tasks.get? tx = some task → task.stage.asked = true →
            client.futures.get? tx ≠ some .pending := by
          intro task is stage waits
          obtain ⟨future, found, fits⟩ := sound.asked tx task is stage
          rw [waits] at found
          cases found
          obtain ⟨_, _, _, _, -, mem, -⟩ := fits
          exact unawaited ⟨by simpa [Client.note] using mem, waits⟩
        have heard := sound.heard ws message fun other task is stage waits answers => by
          have same := answers.1
          rw [names, Option.some.injEq] at same
          subst same
          exact done task is stage waits
        exact (heard.forget tx done).listened rfl

theorem Sound.lost (sound : Sound client) {socket : Socket} (ws : client.ws = some socket) :
    Sound (client.onLost socket) := by
  obtain ⟨bound, here⟩ := sound.current socket ws
  refine sound.grow [.lost socket] ⟨rfl, Nat.le_refl _,
    fun tx task is => .inl ⟨task, is⟩, by simp [Event.ends], fun tx task is stage => ?_,
    sound.acks, fun tx task is stage => ?_, Justified.single here⟩
    (fun other mem => ?_) (fun other is => by cases is)
  · obtain ⟨future, found, fits⟩ := sound.asked tx task is stage
    by_cases waits : future = .pending
    · subst waits
      obtain ⟨before, own, mid, split, open_, mem, -, quiet⟩ := fits
      have same : own = socket := Option.some.inj (open_.symm.trans ws)
      subst same
      refine ⟨.lost, ?_, before, own, mid ++ [.lost own], ?_, mid, [], rfl, quiet⟩
      · simp [Client.onLost, Client.note, found, mem]
      · simp [Client.onLost, Client.note, split]
    · refine ⟨future, ?_, fits.grow [.lost socket] rfl fun is => absurd is waits⟩
      simp [Client.onLost, Client.note, found, waits]
  · exact ⟨rfl, (sound.connects tx task is stage).2⟩
  · have either : .lost other ∈ client.log ∨ other = socket := by
      simpa [Client.onLost, Client.note] using mem
    rcases either with before | rfl
    · exact sound.sockets other before
    · exact bound

/-! ### The listeners -/

theorem Sound.apart (sound : Sound client) {deliveries : List Delivery}
    {chains : Table HandleId Nat} {listeners : Table HandleId Listener} (more : List Event)
    (listening : ∀ event ∈ more, ∃ handle message,
      event = .started handle message ∨ event = .finished handle message) :
    Sound { client with
      deliveries, chains, listeners
      log := client.log ++ more } := by
  refine sound.same more ⟨rfl, rfl, rfl, rfl, rfl, rfl, rfl, rfl, rfl,
    fun event mem socket message => ?_, fun event mem => ?_⟩ fun front event back split => ?_
  · obtain ⟨handle, content, rfl | rfl⟩ := listening event mem
    · simp
    · simp
  · obtain ⟨handle, content, rfl | rfl⟩ := listening event mem
    · rfl
    · rfl
  · obtain ⟨handle, content, rfl | rfl⟩ := listening event (by rw [split]; simp)
    · exact trivial
    · exact trivial

theorem Sound.silent (sound : Sound client) {deliveries : List Delivery}
    {chains : Table HandleId Nat} {listeners : Table HandleId Listener} :
    Sound { client with deliveries, chains, listeners } := by
  have same : Sound { client with
      deliveries, chains, listeners
      log := client.log ++ [] } := sound.apart [] (by simp)
  simpa using same

theorem Sound.step {action : Action} (sound : Sound client)
    (stepped : step client action = some next) : Sound next := by
  cases action with
  | request request =>
      cases stepped
      exact sound.begin request
  | detachListener handle =>
      cases stepped
      exact sound.silent
  | lock tx =>
      obtain ⟨task, live, ⟨begun, free⟩, rfl⟩ := of_bind stepped
      exact sound.lock live begun free
  | connected tx reached =>
      obtain ⟨task, live, connecting, rfl⟩ := of_bind stepped
      exact sound.connected live connecting reached
  | sent tx sent =>
      obtain ⟨task, live, sending, rfl⟩ := of_bind stepped
      exact sound.sent live sending sent
  | resume tx =>
      simp only [Janus.step, Option.bind_eq_some_iff, Option.ite_none_right_eq_some] at stepped
      obtain ⟨task, live, waiting, stepped⟩ := stepped
      exact sound.resume live waiting stepped
  | timeout tx =>
      obtain ⟨task, live, -, rfl⟩ := of_bind stepped
      exact sound.timeout live
  | cancel tx =>
      obtain ⟨task, live, rfl⟩ := Option.map_eq_some_iff.mp stepped
      exact sound.cancel live
  | receive message =>
      obtain ⟨socket, ws, rfl⟩ := Option.map_eq_some_iff.mp stepped
      exact sound.received ws message
  | lose =>
      obtain ⟨socket, ws, rfl⟩ := Option.map_eq_some_iff.mp stepped
      exact sound.lost ws
  | startListener index =>
      obtain ⟨delivery, -, -, rfl⟩ := of_bind stepped
      exact sound.apart _ (by simp)
  | finishListener index =>
      obtain ⟨delivery, -, -, rfl⟩ := of_bind stepped
      exact sound.apart _ (by simp)
  | unchain index =>
      obtain ⟨delivery, -, -, rfl⟩ := of_bind stepped
      rw [Client.unchain]
      split
      · exact sound.silent
      · exact sound

theorem empty_sound : Sound .empty where
  live tx task is := by cases is
  bounded event mem := by cases mem
  asked tx task is := by cases is
  acks tx mem := by cases mem
  connects tx task is := by cases is
  sockets socket mem := by cases mem
  current socket is := by cases is
  justified := .nil

/-- A request that waits can go on as soon as its answer has come or its socket is lost. -/
def Wakes (client : Client) : Prop :=
  ∀ tx task, client.tasks.get? tx = some task → task.stage = .waiting →
    ∃ before socket mid, client.log = before ++ .asked tx socket task.request :: mid ∧
      (Quiet tx socket task.request mid ∨ (client.resume tx task).isSome = true)

theorem Sound.wakes (sound : Sound client) : Wakes client := by
  intro tx task live waiting
  obtain ⟨future, found, before, socket, mid, split, told⟩ :=
    sound.asked tx task live (by rw [waiting]; rfl)
  refine ⟨before, socket, mid, split, ?_⟩
  cases future with
  | pending => exact .inl told.2.2.2
  | result message => exact .inr (by rw [Client.resume, found]; rfl)
  | lost => exact .inr (by rw [Client.resume, found]; rfl)
  | cancelled => exact told.elim

/-- In every run each request ends at most once, and with the first final answer that came on the
socket it was sent on, or with the loss of that socket, a timeout or its own failure; and none
waits for an answer that has come or for a socket that is gone. -/
theorem requests_settled {actions : List Action} (reached : run step .empty actions = some client) :
    Justified Because client.log ∧ Wakes client := by
  have sound : Sound client :=
    Brook.Transition.run_invariant_of_step (fun held stepped => held.step stepped) empty_sound
      reached
  exact ⟨sound.justified, sound.wakes⟩

def accepted : Message := ⟨"ack", some 0, none, none, "", none, ""⟩

def joined : Message := ⟨"event", some 0, some 7, none, "", none, "offer"⟩

/-- A plugin message: its acknowledgement, then its answer. -/
def answered : List Action :=
  [.request ⟨"message", false, none⟩, .lock 0, .connected 0 true, .sent 0 true,
    .receive accepted, .receive joined, .resume 0, .lose]

theorem requests_settled_answered :
    ∃ client, run step .empty answered = some client ∧ .returned 0 joined ∈ client.log ∧
      Justified Because client.log ∧ Wakes client :=
  ⟨_, rfl, by decide, requests_settled (show run step .empty answered = some _ from rfl)⟩

end Brook.Janus
