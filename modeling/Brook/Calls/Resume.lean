import Brook.Calls.Participant
import Brook.Transition.Run
import Mathlib.Data.List.Nodup

namespace Brook.Calls

open Transition

/-! One participant and its client during the grace period.  A `call.resume` is
handled when it arrives, perhaps after the client has moved on to a newer
socket; a `call.joined` is delivered on its socket or lost with it. -/

structure Reconnecting where
  participant : Participant
  /-- The rest of the call. -/
  others : List Participant
  /-- The `user_id` of the client's sockets. -/
  user : UserId
  nextToken : Token
  /-- The sockets the client has opened, and those whose disconnect the server
  has handled. -/
  opened : List SocketId
  hungUp : List SocketId
  /-- The client's socket, and the token of its last `call.joined`. -/
  socket : Option SocketId
  held : Token
  /-- `call.resume` frames and `call.joined` replies on their way. -/
  requests : List (SocketId × Token)
  replies : List (SocketId × Token)
  /-- Every token received, every token used (the newest first), and the socket
  of the last `call.joined` sent. -/
  received : List Token
  used : List Token
  owner : SocketId

inductive ResumeAction
  /-- The client opens a socket, and leaves the one it had. -/
  | connect (socket : SocketId)
  | drop
  | ask
  /-- The server handles the oldest `call.resume` of a socket. -/
  | serve (socket : SocketId)
  | hangUp (socket : SocketId)
  | deliver (socket : SocketId)
  /-- Sockets of other clients change the other participants. -/
  | elsewhere (others : List Participant)

def onSocket (socket : SocketId) (frame : SocketId × Token) : Bool :=
  frame.1 = socket

namespace Reconnecting

/-- A participant that has just joined on `socket`. -/
def start (others : List Participant) (p : ParticipantId) (user : UserId)
    (socket : SocketId) (token : Token) : Reconnecting where
  participant := ⟨p, user, some socket, token, none, false⟩
  others := others
  user := user
  nextToken := token + 1
  opened := [socket]
  hungUp := []
  socket := some socket
  held := token
  requests := []
  replies := []
  received := [token]
  used := []
  owner := socket

def participants (state : Reconnecting) : List Participant :=
  state.participant :: state.others

/-- No other participant is held by a socket of this client. -/
def apart (opened : List SocketId) (others : List Participant) : Bool :=
  others.all fun other => opened.all fun socket => other.conn ≠ some socket

/-- `_resume` and `resume`, on one `call.resume`. -/
def serve (state : Reconnecting) (socket : SocketId) (token : Token) :
    Reconnecting :=
  let taken := { state with
    requests := state.requests.eraseP (onSocket socket) }
  if state.participant.admits state.user token then
    { taken with
      participant := state.participant.resume socket token state.nextToken
      nextToken := state.nextToken + 1
      replies := state.replies ++ [(socket, state.nextToken)]
      used := token :: state.used
      owner := socket }
  else taken

def deliver (state : Reconnecting) (socket : SocketId) (token : Token) :
    Reconnecting :=
  let taken := { state with
    replies := state.replies.eraseP (onSocket socket) }
  if state.socket = some socket then
    { taken with held := token, received := token :: state.received }
  else taken

end Reconnecting

def resumeStep (state : Reconnecting) : ResumeAction → Option Reconnecting
  | .connect socket =>
      if socket ∈ state.opened ∨ ¬ Reconnecting.apart [socket] state.others then
        none
      else some { state with
        opened := socket :: state.opened
        socket := some socket }
  | .drop => some { state with socket := none }
  | .ask =>
      match state.socket with
      | none => none
      | some socket => some { state with
          requests := state.requests ++ [(socket, state.held)] }
  | .serve socket =>
      match state.requests.find? (onSocket socket) with
      | none => none
      | some request =>
          if socket ∈ state.hungUp then none
          else some (state.serve socket request.2)
  | .hangUp socket =>
      if socket ∈ state.opened then
        some { state with
          participant := state.participant.onDisconnect socket
          hungUp := socket :: state.hungUp }
      else none
  | .deliver socket =>
      match state.replies.find? (onSocket socket) with
      | none => none
      | some reply => some (state.deliver socket reply.2)
  | .elsewhere others =>
      if Reconnecting.apart state.opened others then some { state with others }
      else none

/-! ### What the client can rely on -/

structure Resumable (state : Reconnecting) : Prop where
  /-- A resume with the token the client holds is accepted. -/
  held : state.participant.admits state.user state.held = true
  two : ∃ first second, ∀ given,
    state.participant.admits state.user given = true →
    given = first ∨ given = second
  notOlder : ∀ given last,
    state.participant.admits state.user given = true →
    state.used.head? = some last → last ≤ given
  /-- Every other socket of the client gets `not_in_call`. -/
  owned : ∀ socket ∈ state.opened, socket ≠ state.owner →
    participantOf state.participants socket = none

/-- A `call.resume` is only accepted with the token the client holds, and a
`call.joined` only reaches it with the token that is current. -/
def InOrder (state : Reconnecting) : ResumeAction → Prop
  | .serve socket =>
      socket ∉ state.hungUp →
      ∀ request, state.requests.find? (onSocket socket) = some request →
        state.participant.admits state.user request.2 = true →
        request.2 = state.held
  | .deliver socket =>
      ∀ reply, state.replies.find? (onSocket socket) = some reply →
        state.socket = some socket →
        reply.2 = state.participant.resumeToken
  | _ => True

structure Rotating (state : Reconnecting) : Prop where
  mine : state.participant.userId = state.user
  apart : ∀ other ∈ state.others, ∀ socket ∈ state.opened,
    other.conn ≠ some socket
  conn : ∀ socket, state.participant.conn = some socket → socket = state.owner
  asked : ∀ request ∈ state.requests, request.1 ∈ state.opened
  current : ∀ socket, state.socket = some socket → socket ∈ state.opened
  fresh : state.participant.resumeToken < state.nextToken
  prev : state.participant.prevResumeToken = state.used.head?
  rotated : ∀ last, state.used.head? = some last →
    last ≤ state.participant.resumeToken ∧ last ∈ state.received
  heldReceived : state.held ∈ state.received
  sent : ∀ request ∈ state.requests, request.2 ∈ state.received
  known : ∀ token ∈ state.received, token < state.nextToken
  unseen : ∀ reply ∈ state.replies,
    reply.2 < state.nextToken ∧ reply.2 ∉ state.received
  once : (state.replies.map Prod.snd).Nodup
  accepted : state.held = state.participant.resumeToken ∨
    state.used.head? = some state.held

variable {state next : Reconnecting}

theorem onSocket_of_find {frames : List (SocketId × Token)} {socket : SocketId}
    {frame : SocketId × Token}
    (found : frames.find? (onSocket socket) = some frame) :
    frame ∈ frames ∧ frame.1 = socket := by
  refine ⟨List.mem_of_find?_eq_some found, ?_⟩
  simpa [onSocket] using List.find?_some found

/-- What is taken off the line is not on it again. -/
theorem not_mem_eraseP_of_find {frames : List (SocketId × Token)}
    {socket : SocketId} {frame : SocketId × Token}
    (once : (frames.map Prod.snd).Nodup)
    (found : frames.find? (onSocket socket) = some frame) :
    ∀ other ∈ frames.eraseP (onSocket socket), other.2 ≠ frame.2 := by
  induction frames with
  | nil => simp at found
  | cons first rest ih =>
      rw [List.map_cons, List.nodup_cons] at once
      cases head : onSocket socket first with
      | true =>
          rw [List.find?_cons_of_pos head, Option.some.injEq] at found
          subst found
          rw [List.eraseP_cons_of_pos head]
          intro other member same
          exact once.1 (same ▸ List.mem_map_of_mem member)
      | false =>
          have skipped : ¬ onSocket socket first = true := by simp [head]
          rw [List.find?_cons_of_neg skipped] at found
          rw [List.eraseP_cons_of_neg skipped]
          intro other member same
          cases member with
          | head =>
              have later := (onSocket_of_find found).1
              exact once.1 (same ▸ List.mem_map_of_mem later)
          | tail _ member => exact ih once.2 found other member same

namespace Rotating

theorem admits (rotating : Rotating state) {token : Token} :
    state.participant.admits state.user token = true ↔
      token = state.participant.resumeToken ∨
        state.used.head? = some token := by
  rw [Participant.admits_iff, rotating.prev]
  exact and_iff_right rotating.mine

theorem resumable (rotating : Rotating state) : Resumable state where
  held := rotating.admits.mpr rotating.accepted
  two := by
    refine ⟨state.participant.resumeToken, state.used.head?.getD 0, ?_⟩
    intro given accepted
    obtain current | previous := rotating.admits.mp accepted
    · exact Or.inl current
    · right
      rw [previous, Option.getD_some]
  notOlder := by
    intro given last accepted previous
    obtain rfl | same := rotating.admits.mp accepted
    · exact (rotating.rotated last previous).1
    · rw [previous, Option.some.injEq] at same
      exact Nat.le_of_eq same
  owned := by
    intro socket opened different
    apply participantOf_eq_none.mpr
    intro p member
    cases member with
    | head =>
        intro held
        exact different (rotating.conn socket held)
    | tail _ member => exact rotating.apart p member socket opened

theorem connect (rotating : Rotating state) {socket : SocketId}
    (free : Reconnecting.apart [socket] state.others = true) :
    Rotating { state with
      opened := socket :: state.opened
      socket := some socket } :=
  { rotating with
    apart := by
      intro other member opened held
      cases held with
      | head =>
          simp only [Reconnecting.apart, List.all_eq_true] at free
          simpa using free other member
      | tail _ held => exact rotating.apart other member opened held
    asked := fun request member =>
      List.mem_cons_of_mem _ (rotating.asked request member)
    current := by
      intro current same
      cases same
      exact List.mem_cons_self }

theorem drop (rotating : Rotating state) :
    Rotating { state with socket := none } :=
  { rotating with
    current := by
      intro socket impossible
      cases impossible }

theorem ask (rotating : Rotating state) {socket : SocketId}
    (current : state.socket = some socket) :
    Rotating { state with
      requests := state.requests ++ [(socket, state.held)] } :=
  { rotating with
    asked := by
      intro request member
      obtain old | new := List.mem_append.mp member
      · exact rotating.asked request old
      · cases List.mem_singleton.mp new
        exact rotating.current socket current
    sent := by
      intro request member
      obtain old | new := List.mem_append.mp member
      · exact rotating.sent request old
      · cases List.mem_singleton.mp new
        exact rotating.heldReceived }

theorem takeRequest (rotating : Rotating state) (socket : SocketId) :
    Rotating { state with
      requests := state.requests.eraseP (onSocket socket) } :=
  { rotating with
    asked := fun request member =>
      rotating.asked request (List.mem_of_mem_eraseP member)
    sent := fun request member =>
      rotating.sent request (List.mem_of_mem_eraseP member) }

theorem takeReply (rotating : Rotating state) (socket : SocketId) :
    Rotating { state with
      replies := state.replies.eraseP (onSocket socket) } :=
  { rotating with
    unseen := fun reply member =>
      rotating.unseen reply (List.mem_of_mem_eraseP member)
    once := (List.eraseP_sublist.map Prod.snd).nodup rotating.once }

/-- An accepted resume leaves the client with the token it used. -/
theorem resume (rotating : Rotating state) (socket : SocketId)
    (received : state.held ∈ state.received) :
    Rotating { state with
      participant :=
        state.participant.resume socket state.held state.nextToken
      nextToken := state.nextToken + 1
      replies := state.replies ++ [(socket, state.nextToken)]
      used := state.held :: state.used
      owner := socket } where
  mine := rotating.mine
  apart := rotating.apart
  conn := by
    intro owner held
    exact (Option.some.inj held).symm
  asked := rotating.asked
  current := rotating.current
  fresh := Nat.lt_succ_self _
  prev := rfl
  rotated := by
    intro last same
    cases same
    exact ⟨Nat.le_of_lt (rotating.known state.held received), received⟩
  heldReceived := received
  sent := rotating.sent
  known := fun token member =>
    Nat.lt_succ_of_lt (rotating.known token member)
  unseen := by
    intro reply member
    obtain old | new := List.mem_append.mp member
    · obtain ⟨below, unseen⟩ := rotating.unseen reply old
      exact ⟨Nat.lt_succ_of_lt below, unseen⟩
    · cases List.mem_singleton.mp new
      refine ⟨Nat.lt_succ_self _, ?_⟩
      intro seen
      exact Nat.lt_irrefl _ (rotating.known _ seen)
  once := by
    rw [List.map_append, List.nodup_append]
    refine ⟨rotating.once, List.nodup_singleton _, ?_⟩
    intro token member other new same
    obtain ⟨reply, old, rfl⟩ := List.mem_map.mp member
    have below := (rotating.unseen reply old).1
    rw [same, List.mem_singleton.mp new] at below
    exact Nat.lt_irrefl _ below
  accepted := Or.inr rfl

theorem serve (rotating : Rotating state) (socket : SocketId) {token : Token}
    (ordered : state.participant.admits state.user token = true →
      token = state.held) :
    Rotating (state.serve socket token) := by
  have taken := rotating.takeRequest socket
  unfold Reconnecting.serve
  split
  case isTrue accepted =>
    cases ordered accepted
    exact taken.resume socket rotating.heldReceived
  case isFalse => exact taken

theorem hangUp (rotating : Rotating state) (socket : SocketId) :
    Rotating { state with
      participant := state.participant.onDisconnect socket
      hungUp := socket :: state.hungUp } :=
  { rotating with
    mine := by simpa using rotating.mine
    conn := by
      intro owner held
      exact rotating.conn owner (Participant.onDisconnect_conn.mp held).1
    fresh := by simpa using rotating.fresh
    prev := by simpa using rotating.prev
    rotated := by simpa using rotating.rotated
    accepted := by simpa using rotating.accepted }

theorem deliver (rotating : Rotating state) {socket : SocketId}
    {reply : SocketId × Token}
    (found : state.replies.find? (onSocket socket) = some reply)
    (ordered : state.socket = some socket →
      reply.2 = state.participant.resumeToken) :
    Rotating (state.deliver socket reply.2) := by
  have taken := rotating.takeReply socket
  have gone := not_mem_eraseP_of_find rotating.once found
  have below := (rotating.unseen reply (onSocket_of_find found).1).1
  unfold Reconnecting.deliver
  split
  case isTrue current =>
    exact { taken with
      rotated := by
        intro last same
        obtain ⟨past, received⟩ := rotating.rotated last same
        exact ⟨past, List.mem_cons_of_mem _ received⟩
      heldReceived := List.mem_cons_self
      sent := fun request member =>
        List.mem_cons_of_mem _ (rotating.sent request member)
      known := by
        intro token member
        cases member with
        | head => exact below
        | tail _ member => exact rotating.known token member
      unseen := by
        intro other member
        obtain ⟨issued, unseen⟩ := taken.unseen other member
        refine ⟨issued, ?_⟩
        intro seen
        obtain same | earlier := List.mem_cons.mp seen
        · exact gone other member same
        · exact unseen earlier
      accepted := Or.inl (ordered current) }
  case isFalse => exact taken

theorem elsewhere (rotating : Rotating state) {others : List Participant}
    (free : Reconnecting.apart state.opened others = true) :
    Rotating { state with others } :=
  { rotating with
    apart := by simpa [Reconnecting.apart] using free }

theorem start {others : List Participant} {socket : SocketId}
    (free : participantOf others socket = none) (p : ParticipantId)
    (user : UserId) (token : Token) :
    Rotating (Reconnecting.start others p user socket token) where
  mine := rfl
  apart := by
    intro other member opened held
    cases List.mem_singleton.mp held
    exact participantOf_eq_none.mp free other member
  conn := by
    intro owner held
    exact (Option.some.inj held).symm
  asked := by simp [Reconnecting.start]
  current := by
    intro current same
    cases same
    exact List.mem_singleton_self socket
  fresh := Nat.lt_succ_self token
  prev := rfl
  rotated := by simp [Reconnecting.start]
  heldReceived := List.mem_singleton_self token
  sent := by simp [Reconnecting.start]
  known := by
    intro received member
    cases List.mem_singleton.mp member
    exact Nat.lt_succ_self token
  unseen := by simp [Reconnecting.start]
  once := List.nodup_nil
  accepted := Or.inl rfl

end Rotating

theorem resumeStep_rotating {action : ResumeAction} (rotating : Rotating state)
    (ordered : InOrder state action)
    (taken : resumeStep state action = some next) : Rotating next := by
  cases action with
  | connect socket =>
      simp only [resumeStep] at taken
      split at taken
      case isTrue => cases taken
      case isFalse allowed =>
        cases taken
        simp only [not_or, Decidable.not_not] at allowed
        exact rotating.connect allowed.2
  | drop =>
      cases taken
      exact rotating.drop
  | ask =>
      cases current : state.socket with
      | none => simp [resumeStep, current] at taken
      | some socket =>
          simp only [resumeStep, current, Option.some.injEq] at taken
          subst taken
          simpa only [current] using rotating.ask current
  | serve socket =>
      cases found : state.requests.find? (onSocket socket) with
      | none => simp [resumeStep, found] at taken
      | some request =>
          simp only [resumeStep, found] at taken
          split at taken
          case isTrue => cases taken
          case isFalse live =>
            cases taken
            exact rotating.serve socket (ordered live request found)
  | hangUp socket =>
      simp only [resumeStep] at taken
      split at taken
      case isTrue =>
        cases taken
        exact rotating.hangUp socket
      case isFalse => cases taken
  | deliver socket =>
      cases found : state.replies.find? (onSocket socket) with
      | none => simp [resumeStep, found] at taken
      | some reply =>
          simp only [resumeStep, found, Option.some.injEq] at taken
          subst taken
          exact rotating.deliver found (ordered reply found)
  | elsewhere others =>
      simp only [resumeStep] at taken
      split at taken
      case isTrue free =>
        cases taken
        exact rotating.elsewhere free
      case isFalse => cases taken

/-- A step out of order leaves the client with a token that is not accepted. -/
theorem inOrder_of_resumable {action : ResumeAction} (rotating : Rotating state)
    (taken : resumeStep state action = some next) (resumable : Resumable next) :
    InOrder state action := by
  have below := rotating.known state.held rotating.heldReceived
  cases action with
  | serve socket =>
      intro live request found accepted
      have kept := resumable.held
      simp only [resumeStep, found, live, if_false, Option.some.injEq] at taken
      subst taken
      simp only [Reconnecting.serve, accepted, if_true,
        Participant.admits_iff, Participant.resume] at kept
      obtain ⟨-, issued | used⟩ := kept
      · exact absurd issued (Nat.ne_of_lt below)
      · exact Option.some.inj used
  | deliver socket =>
      intro reply found current
      have kept := resumable.held
      simp only [resumeStep, found, Option.some.injEq] at taken
      subst taken
      simp only [Reconnecting.deliver, current, if_true,
        Participant.admits_iff, rotating.prev] at kept
      obtain ⟨-, issued | used⟩ := kept
      · exact issued
      · -- A token that was used is one that was received before.
        have received := (rotating.rotated reply.2 used).2
        have unseen :=
          (rotating.unseen reply (onSocket_of_find found).1).2
        exact absurd received unseen
  | _ => trivial

theorem inOrder_of_stuck {action : ResumeAction}
    (stuck : resumeStep state action = none) : InOrder state action := by
  cases action with
  | serve socket =>
      intro live request found
      simp [resumeStep, found, live] at stuck
  | deliver socket =>
      intro reply found
      simp [resumeStep, found] at stuck
  | _ => trivial

/-- From any join on a socket that holds no other participant, the client can
resume in every state of a run exactly when the run keeps to the order. -/
theorem resumable_iff_inOrder {others : List Participant} {socket : SocketId}
    (free : participantOf others socket = none) (p : ParticipantId)
    (user : UserId) (token : Token) (actions : List ResumeAction) :
    Throughout resumeStep Resumable
        (Reconnecting.start others p user socket token) actions ↔
      Along resumeStep InOrder
        (Reconnecting.start others p user socket token) actions :=
  throughout_iff_along Rotating.resumable resumeStep_rotating
    inOrder_of_resumable inOrder_of_stuck (Rotating.start free p user token)

/-- A `call.joined` is lost with its socket, and the next one arrives. -/
def lostReply : List ResumeAction :=
  [.drop, .connect 2, .ask, .serve 2, .drop, .connect 3, .ask, .serve 3,
    .hangUp 2, .deliver 2, .deliver 3]

theorem resumable_iff_inOrder_lostReply :
    Throughout resumeStep Resumable (Reconnecting.start [] 7 8 1 0) lostReply ↔
      Along resumeStep InOrder (Reconnecting.start [] 7 8 1 0) lostReply :=
  resumable_iff_inOrder rfl 7 8 0 lostReply

/-- The first attempt is handled after the second one has been answered. -/
def lateResume : List ResumeAction :=
  [.connect 2, .ask, .connect 3, .ask, .serve 3, .deliver 3, .serve 2]

theorem call_lost_to_late_resume :
    ¬ ∀ (others : List Participant) (socket : SocketId),
      participantOf others socket = none →
      ∀ (p : ParticipantId) (user : UserId) (token : Token) (actions : List ResumeAction)
        (state : Reconnecting),
        run resumeStep (Reconnecting.start others p user socket token) actions =
          some state →
        Resumable state := by
  intro claimed
  obtain ⟨state, reached, refused⟩ : ∃ state,
      run resumeStep (Reconnecting.start [] 7 8 1 0) lateResume = some state ∧
        state.participant.admits state.user state.held = false := by
    refine ⟨_, rfl, ?_⟩
    decide +kernel
  have resumable := claimed [] 1 rfl 7 8 0 lateResume state reached
  exact absurd resumable.held (by simp [refused])

end Brook.Calls
