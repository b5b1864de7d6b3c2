import Mathlib.Data.List.Basic

namespace Brook.Calls

/-! The participants of a call, as the call manager keeps them. -/

abbrev SocketId := Nat

abbrev UserId := Nat

abbrev ChannelId := Nat

abbrev CallId := Nat

abbrev ParticipantId := Nat

/-- Resume tokens, numbered in the order they are drawn. -/
abbrev Token := Nat

structure Participant where
  participantId : ParticipantId
  userId : UserId
  conn : Option SocketId
  resumeToken : Token
  prevResumeToken : Option Token
  grace : Bool

def tokenOk (given current : Token) (previous : Option Token) : Bool :=
  given = current || previous = some given

/-- `_participant_of` over `call.participants.values()`; `none` is
`not_in_call`. -/
def participantOf (participants : List Participant) (conn : SocketId) :
    Option Participant :=
  participants.find? fun p => p.conn = some conn

namespace Participant

/-- The checks of `resume` on the participant that was asked for. -/
def admits (p : Participant) (user : UserId) (token : Token) : Bool :=
  p.userId = user && tokenOk token p.resumeToken p.prevResumeToken

/-- What an admitted `resume` writes. -/
def resume (p : Participant) (conn : SocketId) (token fresh : Token) :
    Participant :=
  { p with
    grace := false
    conn := some conn
    prevResumeToken := some token
    resumeToken := fresh }

def onDisconnect (p : Participant) (conn : SocketId) : Participant :=
  if p.conn = some conn then { p with conn := none, grace := true } else p

variable {p : Participant}

theorem admits_iff {user : UserId} {token : Token} :
    p.admits user token = true ↔
      p.userId = user ∧
        (token = p.resumeToken ∨ p.prevResumeToken = some token) := by
  simp [admits, tokenOk]

@[simp] theorem onDisconnect_userId (conn : SocketId) :
    (p.onDisconnect conn).userId = p.userId := by
  unfold onDisconnect
  split <;> rfl

@[simp] theorem onDisconnect_resumeToken (conn : SocketId) :
    (p.onDisconnect conn).resumeToken = p.resumeToken := by
  unfold onDisconnect
  split <;> rfl

@[simp] theorem onDisconnect_prevResumeToken (conn : SocketId) :
    (p.onDisconnect conn).prevResumeToken = p.prevResumeToken := by
  unfold onDisconnect
  split <;> rfl

theorem onDisconnect_conn {conn other : SocketId} :
    (p.onDisconnect conn).conn = some other ↔
      p.conn = some other ∧ other ≠ conn := by
  unfold onDisconnect
  split
  case isTrue held =>
    constructor
    · intro impossible
      cases impossible
    · rintro ⟨kept, different⟩
      rw [held, Option.some.injEq] at kept
      exact absurd kept.symm different
  case isFalse free =>
    constructor
    · intro kept
      refine ⟨kept, ?_⟩
      rintro rfl
      exact free kept
    · exact And.left

end Participant

theorem participantOf_eq_none {participants : List Participant}
    {conn : SocketId} :
    participantOf participants conn = none ↔
      ∀ p ∈ participants, p.conn ≠ some conn := by
  simp [participantOf]

end Brook.Calls
