import Brook.Table.Basic
import Brook.Transition.Run

namespace Brook.Seq

/-! Database sessions with savepoints, and the change number that
`before_flush` takes from the one row of `sync_counter`. -/

abbrev SessionId := Nat

abbrev RowId := Nat

/-- A `SessionTransaction`: its own id, then those of its parents up to the
root. -/
abbrev SubTx := List Nat

/-- A row with the number it was given, and the value of the counter row that
the session held locked at that moment. -/
structure Stamp where
  row : RowId
  seq : Nat
  held : Option Nat
deriving DecidableEq

/-- A savepoint that is open, or the root: what was written since, and the
counter's new value if the bump is one of these writes. -/
structure Frame where
  id : Nat
  rows : List Stamp
  bump : Option Nat

/-- The open frames, the innermost first; `session.info`, with the number and
the transaction that took it; `broken` after a failed flush, when the session
refuses everything but a rollback. -/
structure Session where
  stack : List Frame
  broken : Bool
  info : Option (Nat × SubTx)

def Session.idle : Session := ⟨[], false, none⟩

/-- The transaction that the session is in, nested or not. -/
def Session.transaction (session : Session) : SubTx :=
  session.stack.map Frame.id

/-- The value of the counter row that the frames hold locked. -/
def heldValue (stack : List Frame) : Option Nat := stack.findSome? Frame.bump

/-- `counter` is the committed row of `sync_counter`; the log has the rows of
every commit, the last commit first. -/
structure Store where
  counter : Nat
  sessions : Table SessionId Session
  log : List (List Stamp)
  nextId : Nat

namespace Store

def start (counter : Nat) : Store := ⟨counter, ∅, [], 0⟩

def session (store : Store) (id : SessionId) : Session :=
  (store.sessions.get? id).getD .idle

def setSession (store : Store) (id : SessionId) (session : Session) : Store :=
  { store with sessions := store.sessions.put id session }

@[simp] theorem setSession_counter (store : Store) (id : SessionId)
    (session : Session) : (store.setSession id session).counter =
      store.counter := rfl

@[simp] theorem setSession_log (store : Store) (id : SessionId)
    (session : Session) : (store.setSession id session).log = store.log := rfl

/-- Another session holds the counter row. -/
def lockedElsewhere (store : Store) (id : SessionId) : Bool :=
  store.sessions.rows.any fun entry =>
    entry.1 ≠ id && (heldValue entry.2.stack).isSome

end Store

inductive SessionAction
  | begin (session : SessionId)
  | savepoint (session : SessionId)
  | takeSeq (session : SessionId)
  | stamp (session : SessionId) (row : RowId)
  | flushFails (session : SessionId)
  | release (session : SessionId)
  | rollback (session : SessionId) (id : Nat)
  | commit (session : SessionId)

/-- The walk of `_forget_on_rollback` up from the transaction that took the
number. -/
def takenUnder : SubTx → SubTx → Bool
  | [], _ => false
  | id :: parents, previous =>
      id :: parents = previous || takenUnder parents previous

/-- `BEGIN` or `SAVEPOINT`. -/
def openStep (store : Store) (id : SessionId) (session : Session) : Store :=
  { store.setSession id
      { session with stack := ⟨store.nextId, [], none⟩ :: session.stack } with
    nextId := store.nextId + 1 }

/-- `_take_seq`: the cached number, else a bump of the counter row. -/
def takeSeqStep (store : Store) (id : SessionId) (session : Session) :
    Option Store :=
  match session.info, session.stack with
  | some _, _ => some store
  | none, [] => none
  | none, frame :: below =>
      if store.lockedElsewhere id then none
      else
        let seq := store.counter + 1
        some (store.setSession id
          { session with
            stack := { frame with bump := some seq } :: below
            info := some (seq, session.transaction) })

/-- The flush writes a row with the number that was taken. -/
def stampStep (store : Store) (id : SessionId) (session : Session)
    (row : RowId) : Option Store :=
  match session.info, session.stack with
  | some (seq, _), frame :: below =>
      let stamp : Stamp := ⟨row, seq, heldValue session.stack⟩
      some (store.setSession id
        { session with
          stack := { frame with rows := stamp :: frame.rows } :: below })
  | _, _ => none

/-- A flush fails: the database undoes the innermost savepoint (or everything),
and `after_soft_rollback` comes for the flush's own subtransaction only. -/
def flushFailsStep (store : Store) (id : SessionId) (session : Session) :
    Option Store :=
  match session.stack with
  | [] => none
  | frame :: below =>
      some (store.setSession id
        { session with
          stack := { frame with rows := [], bump := none } :: below
          broken := true })

/-- `RELEASE SAVEPOINT`: its writes and its locks are its parent's now. -/
def releaseStep (store : Store) (id : SessionId) (session : Session) :
    Option Store :=
  match session.stack with
  | frame :: parent :: below =>
      let merged : Frame :=
        { parent with
          rows := frame.rows ++ parent.rows
          bump := frame.bump.or parent.bump }
      some (store.setSession id { session with stack := merged :: below })
  | _ => none

/-- The frames under the one rolled back. -/
def framesUnder (id : Nat) : List Frame → Option (List Frame)
  | [] => none
  | frame :: below =>
      if frame.id = id then some below else framesUnder id below

/-- A rollback to before a savepoint, or of the whole transaction, with
`_forget_on_rollback` and, at the end of the root, `_forget`. -/
def rollbackStep (store : Store) (id : SessionId) (session : Session)
    (rolledBack : Nat) : Option Store :=
  match framesUnder rolledBack session.stack with
  | none => none
  | some below =>
      let previous : SubTx := rolledBack :: below.map Frame.id
      let forgotten :=
        below.isEmpty ||
          match session.info with
          | none => true
          | some (_, takenIn) => takenUnder takenIn previous
      some (store.setSession id
        { stack := below
          broken := false
          info := if forgotten then none else session.info })

/-- `COMMIT`, with the release of the savepoints that are still open. -/
def commitStep (store : Store) (id : SessionId) (session : Session) : Store :=
  { store.setSession id .idle with
    counter := (heldValue session.stack).getD store.counter
    log := session.stack.flatMap Frame.rows :: store.log }

def seqStep (store : Store) : SessionAction → Option Store
  | .begin id =>
      if (store.session id).stack = [] then
        some (openStep store id (store.session id))
      else none
  | .savepoint id =>
      if (store.session id).stack = [] ∨ (store.session id).broken then none
      else some (openStep store id (store.session id))
  | .takeSeq id =>
      if (store.session id).broken then none
      else takeSeqStep store id (store.session id)
  | .stamp id row =>
      if (store.session id).broken then none
      else stampStep store id (store.session id) row
  | .flushFails id =>
      if (store.session id).broken then none
      else flushFailsStep store id (store.session id)
  | .release id =>
      if (store.session id).broken then none
      else releaseStep store id (store.session id)
  | .rollback id rolledBack =>
      rollbackStep store id (store.session id) rolledBack
  | .commit id =>
      if (store.session id).stack = [] ∨ (store.session id).broken then none
      else some (commitStep store id (store.session id))

end Brook.Seq
