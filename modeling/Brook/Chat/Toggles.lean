import Brook.Transition.Run
import Mathlib.Data.List.Nodup
import Mathlib.Logic.Function.Basic

namespace Brook.Chat

/-! Toggles of one emoji on one message.  Each is a transaction that takes its number
under the counter's lock and holds it until it commits, and reads the count for its
event in a statement after that. -/

/-- How far a request to toggle has come. -/
inductive Phase where
  | asked (attempt : Nat)
  /-- The reaction was looked up, before any lock. -/
  | looked (attempt : Nat) (existing : Bool)
  /-- The flush has its number and holds the lock. -/
  | stamped (attempt : Nat) (existing : Bool) (seq : Nat)
  | flushed (added : Bool) (seq : Nat)
  | committed (added : Bool) (seq : Nat)
  | counted (added : Bool) (seq count : Nat)
  | sent (added : Bool) (seq count : Nat)
  | failed
deriving DecidableEq

structure Toggle where
  userId : String
  phase : Phase
deriving DecidableEq

/-- The `reaction.update` of one toggle. -/
structure ReactionEvent where
  userId : String
  added : Bool
  count : Nat
  seq : Nat
deriving DecidableEq

def Toggle.event? (toggle : Toggle) : Option ReactionEvent :=
  match toggle.phase with
  | .sent added seq count => some ⟨toggle.userId, added, count, seq⟩
  | _ => none

/-! What a toggle has committed, and the count it read. -/

structure Stamp where
  userId : String
  added : Bool
  seq : Nat

def Toggle.stamp? (toggle : Toggle) : Option Stamp :=
  match toggle.phase with
  | .committed added seq => some ⟨toggle.userId, added, seq⟩
  | .counted added seq _ => some ⟨toggle.userId, added, seq⟩
  | .sent added seq _ => some ⟨toggle.userId, added, seq⟩
  | _ => none

def Toggle.count? (toggle : Toggle) : Option Nat :=
  match toggle.phase with
  | .counted _ _ count => some count
  | .sent _ _ count => some count
  | _ => none

/-- The number a toggle holds the lock with. -/
def Toggle.pending? (toggle : Toggle) : Option Nat :=
  match toggle.phase with
  | .stamped _ _ seq => some seq
  | .flushed _ seq => some seq
  | _ => none

/-- The user whose row a toggle is about to commit. -/
def Toggle.adding? (toggle : Toggle) : Option String :=
  match toggle.phase with
  | .flushed true _ => some toggle.userId
  | _ => none

structure Toggles where
  counter : Nat
  /-- The toggle whose transaction holds the counter's row. -/
  holder : Option Nat
  /-- Who has reacted, as committed. -/
  rows : List String
  toggles : List Toggle
deriving DecidableEq

namespace Toggles

inductive Action where
  /-- A user's request; ids of users are never empty. -/
  | ask (userId : String)
  | look (k : Nat)
  | take (k : Nat)
  | flush (k : Nat)
  | commit (k : Nat)
  | count (k : Nat)
  | send (k : Nat)
  /-- The request ends with an error, and its transaction is rolled back. -/
  | fail (k : Nat)
  /-- Another transaction that changes something. -/
  | other

def put (s : Toggles) (k : Nat) (userId : String) (phase : Phase) : Toggles :=
  { s with toggles := s.toggles.set k ⟨userId, phase⟩ }

/-- Gives the lock up, if it is this toggle's. -/
def release (s : Toggles) (k : Nat) : Toggles :=
  { s with holder := if s.holder = some k then none else s.holder }

/-- The insert or the delete of the flush; an insert of a row that is there by now is
tried once more. -/
def write (s : Toggles) (k : Nat) (userId : String) (attempt : Nat) (existing : Bool)
    (seq : Nat) : Toggles :=
  if existing then s.put k userId (.flushed false seq)
  else if userId ∈ s.rows then
    if attempt = 2 then (s.release k).put k userId .failed
    else (s.release k).put k userId (.asked (attempt + 1))
  else s.put k userId (.flushed true seq)

/-- The user's row comes or goes; a delete may find none. -/
def settled (rows : List String) (userId : String) (added : Bool) : List String :=
  if added then userId :: rows else rows.erase userId

def settle (s : Toggles) (k : Nat) (userId : String) (added : Bool) (seq : Nat) : Toggles :=
  { s.release k with
    counter := seq
    rows := settled s.rows userId added }

def step (s : Toggles) : Action → Option Toggles
  | .ask userId =>
      if userId = "" then none
      else some { s with toggles := s.toggles ++ [⟨userId, .asked 1⟩] }
  | .look k =>
      match s.toggles[k]? with
      | some ⟨userId, .asked attempt⟩ =>
          some (s.put k userId (.looked attempt (decide (userId ∈ s.rows))))
      | _ => none
  | .take k =>
      match s.toggles[k]? with
      | some ⟨userId, .looked attempt existing⟩ =>
          if s.holder = none then
            some ({ s with holder := some k }.put k userId
              (.stamped attempt existing (s.counter + 1)))
          else none
      | _ => none
  | .flush k =>
      match s.toggles[k]? with
      | some ⟨userId, .stamped attempt existing seq⟩ =>
          some (s.write k userId attempt existing seq)
      | _ => none
  | .commit k =>
      match s.toggles[k]? with
      | some ⟨userId, .flushed added seq⟩ =>
          some ((s.settle k userId added seq).put k userId (.committed added seq))
      | _ => none
  | .count k =>
      match s.toggles[k]? with
      | some ⟨userId, .committed added seq⟩ =>
          some (s.put k userId (.counted added seq s.rows.length))
      | _ => none
  | .send k =>
      match s.toggles[k]? with
      | some ⟨userId, .counted added seq count⟩ =>
          some (s.put k userId (.sent added seq count))
      | _ => none
  | .fail k =>
      match s.toggles[k]? with
      | some ⟨userId, .asked _⟩ => some (s.put k userId .failed)
      | some ⟨userId, .looked _ _⟩ => some (s.put k userId .failed)
      | some ⟨userId, .stamped _ _ _⟩ => some ((s.release k).put k userId .failed)
      | some ⟨userId, .flushed _ _⟩ => some ((s.release k).put k userId .failed)
      | _ => none
  | .other => if s.holder = none then some { s with counter := s.counter + 1 } else none

/-- No reaction yet, and no request. -/
def start (counter : Nat) : Toggles := ⟨counter, none, [], []⟩

/-- The events that were sent. -/
def events (s : Toggles) : List ReactionEvent := s.toggles.filterMap Toggle.event?

/-- Every request was answered. -/
def Ended (s : Toggles) : Prop :=
  ∀ toggle ∈ s.toggles, toggle.phase = .failed ∨ toggle.event?.isSome

/-- A part of each toggle's state, by the toggle's place. -/
def at? {α : Type} (part : Toggle → Option α) (s : Toggles) (k : Nat) : Option α :=
  (s.toggles[k]?).bind part

theorem at?_put {α : Type} {part : Toggle → Option α} {s : Toggles} {k : Nat} {old : Toggle}
    (found : s.toggles[k]? = some old) (userId : String) (phase : Phase) :
    at? part (s.put k userId phase) = Function.update (at? part s) k (part ⟨userId, phase⟩) := by
  have inside : k < s.toggles.length := (List.getElem?_eq_some_iff.mp found).1
  funext j
  by_cases here : j = k
  · subst here
    rw [Function.update_self, at?, put, List.getElem?_set_self inside, Option.bind_some]
  · rw [Function.update_of_ne here, at?, put, List.getElem?_set_ne (Ne.symm here), at?]

/-- A toggle that comes to a phase with the same part. -/
theorem at?_put_same {α : Type} {part : Toggle → Option α} {s : Toggles} {k : Nat}
    {old : Toggle} (found : s.toggles[k]? = some old) (userId : String) (phase : Phase)
    (same : part ⟨userId, phase⟩ = part old) :
    at? part (s.put k userId phase) = at? part s := by
  rw [at?_put found, same]
  have own : part old = at? part s k := by rw [at?, found, Option.bind_some]
  rw [own, Function.update_eq_self]

theorem at?_userId_put {s : Toggles} {k : Nat} {userId : String} {old : Phase}
    (found : s.toggles[k]? = some ⟨userId, old⟩) (phase : Phase) :
    at? (some ·.userId) (s.put k userId phase) = at? (some ·.userId) s :=
  at?_put_same found _ _ rfl

theorem update_cases {α : Type} {part : Nat → Option α} {k j : Nat} {value found : α}
    (holds : Function.update part k (some value) j = some found) :
    j = k ∧ found = value ∨ j ≠ k ∧ part j = some found := by
  by_cases here : j = k
  · subst here
    rw [Function.update_self, Option.some.injEq] at holds
    exact .inl ⟨rfl, holds.symm⟩
  · rw [Function.update_of_ne here] at holds
    exact .inr ⟨here, holds⟩

@[simp] theorem at?_release {α : Type} (part : Toggle → Option α) (s : Toggles) (k : Nat) :
    at? part (s.release k) = at? part s := rfl

theorem at?_ask {α : Type} {part : Toggle → Option α} {s : Toggles} {userId : String}
    (none_yet : part ⟨userId, .asked 1⟩ = none) :
    at? part { s with toggles := s.toggles ++ [⟨userId, .asked 1⟩] } = at? part s := by
  funext j
  simp only [at?, List.getElem?_append]
  split
  case isTrue => rfl
  case isFalse beyond =>
    rw [List.getElem?_eq_none (Nat.le_of_not_lt beyond)]
    cases place : j - s.toggles.length with
    | zero => simp [none_yet]
    | succ more => simp

/-- Every toggle of the user was committed by then. -/
def CommittedBy (stamp? : Nat → Option Stamp) (userId : String) (seq : Nat) : Prop :=
  ∀ {j : Nat} {stamp : Stamp}, stamp? j = some stamp → stamp.userId = userId → stamp.seq ≤ seq

/-- What the committed rows and the counts that were read say about each other. -/
structure Logged (rows : List String) (counter : Nat) (stamp? : Nat → Option Stamp)
    (count? : Nat → Option Nat) : Prop where
  nodup : rows.Nodup
  past : ∀ {k stamp}, stamp? k = some stamp → stamp.seq ≤ counter
  apart : ∀ {i j first second}, stamp? i = some first → stamp? j = some second →
    first.seq = second.seq → i = j
  /-- A user has reacted exactly where the last toggle of theirs added the reaction. -/
  own : ∀ userId, userId ∈ rows ↔ ∃ k stamp, stamp? k = some stamp ∧ stamp.userId = userId ∧
    stamp.added = true ∧ CommittedBy stamp? userId stamp.seq
  /-- The count of the last toggle is of the rows as they are. -/
  total : ∀ {k stamp count}, stamp? k = some stamp → count? k = some count →
    (∀ {j other}, stamp? j = some other → other.seq ≤ stamp.seq) → count = rows.length
  /-- A count includes who has reacted by then and still does. -/
  reached : ∀ {k stamp count userId}, stamp? k = some stamp → count? k = some count →
    userId ∈ rows → CommittedBy stamp? userId stamp.seq → 0 < count

section

variable {rows : List String} {counter : Nat} {stamp? : Nat → Option Stamp}
variable {count? : Nat → Option Nat}

theorem Logged.later (logged : Logged rows counter stamp? count?) {later : Nat}
    (ordered : counter ≤ later) : Logged rows later stamp? count? :=
  { logged with past := fun found => Nat.le_trans (logged.past found) ordered }

theorem Logged.count (logged : Logged rows counter stamp? count?) (k : Nat) :
    Logged rows counter stamp? (Function.update count? k (some rows.length)) where
  nodup := logged.nodup
  past := logged.past
  apart := logged.apart
  own := logged.own
  total := by
    intro j stamp count stamped counted last
    rcases update_cases counted with ⟨_, rfl⟩ | ⟨_, before⟩
    · rfl
    · exact logged.total stamped before last
  reached := by
    intro j stamp count userId stamped counted member committed
    rcases update_cases counted with ⟨_, rfl⟩ | ⟨_, before⟩
    · exact List.length_pos_of_mem member
    · exact logged.reached stamped before member committed

/-- The commit of one user does not matter to what others have committed. -/
theorem committedBy_update {k seq : Nat} {stamp : Stamp} {other : String}
    (uncommitted : stamp? k = none) (different : other ≠ stamp.userId) :
    CommittedBy (Function.update stamp? k (some stamp)) other seq ↔
      CommittedBy stamp? other seq := by
  constructor
  · intro committed j found stamped same
    have apart : j ≠ k := by
      rintro rfl
      rw [uncommitted] at stamped
      cases stamped
    refine committed (j := j) ?_ same
    rwa [Function.update_of_ne apart]
  · intro committed j found stamped same
    rcases update_cases stamped with ⟨_, rfl⟩ | ⟨_, before⟩
    · exact (different same.symm).elim
    · exact committed before same

/-- Where the new stamp is not the one in question, it was there before. -/
theorem last_update {k : Nat} {stamp : Stamp} {other : String}
    (uncommitted : stamp? k = none) (different : other ≠ stamp.userId) :
    (∃ j found, Function.update stamp? k (some stamp) j = some found ∧ found.userId = other ∧
      found.added = true ∧
      CommittedBy (Function.update stamp? k (some stamp)) other found.seq) ↔
    ∃ j found, stamp? j = some found ∧ found.userId = other ∧ found.added = true ∧
      CommittedBy stamp? other found.seq := by
  simp only [committedBy_update uncommitted different]
  constructor
  · rintro ⟨j, found, stamped, named, adds, last⟩
    rcases update_cases stamped with ⟨_, rfl⟩ | ⟨_, before⟩
    · exact (different named.symm).elim
    · exact ⟨j, found, before, named, adds, last⟩
  · rintro ⟨j, found, stamped, named, adds, last⟩
    have apart : j ≠ k := by
      rintro rfl
      rw [uncommitted] at stamped
      cases stamped
    exact ⟨j, found, (Function.update_of_ne apart _ _).trans stamped, named, adds, last⟩

theorem mem_settled_other {userId other : String} {added : Bool} (different : other ≠ userId) :
    other ∈ settled rows userId added ↔ other ∈ rows := by
  rw [settled]
  split
  case isTrue => simp [different]
  case isFalse => exact List.mem_erase_of_ne different

theorem mem_settled_self {userId : String} {added : Bool} (nodup : rows.Nodup) :
    userId ∈ settled rows userId added ↔ added = true := by
  cases added with
  | true => simp [settled]
  | false => simp [settled, nodup.not_mem_erase]

theorem Logged.commit (logged : Logged rows counter stamp? count?) {k : Nat}
    {userId : String} {added : Bool} (uncommitted : stamp? k = none) (uncounted : count? k = none)
    (fresh : added = true → userId ∉ rows) :
    Logged (settled rows userId added) (counter + 1)
      (Function.update stamp? k (some ⟨userId, added, counter + 1⟩)) count? := by
  have earlier : ∀ {j stamp}, stamp? j = some stamp → stamp.seq < counter + 1 :=
    fun found => Nat.lt_succ_of_le (logged.past found)
  have new : Function.update stamp? k (some ⟨userId, added, counter + 1⟩) k =
      some ⟨userId, added, counter + 1⟩ := Function.update_self ..
  -- What was counted was committed before.
  have counted_before : ∀ {j count stamp}, count? j = some count →
      Function.update stamp? k (some ⟨userId, added, counter + 1⟩) j = some stamp →
      stamp? j = some stamp := by
    intro j count stamp counted stamped
    rcases update_cases stamped with ⟨rfl, _⟩ | ⟨_, before⟩
    · rw [uncounted] at counted
      cases counted
    · exact before
  constructor
  case nodup =>
    rw [settled]
    split
    case isTrue adds => exact List.nodup_cons.mpr ⟨fresh adds, logged.nodup⟩
    case isFalse => exact logged.nodup.erase userId
  case past =>
    intro j stamp stamped
    rcases update_cases stamped with ⟨_, rfl⟩ | ⟨_, before⟩
    · exact Nat.le_refl _
    · exact Nat.le_of_lt (earlier before)
  case apart =>
    intro i j first second here there same
    rcases update_cases here with ⟨rfl, rfl⟩ | ⟨_, one⟩ <;>
      rcases update_cases there with ⟨rfl, rfl⟩ | ⟨_, two⟩
    · rfl
    · exact absurd same (Nat.ne_of_gt (earlier two))
    · exact absurd same (Nat.ne_of_lt (earlier one))
    · exact logged.apart one two same
  case own =>
    intro other
    by_cases same : other = userId
    · subst same
      rw [mem_settled_self logged.nodup]
      constructor
      · rintro rfl
        refine ⟨k, _, new, rfl, rfl, ?_⟩
        intro j stamp stamped _
        rcases update_cases stamped with ⟨_, rfl⟩ | ⟨_, before⟩
        · exact Nat.le_refl _
        · exact Nat.le_of_lt (earlier before)
      · rintro ⟨j, stamp, stamped, named, adds, last⟩
        rcases update_cases stamped with ⟨_, rfl⟩ | ⟨_, before⟩
        · exact adds
        · exact absurd (earlier before) (Nat.not_lt.mpr (last new rfl))
    · rw [mem_settled_other same, logged.own, last_update uncommitted same]
  case total =>
    intro j stamp count stamped counted last
    exact absurd (earlier (counted_before counted stamped)) (Nat.not_lt.mpr (last new))
  case reached =>
    intro j stamp count other stamped counted member committed
    have before := counted_before counted stamped
    by_cases same : other = userId
    · exact absurd (earlier before) (Nat.not_lt.mpr (committed new same.symm))
    · exact logged.reached before counted ((mem_settled_other same).mp member)
        ((committedBy_update uncommitted same).mp committed)

end

/-- The toggles of a run: at most one holds the lock, and what it is about to commit
still holds when it does. -/
structure Wf (s : Toggles) : Prop where
  logged : Logged s.rows s.counter (at? Toggle.stamp? s) (at? Toggle.count? s)
  named : ∀ {k userId}, at? (some ·.userId) s k = some userId → userId ≠ ""
  held : ∀ {k seq}, at? Toggle.pending? s k = some seq →
    s.holder = some k ∧ seq = s.counter + 1
  fresh : ∀ {k userId}, at? Toggle.adding? s k = some userId → userId ∉ s.rows

theorem at?_of_found {α : Type} {part : Toggle → Option α} {s : Toggles} {k : Nat}
    {toggle : Toggle} (found : s.toggles[k]? = some toggle) : at? part s k = part toggle := by
  rw [at?, found, Option.bind_some]

theorem adding_pending {s : Toggles} {k : Nat} {userId : String}
    (adding : at? Toggle.adding? s k = some userId) :
    ∃ seq, at? Toggle.pending? s k = some seq := by
  obtain ⟨toggle, found, adds⟩ := Option.bind_eq_some_iff.mp adding
  rw [at?_of_found found]
  obtain ⟨user, phase⟩ := toggle
  simp only [Toggle.adding?] at adds
  split at adds
  case h_1 seq => exact ⟨seq, rfl⟩
  case h_2 => cases adds

/-- A step that commits nothing and reads no count. -/
theorem Wf.keep {s next : Toggles} (wf : s.Wf) (rows : next.rows = s.rows)
    (counter : next.counter = s.counter) (stamps : at? Toggle.stamp? next = at? Toggle.stamp? s)
    (counts : at? Toggle.count? next = at? Toggle.count? s)
    (names : ∀ {k userId}, at? (some ·.userId) next k = some userId → userId ≠ "")
    (held : ∀ {k seq}, at? Toggle.pending? next k = some seq →
      next.holder = some k ∧ seq = s.counter + 1)
    (fresh : ∀ {k userId}, at? Toggle.adding? next k = some userId → userId ∉ s.rows) :
    next.Wf where
  logged := by
    rw [rows, counter, stamps, counts]
    exact wf.logged
  named := names
  held := by
    rw [counter]
    exact held
  fresh := by
    rw [rows]
    exact fresh

section

variable {s : Toggles} {k : Nat} {userId : String} {old phase : Phase}

theorem Wf.names_put (wf : s.Wf) (found : s.toggles[k]? = some ⟨userId, old⟩) {j : Nat}
    {other : String} (named : at? (some ·.userId) (s.put k userId phase) j = some other) :
    other ≠ "" := by
  rw [at?_userId_put found] at named
  exact wf.named named

/-- Without the lock a toggle only looks, or waits. -/
theorem Wf.wait (wf : s.Wf) (found : s.toggles[k]? = some ⟨userId, old⟩)
    (stamps : Toggle.stamp? ⟨userId, phase⟩ = Toggle.stamp? ⟨userId, old⟩)
    (counts : Toggle.count? ⟨userId, phase⟩ = Toggle.count? ⟨userId, old⟩)
    (pending : Toggle.pending? ⟨userId, phase⟩ = Toggle.pending? ⟨userId, old⟩)
    (adding : Toggle.adding? ⟨userId, phase⟩ = Toggle.adding? ⟨userId, old⟩) :
    (s.put k userId phase).Wf := by
  refine wf.keep rfl rfl (at?_put_same found _ _ stamps) (at?_put_same found _ _ counts)
    (wf.names_put found) ?_ ?_
  · rw [at?_put_same found _ _ pending]
    exact wf.held
  · rw [at?_put_same found _ _ adding]
    exact wf.fresh

theorem Wf.alone (wf : s.Wf) {seq : Nat} (found : s.toggles[k]? = some ⟨userId, old⟩)
    (pending : Toggle.pending? ⟨userId, old⟩ = some seq) {j : Nat} (different : j ≠ k) :
    at? Toggle.pending? s j = none := by
  have own := wf.held ((at?_of_found found).trans pending)
  cases other : at? Toggle.pending? s j with
  | none => rfl
  | some number =>
      have theirs := (wf.held other).1
      rw [own.1, Option.some.injEq] at theirs
      exact (different theirs.symm).elim

theorem none_adding (none_pending : ∀ j, at? Toggle.pending? s j = none) (j : Nat) :
    at? Toggle.adding? s j = none := by
  cases adding : at? Toggle.adding? s j with
  | none => rfl
  | some user =>
      obtain ⟨seq, pending⟩ := adding_pending adding
      rw [none_pending] at pending
      cases pending

/-- The lock is given up, and nobody holds it. -/
theorem Wf.unlock (wf : s.Wf) {seq : Nat} (found : s.toggles[k]? = some ⟨userId, old⟩)
    (pending : Toggle.pending? ⟨userId, old⟩ = some seq)
    (none_pending : Toggle.pending? ⟨userId, phase⟩ = none) :
    (s.release k).holder = none ∧
      ∀ j, at? Toggle.pending? ((s.release k).put k userId phase) j = none := by
  have own := (wf.held ((at?_of_found found).trans pending)).1
  constructor
  · rw [release, own, if_pos rfl]
  · intro j
    rw [at?_put (s := s.release k) found, none_pending, at?_release]
    by_cases here : j = k
    · rw [here, Function.update_self]
    · rw [Function.update_of_ne here]
      exact wf.alone found pending here

/-- A transaction that is rolled back. -/
theorem Wf.rollback (wf : s.Wf) {seq : Nat} (found : s.toggles[k]? = some ⟨userId, old⟩)
    (pending : Toggle.pending? ⟨userId, old⟩ = some seq)
    (none_pending : Toggle.pending? ⟨userId, phase⟩ = none)
    (stamps : Toggle.stamp? ⟨userId, phase⟩ = Toggle.stamp? ⟨userId, old⟩)
    (counts : Toggle.count? ⟨userId, phase⟩ = Toggle.count? ⟨userId, old⟩) :
    ((s.release k).put k userId phase).Wf := by
  obtain ⟨_, nobody⟩ := wf.unlock found pending none_pending
  refine wf.keep rfl rfl ?_ ?_ ?_ ?_ ?_
  · exact at?_put_same (s := s.release k) found _ _ stamps
  · exact at?_put_same (s := s.release k) found _ _ counts
  · intro j other named
    rw [at?_userId_put (s := s.release k) found] at named
    exact wf.named named
  · intro j number here
    rw [nobody] at here
    cases here
  · intro j user here
    rw [none_adding nobody] at here
    cases here

theorem Wf.take (wf : s.Wf) {attempt : Nat} {existing : Bool} (free : s.holder = none)
    (found : s.toggles[k]? = some ⟨userId, .looked attempt existing⟩) :
    ({ s with holder := some k }.put k userId
      (.stamped attempt existing (s.counter + 1))).Wf := by
  refine wf.keep rfl rfl ?_ ?_ ?_ ?_ ?_
  · exact at?_put_same (s := { s with holder := some k }) found _ _ rfl
  · exact at?_put_same (s := { s with holder := some k }) found _ _ rfl
  · intro j other named
    rw [at?_userId_put (s := { s with holder := some k }) found] at named
    exact wf.named named
  · intro j seq pending
    rw [at?_put (s := { s with holder := some k }) found] at pending
    rcases update_cases pending with ⟨rfl, rfl⟩ | ⟨_, before⟩
    · exact ⟨rfl, rfl⟩
    · have holder := (wf.held before).1
      rw [free] at holder
      cases holder
  · intro j user adding
    have same : at? Toggle.adding? ({ s with holder := some k }.put k userId
        (.stamped attempt existing (s.counter + 1))) = at? Toggle.adding? s :=
      at?_put_same (s := { s with holder := some k }) found _ _ rfl
    rw [same] at adding
    exact wf.fresh adding

theorem Wf.write (wf : s.Wf) {attempt seq : Nat} {existing : Bool}
    (found : s.toggles[k]? = some ⟨userId, .stamped attempt existing seq⟩) :
    (s.write k userId attempt existing seq).Wf := by
  rw [Toggles.write]
  split
  case isTrue => exact wf.wait found rfl rfl rfl rfl
  case isFalse =>
    split
    case isTrue =>
      split
      case isTrue => exact wf.rollback found rfl rfl rfl rfl
      case isFalse => exact wf.rollback found rfl rfl rfl rfl
    case isFalse absent =>
      refine wf.keep rfl rfl (at?_put_same found _ _ rfl) (at?_put_same found _ _ rfl)
        (wf.names_put found) ?_ ?_
      · rw [at?_put_same found userId (.flushed true seq) rfl]
        exact wf.held
      · intro j user adding
        rw [at?_put found] at adding
        rcases update_cases adding with ⟨_, rfl⟩ | ⟨_, before⟩
        · exact absent
        · exact wf.fresh before

theorem Wf.commit (wf : s.Wf) {added : Bool} {seq : Nat}
    (found : s.toggles[k]? = some ⟨userId, .flushed added seq⟩) :
    ((s.settle k userId added seq).put k userId (.committed added seq)).Wf := by
  have pending : at? Toggle.pending? s k = some seq := at?_of_found found
  obtain ⟨_, rfl⟩ := wf.held pending
  have unlocked : (s.release k).holder = none ∧ ∀ j, at? Toggle.pending?
      ((s.release k).put k userId (.committed added (s.counter + 1))) j = none :=
    wf.unlock found rfl rfl
  have nobody := unlocked.2
  have adds : added = true → userId ∉ s.rows := by
    rintro rfl
    exact wf.fresh (at?_of_found found)
  constructor
  case logged =>
    rw [at?_put (s := s.settle k userId added (s.counter + 1)) found,
      at?_put_same (s := s.settle k userId added (s.counter + 1)) found
        userId (.committed added (s.counter + 1)) rfl]
    exact wf.logged.commit (at?_of_found found) (at?_of_found found) adds
  case named =>
    intro j other named
    rw [at?_userId_put (s := s.settle k userId added (s.counter + 1)) found] at named
    exact wf.named named
  case held =>
    intro j number here
    cases (nobody j).symm.trans here
  case fresh =>
    intro j user here
    cases (none_adding nobody j).symm.trans here

theorem Wf.count (wf : s.Wf) {added : Bool} {seq : Nat}
    (found : s.toggles[k]? = some ⟨userId, .committed added seq⟩) :
    (s.put k userId (.counted added seq s.rows.length)).Wf where
  logged := by
    rw [at?_put_same found userId (.counted added seq s.rows.length) rfl, at?_put found]
    exact wf.logged.count k
  named := wf.names_put found
  held := by
    rw [at?_put_same found userId (.counted added seq s.rows.length) rfl]
    exact wf.held
  fresh := by
    rw [at?_put_same found userId (.counted added seq s.rows.length) rfl]
    exact wf.fresh

end

theorem Wf.step {s next : Toggles} (wf : s.Wf) {action : Action}
    (stepped : s.step action = some next) : next.Wf := by
  cases action with
  | ask userId =>
      simp only [Toggles.step] at stepped
      split at stepped
      case isTrue => cases stepped
      case isFalse named =>
        cases stepped
        refine wf.keep rfl rfl (at?_ask rfl) (at?_ask rfl) ?_ ?_ ?_
        · intro k other found
          obtain ⟨toggle, member, same⟩ := Option.bind_eq_some_iff.mp found
          rcases List.mem_append.mp (List.mem_of_getElem? member) with before | last
          · obtain ⟨j, place⟩ := List.mem_iff_getElem?.mp before
            exact wf.named ((at?_of_found place).trans same)
          · rw [List.mem_singleton] at last
            subst last
            cases same
            exact named
        · rw [at?_ask rfl]
          exact wf.held
        · rw [at?_ask rfl]
          exact wf.fresh
  | look k =>
      simp only [Toggles.step] at stepped
      split at stepped
      case h_1 found =>
        cases stepped
        exact wf.wait found rfl rfl rfl rfl
      case h_2 => cases stepped
  | take k =>
      simp only [Toggles.step] at stepped
      split at stepped
      case h_1 found =>
        split at stepped
        case isTrue free =>
          cases stepped
          exact wf.take free found
        case isFalse => cases stepped
      case h_2 => cases stepped
  | flush k =>
      simp only [Toggles.step] at stepped
      split at stepped
      case h_1 found =>
        cases stepped
        exact wf.write found
      case h_2 => cases stepped
  | commit k =>
      simp only [Toggles.step] at stepped
      split at stepped
      case h_1 found =>
        cases stepped
        exact wf.commit found
      case h_2 => cases stepped
  | count k =>
      simp only [Toggles.step] at stepped
      split at stepped
      case h_1 found =>
        cases stepped
        exact wf.count found
      case h_2 => cases stepped
  | send k =>
      simp only [Toggles.step] at stepped
      split at stepped
      case h_1 found =>
        cases stepped
        exact wf.wait found rfl rfl rfl rfl
      case h_2 => cases stepped
  | fail k =>
      simp only [Toggles.step] at stepped
      split at stepped
      case h_1 found =>
        cases stepped
        exact wf.wait found rfl rfl rfl rfl
      case h_2 found =>
        cases stepped
        exact wf.wait found rfl rfl rfl rfl
      case h_3 found =>
        cases stepped
        exact wf.rollback found rfl rfl rfl rfl
      case h_4 found =>
        cases stepped
        exact wf.rollback found rfl rfl rfl rfl
      case h_5 => cases stepped
  | other =>
      simp only [Toggles.step] at stepped
      split at stepped
      case isTrue free =>
        cases stepped
        refine ⟨wf.logged.later (Nat.le_succ _), wf.named, ?_, wf.fresh⟩
        intro k seq pending
        have holder := (wf.held pending).1
        rw [free] at holder
        cases holder
      case isFalse => cases stepped

theorem start_wf (counter : Nat) : (start counter).Wf := by
  have nothing : ∀ {α : Type} (part : Toggle → Option α) (k : Nat),
      at? part (start counter) k = none := fun _ _ => rfl
  refine ⟨?_, ?_, ?_, ?_⟩
  · constructor
    case nodup => exact List.nodup_nil
    case past => exact fun found => nomatch (nothing _ _).symm.trans found
    case apart => exact fun found => nomatch (nothing _ _).symm.trans found
    case own =>
      intro userId
      constructor
      · intro member
        cases member
      · rintro ⟨k, stamp, stamped, _⟩
        cases (nothing _ _).symm.trans stamped
    case total => exact fun found => nomatch (nothing _ _).symm.trans found
    case reached => exact fun found => nomatch (nothing _ _).symm.trans found
  · exact fun found => nomatch (nothing _ _).symm.trans found
  · exact fun found => nomatch (nothing _ _).symm.trans found
  · exact fun found => nomatch (nothing _ _).symm.trans found

theorem wf_of_run {counter : Nat} {actions : List Action} {s : Toggles}
    (ran : Transition.run step (start counter) actions = some s) : s.Wf :=
  Transition.run_invariant_of_step (fun wf stepped => wf.step stepped) (start_wf counter) ran

/-! ### What the events say -/

/-- What a set of events says about the rows that are committed once all were sent. -/
structure Report (rows : List String) (events : List ReactionEvent) : Prop where
  apart : ∀ {e f}, e ∈ events → f ∈ events → e.seq = f.seq → e = f
  named : ∀ {e}, e ∈ events → e.userId ≠ ""
  total : ∀ {e}, e ∈ events → (∀ {f}, f ∈ events → f.seq ≤ e.seq) → e.count = rows.length
  own : ∀ {e}, e ∈ events → (∀ {f}, f ∈ events → f.userId = e.userId → f.seq ≤ e.seq) →
    (e.added = true ↔ e.userId ∈ rows)
  reported : ∀ {userId}, userId ∈ rows → ∃ e ∈ events, e.userId = userId
  reached : ∀ {e userId}, e ∈ events → userId ∈ rows →
    (∀ {f}, f ∈ events → f.userId = userId → f.seq ≤ e.seq) → 0 < e.count

theorem mem_events {s : Toggles} {e : ReactionEvent} :
    e ∈ s.events ↔ ∃ (k : Nat) (toggle : Toggle), s.toggles[k]? = some toggle ∧ toggle.event? = some e := by
  rw [events, List.mem_filterMap]
  constructor
  · rintro ⟨toggle, member, sent⟩
    obtain ⟨k, found⟩ := List.mem_iff_getElem?.mp member
    exact ⟨k, toggle, found, sent⟩
  · rintro ⟨k, toggle, found, sent⟩
    exact ⟨toggle, List.mem_of_getElem? found, sent⟩

theorem event?_eq {toggle : Toggle} {e : ReactionEvent} (sent : toggle.event? = some e) :
    toggle = ⟨e.userId, .sent e.added e.seq e.count⟩ := by
  obtain ⟨userId, phase⟩ := toggle
  simp only [Toggle.event?] at sent
  split at sent
  case h_1 added seq count =>
    cases sent
    rfl
  case h_2 => cases sent

theorem stamp_of_event {s : Toggles} {e : ReactionEvent} (member : e ∈ s.events) :
    ∃ k, at? Toggle.stamp? s k = some ⟨e.userId, e.added, e.seq⟩ ∧
      at? Toggle.count? s k = some e.count ∧ at? Toggle.event? s k = some e ∧
      at? (some ·.userId) s k = some e.userId := by
  obtain ⟨k, toggle, found, sent⟩ := mem_events.mp member
  rw [event?_eq sent] at found
  exact ⟨k, at?_of_found found, at?_of_found found, at?_of_found found, at?_of_found found⟩

theorem Ended.event_of_stamp {s : Toggles} (ended : s.Ended) {k : Nat} {stamp : Stamp}
    (stamped : at? Toggle.stamp? s k = some stamp) :
    ∃ e ∈ s.events, stamp = ⟨e.userId, e.added, e.seq⟩ := by
  obtain ⟨toggle, found, committed⟩ := Option.bind_eq_some_iff.mp stamped
  rcases ended toggle (List.mem_of_getElem? found) with failed | sent
  · rw [Toggle.stamp?, failed] at committed
    cases committed
  · obtain ⟨e, sent⟩ := Option.isSome_iff_exists.mp sent
    refine ⟨e, mem_events.mpr ⟨k, toggle, found, sent⟩, ?_⟩
    rw [event?_eq sent] at committed
    cases committed
    rfl

theorem Wf.report {s : Toggles} (wf : s.Wf) (ended : s.Ended) : Report s.rows s.events := by
  have all_stamps : ∀ {userId seq}, (∀ {f}, f ∈ s.events → f.userId = userId → f.seq ≤ seq) →
      CommittedBy (at? Toggle.stamp? s) userId seq := by
    intro userId seq all j stamp stamped same
    obtain ⟨f, member, rfl⟩ := ended.event_of_stamp stamped
    exact all member same
  constructor
  case apart =>
    intro e f here there same
    obtain ⟨i, stamped, _, sent, _⟩ := stamp_of_event here
    obtain ⟨j, other_stamped, _, other_sent, _⟩ := stamp_of_event there
    have place := wf.logged.apart stamped other_stamped same
    rw [place, other_sent, Option.some.injEq] at sent
    exact sent.symm
  case named =>
    intro e member
    obtain ⟨k, _, _, _, named⟩ := stamp_of_event member
    exact wf.named named
  case total =>
    intro e member last
    obtain ⟨k, stamped, counted, _, _⟩ := stamp_of_event member
    refine wf.logged.total stamped counted ?_
    intro j other other_stamped
    obtain ⟨f, other_member, rfl⟩ := ended.event_of_stamp other_stamped
    exact last other_member
  case own =>
    intro e member last
    obtain ⟨k, stamped, _, _, _⟩ := stamp_of_event member
    rw [wf.logged.own]
    constructor
    · intro adds
      exact ⟨k, _, stamped, rfl, adds, all_stamps last⟩
    · rintro ⟨j, stamp, other_stamped, named, adds, newest⟩
      obtain ⟨f, other_member, rfl⟩ := ended.event_of_stamp other_stamped
      have same := Nat.le_antisymm (newest stamped rfl) (last other_member named)
      have place := wf.logged.apart stamped other_stamped same
      rw [place, other_stamped, Option.some.injEq, Stamp.mk.injEq] at stamped
      rw [← stamped.2.1]
      exact adds
  case reported =>
    intro userId member
    obtain ⟨k, stamp, stamped, named, _⟩ := (wf.logged.own userId).mp member
    obtain ⟨e, sent, rfl⟩ := ended.event_of_stamp stamped
    exact ⟨e, sent, named⟩
  case reached =>
    intro e userId member reacted committed
    obtain ⟨k, stamped, counted, _, _⟩ := stamp_of_event member
    exact wf.logged.reached stamped counted reacted (all_stamps committed)

end Toggles

end Brook.Chat
