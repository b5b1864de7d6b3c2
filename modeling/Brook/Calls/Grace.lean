import Brook.Calls.Sockets

namespace Brook.Calls

open Transition

/-! Grace timers: a removal that a timer started and a participant that was resumed
since then. -/

variable {manager next : CallManager} {id : TaskId} {call : CallId} {p : ParticipantId}

/-- The socket of a participant that is in the call. -/
def CallManager.connOf (manager : CallManager) (call : CallId) (p : ParticipantId) :
    Option (Option SocketId) :=
  ((manager.calls.get? call).bind fun row => row.participants.get? p).map (·.conn)

/-! ### What each write does to the sockets -/

theorem connOf_of_calls (same : next.calls = manager.calls) :
    next.connOf call p = manager.connOf call p := by
  rw [CallManager.connOf, CallManager.connOf, same]

theorem connOf_setCall {row : Call} {other : CallId} :
    (manager.setCall other row).connOf call p =
      if call = other then (row.participants.get? p).map (·.conn)
      else manager.connOf call p := by
  simp only [CallManager.connOf, CallManager.setCall, Table.get?_put]
  split <;> rfl

theorem connOf_stored {row : Call} (stored : manager.calls.get? call = some row) :
    manager.connOf call p = (row.participants.get? p).map (·.conn) := by
  rw [CallManager.connOf, stored]
  rfl

theorem connOf_stopGrace (other : CallId) (q : ParticipantId) :
    (manager.stopGrace other q).connOf call p = manager.connOf call p := by
  unfold CallManager.stopGrace
  split
  case h_1 => rfl
  case h_2 row stored =>
    rw [connOf_setCall]
    split
    case isTrue same =>
      rw [same, connOf_stored stored]
      simp only [Call.update, Table.get?_mapRows, Option.map_map]
      congr 1
      funext participant
      simp only [Function.comp_apply]
      split <;> rfl
    case isFalse => rfl

theorem continueWith_calls (channel : ChannelId) (left : List ParticipantId) :
    (manager.continueWith id channel call left).calls = manager.calls := by
  cases left <;> rfl

theorem continueWith_fresh (channel : ChannelId) (left : List ParticipantId) :
    (manager.continueWith id channel call left).fresh = manager.fresh := by
  cases left <;> rfl

theorem destroyIfEmpty_fresh (channel : ChannelId) (call : CallId) :
    (manager.destroyIfEmpty channel call).fresh = manager.fresh := by
  unfold CallManager.destroyIfEmpty
  split
  · split <;> rfl
  · rfl

theorem stopGrace_fresh (call : CallId) (p : ParticipantId) :
    (manager.stopGrace call p).fresh = manager.fresh := by
  unfold CallManager.stopGrace
  split <;> rfl

theorem takeOut_fresh (channel : ChannelId) (other : CallId) (q : ParticipantId)
    (onlyIfDetached : Bool) (left : List ParticipantId) :
    (manager.takeOut id channel other q onlyIfDetached left).fresh = manager.fresh := by
  unfold CallManager.takeOut
  split
  · exact continueWith_fresh channel left
  · split
    · exact continueWith_fresh channel left
    · split
      · exact continueWith_fresh channel left
      · rfl

theorem endParticipants_quiet (channel : ChannelId) (ends : UserId → Bool) :
    (manager.endParticipants id channel ends).fresh = manager.fresh ∧
      (manager.endParticipants id channel ends).calls = manager.calls := by
  unfold CallManager.endParticipants
  split
  · exact ⟨rfl, rfl⟩
  · split
    · exact ⟨rfl, rfl⟩
    · exact ⟨continueWith_fresh channel _, continueWith_calls channel _⟩

theorem connOf_takeOut (channel : ChannelId) (other : CallId) (q : ParticipantId)
    (onlyIfDetached : Bool) (left : List ParticipantId) :
    (manager.takeOut id channel other q onlyIfDetached left).connOf call p =
        manager.connOf call p ∨
      (manager.takeOut id channel other q onlyIfDetached left).connOf call p = none := by
  unfold CallManager.takeOut
  split
  case h_1 => exact Or.inl (connOf_of_calls (continueWith_calls channel left))
  case h_2 row stored =>
    split
    case h_1 => exact Or.inl (connOf_of_calls (continueWith_calls channel left))
    case h_2 participant found =>
      split
      case isTrue => exact Or.inl (connOf_of_calls (continueWith_calls channel left))
      case isFalse =>
        have written : (((manager.setCall other (row.pop q)).lock id channel).setTask id
            (.removed channel other left)).connOf call p =
            (manager.setCall other (row.pop q)).connOf call p := connOf_of_calls rfl
        rw [written, connOf_setCall]
        split
        case isTrue same =>
          rw [same, connOf_stored stored, Call.pop, Table.get?_filter]
          by_cases gone : p = q
          · right
            subst gone
            cases row.participants.get? p with
            | none => rfl
            | some kept => simp
          · left
            cases row.participants.get? p with
            | none => rfl
            | some kept => simp [gone]
        case isFalse => exact Or.inl rfl

theorem connOf_disconnect (conn : SocketId) :
    CallManager.connOf { manager with
        calls := manager.calls.mapRows fun id row =>
          if id ∈ manager.byId then row.onDisconnect conn else row } call p =
      (manager.connOf call p).map fun socket =>
        if call ∈ manager.byId ∧ socket = some conn then none else socket := by
  simp only [CallManager.connOf, Table.get?_mapRows]
  cases manager.calls.get? call with
  | none => rfl
  | some row =>
      by_cases listed : call ∈ manager.byId
      · simp only [Option.map_some, Option.bind_some, listed, if_true, true_and,
          Call.onDisconnect, Table.get?_mapRows, Option.map_map]
        congr 1
        funext participant
        simp only [Function.comp_apply, Participant.onDisconnect]
        split <;> rfl
      · simp only [Option.map_some, Option.bind_some, listed, if_false, false_and,
          Option.map_map]
        rfl

theorem connOf_runResume {resume : Resume} {row : Call}
    (stored : manager.calls.get? resume.call = some row) :
    (manager.runResume resume row).connOf call p =
      if call = resume.call ∧ p = resume.participant ∧
          (row.participants.get? p).any (·.admits resume.user resume.token) = true then
        some (some resume.conn)
      else manager.connOf call p := by
  unfold CallManager.runResume
  split
  case h_1 absent =>
    rw [if_neg]
    rintro ⟨-, rfl, admitted⟩
    rw [absent] at admitted
    cases admitted
  case h_2 participant found =>
    split
    case isTrue admits =>
      have written : CallManager.connOf { manager.setCall resume.call
          (row.update resume.participant
            (·.resume resume.conn resume.token manager.fresh)) with
          fresh := manager.fresh + 1 } call p =
          (manager.setCall resume.call (row.update resume.participant
            (·.resume resume.conn resume.token manager.fresh))).connOf call p :=
        connOf_of_calls rfl
      rw [written, connOf_setCall]
      by_cases here : call = resume.call
      · rw [if_pos here, here, connOf_stored stored]
        by_cases own : p = resume.participant
        · rw [own, if_pos ⟨rfl, rfl, by rw [found]; exact admits⟩]
          simp only [Call.update, Table.get?_mapRows, found]
          simp [Participant.resume]
        · rw [if_neg fun all => own all.2.1]
          simp only [Call.update, Table.get?_mapRows, Option.map_map]
          congr 1
          funext other
          simp [own]
      · rw [if_neg here, if_neg fun all => here all.1]
    case isFalse refused =>
      rw [if_neg]
      rintro ⟨-, rfl, admitted⟩
      rw [found] at admitted
      exact refused admitted

theorem runResume_fresh {resume : Resume} {row : Call} :
    manager.fresh ≤ (manager.runResume resume row).fresh := by
  unfold CallManager.runResume
  split
  · exact Nat.le_refl _
  · split
    · exact Nat.le_succ _
    · exact Nat.le_refl _

/-! ### What is watched -/

/-- A participant that a resume brings back when it gets the lock. -/
def CallManager.resumed (manager : CallManager) (id : TaskId) (call : CallId)
    (p : ParticipantId) : Bool :=
  match manager.tasks.get? id with
  | some (.resuming resume) =>
      decide (call = resume.call) && decide (p = resume.participant) &&
        ((manager.calls.get? call).bind fun row => row.participants.get? p).any
          (·.admits resume.user resume.token)
  | _ => false

/-- A participant that the end of a socket leaves without one. -/
def CallManager.dropped (manager : CallManager) (conn : SocketId) (call : CallId)
    (p : ParticipantId) : Bool :=
  decide (call ∈ manager.byId) && decide (manager.connOf call p = some (some conn))

structure Watch where
  manager : CallManager
  /-- How often each participant was resumed. -/
  resumes : CallId → ParticipantId → Nat
  /-- Whether it was disconnected since it joined or was last resumed. -/
  away : CallId → ParticipantId → Bool
  /-- The resumes before its last timer was started. -/
  timer : CallId → ParticipantId → Nat
  /-- The same, of the timer that started a removal. -/
  expired : TaskId → Nat

namespace Watch

def start : Watch :=
  ⟨CallManager.start, fun _ _ => 0, fun _ _ => false, fun _ _ => 0, fun _ => 0⟩

def note (w : Watch) : CallAction → Watch
  | .disconnect conn =>
      { w with
        away := fun call p => w.away call p || w.manager.dropped conn call p
        timer := fun call p =>
          if w.manager.dropped conn call p then w.resumes call p else w.timer call p }
  | .runResume id =>
      { w with
        away := fun call p => w.away call p && !w.manager.resumed id call p
        resumes := fun call p =>
          w.resumes call p + if w.manager.resumed id call p then 1 else 0 }
  | .graceExpires id call p =>
      { w with expired := Function.update w.expired id (w.timer call p) }
  | _ => w

def step (w : Watch) (action : CallAction) : Option Watch :=
  (callStep w.manager action).map fun next => { w.note action with manager := next }

/-- The removal's participant was resumed after the timer that it comes from was
started. -/
def ResumedSince (w : Watch) (id : TaskId) (call : CallId) (p : ParticipantId) : Prop :=
  w.expired id < w.resumes call p

/-- A participant has no socket exactly where it was disconnected since it joined or was
last resumed. -/
structure Kept (w : Watch) : Prop where
  away : ∀ call p conn, w.manager.connOf call p = some conn →
    (w.away call p = true ↔ conn = none)
  known : ∀ call p conn, w.manager.connOf call p = some conn → p < w.manager.fresh
  unseen : ∀ call p, w.manager.fresh ≤ p → w.away call p = false

theorem Kept.start : Kept Watch.start where
  away _ _ _ there := by cases there
  known _ _ _ there := by cases there
  unseen _ _ _ := rfl

variable {w : Watch}

/-- A step that gives no participant a socket and takes none away. -/
theorem Kept.quiet (kept : Kept w) {w' : Watch} (away : w'.away = w.away)
    (fresh : w.manager.fresh ≤ w'.manager.fresh)
    (conn : ∀ call p, w'.manager.connOf call p = w.manager.connOf call p ∨
      w'.manager.connOf call p = none) : Kept w' where
  away call p socket there := by
    rcases conn call p with same | gone
    · rw [away]
      exact kept.away call p socket (same.symm.trans there)
    · rw [gone] at there
      cases there
  known call p socket there := by
    rcases conn call p with same | gone
    · exact Nat.lt_of_lt_of_le (kept.known call p socket (same.symm.trans there)) fresh
    · rw [gone] at there
      cases there
  unseen call p above := by
    rw [away]
    exact kept.unseen call p (Nat.le_trans fresh above)

theorem Kept.same_calls (kept : Kept w) {w' : Watch} (away : w'.away = w.away)
    (fresh : w'.manager.fresh = w.manager.fresh)
    (calls : w'.manager.calls = w.manager.calls) : Kept w' :=
  kept.quiet away (Nat.le_of_eq fresh.symm) fun _ _ => Or.inl (connOf_of_calls calls)

theorem Kept.disconnect (kept : Kept w) (conn : SocketId) :
    Kept { w.note (.disconnect conn) with
      manager := { w.manager with
        calls := w.manager.calls.mapRows fun id row =>
          if id ∈ w.manager.byId then row.onDisconnect conn else row } } where
  away call p socket there := by
    dsimp only at there
    rw [connOf_disconnect, Option.map_eq_some_iff] at there
    obtain ⟨old, stored, rfl⟩ := there
    have before := kept.away call p old stored
    simp only [note, CallManager.dropped, stored, Bool.or_eq_true, Bool.and_eq_true,
      decide_eq_true_eq, Option.some.injEq]
    split
    case isTrue dropped => exact iff_of_true (Or.inr dropped) rfl
    case isFalse stays =>
      rw [before]
      exact or_iff_left stays
  known call p socket there := by
    dsimp only at there
    rw [connOf_disconnect, Option.map_eq_some_iff] at there
    obtain ⟨old, stored, -⟩ := there
    exact kept.known call p old stored
  unseen call p above := by
    have before := kept.unseen call p above
    have absent : w.manager.connOf call p ≠ some (some conn) :=
      fun stored => Nat.not_lt.mpr above (kept.known call p _ stored)
    simp [note, CallManager.dropped, before, absent]

theorem Kept.runResume (kept : Kept w) {id : TaskId} {resume : Resume} {row : Call}
    (waiting : w.manager.tasks.get? id = some (.resuming resume))
    (stored : w.manager.calls.get? resume.call = some row) :
    Kept { w.note (.runResume id) with
      manager := (w.manager.finish id).runResume resume row } where
  away call p socket there := by
    dsimp only at there
    rw [@connOf_runResume (w.manager.finish id) _ _ _ _ stored] at there
    have resumed : w.manager.resumed id call p = true ↔ call = resume.call ∧
        p = resume.participant ∧
        (row.participants.get? p).any (·.admits resume.user resume.token) = true := by
      simp only [CallManager.resumed, waiting, Bool.and_eq_true, decide_eq_true_eq, and_assoc]
      constructor
      · rintro ⟨rfl, own, admitted⟩
        rw [stored] at admitted
        exact ⟨rfl, own, admitted⟩
      · rintro ⟨rfl, own, admitted⟩
        refine ⟨rfl, own, ?_⟩
        rw [stored]
        exact admitted
    simp only [note, Bool.and_eq_true, Bool.not_eq_true', Bool.eq_false_iff, ne_eq, resumed]
    split at there
    case isTrue back =>
      cases there
      exact iff_of_false (fun both => both.2 back) (Option.some_ne_none _)
    case isFalse stays =>
      rw [kept.away call p socket there]
      exact and_iff_left stays
  known call p socket there := by
    dsimp only at there ⊢
    refine Nat.lt_of_lt_of_le ?_ (@runResume_fresh (w.manager.finish id) _ _)
    rw [@connOf_runResume (w.manager.finish id) _ _ _ _ stored] at there
    split at there
    case isTrue back =>
      obtain ⟨rfl, -, admitted⟩ := back
      cases found : row.participants.get? p with
      | none =>
          rw [found] at admitted
          cases admitted
      | some participant =>
          apply kept.known resume.call p participant.conn
          rw [connOf_stored stored, found]
          rfl
    case isFalse => exact kept.known call p socket there
  unseen call p above := by
    dsimp only at above
    have grown := @runResume_fresh (w.manager.finish id) resume row
    have before := kept.unseen call p (Nat.le_trans grown above)
    simp [note, before]

theorem Kept.created (kept : Kept w) {w' : Watch} {id : TaskId} {join : Join}
    (away : w'.away = w.away)
    (is : w'.manager = (w.manager.finish id).created id join) : Kept w' := by
  apply kept.quiet away
  · rw [is]
    exact Nat.le_succ _
  · intro call p
    rw [is]
    have written : ((w.manager.finish id).created id join).connOf call p =
        ((w.manager.finish id).setCall w.manager.fresh ⟨join.channel, ∅⟩).connOf call p :=
      connOf_of_calls rfl
    rw [written, connOf_setCall]
    split
    · exact Or.inr rfl
    · exact Or.inl (connOf_of_calls rfl)

theorem Kept.seat (kept : Kept w) {w' : Watch} {id : TaskId} {join : Join} {call : CallId}
    {row : Call} (away : w'.away = w.away) (stored : w.manager.calls.get? call = some row)
    (is : w'.manager = (w.manager.finish id).seat join call row) : Kept w' := by
  have conn : ∀ other p, w'.manager.connOf other p =
      if other = call ∧ p = w.manager.fresh then some (some join.conn)
      else w.manager.connOf other p := by
    intro other p
    have written : w'.manager.connOf other p = ((w.manager.finish id).setCall call
        (row.add ⟨w.manager.fresh, join.user, some join.conn, w.manager.fresh + 1, none,
          false⟩)).connOf other p := by
      rw [is]
      exact connOf_of_calls rfl
    rw [written, connOf_setCall]
    by_cases here : other = call
    · rw [if_pos here, here, connOf_stored stored]
      simp only [Call.add, Table.get?_put, true_and]
      split
      · rfl
      · rfl
    · rw [if_neg here, if_neg fun both => here both.1]
      exact connOf_of_calls rfl
  have fresh : w'.manager.fresh = w.manager.fresh + 2 := by rw [is]; rfl
  constructor
  · intro other p socket there
    rw [conn] at there
    rw [away]
    split at there
    case isTrue new =>
      cases there
      rw [new.2]
      exact iff_of_false (by simp [kept.unseen other _ (Nat.le_refl _)])
        (Option.some_ne_none _)
    case isFalse => exact kept.away other p socket there
  · intro other p socket there
    rw [conn] at there
    rw [fresh]
    split at there
    case isTrue new =>
      rw [new.2]
      exact Nat.lt_add_of_pos_right (by decide)
    case isFalse =>
      exact Nat.lt_of_lt_of_le (kept.known other p socket there) (Nat.le_add_right _ _)
  · intro other p above
    rw [fresh] at above
    rw [away]
    exact kept.unseen other p (Nat.le_trans (Nat.le_add_right _ _) above)

theorem step_kept {action : CallAction} {w' : Watch} (kept : Kept w)
    (taken : w.step action = some w') : Kept w' := by
  obtain ⟨next, stepped, rfl⟩ := Option.map_eq_some_iff.mp taken
  cases action with
  | createChannel channel =>
      simp only [callStep] at stepped
      split at stepped
      case isTrue => cases stepped
      case isFalse =>
        cases stepped
        exact kept.same_calls rfl rfl rfl
  | setArchived channel archived =>
      simp only [callStep] at stepped
      split at stepped
      case isTrue =>
        cases stepped
        exact kept.same_calls rfl rfl rfl
      case isFalse => cases stepped
  | addMember channel user =>
      simp only [callStep] at stepped
      split at stepped
      case isTrue =>
        cases stepped
        exact kept.same_calls rfl rfl rfl
      case isFalse => cases stepped
  | removeMember id channel user =>
      simp only [callStep] at stepped
      split at stepped
      case isTrue =>
        obtain ⟨-, rfl⟩ := spawn_eq_some.mp stepped
        exact kept.same_calls rfl rfl rfl
      case isFalse => cases stepped
  | deleteChannel id channel =>
      simp only [callStep] at stepped
      split at stepped
      case isTrue =>
        obtain ⟨-, rfl⟩ := spawn_eq_some.mp stepped
        exact kept.same_calls rfl rfl rfl
      case isFalse => cases stepped
  | runEnd id =>
      simp only [callStep] at stepped
      split at stepped
      case h_1 channel user rest popped =>
        obtain ⟨-, rfl⟩ := popTask_eq_some.mp popped
        cases stepped
        obtain ⟨fresh, calls⟩ := @endParticipants_quiet (w.manager.finish id) id channel fun other => decide (other = user)
        exact kept.same_calls rfl fresh calls
      case h_2 channel rest popped =>
        obtain ⟨-, rfl⟩ := popTask_eq_some.mp popped
        cases stepped
        obtain ⟨fresh, calls⟩ := @endParticipants_quiet (w.manager.finish id) id channel fun _ => true
        exact kept.same_calls rfl fresh calls
      case h_3 => cases stepped
  | join id join =>
      obtain ⟨-, rfl⟩ := spawn_eq_some.mp stepped
      exact kept.same_calls rfl rfl rfl
  | checkMember id =>
      simp only [callStep] at stepped
      split at stepped
      case h_1 popped =>
        obtain ⟨-, rfl⟩ := popTask_eq_some.mp popped
        split at stepped
        case isTrue =>
          cases stepped
          exact kept.same_calls rfl rfl rfl
        case isFalse =>
          cases stepped
          exact kept.same_calls rfl rfl rfl
      case h_2 => cases stepped
  | checkChannel id =>
      simp only [callStep] at stepped
      split at stepped
      case h_1 popped =>
        obtain ⟨-, rfl⟩ := popTask_eq_some.mp popped
        split at stepped
        case isTrue =>
          cases stepped
          exact kept.same_calls rfl rfl rfl
        case isFalse =>
          cases stepped
          exact kept.same_calls rfl rfl rfl
      case h_2 => cases stepped
  | enter id =>
      simp only [callStep] at stepped
      split at stepped
      case h_1 join rest popped =>
        obtain ⟨-, rfl⟩ := popTask_eq_some.mp popped
        split at stepped
        case isTrue =>
          cases stepped
          rcases enter_cases (w.manager.finish id) id join with
            is | ⟨-, is⟩ | ⟨_, _, -, -, -, is⟩
          · exact kept.same_calls rfl (by rw [is]; rfl) (by rw [is]; rfl)
          · exact kept.same_calls rfl (by rw [is]; rfl) (by rw [is]; rfl)
          · exact kept.same_calls rfl (by rw [is]; rfl) (by rw [is]; rfl)
        case isFalse => cases stepped
      case h_2 => cases stepped
  | created id =>
      simp only [callStep] at stepped
      split at stepped
      case h_1 popped =>
        obtain ⟨-, rfl⟩ := popTask_eq_some.mp popped
        cases stepped
        exact kept.created rfl rfl
      case h_2 => cases stepped
  | seat id =>
      simp only [callStep] at stepped
      split at stepped
      case h_1 popped =>
        obtain ⟨-, rfl⟩ := popTask_eq_some.mp popped
        obtain ⟨row, stored, rfl⟩ := Option.map_eq_some_iff.mp stepped
        exact kept.seat rfl stored rfl
      case h_2 => cases stepped
  | seatFails id =>
      simp only [callStep] at stepped
      split at stepped
      case h_1 popped =>
        obtain ⟨-, rfl⟩ := popTask_eq_some.mp popped
        cases stepped
        exact kept.same_calls rfl rfl rfl
      case h_2 => cases stepped
  | giveUp id =>
      simp only [callStep] at stepped
      split at stepped
      case h_1 channel call rest popped =>
        obtain ⟨-, rfl⟩ := popTask_eq_some.mp popped
        cases stepped
        exact kept.same_calls rfl (destroyIfEmpty_fresh channel call)
          (destroyIfEmpty_calls channel call)
      case h_2 => cases stepped
  | release id =>
      simp only [callStep] at stepped
      split at stepped
      case h_1 channel call left rest popped =>
        obtain ⟨-, rfl⟩ := popTask_eq_some.mp popped
        cases stepped
        exact kept.same_calls rfl (continueWith_fresh channel left)
          (continueWith_calls channel left)
      case h_2 => cases stepped
  | raise id =>
      simp only [callStep] at stepped
      split at stepped
      case h_1 popped =>
        obtain ⟨-, rfl⟩ := popTask_eq_some.mp popped
        cases stepped
        exact kept.same_calls rfl rfl rfl
      case h_2 popped =>
        obtain ⟨-, rfl⟩ := popTask_eq_some.mp popped
        obtain ⟨channel, -, rfl⟩ := Option.map_eq_some_iff.mp stepped
        exact kept.same_calls rfl rfl rfl
      case h_3 => cases stepped
  | leave id conn call =>
      simp only [callStep] at stepped
      split at stepped
      case isTrue =>
        split at stepped
        case h_1 => cases stepped
        case h_2 =>
          split at stepped
          case h_1 => cases stepped
          case h_2 =>
            obtain ⟨-, rfl⟩ := spawn_eq_some.mp stepped
            exact kept.same_calls rfl rfl rfl
      case isFalse => cases stepped
  | graceExpires id call p =>
      simp only [callStep] at stepped
      split at stepped
      case h_1 => cases stepped
      case h_2 =>
        split at stepped
        case isTrue =>
          obtain ⟨-, rfl⟩ := spawn_eq_some.mp stepped
          refine kept.quiet ?_ ?_ ?_
          · rfl
          · exact Nat.le_of_eq (stopGrace_fresh call p).symm
          · intro other q
            left
            exact (connOf_of_calls rfl).trans (connOf_stopGrace call p)
        case isFalse => cases stepped
  | takeOut id =>
      simp only [callStep] at stepped
      split at stepped
      case h_1 channel call p onlyIfDetached left rest popped =>
        obtain ⟨-, rfl⟩ := popTask_eq_some.mp popped
        split at stepped
        case isTrue =>
          cases stepped
          refine kept.quiet ?_ ?_ ?_
          · rfl
          · exact Nat.le_of_eq (@takeOut_fresh (w.manager.finish id) _ _ _ _ _ _).symm
          · intro other q
            exact connOf_takeOut channel call p onlyIfDetached left
        case isFalse => cases stepped
      case h_2 => cases stepped
  | settle id =>
      simp only [callStep] at stepped
      split at stepped
      case h_1 channel call left rest popped =>
        obtain ⟨-, rfl⟩ := popTask_eq_some.mp popped
        cases stepped
        exact kept.same_calls rfl (destroyIfEmpty_fresh channel call)
          (destroyIfEmpty_calls channel call)
      case h_2 => cases stepped
  | disconnect conn =>
      cases stepped
      exact kept.disconnect conn
  | resume id resume =>
      simp only [callStep] at stepped
      split at stepped
      case isTrue =>
        obtain ⟨-, rfl⟩ := spawn_eq_some.mp stepped
        exact kept.same_calls rfl rfl rfl
      case isFalse => cases stepped
  | runResume id =>
      simp only [callStep] at stepped
      split at stepped
      case h_1 resume rest popped =>
        obtain ⟨waiting, rfl⟩ := popTask_eq_some.mp popped
        split at stepped
        case h_1 => cases stepped
        case h_2 row stored =>
          split at stepped
          case isTrue =>
            cases stepped
            exact kept.runResume waiting stored
          case isFalse => cases stepped
      case h_2 => cases stepped
  | janusLost id =>
      obtain ⟨-, rfl⟩ := spawn_eq_some.mp stepped
      exact kept.same_calls rfl rfl rfl
  | loseNext id =>
      simp only [callStep] at stepped
      split at stepped
      case h_1 popped =>
        obtain ⟨-, rfl⟩ := popTask_eq_some.mp popped
        cases stepped
        exact kept.same_calls rfl rfl rfl
      case h_2 call p left rest popped =>
        obtain ⟨-, rfl⟩ := popTask_eq_some.mp popped
        cases stepped
        refine kept.quiet ?_ ?_ ?_
        · rfl
        · exact Nat.le_of_eq (@stopGrace_fresh (w.manager.finish id) call p).symm
        · intro other q
          left
          exact (connOf_of_calls rfl).trans (connOf_stopGrace call p)
      case h_3 => cases stepped

theorem run_kept {actions : List CallAction} (reached : run step start actions = some w) :
    Kept w :=
  run_invariant_of_step (fun kept taken => step_kept kept taken) Kept.start
    reached

/-- The removal that a timer started takes no participant out of the call that was
resumed after the timer was started. -/
def Spares (w : Watch) (id : TaskId) : Prop :=
  ∀ channel call p left w', w.manager.tasks.get? id =
      some (.removing channel call p true left) →
    w.step (.takeOut id) = some w' → w.ResumedSince id call p →
    w.manager.connOf call p ≠ none → w'.manager.connOf call p ≠ none

/-- It gets the lock after the participant was resumed and then disconnected again. -/
def Overtaken (w : Watch) (id : TaskId) : Prop :=
  ∃ channel call p left, w.manager.tasks.get? id =
      some (.removing channel call p true left) ∧
    w.manager.free channel = true ∧ w.ResumedSince id call p ∧
    w.manager.connOf call p ≠ none ∧ w.away call p = true

theorem takeOut_step {channel : ChannelId} {call : CallId} {p : ParticipantId}
    {onlyIfDetached : Bool} {left : List ParticipantId}
    (waiting : w.manager.tasks.get? id =
      some (.removing channel call p onlyIfDetached left)) :
    w.step (.takeOut id) =
      if w.manager.free channel then
        some { w with
          manager := (w.manager.finish id).takeOut id channel call p onlyIfDetached left }
      else none := by
  have popped : w.manager.popTask id =
      some (.removing channel call p onlyIfDetached left, w.manager.finish id) :=
    popTask_eq_some.mpr ⟨waiting, rfl⟩
  rw [step, callStep]
  simp only [popped]
  split <;> rfl

theorem connOf_takeOut_self {channel : ChannelId} {left : List ParticipantId}
    {socket : Option SocketId} (there : manager.connOf call p = some socket) :
    (manager.takeOut id channel call p true left).connOf call p =
      if socket = none then none else some socket := by
  cases stored : manager.calls.get? call with
  | none =>
      rw [CallManager.connOf, stored] at there
      cases there
  | some row =>
      rw [connOf_stored stored] at there
      obtain ⟨participant, found, rfl⟩ := Option.map_eq_some_iff.mp there
      unfold CallManager.takeOut
      simp only [stored, found]
      by_cases detached : participant.conn = none
      · rw [if_pos detached, if_neg (by simp [detached])]
        have written : (((manager.setCall call (row.pop p)).lock id channel).setTask id
            (.removed channel call left)).connOf call p =
            (manager.setCall call (row.pop p)).connOf call p := connOf_of_calls rfl
        rw [written, connOf_setCall, if_pos rfl, Call.pop, Table.get?_filter, found]
        simp
      · rw [if_neg detached, if_pos ⟨trivial, Option.isSome_iff_ne_none.mpr detached⟩,
          connOf_of_calls (continueWith_calls channel left), connOf_stored stored, found]
        rfl

end Watch

open Watch

/-- In every state that a run reaches, the removal of an expired timer spares a
participant that was resumed since exactly where it was not disconnected again. -/
theorem expiry_spares_iff (actions : List CallAction) (w : Watch)
    (reached : run Watch.step Watch.start actions = some w) (id : TaskId) :
    w.Spares id ↔ ¬ w.Overtaken id := by
  have kept := run_kept reached
  constructor
  · rintro spares ⟨channel, call, p, left, waiting, free, since, there, away⟩
    obtain ⟨socket, seated⟩ := Option.ne_none_iff_exists'.mp there
    have detached := (kept.away call p socket seated).mp away
    have taken := takeOut_step waiting
    rw [if_pos free] at taken
    apply spares channel call p left _ waiting taken since there
    have now := @connOf_takeOut_self (w.manager.finish id) id _ _ channel left _ seated
    rw [if_pos detached] at now
    exact now
  · intro kept_apart channel call p left w' waiting taken since there gone
    obtain ⟨socket, seated⟩ := Option.ne_none_iff_exists'.mp there
    rw [takeOut_step waiting] at taken
    split at taken
    case isTrue free =>
      cases taken
      have now := @connOf_takeOut_self (w.manager.finish id) id _ _ channel left _ seated
      rw [gone] at now
      split at now
      case isTrue detached =>
        exact kept_apart ⟨channel, call, p, left, waiting, free, since, there,
          (kept.away call p socket seated).mpr detached⟩
      case isFalse => cases now
    case isFalse => cases taken

/-- While another join holds the lock, a resume waits for it and then the removal of the
timer that has expired; after the resume a second join holds the lock, and the
participant is disconnected again before the removal gets it. -/
def secondDrop : List CallAction :=
  [.createChannel 1, .addMember 1 10, .addMember 1 11, .addMember 1 12,
    .join 1 ⟨100, 10, 1⟩, .checkMember 1, .checkChannel 1, .enter 1, .created 1, .seat 1,
    .disconnect 100,
    .join 2 ⟨101, 11, 1⟩, .checkMember 2, .checkChannel 2, .enter 2,
    .resume 3 ⟨102, 10, 0, 1, 2⟩,
    .join 4 ⟨103, 12, 1⟩, .checkMember 4, .checkChannel 4,
    .graceExpires 5 0 1,
    .seat 2, .runResume 3, .enter 4, .disconnect 102, .seat 4]

theorem second_grace_cut_short :
    ¬ ∀ (actions : List CallAction) (w : Watch),
      run Watch.step Watch.start actions = some w → ∀ id, w.Spares id := by
  intro claimed
  obtain ⟨w, reached, waiting, since, there, taken⟩ : ∃ w,
      run Watch.step Watch.start secondDrop = some w ∧
        w.manager.tasks.get? 5 = some (.removing 1 0 1 true []) ∧
        w.ResumedSince 5 0 1 ∧ w.manager.connOf 0 1 ≠ none ∧
        ∃ w', w.step (.takeOut 5) = some w' ∧ w'.manager.connOf 0 1 = none := by
    refine ⟨_, rfl, ?_, ?_, ?_, _, rfl, ?_⟩
    · decide +kernel
    · show _ < _
      decide +kernel
    · decide +kernel
    · decide +kernel
  obtain ⟨w', stepped, gone⟩ := taken
  exact claimed secondDrop w reached 5 1 0 1 [] w' waiting stepped since there gone

/-- The removal is not overtaken before the second disconnection. -/
theorem resumed_in_time_stays : ∃ w,
    run Watch.step Watch.start (secondDrop.take 23) = some w ∧
      (w.Spares 5 ↔ ¬ w.Overtaken 5) :=
  ⟨_, rfl, expiry_spares_iff (secondDrop.take 23) _ rfl 5⟩

end Brook.Calls
