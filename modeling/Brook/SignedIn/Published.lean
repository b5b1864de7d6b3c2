import Mathlib.Logic.Function.Basic
import Brook.SignedIn.Marks
import Brook.SignedIn.Replay
import Brook.SignedIn.SignOut

namespace Brook.SignedIn

open Transition

/-! What a client last published beside the session it holds. -/

/-- A store as its observers see it: whose session it holds, what it published
last, and the current attempt. -/
structure Face where
  user : Option Nat
  published : AuthState
  loginGen : Nat
  challengeOpen : Bool
  closed : Bool

def Store.face (store : Store) : Face where
  user := store.session.map (·.user.id)
  published := store.published
  loginGen := store.loginGen
  challengeOpen := store.challengeOpen
  closed := store.closed

namespace Face

/-- `LoggedIn` of the session's user; `LoggedOut` or `Failed` without one. -/
def Agrees (face : Face) : Prop :=
  match face.user, face.published with
  | some id, .loggedIn user => user.id = id
  | none, .loggedOut | none, .failed => True
  | _, _ => False

instance (face : Face) : Decidable face.Agrees := by
  obtain ⟨user, published, _⟩ := face
  cases user <;> cases published <;> dsimp only [Agrees] <;> infer_instance

/-- Only a sign-in in progress may leave this published. -/
def Waits (face : Face) : Prop :=
  match face.published with
  | .authenticating => True
  | .loggedIn _ => face.user = none
  | _ => False

instance (face : Face) : Decidable face.Waits := by
  obtain ⟨user, published, _⟩ := face
  cases published <;> dsimp only [Waits] <;> infer_instance

end Face

/-- A login, a TOTP completion, a restore or a refresh. -/
def Stage.signsIn : Stage → Bool
  | .announced | .loginQueued _ | .loginSent _ | .loginProfile _ _
  | .totpQueued _ | .totpSent _ | .totpProfile _ _
  | .restoreQueued _ | .restoreSent _ _ _
  | .refreshQueued _ | .refreshSent _ => true
  | _ => false

/-- The client has none of them in progress, and no challenge open. -/
def System.Quiet (system : System) (client : ClientId) (store : Store) :
    Prop :=
  store.challengeOpen = false ∧
  ∀ task ∈ system.tasks.values, task.client = client →
    task.stage.signsIn = false

instance (system : System) (client : ClientId) (store : Store) :
    Decidable (system.Quiet client store) :=
  inferInstanceAs (Decidable (_ ∧ _))

/-- The task has yet to publish how attempt `gen` ended, or to reserve one. -/
def Stage.Pending (gen : Nat) (stage : Stage) : Prop :=
  stage = .announced ∨ stage.reserved = some gen

instance (gen : Nat) (stage : Stage) : Decidable (stage.Pending gen) :=
  inferInstanceAs (Decidable (_ ∨ _))

theorem Stage.Pending.signsIn {gen : Nat} {stage : Stage}
    (pending : stage.Pending gen) : stage.signsIn = true := by
  rcases pending with rfl | current
  · rfl
  · unfold Stage.reserved at current
    split at current
    all_goals first | rfl | cases current

/-- The login's old session is out, and its request is on its way. -/
def Stage.sent : Stage → Bool
  | .loginSent _ | .loginProfile _ _ => true
  | _ => false

/-! ### The attempts of one client -/

/-- The tasks of one client. -/
abbrev Tasks := TaskId → Option Stage

namespace Face

/-- At most one task runs as the current attempt, and none as a later one. -/
structure Numbered (loginGen : Nat) (tasks : Tasks) : Prop where
  bound : ∀ id stage gen, tasks id = some stage →
    stage.reserved = some gen → gen ≤ loginGen
  one : ∀ id other stage stage', tasks id = some stage →
    tasks other = some stage' → stage.reserved = some loginGen →
    stage'.reserved = some loginGen → id = other

/-- The current attempt has come to its end. -/
def Idle (loginGen : Nat) (tasks : Tasks) : Prop :=
  ∀ id stage, tasks id = some stage → stage.reserved ≠ some loginGen

/-- What is published comes from the current attempt, or from its end. -/
structure Sound (face : Face) (tasks : Tasks) : Prop where
  numbered : Numbered face.loginGen tasks
  idle : face.challengeOpen = true → Idle face.loginGen tasks
  challenge : face.challengeOpen = true → face.user = none
  sent : ∀ id stage, tasks id = some stage → stage.sent = true →
    stage.reserved = some face.loginGen → face.user = none
  shown : ∀ id, face.user = some id →
    face.published = .authenticating ∨
      ∃ user, face.published = .loggedIn user ∧ user.id = id
  settled : face.Agrees ∨ face.challengeOpen = true ∨
    ∃ id stage, tasks id = some stage ∧ stage.Pending face.loginGen

/-- What the end of an attempt may leave to be settled by something else. -/
def Elsewhere (face : Face) (id : TaskId) (tasks : Tasks) : Prop :=
  ¬ face.Waits ∨ face.challengeOpen = true ∨
    ∃ other stage, other ≠ id ∧ tasks other = some stage ∧
      stage.Pending face.loginGen

/-- How a task's next section may change the face of its client. -/
inductive Turn (face : Face) (id : TaskId) (tasks : Tasks) :
    Option Stage → Face → Prop
  | rests {next : Option Stage}
      (mine : ∀ stage gen, next = some stage → stage.reserved = some gen →
        (tasks id).bind Stage.reserved = some gen)
      (sent : ∀ stage, next = some stage → stage.sent = true →
        (tasks id).any Stage.sent = true)
      (left : face.closed = false → ∀ stage, tasks id = some stage →
        stage.Pending face.loginGen →
        (∃ stage', next = some stage' ∧ stage'.Pending face.loginGen) ∨
          face.Elsewhere id tasks) :
      Turn face id tasks next face
  | announces : Turn face id tasks (some .announced)
      { face with published := .authenticating }
  | reserves {stage : Stage} (queued : stage.sent = false)
      (reserved : stage.reserved = some (face.loginGen + 1)) :
      Turn face id tasks (some stage)
        { face with loginGen := face.loginGen + 1, challengeOpen := false }
  | empties (current : (tasks id).bind Stage.reserved = some face.loginGen) :
      Turn face id tasks (some (.loginSent face.loginGen))
        { face with user := none }
  | signsOut {next : Option Stage} {gen : Nat} {challenge closed : Bool}
      (ends : next.bind Stage.reserved = none)
      (later : face.loginGen ≤ gen)
      (kept : challenge = true →
        face.challengeOpen = true ∧ gen = face.loginGen)
      (shut : face.closed = true → closed = true) :
      Turn face id tasks next ⟨none, .loggedOut, gen, challenge, closed⟩
  | fails (sent : (tasks id).any Stage.sent = true)
      (current : (tasks id).bind Stage.reserved = some face.loginGen) :
      Turn face id tasks none { face with published := .failed }
  | challenges (sent : (tasks id).any Stage.sent = true)
      (current : (tasks id).bind Stage.reserved = some face.loginGen) :
      Turn face id tasks none { face with challengeOpen := true }
  | installs {next : Option Stage} {user : User}
      (ends : next.bind Stage.reserved = none)
      (current : (tasks id).bind Stage.reserved = some face.loginGen ∨
        face.challengeOpen = true) :
      Turn face id tasks next { face with
        user := some user.id
        published := .loggedIn user
        challengeOpen := false }

variable {face after : Face} {id : TaskId} {tasks : Tasks}
variable {next : Option Stage}

theorem agrees_of_shown (shown : ∀ id, face.user = some id →
      face.published = .authenticating ∨
        ∃ user, face.published = .loggedIn user ∧ user.id = id)
    (still : ¬ face.Waits) : face.Agrees := by
  unfold Waits at still
  unfold Agrees
  cases held : face.user with
  | none =>
      cases published : face.published <;> simp [published, held] at still ⊢
  | some user =>
      rcases shown user held with waits | ⟨other, published, same⟩
      · simp [waits] at still
      · simpa [published] using same

theorem Sound.of_elsewhere (sound : face.Sound tasks)
    (elsewhere : face.Elsewhere id tasks) :
    face.Agrees ∨ face.challengeOpen = true ∨
      ∃ other stage, Function.update tasks id next other = some stage ∧
        stage.Pending face.loginGen := by
  rcases elsewhere with still | challenge |
    ⟨other, stage, different, running, pending⟩
  · exact Or.inl (agrees_of_shown sound.shown still)
  · exact Or.inr (Or.inl challenge)
  · refine Or.inr (Or.inr ⟨other, stage, ?_, pending⟩)
    rw [Function.update_of_ne different]
    exact running

theorem Turn.opened (turn : face.Turn id tasks next after)
    (opened : after.closed = false) : face.closed = false := by
  cases turn with
  | signsOut ends later kept shut =>
      by_contra closed
      have closed' := shut (by simpa using closed)
      exact Bool.false_ne_true (opened.symm.trans closed')
  | _ => exact opened

/-- A task of the client is the one whose section ran, or as it was before. -/
theorem update_cases {other : TaskId} {stage : Stage}
    (running : Function.update tasks id next other = some stage) :
    (other = id ∧ next = some stage) ∨ (other ≠ id ∧ tasks other = some stage) := by
  by_cases same : other = id
  · subst same
    rw [Function.update_self] at running
    exact Or.inl ⟨rfl, running⟩
  · rw [Function.update_of_ne same] at running
    exact Or.inr ⟨same, running⟩

section

variable {loginGen gen : Nat}

theorem Numbered.narrow (numbered : Numbered loginGen tasks)
    (mine : ∀ stage gen, next = some stage → stage.reserved = some gen →
      (tasks id).bind Stage.reserved = some gen) :
    Numbered loginGen (Function.update tasks id next) := by
  have before : ∀ {other stage gen},
      Function.update tasks id next other = some stage →
      stage.reserved = some gen →
      ∃ stage', tasks other = some stage' ∧ stage'.reserved = some gen := by
    intro other stage gen running reserved
    rcases update_cases running with ⟨rfl, new⟩ | ⟨_, old⟩
    · exact Option.bind_eq_some_iff.mp (mine stage gen new reserved)
    · exact ⟨stage, old, reserved⟩
  constructor
  · intro other stage gen running reserved
    obtain ⟨stage', old, reserved'⟩ := before running reserved
    exact numbered.bound other stage' gen old reserved'
  · intro one other stage stage' running running' reserved reserved'
    obtain ⟨_, old, current⟩ := before running reserved
    obtain ⟨_, old', current'⟩ := before running' reserved'
    exact numbered.one one other _ _ old old' current current'

theorem Numbered.ends (numbered : Numbered loginGen tasks)
    (ends : next.bind Stage.reserved = none) :
    Numbered loginGen (Function.update tasks id next) := by
  apply numbered.narrow
  intro stage gen new reserved
  simp [new, reserved] at ends

theorem Numbered.later (numbered : Numbered loginGen tasks)
    (later : loginGen ≤ gen) : Numbered gen tasks := by
  constructor
  · intro id stage attempt running reserved
    exact Nat.le_trans (numbered.bound id stage attempt running reserved) later
  · intro id other stage stage' running running' reserved reserved'
    have bound := numbered.bound id stage gen running reserved
    have same : loginGen = gen := Nat.le_antisymm later bound
    subst same
    exact numbered.one id other stage stage' running running' reserved
      reserved'

theorem Numbered.reserve (numbered : Numbered loginGen tasks) {stage : Stage}
    (reserved : stage.reserved = some (loginGen + 1)) :
    Numbered (loginGen + 1) (Function.update tasks id (some stage)) := by
  have old : ∀ {other stage'}, tasks other = some stage' →
      stage'.reserved ≠ some (loginGen + 1) := by
    intro other stage' running reserved'
    exact Nat.not_succ_le_self _
      (numbered.bound other stage' _ running reserved')
  constructor
  · intro other stage' gen running reserved'
    rcases update_cases running with ⟨rfl, new⟩ | ⟨_, before⟩
    · cases new
      rw [reserved] at reserved'
      cases reserved'
      exact Nat.le_refl _
    · exact Nat.le_succ_of_le (numbered.bound other stage' gen before reserved')
  · intro one other stage' stage'' running running' current current'
    rcases update_cases running with ⟨rfl, _⟩ | ⟨_, before⟩
    · rcases update_cases running' with ⟨rfl, _⟩ | ⟨_, before'⟩
      · rfl
      · exact (old before' current').elim
    · exact (old before current).elim

theorem Numbered.idle (numbered : Numbered loginGen tasks)
    (current : (tasks id).bind Stage.reserved = some loginGen)
    (ends : next.bind Stage.reserved = none) :
    Idle loginGen (Function.update tasks id next) := by
  intro other stage running reserved
  obtain ⟨mine, was, wasReserved⟩ := Option.bind_eq_some_iff.mp current
  rcases update_cases running with ⟨rfl, new⟩ | ⟨different, before⟩
  · simp [new, reserved] at ends
  · exact different
      (numbered.one other id stage mine before was reserved wasReserved)

theorem Idle.ends (idle : Idle loginGen tasks)
    (ends : next.bind Stage.reserved = none) :
    Idle loginGen (Function.update tasks id next) := by
  intro other stage running reserved
  rcases update_cases running with ⟨rfl, new⟩ | ⟨_, before⟩
  · simp [new, reserved] at ends
  · exact idle other stage before reserved

theorem Idle.not_current (idle : Idle loginGen tasks) :
    (tasks id).bind Stage.reserved ≠ some loginGen := by
  intro current
  obtain ⟨stage, running, reserved⟩ := Option.bind_eq_some_iff.mp current
  exact idle id stage running reserved

end

theorem Sound.rests (sound : face.Sound tasks) (opened : face.closed = false)
    (mine : ∀ stage gen, next = some stage → stage.reserved = some gen →
      (tasks id).bind Stage.reserved = some gen)
    (sent : ∀ stage, next = some stage → stage.sent = true →
      (tasks id).any Stage.sent = true)
    (left : face.closed = false → ∀ stage, tasks id = some stage →
      stage.Pending face.loginGen →
      (∃ stage', next = some stage' ∧ stage'.Pending face.loginGen) ∨
        face.Elsewhere id tasks) :
    face.Sound (Function.update tasks id next) where
  numbered := sound.numbered.narrow mine
  idle challenge := by
    have idle := sound.idle challenge
    intro other stage running reserved
    rcases update_cases running with ⟨rfl, new⟩ | ⟨_, before⟩
    · exact idle.not_current (mine stage _ new reserved)
    · exact idle other stage before reserved
  challenge := sound.challenge
  sent other stage running wasSent reserved := by
    rcases update_cases running with ⟨rfl, new⟩ | ⟨_, before⟩
    · obtain ⟨old, was, reserved'⟩ :=
        Option.bind_eq_some_iff.mp (mine stage _ new reserved)
      have sent' := sent stage new wasSent
      rw [was] at sent'
      exact sound.sent other old was sent' reserved'
    · exact sound.sent other stage before wasSent reserved
  shown := sound.shown
  settled := by
    rcases sound.settled with agrees | challenge |
      ⟨other, stage, running, pending⟩
    · exact Or.inl agrees
    · exact Or.inr (Or.inl challenge)
    · by_cases same : other = id
      · subst same
        rcases left opened stage running pending with
          ⟨stage', new, pending'⟩ | elsewhere
        · exact Or.inr (Or.inr ⟨other, stage', by simp [new], pending'⟩)
        · exact sound.of_elsewhere elsewhere
      · refine Or.inr (Or.inr ⟨other, stage, ?_, pending⟩)
        rw [Function.update_of_ne same]
        exact running

/-- Whatever a task's next section does, what is published stays accounted
for. -/
theorem Sound.turn (sound : face.Sound tasks)
    (turn : face.Turn id tasks next after) (opened : face.closed = false) :
    after.Sound (Function.update tasks id next) := by
  cases turn with
  | rests mine sent left => exact sound.rests opened mine sent left
  | announces =>
      have ends : (some Stage.announced).bind Stage.reserved = none := rfl
      refine ⟨sound.numbered.ends ends, fun challenge =>
        (sound.idle challenge).ends ends, sound.challenge, ?_,
        fun _ _ => Or.inl rfl, Or.inr (Or.inr
          ⟨id, .announced, Function.update_self _ _ _, Or.inl rfl⟩)⟩
      intro other stage running wasSent reserved
      rcases update_cases running with ⟨rfl, new⟩ | ⟨_, before⟩
      · cases new
        cases wasSent
      · exact sound.sent other stage before wasSent reserved
  | @reserves stage queued reserved =>
      refine ⟨sound.numbered.reserve reserved, (by simp), (by simp), ?_,
        sound.shown, Or.inr (Or.inr
          ⟨id, stage, Function.update_self _ _ _, Or.inr reserved⟩)⟩
      intro other stage' running wasSent reserved'
      rcases update_cases running with ⟨rfl, new⟩ | ⟨_, before⟩
      · cases new
        rw [queued] at wasSent
        cases wasSent
      · exact (Nat.not_succ_le_self _
          (sound.numbered.bound other stage' _ before reserved')).elim
  | empties current =>
      refine ⟨sound.numbered.narrow ?_, ?_, fun _ => rfl, fun _ _ _ _ _ => rfl,
        (by simp), Or.inr (Or.inr ⟨id, .loginSent face.loginGen,
          Function.update_self _ _ _, Or.inr rfl⟩)⟩
      · intro stage gen new reserved
        cases new
        cases reserved
        exact current
      · intro challenge
        exact ((sound.idle challenge).not_current current).elim
  | @signsOut _ gen challenge _ ends later kept _ =>
      refine ⟨(sound.numbered.ends ends).later later, ?_, fun _ => rfl,
        fun _ _ _ _ _ => rfl, (by simp), Or.inl trivial⟩
      intro stays
      obtain ⟨was, same⟩ := kept stays
      have idle : Idle face.loginGen (Function.update tasks id _) :=
        (sound.idle was).ends ends
      exact same ▸ idle
  | fails sent current =>
      obtain ⟨stage, running, reserved⟩ := Option.bind_eq_some_iff.mp current
      rw [running] at sent
      have out := sound.sent id stage running sent reserved
      refine ⟨sound.numbered.ends rfl, fun _ => sound.numbered.idle current rfl,
        fun _ => out, fun _ _ _ _ _ => out,
        fun _ held => by simp [out] at held, Or.inl ?_⟩
      simp [Agrees, out]
  | challenges sent current =>
      obtain ⟨stage, running, reserved⟩ := Option.bind_eq_some_iff.mp current
      rw [running] at sent
      have out := sound.sent id stage running sent reserved
      exact ⟨sound.numbered.ends rfl, fun _ => sound.numbered.idle current rfl,
        fun _ => out, fun _ _ _ _ _ => out,
        fun _ held => by simp [out] at held, Or.inr (Or.inl rfl)⟩
  | @installs _ user ends current =>
      have idle : Idle face.loginGen (Function.update tasks id next) := by
        rcases current with mine | challenge
        · exact sound.numbered.idle mine ends
        · exact (sound.idle challenge).ends ends
      refine ⟨sound.numbered.ends ends, (by simp), (by simp), ?_,
        fun _ held => Or.inr ⟨user, rfl, Option.some.inj held⟩, Or.inl rfl⟩
      intro other stage running _ reserved
      exact (idle other stage running reserved).elim

theorem rests_of_plain
    (old : ∀ stage, tasks id = some stage → ¬ stage.Pending face.loginGen)
    (reserved : next.bind Stage.reserved = none)
    (sent : next.any Stage.sent = false) : face.Turn id tasks next face := by
  refine .rests ?_ ?_ fun _ stage running pending =>
    (old stage running pending).elim
  · intro stage gen new attempt
    simp [new, attempt] at reserved
  · intro stage new wasSent
    simp [new, wasSent] at sent

/-- A task that ends, and leaves what is published to something else. -/
theorem rests_of_end
    (left : face.closed = false → ∀ stage, tasks id = some stage →
      stage.Pending face.loginGen → face.Elsewhere id tasks) :
    face.Turn id tasks none face :=
  .rests (by simp) (by simp) fun opened stage running pending =>
    Or.inr (left opened stage running pending)

end Face

/-! ### The sections -/

/-- There is a stored session that a restore can use. -/
def View.Stored (faults : Faults) (view : View) : Prop :=
  view.Mine ∧ view.vault.readFence faults = false ∧
    (view.vault.load faults).join.isSome

instance (faults : Faults) (view : View) : Decidable (view.Stored faults) :=
  inferInstanceAs (Decidable (_ ∧ _))

/-- The current attempt ends here, or a login that has not reserved one, and
nothing is published. -/
def View.EndsSilently (view : View) : Stage → Input → Prop
  | .announced, .dropped => True
  | .loginProfile gen _, .me _ _ => view.Current gen ∧ view.owns = false
  | .restoreQueued gen, .proceed faults =>
      view.Current gen ∧ ¬ view.Stored faults
  | .restoreSent gen _ _, .failed => view.Current gen
  | .restoreSent gen _ _, .refused _ => view.Current gen
  | .restoreSent gen _ _, .pair _ => view.Current gen ∧ view.owns = false
  | _, _ => False

instance (view : View) (stage : Stage) (input : Input) :
    Decidable (view.EndsSilently stage input) :=
  match stage with
  | .announced =>
      match input with
      | .dropped => isTrue trivial
      | .proceed _ | .failed | .challenge | .refused _ | .pair _ | .me _ _
      | .limited | .expired => isFalse id
  | .loginProfile gen _ =>
      match input with
      | .me _ _ => inferInstanceAs (Decidable (view.Current gen ∧ _))
      | .proceed _ | .failed | .challenge | .refused _ | .pair _ | .limited
      | .dropped | .expired => isFalse id
  | .restoreQueued gen =>
      match input with
      | .failed | .challenge | .refused _ | .pair _ | .me _ _ | .limited
      | .dropped | .expired => isFalse id
      | .proceed _ => inferInstanceAs (Decidable (view.Current gen ∧ ¬ _))
  | .restoreSent gen _ _ =>
      match input with
      | .failed | .refused _ => inferInstanceAs (Decidable (view.Current gen))
      | .pair _ => inferInstanceAs (Decidable (view.Current gen ∧ _))
      | .proceed _ | .challenge | .me _ _ | .limited | .dropped | .expired =>
          isFalse id
  | .loginQueued _ | .loginSent _ | .totpQueued _ | .totpSent _
  | .totpProfile _ _ | .refreshQueued _ | .refreshSent _ | .profileOut _
  | .accountQueued _ | .accountSent _ _ _ | .accountRefresh _ _ | .closing =>
      isFalse id

/-- The face of the client turns as the section says. -/
def Outcome.Turns (id : TaskId) (tasks : Tasks) (view : View)
    (out : Outcome) : Prop :=
  view.store.face.Turn id tasks out.stage out.view.store.face

section

variable {id : TaskId} {tasks : Tasks} {view later : View} {out : Outcome}
variable {gen : Nat} {faults : Faults} {stage : Stage}

namespace Outcome

theorem Turns.emit (turns : out.Turns id tasks view) (event : Event) :
    (out.emit event).Turns id tasks view := turns

theorem Turns.revoke (turns : out.Turns id tasks view) (token : Token) :
    (out.revoke token).Turns id tasks view := turns

theorem Turns.revokeAll (turns : out.Turns id tasks view)
    (taken : Option Session) : (out.revokeAll taken).Turns id tasks view := by
  cases taken with
  | none => exact turns
  | some old => exact turns

/-- An attempt that is stale ends without a word. -/
theorem Turns.stale (running : tasks id = some stage)
    (reserved : stage.reserved = some gen) (stale : ¬ view.Current gen)
    (same : later.store.face = view.store.face) :
    later.done.Turns id tasks view := by
  unfold Turns View.done
  simp only [same]
  apply Face.rests_of_end
  intro opened stage' running' pending
  cases running.symm.trans running'
  rcases pending with rfl | current
  · cases reserved
  · rw [reserved] at current
    exact (stale ⟨opened, (Option.some.inj current).symm⟩).elim

/-- A task with no attempt of its own changes nothing. -/
theorem Turns.plain (running : tasks id = some stage)
    (announced : stage ≠ .announced) (old : stage.reserved = none)
    (same : out.view.store.face = view.store.face)
    (reserved : out.stage.bind Stage.reserved = none)
    (sent : out.stage.any Stage.sent = false) : out.Turns id tasks view := by
  unfold Turns
  rw [same]
  refine Face.rests_of_plain ?_ reserved sent
  intro stage' running' pending
  cases running.symm.trans running'
  rcases pending with same | current
  · exact announced same
  · rw [old] at current
    cases current

/-- The current attempt goes on. -/
theorem Turns.goesOn {stage' : Stage} (running : tasks id = some stage)
    (same : later.store.face = view.store.face)
    (reserved : stage'.reserved = stage.reserved)
    (attempt : stage.reserved = some gen)
    (sent : stage'.sent = true → stage.sent = true) :
    (later.goesOn stage').Turns id tasks view := by
  unfold Turns View.goesOn
  simp only [same]
  refine .rests ?_ ?_ ?_
  · intro _ _ new ofStage
    cases new
    rw [running, Option.bind_some, ← reserved, ofStage]
  · intro _ new wasSent
    cases new
    rw [running]
    exact sent wasSent
  · intro _ old running' pending
    cases running.symm.trans running'
    rcases pending with rfl | current
    · cases attempt
    · exact Or.inl ⟨stage', rfl, Or.inr (reserved.trans current)⟩

/-- Whatever the task was, the client is signed out. -/
theorem Turns.signedOut (close : Bool)
    (ends : out.stage.bind Stage.reserved = none)
    (same : out.view.store.face =
      ⟨none, .loggedOut, view.store.loginGen + 1, false,
        view.store.closed || close⟩) : out.Turns id tasks view := by
  unfold Turns
  rw [same]
  refine .signsOut ends (Nat.le_succ _) (by simp) fun shut => ?_
  rw [show view.store.closed = true from shut, Bool.true_or]

end Outcome

open Outcome

namespace View

@[simp] theorem signOut_face (close : Bool) :
    (view.signOut close faults).1.store.face =
      ⟨none, .loggedOut, view.store.loginGen + 1, false,
        view.store.closed || close⟩ := by
  simp [Store.face]

theorem commitRefresh_face (rotatedFrom fresh : Token) (rotation : Bool) :
    (view.commitRefresh rotatedFrom fresh rotation faults).1.store.face =
      view.store.face := by
  rcases commitRefresh_cases view faults rotatedFrom fresh rotation with
    ⟨_, discarded⟩ | ⟨_, _, _, _, _, kept⟩ |
    ⟨session, _, _, _, signedIn, _, _, committed⟩
  · rw [discarded]
    rfl
  · rw [kept]
    rfl
  · rw [committed]
    simp [Store.face, signedIn]

theorem replaceUser_face (epoch : Nat) (user : User) :
    (view.replaceUser epoch user faults).store.face = view.store.face := by
  rcases replaceUser_cases view faults epoch user with
    same | ⟨session, _, _, signedIn, ofUser, _, replaced⟩
  · rw [same]
  · rw [replaced]
    simp [Store.face, signedIn, ofUser]

theorem clearPersistedIfHolds_face (refused : Token) :
    (view.clearPersistedIfHolds gen refused faults).store.face =
      view.store.face := by
  rcases clearPersistedIfHolds_cases view faults gen refused with
    same | ⟨_, _, _, _, _, cleared⟩
  · rw [same]
  · rw [cleared]

/-! #### Sign-in -/

theorem loginStart_turns (running : tasks id = some (.loginQueued gen)) :
    (view.loginStart gen faults).Turns id tasks view := by
  unfold loginStart
  rcases takeOutForLogin_cases view faults gen with
    ⟨stale, took⟩ | ⟨current, out, took⟩ | ⟨old, current, _, took⟩
  · rw [took]
    exact .stale running rfl stale rfl
  all_goals
    have mine : (tasks id).bind Stage.reserved =
        some view.store.face.loginGen := by
      rw [running]
      exact congrArg some current.2.symm
    rw [took, ← current.2]
    apply Turns.revokeAll
  · have empties := Face.Turn.empties mine
    have same : view.store.newEpoch.face =
        { view.store.face with user := none } := by
      simp [Store.face, Store.newEpoch, out]
    unfold Turns goesOn
    simp only [same]
    exact empties
  · exact .empties mine

theorem publishFailed_turns (running : tasks id = some stage)
    (sent : stage.sent = true) (reserved : stage.reserved = some gen) :
    (view.publishFailedIfCurrent gen).done.Turns id tasks view := by
  unfold publishFailedIfCurrent
  split
  · next current =>
      apply Face.Turn.fails
      · rw [running]
        exact sent
      · rw [running, Option.bind_some, reserved, ← current.2]
        rfl
  · next stale => exact .stale running reserved stale rfl

theorem openChallenge_turns (running : tasks id = some (.loginSent gen)) :
    (view.openChallenge gen).done.Turns id tasks view := by
  unfold openChallenge
  split
  · next current =>
      apply Face.Turn.challenges
      · rw [running]
        rfl
      · rw [running]
        exact congrArg some current.2.symm
  · next stale => exact .stale running rfl stale rfl

/-- Installed by the current attempt, which no open challenge is of. -/
theorem install_turns {user : User}
    (sound : view.store.closed = false → view.store.face.Sound tasks)
    (running : tasks id = some stage) (reserved : stage.reserved = some gen)
    (current : view.Current gen)
    (ends : out.stage.bind Stage.reserved = none)
    (same : out.view.store.face = { view.store.face with
      user := some user.id
      published := .loggedIn user }) : out.Turns id tasks view := by
  have mine : (tasks id).bind Stage.reserved =
      some view.store.face.loginGen := by
    rw [running, Option.bind_some, reserved, ← current.2]
    rfl
  have shut : view.store.face.challengeOpen = false := by
    by_contra challenge
    have idle := (sound current.1).idle (by simpa using challenge)
    exact idle.not_current mine
  unfold Turns
  rw [same]
  have installs := @Face.Turn.installs view.store.face id tasks out.stage user
    ends (Or.inl mine)
  rwa [← shut] at installs

theorem loginProfile_turns {token : Token} (user : User)
    (sound : view.store.closed = false → view.store.face.Sound tasks)
    (running : tasks id = some (.loginProfile gen token))
    (kept : view.store.closed = false → view.Current gen →
      view.owns = false → view.store.face.Elsewhere id tasks) :
    (view.loginProfile gen token user faults).Turns id tasks view := by
  unfold loginProfile
  rcases installForLogin_cases view faults gen ⟨user, token⟩ none with
    ⟨stale, same⟩ | ⟨current, on, other, same⟩ |
    ⟨vault, marks, current, _, installed⟩
  · rw [same]
    exact Turns.revoke (.stale running rfl stale rfl) token
  · rw [same]
    apply Turns.revoke
    apply Face.rests_of_end
    intro opened _ _ _
    exact kept opened current (by simp [owns, on, other])
  · rw [installed]
    exact install_turns sound running rfl current rfl rfl

theorem totpProfile_turns {token : Token} (user : User)
    (running : tasks id = some (.totpProfile gen token)) :
    (view.totpProfile gen token user faults).Turns id tasks view := by
  unfold totpProfile
  rcases installForChallenge_cases view faults gen ⟨user, token⟩ with
    ⟨_, same⟩ | ⟨vault, marks, current, _, installed⟩
  · rw [same]
    exact .plain running (by simp) rfl rfl rfl rfl
  · rw [installed]
    have installs := @Face.Turn.installs view.store.face id tasks none user rfl
      (Or.inr current.2)
    exact installs

theorem endChallenge_turns (old : ∀ stage, tasks id = some stage →
      ¬ stage.Pending view.store.loginGen)
    (sound : view.store.closed = false → view.store.face.Sound tasks) :
    (view.endChallenge gen).done.Turns id tasks view := by
  unfold endChallenge
  split
  · next current =>
      have out := (sound current.1.1).challenge current.2
      apply Turns.signedOut false rfl
      have none : view.store.session = none := by
        simpa [Store.face] using out
      simp [done, Store.face, none]
  · exact Face.rests_of_plain old rfl rfl

/-! #### Restore -/

theorem restoreStart_turns (running : tasks id = some (.restoreQueued gen))
    (kept : view.store.closed = false → view.Current gen →
      ¬ view.Stored faults → view.store.face.Elsewhere id tasks) :
    (view.restoreStart gen faults).Turns id tasks view := by
  have ends : ∀ {later : View}, later.store.face = view.store.face →
      ¬ view.Stored faults → later.done.Turns id tasks view := by
    intro later same unusable
    by_cases current : view.Current gen
    · unfold Turns done
      simp only [same]
      apply Face.rests_of_end
      intro opened _ _ _
      exact kept opened current unusable
    · exact .stale running rfl current same
  unfold restoreStart
  split
  · next off =>
      exact ends rfl fun usable =>
        Bool.false_ne_true (off.symm.trans usable.1.1)
  split
  · next other => exact ends rfl fun usable => other usable.1.2
  split
  · next fenced =>
      exact ends rfl fun usable =>
        Bool.false_ne_true (usable.2.1.symm.trans fenced)
  split
  · apply Turns.emit
    exact .goesOn running rfl rfl rfl fun sent => by cases sent
  · next missing =>
      apply ends rfl
      intro usable
      obtain ⟨stored, found⟩ := Option.isSome_iff_exists.mp usable.2.2
      exact missing stored (Option.join_eq_some_iff.mp found)

theorem restoreEnd_turns {stored : Session} {family : Nat}
    (running : tasks id = some (.restoreSent gen stored family))
    (kept : view.store.closed = false → view.Current gen →
      view.store.face.Elsewhere id tasks)
    (same : later.store.face = view.store.face) :
    later.done.Turns id tasks view := by
  by_cases current : view.Current gen
  · unfold Turns done
    simp only [same]
    apply Face.rests_of_end
    intro opened _ _ _
    exact kept opened current
  · exact .stale running rfl current same

theorem restorePair_turns {stored : Session} {family : Nat} (token : Token)
    (sound : view.store.closed = false → view.store.face.Sound tasks)
    (running : tasks id = some (.restoreSent gen stored family))
    (kept : view.store.closed = false → view.Current gen →
      view.owns = false → view.store.face.Elsewhere id tasks) :
    (view.restorePair gen stored family token faults).Turns id tasks view := by
  unfold restorePair
  rcases installForLogin_cases view faults gen ⟨stored.user, token⟩
      (some family) with
    ⟨stale, same⟩ | ⟨current, on, other, same⟩ |
    ⟨vault, marks, current, _, installed⟩
  · rw [same]
    exact Turns.revoke (.stale running rfl stale rfl) token
  · rw [same]
    apply Face.rests_of_end
    intro opened _ _ _
    exact kept opened current (by simp [owns, on, other])
  · rw [installed]
    exact install_turns sound running rfl current rfl rfl

/-! #### Refresh and account calls -/

theorem endSuperseded_turns :
    (view.endSuperseded faults).Turns id tasks view := by
  unfold endSuperseded
  apply Turns.revokeAll
  exact .signedOut false rfl (signOut_face false)

theorem refreshOnce_turns {sent : Token → Stage} (limited : Bool)
    (running : tasks id = some stage) (announced : stage ≠ .announced)
    (old : stage.reserved = none)
    (plain : ∀ token, (sent token).reserved = none ∧
      (sent token).sent = false) :
    (view.refreshOnce sent limited faults).Turns id tasks view := by
  unfold refreshOnce
  split
  · exact .plain running announced old rfl rfl rfl
  split
  · exact endSuperseded_turns
  split
  · exact .plain running announced old rfl rfl rfl
  · next session _ _ _ =>
      exact .plain running announced old rfl (plain _).1 (plain _).2

theorem accountSend_turns (epoch : Nat) (retried : Bool)
    (running : tasks id = some stage) (announced : stage ≠ .announced)
    (old : stage.reserved = none)
    (same : later.store.face = view.store.face) :
    (later.accountSend epoch retried).Turns id tasks view := by
  unfold accountSend
  split
  · exact .plain running announced old same rfl rfl
  · exact .plain running announced old same rfl rfl

theorem commitPair_turns {rotatedFrom fresh : Token} {next : View → Outcome}
    (running : tasks id = some stage) (announced : stage ≠ .announced)
    (old : stage.reserved = none)
    (turns : ∀ {later : View}, later.store.face = view.store.face →
      (next later).Turns id tasks view) :
    (view.commitPair rotatedFrom fresh true faults next).Turns id tasks
      view := by
  have same := @commitRefresh_face view faults rotatedFrom fresh true
  unfold commitPair
  split
  · next held committed =>
      rw [committed] at same
      exact turns same
  · next held stored =>
      rw [stored] at same
      exact .plain running announced old same rfl rfl
  · next held discarded =>
      rw [discarded] at same
      exact .plain running announced old same rfl rfl

theorem accountPair_turns (used fresh : Token)
    (running : tasks id = some stage) (announced : stage ≠ .announced)
    (old : stage.reserved = none) :
    (view.accountPair used fresh faults).Turns id tasks view := by
  have same := @commitRefresh_face view faults used fresh false
  unfold accountPair
  split
  · next held discarded =>
      rw [discarded] at same
      exact .plain running announced old same rfl rfl
  · next held _ _ kept =>
      rw [kept] at same
      exact .plain running announced old same rfl rfl

theorem clearIfHolds_turns (rejected : Token)
    (running : tasks id = some stage) (announced : stage ≠ .announced)
    (old : stage.reserved = none) :
    (view.clearIfHolds rejected faults).done.Turns id tasks view := by
  rcases clearIfHolds_cases view faults rejected with
    ⟨_, same⟩ | ⟨session, _, _, cleared⟩
  · rw [same]
    exact .plain running announced old rfl rfl rfl
  · rw [cleared]
    exact Face.Turn.signsOut rfl (Nat.le_refl _) (fun stays => ⟨stays, rfl⟩)
      fun shut => shut

theorem close_turns : (view.close faults).Turns id tasks view := by
  have out : (view.signOut true faults).1.done.Turns id tasks view :=
    .signedOut true rfl (@signOut_face view faults true)
  unfold close
  dsimp only
  split
  · exact out
  · exact out.revokeAll _

theorem logout_turns : (view.logout faults).Turns id tasks view := by
  unfold logout
  apply Turns.emit
  apply Turns.revokeAll
  exact .signedOut false rfl (signOut_face false)

end View

/-- The section after a wait; a silent end is made up for elsewhere. -/
theorem resume_turns {number : Nat} {input : Input}
    (sound : view.store.closed = false → view.store.face.Sound tasks)
    (running : tasks id = some stage)
    (kept : view.store.closed = false → view.EndsSilently stage input →
      view.store.face.Elsewhere id tasks)
    (resumed : resume number view stage input = some out) :
    out.Turns id tasks view := by
  cases stage with
  | announced =>
      cases input with
      | proceed =>
          cases resumed
          exact Face.Turn.reserves rfl rfl
      | dropped =>
          cases resumed
          exact Face.rests_of_end fun opened _ _ _ => kept opened trivial
      | _ => cases resumed
  | loginQueued gen =>
      cases input with
      | proceed faults =>
          cases resumed
          exact View.loginStart_turns running
      | _ => cases resumed
  | loginSent gen =>
      cases input with
      | failed =>
          cases resumed
          exact View.publishFailed_turns running rfl rfl
      | challenge =>
          cases resumed
          exact View.openChallenge_turns running
      | pair =>
          cases resumed
          apply Turns.emit
          exact .goesOn running rfl rfl rfl fun _ => rfl
      | _ => cases resumed
  | loginProfile gen token =>
      cases input with
      | me user faults =>
          cases resumed
          exact View.loginProfile_turns user sound running
            fun opened current other => kept opened ⟨current, other⟩
      | failed =>
          cases resumed
          apply Turns.emit
          exact View.publishFailed_turns running rfl rfl
      | _ => cases resumed
  | totpQueued gen =>
      cases input with
      | proceed =>
          simp only [resume] at resumed
          split at resumed
          all_goals
            cases resumed
            exact .plain running (by simp) rfl rfl rfl rfl
      | _ => cases resumed
  | totpSent gen =>
      cases input with
      | failed =>
          cases resumed
          exact .plain running (by simp) rfl rfl rfl rfl
      | refused =>
          cases resumed
          apply View.endChallenge_turns _ sound
          intro stage' running' pending
          cases running.symm.trans running'
          rcases pending with never | never <;> cases never
      | pair =>
          cases resumed
          exact .plain running (by simp) rfl rfl rfl rfl
      | _ => cases resumed
  | totpProfile gen token =>
      cases input with
      | me user faults =>
          cases resumed
          exact View.totpProfile_turns user running
      | failed =>
          cases resumed
          exact .plain running (by simp) rfl rfl rfl rfl
      | _ => cases resumed
  | restoreQueued gen =>
      cases input with
      | proceed faults =>
          cases resumed
          exact View.restoreStart_turns running
            fun opened current unusable => kept opened ⟨current, unusable⟩
      | _ => cases resumed
  | restoreSent gen stored family =>
      cases input with
      | failed =>
          cases resumed
          exact View.restoreEnd_turns running kept rfl
      | refused faults =>
          cases resumed
          exact Turns.emit (View.restoreEnd_turns running kept
            (View.clearPersistedIfHolds_face _)) _
      | pair faults =>
          cases resumed
          apply Turns.emit
          apply Turns.emit
          exact View.restorePair_turns _ sound running
            fun opened current other => kept opened ⟨current, other⟩
      | _ => cases resumed
  | refreshQueued seen =>
      cases input with
      | proceed faults =>
          cases resumed
          unfold View.refreshStart
          split
          · exact .plain running (by simp) rfl rfl rfl rfl
          · exact View.refreshOnce_turns false running (by simp) rfl
              fun _ => ⟨rfl, rfl⟩
      | limited =>
          cases resumed
          unfold View.refreshStart
          split
          · exact .plain running (by simp) rfl rfl rfl rfl
          · exact View.refreshOnce_turns true running (by simp) rfl
              fun _ => ⟨rfl, rfl⟩
      | _ => cases resumed
  | refreshSent token =>
      cases input with
      | failed =>
          cases resumed
          exact .plain running (by simp) rfl rfl rfl rfl
      | refused faults =>
          cases resumed
          apply Turns.emit
          exact View.clearIfHolds_turns token running (by simp) rfl
      | pair faults =>
          cases resumed
          apply Turns.emit
          apply Turns.emit
          apply View.commitPair_turns running (by simp) rfl
          intro later same
          exact .plain running (by simp) rfl same rfl rfl
      | _ => cases resumed
  | profileOut epoch =>
      cases input with
      | me user faults =>
          cases resumed
          exact .plain running (by simp) rfl (View.replaceUser_face epoch user)
            rfl rfl
      | failed =>
          cases resumed
          exact .plain running (by simp) rfl rfl rfl rfl
      | dropped =>
          cases resumed
          exact .plain running (by simp) rfl rfl rfl rfl
      | _ => cases resumed
  | accountQueued epoch =>
      cases input with
      | proceed =>
          cases resumed
          exact View.accountSend_turns epoch false running (by simp) rfl rfl
      | dropped =>
          cases resumed
          exact .plain running (by simp) rfl rfl rfl rfl
      | _ => cases resumed
  | accountSent epoch used retried =>
      cases input with
      | failed =>
          cases resumed
          exact .plain running (by simp) rfl rfl rfl rfl
      | dropped =>
          cases resumed
          exact .plain running (by simp) rfl rfl rfl rfl
      | refused faults =>
          simp only [resume] at resumed
          split at resumed
          · cases resumed
            exact .plain running (by simp) rfl rfl rfl rfl
          · cases resumed
            exact View.refreshOnce_turns false running (by simp) rfl
              fun _ => ⟨rfl, rfl⟩
      | pair faults =>
          cases resumed
          apply Turns.emit
          exact View.accountPair_turns used _ running (by simp) rfl
      | expired =>
          cases resumed
          exact .plain running (by simp) rfl rfl rfl rfl
      | _ => cases resumed
  | accountRefresh epoch token =>
      cases input with
      | failed =>
          cases resumed
          exact .plain running (by simp) rfl rfl rfl rfl
      | dropped =>
          cases resumed
          exact .plain running (by simp) rfl rfl rfl rfl
      | refused faults =>
          cases resumed
          apply Turns.emit
          exact View.clearIfHolds_turns token running (by simp) rfl
      | pair faults =>
          cases resumed
          apply Turns.emit
          apply Turns.emit
          apply View.commitPair_turns running (by simp) rfl
          intro later same
          exact View.accountSend_turns epoch true running (by simp) rfl same
      | expired =>
          cases resumed
          exact .plain running (by simp) rfl rfl rfl rfl
      | _ => cases resumed
  | closing =>
      cases input with
      | proceed faults =>
          cases resumed
          exact View.close_turns
      | _ => cases resumed

theorem begin_turns {op : Op}
    (sound : view.store.closed = false → view.store.face.Sound tasks)
    (free : tasks id = none) (kept : op ≠ .drop)
    (begun : begin view op = some out) : out.Turns id tasks view := by
  have old : ∀ stage, tasks id = some stage →
      ¬ stage.Pending view.store.loginGen := by
    intro stage running
    cases free.symm.trans running
  cases op with
  | enable =>
      simp only [begin] at begun
      split at begun
      · cases begun
      · cases begun
        exact Face.rests_of_plain old rfl rfl
  | login =>
      cases begun
      exact Face.Turn.announces
  | totp gen =>
      simp only [begin] at begun
      split at begun
      · cases begun
      · cases begun
        exact Face.rests_of_plain old rfl rfl
  | cancel gen =>
      cases begun
      exact View.endChallenge_turns old sound
  | restore =>
      cases begun
      exact Face.Turn.reserves rfl rfl
  | refresh =>
      cases begun
      exact Face.rests_of_plain old rfl rfl
  | profile =>
      cases begun
      exact Face.rests_of_plain old rfl rfl
  | account =>
      cases begun
      exact Face.rests_of_plain old rfl rfl
  | logout faults =>
      cases begun
      exact View.logout_turns
  | drop => exact (kept rfl).elim

end

/-! ### Every run -/

/-- An attempt that ends silently leaves nothing to publish, or leaves it to
another attempt of its client. -/
def Accounted (system : System) : Action → Prop
  | .resume id input =>
      ∀ task ∈ system.tasks.get? id,
        ∀ store ∈ system.clients.get? task.client,
        store.closed = false →
        (system.view task.client store).EndsSilently task.stage input →
        ¬ store.face.Waits ∨ store.challengeOpen = true ∨
          ∃ entry ∈ system.tasks.rows, entry.1 ≠ id ∧
            entry.2.client = task.client ∧
            entry.2.stage.Pending store.loginGen
  | _ => True

instance (system : System) (action : Action) :
    Decidable (Accounted system action) :=
  match action with
  | .resume id input =>
      inferInstanceAs (Decidable (∀ task ∈ system.tasks.get? id,
        ∀ store ∈ system.clients.get? task.client,
        store.closed = false →
        (system.view task.client store).EndsSilently task.stage input →
        ¬ store.face.Waits ∨ store.challengeOpen = true ∨
          ∃ entry ∈ system.tasks.rows, entry.1 ≠ id ∧
            entry.2.client = task.client ∧
            entry.2.stage.Pending store.loginGen))
  | .create _ | .begin _ _ _ | .leave _ _ | .restart => isTrue trivial

namespace System

def tasksOf (system : System) (client : ClientId) : Tasks := fun id =>
  ((system.tasks.get? id).filter (·.client = client)).map (·.stage)

/-- Whatever a client shows comes from its attempts. -/
structure Shown (system : System) : Prop where
  faces : ∀ client store, system.clients.get? client = some store →
    store.closed = false → store.face.Sound (system.tasksOf client)
  owned : ∀ id task, system.tasks.get? id = some task →
    ∃ store, system.clients.get? task.client = some store

variable {system next : System} {client other : ClientId} {id : TaskId}
variable {out : Outcome}

theorem tasksOf_eq_some {stage : Stage} :
    system.tasksOf client id = some stage ↔
      system.tasks.get? id = some ⟨client, stage⟩ := by
  simp only [tasksOf, Option.map_eq_some_iff, Option.filter_eq_some_iff,
    decide_eq_true_eq]
  constructor
  · rintro ⟨task, ⟨running, rfl⟩, rfl⟩
    exact running
  · intro running
    exact ⟨_, ⟨running, rfl⟩, rfl⟩

theorem tasksOf_land : (system.land client id out).tasksOf client =
    Function.update (system.tasksOf client) id out.stage := by
  funext other
  by_cases same : other = id
  · subst same
    rw [Function.update_self]
    cases goesOn : out.stage with
    | none => simp [tasksOf, land, goesOn]
    | some stage => simp [tasksOf, land, goesOn]
  · rw [Function.update_of_ne same]
    cases goesOn : out.stage with
    | none =>
        simp only [tasksOf, land, goesOn, Table.get?_filter]
        congr 2
        ext task
        simp [same]
    | some stage => simp [tasksOf, land, goesOn, Table.get?_put, same]

theorem tasksOf_land_other (different : other ≠ client)
    (mine : ∀ task, system.tasks.get? id = some task → task.client = client) :
    (system.land client id out).tasksOf other = system.tasksOf other := by
  funext at_
  ext stage
  rw [tasksOf_eq_some, tasksOf_eq_some]
  by_cases same : at_ = id
  · subst same
    constructor
    · intro running
      rcases land_task running with ⟨_, _, _, new⟩ | ⟨changed, _⟩
      · cases new
        exact (different rfl).elim
      · exact (changed rfl).elim
    · intro running
      exact (different (mine _ running)).elim
  · cases goesOn : out.stage with
    | none => simp [land, goesOn, same]
    | some next => simp [land, goesOn, Table.get?_put, same]

theorem Shown.land (shown : system.Shown) {store : Store}
    (found : system.clients.get? client = some store)
    (mine : ∀ task, system.tasks.get? id = some task → task.client = client)
    (turns : out.view.store.closed = false →
      out.Turns id (system.tasksOf client) (system.view client store)) :
    (system.land client id out).Shown where
  faces other held foundAfter opened := by
    rcases land_client foundAfter with ⟨rfl, rfl⟩ | ⟨different, before⟩
    · rw [tasksOf_land]
      have turn := turns opened
      have before := turn.opened opened
      exact (shown.faces other store found before).turn turn before
    · rw [tasksOf_land_other different mine]
      exact shown.faces other held before opened
  owned other task running := by
    have kept : ∀ {other held}, system.clients.get? other = some held →
        ∃ later, (system.land client id out).clients.get? other =
          some later := by
      intro other held before
      simp only [System.land, Table.get?_put]
      split
      · exact ⟨_, rfl⟩
      · exact ⟨held, before⟩
    rcases land_task running with ⟨_, _, _, rfl⟩ | ⟨_, before⟩
    · exact kept found
    · obtain ⟨held, before⟩ := shown.owned other task before
      exact kept before

end System

variable {system next : System}

theorem sound_new {tasks : Tasks} (idle : ∀ id, tasks id = none) :
    Store.new.face.Sound tasks := by
  have none : ∀ {id stage}, tasks id ≠ some stage := by
    intro id stage running
    cases (idle id).symm.trans running
  refine ⟨⟨fun _ _ _ running => (none running).elim,
    fun _ _ _ _ running => (none running).elim⟩, ?_, ?_,
    fun _ _ running => (none running).elim, ?_, Or.inl trivial⟩
  · intro challenge
    cases challenge
  · intro challenge
    cases challenge
  · intro _ held
    cases held

theorem step_shown (shown : system.Shown) {action : Action}
    (accounted : Accounted system action)
    (taken : step system action = some next) : next.Shown := by
  cases action with
  | create client =>
      simp only [step] at taken
      split at taken
      · cases taken
      next free =>
        cases taken
        have old : ∀ {other store}, system.clients.get? other = some store →
            other ≠ client := by
          intro other store found same
          exact free (Table.contains_iff.mpr ⟨store, same ▸ found⟩)
        constructor
        · intro other store found opened
          simp only [Table.get?_put] at found
          split at found
          · next same =>
              cases found
              apply sound_new
              intro id
              cases running : system.tasksOf other id with
              | none => exact running
              | some stage =>
                  obtain ⟨store, found⟩ := shown.owned id _
                    (System.tasksOf_eq_some.mp running)
                  exact (old found same).elim
          · exact shown.faces other store found opened
        · intro id task running
          obtain ⟨store, found⟩ := shown.owned id task running
          exact ⟨store, (Table.get?_put_ne _ _ (old found)).trans found⟩
  | begin client op id =>
      obtain ⟨store, out, found, _, fresh, _, begun, rfl⟩ := step_begin taken
      have mine : ∀ task, system.tasks.get? id = some task →
          task.client = client := by
        intro task running
        cases fresh.symm.trans running
      apply shown.land found mine
      intro opened
      refine begin_turns (shown.faces client store found) ?_ ?_ begun
      · simp [System.tasksOf, fresh]
      · rintro rfl
        cases begun
        cases opened
  | resume id input =>
      obtain ⟨task, store, out, running, found, _, resumed, rfl⟩ :=
        step_resume taken
      have mine : ∀ other, system.tasks.get? id = some other →
          other.client = task.client := by
        intro other running'
        cases running.symm.trans running'
        rfl
      apply shown.land found mine
      intro _
      refine resume_turns (shown.faces task.client store found)
        (System.tasksOf_eq_some.mpr running) ?_ resumed
      intro opened silent
      rcases accounted task (by simpa using running) store
          (by simpa using found) opened silent with
        still | challenge | ⟨⟨other, task'⟩, member, different, same, pending⟩
      · exact Or.inl still
      · exact Or.inr (Or.inl challenge)
      · refine Or.inr (Or.inr ⟨other, task'.stage, different, ?_, pending⟩)
        rw [System.tasksOf_eq_some, ← same]
        exact Table.mem_rows.mp member
  | leave client token =>
      simp only [step] at taken
      split at taken
      next =>
        cases taken
        exact ⟨shown.faces, shown.owned⟩
      next => cases taken
  | restart =>
      cases taken
      constructor
      · intro _ _ found
        cases found
      · intro _ _ running
        cases running

theorem start_shown : System.start.Shown where
  faces _ _ found := by cases found
  owned _ _ running := by cases running

/-- A client with none of its sign-ins in progress, and no challenge open, shows
the session it holds. -/
theorem published_agrees_of_accounted {actions : List Action}
    (accounted : Along step Accounted System.start actions)
    (reached : run step System.start actions = some system)
    {client : ClientId} {store : Store}
    (found : system.clients.get? client = some store)
    (opened : store.closed = false) (quiet : system.Quiet client store) :
    store.face.Agrees := by
  have shown : system.Shown :=
    run_invariant (fun shown allowed taken => step_shown shown allowed taken)
      start_shown accounted reached
  rcases (shown.faces client store found opened).settled with
    agrees | challenge | ⟨id, stage, running, pending⟩
  · exact agrees
  · exact (Bool.false_ne_true (quiet.1.symm.trans challenge)).elim
  · have done := quiet.2 _
      (Table.mem_values.mpr ⟨id, System.tasksOf_eq_some.mp running⟩) rfl
    exact (Bool.false_ne_true (done.symm.trans pending.signsIn)).elim

/-! ### A restore that supersedes a login -/

/-- The restore finds nothing stored, and the login it made stale says
nothing. -/
def supersededRun : List Action :=
  [.create 1, .begin 1 .login 0, .resume 0 (.proceed .none),
    .begin 1 .restore 1, .resume 0 (.proceed .none),
    .resume 1 (.proceed .none)]

theorem authenticating_after_restore :
    ∃ system store, run step System.start supersededRun = some system ∧
      system.clients.get? 1 = some store ∧ store.closed = false ∧
      system.Quiet 1 store ∧ store.session = none ∧
      store.published = .authenticating ∧ ¬ store.face.Agrees := by
  refine ⟨_, _, rfl, rfl, ?_⟩
  decide +kernel

/-- The restore comes after the login has failed. -/
def failedRun : List Action :=
  [.create 1, .begin 1 .login 0, .resume 0 (.proceed .none),
    .resume 0 (.proceed .none), .resume 0 .failed, .begin 1 .restore 1,
    .resume 1 (.proceed .none)]

theorem published_agrees_of_accounted_failedRun :
    ∃ system store, run step System.start failedRun = some system ∧
      system.clients.get? 1 = some store ∧ store.face.Agrees := by
  obtain ⟨system, reached⟩ : ∃ system,
      run step System.start failedRun = some system := ⟨_, rfl⟩
  obtain ⟨store, found, opened, quiet⟩ : ∃ store,
      system.clients.get? 1 = some store ∧ store.closed = false ∧
        system.Quiet 1 store := by
    cases reached
    refine ⟨_, rfl, ?_⟩
    decide +kernel
  refine ⟨system, store, reached, found,
    published_agrees_of_accounted ?_ reached found opened quiet⟩
  decide +kernel

end Brook.SignedIn
