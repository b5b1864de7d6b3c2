import Brook.SignedIn.Effects
import Brook.Transition.Run

namespace Brook.SignedIn

/-! At most one task of a client is past its wait for the refresh lock. -/

namespace Outcome

@[simp] theorem revoke_stage (token : Token) (out : Outcome) :
    (out.revoke token).stage = out.stage := rfl

@[simp] theorem revokeAll_stage (taken : Option Session) (out : Outcome) :
    (out.revokeAll taken).stage = out.stage := by
  cases taken <;> rfl

@[simp] theorem emit_stage (event : Event) (out : Outcome) :
    (out.emit event).stage = out.stage := rfl

end Outcome

variable {view : View} {faults : Faults}

@[simp] theorem View.close_stage : (view.close faults).stage = none := by
  unfold View.close
  simp only
  split
  · rfl
  · simp [View.done]

theorem resume_holdsRefresh {clock : Nat} {stage next : Stage} {input : Input}
    {out : Outcome} (resumed : resume clock view stage input = some out)
    (goesOn : out.stage = some next) (holds : next.holdsRefresh = true) :
    stage.holdsRefresh = true ∨ stage.takesRefresh input = true := by
  cases stage with
  | announced =>
      cases input with
      | proceed faults =>
          cases resumed
          cases goesOn
          cases holds
      | dropped =>
          cases resumed
          cases goesOn
      | _ => cases resumed
  | loginQueued gen =>
      cases input with
      | proceed faults => exact Or.inr rfl
      | _ => cases resumed
  | totpQueued gen =>
      cases input with
      | proceed faults => exact Or.inr rfl
      | _ => cases resumed
  | restoreQueued gen =>
      cases input with
      | proceed faults => exact Or.inr rfl
      | _ => cases resumed
  | refreshQueued seen =>
      cases input with
      | proceed faults => exact Or.inr rfl
      | limited => exact Or.inr rfl
      | _ => cases resumed
  | profileOut epoch =>
      cases input with
      | me user faults => exact Or.inr rfl
      | failed =>
          cases resumed
          cases goesOn
      | dropped =>
          cases resumed
          cases goesOn
      | _ => cases resumed
  | accountQueued epoch =>
      cases input with
      | proceed faults => exact Or.inr rfl
      | dropped =>
          cases resumed
          cases goesOn
      | _ => cases resumed
  | closing =>
      cases input with
      | proceed faults =>
          cases resumed
          rw [View.close_stage] at goesOn
          cases goesOn
      | _ => cases resumed
  | _ => exact Or.inl rfl

theorem begin_holdsRefresh {op : Op} {next : Stage} {out : Outcome}
    (begun : begin view op = some out) (goesOn : out.stage = some next) :
    next.holdsRefresh = false := by
  cases op with
  | enable =>
      simp only [begin] at begun
      split at begun
      · cases begun
      · cases begun
        cases goesOn
  | totp gen =>
      simp only [begin] at begun
      split at begun
      · cases begun
      · cases begun
        cases goesOn
        rfl
  | cancel gen =>
      cases begun
      cases goesOn
  | logout faults =>
      cases begun
      simp [View.logout, View.done] at goesOn
  | _ =>
      cases begun
      cases goesOn
      rfl

/-- A client's tasks that hold its refresh lock are one. -/
def OneFlight (system : System) : Prop :=
  ∀ id other task task', system.tasks.get? id = some task →
    system.tasks.get? other = some task' → task.client = task'.client →
    task.stage.holdsRefresh = true → task'.stage.holdsRefresh = true →
    id = other

variable {system next : System}

theorem System.refreshFree_iff {client : ClientId} :
    system.refreshFree client = true ↔
      ∀ id task, system.tasks.get? id = some task → task.client = client →
        task.stage.holdsRefresh = false := by
  simp only [refreshFree, List.all_eq_true, Table.mem_values,
    forall_exists_index]
  constructor
  · intro free id task running same
    have idle := free task id running
    simpa [same] using idle
  · intro free task id running
    by_cases same : task.client = client
    · simp [same, free id task running same]
    · simp [same]

theorem OneFlight.land (one : OneFlight system) {client : ClientId}
    {id : TaskId} {out : Outcome}
    (alone : ∀ stage, out.stage = some stage → stage.holdsRefresh = true →
      ∀ other task, other ≠ id → system.tasks.get? other = some task →
        task.client = client → task.stage.holdsRefresh = false) :
    OneFlight (system.land client id out) := by
  intro first second task task' running running' same holds holds'
  rcases System.land_task running with
    ⟨stage, goesOn, rfl, rfl⟩ | ⟨different, before⟩
  · rcases System.land_task running' with
      ⟨_, _, rfl, _⟩ | ⟨different', before'⟩
    · rfl
    · have free := alone stage goesOn holds second task' different' before'
        same.symm
      rw [free] at holds'
      cases holds'
  · rcases System.land_task running' with
      ⟨stage, goesOn, rfl, rfl⟩ | ⟨different', before'⟩
    · have free := alone stage goesOn holds' first task different before same
      rw [free] at holds
      cases holds
    · exact one first second task task' before before' same holds holds'

theorem step_oneFlight (one : OneFlight system) {action : Action}
    (taken : step system action = some next) : OneFlight next := by
  cases action with
  | create client =>
      simp only [step] at taken
      split at taken
      · cases taken
      · cases taken
        exact one
  | begin client op id =>
      obtain ⟨store, out, _, _, _, _, begun, rfl⟩ := step_begin taken
      apply one.land
      intro stage goesOn holds
      rw [begin_holdsRefresh begun goesOn] at holds
      cases holds
  | resume id input =>
      obtain ⟨task, store, out, running, _, ready, resumed, rfl⟩ :=
        step_resume taken
      apply one.land
      intro stage goesOn holds other task' different running' same
      rcases resume_holdsRefresh resumed goesOn holds with held | takes
      · by_contra both
        exact different (one other id task' task running' running same
          (eq_true_of_ne_false both) held)
      · exact System.refreshFree_iff.mp (ready.1 takes) other task' running'
          same
  | leave client token =>
      simp only [step] at taken
      split at taken
      · cases taken
        exact one
      · cases taken
  | restart =>
      cases taken
      intro _ _ _ _ running
      cases running

end Brook.SignedIn
