namespace Brook.Transition

universe u v

variable {State : Type u} {Action : Type v}

/-! Runs of a partial step function.  A label carries every choice the step
leaves open, so a run is determined by its start and its list of labels. -/

/-- Take the actions one after the other; `none` once one is not enabled. -/
def run (step : State → Action → Option State) :
    State → List Action → Option State
  | state, [] => some state
  | state, action :: rest =>
      match step state action with
      | none => none
      | some next => run step next rest

/-- Every action that the run takes meets `guard` in the state it is taken in. -/
def Along (step : State → Action → Option State)
    (guard : State → Action → Prop) : State → List Action → Prop
  | _, [] => True
  | state, action :: rest =>
      guard state action ∧
        match step state action with
        | none => True
        | some next => Along step guard next rest

/-- The predicate holds in the start and in every state that the run reaches. -/
def Throughout (step : State → Action → Option State)
    (good : State → Prop) : State → List Action → Prop
  | state, [] => good state
  | state, action :: rest =>
      good state ∧
        match step state action with
        | none => True
        | some next => Throughout step good next rest

section

variable {step : State → Action → Option State}
variable {guard : State → Action → Prop}

@[simp] theorem run_nil (state : State) : run step state [] = some state := rfl

theorem run_cons {state next : State} {action : Action} {rest : List Action}
    (stepped : step state action = some next) :
    run step state (action :: rest) = run step next rest := by
  rw [run, stepped]

theorem run_append (state : State) (front back : List Action) :
    run step state (front ++ back) =
      (run step state front).bind (run step · back) := by
  induction front generalizing state with
  | nil => simp
  | cons action rest ih =>
      cases h : step state action with
      | none => simp [run, h]
      | some next => simp [run, h, ih]

theorem Along.imp {weaker : State → Action → Prop}
    (implies : ∀ {state action}, guard state action → weaker state action)
    {start : State} {actions : List Action}
    (along : Along step guard start actions) :
    Along step weaker start actions := by
  induction actions generalizing start with
  | nil => exact trivial
  | cons action rest ih =>
      cases h : step start action with
      | none =>
          simp only [Along, h] at along ⊢
          exact ⟨implies along.1, trivial⟩
      | some next =>
          simp only [Along, h] at along ⊢
          exact ⟨implies along.1, ih along.2⟩

instance decidableAlong
    [∀ state action, Decidable (guard state action)] :
    ∀ (state : State) (actions : List Action),
      Decidable (Along step guard state actions)
  | _, [] => isTrue trivial
  | state, action :: rest =>
      match h : step state action with
      | none =>
          decidable_of_iff (guard state action) (by simp [Along, h])
      | some next =>
          haveI := decidableAlong next rest
          decidable_of_iff (guard state action ∧ Along step guard next rest)
            (by simp [Along, h])

instance decidableThroughout {good : State → Prop} [∀ state, Decidable (good state)] :
    ∀ (state : State) (actions : List Action), Decidable (Throughout step good state actions)
  | state, [] => inferInstanceAs (Decidable (good state))
  | state, action :: rest =>
      match h : step state action with
      | none => decidable_of_iff (good state) (by simp [Throughout, h])
      | some next =>
          haveI : Decidable (Throughout step good next rest) := decidableThroughout next rest
          decidable_of_iff (good state ∧ Throughout step good next rest)
            (by simp [Throughout, h])

/-- An invariant that every guarded step preserves holds after a guarded run. -/
theorem run_invariant {inv : State → Prop}
    (preserved : ∀ {state action next}, inv state → guard state action →
      step state action = some next → inv next)
    {start finish : State} {actions : List Action}
    (initial : inv start) (along : Along step guard start actions)
    (reached : run step start actions = some finish) :
    inv finish := by
  induction actions generalizing start with
  | nil =>
      cases reached
      exact initial
  | cons action rest ih =>
      cases h : step start action with
      | none => simp [run, h] at reached
      | some next =>
          simp only [Along, h] at along
          simp only [run, h] at reached
          exact ih (preserved initial along.1 h) along.2 reached

/-- An invariant that every step preserves holds after every run. -/
theorem run_invariant_of_step {inv : State → Prop}
    (preserved : ∀ {state action next}, inv state →
      step state action = some next → inv next)
    {start finish : State} {actions : List Action}
    (initial : inv start)
    (reached : run step start actions = some finish) :
    inv finish := by
  induction actions generalizing start with
  | nil =>
      cases reached
      exact initial
  | cons action rest ih =>
      cases h : step start action with
      | none => simp [run, h] at reached
      | some next =>
          simp only [run, h] at reached
          exact ih (preserved initial h) reached

theorem Throughout.good_start {good : State → Prop} {start : State} {actions : List Action}
    (throughout : Throughout step good start actions) : good start := by
  cases actions with
  | nil => exact throughout
  | cons action rest => exact throughout.1

/-- An invariant that every step into a good state preserves holds after a run through good
states. -/
theorem run_invariant_of_throughout {inv good : State → Prop}
    (preserved : ∀ {state action next}, inv state → good next →
      step state action = some next → inv next)
    {start finish : State} {actions : List Action} (initial : inv start)
    (throughout : Throughout step good start actions)
    (reached : run step start actions = some finish) : inv finish := by
  induction actions generalizing start with
  | nil =>
      cases reached
      exact initial
  | cons action rest ih =>
      cases h : step start action with
      | none => simp [run, h] at reached
      | some next =>
          simp only [Throughout, h] at throughout
          simp only [run, h] at reached
          exact ih (preserved initial throughout.2.good_start h) throughout.2 reached

/-- Where an invariant makes the guard of each step equivalent to the good
outcome of that step, a run stays good exactly when it is guarded throughout. -/
theorem throughout_iff_along {inv good : State → Prop}
    (good_of_inv : ∀ {state}, inv state → good state)
    (preserved : ∀ {state action next}, inv state → guard state action →
      step state action = some next → inv next)
    (guarded : ∀ {state action next}, inv state →
      step state action = some next → good next → guard state action)
    (idle : ∀ {state action}, step state action = none → guard state action)
    {start : State} {actions : List Action} (initial : inv start) :
    Throughout step good start actions ↔ Along step guard start actions := by
  induction actions generalizing start with
  | nil => simp [Throughout, Along, good_of_inv initial]
  | cons action rest ih =>
      cases h : step start action with
      | none => simp [Throughout, Along, h, good_of_inv initial, idle h]
      | some next =>
          simp only [Throughout, Along, h]
          constructor
          · rintro ⟨_, later⟩
            have goodNext : good next := by
              cases rest with
              | nil => exact later
              | cons => exact later.1
            have allowed := guarded initial h goodNext
            exact ⟨allowed, (ih (preserved initial allowed h)).mp later⟩
          · rintro ⟨allowed, later⟩
            exact ⟨good_of_inv initial,
              (ih (preserved initial allowed h)).mpr later⟩

end

end Brook.Transition
