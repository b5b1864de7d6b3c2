import Mathlib.Data.List.Basic

namespace Brook.Durable

/-! Programs over a durable state, which do one step at a time.  Each step can go
through, be refused, or never be reached: what was done before it is then what is
left. -/

inductive Fate
  | goes
  | fails
  | crash
deriving DecidableEq

inductive Outcome (ε α : Type)
  | done (answer : α)
  | failed (error : ε)
  | crashed

/-- A program takes a state and what happens to its steps; steps beyond the list
go through. -/
def Run (S ε α : Type) : Type := S → List Fate → Outcome ε α × S × List Fate

namespace Run

variable {S ε α β : Type}

def pure (a : α) : Run S ε α := fun s fates => (.done a, s, fates)

def fail (error : ε) : Run S ε α := fun s fates => (.failed error, s, fates)

def bind (x : Run S ε α) (next : α → Run S ε β) : Run S ε β := fun s fates =>
  match x s fates with
  | (.crashed, left) => (.crashed, left)
  | (.failed error, left) => (.failed error, left)
  | (.done a, s', rest) => next a s' rest

instance : Monad (Run S ε) where
  pure := pure
  bind := bind

/-- The state, which can be looked at without a step. -/
def get : Run S ε S := fun s fates => (.done s, s, fates)

/-- A step: what it answers if it is refused, and what it does and answers if it
goes through. -/
def attempt (refused : Outcome ε α) (go : S → α × S) : Run S ε α := fun s fates =>
  match fates with
  | .crash :: rest => (.crashed, s, rest)
  | .fails :: rest => (refused, s, rest)
  | .goes :: rest => (.done (go s).1, (go s).2, rest)
  | [] => (.done (go s).1, (go s).2, [])

/-- A step that changes the state, or is an error. -/
def step (error : ε) (change : S → S) : Run S ε Unit :=
  attempt (.failed error) fun s => ((), change s)

/-- One step after another. -/
def steps (error : ε) : List (S → S) → Run S ε Unit
  | [] => pure ()
  | change :: rest => bind (step error change) fun _ => steps error rest

end Run

/-- What a program has come to: an answer, or a state that it was stopped in. -/
def Ends {S ε α : Type} (answers : α → S → Prop) (stops : S → Prop)
    (result : Outcome ε α × S × List Fate) : Prop :=
  match result.1 with
  | .crashed => stops result.2.1
  | .failed _ => stops result.2.1
  | .done a => answers a result.2.1

/-- From every state that meets the first condition, the program either answers as the
second one says or is stopped in a state that meets the third. -/
def Triple {S ε α : Type} (before : S → Prop) (x : Run S ε α)
    (answers : α → S → Prop) (stops : S → Prop) : Prop :=
  ∀ s fates, before s → Ends answers stops (x s fates)

namespace Triple

variable {S ε α β : Type} {before before' : S → Prop} {x : Run S ε α}
  {answers answers' : α → S → Prop} {stops stops' : S → Prop}

theorem weaken (triple : Triple before x answers stops)
    (pre : ∀ s, before' s → before s) (post : ∀ a s, answers a s → answers' a s)
    (stopped : ∀ s, stops s → stops' s) : Triple before' x answers' stops' := by
  intro s fates met
  have ends := triple s fates (pre s met)
  unfold Ends at ends ⊢
  split
  case h_1 crashed =>
    rw [crashed] at ends
    exact stopped _ ends
  case h_2 failed =>
    rw [failed] at ends
    exact stopped _ ends
  case h_3 done =>
    rw [done] at ends
    exact post _ _ ends

theorem pure {a : α} (post : ∀ s, before s → answers a s) :
    Triple before (Run.pure a : Run S ε α) answers stops :=
  fun s _ met => post s met

theorem fail {error : ε} (stopped : ∀ s, before s → stops s) :
    Triple before (Run.fail error : Run S ε α) answers stops :=
  fun s _ met => stopped s met

theorem bind {next : α → Run S ε β} (middle : α → S → Prop) {final : β → S → Prop}
    (first : Triple before x middle stops)
    (later : ∀ a, Triple (middle a) (next a) final stops) :
    Triple before (Run.bind x next) final stops := by
  intro s fates met
  have ends := first s fates met
  rw [Run.bind]
  split
  case h_1 left crashed =>
    rw [crashed] at ends
    exact ends
  case h_2 error left failed =>
    rw [failed] at ends
    exact ends
  case h_3 a s' rest done =>
    rw [done] at ends
    exact later a s' rest ends

theorem get {answers : S → S → Prop} (post : ∀ s, before s → answers s s) :
    Triple before (Run.get : Run S ε S) answers stops :=
  fun s _ met => post s met

/-- A state at a time. -/
theorem pointwise (each : ∀ s, before s → Triple (fun t => t = s) x answers stops) :
    Triple before x answers stops :=
  fun s fates met => each s met s fates rfl

theorem attempt {refused : Outcome ε α} {go : S → α × S}
    (stopped : ∀ s, before s → stops s)
    (refusedPost : ∀ s, before s → ∀ a, refused = .done a → answers a s)
    (post : ∀ s, before s → answers (go s).1 (go s).2) :
    Triple before (Run.attempt refused go) answers stops := by
  intro s fates met
  unfold Run.attempt
  split
  case h_1 => exact stopped s met
  case h_2 =>
    cases refused with
    | done a => exact refusedPost s met a rfl
    | failed error => exact stopped s met
    | crashed => exact stopped s met
  case h_3 => exact post s met
  case h_4 => exact post s met

theorem step {error : ε} {change : S → S} {answers : Unit → S → Prop}
    (stopped : ∀ s, before s → stops s) (post : ∀ s, before s → answers () (change s)) :
    Triple before (Run.step error change) answers stops :=
  attempt stopped (fun _ _ _ same => by cases same) post

/-- Where steps are stopped, the first of them were done. -/
theorem steps {error : ε} (changes : List (S → S)) {answers : Unit → S → Prop}
    (stopped : ∀ s, before s → ∀ n, stops ((changes.take n).foldl (fun s f => f s) s))
    (post : ∀ s, before s → answers () (changes.foldl (fun s f => f s) s)) :
    Triple before (Run.steps error changes) answers stops := by
  induction changes generalizing before with
  | nil => exact pure post
  | cons change rest ih =>
      apply bind (fun _ s' => ∃ s, before s ∧ s' = change s)
      · exact step (fun s met => stopped s met 0) (fun s met => ⟨s, met, rfl⟩)
      · intro _
        apply ih
        · rintro _ ⟨s, met, rfl⟩ n
          exact stopped s met (n + 1)
        · rintro _ ⟨s, met, rfl⟩
          exact post s met

/-- What every step keeps. -/
theorem steps_keep {error : ε} {changes : List (S → S)} {P : S → Prop}
    (each : ∀ change ∈ changes, ∀ s, P s → P (change s)) :
    Triple P (Run.steps error changes) (fun _ => P) P := by
  induction changes with
  | nil => exact pure fun _ met => met
  | cons change rest ih =>
      apply bind (fun _ => P)
      · exact step (fun _ met => met) (each change List.mem_cons_self)
      · intro _
        exact ih fun later member => each later (List.mem_cons_of_mem change member)

end Triple

namespace Ends

variable {S ε α β : Type} {answers : α → S → Prop} {stops : S → Prop}

theorem bind {x : Run S ε α} {next : α → Run S ε β} {final : β → S → Prop} {s : S}
    {fates : List Fate} (first : Ends answers stops (x s fates))
    (later : ∀ a, Triple (answers a) (next a) final stops) :
    Ends final stops (Run.bind x next s fates) := by
  have alone : Triple (fun t => t = s) (fun t _ => x t fates) answers stops := by
    rintro t _ rfl
    exact first
  have both := Triple.bind answers alone later s fates rfl
  exact both

theorem attempt {refused : Outcome ε α} {go : S → α × S} {s : S} {fates : List Fate}
    (stopped : stops s)
    (refusal : fates.head? = some .fails → ∀ a, refused = .done a → answers a s)
    (gone : answers (go s).1 (go s).2) :
    Ends answers stops (Run.attempt refused go s fates) := by
  cases fates with
  | nil => exact gone
  | cons fate rest =>
      cases fate with
      | goes => exact gone
      | crash => exact stopped
      | fails =>
          cases refused with
          | done a => exact refusal rfl a rfl
          | failed error => exact stopped
          | crashed => exact stopped

theorem weaken {answers' : α → S → Prop} {stops' : S → Prop}
    {result : Outcome ε α × S × List Fate} (ends : Ends answers stops result)
    (post : ∀ a s, answers a s → answers' a s) (stopped : ∀ s, stops s → stops' s) :
    Ends answers' stops' result := by
  unfold Ends at ends ⊢
  split
  case h_1 crashed =>
    rw [crashed] at ends
    exact stopped _ ends
  case h_2 failed =>
    rw [failed] at ends
    exact stopped _ ends
  case h_3 done =>
    rw [done] at ends
    exact post _ _ ends

/-- The state that is left, whatever the program has come to. -/
theorem state {P : S → Prop} {result : Outcome ε α × S × List Fate}
    (ends : Ends (fun _ => P) P result) : P result.2.1 := by
  unfold Ends at ends
  split at ends
  · exact ends
  · exact ends
  · exact ends

/-- A first step, with what happens to it. -/
theorem bind_attempt {refused : Outcome ε α} {go : S → α × S} {next : α → Run S ε β}
    {final : β → S → Prop} {s : S} {fates : List Fate} (stopped : stops s)
    (refusal : fates.head? = some .fails → ∀ a, refused = .done a →
      Ends final stops (next a s fates.tail))
    (gone : fates.head? ≠ some .fails →
      Ends final stops (next (go s).1 (go s).2 fates.tail)) :
    Ends final stops (Run.bind (Run.attempt refused go) next s fates) := by
  cases fates with
  | nil => exact gone (by simp)
  | cons fate rest =>
      cases fate with
      | goes => exact gone (by simp)
      | crash => exact stopped
      | fails =>
          cases refused with
          | done a => exact refusal rfl a rfl
          | failed error => exact stopped
          | crashed => exact stopped

end Ends

/-- Without a refusal and without a crash, a program comes to this. -/
def Goes {S ε α : Type} (x : Run S ε α) (s : S) (a : α) (s' : S) : Prop :=
  x s [] = (.done a, s', [])

namespace Goes

variable {S ε α β : Type} {x : Run S ε α} {s s' s'' : S} {a : α}

theorem pure : Goes (Run.pure a : Run S ε α) s a s := rfl

theorem get : Goes (Run.get : Run S ε S) s s s := rfl

theorem bind {next : α → Run S ε β} {b : β} (first : Goes x s a s')
    (later : Goes (next a) s' b s'') : Goes (Run.bind x next) s b s'' := by
  rw [Goes, Run.bind, first]
  exact later

theorem attempt {refused : Outcome ε α} {go : S → α × S} :
    Goes (Run.attempt refused go) s (go s).1 (go s).2 := rfl

theorem step {error : ε} {change : S → S} : Goes (Run.step error change) s () (change s) :=
  rfl

theorem steps {error : ε} (changes : List (S → S)) :
    Goes (Run.steps error changes) s () (changes.foldl (fun s f => f s) s) := by
  induction changes generalizing s with
  | nil => exact pure
  | cons change rest ih => exact bind step ih

/-- There is one way to go. -/
theorem unique {b : α} (first : Goes x s a s') (second : Goes x s b s'') :
    a = b ∧ s' = s'' := by
  have same := first.symm.trans second
  cases same
  exact ⟨rfl, rfl⟩

end Goes

end Brook.Durable
