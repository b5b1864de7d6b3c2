import Brook.Stores.Store

namespace Brook.Stores

open Durable

/-! What is left on disk where the making of a store is cut off, and what the next
open makes of it. -/

namespace Store

/-- The new process has nothing open. -/
def restart (s : Store) : Store := { s with opened := false }

/-- The key that a store is opened under. -/
def Opener (protection : Protection) (key : Option Key) (s : Store) : Prop :=
  match protection with
  | .plain => key = none
  | .keyed => key.isSome ∧ s.slot = key

/-- A database of the current schema and format. -/
def Current (kind : Kind) (s : Store) : Prop :=
  ∃ d, s.db = some d ∧ d.objects = kind.schema ∧ d.format = some kind.format

variable {protection : Protection} {kind : Kind} {s : Store} {key : Option Key}

/-! ### Where nothing fails -/

theorem foldl_addObject (names : List String) (s : Store) :
    (names.map addObject).foldl (fun s f => f s) s =
      { s with
        db := s.db.map fun d => { d with objects := d.objects ++ names }
        trace := s.trace ++ names.map Op.object } := by
  induction names generalizing s with
  | nil => cases s; simp
  | cons name rest ih =>
      rw [List.map_cons, List.foldl_cons, ih]
      cases s
      simp [addObject, note, Function.comp_def]

/-- What only the disk's database and check tell apart. -/
structure Same (s s' : Store) : Prop where
  slot : s'.slot = s.slot
  opened : s'.opened = s.opened

theorem connect_new (key : Option Key) (absent : s.db = none) :
    ∃ s', Goes (connect key) s true s' ∧
      s'.db = some { Database.empty with cover := some key } ∧ s.Same s' := by
  obtain ⟨slot, made, db, check, tmp, opened, removed, trace⟩ := s
  cases absent
  exact ⟨_, rfl, rfl, rfl, rfl⟩

theorem connect_readable {d : Database} (there : s.db = some d) (own : d.readable key) :
    ∃ s', Goes (connect key) s true s' ∧ s'.db = some { d with cover := some key } ∧
      s'.check = s.check ∧ s.Same s' := by
  obtain ⟨slot, made, db, check, tmp, opened, removed, trace⟩ := s
  cases there
  refine ⟨note .cover ⟨slot, made, some { d with cover := some key }, check, tmp, opened,
    removed, trace⟩, ?_, rfl, rfl, rfl, rfl⟩
  simp [connect, uncover, Goes, Run.bind, Run.get, Run.attempt, own]

theorem connect_unreadable {d : Database} (there : s.db = some d)
    (other : ¬ d.readable key) : Goes (connect key) s false s := by
  obtain ⟨slot, made, db, check, tmp, opened, removed, trace⟩ := s
  cases there
  simp [connect, uncover, Goes, Run.bind, Run.get, Run.attempt, other]

theorem createSchema_goes (kind : Kind) {d : Database} (there : s.db = some d) :
    ∃ s', Goes (createSchema kind) s () s' ∧
      s'.db = some { d with
        objects := d.objects ++ kind.schema
        format := some kind.format } ∧ s.Same s' := by
  refine ⟨_, Goes.bind (Goes.steps _) Goes.step, ?_, ?_⟩
  · rw [foldl_addObject]
    simp [insertMeta, note, there]
  · rw [foldl_addObject]
    exact ⟨rfl, rfl⟩

theorem writeCheck_goes (s : Store) (k : Key) :
    ∃ s', Goes (writeCheck k) s () s' ∧ s'.db = s.db ∧ s.Same s' :=
  ⟨_, Goes.steps _, rfl, rfl, rfl⟩

theorem removeAll_goes (s : Store) : ∃ s', Goes removeAll s () s' ∧ s'.db = none ∧ s.Same s' :=
  ⟨_, Goes.steps _, rfl, rfl, rfl⟩

theorem Same.trans {s s' s'' : Store} (first : s.Same s') (second : s'.Same s'') :
    s.Same s'' :=
  ⟨second.slot.trans first.slot, second.opened.trans first.opened⟩

/-- A new database, made and given its schema. -/
theorem create_goes (kind : Kind) (absent : s.db = none) (k : Key) :
    ∃ s', Goes (create kind k) s () s' ∧ s'.Current kind ∧ s.Same s' := by
  obtain ⟨s₁, connected, db₁, same₁⟩ := connect_new (some k) absent
  obtain ⟨s₂, created, db₂, same₂⟩ := createSchema_goes kind db₁
  obtain ⟨s₃, written, db₃, same₃⟩ := writeCheck_goes s₂ k
  refine ⟨s₃, ?_, ⟨_, db₃.trans db₂, rfl, rfl⟩, (same₁.trans same₂).trans same₃⟩
  exact connected.bind (created.bind written)

theorem getOrCreate_goes (s : Store) :
    ∃ k madeNow s', Goes getOrCreate s (some (k, madeNow)) s' ∧ s'.slot = some k ∧
      s'.db = s.db ∧ s'.check = s.check ∧ s'.opened = s.opened ∧
      (s.slot = some k ∧ madeNow = false ∨
        s.slot = none ∧ k = s.made ∧ madeNow = true) := by
  obtain ⟨slot, made, db, check, tmp, opened, removed, trace⟩ := s
  cases slot with
  | none => exact ⟨made, true, _, rfl, rfl, rfl, rfl, rfl, Or.inr ⟨rfl, rfl, rfl⟩⟩
  | some k => exact ⟨k, false, _, rfl, rfl, rfl, rfl, rfl, Or.inl ⟨rfl, rfl⟩⟩

/-- An inner open of a store without a database makes one. -/
theorem openInner_new (protection : Protection) (kind : Kind) (absent : s.db = none) :
    ∃ s', Goes (openInner protection kind) s (.ready none) s' ∧ s'.Current kind ∧
      s'.opened = s.opened := by
  cases protection with
  | plain =>
      obtain ⟨s₁, connected, db₁, same₁⟩ := connect_new none absent
      obtain ⟨s₂, created, db₂, same₂⟩ := createSchema_goes kind db₁
      refine ⟨s₂, ?_, ⟨_, db₂, rfl, rfl⟩, (same₁.trans same₂).opened⟩
      rw [openInner, if_neg (by decide), openPlain]
      refine Goes.get.bind ?_
      rw [if_neg (by rw [absent]; decide)]
      exact connected.bind (created.bind Goes.pure)
  | keyed =>
      obtain ⟨k, madeNow, s₁, answered, -, db₁, -, opened₁, -⟩ := getOrCreate_goes s
      obtain ⟨s₂, created, current, same₂⟩ := create_goes kind (db₁.trans absent) k
      refine ⟨s₂, ?_, current, same₂.opened.trans opened₁⟩
      rw [openInner, if_pos rfl, openKeyed]
      refine answered.bind (Goes.get.bind ?_)
      rw [if_neg (by rw [db₁, absent]; decide)]
      exact created.bind Goes.pure

/-- A database that the key opens is ready, whatever the check says. -/
theorem openInner_readable (kind : Kind) {d : Database} (own : Opener protection key s)
    (there : s.db = some d) (readable : d.readable key) :
    ∃ s', Goes (openInner protection kind) s (.ready none) s' ∧
      s'.db = some { d with cover := some key } ∧ s'.opened = s.opened := by
  obtain ⟨s₁, connected, db₁, check₁, same₁⟩ := connect_readable there readable
  cases protection with
  | plain =>
      cases own
      refine ⟨s₁, ?_, db₁, same₁.opened⟩
      rw [openInner, if_neg (by decide), openPlain]
      refine Goes.get.bind ?_
      rw [if_pos (by rw [there]; rfl)]
      exact connected.bind Goes.pure
  | keyed =>
      obtain ⟨some_key, slot⟩ := own
      obtain ⟨k, rfl⟩ := Option.isSome_iff_exists.mp some_key
      have answered : Goes getOrCreate s (some (k, false)) s := by
        simp [getOrCreate, Goes, Run.attempt, slot]
      have checked : Goes readCheck s s.check s := Goes.attempt
      rw [openInner, if_pos rfl, openKeyed]
      by_cases same : s.check = some k
      · refine ⟨s₁, ?_, db₁, same₁.opened⟩
        refine answered.bind (Goes.get.bind ?_)
        rw [if_pos (by rw [there]; rfl)]
        refine checked.bind (connected.bind ?_)
        rw [if_pos rfl, if_pos same]
        exact Goes.pure
      · obtain ⟨s₂, written, db₂, same₂⟩ := writeCheck_goes s₁ k
        refine ⟨s₂, ?_, db₂.trans db₁, (same₁.trans same₂).opened⟩
        refine answered.bind (Goes.get.bind ?_)
        rw [if_pos (by rw [there]; rfl)]
        refine checked.bind (connected.bind ?_)
        rw [if_pos rfl, if_neg same]
        exact written.bind Goes.pure

theorem formatOf_goes (s : Store) : Goes formatOf s (s.db.bind Database.format) s :=
  Goes.attempt

/-- A store whose inner open comes to a current database is opened. -/
theorem openReserved_current {s' : Store} {rebuilt : Option Rebuilt}
    (inner : Goes (openInner protection kind) s (.ready rebuilt) s')
    (current : s'.Current kind) :
    ∃ s'', Goes (openReserved protection kind) s (.ready rebuilt) s'' ∧
      s''.Current kind := by
  obtain ⟨d, there, objects, format⟩ := current
  refine ⟨{ s' with opened := true }, inner.bind ?_, d, there, objects, format⟩
  cases rebuilt with
  | some reason => exact Goes.step.bind Goes.pure
  | none =>
      have found := formatOf_goes s'
      rw [there, show (some d).bind Database.format = d.format from rfl, format] at found
      refine found.bind ?_
      rw [if_neg (by exact Option.some_ne_none _), if_pos rfl]
      exact Goes.step.bind Goes.pure

theorem openAs_goes {answer : Opened} {s' : Store} (closed : s.opened = false)
    (opens : Goes (openReserved protection kind) s answer s') :
    Goes (openAs protection kind) s answer s' := by
  refine Goes.step.bind (Goes.get.bind ?_)
  rw [if_neg (by rw [closed]; decide)]
  exact opens

/-! ### The next open -/

/-- It makes a store that is not there. -/
theorem next_new (protection : Protection) (kind : Kind) (closed : s.opened = false)
    (absent : s.db = none) :
    ∃ rebuilt s', Goes (openAs protection kind) s (.ready rebuilt) s' ∧
      s'.Current kind := by
  obtain ⟨s₁, inner, current, -⟩ := openInner_new protection kind absent
  obtain ⟨s₂, opens, done⟩ := openReserved_current inner current
  exact ⟨none, s₂, openAs_goes closed opens, done⟩

/-- It opens a store that was made. -/
theorem next_made (closed : s.opened = false) (own : Opener protection key s)
    {d : Database} (there : s.db = some d) (readable : d.readable key)
    (objects : d.objects = kind.schema) (format : d.format = some kind.format) :
    ∃ rebuilt s', Goes (openAs protection kind) s (.ready rebuilt) s' ∧
      s'.Current kind := by
  obtain ⟨s₁, inner, db₁, -⟩ := openInner_readable kind own there readable
  obtain ⟨s₂, opens, done⟩ := openReserved_current inner ⟨_, db₁, objects, format⟩
  exact ⟨none, s₂, openAs_goes closed opens, done⟩

/-- A database without its `meta` row counts as damaged. -/
theorem next_half (kind : Kind) (closed : s.opened = false) (own : Opener protection key s)
    {d : Database} (there : s.db = some d) (readable : d.readable key)
    (format : d.format = none) :
    ∃ s', Goes (openAs protection kind) s .damaged s' := by
  obtain ⟨s₁, inner, db₁, -⟩ := openInner_readable kind own there readable
  refine ⟨s₁, openAs_goes closed (inner.bind ?_)⟩
  have found := formatOf_goes s₁
  rw [db₁, Option.bind_some, format] at found
  refine found.bind ?_
  rw [if_pos rfl]
  exact Goes.pure

/-- Another format is remade; an outbox is only reported. -/
theorem next_format (closed : s.opened = false) (own : Opener protection key s)
    {d : Database} (there : s.db = some d) (readable : d.readable key) {f : Nat}
    (format : d.format = some f) (other : f ≠ kind.format) :
    (kind = .outbox ∧ ∃ unsent s', Goes (openAs protection kind) s (.needsRebuild unsent) s') ∨
    (kind ≠ .outbox ∧ ∃ rebuilt s', Goes (openAs protection kind) s (.ready rebuilt) s' ∧
      s'.Current kind) := by
  obtain ⟨s₁, inner, db₁, -⟩ := openInner_readable kind own there readable
  have found := formatOf_goes s₁
  rw [db₁, Option.bind_some, format] at found
  have changed : ¬ some f = some kind.format := fun same => other (Option.some.inj same)
  by_cases outbox : kind = .outbox
  · left
    refine ⟨outbox, s₁.db.map Database.unsent, s₁,
      openAs_goes closed (inner.bind (found.bind ?_))⟩
    rw [if_neg (by exact Option.some_ne_none _), if_neg changed, if_pos outbox]
    exact Goes.attempt.bind Goes.pure
  · right
    obtain ⟨s₂, removed, db₂, -⟩ := removeAll_goes s₁
    obtain ⟨s₃, again, current, -⟩ := openInner_new protection kind db₂
    refine ⟨outbox, some .formatChanged, { s₃ with opened := true },
      openAs_goes closed (inner.bind (found.bind ?_)), current⟩
    rw [if_neg (by exact Option.some_ne_none _), if_neg changed, if_neg outbox]
    exact removed.bind (again.bind (Goes.step.bind Goes.pure))

/-- A database of another key is remade where the check is another key's or the key is
made by this very open; otherwise it counts as damaged. -/
theorem next_unreadable (kind : Kind) (closed : s.opened = false) {d : Database}
    (there : s.db = some d) (other : ¬ d.readable (some (s.slot.getD s.made)))
    (unlike : s.check ≠ some (s.slot.getD s.made)) :
    (s.check = none ∧ s.slot.isSome ∧
      ∃ s', Goes (openAs .keyed kind) s .damaged s') ∨
    (¬ (s.check = none ∧ s.slot.isSome) ∧
      ∃ rebuilt s', Goes (openAs .keyed kind) s (.ready rebuilt) s' ∧ s'.Current kind) := by
  obtain ⟨k, madeNow, s₁, answered, slot₁, db₁, check₁, opened₁, how⟩ :=
    getOrCreate_goes s
  have key_is : s.slot.getD s.made = k := by
    rcases how with ⟨slot, -⟩ | ⟨slot, key, -⟩
    · rw [slot, Option.getD_some]
    · rw [slot, Option.getD_none, key]
  rw [key_is] at other unlike
  have closed_to := connect_unreadable (db₁.trans there) other
  have checked : Goes readCheck s₁ s₁.check s₁ := Goes.attempt
  have reaches : ∀ {answer : Inner} {s' : Store},
      Goes (openFound kind k madeNow s.check) s₁ answer s' →
      Goes (openInner .keyed kind) s answer s' := by
    intro answer s' rest
    rw [openInner, if_pos rfl, openKeyed]
    refine answered.bind (Goes.get.bind ?_)
    rw [if_pos (by rw [db₁, there]; rfl)]
    exact checked.bind (check₁ ▸ rest)
  by_cases unclaimed : s.check = none ∧ s.slot.isSome
  · left
    have old : madeNow = false := by
      rcases how with ⟨-, old⟩ | ⟨slot, -⟩
      · exact old
      · rw [slot] at unclaimed
        cases unclaimed.2
    have inner : Goes (openInner .keyed kind) s (.other .damaged) s₁ := by
      apply reaches
      refine closed_to.bind ?_
      rw [if_neg (by decide), if_neg (by simp [unclaimed.1, old])]
      exact Goes.pure
    exact ⟨unclaimed.1, unclaimed.2, s₁, openAs_goes closed (inner.bind Goes.pure)⟩
  · right
    obtain ⟨s₂, removed, db₂, -⟩ := removeAll_goes s₁
    obtain ⟨s₃, created, current, -⟩ := create_goes kind db₂ k
    have proof : (s.check.isSome ∧ s.check ≠ some k) ∨ (s.check = none ∧ madeNow) := by
      cases check : s.check with
      | some other_key => exact Or.inl ⟨rfl, check ▸ unlike⟩
      | none =>
          rcases how with ⟨slot, -⟩ | ⟨-, -, new⟩
          · exact absurd ⟨check, by rw [slot]; rfl⟩ unclaimed
          · exact Or.inr ⟨rfl, new⟩
    have inner : Goes (openInner .keyed kind) s (.ready (some .keyMissing)) s₃ := by
      apply reaches
      refine closed_to.bind ?_
      rw [if_neg (by decide), if_pos proof]
      exact removed.bind (created.bind Goes.pure)
    obtain ⟨s₄, opens, done⟩ := openReserved_current inner current
    exact ⟨unclaimed, some .keyMissing, s₄, openAs_goes closed opens, done⟩

end Store

end Brook.Stores
