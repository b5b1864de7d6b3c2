import Brook.Table.Basic
import Mathlib.Order.Defs.PartialOrder

namespace Brook

universe u v w

/-- What an upsert does with a key that is stored already:
`ON CONFLICT DO UPDATE SET ... WHERE wins`. -/
structure ConflictClause (Row : Type v) where
  wins : (new old : Row) → Bool
  merged : (new old : Row) → Row

/-- The clause never lowers `version` and never keeps a lower one. -/
structure ConflictClause.Guards {Row : Type v} {Version : Type w}
    [Preorder Version] (clause : ConflictClause Row)
    (version : Row → Version) : Prop where
  le_of_wins : ∀ {new old}, clause.wins new old = true →
    version old ≤ version new
  le_of_loses : ∀ {new old}, clause.wins new old = false →
    version new ≤ version old
  merged : ∀ {new old}, version (clause.merged new old) = version new

namespace Table

variable {Key : Type u} {Row : Type v} {Version : Type w}
variable [DecidableEq Key] [Preorder Version]

/-! Tables filled by several unordered sources: the conflict clause decides
which row stays, and the clause follows a version. -/

def upsert (clause : ConflictClause Row) (table : Table Key Row)
    (key : Key) (row : Row) : Table Key Row :=
  match table.get? key with
  | none => table.put key row
  | some old =>
      if clause.wins row old then
        table.put key (clause.merged row old)
      else
        table

def upserts (clause : ConflictClause Row) (table : Table Key Row)
    (key : Key) (row : Row) : Bool :=
  (table.get? key).all (clause.wins row)

theorem get?_upsert_ne (clause : ConflictClause Row)
    (table : Table Key Row) {key other : Key} (row : Row)
    (different : other ≠ key) :
    (table.upsert clause key row).get? other = table.get? other := by
  unfold upsert
  split
  · exact get?_put_ne table row different
  · split
    · exact get?_put_ne table _ different
    · rfl

theorem get?_upsert_self (clause : ConflictClause Row)
    (table : Table Key Row) (key : Key) (row : Row) :
    (table.upsert clause key row).get? key =
      some (match table.get? key with
        | none => row
        | some old => if clause.wins row old then clause.merged row old
            else old) := by
  unfold upsert
  cases stored : table.get? key with
  | none => simp
  | some old =>
      cases wins : clause.wins row old with
      | true => simp [wins]
      | false => simpa [wins] using stored

theorem upsert_of_not_upserts {clause : ConflictClause Row}
    {table : Table Key Row} {key : Key} {row : Row}
    (loses : table.upserts clause key row = false) :
    table.upsert clause key row = table := by
  unfold upserts at loses
  unfold upsert
  cases stored : table.get? key with
  | none => simp [stored] at loses
  | some old =>
      have losing : clause.wins row old = false := by
        simpa [stored] using loses
      simp [losing]

/-- Where the row stored after one upsert comes from. -/
theorem upsert_origin {clause : ConflictClause Row}
    {table : Table Key Row} {key other : Key} {row kept : Row}
    (stored : (table.upsert clause key row).get? other = some kept) :
    table.get? other = some kept ∨
      (other = key ∧ (kept = row ∨
        ∃ old, table.get? key = some old ∧ kept = clause.merged row old)) := by
  by_cases same : other = key
  · subst same
    rw [get?_upsert_self, Option.some.injEq] at stored
    cases before : table.get? other with
    | none =>
        simp only [before] at stored
        exact Or.inr ⟨rfl, Or.inl stored.symm⟩
    | some old =>
        simp only [before] at stored
        split at stored
        · exact Or.inr ⟨rfl, Or.inr ⟨old, rfl, stored.symm⟩⟩
        · exact Or.inl (congrArg some stored)
  · rw [get?_upsert_ne clause table row same] at stored
    exact Or.inl stored

/-- No upsert lowers the version stored under a key. -/
theorem upsert_ge_old {clause : ConflictClause Row}
    {version : Row → Version} (guards : clause.Guards version)
    {table : Table Key Row} (key : Key) {other : Key} (row : Row) {old : Row}
    (stored : table.get? other = some old) :
    ∃ kept, (table.upsert clause key row).get? other = some kept ∧
      version old ≤ version kept := by
  by_cases same : other = key
  · subst same
    rw [get?_upsert_self, stored]
    cases wins : clause.wins row old with
    | true =>
        exact ⟨clause.merged row old, by simp [wins],
          le_trans (guards.le_of_wins wins) (le_of_eq guards.merged.symm)⟩
    | false => exact ⟨old, by simp [wins], le_rfl⟩
  · exact ⟨old, by rw [get?_upsert_ne clause table row same, stored], le_rfl⟩

/-- After an upsert its key stores at least the new version. -/
theorem upsert_ge_new {clause : ConflictClause Row}
    {version : Row → Version} (guards : clause.Guards version)
    (table : Table Key Row) (key : Key) (row : Row) :
    ∃ kept, (table.upsert clause key row).get? key = some kept ∧
      version row ≤ version kept := by
  rw [get?_upsert_self]
  cases table.get? key with
  | none => exact ⟨row, rfl, le_rfl⟩
  | some old =>
      cases wins : clause.wins row old with
      | true =>
          exact ⟨clause.merged row old, by simp [wins],
            le_of_eq guards.merged.symm⟩
      | false => exact ⟨old, by simp [wins], guards.le_of_loses wins⟩

/-- Upserts of a list of rows, in its order. -/
def upsertAll (clause : ConflictClause Row) (table : Table Key Row)
    (entries : List (Key × Row)) : Table Key Row :=
  entries.foldl (fun table entry => table.upsert clause entry.1 entry.2) table

section

variable {clause : ConflictClause Row} {version : Row → Version}

@[simp] theorem upsertAll_cons (table : Table Key Row)
    (entry : Key × Row) (rest : List (Key × Row)) :
    table.upsertAll clause (entry :: rest) =
      (table.upsert clause entry.1 entry.2).upsertAll clause rest := rfl

theorem upsertAll_ge_old (guards : clause.Guards version)
    {table : Table Key Row} (entries : List (Key × Row)) {key : Key}
    {old : Row} (stored : table.get? key = some old) :
    ∃ kept, (table.upsertAll clause entries).get? key = some kept ∧
      version old ≤ version kept := by
  induction entries generalizing table old with
  | nil => exact ⟨old, stored, le_rfl⟩
  | cons entry rest ih =>
      obtain ⟨middle, found, below⟩ :=
        upsert_ge_old guards entry.1 entry.2 stored
      obtain ⟨kept, final, above⟩ := ih found
      exact ⟨kept, final, le_trans below above⟩

theorem get?_upsertAll_of_not_mem {table : Table Key Row}
    {entries : List (Key × Row)} {key : Key}
    (absent : ∀ row, (key, row) ∉ entries) :
    (table.upsertAll clause entries).get? key = table.get? key := by
  induction entries generalizing table with
  | nil => rfl
  | cons entry rest ih =>
      rw [upsertAll_cons, ih fun row member =>
        absent row (List.mem_cons_of_mem _ member)]
      refine get?_upsert_ne clause table entry.2 ?_
      intro same
      exact absent entry.2 (same ▸ List.mem_cons_self)

/-- Every key of the list ends with at least the version it brought. -/
theorem upsertAll_ge_new (guards : clause.Guards version)
    {table : Table Key Row} {entries : List (Key × Row)} {key : Key}
    {row : Row} (member : (key, row) ∈ entries) :
    ∃ kept, (table.upsertAll clause entries).get? key = some kept ∧
      version row ≤ version kept := by
  induction entries generalizing table with
  | nil => simp at member
  | cons entry rest ih =>
      rw [upsertAll_cons]
      rcases List.mem_cons.mp member with rfl | later
      · obtain ⟨middle, found, above⟩ := upsert_ge_new guards table key row
        obtain ⟨kept, final, higher⟩ := upsertAll_ge_old guards rest found
        exact ⟨kept, final, le_trans above higher⟩
      · exact ih later

/-- A property of stored rows that upserts of the list keep. -/
theorem upsertAll_induction (good : Row → Prop) {key : Key}
    {table : Table Key Row} {entries : List (Key × Row)}
    (old : ∀ {row}, table.get? key = some row → good row)
    (new : ∀ {row}, (key, row) ∈ entries → good row)
    (merge : ∀ {row stored}, (key, row) ∈ entries → good stored →
      good (clause.merged row stored))
    {kept : Row}
    (found : (table.upsertAll clause entries).get? key = some kept) :
    good kept := by
  induction entries generalizing table with
  | nil => exact old found
  | cons entry rest ih =>
      refine ih ?_ (fun member => new (List.mem_cons_of_mem _ member))
        (fun member => merge (List.mem_cons_of_mem _ member)) found
      intro row stored
      rcases upsert_origin stored with before | ⟨rfl, rfl | ⟨_, before, rfl⟩⟩
      · exact old before
      · exact new List.mem_cons_self
      · exact merge List.mem_cons_self (old before)

end

/-! A projection of the rows that the clause does not look behind. -/

theorem mapRows_put (update : Key → Row → Row) (table : Table Key Row)
    (key : Key) (row : Row) :
    (table.put key row).mapRows update =
      (table.mapRows update).put key (update key row) := by
  simp [put, mapRows, List.filter_map, Function.comp_def]

theorem mapRows_upsert (clause : ConflictClause Row) (project : Row → Row)
    (wins : ∀ new old,
      clause.wins (project new) (project old) = clause.wins new old)
    (merged : ∀ new old, clause.merged (project new) (project old) =
      project (clause.merged new old))
    (table : Table Key Row) (key : Key) (row : Row) :
    (table.upsert clause key row).mapRows (fun _ => project) =
      (table.mapRows fun _ => project).upsert clause key (project row) := by
  unfold upsert
  rw [get?_mapRows]
  cases table.get? key with
  | none => simp [mapRows_put]
  | some old =>
      simp only [Option.map_some, wins, merged]
      split
      · exact mapRows_put _ _ _ _
      · rfl

end Table

end Brook
