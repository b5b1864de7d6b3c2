import Mathlib.Data.List.Basic
import Mathlib.Data.List.Nodup

namespace Brook

universe u v

/-- A table with a primary key: at most one row for each key. -/
structure Table (Key : Type u) (Row : Type v) where
  rows : List (Key × Row)
  keysNodup : (rows.map Prod.fst).Nodup
deriving DecidableEq

namespace Table

variable {Key : Type u} {Row : Type v}

def empty : Table Key Row := ⟨[], List.nodup_nil⟩

instance : EmptyCollection (Table Key Row) := ⟨empty⟩

instance : Inhabited (Table Key Row) := ⟨empty⟩

/-- The rows' values, without their keys. -/
def values (table : Table Key Row) : List Row := table.rows.map Prod.snd

/-- `DELETE` of the rows that fail the test. -/
def filter (keep : Key → Row → Bool) (table : Table Key Row) :
    Table Key Row where
  rows := table.rows.filter fun entry => keep entry.1 entry.2
  keysNodup :=
    (List.filter_sublist.map Prod.fst).nodup table.keysNodup

/-- `UPDATE` of every row; the keys stay. -/
def mapRows (update : Key → Row → Row) (table : Table Key Row) :
    Table Key Row where
  rows := table.rows.map fun entry => (entry.1, update entry.1 entry.2)
  keysNodup := by
    have keys : (table.rows.map fun entry =>
        (entry.1, update entry.1 entry.2)).map Prod.fst =
        table.rows.map Prod.fst := by
      simp [Function.comp_def]
    rw [keys]
    exact table.keysNodup

variable [DecidableEq Key]

def get? (table : Table Key Row) (key : Key) : Option Row :=
  (table.rows.find? fun entry => entry.1 = key).map Prod.snd

def contains (table : Table Key Row) (key : Key) : Bool :=
  (table.get? key).isSome

/-- Insert the row, or replace the one stored under its key. -/
def put (table : Table Key Row) (key : Key) (row : Row) : Table Key Row where
  rows := (key, row) :: table.rows.filter fun entry => entry.1 ≠ key
  keysNodup := by
    simp only [List.map_cons, List.nodup_cons]
    constructor
    · simp
    · exact (List.filter_sublist.map Prod.fst).nodup table.keysNodup

theorem mem_rows {table : Table Key Row} {key : Key} {row : Row} :
    (key, row) ∈ table.rows ↔ table.get? key = some row := by
  obtain ⟨rows, keysNodup⟩ := table
  simp only [get?]
  induction rows with
  | nil => simp
  | cons entry rest ih =>
      simp only [List.map_cons, List.nodup_cons, List.mem_map] at keysNodup
      obtain ⟨fresh, restNodup⟩ := keysNodup
      obtain ⟨headKey, headRow⟩ := entry
      by_cases same : headKey = key
      · subst same
        simp only [List.mem_cons, Prod.mk.injEq, true_and, decide_true,
          List.find?_cons_of_pos, Option.map_some, Option.some.injEq]
        constructor
        · rintro (rfl | later)
          · rfl
          · exact (fresh ⟨(headKey, row), later, rfl⟩).elim
        · rintro rfl
          exact Or.inl rfl
      · rw [List.find?_cons_of_neg (by simpa using same), ← ih restNodup]
        simp [Ne.symm same]

theorem mem_values {table : Table Key Row} {row : Row} :
    row ∈ table.values ↔ ∃ key, table.get? key = some row := by
  simp only [values, List.mem_map, Prod.exists, exists_eq_right, mem_rows]

@[simp] theorem get?_empty (key : Key) :
    (∅ : Table Key Row).get? key = none := rfl

@[simp] theorem get?_filter (table : Table Key Row)
    (keep : Key → Row → Bool) (key : Key) :
    (table.filter keep).get? key = (table.get? key).filter (keep key) := by
  ext row
  rw [← mem_rows, Option.filter_eq_some_iff, ← mem_rows]
  simp [filter]

theorem get?_filter_kept (table : Table Key Row) {keep : Key → Row → Bool}
    {key : Key} (kept : ∀ row, keep key row = true) :
    (table.filter keep).get? key = table.get? key := by
  rw [get?_filter]
  ext row
  simp [kept]

@[simp] theorem get?_mapRows (table : Table Key Row)
    (update : Key → Row → Row) (key : Key) :
    (table.mapRows update).get? key = (table.get? key).map (update key) := by
  ext row
  rw [← mem_rows, Option.map_eq_some_iff]
  simp only [mapRows, List.mem_map, Prod.mk.injEq, Prod.exists, ← mem_rows]
  constructor
  · rintro ⟨_, old, stored, rfl, rfl⟩
    exact ⟨old, stored, rfl⟩
  · rintro ⟨old, stored, rfl⟩
    exact ⟨key, old, stored, rfl, rfl⟩

@[simp] theorem get?_put_self (table : Table Key Row) (key : Key)
    (row : Row) : (table.put key row).get? key = some row := by
  rw [← mem_rows]
  simp [put]

theorem get?_put_ne (table : Table Key Row) {key other : Key}
    (row : Row) (different : other ≠ key) :
    (table.put key row).get? other = table.get? other := by
  ext stored
  rw [← mem_rows, ← mem_rows]
  simp [put, different]

theorem get?_put (table : Table Key Row) (key other : Key) (row : Row) :
    (table.put key row).get? other =
      if other = key then some row else table.get? other := by
  by_cases same : other = key
  · subst same
    simp
  · simp [same, get?_put_ne]

theorem filter_ne_of_absent {table : Table Key Row} {key : Key}
    (absent : table.get? key = none) :
    (table.filter fun other _ => decide (other ≠ key)) = table := by
  obtain ⟨rows, keysNodup⟩ := table
  simp only [filter, mk.injEq, List.filter_eq_self, decide_eq_true_eq]
  rintro ⟨other, row⟩ mem rfl
  have found : (⟨rows, keysNodup⟩ : Table Key Row).get? other = some row := mem_rows.mp mem
  rw [absent] at found
  cases found

theorem values_put_of_absent {table : Table Key Row} {key : Key} (row : Row)
    (absent : table.get? key = none) : (table.put key row).values = row :: table.values := by
  have same := congrArg rows (filter_ne_of_absent absent)
  simp only [filter] at same
  simp only [values, put, List.map_cons, same]

/-- A stored row beside the others. -/
theorem values_perm {table : Table Key Row} {key : Key} {row : Row}
    (stored : table.get? key = some row) :
    table.values.Perm (row :: (table.filter fun other _ => decide (other ≠ key)).values) := by
  have mem := mem_rows.mpr stored
  obtain ⟨rows, keysNodup⟩ := table
  obtain ⟨front, back, rfl⟩ := List.append_of_mem mem
  simp only [List.map_append, List.map_cons, List.nodup_append, List.nodup_cons,
    List.mem_map, List.mem_cons] at keysNodup
  have others : ∀ entry ∈ front ++ back, entry.1 ≠ key := by
    intro entry inside same
    rcases List.mem_append.mp inside with before | after
    · exact keysNodup.2.2 entry.1 ⟨entry, before, rfl⟩ key (.inl rfl) same
    · exact keysNodup.2.1.1 ⟨entry, after, same⟩
  have kept : (front ++ (key, row) :: back).filter (fun entry => decide (entry.1 ≠ key)) =
      front ++ back := by
    rw [List.filter_append, List.filter_cons_of_neg (by simp), ← List.filter_append,
      List.filter_eq_self]
    simpa using others
  simp only [values, filter, kept, List.map_append, List.map_cons]
  exact List.perm_middle
theorem contains_iff {table : Table Key Row} {key : Key} :
    table.contains key = true ↔ ∃ row, table.get? key = some row := by
  simp [contains, Option.isSome_iff_exists]

/-- Unconditional writes of a list of rows, in its order. -/
def putAll (table : Table Key Row) (entries : List (Key × Row)) :
    Table Key Row :=
  entries.foldl (fun table entry => table.put entry.1 entry.2) table

theorem putAll_cases (table : Table Key Row) (entries : List (Key × Row))
    (key : Key) :
    ((∀ row, (key, row) ∉ entries) ∧
        (table.putAll entries).get? key = table.get? key) ∨
      ∃ row, (key, row) ∈ entries ∧
        (table.putAll entries).get? key = some row := by
  induction entries generalizing table with
  | nil => exact Or.inl ⟨by simp, rfl⟩
  | cons entry rest ih =>
      rcases ih (table.put entry.1 entry.2) with
        ⟨absent, kept⟩ | ⟨row, member, found⟩
      · by_cases same : key = entry.1
        · subst same
          exact Or.inr ⟨entry.2, List.mem_cons_self, kept.trans (by simp)⟩
        · refine Or.inl ⟨?_, kept.trans (get?_put_ne table entry.2 same)⟩
          intro row member
          rcases List.mem_cons.mp member with rfl | later
          · exact same rfl
          · exact absent row later
      · exact Or.inr ⟨row, List.mem_cons_of_mem _ member, found⟩

end Table

end Brook
