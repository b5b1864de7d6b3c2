import Brook.Table.Basic
import Mathlib.Data.List.Sort

namespace Brook.Table

universe u v

variable {Key : Type u} {Row : Type v} [LinearOrder Key]

/-! Rows that name their own key, as a list in the order of their keys. -/

/-- The rows under the keys they name; of two with one key, the later. -/
def indexed (key : Row → Key) (rows : List Row) : Table Key Row :=
  (∅ : Table Key Row).putAll (rows.map fun row => (key row, row))

/-- Every row is stored under the key that it names. -/
def Keyed (key : Row → Key) (table : Table Key Row) : Prop :=
  ∀ {stored row}, table.get? stored = some row → key row = stored

def sortedValues (key : Row → Key) (table : Table Key Row) : List Row :=
  table.values.insertionSort fun first second => key first ≤ key second

/-- The rows are in the order of their keys, with one row for each key. -/
def Sorted (key : Row → Key) (rows : List Row) : Prop :=
  rows.Pairwise fun first second => key first < key second

variable {key : Row → Key}

theorem Sorted.inj {rows : List Row} (sorted : Sorted key rows) {first second : Row}
    (here : first ∈ rows) (there : second ∈ rows) (same : key first = key second) :
    first = second := by
  have keysNodup : (rows.map key).Nodup :=
    List.pairwise_map.mpr (sorted.imp fun lower => lower.ne)
  exact List.inj_on_of_nodup_map keysNodup here there same

theorem get?_indexed {rows : List Row} (sorted : Sorted key rows) {stored : Key} {row : Row} :
    (indexed key rows).get? stored = some row ↔ row ∈ rows ∧ key row = stored := by
  have entry : ∀ {other : Row}, (stored, other) ∈ rows.map (fun row => (key row, row)) ↔
      other ∈ rows ∧ key other = stored := by
    intro other
    rw [List.mem_map]
    constructor
    · rintro ⟨found, member, same⟩
      cases same
      exact ⟨member, rfl⟩
    · rintro ⟨member, rfl⟩
      exact ⟨other, member, rfl⟩
  rcases putAll_cases ∅ (rows.map fun row => (key row, row)) stored with
    ⟨absent, kept⟩ | ⟨last, member, found⟩
  · rw [indexed, kept, get?_empty]
    constructor
    · intro none_is_some
      cases none_is_some
    · intro member
      exact (absent row (entry.mpr member)).elim
  · rw [indexed, found, Option.some.injEq]
    obtain ⟨last_member, last_key⟩ := entry.mp member
    constructor
    · rintro rfl
      exact ⟨last_member, last_key⟩
    · rintro ⟨row_member, row_key⟩
      exact sorted.inj last_member row_member (last_key.trans row_key.symm)

theorem keyed_indexed {rows : List Row} (sorted : Sorted key rows) :
    (indexed key rows).Keyed key := fun found => ((get?_indexed sorted).mp found).2

theorem Keyed.put {table : Table Key Row} (keyed : table.Keyed key) (row : Row) :
    (table.put (key row) row).Keyed key := by
  intro stored found_row found
  rw [get?_put] at found
  split at found
  case isTrue same =>
    cases found
    exact same.symm
  case isFalse => exact keyed found

theorem mem_sortedValues {table : Table Key Row} (keyed : table.Keyed key) {row : Row} :
    row ∈ table.sortedValues key ↔ table.get? (key row) = some row := by
  rw [sortedValues, List.mem_insertionSort, mem_values]
  constructor
  · rintro ⟨stored, found⟩
    rwa [keyed found]
  · intro found
    exact ⟨key row, found⟩

theorem sorted_sortedValues {table : Table Key Row} (keyed : table.Keyed key) :
    Sorted key (table.sortedValues key) := by
  have apart : table.values.Pairwise fun first second => key first ≠ key second := by
    rw [values, List.pairwise_map]
    have keys := table.keysNodup
    rw [List.Nodup, List.pairwise_map] at keys
    refine List.Pairwise.imp_of_mem ?_ keys
    intro first second here there different same
    rw [keyed (mem_rows.mp here), keyed (mem_rows.mp there)] at same
    exact different same
  have total : Std.Total fun first second : Row => key first ≤ key second :=
    ⟨fun first second => le_total (key first) (key second)⟩
  have transitive : IsTrans Row fun first second => key first ≤ key second :=
    ⟨fun _ _ _ one two => le_trans one two⟩
  have ordered := List.pairwise_insertionSort
    (fun first second : Row => key first ≤ key second) table.values
  have still_apart := (List.perm_insertionSort
    (fun first second : Row => key first ≤ key second) table.values).symm.pairwise apart
    (fun ne => ne.symm)
  refine (ordered.and still_apart).imp ?_
  intro first second both
  exact lt_of_le_of_ne both.1 both.2

theorem get?_indexed_sortedValues {table : Table Key Row} (keyed : table.Keyed key)
    (stored : Key) :
    (indexed key (table.sortedValues key)).get? stored = table.get? stored := by
  ext row
  rw [get?_indexed (sorted_sortedValues keyed), mem_sortedValues keyed]
  constructor
  · rintro ⟨found, rfl⟩
    exact found
  · intro found
    have named := keyed found
    exact ⟨named.symm ▸ found, named⟩

theorem Sorted.map {rows : List Row} (sorted : Sorted key rows) {change : Row → Row}
    (same : ∀ row, key (change row) = key row) : Sorted key (rows.map change) := by
  rw [Sorted, List.pairwise_map]
  refine sorted.imp ?_
  intro first second lower
  rwa [same, same]

theorem get?_indexed_map {rows : List Row} (sorted : Sorted key rows) (change : Row → Row)
    (same : ∀ row, key (change row) = key row) (stored : Key) :
    (indexed key (rows.map change)).get? stored =
      ((indexed key rows).get? stored).map change := by
  ext row
  rw [get?_indexed (sorted.map same), Option.map_eq_some_iff, List.mem_map]
  constructor
  · rintro ⟨⟨old, member, rfl⟩, named⟩
    exact ⟨old, (get?_indexed sorted).mpr ⟨member, (same old).symm.trans named⟩, rfl⟩
  · rintro ⟨old, found, rfl⟩
    obtain ⟨member, named⟩ := (get?_indexed sorted).mp found
    exact ⟨⟨old, member, rfl⟩, (same old).trans named⟩

/-- The first row with a key is the only one. -/
theorem Sorted.modify_findIdx? {rows : List Row} (sorted : Sorted key rows) {named : Key}
    {change : Row → Row} {place : Nat} (found : rows.findIdx? (key · = named) = some place) :
    rows.modify place change =
      rows.map fun row => if key row = named then change row else row := by
  induction rows generalizing place with
  | nil => cases found
  | cons row rest ih =>
      obtain ⟨above, sortedRest⟩ := List.pairwise_cons.mp sorted
      rw [List.findIdx?_cons] at found
      by_cases here : key row = named
      · simp only [here, decide_true, if_true, Option.some.injEq] at found
        subst found
        rw [List.modify_zero_cons, List.map_cons, if_pos here]
        congr 1
        conv_lhs => rw [← List.map_id rest]
        refine List.map_congr_left ?_
        intro later member
        have higher := above later member
        rw [here] at higher
        rw [if_neg higher.ne', id]
      · simp only [here, decide_false, Bool.false_eq_true, if_false, Option.map_eq_some_iff]
          at found
        obtain ⟨before, found, rfl⟩ := found
        rw [List.modify_succ_cons, List.map_cons, if_neg here, ih sortedRest found]

theorem map_of_findIdx?_none {rows : List Row} {named : Key} (change : Row → Row)
    (absent : rows.findIdx? (key · = named) = none) :
    (rows.map fun row => if key row = named then change row else row) = rows := by
  rw [List.findIdx?_eq_none_iff] at absent
  conv_rhs => rw [← List.map_id rows]
  refine List.map_congr_left ?_
  intro row member
  have different := absent row member
  rw [decide_eq_false_iff_not] at different
  rw [if_neg different, id]

end Brook.Table
