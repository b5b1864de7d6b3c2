import Brook.Table.Basic
import Mathlib.Data.List.Sort

namespace Brook

universe u v

namespace Table

variable {Key : Type u} {Row : Type v} [LinearOrder Key]

/-! Pages of a keyed list: the first entries in descending order of keys. -/

def newest (entries : List (Key × Row)) (limit : Nat) : List (Key × Row) :=
  (entries.insertionSort fun first second => second.1 ≤ first.1).take limit

variable {entries : List (Key × Row)} {limit : Nat}

theorem mem_of_mem_newest {entry : Key × Row}
    (member : entry ∈ newest entries limit) : entry ∈ entries := by
  have sorted := List.mem_of_mem_take member
  simpa using sorted

/-- A page reaches down to its last key: what it leaves out lies below. -/
theorem mem_newest_of_reached
    (keysNodup : (entries.map Prod.fst).Nodup) {entry : Key × Row}
    (member : entry ∈ entries)
    (reached : (newest entries limit).length < limit ∨
      ∃ last ∈ newest entries limit, last.1 ≤ entry.1) :
    entry ∈ newest entries limit := by
  have total : Std.Total fun first second : Key × Row =>
      second.1 ≤ first.1 := ⟨fun first second => le_total second.1 first.1⟩
  have transitive : IsTrans (Key × Row) fun first second =>
      second.1 ≤ first.1 := ⟨fun _ _ _ one two => le_trans two one⟩
  have sorted := List.pairwise_insertionSort
    (fun first second : Key × Row => second.1 ≤ first.1) entries
  have same := List.perm_insertionSort
    (fun first second : Key × Row => second.1 ≤ first.1) entries
  unfold newest at reached ⊢
  generalize entries.insertionSort (fun first second : Key × Row =>
    second.1 ≤ first.1) = ordered at sorted same reached ⊢
  by_contra absent
  have split := List.take_append_drop limit ordered
  have below : entry ∈ ordered.drop limit := by
    have placed := same.mem_iff.mpr member
    rw [← split, List.mem_append] at placed
    exact placed.resolve_left absent
  -- The page is full, so it was reached by its last key.
  have full : (ordered.take limit).length = limit := by
    have nonempty := List.length_pos_of_mem below
    rw [List.length_drop] at nonempty
    rw [List.length_take]
    omega
  obtain short | ⟨last, inside, under⟩ := reached
  · omega
  · rw [← split, List.pairwise_append] at sorted
    have above := sorted.2.2 last inside entry below
    have known := same.mem_iff.mp (List.mem_of_mem_take inside)
    have equality := List.inj_on_of_nodup_map keysNodup known member
      (le_antisymm under above)
    rw [equality] at inside
    exact absent inside

end Table

end Brook
