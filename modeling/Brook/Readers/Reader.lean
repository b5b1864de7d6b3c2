import Brook.Aead.Sealed

namespace Brook.Readers

open Aead

/-! A source of bytes that answers each read with as much as it likes.  The number
granted to a read is its own; zero means that nothing is there yet. -/

structure Reader where
  rest : Bytes
  grants : Nat → Nat
  polls : Nat
  waits : Nat

namespace Reader

/-- A source that has answered nothing so far. -/
def fresh (bytes : Bytes) (grants : Nat → Nat) : Reader := ⟨bytes, grants, 0, 0⟩

/-- A read that can be told to come back later. -/
def poll (r : Reader) (room : Nat) : Option Bytes × Reader :=
  if r.grants r.polls = 0 then
    (none, { r with polls := r.polls + 1, waits := r.waits + 1 })
  else
    (some (r.rest.take (min (r.grants r.polls) room)),
      { r with
        rest := r.rest.drop (min (r.grants r.polls) room)
        polls := r.polls + 1 })

/-- A read that waits. -/
def read (r : Reader) (room : Nat) : Bytes × Reader :=
  let n := min (max 1 (r.grants r.polls)) room
  (r.rest.take n, { r with rest := r.rest.drop n, polls := r.polls + 1 })

/-- Read until there are as many bytes as wanted or the source ends. -/
def fill (want : Nat) (r : Reader) : Bytes × Reader :=
  if want = 0 then ([], r)
  else
    let got := r.read want
    if got.1 = [] then ([], got.2)
    else
      let more := fill (want - got.1.length) got.2
      (got.1 ++ more.1, more.2)
termination_by want
decreasing_by
  exact Nat.sub_lt (Nat.pos_of_ne_zero ‹_›) (List.length_pos_iff.mpr ‹_›)

/-- However the reads are cut, the bytes come in order. -/
theorem fill_eq (want : Nat) (r : Reader) :
    (fill want r).1 = r.rest.take want ∧ (fill want r).2.rest = r.rest.drop want := by
  fun_induction fill want r with
  | case1 r => exact ⟨rfl, rfl⟩
  | case2 want r some_room got ended =>
      have empty : r.rest = [] := by
        rcases List.take_eq_nil_iff.mp ended with none_granted | empty
        · omega
        · exact empty
      simp only [got, read, empty]
      simp
  | case3 want r some_room got going more ih =>
      have drops : got.2.rest = r.rest.drop got.1.length := by
        simp only [got, read, List.length_take]
        rcases Nat.le_total (min (max 1 (r.grants r.polls)) want) r.rest.length with
          enough | short
        · rw [Nat.min_eq_left enough]
        · rw [Nat.min_eq_right short, List.drop_length, List.drop_eq_nil_of_le short]
      have takes : got.1 = r.rest.take got.1.length := by
        simp only [got, read, List.length_take, List.take_eq_take_iff]
        omega
      have within : got.1.length ≤ want := by
        simp only [got, read, List.length_take]
        omega
      constructor
      · rw [ih.1, drops]
        calc got.1 ++ (r.rest.drop got.1.length).take (want - got.1.length)
            = r.rest.take got.1.length ++
                (r.rest.drop got.1.length).take (want - got.1.length) := by rw [← takes]
          _ = r.rest.take (got.1.length + (want - got.1.length)) := List.take_add.symm
          _ = r.rest.take want := by rw [Nat.add_sub_cancel' within]
      · rw [ih.2, drops, List.drop_drop]
        congr 1
        omega

theorem fill_fst (want : Nat) (r : Reader) : (fill want r).1 = r.rest.take want :=
  (fill_eq want r).1

theorem fill_rest (want : Nat) (r : Reader) :
    (fill want r).2.rest = r.rest.drop want :=
  (fill_eq want r).2

/-- A read that could not answer yet took nothing; another one took what it gives,
which is nothing only at the end. -/
theorem poll_cases (r : Reader) {room : Nat} (some_room : 0 < room) :
    ((r.poll room).1 = none ∧ (r.poll room).2.rest = r.rest ∧
      (r.poll room).2.waits = r.waits + 1) ∨
    ∃ got, (r.poll room).1 = some got ∧ r.rest = got ++ (r.poll room).2.rest ∧
      (r.poll room).2.waits = r.waits ∧ got.length ≤ room ∧ (got = [] → r.rest = []) := by
  unfold poll
  split
  case isTrue => exact Or.inl ⟨rfl, rfl, rfl⟩
  case isFalse granted =>
    right
    refine ⟨_, rfl, (List.take_append_drop _ _).symm, rfl, ?_, ?_⟩
    · rw [List.length_take]
      omega
    · intro none_given
      rcases List.take_eq_nil_iff.mp none_given with none_taken | ended
      · omega
      · exact ended

end Reader

end Brook.Readers
