import Brook.Snapshot.Sealer

namespace Brook.Snapshot.Sealer

open Aead

universe u

variable {Key : Type u}

/-! The chunks that a push seals, with what is in them. -/

variable {cipher : Cipher Key} {s : Sealer Key} {bytes : Bytes}

theorem push_setting (cipher : Cipher Key) (s : Sealer Key) (bytes : Bytes) :
    (push cipher s bytes).2.setting = s.setting := by
  fun_induction push cipher s bytes with
  | case1 => rfl
  | case2 => rfl
  | case3 s bytes some_byte open_chunk want buf rest full sealed later =>
      rename_i ih
      exact ih
  | case4 s bytes some_byte open_chunk want buf rest partial_chunk =>
      rename_i ih
      exact ih

/-- The chunks come in order, from the next one on. -/
theorem completed_bounds (cipher : Cipher Key) (s : Sealer Key) (bytes : Bytes) :
    s.index ≤ (push cipher s bytes).2.index ∧
      (∀ chunk ∈ completed s bytes,
        s.index ≤ chunk.1 ∧ chunk.1 < (push cipher s bytes).2.index) ∧
      (completed s bytes).Pairwise (·.1 < ·.1) := by
  fun_induction push cipher s bytes with
  | case1 s =>
      rw [completed, if_pos rfl]
      simp
  | case2 s bytes some_byte past =>
      rw [completed, if_neg some_byte, dif_pos past]
      simp
  | case3 s bytes some_byte open_chunk want buf rest full sealed later =>
      rename_i ih
      obtain ⟨grown, inside, ordered⟩ := ih
      rw [completed, if_neg some_byte, dif_neg open_chunk]
      simp only [want, buf] at full
      simp only [dif_pos full, List.mem_cons, List.pairwise_cons]
      refine ⟨Nat.le_of_succ_le grown, ?_, ?_, ordered⟩
      · rintro chunk (rfl | mem)
        · exact ⟨Nat.le_refl _, grown⟩
        · obtain ⟨low, high⟩ := inside chunk mem
          exact ⟨Nat.le_of_succ_le low, high⟩
      · intro chunk mem
        exact (inside chunk mem).1
  | case4 s bytes some_byte open_chunk want buf rest partial_chunk =>
      rename_i ih
      rw [completed, if_neg some_byte, dif_neg open_chunk]
      simp only [want, buf] at partial_chunk
      simp only [dif_neg partial_chunk]
      exact ih

/-- When what was taken are the first bytes of a file, the chunks are its pieces. -/
theorem completed_holds (s : Sealer Key) (bytes : Bytes) {data : Bytes} (holds : s.Holds data)
    (fits : data.length + bytes.length ≤ s.setting.layout.size) :
    ∀ chunk ∈ completed s bytes,
      chunk.2 = s.setting.piece (data ++ bytes) chunk.1 := by
  fun_induction completed s bytes generalizing data with
  | case1 s => exact fun _ mem => nomatch mem
  | case2 s bytes some_byte past => exact fun _ mem => nomatch mem
  | case3 s bytes some_byte open_chunk want buf rest full =>
      rename_i ih
      have there : s.index < s.setting.layout.chunks := Nat.lt_of_not_le open_chunk
      obtain ⟨piece, next⟩ := holds.full there full
      have split : data ++ bytes = data ++ bytes.take (min want bytes.length) ++ rest := by
        rw [List.append_assoc, List.take_append_drop]
      intro chunk mem
      rcases List.mem_cons.mp mem with rfl | mem
      · have whole : (s.index + 1) * s.setting.layout.chunk ≤
            (data ++ bytes.take (min want bytes.length)).length ∨
            rest = [] := by
          have taken : min ((s.index + 1) * s.setting.layout.chunk) s.setting.layout.size ≤
              (data ++ bytes.take (min want bytes.length)).length := next.taken
          have length := congrArg List.length split
          rw [List.length_append, @List.length_append _ _ rest] at length
          rw [← List.length_eq_zero_iff]
          omega
        rw [split]
        rcases whole with whole | none_left
        · rw [Setting.piece_append whole, piece]
        · rw [none_left, List.append_nil, piece]
      · rw [split]
        refine ih next ?_ chunk mem
        rw [← List.length_append, ← split, List.length_append]
        exact fits
  | case4 s bytes some_byte open_chunk want buf rest partial_chunk =>
      have there : s.index < s.setting.layout.chunks := Nat.lt_of_not_le open_chunk
      have room := s.room there
      have whole : bytes.length ≤ min want bytes.length := by
        simp only [buf, List.length_append, List.length_take] at partial_chunk
        omega
      have none_left : rest = [] := List.drop_eq_nil_of_le whole
      intro chunk mem
      rw [none_left, completed, if_pos rfl] at mem
      cases mem

/-- How far a sealer is that holds the first bytes of a file. -/
theorem Holds.resume {data : Bytes} (holds : s.Holds data) :
    min (s.index * s.setting.layout.chunk + s.buf.length) s.setting.layout.size =
      data.length := by
  have taken := holds.taken
  have short := holds.short
  rw [holds.buffered, List.length_drop]
  omega

section Own

variable {file : Bytes} {n : Nat}

/-- A piece that lies within the first bytes is a piece of the file. -/
theorem piece_take {set : Setting Key} {i next : Nat} (whole : file.length = set.layout.size)
    (inside : min (next * set.layout.chunk) set.layout.size ≤ n) (before : i < next) :
    set.piece (file.take n) i = set.piece file i := by
  have ends := Nat.mul_le_mul_right set.layout.chunk before
  rw [Nat.succ_mul] at ends
  rw [Setting.piece, Setting.piece, List.drop_take, List.take_take]
  by_cases short : set.layout.chunk ≤ n - i * set.layout.chunk
  · rw [Nat.min_eq_left short]
  · have length : (file.drop (i * set.layout.chunk)).length ≤ n - i * set.layout.chunk := by
      rw [List.length_drop, whole]
      omega
    rw [List.take_of_length_le (by omega), List.take_of_length_le (by omega)]

/-- A sealer that goes on with the file's own bytes seals the file's pieces. -/
theorem completed_own (cipher : Cipher Key) (whole : file.length = s.setting.layout.size)
    (holds : s.Holds (file.take n)) (own : bytes <+: file.drop n)
    (fits : n + bytes.length ≤ s.setting.layout.size) :
    (∀ chunk ∈ completed s bytes, chunk.2 = s.setting.piece file chunk.1) ∧
      (push cipher s bytes).2.Holds (file.take (n + bytes.length)) := by
  have grown : file.take n ++ bytes = file.take (n + bytes.length) := by
    rw [List.take_add, ← List.prefix_iff_eq_take.mp own]
  have room : (file.take n).length + bytes.length ≤ s.setting.layout.size := by
    rw [← List.length_append, grown, List.length_take, whole]
    exact Nat.min_le_right _ _
  obtain ⟨-, -, same, after, -⟩ := push_holds cipher s bytes holds room
  rw [grown] at after
  refine ⟨?_, after⟩
  intro chunk mem
  have inside := after.taken
  rw [same, List.length_take, whole, Nat.min_eq_left fits] at inside
  rw [completed_holds s bytes holds room chunk mem, grown]
  exact piece_take whole inside ((completed_bounds cipher s bytes).2.1 chunk mem).2

end Own

end Brook.Snapshot.Sealer
