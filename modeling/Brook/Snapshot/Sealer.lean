import Brook.Snapshot.Format

namespace Brook.Snapshot

open Aead

universe u

variable {Key : Type u}

/-! Sealing a stream of a known size, chunk by chunk as the bytes arrive. -/

/-- `seal_chunk` -/
def sealChunk (cipher : Cipher Key) (key : Key) (id : Id) (index : Nat) (last : Bool)
    (plain : Bytes) : Bytes :=
  cipher.seal ⟨key, nonce index, aad id index last, plain⟩

inductive SealError
  | tooLong

structure Sealer (Key : Type u) where
  setting : Setting Key
  index : Nat
  buf : Bytes
  room : index < setting.layout.chunks → buf.length < setting.layout.plainLen index

namespace Sealer

def new (set : Setting Key) (index : Nat) : Sealer Key :=
  ⟨set, index, [], Layout.plainLen_pos⟩

def push (cipher : Cipher Key) (s : Sealer Key) (bytes : Bytes) :
    Except SealError Bytes × Sealer Key :=
  if bytes = [] then (.ok [], s)
  else if there : s.setting.layout.chunks ≤ s.index then (.error .tooLong, s)
  else
    let want := s.setting.layout.plainLen s.index - s.buf.length
    let buf := s.buf ++ bytes.take (min want bytes.length)
    let rest := bytes.drop (min want bytes.length)
    if full : buf.length = s.setting.layout.plainLen s.index then
      let sealed := sealChunk cipher s.setting.key s.setting.id s.index
        (s.index + 1 = s.setting.layout.chunks) buf
      let later := push cipher ⟨s.setting, s.index + 1, [], Layout.plainLen_pos⟩ rest
      (later.1.map (sealed ++ ·), later.2)
    else
      push cipher
        ⟨s.setting, s.index, buf, fun inside => by
          have := s.room inside
          simp only [buf, List.length_append, List.length_take] at full ⊢
          omega⟩
        rest
termination_by (s.setting.layout.chunks - s.index) + bytes.length
decreasing_by
  · simp only [List.length_drop]
    omega
  · have := s.room (Nat.lt_of_not_le there)
    have := List.length_pos_iff.mpr ‹bytes ≠ []›
    simp only [List.length_drop]
    omega

/-- The places and the plaintexts of the chunks that the bytes complete. -/
def completed (s : Sealer Key) (bytes : Bytes) : List (Nat × Bytes) :=
  if bytes = [] then []
  else if there : s.setting.layout.chunks ≤ s.index then []
  else
    let want := s.setting.layout.plainLen s.index - s.buf.length
    let buf := s.buf ++ bytes.take (min want bytes.length)
    let rest := bytes.drop (min want bytes.length)
    if full : buf.length = s.setting.layout.plainLen s.index then
      (s.index, buf) :: completed ⟨s.setting, s.index + 1, [], Layout.plainLen_pos⟩ rest
    else
      completed
        ⟨s.setting, s.index, buf, fun inside => by
          have := s.room inside
          simp only [buf, List.length_append, List.length_take] at full ⊢
          omega⟩
        rest
termination_by (s.setting.layout.chunks - s.index) + bytes.length
decreasing_by
  · simp only [List.length_drop]
    omega
  · have := s.room (Nat.lt_of_not_le there)
    have := List.length_pos_iff.mpr ‹bytes ≠ []›
    simp only [List.length_drop]
    omega

/-- Whether every chunk is sealed. -/
def isComplete (s : Sealer Key) : Bool := s.index = s.setting.layout.chunks

/-- The bytes of one push after another. -/
def pushes (cipher : Cipher Key) (s : Sealer Key) :
    List Bytes → Except SealError Bytes × Sealer Key
  | [] => (.ok [], s)
  | bytes :: rest =>
      match push cipher s bytes with
      | (.error e, s') => (.error e, s')
      | (.ok out, s') => ((pushes cipher s' rest).1.map (out ++ ·), (pushes cipher s' rest).2)

/-- What the sealer knows when it has taken the first bytes of a file. -/
structure Holds (s : Sealer Key) (data : Bytes) : Prop where
  inside : s.index ≤ s.setting.layout.chunks
  short : data.length ≤ s.setting.layout.size
  taken : min (s.index * s.setting.layout.chunk) s.setting.layout.size ≤ data.length
  buffered : s.buf = data.drop (s.index * s.setting.layout.chunk)

variable {cipher : Cipher Key} {s : Sealer Key} {data : Bytes}

theorem Holds.new {set : Setting Key} {index : Nat} (inside : index ≤ set.layout.chunks)
    (short : data.length ≤ set.layout.size)
    (taken : data.length = min (index * set.layout.chunk) set.layout.size) :
    (Sealer.new set index).Holds data := by
  refine ⟨inside, short, Nat.le_of_eq taken.symm, ?_⟩
  symm
  apply List.drop_eq_nil_of_le
  rw [taken]
  exact Nat.min_le_left _ _

/-- A chunk that is still to come starts within what was taken. -/
theorem Holds.started (holds : s.Holds data) (there : s.index < s.setting.layout.chunks) :
    s.index * s.setting.layout.chunk ≤ data.length := by
  have starts := Layout.lt_chunks.mp there
  have := holds.taken
  omega

/-- Everything is sealed when everything was taken. -/
theorem Holds.complete_iff (holds : s.Holds data) :
    s.isComplete ↔ data.length = s.setting.layout.size := by
  rw [isComplete, decide_eq_true_eq]
  constructor
  · intro complete
    have taken := holds.taken
    rw [complete, Nat.min_eq_right Layout.chunks_covers] at taken
    have := holds.short
    omega
  · intro whole
    by_contra open_chunk
    have there : s.index < s.setting.layout.chunks := by
      have := holds.inside
      omega
    have room := s.room there
    rw [holds.buffered, List.length_drop, whole, Layout.plainLen] at room
    omega

/-- The bytes that complete a chunk are the piece of the file at its place. -/
theorem piece_of_buf {set : Setting Key} {index : Nat} {more : Bytes}
    (started : index * set.layout.chunk ≤ data.length)
    (full : (data.drop (index * set.layout.chunk) ++ more).length =
      set.layout.plainLen index) :
    set.piece (data ++ more) index = data.drop (index * set.layout.chunk) ++ more := by
  rw [Setting.piece, List.drop_append_of_le_length started]
  apply List.take_of_length_le
  rw [full]
  exact Layout.plainLen_le

/-- The chunk that the bytes complete is a piece of the file, and the next one starts empty. -/
theorem Holds.full (holds : s.Holds data) (there : s.index < s.setting.layout.chunks)
    {more : Bytes} (full : (s.buf ++ more).length = s.setting.layout.plainLen s.index) :
    s.setting.piece (data ++ more) s.index = s.buf ++ more ∧
      Holds ⟨s.setting, s.index + 1, [], Layout.plainLen_pos⟩ (data ++ more) := by
  have started := holds.started there
  have ends := Layout.plainLen_end there
  rw [holds.buffered] at full ⊢
  have length : (data ++ more).length =
      min ((s.index + 1) * s.setting.layout.chunk) s.setting.layout.size := by
    rw [List.length_append, List.length_drop] at full
    rw [List.length_append]
    omega
  exact ⟨piece_of_buf started full,
    Holds.new there (by rw [length]; exact Nat.min_le_right _ _) length⟩

/-- Bytes that do not complete a chunk are kept. -/
theorem Holds.kept (holds : s.Holds data) (there : s.index < s.setting.layout.chunks)
    {more : Bytes} (fits : data.length + more.length ≤ s.setting.layout.size)
    (room : s.index < s.setting.layout.chunks →
      (s.buf ++ more).length < s.setting.layout.plainLen s.index) :
    Holds ⟨s.setting, s.index, s.buf ++ more, room⟩ (data ++ more) := by
  have started := holds.started there
  have taken := holds.taken
  refine ⟨holds.inside, ?_, ?_, ?_⟩
  · rw [List.length_append]
    exact fits
  · rw [List.length_append]
    exact Nat.le_trans taken (Nat.le_add_right _ _)
  · rw [List.drop_append_of_le_length started, ← holds.buffered]

/-- A push seals the chunks that the bytes complete, as they stand in the file. -/
theorem push_holds (cipher : Cipher Key) (s : Sealer Key) (bytes : Bytes) {data : Bytes}
    (holds : s.Holds data) (fits : data.length + bytes.length ≤ s.setting.layout.size) :
    ∃ out, (push cipher s bytes).1 = .ok out ∧
      (push cipher s bytes).2.setting = s.setting ∧
      (push cipher s bytes).2.Holds (data ++ bytes) ∧
      s.setting.sealedTo cipher data s.index ++ out =
        s.setting.sealedTo cipher (data ++ bytes) (push cipher s bytes).2.index := by
  fun_induction push cipher s bytes generalizing data with
  | case1 s =>
      exact ⟨[], rfl, rfl, by rwa [List.append_nil], by simp⟩
  | case2 s bytes some_byte past =>
      have taken := holds.taken
      have covers := s.setting.layout.chunks_covers
      have := Nat.mul_le_mul_right s.setting.layout.chunk past
      have := List.length_pos_iff.mpr some_byte
      omega
  | case3 s bytes some_byte open_chunk want buf rest full sealed later =>
      rename_i ih
      have there : s.index < s.setting.layout.chunks := Nat.lt_of_not_le open_chunk
      have started := holds.started there
      obtain ⟨piece, next⟩ := holds.full there full
      have split : data ++ bytes =
          data ++ bytes.take (min want bytes.length) ++ rest := by
        rw [List.append_assoc, List.take_append_drop]
      obtain ⟨out, pushed, same, after, sealedLater⟩ := ih next (by
        rw [← List.length_append, ← split, List.length_append]
        exact fits)
      refine ⟨sealed ++ out, by rw [pushed]; rfl, same, split ▸ after, ?_⟩
      have here : sealed = cipher.seal (s.setting.sealing
          (data ++ bytes.take (min want bytes.length)) s.index) := by
        rw [Setting.sealing, piece]
        rfl
      rw [split, ← sealedLater, Setting.sealedTo_succ, Setting.sealedTo_append started,
        here, List.append_assoc]
  | case4 s bytes some_byte open_chunk want buf rest partial_chunk =>
      rename_i ih
      have there : s.index < s.setting.layout.chunks := Nat.lt_of_not_le open_chunk
      have started := holds.started there
      have room := s.room there
      have whole : bytes.length ≤ min want bytes.length := by
        simp only [buf, List.length_append, List.length_take] at partial_chunk
        omega
      have all : bytes.take (min want bytes.length) = bytes := List.take_of_length_le whole
      have none_left : rest = [] := List.drop_eq_nil_of_le whole
      have next := @Holds.kept _ _ _ holds there (bytes.take (min want bytes.length))
        (by rw [all]; exact fits) (fun inside => by
          simp only [buf, List.length_append, List.length_take] at partial_chunk ⊢
          omega)
      obtain ⟨out, pushed, same, after, sealedLater⟩ := ih next (by
        rw [none_left, all, List.length_append]
        exact fits)
      rw [none_left, List.append_nil, all] at after sealedLater
      refine ⟨out, pushed, same, ?_, ?_⟩
      · rw [none_left]
        exact after
      · rw [none_left, ← sealedLater, Setting.sealedTo_append started]

/-- However the bytes are cut into pushes, the chunks are the same. -/
theorem pushes_holds (cipher : Cipher Key) (s : Sealer Key) (parts : List Bytes)
    {data : Bytes} (holds : s.Holds data)
    (fits : data.length + parts.flatten.length ≤ s.setting.layout.size) :
    ∃ out, (pushes cipher s parts).1 = .ok out ∧
      (pushes cipher s parts).2.setting = s.setting ∧
      (pushes cipher s parts).2.Holds (data ++ parts.flatten) ∧
      s.setting.sealedTo cipher data s.index ++ out =
        s.setting.sealedTo cipher (data ++ parts.flatten) (pushes cipher s parts).2.index := by
  induction parts generalizing s data with
  | nil => exact ⟨[], rfl, rfl, by rwa [List.flatten_nil, List.append_nil], by simp [pushes]⟩
  | cons bytes rest ih =>
      rw [List.flatten_cons, List.length_append] at fits
      obtain ⟨out, pushed, same, after, sealedHere⟩ :=
        push_holds cipher s bytes holds (by omega)
      obtain ⟨more, pushedMore, sameMore, afterMore, sealedMore⟩ := ih _ after (by
        rw [same, List.length_append]
        omega)
      have both : pushes cipher s (bytes :: rest) =
          ((pushes cipher (push cipher s bytes).2 rest).1.map (out ++ ·),
            (pushes cipher (push cipher s bytes).2 rest).2) := by
        rw [pushes]
        split
        case h_1 failed =>
          rw [failed] at pushed
          cases pushed
        case h_2 out' s' ok =>
          rw [ok] at pushed ⊢
          cases pushed
          rfl
      rw [both, List.flatten_cons, ← List.append_assoc]
      refine ⟨out ++ more, by rw [pushedMore]; rfl, sameMore.trans same, afterMore, ?_⟩
      rw [same] at sealedMore
      rw [← sealedMore, ← List.append_assoc, sealedHere]

end Sealer

end Brook.Snapshot
