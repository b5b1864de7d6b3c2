import Brook.Readers.Reader
import Mathlib.Algebra.Group.Nat.Defs

namespace Brook.Snapshot

open Aead

universe u

variable {Key : Type u}

/-! The sealed format: how long the chunks of a file are, and what each is bound
to. -/

def tag : Nat := 16

/-- The lowest bytes of a number, the highest one first. -/
def beBytes : Nat → Nat → Bytes
  | 0, _ => []
  | width + 1, n => beBytes width (n / 256) ++ [UInt8.ofNat n]

structure Id where
  bytes : Bytes
  length : bytes.length = 16
deriving DecidableEq

def aad (id : Id) (index : Nat) (last : Bool) : Bytes :=
  id.bytes ++ beBytes 8 index ++ [if last then 1 else 0]

def nonce (index : Nat) : Bytes := List.replicate 4 0 ++ beBytes 8 index

structure Layout where
  chunk : Nat
  size : Nat
  positive : 0 < chunk

namespace Layout

/-- `div_ceil` -/
def chunks (l : Layout) : Nat := (l.size + l.chunk - 1) / l.chunk

def plainLen (l : Layout) (index : Nat) : Nat := min (l.size - index * l.chunk) l.chunk

def sealedLen (l : Layout) (index : Nat) : Nat := l.plainLen index + tag

def fileLen (l : Layout) : Nat := l.size + l.chunks * tag

def sealedOffset (l : Layout) (index : Nat) : Nat := index * (l.chunk + tag)

end Layout

/-- What all chunks of a file are sealed with. -/
structure Setting (Key : Type u) where
  key : Key
  id : Id
  layout : Layout

namespace Setting

/-- A chunk of the plaintext. -/
def piece (set : Setting Key) (data : Bytes) (index : Nat) : Bytes :=
  (data.drop (index * set.layout.chunk)).take set.layout.chunk

def last (set : Setting Key) (index : Nat) : Bool := index + 1 = set.layout.chunks

def sealing (set : Setting Key) (data : Bytes) (index : Nat) : Sealing Key where
  key := set.key
  nonce := nonce index
  aad := aad set.id index (set.last index)
  data := set.piece data index

/-- The first chunks of a file, sealed one after another. -/
def sealedTo (cipher : Cipher Key) (set : Setting Key) (data : Bytes) (n : Nat) : Bytes :=
  (List.range n).flatMap fun index => cipher.seal (set.sealing data index)

end Setting

/-! ### Encodings -/

theorem beBytes_inj {width m n : Nat} (m_small : m < 256 ^ width)
    (n_small : n < 256 ^ width) (same : beBytes width m = beBytes width n) : m = n := by
  induction width generalizing m n with
  | zero =>
      rw [Nat.pow_zero] at m_small n_small
      omega
  | succ width ih =>
      rw [beBytes, beBytes] at same
      obtain ⟨high, low⟩ := List.append_inj' same rfl
      rw [Nat.pow_succ] at m_small n_small
      have quotients := ih (Nat.div_lt_of_lt_mul (by omega))
        (Nat.div_lt_of_lt_mul (by omega)) high
      have remainders := congrArg UInt8.toNat (List.cons.inj low).1
      rw [UInt8.toNat_ofNat', UInt8.toNat_ofNat'] at remainders
      omega

theorem aad_inj {id : Id} {i j : Nat} {last last' : Bool} (i_small : i < 2 ^ 64)
    (j_small : j < 2 ^ 64) (same : aad id i last = aad id j last') : i = j := by
  rw [aad, aad] at same
  obtain ⟨front, -⟩ := List.append_inj' same rfl
  have indices := List.append_cancel_left front
  have width : (2 : Nat) ^ 64 = 256 ^ 8 := by decide
  exact beBytes_inj (width ▸ i_small) (width ▸ j_small) indices

/-! ### Layouts -/

namespace Layout

variable {l : Layout} {i : Nat}

/-- A chunk is there when it starts before the end. -/
theorem lt_chunks : i < l.chunks ↔ i * l.chunk < l.size := by
  have := l.positive
  rw [chunks, Nat.lt_div_iff_mul_lt l.positive]
  omega

theorem plainLen_pos (there : i < l.chunks) : 0 < l.plainLen i := by
  have := lt_chunks.mp there
  have := l.positive
  rw [plainLen]
  omega

theorem plainLen_le : l.plainLen i ≤ l.chunk := Nat.min_le_right _ _

theorem plainLen_full (more : i + 1 < l.chunks) : l.plainLen i = l.chunk := by
  have starts := lt_chunks.mp more
  rw [Nat.succ_mul] at starts
  rw [plainLen]
  omega

/-- The chunks up to one end where the next one starts; those up to the last one
end with the file. -/
theorem plainLen_end (there : i < l.chunks) :
    i * l.chunk + l.plainLen i = min ((i + 1) * l.chunk) l.size := by
  have starts := lt_chunks.mp there
  rw [plainLen, Nat.succ_mul]
  omega

theorem chunks_covers : l.size ≤ l.chunks * l.chunk := by
  by_contra short
  exact Nat.lt_irrefl _ (lt_chunks.mpr (Nat.lt_of_not_le short))

theorem chunks_pos (some_byte : 0 < l.size) : 0 < l.chunks := by
  rw [lt_chunks]
  omega

theorem chunks_le_size : l.chunks ≤ l.size := by
  by_contra more
  have starts := lt_chunks.mp (Nat.lt_of_not_le more)
  have := Nat.le_mul_of_pos_right l.size l.positive
  omega

end Layout

/-! ### Pieces -/

namespace Setting

variable {set : Setting Key} {cipher : Cipher Key} {data : Bytes} {i n : Nat}

theorem sealedTo_succ :
    set.sealedTo cipher data (n + 1) =
      set.sealedTo cipher data n ++ cipher.seal (set.sealing data n) := by
  rw [sealedTo, List.range_succ, List.flatMap_append]
  simp [sealedTo]

/-- Chunks that are there stay as they are when more bytes come. -/
theorem piece_append {more : Bytes} (whole : (i + 1) * set.layout.chunk ≤ data.length) :
    set.piece (data ++ more) i = set.piece data i := by
  rw [Nat.succ_mul] at whole
  rw [piece, piece, List.drop_append_of_le_length (by omega),
    List.take_append_of_le_length (by rw [List.length_drop]; omega)]

theorem sealedTo_append {more : Bytes} (whole : n * set.layout.chunk ≤ data.length) :
    set.sealedTo cipher (data ++ more) n = set.sealedTo cipher data n := by
  rw [sealedTo, sealedTo]
  apply List.flatMap_congr
  intro i mem
  have before : i + 1 ≤ n := List.mem_range.mp mem
  have := Nat.mul_le_mul_right set.layout.chunk before
  rw [sealing, sealing, piece_append (by omega)]

theorem length_piece (whole : data.length = set.layout.size) :
    (set.piece data i).length = set.layout.plainLen i := by
  rw [piece, List.length_take, List.length_drop, whole, Layout.plainLen, Nat.min_comm]

/-- Where a chunk starts, since all chunks before it are full. -/
theorem length_sealedTo (whole : data.length = set.layout.size)
    (there : n < set.layout.chunks) :
    (set.sealedTo cipher data n).length = set.layout.sealedOffset n := by
  induction n with
  | zero => simp [sealedTo, Layout.sealedOffset]
  | succ n ih =>
      have full := Layout.plainLen_full there
      rw [sealedTo_succ, List.length_append, ih (by omega), Cipher.length_seal]
      rw [sealing, length_piece whole, full, Layout.sealedOffset, Layout.sealedOffset,
        Nat.succ_mul]
      rfl

theorem length_sealedTo_all (whole : data.length = set.layout.size) :
    (set.sealedTo cipher data set.layout.chunks).length = set.layout.fileLen := by
  have covers := set.layout.chunks_covers
  cases count : set.layout.chunks with
  | zero =>
      rw [count] at covers
      simp [sealedTo, Layout.fileLen, count]
      omega
  | succ n =>
      have there : n < set.layout.chunks := by omega
      have ends := Layout.plainLen_end there
      rw [← count, Nat.min_eq_right covers] at ends
      rw [sealedTo_succ, List.length_append, length_sealedTo whole there,
        Cipher.length_seal, sealing, length_piece whole, Layout.fileLen, count,
        Layout.sealedOffset, Nat.mul_add, Nat.succ_mul, ← ends, tag, tagBytes]
      omega

/-- The first chunks are the start of the file. -/
theorem sealedTo_prefix {m : Nat} (le : n ≤ m) :
    set.sealedTo cipher data n <+: set.sealedTo cipher data m := by
  induction le with
  | refl => exact List.prefix_refl _
  | step _ ih =>
      rw [sealedTo_succ]
      exact ih.trans (List.prefix_append _ _)

end Setting

end Brook.Snapshot
