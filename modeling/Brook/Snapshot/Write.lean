import Brook.Snapshot.Sealer

namespace Brook.Snapshot

open Aead Readers

universe u

variable {Key : Type u}

/-! Copying a file whose size is not known: a chunk is the last one when nothing
can be read after it. -/

/-- A file to be sealed. -/
structure File (Key : Type u) where
  key : Key
  id : Id
  chunk : Nat
  data : Bytes
  positive : 0 < chunk
  nonempty : data ≠ []
  -- the length of a file is a `u64`
  fits : (⟨chunk, data.length, positive⟩ : Layout).fileLen < 2 ^ 64

namespace File

def layout (f : File Key) : Layout := ⟨f.chunk, f.data.length, f.positive⟩

def setting (f : File Key) : Setting Key := ⟨f.key, f.id, f.layout⟩

/-- What lies on disk. -/
def sealedBytes (cipher : Cipher Key) (f : File Key) : Bytes :=
  f.setting.sealedTo cipher f.data f.layout.chunks

variable {cipher : Cipher Key} {f : File Key} {i : Nat}

theorem chunks_pos : 0 < f.layout.chunks :=
  Layout.chunks_pos (List.length_pos_iff.mpr f.nonempty)

theorem length_piece : (f.setting.piece f.data i).length = f.layout.plainLen i :=
  Setting.length_piece rfl

theorem piece_eq_nil : f.setting.piece f.data i = [] ↔ f.layout.chunks ≤ i := by
  rw [← List.length_eq_zero_iff, length_piece]
  constructor
  · intro none_left
    by_contra there
    have := Layout.plainLen_pos (Nat.lt_of_not_le there)
    omega
  · intro past
    have := mt Layout.lt_chunks.mpr (Nat.not_lt.mpr past)
    rw [Layout.plainLen]
    omega

/-- The pieces follow one another. -/
theorem take_piece :
    f.data.take (i * f.chunk) ++ f.setting.piece f.data i =
      f.data.take ((i + 1) * f.chunk) := by
  rw [Nat.succ_mul, List.take_add]
  rfl

theorem take_chunks : f.data.take (f.layout.chunks * f.chunk) = f.data :=
  List.take_of_length_le f.layout.chunks_covers

theorem index_small (there : i < f.layout.chunks) : i < 2 ^ 64 := by
  have fits : f.layout.fileLen < 2 ^ 64 := f.fits
  have := f.layout.chunks_le_size
  rw [Layout.fileLen] at fits
  omega

theorem length_seal :
    (cipher.seal (f.setting.sealing f.data i)).length = f.layout.sealedLen i := by
  rw [Cipher.length_seal, Setting.sealing, length_piece, Layout.sealedLen]
  rfl

/-- A file that starts like the sealed one continues with the chunk at its place. -/
theorem next_chunk {rest : Bytes} (there : i < f.layout.chunks)
    (same : f.setting.sealedTo cipher f.data i ++ rest = f.sealedBytes cipher) :
    ∃ after, rest = cipher.seal (f.setting.sealing f.data i) ++ after := by
  have before : f.setting.sealedTo cipher f.data (i + 1) <+: f.sealedBytes cipher :=
    Setting.sealedTo_prefix there
  rw [← same, Setting.sealedTo_succ, List.prefix_append_right_inj] at before
  obtain ⟨after, split⟩ := before
  exact ⟨after, split.symm⟩

end File

/-- What a write failed by. -/
inductive WriteError
  | source
  | store
  | stopped
  | tooLarge

def hexDigit (d : Nat) : Char := "0123456789abcdef".toList.getD d '0'

def hex (bytes : Bytes) : List Char :=
  bytes.flatMap fun b => [hexDigit (b.toNat / 16), hexDigit (b.toNat % 16)]

structure Written (Key : Type u) where
  key : Key
  size : Nat
  sha256 : List Char

/-- What the copy has come to. -/
structure Copy where
  index : Nat
  size : Nat
  digest : Bytes
  out : Bytes

/-- What a copy is told: how to seal it, where it ends at the latest, what reading
and writing raise at a chunk, and whether to go on. -/
structure CopyOptions (Key : Type u) where
  key : Key
  id : Id
  chunk : Nat
  max : Nat
  total : Nat
  fails : Nat → Option WriteError
  progress : Nat → Nat → Bool

variable {cipher : Cipher Key}

def Copy.add (cipher : Cipher Key) (o : CopyOptions Key) (copy : Copy) (current : Bytes)
    (last : Bool) : Copy where
  index := copy.index
  size := copy.size + current.length
  digest := copy.digest ++ current
  out := copy.out ++ sealChunk cipher o.key o.id copy.index last current

/-- The chunk that follows a full one. -/
def ahead (chunk : Nat) (current : Bytes) (r : Reader) : Bytes × Reader :=
  if current.length = chunk then r.fill chunk else ([], r)

theorem ahead_shorter {chunk : Nat} {current : Bytes} {r : Reader}
    (more : (ahead chunk current r).1 ≠ []) :
    (ahead chunk current r).2.rest.length < r.rest.length := by
  unfold ahead at more ⊢
  split at more
  case isTrue full =>
    rw [if_pos full, Reader.fill_rest, List.length_drop]
    rw [Reader.fill_fst] at more
    have := List.length_pos_iff.mpr more
    rw [List.length_take] at this
    omega
  case isFalse => exact absurd rfl more

def writeLoop (cipher : Cipher Key) (o : CopyOptions Key) (current : Bytes) (r : Reader)
    (copy : Copy) : Except WriteError Copy :=
  match o.fails copy.index with
  | some e => .error e
  | none =>
      let next := copy.add cipher o current ((ahead o.chunk current r).1 = [])
      if o.max < next.size then .error .tooLarge
      else if ¬ o.progress next.size (max o.total next.size) then .error .stopped
      else if (ahead o.chunk current r).1 = [] then .ok next
      else
        writeLoop cipher o (ahead o.chunk current r).1 (ahead o.chunk current r).2
          { next with index := next.index + 1 }
termination_by r.rest.length
decreasing_by exact ahead_shorter ‹_›

/-- `write`, with the key that was made for it; on an error nothing is kept. -/
def write (cipher : Cipher Key) (sha256 : Bytes → Bytes) (o : CopyOptions Key)
    (input : Reader) : Except WriteError (Written Key × Bytes) :=
  let first := input.fill o.chunk
  if first.1 = [] then .error .source
  else
    match writeLoop cipher o first.1 first.2 ⟨0, 0, [], []⟩ with
    | .error e => .error e
    | .ok copy => .ok (⟨o.key, copy.size, hex (sha256 copy.digest)⟩, copy.out)

/-- The copy stands at a chunk of the file. -/
structure Copying (cipher : Cipher Key) (f : File Key) (o : CopyOptions Key)
    (current : Bytes) (r : Reader) (copy : Copy) : Prop where
  key : o.key = f.key
  id : o.id = f.id
  chunk : o.chunk = f.chunk
  inside : copy.index < f.layout.chunks
  current : current = f.setting.piece f.data copy.index
  rest : r.rest = f.data.drop ((copy.index + 1) * f.chunk)
  digest : copy.digest = f.data.take (copy.index * f.chunk)
  size : copy.size = copy.digest.length
  out : copy.out = f.setting.sealedTo cipher f.data copy.index

namespace Copying

variable {f : File Key} {o : CopyOptions Key} {current : Bytes} {r : Reader} {copy : Copy}

/-- What is read ahead is the next piece. -/
theorem ahead_eq (copying : Copying cipher f o current r copy) :
    (ahead o.chunk current r).1 = f.setting.piece f.data (copy.index + 1) ∧
      ((ahead o.chunk current r).1 ≠ [] →
        (ahead o.chunk current r).2.rest =
          f.data.drop ((copy.index + 1 + 1) * f.chunk)) := by
  unfold ahead
  split
  case isTrue full =>
    rw [Reader.fill_fst, Reader.fill_rest, copying.rest, copying.chunk]
    refine ⟨rfl, fun _ => ?_⟩
    rw [List.drop_drop, Nat.succ_mul (copy.index + 1)]
  case isFalse short =>
    refine ⟨?_, fun more => absurd rfl more⟩
    symm
    rw [File.piece_eq_nil]
    by_contra more
    apply short
    rw [copying.current, File.length_piece, Layout.plainLen_full (Nat.lt_of_not_le more),
      copying.chunk]
    rfl

/-- The last chunk is the one after which nothing can be read. -/
theorem last_iff (copying : Copying cipher f o current r copy) :
    (ahead o.chunk current r).1 = [] ↔ copy.index + 1 = f.layout.chunks := by
  have := copying.inside
  rw [copying.ahead_eq.1, File.piece_eq_nil]
  omega

/-- A chunk is sealed as it stands in the file. -/
theorem add (copying : Copying cipher f o current r copy) :
    (copy.add cipher o current ((ahead o.chunk current r).1 = [])).out =
        f.setting.sealedTo cipher f.data (copy.index + 1) ∧
      (copy.add cipher o current ((ahead o.chunk current r).1 = [])).digest =
        f.data.take ((copy.index + 1) * f.chunk) ∧
      (copy.add cipher o current ((ahead o.chunk current r).1 = [])).size =
        (f.data.take ((copy.index + 1) * f.chunk)).length := by
  refine ⟨?_, ?_, ?_⟩
  · have last : decide ((ahead o.chunk current r).1 = []) =
        f.setting.last copy.index := decide_eq_decide.mpr copying.last_iff
    rw [last, Setting.sealedTo_succ, Copy.add, copying.out, copying.key, copying.id,
      copying.current]
    rfl
  · rw [← File.take_piece, ← copying.digest, ← copying.current]
    rfl
  · rw [← File.take_piece, List.length_append, ← copying.digest, ← copying.size,
      ← copying.current]
    rfl

/-- The next chunk is copied from where the last one ended. -/
theorem next (copying : Copying cipher f o current r copy)
    (more : (ahead o.chunk current r).1 ≠ []) :
    Copying cipher f o (ahead o.chunk current r).1 (ahead o.chunk current r).2
      { copy.add cipher o current ((ahead o.chunk current r).1 = []) with
        index := (copy.add cipher o current ((ahead o.chunk current r).1 = [])).index + 1 } := by
  have inside := copying.inside
  have not_last := mt copying.last_iff.mpr more
  obtain ⟨out, digest, size⟩ := copying.add
  exact {
    key := copying.key
    id := copying.id
    chunk := copying.chunk
    inside := Nat.lt_of_le_of_ne inside not_last
    current := copying.ahead_eq.1
    rest := copying.ahead_eq.2 more
    digest := digest
    size := by rw [size, digest]
    out := out }

/-- The copy that comes to the end is the sealed file. -/
theorem writeLoop_ok (copying : Copying cipher f o current r copy) {done : Copy}
    (ok : writeLoop cipher o current r copy = .ok done) :
    done.out = f.sealedBytes cipher ∧ done.digest = f.data ∧
      done.size = f.data.length := by
  fun_induction writeLoop cipher o current r copy with
  | case1 | case2 | case3 => cases ok
  | case4 current r copy no_fail next small going ended =>
      obtain ⟨out, digest, size⟩ := copying.add
      rw [copying.last_iff.mp ended, File.take_chunks] at digest size
      rw [copying.last_iff.mp ended] at out
      rw [← Except.ok.inj ok]
      exact ⟨out, digest, size⟩
  | case5 current r copy no_fail next small going more ih =>
      exact ih (copying.next more) ok

/-- Nothing but a failure, the limit or the caller stops the copy. -/
theorem writeLoop_goes_on (copying : Copying cipher f o current r copy)
    (no_fail : ∀ i, o.fails i = none) (room : f.data.length ≤ o.max)
    (going : ∀ done total, o.progress done total = true) :
    ∃ done, writeLoop cipher o current r copy = .ok done := by
  fun_induction writeLoop cipher o current r copy with
  | case1 current r copy e failed =>
      rw [no_fail] at failed
      cases failed
  | case2 current r copy ok next large =>
      have size : next.size = _ := copying.add.2.2
      rw [List.length_take] at size
      omega
  | case3 current r copy ok next small stopped =>
      exact absurd (going _ _) stopped
  | case4 => exact ⟨_, rfl⟩
  | case5 current r copy ok next small _ more ih => exact ih (copying.next more)

end Copying

/-- What is written without an error is the sealed file, with its size and its
digest; and nothing but a failure, the limit or the caller stops it. -/
theorem write_file (sha256 : Bytes → Bytes) (f : File Key) (o : CopyOptions Key)
    (key : o.key = f.key) (id : o.id = f.id) (chunk : o.chunk = f.chunk)
    (grants : Nat → Nat) :
    (∀ written bytes, write cipher sha256 o (Reader.fresh f.data grants) =
        .ok (written, bytes) →
      bytes = f.sealedBytes cipher ∧ written.key = f.key ∧
        written.size = f.data.length ∧ written.sha256 = hex (sha256 f.data)) ∧
    ((∀ i, o.fails i = none) → f.data.length ≤ o.max →
      (∀ done total, o.progress done total = true) →
      ∃ written bytes, write cipher sha256 o (Reader.fresh f.data grants) =
        .ok (written, bytes)) := by
  have first : ((Reader.fresh f.data grants).fill o.chunk).1 = f.setting.piece f.data 0 := by
    rw [Reader.fill_fst, chunk, Setting.piece, Nat.zero_mul]
    rfl
  have nonempty : ((Reader.fresh f.data grants).fill o.chunk).1 ≠ [] := by
    rw [first, Ne, File.piece_eq_nil, Nat.not_le]
    exact File.chunks_pos
  have copying : Copying cipher f o ((Reader.fresh f.data grants).fill o.chunk).1
      ((Reader.fresh f.data grants).fill o.chunk).2 ⟨0, 0, [], []⟩ := {
    key := key
    id := id
    chunk := chunk
    inside := File.chunks_pos
    current := first
    rest := by
      rw [Reader.fill_rest, chunk, Nat.zero_add, Nat.one_mul]
      rfl
    digest := by rw [Nat.zero_mul]; rfl
    size := rfl
    out := rfl }
  rw [write, if_neg nonempty]
  constructor
  · intro written bytes ok
    split at ok
    case h_1 => cases ok
    case h_2 done copied =>
      cases ok
      obtain ⟨out, digest, size⟩ := copying.writeLoop_ok copied
      exact ⟨out, key, size, by rw [digest]⟩
  · intro no_fail room going
    obtain ⟨done, copied⟩ := copying.writeLoop_goes_on no_fail room going
    rw [copied]
    exact ⟨_, _, rfl⟩

end Brook.Snapshot
