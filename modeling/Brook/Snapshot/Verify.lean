import Brook.Snapshot.Write

namespace Brook.Snapshot

open Aead Readers

universe u

variable {Key : Type u} [DecidableEq Key] {cipher : Cipher Key}

/-! Opening what was sealed, chunk by chunk, against the key's own sealings. -/

structure Damaged

/-- `open_chunk` -/
def openChunk (log : Sealed cipher) (key : Key) (id : Id) (index : Nat) (last : Bool)
    (ct : Bytes) : Except Damaged Bytes :=
  match log.decrypt key (nonce index) (aad id index last) ct with
  | none => .error ⟨⟩
  | some plain => .ok plain

def verifyChunk (log : Sealed cipher) (set : Setting Key) (state : Reader × Bytes)
    (index : Nat) : Except Damaged (Reader × Bytes) :=
  let got := state.1.fill (set.layout.sealedLen index)
  if got.1.length ≠ set.layout.sealedLen index then .error ⟨⟩
  else
    match openChunk log set.key set.id index (index + 1 = set.layout.chunks) got.1 with
    | .error e => .error e
    | .ok plain => .ok (got.2, state.2 ++ plain)

/-- `verify` of a file that holds these bytes. -/
def verify (log : Sealed cipher) (sha256 : Bytes → Bytes) (set : Setting Key)
    (bytes : Bytes) (grants : Nat → Nat) (stored : List Char) : Except Damaged Unit :=
  if set.layout.size = 0 ∨ bytes.length ≠ set.layout.fileLen then .error ⟨⟩
  else
    match (List.range set.layout.chunks).foldlM (verifyChunk log set)
        (Reader.fresh bytes grants, []) with
    | .error e => .error e
    | .ok done => if hex (sha256 done.2) ≠ stored then .error ⟨⟩ else .ok ()

/-- The chunks of a file were sealed, and nothing else was sealed under its key and
its id: the key is made for one write. -/
structure Genuine (log : Sealed cipher) (f : File Key) : Prop where
  sealed : ∀ i < f.layout.chunks, f.setting.sealing f.data i ∈ log.sealings
  only : ∀ s ∈ log.sealings, s.key = f.key → ∀ i last, s.aad = aad f.id i last →
    ∃ j < f.layout.chunks, s = f.setting.sealing f.data j

namespace Genuine

variable {log : Sealed cipher} {f : File Key} {i n : Nat} {bytes ct plain : Bytes}

/-- In its place, exactly the chunk that was sealed for it opens. -/
theorem decrypt_iff (genuine : Genuine log f) (there : i < f.layout.chunks) :
    log.decrypt f.key (nonce i) (aad f.id i (i + 1 = f.layout.chunks)) ct = some plain ↔
      ct = cipher.seal (f.setting.sealing f.data i) ∧ plain = f.setting.piece f.data i := by
  rw [Sealed.decrypt_eq_some]
  constructor
  · rintro ⟨mem, sealed⟩
    obtain ⟨j, inside, same⟩ := genuine.only _ mem rfl i _ rfl
    have index := aad_inj (File.index_small there) (File.index_small inside)
      (congrArg Sealing.aad same)
    subst index
    have data : plain = f.setting.piece f.data i := congrArg Sealing.data same
    exact ⟨by rw [← sealed, data]; rfl, data⟩
  · rintro ⟨rfl, rfl⟩
    exact ⟨genuine.sealed i there, rfl⟩

theorem openChunk_ok (genuine : Genuine log f) (there : i < f.layout.chunks)
    (opened : openChunk log f.key f.id i (i + 1 = f.layout.chunks) ct = .ok plain) :
    ct = cipher.seal (f.setting.sealing f.data i) ∧ plain = f.setting.piece f.data i := by
  unfold openChunk at opened
  split at opened
  case h_1 => cases opened
  case h_2 found =>
    cases opened
    exact (genuine.decrypt_iff there).mp found

theorem openChunk_sealed (genuine : Genuine log f) (there : i < f.layout.chunks) :
    openChunk log f.key f.id i (i + 1 = f.layout.chunks)
        (cipher.seal (f.setting.sealing f.data i)) =
      .ok (f.setting.piece f.data i) := by
  rw [openChunk, (genuine.decrypt_iff there).mpr ⟨rfl, rfl⟩]

/-- A chunk is checked against the one that the file has at its place. -/
theorem verifyChunk_cases (genuine : Genuine log f) {r : Reader}
    (there : n < f.layout.chunks)
    (start : bytes = f.setting.sealedTo cipher f.data n ++ r.rest) :
    (∃ r', verifyChunk log f.setting (r, f.data.take (n * f.chunk)) n =
        .ok (r', f.data.take ((n + 1) * f.chunk)) ∧
      bytes = f.setting.sealedTo cipher f.data (n + 1) ++ r'.rest) ∨
    verifyChunk log f.setting (r, f.data.take (n * f.chunk)) n = .error ⟨⟩ ∧
      bytes ≠ f.sealedBytes cipher := by
  have got : (r.fill (f.layout.sealedLen n)).1 = r.rest.take (f.layout.sealedLen n) :=
    Reader.fill_fst _ _
  have left_over : (r.fill (f.layout.sealedLen n)).2.rest =
      r.rest.drop (f.layout.sealedLen n) := Reader.fill_rest _ _
  have genuine_rest : bytes = f.sealedBytes cipher →
      (r.fill (f.layout.sealedLen n)).1 =
        cipher.seal (f.setting.sealing f.data n) := by
    intro whole
    obtain ⟨after, split⟩ := File.next_chunk there (start.symm.trans whole)
    rw [got, split, List.take_append_of_le_length (Nat.le_of_eq File.length_seal.symm),
      ← File.length_seal, List.take_length]
  rw [verifyChunk]
  dsimp only
  rw [show f.setting.layout = f.layout from rfl]
  split
  case isTrue short =>
    right
    refine ⟨rfl, fun whole => short ?_⟩
    rw [genuine_rest whole, File.length_seal]
  case isFalse =>
    split
    case h_1 opened =>
      right
      refine ⟨rfl, fun whole => ?_⟩
      have sealed := genuine.openChunk_sealed there
      rw [← genuine_rest whole] at sealed
      have both := opened.symm.trans sealed
      cases both
    case h_2 plain opened =>
      left
      obtain ⟨chunk, piece⟩ := genuine.openChunk_ok there opened
      refine ⟨(r.fill (f.layout.sealedLen n)).2, ?_, ?_⟩
      · rw [piece, File.take_piece]
      · rw [Setting.sealedTo_succ, ← chunk, got, left_over, List.append_assoc,
          List.take_append_drop]
        exact start

/-- The chunks that were checked so far are those of the file. -/
theorem verify_chunks (genuine : Genuine log f) (grants : Nat → Nat)
    (inside : n ≤ f.layout.chunks) :
    (∃ r, (List.range n).foldlM (verifyChunk log f.setting)
        (Reader.fresh bytes grants, []) = .ok (r, f.data.take (n * f.chunk)) ∧
      bytes = f.setting.sealedTo cipher f.data n ++ r.rest) ∨
    (List.range n).foldlM (verifyChunk log f.setting) (Reader.fresh bytes grants, []) =
        .error ⟨⟩ ∧
      bytes ≠ f.sealedBytes cipher := by
  induction n with
  | zero =>
      left
      refine ⟨Reader.fresh bytes grants, ?_, rfl⟩
      rw [Nat.zero_mul]
      rfl
  | succ n ih =>
      rw [List.range_succ, List.foldlM_append]
      rcases ih (Nat.le_of_lt inside) with ⟨r, checked, start⟩ | ⟨failed, other⟩
      · have step : List.foldlM (verifyChunk log f.setting)
            (r, f.data.take (n * f.chunk)) [n] =
              verifyChunk log f.setting (r, f.data.take (n * f.chunk)) n := by
          rw [List.foldlM_cons]
          exact bind_pure _
        rw [checked]
        dsimp only [bind, Except.bind]
        rw [step]
        exact genuine.verifyChunk_cases inside start
      · rw [failed]
        exact Or.inr ⟨rfl, other⟩

/-- Exactly the sealed file passes, with the size and the digest of its data. -/
theorem verify_iff (genuine : Genuine log f) (sha256 : Bytes → Bytes) (bytes : Bytes)
    (grants : Nat → Nat) :
    verify log sha256 f.setting bytes grants (hex (sha256 f.data)) = .ok () ↔
      bytes = f.sealedBytes cipher := by
  have length : (f.sealedBytes cipher).length = f.layout.fileLen :=
    Setting.length_sealedTo_all rfl
  have nonempty : f.setting.layout.size ≠ 0 := by
    intro none_there
    exact f.nonempty (List.length_eq_zero_iff.mp none_there)
  unfold verify
  split
  case isTrue refused =>
    constructor
    · intro passed
      cases passed
    · rintro rfl
      rcases refused with empty | other
      · exact absurd empty nonempty
      · exact absurd length other
  case isFalse accepted =>
    rw [not_or, not_not] at accepted
    rcases @verify_chunks _ _ _ _ _ _ bytes genuine grants (Nat.le_refl f.layout.chunks) with
      ⟨r, checked, whole⟩ | ⟨failed, other⟩
    · rw [show f.setting.layout.chunks = f.layout.chunks from rfl, checked]
      dsimp only
      rw [File.take_chunks, if_neg (not_not_intro rfl)]
      refine ⟨fun _ => ?_, fun _ => rfl⟩
      have lengths := congrArg List.length whole
      have sizes : bytes.length = f.layout.fileLen := accepted.2
      rw [List.length_append, sizes, ← length, File.sealedBytes] at lengths
      have ended : r.rest = [] := List.length_eq_zero_iff.mp (by omega)
      rw [whole, ended, List.append_nil]
      rfl
    · rw [show f.setting.layout.chunks = f.layout.chunks from rfl, failed]
      constructor
      · intro passed
        cases passed
      · intro whole
        exact absurd whole other

end Genuine

end Brook.Snapshot
