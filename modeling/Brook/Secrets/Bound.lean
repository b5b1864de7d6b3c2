import Brook.Secrets.Box

namespace Brook.Secrets

open Aead

def IsBase64 (chars : List Nat) : Prop :=
  chars ≠ [] ∧ (∀ c ∈ chars, (b64Value c).isSome) ∧ chars.length % 4 ≠ 1

theorem dot_free {chars : List Nat} (alphabet : ∀ c ∈ chars, (b64Value c).isSome) :
    46 ∉ chars := fun mem => by
  have := alphabet 46 mem
  revert this
  decide

theorem b64e_alphabet (bytes : Bytes) : ∀ c ∈ b64e bytes, (b64Value c).isSome := by
  intro c mem
  obtain ⟨s, inside, rfl⟩ := List.mem_map.mp mem
  rw [b64Value_b64Char (sextets_small bytes s inside)]
  rfl

/-- Both texts decode, or what is raised is caught. -/
theorem decoded_cases (nonceText ctText : List Nat) :
    (∃ nonce ct, decoded nonceText ctText = .ok (nonce, ct) ∧
      nonce.length = nonceText.length * 3 / 4 ∧ ct.length = ctText.length * 3 / 4 ∧
      IsBase64 nonceText ∧ IsBase64 ctText) ∨
    (∃ raised, decoded nonceText ctText = .error raised ∧ raised.isValueError) ∧
      ¬ (IsBase64 nonceText ∧ IsBase64 ctText) := by
  unfold decoded
  rcases b64d_cases nonceText with ⟨⟨nonce, read, size⟩, shape⟩ | ⟨bad, unshaped⟩
  · rw [read]
    rcases b64d_cases ctText with ⟨⟨ct, ctRead, ctSize⟩, ctShape⟩ | ⟨bad, unshaped⟩
    · rw [ctRead]
      exact Or.inl ⟨nonce, ct, rfl, size, ctSize, shape, ctShape⟩
    · refine Or.inr ⟨?_, fun both => unshaped both.2⟩
      rcases bad with bad | bad <;> rw [bad] <;> exact ⟨_, rfl, rfl⟩
  · refine Or.inr ⟨?_, fun both => unshaped both.1⟩
    rcases bad with bad | bad <;> rw [bad] <;> exact ⟨_, rfl, rfl⟩

theorem form_eq (id : Nat) (nonceText ctText : List Nat) :
    form id nonceText ctText =
      [46].intercalate [text "v1", decimal id, nonceText, ctText] := by
  simp [form, List.intercalate]

/-- A form falls into its fields. -/
theorem splitOn_form {id : Nat} {nonceText ctText : List Nat}
    (nonce_free : 46 ∉ nonceText) (ct_free : 46 ∉ ctText) :
    (form id nonceText ctText).splitOn 46 =
      [text "v1", decimal id, nonceText, ctText] := by
  rw [form_eq]
  apply List.splitOn_intercalate
  · intro field mem
    simp only [List.mem_cons, List.not_mem_nil, or_false] at mem
    rcases mem with rfl | rfl | rfl | rfl
    · decide
    · intro dot
      have := decimal_bounds id 46 dot
      omega
    · exact nonce_free
    · exact ct_free
  · exact List.cons_ne_nil _ _

/-- A form that is not too long is read as what its texts decode to. -/
theorem parse_form {id : Nat} {nonceText ctText : List Nat} {nonce ct : Bytes}
    (short : (form id nonceText ctText).length ≤ maxStoredChars)
    (small : id < 10 ^ maxKeyIdDigits)
    (nonce_free : 46 ∉ nonceText) (ct_free : 46 ∉ ctText)
    (read : decoded nonceText ctText = .ok (nonce, ct))
    (nonceLength : nonce.length = nonceBytes) (ctLength : 16 ≤ ct.length) :
    parse (form id nonceText ctText) = .ok (id, nonce, ct) := by
  have sizes : ¬ (nonce.length ≠ nonceBytes ∨ ct.length < 16) := by omega
  rw [parse, if_neg (Nat.not_lt.mpr short), splitOn_form nonce_free ct_free]
  dsimp only
  rw [if_neg (not_not_intro rfl), keyId_decimal small]
  dsimp only
  rw [read]
  dsimp only
  rw [if_neg sizes]

/-- Reading answers with the parts of a well-formed value or with an error of its
own. -/
theorem parse_cases (stored : List Nat) :
    (∃ reason, parse stored = .error (.decryptError reason)) ∨
      ∃ id nonce ct, parse stored = .ok (id, nonce, ct) ∧ WellFormed stored id ∧
        nonce.length = nonceBytes ∧ 16 ≤ ct.length := by
  unfold parse
  split
  case isTrue => exact Or.inl ⟨_, rfl⟩
  case isFalse short =>
    have whole := @List.intercalate_splitOn _ stored _ _ 46
    split
    case h_1 version keyIdText nonceText ctText fields =>
      rw [fields] at whole
      split
      case isTrue => exact Or.inl ⟨_, rfl⟩
      case isFalse known =>
        rw [not_not] at known
        rcases keyId_cases keyIdText with ⟨unread, -⟩ | ⟨id, small, rfl, read⟩
        · rw [unread]
          exact Or.inl ⟨_, rfl⟩
        · rw [read]
          dsimp only
          rw [known, ← form_eq] at whole
          rcases decoded_cases nonceText ctText with
            ⟨nonce, ct, both, nonceSize, ctSize, nonceShape, ctShape⟩ |
            ⟨⟨raised, bad, caught⟩, -⟩
          · rw [both]
            dsimp only
            split
            case isTrue => exact Or.inl ⟨_, rfl⟩
            case isFalse sizes =>
              rw [not_or, not_not, Nat.not_lt] at sizes
              have sixteen := sizes.1
              have single := nonceShape.2.2
              rw [nonceSize, nonceBytes] at sixteen
              refine Or.inr ⟨id, nonce, ct, rfl, ⟨nonceText, ctText, whole.symm,
                Nat.not_lt.mp short, small, by omega, by omega, ctShape.2.2, ?_⟩,
                sizes.1, sizes.2⟩
              intro c mem
              rcases List.mem_append.mp mem with inNonce | inCt
              · exact nonceShape.2.1 c inNonce
              · exact ctShape.2.1 c inCt
          · rw [bad]
            dsimp only
            rw [if_pos caught]
            exact Or.inl ⟨_, rfl⟩
    case h_2 => exact Or.inl ⟨_, rfl⟩

/-- Well-formed values are read. -/
theorem parse_of_wellFormed {stored : List Nat} {id : Nat}
    (shape : WellFormed stored id) :
    ∃ nonce ct, parse stored = .ok (id, nonce, ct) := by
  obtain ⟨nonceText, ctText, rfl, short, small, nonceLength, ctLength, whole,
    alphabet⟩ := shape
  have nonceAlphabet : ∀ c ∈ nonceText, (b64Value c).isSome :=
    fun c mem => alphabet c (List.mem_append_left _ mem)
  have ctAlphabet : ∀ c ∈ ctText, (b64Value c).isSome :=
    fun c mem => alphabet c (List.mem_append_right _ mem)
  have some_nonce : nonceText ≠ [] := by
    rintro rfl
    cases nonceLength
  have some_ct : ctText ≠ [] := by
    rintro rfl
    cases ctLength
  rcases decoded_cases nonceText ctText with
    ⟨nonce, ct, read, nonceSize, ctSize, -, -⟩ | ⟨-, unshaped⟩
  · exact ⟨nonce, ct, parse_form short small (dot_free nonceAlphabet)
      (dot_free ctAlphabet) read (by rw [nonceSize, nonceLength]; rfl) (by omega)⟩
  · exact absurd ⟨⟨some_nonce, nonceAlphabet, by omega⟩, some_ct, ctAlphabet, whole⟩
      unshaped

theorem decode_encode (plaintext : String) :
    decode (encode plaintext) = some plaintext := by
  have valid : (⟨(encode plaintext).toArray⟩ : ByteArray) = plaintext.toByteArray := rfl
  rw [decode, valid, String.fromUTF8?, dif_pos plaintext.isValidUTF8]
  rfl

namespace SecretBox

variable {cipher : Cipher SecretKey} {log : Sealed cipher} {box later : SecretBox}
  {nonce : Nonce} {purpose purpose' : Purpose} {row row' : UUID}
  {plaintext : String} {stored : List Nat}

/-- What was stored fits, and is read as the id, the nonce and the ciphertext. -/
theorem parse_encrypt (cipher : Cipher SecretKey) (box : SecretBox) (nonce : Nonce)
    (purpose : Purpose) (row : UUID) (short : (encode plaintext).length ≤ maxPlaintextBytes) :
    ∃ stored, box.encrypt cipher nonce purpose row plaintext = .ok stored ∧
      stored.length ≤ maxStoredChars ∧
      parse stored = .ok (box.primaryId, nonce.bytes,
        cipher.seal (box.sealing nonce purpose row plaintext)) := by
  have long : (cipher.seal (box.sealing nonce purpose row plaintext)).length =
      (encode plaintext).length + 16 := cipher.length_seal _
  have nonceText := length_b64e nonce.bytes
  have ctText := length_b64e (cipher.seal (box.sealing nonce purpose row plaintext))
  have id_length := decimal_length box.primary_small
  rw [nonce.length] at nonceText
  have fits : (form box.primaryId (b64e nonce.bytes)
      (b64e (cipher.seal (box.sealing nonce purpose row plaintext)))).length ≤
        maxStoredChars := by
    have version : (text "v1").length = 2 := by decide
    have limit : maxStoredChars = 5535 := rfl
    have plaintextLimit : maxPlaintextBytes = 4096 := rfl
    have digits : maxKeyIdDigits = 10 := rfl
    rw [form, List.length_append, List.length_cons, List.length_append,
      List.length_cons, List.length_append, List.length_cons, version, nonceText,
      ctText, long, limit, nonceBytes]
    rw [plaintextLimit] at short
    rw [digits] at id_length
    omega
  have some_byte : ∀ {bytes : Bytes}, 0 < bytes.length → bytes ≠ [] := by
    rintro bytes nonempty rfl
    cases nonempty
  have read : decoded (b64e nonce.bytes)
      (b64e (cipher.seal (box.sealing nonce purpose row plaintext))) =
        .ok (nonce.bytes, cipher.seal (box.sealing nonce purpose row plaintext)) := by
    rw [decoded, b64d_b64e (some_byte (by rw [nonce.length]; decide)),
      b64d_b64e (some_byte (by omega))]
    rfl
  have written : box.encrypt cipher nonce purpose row plaintext =
      .ok (form box.primaryId (b64e nonce.bytes)
        (b64e (cipher.seal (box.sealing nonce purpose row plaintext)))) := by
    rw [encrypt, if_neg (Nat.not_lt.mpr short)]
  refine ⟨_, written, fits, ?_⟩
  exact parse_form fits box.primary_small (dot_free (b64e_alphabet _))
    (dot_free (b64e_alphabet _)) read nonce.length (by omega)

theorem aesgcmDecrypt_some {key : SecretKey} {nonce ct aad data : Bytes}
    (length : nonce.length = nonceBytes)
    (opened : log.decrypt key nonce aad ct = some data) :
    aesgcmDecrypt log key nonce ct aad = .ok data := by
  rw [aesgcmDecrypt, if_neg (by rw [length]; decide), opened]

theorem aesgcmDecrypt_none {key : SecretKey} {nonce ct aad : Bytes}
    (length : nonce.length = nonceBytes)
    (closed : log.decrypt key nonce aad ct = none) :
    aesgcmDecrypt log key nonce ct aad = .error .invalidTag := by
  rw [aesgcmDecrypt, if_neg (by rw [length]; decide), closed]

theorem decrypt_sealed
    (read : parse stored = .ok (box.primaryId, nonce.bytes,
      cipher.seal (box.sealing nonce purpose row plaintext)))
    (mem : box.sealing nonce purpose row plaintext ∈ log.sealings)
    (kept : later.keys.get box.primaryId = box.keys.get box.primaryId) :
    later.decrypt log stored purpose row = .ok plaintext := by
  rw [box.get_primary] at kept
  have opened : log.decrypt box.primaryKey nonce.bytes
      (aad box.primaryId purpose row)
      (cipher.seal (box.sealing nonce purpose row plaintext)) =
        some (encode plaintext) :=
    Sealed.decrypt_eq_some.mpr ⟨mem, rfl⟩
  unfold decrypt
  rw [read]
  dsimp only
  rw [kept]
  dsimp only
  rw [aesgcmDecrypt_some nonce.length opened]
  dsimp only
  rw [decode_encode]

theorem decrypt_elsewhere
    (read : parse stored = .ok (box.primaryId, nonce.bytes,
      cipher.seal (box.sealing nonce purpose row plaintext)))
    (mem : box.sealing nonce purpose row plaintext ∈ log.sealings)
    (other : purpose' ≠ purpose ∨ row' ≠ row) :
    ∃ reason, later.decrypt log stored purpose' row' =
      .error (.decryptError reason) := by
  unfold decrypt
  rw [read]
  dsimp only
  cases later.keys.get box.primaryId with
  | none => exact ⟨_, rfl⟩
  | some key =>
      have bound : aad box.primaryId purpose' row' ≠
          (box.sealing nonce purpose row plaintext).aad := by
        intro same
        obtain ⟨-, samePurpose, sameRow⟩ := aad_inj same
        rcases other with other | other
        · exact other samePurpose
        · exact other sameRow
      have closed : log.decrypt key nonce.bytes (aad box.primaryId purpose' row')
          (cipher.seal (box.sealing nonce purpose row plaintext)) = none :=
        Sealed.decrypt_other mem (Or.inr bound)
      dsimp only
      rw [aesgcmDecrypt_none nonce.length closed]
      exact ⟨_, rfl⟩

theorem decrypt_missing {id : Nat} {nonce ct : Bytes}
    (read : parse stored = .ok (id, nonce, ct)) (missing : later.keys.get id = none) :
    later.decrypt log stored purpose row = .error (.decryptError .unknownKeyId) := by
  unfold decrypt
  rw [read]
  dsimp only
  rw [missing]

/-- No string makes decryption raise anything else. -/
theorem decrypt_cases (stored : List Nat) (purpose : Purpose) (row : UUID) :
    (∃ plaintext, box.decrypt log stored purpose row = .ok plaintext) ∨
      ∃ reason, box.decrypt log stored purpose row = .error (.decryptError reason) := by
  unfold decrypt
  rcases parse_cases stored with ⟨reason, refused⟩ | ⟨id, nonce, ct, read, -, length, -⟩
  · rw [refused]
    exact Or.inr ⟨reason, rfl⟩
  · rw [read]
    dsimp only
    cases box.keys.get id with
    | none => exact Or.inr ⟨_, rfl⟩
    | some key =>
        dsimp only
        cases opened : log.decrypt key nonce (aad id purpose row) ct with
        | none =>
            rw [aesgcmDecrypt_none length opened]
            exact Or.inr ⟨_, rfl⟩
        | some data =>
            rw [aesgcmDecrypt_some length opened]
            dsimp only
            cases decode data with
            | none => exact Or.inr ⟨_, rfl⟩
            | some plaintext => exact Or.inl ⟨plaintext, rfl⟩

theorem needsRewrap_iff (stored : List Nat) :
    (∃ answer, box.needsRewrap stored = .ok answer) ∧
      (box.needsRewrap stored = .ok true ↔
        ∃ id, WellFormed stored id ∧ id ≠ box.primaryId) := by
  unfold needsRewrap
  rcases parse_cases stored with ⟨reason, refused⟩ | ⟨id, nonce, ct, read, shape, -⟩
  · rw [refused]
    refine ⟨⟨_, rfl⟩, ?_⟩
    constructor
    · intro rewrap
      cases rewrap
    · rintro ⟨id, shape, -⟩
      obtain ⟨nonce, ct, read⟩ := parse_of_wellFormed shape
      rw [refused] at read
      cases read
  · rw [read]
    refine ⟨⟨_, rfl⟩, ?_⟩
    dsimp only
    rw [Except.ok.injEq, decide_eq_true_eq]
    constructor
    · intro other
      exact ⟨id, shape, other⟩
    · rintro ⟨id', shape', other⟩
      obtain ⟨nonce', ct', read'⟩ := parse_of_wellFormed shape'
      rw [read] at read'
      cases read'
      exact other

/-- Stored secrets come back under their column and row while a ring maps their id
to their key, open nowhere else, and no string raises anything but the error of
decryption. -/
theorem stored_secret_bound (cipher : Cipher SecretKey) (box : SecretBox)
    (nonce : Nonce) (purpose : Purpose) (row : UUID) (plaintext : String)
    (short : (encode plaintext).length ≤ maxPlaintextBytes) :
    (∃ stored, box.encrypt cipher nonce purpose row plaintext = .ok stored ∧
      stored.length ≤ maxStoredChars ∧
      ∀ log : Sealed cipher, box.sealing nonce purpose row plaintext ∈ log.sealings →
        ∀ later : SecretBox,
          (later.keys.get box.primaryId = box.keys.get box.primaryId →
            later.decrypt log stored purpose row = .ok plaintext) ∧
          (∀ purpose' row', purpose' ≠ purpose ∨ row' ≠ row →
            ∃ reason, later.decrypt log stored purpose' row' =
              .error (.decryptError reason)) ∧
          (later.keys.get box.primaryId = none → ∀ purpose' row',
            ∃ reason, later.decrypt log stored purpose' row' =
              .error (.decryptError reason))) ∧
    (∀ (log : Sealed cipher) (stored : List Nat) (purpose : Purpose) (row : UUID),
      (∃ plaintext, box.decrypt log stored purpose row = .ok plaintext) ∨
        ∃ reason, box.decrypt log stored purpose row = .error (.decryptError reason)) ∧
    ∀ stored : List Nat, (∃ answer, box.needsRewrap stored = .ok answer) ∧
      (box.needsRewrap stored = .ok true ↔
        ∃ id, WellFormed stored id ∧ id ≠ box.primaryId) := by
  refine ⟨?_, fun _ => decrypt_cases, needsRewrap_iff⟩
  obtain ⟨stored, written, fits, read⟩ :=
    parse_encrypt cipher box nonce purpose row short
  refine ⟨stored, written, fits, ?_⟩
  intro log mem later
  refine ⟨decrypt_sealed read mem, fun purpose' row' => decrypt_elsewhere read mem, ?_⟩
  intro missing purpose' row'
  exact ⟨_, decrypt_missing read missing⟩

/-- A cipher that hides nothing and adds a tag of the right length. -/
def tagging : Cipher SecretKey where
  encrypt := fun _ _ _ data => data ++ List.replicate tagBytes 0
  length_encrypt := fun _ _ _ _ => by rw [List.length_append, List.length_replicate]

def oneKey : SecretBox :=
  ⟨Keyring.empty.insert 7 (by decide) ⟨List.replicate 32 1, rfl⟩, 7, rfl⟩

/-- The secret of one row is read back for this row, and not for another one. -/
theorem totp_secret_reads_back :
    let row : UUID := ⟨5, by decide⟩
    let nonce : Nonce := ⟨List.replicate 12 9, rfl⟩
    ∃ stored, oneKey.encrypt tagging nonce .totpSecret row "JBSWY3DP" = .ok stored ∧
      ∀ log : Sealed tagging,
        oneKey.sealing nonce .totpSecret row "JBSWY3DP" ∈ log.sealings →
          oneKey.decrypt log stored .totpSecret row = .ok "JBSWY3DP" ∧
          ∃ reason, oneKey.decrypt log stored .totpSecret ⟨6, by decide⟩ =
            .error (.decryptError reason) := by
  obtain ⟨⟨stored, written, -, bound⟩, -, -⟩ :=
    stored_secret_bound tagging oneKey ⟨List.replicate 12 9, rfl⟩ .totpSecret
      ⟨5, by decide⟩ "JBSWY3DP" (by decide)
  refine ⟨stored, written, fun log mem => ?_⟩
  obtain ⟨same, other, -⟩ := bound log mem oneKey
  exact ⟨same rfl, other .totpSecret ⟨6, by decide⟩ (Or.inr (by decide))⟩

end SecretBox

end Brook.Secrets
