import Brook.Secrets.Keyring

namespace Brook.Secrets

open Aead

/-! Stored secrets: sealed under the primary key, written as text, and read back. -/

def nonceBytes : Nat := 12
def maxPlaintextBytes : Nat := 4096
def maxStoredChars : Nat := 16 + 20 + 16 + ((maxPlaintextBytes + 16) * 4 + 2) / 3

/-- What `os.urandom` answers. -/
structure Nonce where
  bytes : Bytes
  length : bytes.length = nonceBytes

def encode (plaintext : String) : Bytes := plaintext.toByteArray.data.toList

def decode (data : Bytes) : Option String := String.fromUTF8? ⟨data.toArray⟩

/-- The stored form. -/
def form (id : Nat) (nonceText ctText : List Nat) : List Nat :=
  text "v1" ++ 46 :: (decimal id ++ 46 :: (nonceText ++ 46 :: ctText))

def Raised.isValueError : Raised → Bool
  | .valueError | .binasciiError | .unicodeDecodeError | .keyringError => true
  | .invalidTag | .decryptError _ => false

def decoded (nonceText ctText : List Nat) : Except Raised (Bytes × Bytes) :=
  match b64d nonceText with
  | .error raised => .error raised
  | .ok nonce => (b64d ctText).map fun ct => (nonce, ct)

/-- `SecretBox._parse` -/
def parse (stored : List Nat) : Except Raised (Nat × Bytes × Bytes) :=
  if maxStoredChars < stored.length then .error (.decryptError .malformed)
  else
    match stored.splitOn 46 with
    | [version, keyIdText, nonceText, ctText] =>
        if version ≠ text "v1" then .error (.decryptError .unknownVersion)
        else
          match keyId keyIdText with
          | .error raised => .error raised
          | .ok none => .error (.decryptError .malformed)
          | .ok (some id) =>
              match decoded nonceText ctText with
              | .error raised =>
                  if raised.isValueError then .error (.decryptError .malformed)
                  else .error raised
              | .ok (nonce, ct) =>
                  if nonce.length ≠ nonceBytes ∨ ct.length < 16 then
                    .error (.decryptError .malformed)
                  else .ok (id, nonce, ct)
    | _ => .error (.decryptError .malformed)

/-- `AESGCM.decrypt` -/
def aesgcmDecrypt {cipher : Cipher SecretKey} (log : Sealed cipher) (key : SecretKey)
    (nonce ct aad : Bytes) : Except Raised Bytes :=
  if nonce.length < 8 ∨ 128 < nonce.length then .error .valueError
  else
    match log.decrypt key nonce aad ct with
    | none => .error .invalidTag
    | some data => .ok data

namespace SecretBox

/-- What is sealed when a plaintext is stored. -/
def sealing (box : SecretBox) (nonce : Nonce) (purpose : Purpose) (row : UUID)
    (plaintext : String) : Sealing SecretKey where
  key := box.primaryKey
  nonce := nonce.bytes
  aad := aad box.primaryId purpose row
  data := encode plaintext

def encrypt (cipher : Cipher SecretKey) (box : SecretBox) (nonce : Nonce)
    (purpose : Purpose) (row : UUID) (plaintext : String) :
    Except Raised (List Nat) :=
  if maxPlaintextBytes < (encode plaintext).length then .error .valueError
  else
    let ct := cipher.seal (box.sealing nonce purpose row plaintext)
    .ok (form box.primaryId (b64e nonce.bytes) (b64e ct))

def decrypt {cipher : Cipher SecretKey} (log : Sealed cipher) (box : SecretBox)
    (stored : List Nat) (purpose : Purpose) (row : UUID) : Except Raised String :=
  match parse stored with
  | .error raised => .error raised
  | .ok (id, nonce, ct) =>
      match box.keys.get id with
      | none => .error (.decryptError .unknownKeyId)
      | some key =>
          match aesgcmDecrypt log key nonce ct (aad id purpose row) with
          | .error .invalidTag => .error (.decryptError .invalidTag)
          | .error raised => .error raised
          | .ok data =>
              match decode data with
              | none => .error (.decryptError .malformed)
              | some plaintext => .ok plaintext

def needsRewrap (box : SecretBox) (stored : List Nat) : Except Raised Bool :=
  match parse stored with
  | .error (.decryptError _) => .ok false
  | .error raised => .error raised
  | .ok (id, _, _) => .ok (id ≠ box.primaryId)

end SecretBox

/-- The grammar of stored values: an id, the text of twelve bytes and the text of
at least a tag. -/
def WellFormed (stored : List Nat) (id : Nat) : Prop :=
  ∃ nonceText ctText, stored = form id nonceText ctText ∧
    stored.length ≤ maxStoredChars ∧ id < 10 ^ maxKeyIdDigits ∧
    nonceText.length = 16 ∧ 22 ≤ ctText.length ∧ ctText.length % 4 ≠ 1 ∧
    ∀ c ∈ nonceText ++ ctText, (b64Value c).isSome

end Brook.Secrets
