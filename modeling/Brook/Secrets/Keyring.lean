import Brook.Secrets.Aad

namespace Brook.Secrets

open Aead

/-! The keyring: keys of 32 bytes under the ids that the text form can name. -/

def keyBytes : Nat := 32

structure SecretKey where
  bytes : Bytes
  length : bytes.length = keyBytes
deriving DecidableEq

structure Keyring where
  entries : List (Nat × SecretKey)
  named : ∀ entry ∈ entries, entry.1 < 10 ^ maxKeyIdDigits

namespace Keyring

def get (keys : Keyring) (id : Nat) : Option SecretKey := keys.entries.lookup id

def empty : Keyring := ⟨[], fun _ mem => nomatch mem⟩

def insert (keys : Keyring) (id : Nat) (named : id < 10 ^ maxKeyIdDigits)
    (key : SecretKey) : Keyring where
  entries := (id, key) :: keys.entries
  named := by
    intro entry mem
    rcases List.mem_cons.mp mem with rfl | old
    · exact named
    · exact keys.named entry old

/-- The id of the key that everyone knows, for development only. -/
def devKeyId : Nat := 0

theorem keyId_small {digits : List Nat} {id : Nat}
    (read : keyId digits = .ok (some id)) : id < 10 ^ maxKeyIdDigits := by
  rcases keyId_cases digits with ⟨unread, -⟩ | ⟨n, small, -, same⟩
  · rw [unread] at read
    cases read
  · rw [same] at read
    cases read
    exact small

/-- One entry of the ring, `id:material`. -/
def parseEntry (keys : Keyring) (entry : List Nat) : Except Raised Keyring :=
  match read : keyId (entry.takeWhile (· ≠ 58)) with
  | .error raised => .error raised
  | .ok none => .error .keyringError
  | .ok (some id) =>
      if 58 ∉ entry ∨ id = devKeyId ∨ (keys.get id).isSome then .error .keyringError
      else
        match b64d ((entry.dropWhile (· ≠ 58)).drop 1) with
        | .error _ => .error .keyringError
        | .ok raw =>
            if whole : raw.length = keyBytes then
              .ok (keys.insert id (keyId_small read) ⟨raw, whole⟩)
            else .error .keyringError

/-- `parse_keyring` -/
def parse (spec : List Nat) : Except Raised Keyring :=
  if spec = [] then .error .keyringError
  else (spec.splitOn 44).foldlM parseEntry empty

theorem get_small {keys : Keyring} {id : Nat} {key : SecretKey}
    (there : keys.get id = some key) : id < 10 ^ maxKeyIdDigits := by
  obtain ⟨before, after, split, -⟩ := List.lookup_eq_some_iff.mp there
  exact keys.named (id, key) (by rw [split]; simp)

end Keyring

/-- A ring with the id of the key that encrypts. -/
structure SecretBox where
  keys : Keyring
  primaryId : Nat
  present : (keys.get primaryId).isSome

namespace SecretBox

/-- `SecretBox.__init__` -/
def new (keys : Keyring) (primaryId : Nat) : Except Raised SecretBox :=
  if present : (keys.get primaryId).isSome then .ok ⟨keys, primaryId, present⟩
  else .error .keyringError

def primaryKey (box : SecretBox) : SecretKey := (box.keys.get box.primaryId).get box.present

theorem get_primary (box : SecretBox) :
    box.keys.get box.primaryId = some box.primaryKey :=
  (Option.some_get box.present).symm

theorem primary_small (box : SecretBox) : box.primaryId < 10 ^ maxKeyIdDigits :=
  Keyring.get_small box.get_primary

end SecretBox

end Brook.Secrets
