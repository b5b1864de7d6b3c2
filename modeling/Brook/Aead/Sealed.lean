import Mathlib.Data.List.Basic

namespace Brook.Aead

universe u

variable {Key : Type u}

/-! An ideal cipher with associated data.  Sealing is a function that adds a tag
to the data; opening gives back what was sealed under the same key, nonce and
associated data, and nothing else opens.  Two things that were sealed with one
nonce never have the same ciphertext. -/

abbrev Bytes := List UInt8

def tagBytes : Nat := 16

structure Cipher (Key : Type u) where
  encrypt : Key → (nonce aad data : Bytes) → Bytes
  length_encrypt : ∀ key nonce aad data,
    (encrypt key nonce aad data).length = data.length + tagBytes

structure Sealing (Key : Type u) where
  key : Key
  nonce : Bytes
  aad : Bytes
  data : Bytes

def Cipher.seal (cipher : Cipher Key) (s : Sealing Key) : Bytes :=
  cipher.encrypt s.key s.nonce s.aad s.data

/-- Everything that was sealed. -/
structure Sealed (cipher : Cipher Key) where
  sealings : List (Sealing Key)
  unique : ∀ s ∈ sealings, ∀ t ∈ sealings, s.nonce = t.nonce →
    cipher.seal s = cipher.seal t → s = t

variable {cipher : Cipher Key}

@[simp] theorem Cipher.length_seal (s : Sealing Key) :
    (cipher.seal s).length = s.data.length + tagBytes :=
  cipher.length_encrypt _ _ _ _

namespace Sealed

variable [DecidableEq Key]

/-- `decrypt`; `none` is an invalid tag. -/
def decrypt (log : Sealed cipher) (key : Key) (nonce aad ct : Bytes) :
    Option Bytes :=
  (log.sealings.find? fun s =>
    s.key = key ∧ s.nonce = nonce ∧ s.aad = aad ∧ cipher.seal s = ct).map
      Sealing.data

variable {log : Sealed cipher} {key : Key} {nonce aad ct data : Bytes}

/-- What opens is what was sealed. -/
theorem decrypt_eq_some : log.decrypt key nonce aad ct = some data ↔
    ⟨key, nonce, aad, data⟩ ∈ log.sealings ∧
      cipher.encrypt key nonce aad data = ct := by
  rw [decrypt, Option.map_eq_some_iff]
  constructor
  · rintro ⟨s, found, rfl⟩
    have here := List.find?_some found
    rw [decide_eq_true_eq] at here
    obtain ⟨rfl, rfl, rfl, sealed⟩ := here
    exact ⟨List.mem_of_find?_eq_some found, sealed⟩
  · rintro ⟨mem, sealed⟩
    cases found : log.sealings.find? fun s =>
        s.key = key ∧ s.nonce = nonce ∧ s.aad = aad ∧ cipher.seal s = ct with
    | none =>
        have missing := List.find?_eq_none.mp found _ mem
        exact absurd (decide_eq_true ⟨rfl, rfl, rfl, sealed⟩) missing
    | some s =>
        have here := List.find?_some found
        rw [decide_eq_true_eq] at here
        obtain ⟨-, sameNonce, -, same⟩ := here
        have only := log.unique s (List.mem_of_find?_eq_some found) _ mem
          sameNonce (same.trans sealed.symm)
        exact ⟨s, rfl, by rw [only]⟩

/-- Under another key or other associated data, nothing opens that was sealed. -/
theorem decrypt_other {s : Sealing Key} (mem : s ∈ log.sealings)
    (other : key ≠ s.key ∨ aad ≠ s.aad) :
    log.decrypt key s.nonce aad (cipher.seal s) = none := by
  rw [Option.eq_none_iff_forall_ne_some]
  intro data opened
  obtain ⟨there, same⟩ := decrypt_eq_some.mp opened
  have only := log.unique _ there s mem rfl same
  rcases other with other | other
  · exact other (congrArg Sealing.key only)
  · exact other (congrArg Sealing.aad only)

end Sealed

end Brook.Aead
