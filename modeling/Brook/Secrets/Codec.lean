import Brook.Aead.Sealed
import Mathlib.Data.Nat.Digits.Lemmas

namespace Brook.Secrets

open Aead

/-! The text forms of a stored secret: base64url without padding, canonical
decimal ids and the usual form of a UUID.  A string is the list of its code
points, so that every string can come in. -/

def text (s : String) : List Nat := s.toList.map Char.toNat

/-- What the code and the functions that it calls can raise. -/
inductive Reason
  | malformed
  | unknownVersion
  | unknownKeyId
  | invalidTag
  | missingRing

inductive Raised
  | decryptError (reason : Reason)
  | keyringError
  | valueError
  | binasciiError
  | unicodeDecodeError
  | invalidTag

/-! ### base64url -/

def b64Char (sextet : Nat) : Nat :=
  if sextet < 26 then sextet + 65
  else if sextet < 52 then sextet + 71
  else if sextet < 62 then sextet - 4
  else if sextet = 62 then 45
  else 95

def b64Value (c : Nat) : Option Nat :=
  if 65 ≤ c ∧ c ≤ 90 then some (c - 65)
  else if 97 ≤ c ∧ c ≤ 122 then some (c - 71)
  else if 48 ≤ c ∧ c ≤ 57 then some (c + 4)
  else if c = 45 then some 62
  else if c = 95 then some 63
  else none

/-- The six-bit groups of the bytes, the last one filled up with zeros. -/
def sextets : Bytes → List Nat
  | [] => []
  | [a] => [a.toNat / 4, a.toNat % 4 * 16]
  | [a, b] =>
      [a.toNat / 4, a.toNat % 4 * 16 + b.toNat / 16, b.toNat % 16 * 4]
  | a :: b :: c :: rest =>
      a.toNat / 4 :: (a.toNat % 4 * 16 + b.toNat / 16) ::
        (b.toNat % 16 * 4 + c.toNat / 64) :: c.toNat % 64 :: sextets rest

/-- `_b64e` -/
def b64e (bytes : Bytes) : List Nat := (sextets bytes).map b64Char

/-- The bytes of the groups.  The bits that fill up the last group are not
looked at; a single group left over is refused. -/
def ofSextets : List Nat → Except Raised Bytes
  | [] => .ok []
  | [_] => .error .binasciiError
  | [a, b] => .ok [UInt8.ofNat (a * 4 + b / 16)]
  | [a, b, c] =>
      .ok [UInt8.ofNat (a * 4 + b / 16), UInt8.ofNat (b % 16 * 16 + c / 4)]
  | a :: b :: c :: d :: rest =>
      (ofSextets rest).map fun more =>
        UInt8.ofNat (a * 4 + b / 16) :: UInt8.ofNat (b % 16 * 16 + c / 4) ::
          UInt8.ofNat (c % 4 * 64 + d) :: more

/-- `_b64d` -/
def b64d (chars : List Nat) : Except Raised Bytes :=
  if chars = [] ∨ chars.any (fun c => (b64Value c).isNone) then
    .error .valueError
  else ofSextets (chars.filterMap b64Value)

theorem b64Value_b64Char {sextet : Nat} (small : sextet < 64) :
    b64Value (b64Char sextet) = some sextet := by
  unfold b64Char b64Value
  grind

theorem sextets_small (bytes : Bytes) : ∀ s ∈ sextets bytes, s < 64 := by
  fun_induction sextets bytes with
  | case1 => simp
  | case2 a =>
      have := a.toNat_lt
      simp only [List.mem_cons, List.not_mem_nil, or_false]
      omega
  | case3 a b =>
      have := a.toNat_lt
      have := b.toNat_lt
      simp only [List.mem_cons, List.not_mem_nil, or_false]
      omega
  | case4 a b c rest ih =>
      have := a.toNat_lt
      have := b.toNat_lt
      have := c.toNat_lt
      intro s mem
      simp only [List.mem_cons] at mem
      rcases mem with rfl | rfl | rfl | rfl | later
      · omega
      · omega
      · omega
      · omega
      · exact ih s later

theorem ofNat_toNat {a : UInt8} {n : Nat} (same : n = a.toNat) :
    UInt8.ofNat n = a := by
  rw [same]
  exact UInt8.ofNat_toNat

theorem ofSextets_sextets (bytes : Bytes) :
    ofSextets (sextets bytes) = .ok bytes := by
  fun_induction sextets bytes with
  | case1 => rfl
  | case2 a =>
      have := a.toNat_lt
      rw [ofSextets, ofNat_toNat (a := a) (by omega)]
  | case3 a b =>
      have := a.toNat_lt
      have := b.toNat_lt
      rw [ofSextets, ofNat_toNat (a := a) (by omega),
        ofNat_toNat (a := b) (by omega)]
  | case4 a b c rest ih =>
      have := a.toNat_lt
      have := b.toNat_lt
      have := c.toNat_lt
      rw [ofSextets, ih, ofNat_toNat (a := a) (by omega),
        ofNat_toNat (a := b) (by omega), ofNat_toNat (a := c) (by omega)]
      rfl

theorem b64d_b64e {bytes : Bytes} (some_byte : bytes ≠ []) :
    b64d (b64e bytes) = .ok bytes := by
  have small := sextets_small bytes
  have values : (b64e bytes).filterMap b64Value = sextets bytes := by
    rw [b64e, List.filterMap_map]
    conv_rhs => rw [← List.filterMap_some (l := sextets bytes)]
    apply List.filterMap_congr
    intro s mem
    exact b64Value_b64Char (small s mem)
  have chars : ¬ (b64e bytes = [] ∨
      (b64e bytes).any (fun c => (b64Value c).isNone) = true) := by
    rintro (empty | other)
    · rw [b64e, List.map_eq_nil_iff] at empty
      have decoded := ofSextets_sextets bytes
      rw [empty] at decoded
      exact some_byte (Except.ok.inj decoded).symm
    · obtain ⟨c, mem, bad⟩ := List.any_eq_true.mp other
      obtain ⟨s, inside, rfl⟩ := List.mem_map.mp mem
      rw [b64Value_b64Char (small s inside)] at bad
      cases bad
  rw [b64d, if_neg chars, values, ofSextets_sextets]

theorem length_b64e (bytes : Bytes) :
    (b64e bytes).length = (bytes.length * 4 + 2) / 3 := by
  rw [b64e, List.length_map]
  fun_induction sextets bytes with
  | case1 => rfl
  | case2 => simp
  | case3 => simp
  | case4 a b c rest ih =>
      simp only [List.length_cons, ih]
      omega

/-- What decodes: its length, and that of what it decodes to. -/
theorem ofSextets_cases (values : List Nat) :
    (values.length % 4 = 1 ∧ ofSextets values = .error .binasciiError) ∨
      values.length % 4 ≠ 1 ∧ ∃ bytes, ofSextets values = .ok bytes ∧
        bytes.length = values.length * 3 / 4 := by
  fun_induction ofSextets values with
  | case1 => exact Or.inr ⟨by decide, [], rfl, rfl⟩
  | case2 => exact Or.inl ⟨rfl, rfl⟩
  | case3 => exact Or.inr ⟨by simp, _, rfl, by simp⟩
  | case4 => exact Or.inr ⟨by simp, _, rfl, by simp⟩
  | case5 a b c d rest ih =>
      rcases ih with ⟨single, refused⟩ | ⟨whole, bytes, decoded, length⟩
      · left
        rw [refused]
        exact ⟨by simp only [List.length_cons]; omega, rfl⟩
      · right
        rw [decoded]
        refine ⟨by simp only [List.length_cons]; omega, _, rfl, ?_⟩
        simp only [List.length_cons, length]
        omega

/-- `_b64d` raises a `ValueError`, of which `binascii.Error` is one, exactly
where the text is not base64url. -/
theorem b64d_cases (chars : List Nat) :
    ((∃ bytes, b64d chars = .ok bytes ∧ bytes.length = chars.length * 3 / 4) ∧
        chars ≠ [] ∧ (∀ c ∈ chars, (b64Value c).isSome) ∧
          chars.length % 4 ≠ 1) ∨
      (b64d chars = .error .valueError ∨ b64d chars = .error .binasciiError) ∧
        ¬ (chars ≠ [] ∧ (∀ c ∈ chars, (b64Value c).isSome) ∧
          chars.length % 4 ≠ 1) := by
  unfold b64d
  split
  case isTrue bad =>
    refine Or.inr ⟨Or.inl rfl, ?_⟩
    rintro ⟨some_char, alphabet, -⟩
    rcases bad with empty | other
    · exact some_char empty
    · obtain ⟨c, mem, bad⟩ := List.any_eq_true.mp other
      have := alphabet c mem
      rw [Option.isNone_iff_eq_none] at bad
      rw [bad] at this
      cases this
  case isFalse good =>
    rw [not_or] at good
    have alphabet : ∀ c ∈ chars, (b64Value c).isSome = true := by
      intro c mem
      rw [Option.isSome_iff_ne_none]
      intro bad
      exact good.2 (List.any_eq_true.mpr ⟨c, mem, by rw [bad]; rfl⟩)
    have length : (chars.filterMap b64Value).length = chars.length := by
      have counts := List.length_filterMap_eq_countP (f := b64Value) (l := chars)
      rw [counts, List.countP_eq_length]
      exact alphabet
    rcases ofSextets_cases (chars.filterMap b64Value) with
      ⟨single, refused⟩ | ⟨whole, bytes, decoded, size⟩
    · refine Or.inr ⟨Or.inr refused, ?_⟩
      rintro ⟨-, -, other⟩
      exact other (length ▸ single)
    · exact Or.inl ⟨⟨bytes, decoded, by rw [size, length]⟩, good.1, alphabet,
        length ▸ whole⟩

/-! ### Decimal ids -/

/-- How an id is formatted. -/
def decimal (n : Nat) : List Nat :=
  if n = 0 then [48] else (Nat.digits 10 n).reverse.map (· + 48)

/-- `int` of ASCII digits, which refuses texts that are longer than 4300. -/
def toInt (digits : List Nat) : Except Raised Nat :=
  if 4300 < digits.length then .error .valueError
  else .ok (digits.foldl (fun n c => n * 10 + (c - 48)) 0)

def isDigit (c : Nat) : Bool := 48 ≤ c && c ≤ 57

def maxKeyIdDigits : Nat := 10

/-- `_key_id` -/
def keyId (digits : List Nat) : Except Raised (Option Nat) :=
  if ¬ (1 ≤ digits.length ∧ digits.length ≤ maxKeyIdDigits) ∨
      ¬ digits.all isDigit then
    .ok none
  else if 1 < digits.length ∧ digits.head? = some 48 then .ok none
  else (toInt digits).map some

theorem foldl_reverse_digits (digits : List Nat) :
    (digits.reverse.map (· + 48)).foldl (fun n c => n * 10 + (c - 48)) 0 =
      Nat.ofDigits 10 digits := by
  rw [List.foldl_map, List.foldl_reverse, Nat.ofDigits_eq_foldr]
  congr 1
  funext d n
  simp only [Nat.add_sub_cancel, Nat.cast_id]
  omega

theorem decimal_isDigit (n : Nat) : ∀ c ∈ decimal n, isDigit c = true := by
  intro c mem
  unfold decimal at mem
  split at mem
  case isTrue =>
    rw [List.mem_singleton] at mem
    subst mem
    rfl
  case isFalse =>
    obtain ⟨d, inside, rfl⟩ := List.mem_map.mp mem
    have := Nat.digits_lt_base (by decide) (List.mem_reverse.mp inside)
    simp only [isDigit, Bool.and_eq_true, decide_eq_true_eq]
    omega

theorem decimal_length {n : Nat} (small : n < 10 ^ 10) :
    1 ≤ (decimal n).length ∧ (decimal n).length ≤ maxKeyIdDigits := by
  unfold decimal
  split
  case isTrue => decide
  case isFalse some_digit =>
    rw [List.length_map, List.length_reverse]
    constructor
    · exact List.length_pos_iff.mpr (Nat.digits_ne_nil_iff_ne_zero.mpr some_digit)
    · exact (Nat.digits_length_le_iff (by decide) n).mpr small

/-- Ids of at most ten digits are read as they were written. -/
theorem keyId_decimal {n : Nat} (small : n < 10 ^ 10) :
    keyId (decimal n) = .ok (some n) := by
  obtain ⟨some_char, few⟩ := decimal_length small
  have digits : (decimal n).all isDigit = true :=
    List.all_eq_true.mpr (decimal_isDigit n)
  have unpadded : ¬ (1 < (decimal n).length ∧ (decimal n).head? = some 48) := by
    unfold decimal
    split
    case isTrue => simp
    case isFalse some_digit =>
      rintro ⟨-, zero⟩
      rw [List.head?_map, List.head?_reverse, Option.map_eq_some_iff] at zero
      obtain ⟨d, last, same⟩ := zero
      have nonempty : Nat.digits 10 n ≠ [] :=
        Nat.digits_ne_nil_iff_ne_zero.mpr some_digit
      rw [List.getLast?_eq_some_getLast nonempty, Option.some.injEq] at last
      have := Nat.getLast_digit_ne_zero 10 some_digit
      omega
  have short : ¬ 4300 < (decimal n).length := by
    rw [maxKeyIdDigits] at few
    omega
  have number : (decimal n).foldl (fun n c => n * 10 + (c - 48)) 0 = n := by
    unfold decimal
    split
    case isTrue zero => exact zero.symm
    case isFalse =>
      rw [foldl_reverse_digits, Nat.ofDigits_digits]
  rw [keyId, if_neg, if_neg unpadded, toInt, if_neg short, number]
  · rfl
  · simp only [digits, not_true_eq_false, or_false, not_not]
    exact ⟨some_char, few⟩

/-- Digits without a leading zero are how some number is written. -/
theorem exists_decimal {digits : List Nat} (some_char : 1 ≤ digits.length)
    (each : ∀ c ∈ digits, isDigit c = true)
    (unpadded : ¬ (1 < digits.length ∧ digits.head? = some 48)) :
    ∃ n, digits = decimal n := by
  have bounds : ∀ c ∈ digits, 48 ≤ c ∧ c ≤ 57 := by
    intro c mem
    have := each c mem
    simpa [isDigit] using this
  have values : digits = ((digits.map (· - 48)).reverse.reverse).map (· + 48) := by
    rw [List.reverse_reverse, List.map_map]
    conv_lhs => rw [← List.map_id digits]
    apply List.map_congr_left
    intro c mem
    have := bounds c mem
    simp only [id_eq, Function.comp_apply]
    omega
  by_cases zero : digits = [48]
  · exact ⟨0, zero⟩
  · have low : ∀ d ∈ (digits.map (· - 48)).reverse, d < 10 := by
      intro d mem
      obtain ⟨c, inside, rfl⟩ := List.mem_map.mp (List.mem_reverse.mp mem)
      have := bounds c inside
      omega
    have nonempty : (digits.map (· - 48)).reverse ≠ [] := by
      intro empty
      simp only [List.reverse_eq_nil_iff, List.map_eq_nil_iff] at empty
      simp [empty] at some_char
    have leading : ∀ h : (digits.map (· - 48)).reverse ≠ [],
        (digits.map (· - 48)).reverse.getLast h ≠ 0 := by
      intro h none_left
      have last := List.getLast?_eq_some_getLast h
      rw [none_left, List.getLast?_reverse, List.head?_map,
        Option.map_eq_some_iff] at last
      obtain ⟨c, head, value⟩ := last
      have := bounds c (List.mem_of_mem_head? head)
      have first : c = 48 := by omega
      rw [first] at head
      rcases Nat.lt_or_ge 1 digits.length with many | few
      · exact unpadded ⟨many, head⟩
      · obtain ⟨d, single⟩ := List.length_eq_one_iff.mp (by omega : digits.length = 1)
        rw [single, List.head?_cons, Option.some.injEq] at head
        exact zero (by rw [single, head])
    have read := Nat.digits_ofDigits 10 (by decide) _ low leading
    refine ⟨Nat.ofDigits 10 (digits.map (· - 48)).reverse, ?_⟩
    rw [decimal, if_neg, read]
    · exact values
    · intro none_left
      rw [none_left, Nat.digits_zero] at read
      exact nonempty read.symm

/-- What is read as an id is how that id is written. -/
theorem keyId_cases (digits : List Nat) :
    keyId digits = .ok none ∧ (∀ n, n < 10 ^ 10 → digits ≠ decimal n) ∨
      ∃ n, n < 10 ^ 10 ∧ digits = decimal n ∧ keyId digits = .ok (some n) := by
  have unread : keyId digits = .ok none →
      ∀ n, n < 10 ^ 10 → digits ≠ decimal n := by
    rintro none_read n small rfl
    rw [keyId_decimal small] at none_read
    cases none_read
  by_cases shape : (1 ≤ digits.length ∧ digits.length ≤ maxKeyIdDigits) ∧
      digits.all isDigit = true
  · by_cases padded : 1 < digits.length ∧ digits.head? = some 48
    · have refused : keyId digits = .ok none := by
        rw [keyId, if_neg (by simp [shape]), if_pos padded]
      exact Or.inl ⟨refused, unread refused⟩
    · right
      obtain ⟨n, same⟩ := exists_decimal shape.1.1
        (List.all_eq_true.mp shape.2) padded
      have small : n < 10 ^ 10 := by
        by_contra big
        have length := shape.1.2
        rw [same, decimal, if_neg (by omega), List.length_map,
          List.length_reverse] at length
        exact big ((Nat.digits_length_le_iff (by decide) n).mp length)
      exact ⟨n, small, same, same ▸ keyId_decimal small⟩
  · have refused : keyId digits = .ok none := by
      rw [keyId, if_pos (by rw [← not_and_or]; exact shape)]
    exact Or.inl ⟨refused, unread refused⟩

end Brook.Secrets
