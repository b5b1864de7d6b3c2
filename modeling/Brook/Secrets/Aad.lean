import Brook.Secrets.Codec
import Mathlib.Tactic.Ring

namespace Brook.Secrets

open Aead

/-! What a stored secret is bound to: its key id, the column that it belongs to
and the row. -/

def hexDigit (d : Nat) : Nat := if d < 10 then d + 48 else d + 87

/-- The last digits of a number in base 16, as many as asked for. -/
def hex : Nat → Nat → List Nat
  | 0, _ => []
  | width + 1, n => hex width (n / 16) ++ [hexDigit (n % 16)]

structure UUID where
  int : Nat
  small : int < 2 ^ 128
deriving DecidableEq

def UUID.str (row : UUID) : List Nat :=
  let digits := hex 32 row.int
  digits.take 8 ++ 45 :: ((digits.drop 8).take 4 ++ 45 :: ((digits.drop 12).take 4 ++
    45 :: ((digits.drop 16).take 4 ++ 45 :: digits.drop 20)))

inductive Purpose
  | totpSecret
  | botOutboundSecret
deriving DecidableEq

def Purpose.table : Purpose → List Nat
  | .botOutboundSecret => text "bots"
  | .totpSecret => text "totp"

def Purpose.column : Purpose → List Nat
  | .botOutboundSecret => text "outbound_secret_enc"
  | .totpSecret => text "secret"

def aadText (keyId : Nat) (purpose : Purpose) (row : UUID) : List Nat :=
  text "brook.v1|" ++ (decimal keyId ++ 124 :: (purpose.table ++ 124 ::
    (purpose.column ++ 124 :: row.str)))

/-- `_aad` -/
def aad (keyId : Nat) (purpose : Purpose) (row : UUID) : Bytes :=
  (aadText keyId purpose row).map UInt8.ofNat

theorem hexDigit_inj {d e : Nat} (d_small : d < 16) (e_small : e < 16)
    (same : hexDigit d = hexDigit e) : d = e := by
  unfold hexDigit at same
  split at same <;> split at same <;> omega

theorem hex_bounds (width n : Nat) : ∀ c ∈ hex width n, 48 ≤ c ∧ c < 128 := by
  induction width generalizing n with
  | zero => simp [hex]
  | succ width ih =>
      intro c mem
      rw [hex, List.mem_append, List.mem_singleton] at mem
      rcases mem with before | rfl
      · exact ih _ c before
      · have := Nat.mod_lt n (by decide : 0 < 16)
        unfold hexDigit
        split <;> omega

theorem hex_inj {width m n : Nat} (m_small : m < 16 ^ width)
    (n_small : n < 16 ^ width) (same : hex width m = hex width n) : m = n := by
  induction width generalizing m n with
  | zero =>
      rw [Nat.pow_zero] at m_small n_small
      omega
  | succ width ih =>
      rw [hex, hex] at same
      obtain ⟨high, low⟩ := List.append_inj' same rfl
      rw [Nat.pow_succ] at m_small n_small
      have quotients := ih (Nat.div_lt_of_lt_mul (by omega))
        (Nat.div_lt_of_lt_mul (by omega)) high
      have remainders := hexDigit_inj (Nat.mod_lt m (by decide))
        (Nat.mod_lt n (by decide)) (List.cons.inj low).1
      omega

theorem UUID.str_bounds (row : UUID) : ∀ c ∈ row.str, c < 128 := by
  have bounds := hex_bounds 32 row.int
  have part : ∀ i, ∀ c ∈ (hex 32 row.int).drop i, c < 128 :=
    fun i c mem => (bounds c (List.mem_of_mem_drop mem)).2
  intro c mem
  unfold UUID.str at mem
  dsimp only at mem
  simp only [List.mem_append, List.mem_cons] at mem
  rcases mem with first | rfl | second | rfl | third | rfl | fourth | rfl | fifth
  · exact (bounds c (List.mem_of_mem_take first)).2
  · decide
  · exact part _ c (List.mem_of_mem_take second)
  · decide
  · exact part _ c (List.mem_of_mem_take third)
  · decide
  · exact part _ c (List.mem_of_mem_take fourth)
  · decide
  · exact part _ c fifth

/-- The digits of a row id are its text without the dashes. -/
theorem UUID.digits (row : UUID) :
    row.str.filter (fun c => c ≠ 45) = hex 32 row.int := by
  have kept : ∀ part : List Nat, (∀ c ∈ part, c ∈ hex 32 row.int) →
      part.filter (fun c => c ≠ 45) = part := by
    intro part inside
    apply List.filter_eq_self.mpr
    intro c mem
    have := hex_bounds 32 row.int c (inside c mem)
    rw [decide_eq_true_eq]
    omega
  have drops : ∀ i, ∀ c ∈ (hex 32 row.int).drop i, c ∈ hex 32 row.int :=
    fun _ _ mem => List.mem_of_mem_drop mem
  have takes : ∀ i n, ∀ c ∈ ((hex 32 row.int).drop i).take n,
      c ∈ hex 32 row.int :=
    fun i _ c mem => drops i c (List.mem_of_mem_take mem)
  unfold UUID.str
  dsimp only
  simp only [List.filter_append, List.filter_cons_of_neg, ne_eq, not_true_eq_false,
    decide_false, Bool.false_eq_true, not_false_eq_true]
  have whole : ∀ i, ((hex 32 row.int).drop i).take 4 ++
      (hex 32 row.int).drop (i + 4) = (hex 32 row.int).drop i := by
    intro i
    rw [← List.drop_drop, List.take_append_drop]
  rw [kept _ (drops 20), kept _ (takes 16 4), kept _ (takes 12 4),
    kept _ (takes 8 4), kept _ (fun _ mem => List.mem_of_mem_take mem),
    whole 16, whole 12, whole 8, List.take_append_drop]

theorem UUID.str_inj {row row' : UUID} (same : row.str = row'.str) :
    row = row' := by
  have digits := row.digits
  rw [same, row'.digits] at digits
  have small : (2 : Nat) ^ 128 = 16 ^ 32 := by decide
  have ints := hex_inj (small ▸ row'.small) (small ▸ row.small) digits
  cases row
  cases row'
  cases ints
  rfl

theorem decimal_bounds (n : Nat) : ∀ c ∈ decimal n, 48 ≤ c ∧ c ≤ 57 := by
  intro c mem
  have := decimal_isDigit n c mem
  simpa [isDigit] using this

theorem aadText_bounds (keyId : Nat) (purpose : Purpose) (row : UUID) :
    ∀ c ∈ aadText keyId purpose row, c < 128 := by
  intro c mem
  unfold aadText at mem
  simp only [List.mem_append, List.mem_cons] at mem
  have names : ∀ c ∈ text "brook.v1|" ++ purpose.table ++ purpose.column,
      c < 128 := by
    cases purpose <;> decide
  rcases mem with front | id | rfl | table | rfl | column | rfl | row_char
  · exact names c (by simp [front])
  · have := decimal_bounds keyId c id
    omega
  · decide
  · exact names c (by simp [table])
  · decide
  · exact names c (by simp [column])
  · decide
  · exact row.str_bounds c row_char

theorem ascii_inj {a b : List Nat} (a_ascii : ∀ c ∈ a, c < 128)
    (b_ascii : ∀ c ∈ b, c < 128)
    (same : a.map UInt8.ofNat = b.map UInt8.ofNat) : a = b := by
  have back : ∀ s : List Nat, (∀ c ∈ s, c < 128) →
      (s.map UInt8.ofNat).map UInt8.toNat = s := by
    intro s ascii
    rw [List.map_map]
    conv_rhs => rw [← List.map_id s]
    apply List.map_congr_left
    intro c mem
    have := ascii c mem
    exact UInt8.toNat_ofNat_of_lt' (by omega : c < 256)
  rw [← back a a_ascii, same, back b b_ascii]

/-- Two texts with a separator have the same text before its first occurrence. -/
theorem upTo_inj {sep : Nat} {a a' b b' : List Nat} (free : sep ∉ a)
    (free' : sep ∉ a') (same : a ++ sep :: b = a' ++ sep :: b') :
    a = a' ∧ b = b' := by
  induction a generalizing a' with
  | nil =>
      cases a' with
      | nil => exact ⟨rfl, (List.cons.inj same).2⟩
      | cons c rest =>
          obtain ⟨first, -⟩ := List.cons.inj same
          exact absurd (first ▸ List.mem_cons_self) free'
  | cons c rest ih =>
      cases a' with
      | nil =>
          obtain ⟨first, -⟩ := List.cons.inj same
          exact absurd (first ▸ List.mem_cons_self) free
      | cons d rest' =>
          obtain ⟨first, later⟩ := List.cons.inj same
          have := ih (fun mem => free (List.mem_cons_of_mem _ mem))
            (fun mem => free' (List.mem_cons_of_mem _ mem)) later
          exact ⟨by rw [first, this.1], this.2⟩

/-- The three parts are separated by a bar, which only the last can hold. -/
theorem aad_inj {id id' : Nat} {purpose purpose' : Purpose} {row row' : UUID}
    (same : aad id purpose row = aad id' purpose' row') :
    decimal id = decimal id' ∧ purpose = purpose' ∧ row = row' := by
  have texts := ascii_inj (aadText_bounds id purpose row)
    (aadText_bounds id' purpose' row') same
  have ids := List.append_cancel_left texts
  have no_bar : ∀ n, 124 ∉ decimal n := by
    intro n mem
    have := decimal_bounds n 124 mem
    omega
  have names : ∀ p : Purpose, 124 ∉ p.table ∧ 124 ∉ p.column := by
    intro p
    cases p <;> decide
  obtain ⟨sameId, tables⟩ := upTo_inj (no_bar id) (no_bar id') ids
  obtain ⟨sameTable, columns⟩ := upTo_inj (names purpose).1 (names purpose').1 tables
  obtain ⟨-, rows⟩ := upTo_inj (names purpose).2 (names purpose').2 columns
  refine ⟨sameId, ?_, UUID.str_inj rows⟩
  cases purpose <;> cases purpose' <;> revert sameTable <;> decide

end Brook.Secrets
