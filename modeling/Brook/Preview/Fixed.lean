import Brook.Preview.Header
import Brook.Preview.Grammar
import Mathlib.Data.Nat.Bitwise

namespace Brook.Preview

/-! The formats whose sides stand at a fixed place, and GIF. -/

section

variable {word : Nat} {b : List UInt8} {i : Nat}

theorem be16_eq (fits : i + 2 < word) : be16 word b i = .ofOption (big b i 2) := by
  rw [be16, add_eq fits, Scan.answer_bind, getRange_add, big]
  cases field b i 2 <;> rfl

theorem be32_eq (fits : i + 4 < word) : be32 word b i = .ofOption (big b i 4) := by
  rw [be32, add_eq fits, Scan.answer_bind, getRange_add, big]
  cases field b i 4 <;> rfl

theorem le16_eq (fits : i + 2 < word) : le16 word b i = .ofOption (little b i 2) := by
  rw [le16, add_eq fits, Scan.answer_bind, getRange_add, little]
  cases field b i 2 <;> rfl

theorem or_bytes (low middle high : UInt8) :
    low.toNat ||| middle.toNat <<< 8 ||| high.toNat <<< 16 =
      littleEndian [low, middle, high] := by
  have low_lt := low.toNat_lt
  have middle_lt := middle.toNat_lt
  have first : low.toNat ||| middle.toNat <<< 8 = middle.toNat <<< 8 + low.toNat := by
    rw [Nat.or_comm]
    exact (Nat.shiftLeft_add_eq_or_of_lt low_lt middle.toNat).symm
  have small : middle.toNat <<< 8 + low.toNat < 2 ^ 16 := by
    rw [Nat.shiftLeft_eq]
    omega
  rw [first, Nat.or_comm, ← Nat.shiftLeft_add_eq_or_of_lt small, Nat.shiftLeft_eq,
    Nat.shiftLeft_eq]
  simp only [littleEndian, List.foldr_cons, List.foldr_nil]
  omega

theorem le24_eq (fits : i + 3 < word) : le24 word b i = .ofOption (little b i 3) := by
  rw [le24, add_eq fits, Scan.answer_bind, getRange_add, little]
  cases found : field b i 3 with
  | none => rfl
  | some bytes =>
      have three := field_length found
      match bytes, three with
      | [low, middle, high], _ =>
          simp only [Scan.ofOption, Scan.answer_bind, index, List.getElem?_cons_zero,
            List.getElem?_cons_succ, Scan.pure_eq, Option.map_some, Scan.answer.injEq]
          exact or_bytes low middle high

theorem yields_add {limit a c : Nat} (fits : a + c < limit) :
    (add limit a c).Yields fun sum => sum = a + c := by
  rw [add_eq fits]
  exact Scan.yields_answer rfl

theorem yields_be32 (fits : i + 4 < word) :
    (be32 word b i).Yields fun value => big b i 4 = some value := by
  rw [be32_eq fits]
  exact Scan.yields_ofOption _

theorem yields_le16 (fits : i + 2 < word) :
    (le16 word b i).Yields fun value => little b i 2 = some value := by
  rw [le16_eq fits]
  exact Scan.yields_ofOption _

theorem yields_le24 (fits : i + 3 < word) :
    (le24 word b i).Yields fun value => little b i 3 = some value := by
  rw [le24_eq fits]
  exact Scan.yields_ofOption _

theorem pngDimensions_yields (room : 2 ^ 10 ≤ word) :
    (pngDimensions word b).Yields (Png.Sides b) := by
  rw [pngDimensions, show (16 : Nat) = 12 + 4 from rfl, getRange_add]
  refine (Scan.yields_ofOption _).bind fun chunk named => ?_
  split
  case isTrue is_ihdr =>
    refine (yields_be32 (by omega)).bind fun w width => ?_
    refine (yields_be32 (by omega)).bind fun h height => ?_
    exact Scan.yields_answer ⟨named.trans (congrArg some is_ihdr), width, height⟩
  case isFalse => exact Scan.yields_refused

theorem vp8Dimensions_yields (room : 2 ^ 10 ≤ word) :
    (vp8Dimensions word b).Yields (Webp.LossySides b 20) := by
  rw [vp8Dimensions, show (26 : Nat) = 23 + 3 from rfl, getRange_add]
  refine (Scan.yields_ofOption _).bind fun code started => ?_
  split
  case isTrue is_start =>
    refine (yields_le16 (by omega)).bind fun w width => ?_
    refine (yields_le16 (by omega)).bind fun h height => ?_
    refine Scan.yields_answer ⟨w, h, started.trans (congrArg some is_start), width, height, ?_⟩
    rw [show (0x3fff : Nat) = 2 ^ 14 - 1 from rfl, Nat.and_two_pow_sub_one_eq_mod,
      Nat.and_two_pow_sub_one_eq_mod]
  case isFalse => exact Scan.yields_refused

theorem vp8lDimensions_yields : (vp8lDimensions b).Yields (Webp.LosslessSides b 20) := by
  rw [vp8lDimensions, show (25 : Nat) = 21 + 4 from rfl, getRange_add]
  refine (yields_get b 20).bind fun signature found => ?_
  split
  case isTrue is_signature =>
    refine (Scan.yields_ofOption _).bind fun bytes read => ?_
    dsimp only
    rw [show (0x3fff : Nat) = 2 ^ 14 - 1 from rfl, Nat.and_two_pow_sub_one_eq_mod,
      Nat.and_two_pow_sub_one_eq_mod, Nat.shiftRight_eq_div_pow]
    refine (yields_add (by omega)).bind fun w width => ?_
    refine (yields_add (by omega)).bind fun h height => ?_
    rw [is_signature] at found
    refine Scan.yields_answer ⟨_, found, ?_, Prod.ext width height⟩
    rw [little, read, Option.map_some]
  case isFalse => exact Scan.yields_refused

theorem littleEndian_lt : ∀ bytes : List UInt8, littleEndian bytes < 256 ^ bytes.length
  | [] => by simp [littleEndian]
  | byte :: rest => by
      have rest_lt := littleEndian_lt rest
      have byte_lt := byte.toNat_lt
      simp only [littleEndian, List.foldr_cons, List.length_cons, Nat.pow_succ] at rest_lt ⊢
      omega

theorem little_lt {n value : Nat} (read : little b i n = some value) : value < 256 ^ n := by
  obtain ⟨bytes, found, rfl⟩ := Option.map_eq_some_iff.mp read
  rw [← field_length found]
  exact littleEndian_lt bytes

theorem bigEndian_lt (bytes : List UInt8) : bigEndian bytes < 256 ^ bytes.length := by
  have fold : ∀ (bytes : List UInt8) (value : Nat),
      bytes.foldl (fun value byte => value * 256 + byte.toNat) value <
        (value + 1) * 256 ^ bytes.length := by
    intro bytes
    induction bytes with
    | nil => simp
    | cons byte rest ih =>
        intro value
        have byte_lt := byte.toNat_lt
        have step := ih (value * 256 + byte.toNat)
        have grown : (value * 256 + byte.toNat + 1) * 256 ^ rest.length ≤
            (value + 1) * 256 * 256 ^ rest.length :=
          Nat.mul_le_mul_right _ (by omega)
        rw [List.foldl_cons, List.length_cons, Nat.pow_succ, Nat.mul_comm (256 ^ rest.length),
          ← Nat.mul_assoc]
        exact Nat.lt_of_lt_of_le step grown
  have bound := fold bytes 0
  rwa [Nat.zero_add, Nat.one_mul] at bound

theorem big_lt {n value : Nat} (read : big b i n = some value) : value < 256 ^ n := by
  obtain ⟨bytes, found, rfl⟩ := Option.map_eq_some_iff.mp read
  rw [← field_length found]
  exact bigEndian_lt bytes

theorem vp8xDimensions_yields (room : 2 ^ 10 ≤ word) :
    (vp8xDimensions word b).Yields (Webp.ExtendedSides b 20) := by
  rw [vp8xDimensions]
  refine (yields_le24 (by omega)).bind fun w width => ?_
  have w_lt := little_lt width
  refine (yields_add (by omega)).bind fun wide is_wide => ?_
  refine (yields_le24 (by omega)).bind fun h height => ?_
  have h_lt := little_lt height
  refine (yields_add (by omega)).bind fun high is_high => ?_
  exact Scan.yields_answer ⟨w, h, width, height, Prod.ext is_wide is_high⟩

theorem webpDimensions_yields (room : 2 ^ 10 ≤ word) :
    (webpDimensions word b).Yields (Webp.Sides b) := by
  rw [webpDimensions, show (16 : Nat) = 12 + 4 from rfl, getRange_add]
  refine (Scan.yields_ofOption _).bind fun chunk named => ?_
  split
  case isTrue lossy =>
    exact (vp8Dimensions_yields room).imp fun sides holds => .inl ⟨named.trans (congrArg some lossy), holds⟩
  case isFalse =>
    split
    case isTrue lossless =>
      exact vp8lDimensions_yields.imp fun sides holds =>
        .inr (.inl ⟨named.trans (congrArg some lossless), holds⟩)
    case isFalse =>
      split
      case isTrue extended =>
        exact (vp8xDimensions_yields room).imp fun sides holds =>
          .inr (.inr ⟨named.trans (congrArg some extended), holds⟩)
      case isFalse => exact Scan.yields_refused

/-! ### GIF -/

theorem skipBlocks_yields (room : b.length + 2 ^ 10 ≤ word) (fuel : Nat) :
    ∀ {i : Nat}, b.length - i < fuel → (skipBlocks word b fuel i).Yields fun j =>
      Gif.SubBlocks b i j ∧ i < j := by
  induction fuel with
  | zero => exact fun none_left => absurd none_left (Nat.not_lt_zero _)
  | succ fuel ih =>
      intro i enough
      rw [skipBlocks]
      refine (yields_get b i).bind fun size stated => ?_
      have inside := inside_of_get stated
      have small := size.toNat_lt
      refine (yields_add (by omega)).bind fun j moved => ?_
      subst moved
      split
      case isTrue zero =>
        have is_zero : size = 0 := UInt8.toNat_inj.mp zero
        rw [zero]
        rw [is_zero] at stated
        exact Scan.yields_answer ⟨.terminator stated, Nat.lt_succ_self i⟩
      case isFalse some_data =>
        refine (ih (by omega)).imp ?_
        rintro j ⟨blocks, later⟩
        rw [← Nat.add_assoc] at blocks
        exact ⟨.block stated (fun zero => some_data (by rw [zero]; rfl)) blocks, by omega⟩

theorem gifFrame_yields (room : b.length + 2 ^ 10 ≤ word) {sw sh : Nat} (inside : i < b.length) :
    (gifFrame word b sw sh i).Yields fun sides => ∃ left top fw fh,
      little b (i + 1) 2 = some left ∧ little b (i + 3) 2 = some top ∧
      little b (i + 5) 2 = some fw ∧ little b (i + 7) 2 = some fh ∧
      sides = (max sw (left + fw), max sh (top + fh)) := by
  rw [gifFrame, add_eq (by omega), Scan.answer_bind]
  refine (yields_le16 (by omega)).bind fun left is_left => ?_
  rw [add_eq (by omega), Scan.answer_bind]
  refine (yields_le16 (by omega)).bind fun top is_top => ?_
  rw [add_eq (by omega), Scan.answer_bind]
  refine (yields_le16 (by omega)).bind fun fw is_fw => ?_
  rw [add_eq (by omega), Scan.answer_bind]
  refine (yields_le16 (by omega)).bind fun fh is_fh => ?_
  have left_lt := little_lt is_left
  have top_lt := little_lt is_top
  have fw_lt := little_lt is_fw
  have fh_lt := little_lt is_fh
  rw [add_eq (by omega), Scan.answer_bind, add_eq (by omega), Scan.answer_bind]
  exact Scan.yields_answer ⟨left, top, fw, fh, is_left, is_top, is_fw, is_fh, rfl⟩

theorem gifBlocks_yields (room : b.length + 2 ^ 10 ≤ word) {sw sh : Nat} (fuel : Nat) :
    ∀ {i : Nat}, b.length - i < fuel → (gifBlocks word b sw sh fuel i).Yields fun sides =>
      ∃ image left top fw fh, Gif.FirstImage b i image ∧
        little b (image + 1) 2 = some left ∧ little b (image + 3) 2 = some top ∧
        little b (image + 5) 2 = some fw ∧ little b (image + 7) 2 = some fh ∧
        sides = (max sw (left + fw), max sh (top + fh)) := by
  induction fuel with
  | zero => exact fun none_left => absurd none_left (Nat.not_lt_zero _)
  | succ fuel ih =>
      intro i enough
      rw [gifBlocks]
      refine (yields_get b i).bind fun block found => ?_
      have inside := inside_of_get found
      split
      case isTrue extension =>
        rw [extension] at found
        rw [add_eq (by omega), Scan.answer_bind]
        refine (skipBlocks_yields room _ (by omega)).bind ?_
        rintro j ⟨blocks, later⟩
        refine (ih (by omega)).imp ?_
        rintro sides ⟨image, left, top, fw, fh, rest, fields⟩
        exact ⟨image, left, top, fw, fh, .extension found blocks rest, fields⟩
      case isFalse =>
        split
        case isTrue separator =>
          rw [separator] at found
          refine (gifFrame_yields room inside).imp ?_
          rintro sides ⟨left, top, fw, fh, fields⟩
          exact ⟨i, left, top, fw, fh, .here found, fields⟩
        case isFalse => exact Scan.yields_refused

theorem colorTable_eq (flags : UInt8) :
    (if flags.toNat &&& 0x80 ≠ 0 then 3 <<< ((flags.toNat &&& 0x07) + 1) else 0) =
      Gif.colorTable flags.toNat := by
  have bit : (flags.toNat &&& 0x80 ≠ 0) ↔ flags.toNat / 128 % 2 = 1 := by
    rw [show (0x80 : Nat) = 2 ^ 7 from rfl, Nat.and_two_pow, Nat.testBit_eq_decide_div_mod_eq]
    simp
  rw [Gif.colorTable, Nat.shiftLeft_eq, show (0x07 : Nat) = 2 ^ 3 - 1 from rfl,
    Nat.and_two_pow_sub_one_eq_mod]
  simp only [bit]

theorem colorTable_le (flags : Nat) : Gif.colorTable flags ≤ 768 := by
  have bits : flags % 8 + 1 ≤ 8 := by omega
  have power : 2 ^ (flags % 8 + 1) ≤ 2 ^ 8 := Nat.pow_le_pow_right (by omega) bits
  rw [Gif.colorTable]
  split
  · omega
  · omega

theorem gifDimensions_yields (room : b.length + 2 ^ 10 ≤ word) :
    (gifDimensions word b).Yields (Gif.Sides b) := by
  rw [gifDimensions]
  refine (yields_le16 (by omega)).bind fun sw width => ?_
  refine (yields_le16 (by omega)).bind fun sh height => ?_
  refine (yields_get b 10).bind fun flags found => ?_
  have blocks : (gifBlocks word b sw sh (b.length + 1)
      (13 + Gif.colorTable flags.toNat)).Yields (Gif.Sides b) := by
    refine (gifBlocks_yields room _ (by omega)).imp ?_
    rintro sides ⟨image, left, top, fw, fh, first, fields⟩
    exact ⟨sw, sh, image, left, top, fw, fh, flags, width, height, found, first, fields⟩
  have table := colorTable_eq flags
  have small := colorTable_le flags.toNat
  dsimp only
  split
  case isTrue global =>
    rw [if_pos global] at table
    rw [table, add_eq (by omega), Scan.answer_bind]
    exact blocks
  case isFalse own =>
    rw [if_neg own] at table
    rw [← table] at blocks
    exact blocks

end

end Brook.Preview
