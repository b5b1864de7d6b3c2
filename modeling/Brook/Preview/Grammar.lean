import Brook.Preview.Scan

namespace Brook.Preview

/-! Where the formats keep their sides. -/

/-- A big-endian number of `n` bytes. -/
def big (b : List UInt8) (at_byte n : Nat) : Option Nat := (field b at_byte n).map bigEndian

/-- A little-endian number of `n` bytes. -/
def little (b : List UInt8) (at_byte n : Nat) : Option Nat :=
  (field b at_byte n).map littleEndian

namespace Jpeg

/-- A run of `0xff` and a byte that is not one; `j` is the place after it. -/
inductive CodeAt (b : List UInt8) : Nat → Nat → UInt8 → Prop where
  | code {i : Nat} {marker : UInt8} (last : b[i]? = some 0xff)
      (next : b[i + 1]? = some marker) (other : marker ≠ 0xff) : CodeAt b i (i + 2) marker
  | fill {i j : Nat} {marker : UInt8} (first : b[i]? = some 0xff)
      (rest : CodeAt b (i + 1) j marker) : CodeAt b i j marker

def isEnd (marker : UInt8) : Prop := marker = 0xd9

/-- RST0 to RST7, SOI and TEM. -/
def standsAlone (marker : UInt8) : Prop := (0xd0 ≤ marker ∧ marker ≤ 0xd8) ∨ marker = 0x01

instance (marker : UInt8) : Decidable (standsAlone marker) :=
  inferInstanceAs (Decidable ((_ ∧ _) ∨ _))

/-- SOF0 to SOF15; DHT, JPG and DAC share their range. -/
def isFrame (marker : UInt8) : Prop :=
  0xc0 ≤ marker ∧ marker ≤ 0xcf ∧ marker ≠ 0xc4 ∧ marker ≠ 0xc8 ∧ marker ≠ 0xcc

/-- The sides of a frame header: length (2), precision (1), height (2), width (2). -/
def SidesAt (b : List UInt8) (j : Nat) (sides : Nat × Nat) : Prop :=
  big b (j + 3) 2 = some sides.2 ∧ big b (j + 5) 2 = some sides.1

/-- The first frame header of the markers from a place on. -/
inductive Frame (b : List UInt8) : Nat → Nat × Nat → Prop where
  | alone {i j : Nat} {marker : UInt8} {sides : Nat × Nat} (code : CodeAt b i j marker)
      (stands : standsAlone marker) (rest : Frame b j sides) : Frame b i sides
  | segment {i j length : Nat} {marker : UInt8} {sides : Nat × Nat}
      (code : CodeAt b i j marker) (marks : marker ≠ 0) (going : ¬ isEnd marker)
      (joined : ¬ standsAlone marker) (other : ¬ isFrame marker)
      (stated : big b j 2 = some length) (long : 2 ≤ length)
      (rest : Frame b (j + length) sides) : Frame b i sides
  | header {i j length : Nat} {marker : UInt8} {sides : Nat × Nat}
      (code : CodeAt b i j marker) (frame : isFrame marker)
      (stated : big b j 2 = some length) (long : 2 ≤ length) (read : SidesAt b j sides) :
      Frame b i sides

/-- An image: SOI, and a frame header before EOI. -/
def Sides (b : List UInt8) (sides : Nat × Nat) : Prop :=
  CodeAt b 0 2 0xd8 ∧ Frame b 2 sides

end Jpeg

namespace Gif

/-- Data sub-blocks up to their terminator; `j` is the place after it. -/
inductive SubBlocks (b : List UInt8) : Nat → Nat → Prop where
  | terminator {i : Nat} (last : b[i]? = some 0) : SubBlocks b i (i + 1)
  | block {i j : Nat} {size : UInt8} (stated : b[i]? = some size) (data : size ≠ 0)
      (rest : SubBlocks b (i + 1 + size.toNat) j) : SubBlocks b i j

/-- Extensions, up to the first image descriptor. -/
inductive FirstImage (b : List UInt8) : Nat → Nat → Prop where
  | here {i : Nat} (separator : b[i]? = some 0x2c) : FirstImage b i i
  | extension {i j k : Nat} (introducer : b[i]? = some 0x21) (blocks : SubBlocks b (i + 2) j)
      (rest : FirstImage b j k) : FirstImage b i k

/-- The bytes of the global color table. -/
def colorTable (flags : Nat) : Nat :=
  if flags / 128 % 2 = 1 then 3 * 2 ^ (flags % 8 + 1) else 0

/-- The logical screen, and the first image's place and size on it. -/
def Sides (b : List UInt8) (sides : Nat × Nat) : Prop :=
  ∃ (sw sh i left top fw fh : Nat) (flags : UInt8),
    little b 6 2 = some sw ∧ little b 8 2 = some sh ∧ b[10]? = some flags ∧
    FirstImage b (13 + colorTable flags.toNat) i ∧
    little b (i + 1) 2 = some left ∧ little b (i + 3) 2 = some top ∧
    little b (i + 5) 2 = some fw ∧ little b (i + 7) 2 = some fh ∧
    sides = (max sw (left + fw), max sh (top + fh))

end Gif

/-- The first chunk is IHDR, and its data begins with the sides. -/
def Png.Sides (b : List UInt8) (sides : Nat × Nat) : Prop :=
  field b 12 4 = some [0x49, 0x48, 0x44, 0x52] ∧
    big b 16 4 = some sides.1 ∧ big b 20 4 = some sides.2

namespace Webp

/-- A key frame's tag, its start code, and 14 bits for each side. -/
def LossySides (b : List UInt8) (data : Nat) (sides : Nat × Nat) : Prop :=
  ∃ w h, field b (data + 3) 3 = some [0x9d, 0x01, 0x2a] ∧
    little b (data + 6) 2 = some w ∧ little b (data + 8) 2 = some h ∧
    sides = (w % 2 ^ 14, h % 2 ^ 14)

/-- A signature byte, and 14 bits for each side less one. -/
def LosslessSides (b : List UInt8) (data : Nat) (sides : Nat × Nat) : Prop :=
  ∃ bits, b[data]? = some 0x2f ∧ little b (data + 1) 4 = some bits ∧
    sides = (bits % 2 ^ 14 + 1, bits / 2 ^ 14 % 2 ^ 14 + 1)

/-- Flags, and 24 bits for each side of the canvas less one. -/
def ExtendedSides (b : List UInt8) (data : Nat) (sides : Nat × Nat) : Prop :=
  ∃ w h, little b (data + 4) 3 = some w ∧ little b (data + 7) 3 = some h ∧
    sides = (w + 1, h + 1)

/-- The first chunk after the RIFF header: its name, its length, its data. -/
def Sides (b : List UInt8) (sides : Nat × Nat) : Prop :=
  (field b 12 4 = some [0x56, 0x50, 0x38, 0x20] ∧ LossySides b 20 sides) ∨
  (field b 12 4 = some [0x56, 0x50, 0x38, 0x4c] ∧ LosslessSides b 20 sides) ∨
  (field b 12 4 = some [0x56, 0x50, 0x38, 0x58] ∧ ExtendedSides b 20 sides)

end Webp

end Brook.Preview
