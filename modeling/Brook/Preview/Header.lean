import Brook.Preview.Scan

namespace Brook.Preview

/-! The kind and the size of an image, as its first bytes state them.  A `usize` is a
number below `word`. -/

/-- Largest file a preview is made of. -/
def previewMaxBytes : Nat := 16 * 1024 * 1024

inductive ImageKind where
  | png
  | jpeg
  | gif
  | webp
deriving DecidableEq

def pngSignature : List UInt8 := [0x89, 0x50, 0x4e, 0x47, 0x0d, 0x0a, 0x1a, 0x0a]
def jpegStart : List UInt8 := [0xff, 0xd8, 0xff]
def gif87a : List UInt8 := [0x47, 0x49, 0x46, 0x38, 0x37, 0x61]
def gif89a : List UInt8 := [0x47, 0x49, 0x46, 0x38, 0x39, 0x61]
def riff : List UInt8 := [0x52, 0x49, 0x46, 0x46]
def webpTag : List UInt8 := [0x57, 0x45, 0x42, 0x50]
def ihdr : List UInt8 := [0x49, 0x48, 0x44, 0x52]
def vp8 : List UInt8 := [0x56, 0x50, 0x38, 0x20]
def vp8l : List UInt8 := [0x56, 0x50, 0x38, 0x4c]
def vp8x : List UInt8 := [0x56, 0x50, 0x38, 0x58]
def keyFrameStart : List UInt8 := [0x9d, 0x01, 0x2a]

/-- `&bytes[..4] == b"RIFF" && &bytes[8..12] == b"WEBP"`, the second slice only after the
first compared equal. -/
def isWebp (b : List UInt8) : Scan Bool := do
  if b.length ≥ 12 then
    if (← slice b 0 4) = riff then
      return decide ((← slice b 8 12) = webpTag)
    else return false
  else return false

/-- The kind of these bytes, if it's one a preview is made of. -/
def sniff (b : List UInt8) : Scan (Option ImageKind) := do
  if pngSignature.isPrefixOf b then return some .png
  else if jpegStart.isPrefixOf b then return some .jpeg
  else if gif87a.isPrefixOf b || gif89a.isPrefixOf b then return some .gif
  else if ← isWebp b then return some .webp
  else return none

section

variable (word : Nat) (b : List UInt8)

def be32 (at_byte : Nat) : Scan Nat := do
  return bigEndian (← getRange b at_byte (← add word at_byte 4))

def be16 (at_byte : Nat) : Scan Nat := do
  return bigEndian (← getRange b at_byte (← add word at_byte 2))

def le16 (at_byte : Nat) : Scan Nat := do
  return littleEndian (← getRange b at_byte (← add word at_byte 2))

def le24 (at_byte : Nat) : Scan Nat := do
  let s ← getRange b at_byte (← add word at_byte 3)
  let low ← index s 0
  let middle ← index s 1
  let high ← index s 2
  return low.toNat ||| middle.toNat <<< 8 ||| high.toNat <<< 16

/-- The sub-blocks of an extension, until a zero-length one. -/
def skipBlocks : Nat → Nat → Scan Nat
  | 0, _ => .fault .endless
  | fuel + 1, i => do
      let len := (← get b i).toNat
      let i ← add word i (1 + len)
      if len = 0 then return i
      else skipBlocks fuel i

/-- The first image descriptor: left, top, width, height. -/
def gifFrame (sw sh i : Nat) : Scan (Nat × Nat) := do
  let left ← le16 word b (← add word i 1)
  let top ← le16 word b (← add word i 3)
  let fw ← le16 word b (← add word i 5)
  let fh ← le16 word b (← add word i 7)
  return (max sw (← add (2 ^ 32) left fw), max sh (← add (2 ^ 32) top fh))

def gifBlocks (sw sh : Nat) : Nat → Nat → Scan (Nat × Nat)
  | 0, _ => .fault .endless
  | fuel + 1, i => do
      let block ← get b i
      if block = 0x21 then
        let i ← add word i 2
        let i ← skipBlocks word b (b.length + 1) i
        gifBlocks sw sh fuel i
      else if block = 0x2c then gifFrame word b sw sh i
      else .refused

/-- The logical screen, grown to hold the first frame where its descriptor places it. -/
def gifDimensions : Scan (Nat × Nat) := do
  let sw ← le16 word b 6
  let sh ← le16 word b 8
  let flags := (← get b 10).toNat
  let i ←
    if flags &&& 0x80 ≠ 0 then add word 13 (3 <<< ((flags &&& 0x07) + 1))
    else pure 13
  gifBlocks word b sw sh (b.length + 1) i

/-- Fill bytes may precede a marker. -/
def skipFill : Nat → Nat → Scan Nat
  | 0, _ => .fault .endless
  | fuel + 1, i => do
      if (← get b i) = 0xff then
        let next ← add word i 1
        if (← get b next) = 0xff then skipFill fuel next
        else return i
      else return i

/-- Markers without a length, as the walk has them. -/
def lengthless (marker : UInt8) : Bool := (0xd0 ≤ marker && marker ≤ 0xd9) || marker = 0x01

/-- SOF0 to SOF15, not DHT, JPG or DAC. -/
def startOfFrame (marker : UInt8) : Bool :=
  0xc0 ≤ marker && marker ≤ 0xcf && marker ≠ 0xc4 && marker ≠ 0xc8 && marker ≠ 0xcc

/-- Length (2), precision (1), height (2), width (2). -/
def jpegFrame (i : Nat) : Scan (Nat × Nat) := do
  let h ← be16 word b (← add word i 5)
  let w ← be16 word b (← add word i 7)
  return (w, h)

def jpegMarkers : Nat → Nat → Scan (Nat × Nat)
  | 0, _ => .fault .endless
  | fuel + 1, i => do
      let i ← skipFill word b (b.length + 1) i
      if (← get b i) ≠ 0xff then .refused
      else
        let marker ← get b (← add word i 1)
        if lengthless marker then
          let i ← add word i 2
          jpegMarkers fuel i
        else if startOfFrame marker then jpegFrame word b i
        else
          let len ← be16 word b (← add word i 2)
          if len < 2 then .refused
          else
            let i ← add word i (2 + len)
            jpegMarkers fuel i

/-- Walk the markers to the first start-of-frame. -/
def jpegDimensions : Scan (Nat × Nat) := jpegMarkers word b (b.length + 1) 2

def pngDimensions : Scan (Nat × Nat) := do
  if (← getRange b 12 16) = ihdr then
    let w ← be32 word b 16
    let h ← be32 word b 20
    return (w, h)
  else .refused

def vp8Dimensions : Scan (Nat × Nat) := do
  if (← getRange b 23 26) = keyFrameStart then
    let w ← le16 word b 26
    let h ← le16 word b 28
    return (w &&& 0x3fff, h &&& 0x3fff)
  else .refused

def vp8lDimensions : Scan (Nat × Nat) := do
  if (← get b 20) = 0x2f then
    let bits := littleEndian (← getRange b 21 25)
    let w ← add (2 ^ 32) (bits &&& 0x3fff) 1
    let h ← add (2 ^ 32) ((bits >>> 14) &&& 0x3fff) 1
    return (w, h)
  else .refused

def vp8xDimensions : Scan (Nat × Nat) := do
  let w ← add (2 ^ 32) (← le24 word b 24) 1
  let h ← add (2 ^ 32) (← le24 word b 27) 1
  return (w, h)

/-- VP8 (lossy), VP8L (lossless) or VP8X (extended) right after the RIFF header. -/
def webpDimensions : Scan (Nat × Nat) := do
  let chunk ← getRange b 12 16
  if chunk = vp8 then vp8Dimensions word b
  else if chunk = vp8l then vp8lDimensions b
  else if chunk = vp8x then vp8xDimensions word b
  else .refused

/-- Width and height as the header states them, if it can be read. -/
def dimensions : ImageKind → Scan (Nat × Nat)
  | .png => pngDimensions word b
  | .gif => gifDimensions word b
  | .jpeg => jpegDimensions word b
  | .webp => webpDimensions word b

end

end Brook.Preview
