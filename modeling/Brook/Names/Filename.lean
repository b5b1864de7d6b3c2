import Mathlib.Data.List.Basic
import Mathlib.Data.List.DropRight

namespace Brook.Names

/-! The name that every client saves an attachment under: six rewriting passes
over the name as typed, and a cap on its length.  The name as typed is a list of
code points, which may be lone surrogates. -/

abbrev Name := List Char

def maxBytes : Nat := 255

def fallback : Name := ['f', 'i', 'l', 'e']

/-- `_CONTROL` -/
def isControl (code : Nat) : Bool :=
  code ≤ 0x1f || (0x7f ≤ code && code ≤ 0x9f)

/-- `_INVISIBLE` -/
def isInvisible (code : Nat) : Bool :=
  (0x200b ≤ code && code ≤ 0x200f) || (0x202a ≤ code && code ≤ 0x202e) ||
    (0x2060 ≤ code && code ≤ 0x2069) || code = 0x061c || code = 0xfeff

/-- `_RESERVED` -/
def reserved : List Char := ['<', '>', ':', '"', '|', '?', '*']

/-- What `\s` matches. -/
def isSpace (c : Char) : Bool :=
  let code := c.toNat
  (9 ≤ code && code ≤ 13) || (28 ≤ code && code ≤ 32) || code = 0x85 ||
    code = 0xa0 || code = 0x1680 || (0x2000 ≤ code && code ≤ 0x200a) ||
    code = 0x2028 || code = 0x2029 || code = 0x202f || code = 0x205f ||
    code = 0x3000

def stripInvisible {α : Type} (code : α → Nat) (name : List α) :
    List α :=
  (name.filter fun c => !isControl (code c)).filter
    fun c => !isInvisible (code c)

/-- `_SPACES.sub(" ", name)`; `after` tells that a run of spaces is under way. -/
def collapse (after : Bool) : Name → Name
  | [] => []
  | c :: rest =>
      if isSpace c then
        if after then collapse true rest else ' ' :: collapse true rest
      else c :: collapse false rest

/-- `name.strip(chars)`, and `name.rstrip(chars)` -/
def strip (chars : Char → Bool) (name : Name) : Name :=
  (name.dropWhile chars).rdropWhile chars

def isEdge (c : Char) : Bool := c = ' ' || c = '.'

/-- `re.split(r"[\\/]", name)[-1]` -/
def lastSegment (name : Name) : Name :=
  (name.splitOnP fun c => c = '\\' || c = '/').getLast?.getD []

/-- The groups of `r"\.+([A-Za-z0-9]{1,16})"` on the whole of a name. -/
def onlyExt (name : Name) : Option Name :=
  let ext := name.dropWhile (· = '.')
  if ext.length < name.length ∧ 1 ≤ ext.length ∧ ext.length ≤ 16 ∧
      ext.all Char.isAlphanum then
    some ext
  else none

def deviceNames : List Name :=
  let ports := ['1', '2', '3', '4', '5', '6', '7', '8', '9']
  [['c', 'o', 'n'], ['p', 'r', 'n'], ['a', 'u', 'x'], ['n', 'u', 'l']] ++
    ports.map (['c', 'o', 'm', ·]) ++ ports.map (['l', 'p', 't', ·])

/-- `r"\s*(\..*)?$"` on what follows a device name.  `.` matches no newline, and
`$` also matches before the last one. -/
def deviceTail (rest : Name) : Bool :=
  match rest.dropWhile isSpace with
  | [] => true
  | c :: ext => c = '.' && !ext.dropLast.contains '\n'

/-- `_DEVICE.match(name)`, without regard to case. -/
def isDevice (name : Name) : Bool :=
  let lower := name.map Char.toLower
  deviceNames.any fun device =>
    device.isPrefixOf lower && deviceTail (lower.drop device.length)

/-- `str.encode`, as the values of the bytes. -/
def encode (name : Name) : List UInt8 := name.flatMap String.utf8EncodeChar

/-- `bytes.decode("ascii", "ignore")` -/
def decodeAscii (bytes : List UInt8) : Name :=
  (bytes.filter (·.toNat < 128)).map fun byte => Char.ofNat byte.toNat

/-- A short alphanumeric part of an extension. -/
def isShort (part : Name) : Bool :=
  1 ≤ part.length && part.length ≤ 8 && part.all Char.isAlphanum

/-- The loop of `_cap`: the parts with the last first, and the parts of the
extension. -/
def popParts : List Name → List Name → List Name × List Name
  | last :: before :: rest, ext =>
      if ext.length < 3 ∧ isShort last then
        popParts (before :: rest) (last :: ext)
      else (last :: before :: rest, ext)
  | parts, ext => (parts, ext)

/-- `"".join(f".{p}" for p in ext_parts)` -/
def dotted (ext : List Name) : Name := ext.flatMap ('.' :: ·)

/-- `_cap` -/
def cap (name : Name) : Name :=
  if (encode name).length ≤ maxBytes then name
  else
    let popped := popParts (name.splitOn '.').reverse []
    let stem := ['.'].intercalate popped.1.reverse
    let suffix := dotted popped.2
    let room := maxBytes - (encode suffix).length
    let kept := (decodeAscii ((encode stem).take room)).rdropWhile isEdge
    (if kept = [] then fallback else kept) ++ suffix

section

variable (nfc : List Nat → List Nat)
variable (anyascii : List Nat → Name)

/-- `safe_filename` up to the collapsed spaces. -/
def tidy (raw : List Nat) : Name :=
  let name := anyascii (stripInvisible id (nfc raw))
  let name := lastSegment (stripInvisible Char.toNat name)
  collapse false (name.map fun c => if c ∈ reserved then '_' else c)

/-- The rest of `safe_filename`. -/
def settle (name : Name) : Name :=
  match onlyExt (strip (· = ' ') name) with
  | some ext => fallback ++ '.' :: ext
  | none =>
      let name := strip isEdge name
      if name = [] then fallback
      else cap (if isDevice name then '_' :: name else name)

def safeFilename (raw : List Nat) : Name := settle (tidy nfc anyascii raw)

end

/-! ### What a safe name is -/

def Ascii (name : Name) : Prop := ∀ c ∈ name, c.toNat < 128

/-- A device name of Windows, perhaps followed by spaces, and by an extension. -/
def DeviceName (name : Name) : Prop :=
  ∃ device ∈ deviceNames, ∃ spaces rest,
    name.map Char.toLower = device ++ List.replicate spaces ' ' ++ rest ∧
      (rest = [] ∨ rest.head? = some '.')

/-- No system takes harm from the name. -/
structure Safe (name : Name) : Prop where
  nonempty : name ≠ []
  ascii : Ascii name
  bytes : (encode name).length ≤ maxBytes
  control : ∀ c ∈ name, isControl c.toNat = false
  separator : ∀ c ∈ name, c ≠ '/' ∧ c ≠ '\\'
  unreserved : ∀ c ∈ name, c ∉ reserved
  first : ∀ c ∈ name.head?, c ≠ ' ' ∧ c ≠ '.'
  last : ∀ c ∈ name.getLast?, c ≠ ' ' ∧ c ≠ '.'
  device : ¬ DeviceName name

end Brook.Names
