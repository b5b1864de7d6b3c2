import Mathlib.Algebra.Group.Nat.Defs
import Mathlib.Data.Nat.Basic

namespace Brook.Preview

/-! Reading bytes by their place.  A read through `get` gives up past the end; an index,
a slice or an addition that does not fit is a fault, and so is a loop without end. -/

inductive Fault where
  | outOfRange
  | overflow
  | endless
deriving DecidableEq

/-- What a scan comes to: an answer, none (`?` on `None`), or a fault. -/
inductive Scan (α : Type) where
  | answer (value : α)
  | refused
  | fault (why : Fault)
deriving DecidableEq

namespace Scan

variable {α β : Type}

def bind (scan : Scan α) (next : α → Scan β) : Scan β :=
  match scan with
  | .answer value => next value
  | .refused => .refused
  | .fault why => .fault why

instance : Monad Scan where
  pure := .answer
  bind := Scan.bind

@[simp] theorem pure_eq (value : α) : (pure value : Scan α) = .answer value := rfl

@[simp] theorem answer_bind (value : α) (next : α → Scan β) :
    (Scan.answer value >>= next) = next value := rfl

@[simp] theorem refused_bind (next : α → Scan β) : ((.refused : Scan α) >>= next) = .refused := rfl

@[simp] theorem fault_bind (why : Fault) (next : α → Scan β) :
    ((.fault why : Scan α) >>= next) = .fault why := rfl

def ofOption : Option α → Scan α
  | some value => .answer value
  | none => .refused

/-- No read out of range, no overflow, no endless loop. -/
def Sound (scan : Scan α) : Prop := ∀ why, scan ≠ .fault why

/-- The scan has no fault, and an answer of it is as `good` says. -/
structure Yields (scan : Scan α) (good : α → Prop) : Prop where
  sound : scan.Sound
  answers : ∀ {value}, scan = .answer value → good value

variable {scan : Scan α} {good : α → Prop} {next : α → Scan β} {fine : β → Prop}

theorem yields_answer {value : α} (holds : good value) : (Scan.answer value).Yields good where
  sound := fun _ faulted => nomatch faulted
  answers same := by
    cases same
    exact holds

theorem yields_refused : (Scan.refused : Scan α).Yields good where
  sound := fun _ faulted => nomatch faulted
  answers same := nomatch same

theorem Yields.bind (first : scan.Yields good) (rest : ∀ value, good value → (next value).Yields fine) :
    (scan >>= next).Yields fine := by
  cases scan with
  | answer value => exact rest value (first.answers rfl)
  | refused => exact yields_refused
  | fault why => exact (first.sound why rfl).elim

theorem Yields.imp {weaker : α → Prop} (yields : scan.Yields good)
    (implies : ∀ value, good value → weaker value) : scan.Yields weaker :=
  ⟨yields.sound, fun same => implies _ (yields.answers same)⟩

theorem yields_ofOption (found : Option α) :
    (Scan.ofOption found).Yields fun value => found = some value := by
  cases found with
  | none => exact yields_refused
  | some value => exact yields_answer rfl

end Scan

/-- `n` bytes from a place on. -/
def field (b : List UInt8) (at_byte n : Nat) : Option (List UInt8) :=
  if at_byte + n ≤ b.length then some ((b.drop at_byte).take n) else none

/-- `from_be_bytes`. -/
def bigEndian (bytes : List UInt8) : Nat :=
  bytes.foldl (fun value byte => value * 256 + byte.toNat) 0

/-- `from_le_bytes`. -/
def littleEndian (bytes : List UInt8) : Nat :=
  bytes.foldr (fun byte value => byte.toNat + 256 * value) 0

/-- `b.get(i)?` -/
def get (b : List UInt8) (i : Nat) : Scan UInt8 := .ofOption b[i]?

/-- `b[i]` -/
def index (b : List UInt8) (i : Nat) : Scan UInt8 :=
  match b[i]? with
  | some byte => .answer byte
  | none => .fault .outOfRange

/-- `b.get(start..stop)?` -/
def getRange (b : List UInt8) (start stop : Nat) : Scan (List UInt8) :=
  if start ≤ stop then .ofOption (field b start (stop - start)) else .refused

/-- `&b[start..stop]` -/
def slice (b : List UInt8) (start stop : Nat) : Scan (List UInt8) :=
  if start ≤ stop ∧ stop ≤ b.length then .answer ((b.drop start).take (stop - start))
  else .fault .outOfRange

/-- An addition of unsigned numbers below `limit`. -/
def add (limit a b : Nat) : Scan Nat :=
  if a + b < limit then .answer (a + b) else .fault .overflow

section

variable {b : List UInt8} {i n limit : Nat}

theorem add_eq {a c : Nat} (fits : a + c < limit) : add limit a c = .answer (a + c) := if_pos fits

theorem yields_get (b : List UInt8) (i : Nat) :
    (get b i).Yields fun byte => b[i]? = some byte := Scan.yields_ofOption _

theorem inside_of_get {byte : UInt8} (found : b[i]? = some byte) : i < b.length :=
  (List.getElem?_eq_some_iff.mp found).1

theorem getRange_add (b : List UInt8) (i n : Nat) :
    getRange b i (i + n) = .ofOption (field b i n) := by
  rw [getRange, if_pos (Nat.le_add_right i n), Nat.add_sub_cancel_left]

theorem field_length {bytes : List UInt8} (found : field b i n = some bytes) :
    bytes.length = n := by
  rw [field] at found
  split at found
  case isTrue inside =>
    cases found
    rw [List.length_take, List.length_drop]
    omega
  case isFalse => cases found

end

end Brook.Preview
