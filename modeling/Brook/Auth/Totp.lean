import Mathlib.Algebra.Ring.Int.Defs
import Mathlib.Data.List.Basic

namespace Brook.Auth

/-! The pure parts of the second factor: time steps, their codes, and what a
user typed.  A clock is in whole seconds, and a step is an integer. -/

abbrev Secret := Nat

abbrev Text := List Char

def periodS : Int := 30

def digits : Nat := 6

def skewSteps : Int := 1

/-- What is taken from the standard library: the six digits of the HMAC of a
counter, `str.upper` and `str.isspace` of one character. -/
structure Stdlib where
  hotp : Secret → Nat → Text
  upper : Char → Text
  isSpace : Char → Bool

/-- `code_at`; `struct.pack(">Q", step)` raises outside of 64 bits. -/
def codeAt (std : Stdlib) (secret : Secret) (step : Int) : Option Text :=
  if 0 ≤ step ∧ step < 2 ^ 64 then some (std.hotp secret step.toNat) else none

def stepFor (unixTime : Int) : Int := unixTime / periodS

/-- `text.strip().replace(" ", "")` -/
def squeeze (std : Stdlib) (text : Text) : Text :=
  let left := text.dropWhile std.isSpace
  let stripped := (left.reverse.dropWhile std.isSpace).reverse
  stripped.filter (· ≠ ' ')

def isDigits (text : Text) : Bool :=
  text.length = digits && text.all fun char => '0' ≤ char && char ≤ '9'

/-- The steps of the skew window, in the order of the loop. -/
def window (center : Int) : List Int :=
  [center - skewSteps, center, center + skewSteps]

/-- The first step of the window with that code; `none` when a code cannot be
computed. -/
def firstMatch (std : Stdlib) (secret : Secret) (code : Text) :
    List Int → Option (Option Int)
  | [] => some none
  | step :: steps =>
      match codeAt std secret step, firstMatch std secret code steps with
      | some expected, some later =>
          some (if expected = code then some step else later)
      | _, _ => none

/-- `match_step`; the outer `none` is an exception. -/
def matchStep (std : Stdlib) (secret : Secret) (code : Text) (now : Int)
    (lastUsedStep : Option Int) : Option (Option Int) :=
  let code := squeeze std code
  if ¬ isDigits code then some none
  else
    match firstMatch std secret code (window (stepFor now)) with
    | none => none
    | some none => some none
    | some (some matched) =>
        match lastUsedStep with
        | none => some (some matched)
        | some last => some (if matched ≤ last then none else some matched)

theorem firstMatch_mem {std : Stdlib} {secret : Secret} {code : Text}
    {steps : List Int} {matched : Int}
    (found : firstMatch std secret code steps = some (some matched)) :
    matched ∈ steps := by
  induction steps with
  | nil => simp [firstMatch] at found
  | cons step steps ih =>
      simp only [firstMatch] at found
      split at found
      · rename_i expected later _ rest
        rw [Option.some.injEq] at found
        split at found
        · rw [← Option.some.inj found]
          exact List.mem_cons_self
        · rw [found] at rest
          exact List.mem_cons_of_mem _ (ih rest)
      · cases found

/-- An accepted step is near the clock and after the last one. -/
theorem matchStep_accepts {std : Stdlib} {secret : Secret} {code : Text}
    {now : Int} {lastUsedStep : Option Int} {matched : Int}
    (accepted : matchStep std secret code now lastUsedStep =
      some (some matched)) :
    (stepFor now - 1 ≤ matched ∧ matched ≤ stepFor now + 1) ∧
      ∀ last, lastUsedStep = some last → last < matched := by
  simp only [matchStep] at accepted
  split at accepted
  · cases accepted
  · split at accepted
    · cases accepted
    · cases accepted
    · rename_i first found
      have near := firstMatch_mem found
      simp only [window, skewSteps, List.mem_cons, List.not_mem_nil,
        or_false] at near
      split at accepted
      · cases accepted
        exact ⟨by omega, by simp⟩
      · rename_i last
        rw [Option.some.injEq] at accepted
        split at accepted
        · cases accepted
        · cases accepted
          refine ⟨by omega, ?_⟩
          rintro _ ⟨⟩
          omega

/-! ### Recovery codes -/

/-- A recovery code as it is generated: the public lookup and the secret part. -/
structure RecoveryCode where
  lookup : Text
  secret : Text
deriving DecidableEq

def alphabet : Text := "0123456789ABCDEFGHJKMNPQRSTVWXYZ".toList

def lookupLen : Nat := 4

def secretLen : Nat := 16

def recoveryCodeCount : Nat := 10

/-- What a person reads for 0 and 1. -/
def lookalike (char : Char) : Char :=
  if char = 'O' then '0' else if char = 'I' ∨ char = 'L' then '1' else char

def parseRecoveryCode (std : Stdlib) (text : Text) : Option RecoveryCode :=
  let cleaned :=
    ((text.flatMap std.upper).filter fun char => char ≠ '-' ∧ char ≠ ' ').map
      lookalike
  if cleaned.length ≠ lookupLen + secretLen ∨ ¬ cleaned.all (· ∈ alphabet) then
    none
  else some ⟨cleaned.take lookupLen, cleaned.drop lookupLen⟩

end Brook.Auth
