import Brook.Limits.Window
import Brook.Table.Basic
import Brook.Transition.Run
import Mathlib.Algebra.Order.Floor.Ring
import Mathlib.Data.Rat.Floor

namespace Brook.Limits

open Transition

universe u v

/-! The budget of second-factor codes of the auth limiter: a bounded table of
the failures of each handle, `code_check` before a code is verified and
`code_failure` after a wrong one. -/

/-- A dict that forgets its least recently used entries; the rows have the most
recently used first. -/
structure BoundedLRU (Key : Type u) (Value : Type v) where
  max : Nat
  data : Table Key Value

namespace BoundedLRU

variable {Key : Type u} {Value : Type v} [DecidableEq Key]

def peek (lru : BoundedLRU Key Value) (key : Key) : Option Value :=
  lru.data.get? key

/-- `get`: the entry, made by `factory` if it is missing, becomes the most
recently used. -/
def get (lru : BoundedLRU Key Value) (factory : Value) (key : Key) :
    Value × BoundedLRU Key Value :=
  match lru.peek key with
  | some value => (value, { lru with data := lru.data.put key value })
  | none =>
      (factory, { lru with
        data :=
          { rows := (lru.data.put key factory).rows.take lru.max
            keysNodup := ((List.take_sublist _ _).map Prod.fst).nodup
              (lru.data.put key factory).keysNodup } })

/-- A write to the stored value itself, which leaves the order as it is. -/
def modify (lru : BoundedLRU Key Value) (key : Key)
    (update : Value → Value) : BoundedLRU Key Value :=
  { lru with
    data := lru.data.mapRows fun other value =>
      if other = key then update value else value }

variable {lru : BoundedLRU Key Value} {key other : Key}

@[simp] theorem peek_modify (update : Value → Value) :
    (lru.modify key update).peek other =
      if other = key then (lru.peek other).map update else lru.peek other := by
  unfold peek modify
  rw [Table.get?_mapRows]
  split
  case isTrue => rfl
  case isFalse => simp

theorem get_fst (factory : Value) :
    (lru.get factory key).1 = (lru.peek key).getD factory := by
  unfold get
  split
  case h_1 held => simp [held]
  case h_2 missing => simp [missing]

/-- A `get` may evict other entries, and does nothing else to them. -/
theorem peek_of_peek_get {factory value : Value} (different : other ≠ key)
    (left : (lru.get factory key).2.peek other = some value) :
    lru.peek other = some value := by
  revert left
  unfold get
  split
  case h_1 =>
    intro left
    rwa [peek, Table.get?_put_ne _ _ different] at left
  case h_2 =>
    intro left
    have mem : (other, value) ∈ (lru.data.put key factory).rows :=
      List.mem_of_mem_take (Table.mem_rows.mpr left)
    rwa [Table.mem_rows, Table.get?_put_ne _ _ different] at mem

end BoundedLRU

abbrev Handle := String

/-- The tunables of the code budget.  `code_check` asks for the last failure of
as many as the budget, so there is a budget. -/
structure LimitConfig where
  codeBudget : Nat := 10
  codeWindow : ℚ := 24 * 3600
  codeSpacing : ℚ := 15 * 60
  codeBudget_pos : 0 < codeBudget
  codeSpacing_pos : 0 < codeSpacing

/-- What `get_limiter` uses. -/
def defaultConfig : LimitConfig where
  codeBudget_pos := by decide
  codeSpacing_pos := by norm_num

/-- `_prune`; the oldest failure comes first. -/
def prune (fails : List ℚ) (cutoff : ℚ) : List ℚ :=
  fails.dropWhile fun time => decide (time ≤ cutoff)

/-- `_ceil` -/
def ceil (seconds : ℚ) : Int := max 1 ⌈seconds⌉

structure AuthLimiter where
  codes : BoundedLRU Handle (List ℚ)
  /-- The last reading of the clock. -/
  now : ℚ
  /-- Every failure that `code_failure` recorded, the last first. -/
  recorded : List (Handle × ℚ)

inductive Action
  /-- `code_check` for an address. -/
  | codeCheck (handle : Handle) (trusted : Bool) (now : ℚ)
  /-- An attempt that passes `code_check`, and whose code is wrong. -/
  | attempt (handle : Handle) (trusted : Bool) (checked failed : ℚ)
  | codeReset (handle : Handle)

namespace AuthLimiter

variable (config : LimitConfig)

/-- `code_check`: the seconds to wait, and the limiter with the failures of the
handle pruned. -/
def codeCheck (limiter : AuthLimiter) (handle : Handle) (trusted : Bool)
    (now : ℚ) : Option Int × AuthLimiter :=
  if trusted then (none, { limiter with now })
  else
    match limiter.codes.peek handle with
    | none | some [] => (none, { limiter with now })
    | some fails =>
        let cutoff := now - config.codeWindow
        let pruned := prune fails cutoff
        let next := { limiter with
          now
          codes := limiter.codes.modify handle (prune · cutoff) }
        if pruned.length < config.codeBudget then (none, next)
        else
          match pruned.getLast? with
          | none => (none, next)
          | some last =>
              let again := last + config.codeSpacing
              (if now < again then some (ceil (again - now)) else none, next)

/-- `code_failure`: whether it crosses the budget. -/
def codeFailure (limiter : AuthLimiter) (handle : Handle) (now : ℚ) :
    Bool × AuthLimiter :=
  let (fails, codes) := limiter.codes.get [] handle
  let appended := prune fails (now - config.codeWindow) ++ [now]
  (appended.length = config.codeBudget,
    { now
      codes := codes.modify handle fun _ => appended
      recorded := (handle, now) :: limiter.recorded })

def codeReset (limiter : AuthLimiter) (handle : Handle) : AuthLimiter :=
  { limiter with codes := limiter.codes.modify handle fun _ => [] }

def start (max : Nat) (now : ℚ) : AuthLimiter := ⟨⟨max, ∅⟩, now, []⟩

/-- The failures recorded for a handle, the last first. -/
def failures (limiter : AuthLimiter) (handle : Handle) : List ℚ :=
  limiter.recorded.filterMap fun entry =>
    if entry.1 = handle then some entry.2 else none

/-- The failures that the limiter still has for a handle, the oldest first. -/
def fails (limiter : AuthLimiter) (handle : Handle) : List ℚ :=
  (limiter.codes.peek handle).getD []

end AuthLimiter

def limiterStep (config : LimitConfig) (limiter : AuthLimiter) :
    Action → Option AuthLimiter
  | .codeCheck handle trusted now =>
      if limiter.now ≤ now then
        some (limiter.codeCheck config handle trusted now).2
      else none
  | .attempt handle trusted checked failed =>
      if limiter.now ≤ checked ∧ checked ≤ failed then
        match limiter.codeCheck config handle trusted checked with
        | (none, next) => some (next.codeFailure config handle failed).2
        | (some _, _) => none
      else none
  | .codeReset handle => some (limiter.codeReset handle)

/-- The handle is tried only from untrusted addresses, is not reset, and its
entry is not evicted. -/
def Counted (config : LimitConfig) (handle : Handle) (limiter : AuthLimiter)
    (action : Action) : Prop :=
  (∀ checked failed, action ≠ .attempt handle true checked failed) ∧
    action ≠ .codeReset handle ∧
    ∀ next, limiterStep config limiter action = some next →
      ((limiter.codes.peek handle).isSome ∨
        ∃ checked failed, action = .attempt handle false checked failed) →
      (next.codes.peek handle).isSome

end Brook.Limits
