import Brook.Limits.Codes
import Mathlib.Data.List.TakeWhile

namespace Brook.Limits

open Transition Window

/-! The failures of a handle are paced: within any window there are no more than
the budget and the spaced ones, and whoever waits as long as it was told is let
through. -/

section Prune

variable {fails : List ℚ} {cutoff : ℚ}

/-- Pruning takes the oldest failures off, none of them after the cutoff. -/
theorem reverse_eq_prune (fails : List ℚ) (cutoff : ℚ) :
    ∃ old, fails.reverse = (prune fails cutoff).reverse ++ old ∧
      ∀ time ∈ old, time ≤ cutoff := by
  refine ⟨(fails.takeWhile fun time => decide (time ≤ cutoff)).reverse, ?_, ?_⟩
  · rw [prune, ← List.reverse_append, List.takeWhile_append_dropWhile]
  · intro time mem
    rw [List.mem_reverse] at mem
    have before := List.mem_takeWhile_imp mem
    exact of_decide_eq_true before

theorem getLast?_prune {last : ℚ}
    (stays : (prune fails cutoff).getLast? = some last) :
    fails.getLast? = some last := by
  obtain ⟨old, split, -⟩ := reverse_eq_prune fails cutoff
  rw [← List.head?_reverse] at stays ⊢
  rw [split, List.head?_append, stays]
  rfl

end Prune

theorem le_ceil (seconds : ℚ) : seconds ≤ (ceil seconds : ℚ) := by
  have above : (⌈seconds⌉ : ℚ) ≤ ((max 1 ⌈seconds⌉ : Int) : ℚ) := by
    exact_mod_cast le_max_right 1 ⌈seconds⌉
  exact le_trans (Int.le_ceil seconds) above

variable {config : LimitConfig} {handle other : Handle}
variable {limiter next : AuthLimiter}

namespace AuthLimiter

/-- The failures that the limiter still has are the newest ones, and those that
it forgot lie before the window. -/
structure Kept (config : LimitConfig) (handle : Handle)
    (limiter : AuthLimiter) : Prop where
  paced : Paced config.codeBudget config.codeWindow config.codeSpacing
    (limiter.failures handle)
  past : ∀ time ∈ limiter.failures handle, time ≤ limiter.now
  forgotten : ∃ old,
    limiter.failures handle = (limiter.fails handle).reverse ++ old ∧
      ∀ time ∈ old, time ≤ limiter.now - config.codeWindow

theorem kept_start (max : Nat) (begun : ℚ) :
    (start max begun).Kept config handle where
  paced := trivial
  past := by simp [start, failures]
  forgotten := ⟨[], rfl, by simp⟩

/-- A step that leaves the failures of the handle alone. -/
theorem Kept.same (kept : limiter.Kept config handle)
    (later : limiter.now ≤ next.now)
    (failures : next.failures handle = limiter.failures handle)
    (fails : next.fails handle = limiter.fails handle) :
    next.Kept config handle where
  paced := failures ▸ kept.paced
  past := fun time mem => le_trans (kept.past time (failures ▸ mem)) later
  forgotten := by
    obtain ⟨old, split, before⟩ := kept.forgotten
    refine ⟨old, by rw [failures, fails, split], fun time mem => ?_⟩
    exact le_trans (before time mem) (sub_le_sub_right later _)

/-- A step that prunes the failures of the handle. -/
theorem Kept.prune (kept : limiter.Kept config handle)
    (later : limiter.now ≤ next.now)
    (failures : next.failures handle = limiter.failures handle)
    (pruned : next.fails handle =
      Limits.prune (limiter.fails handle) (next.now - config.codeWindow)) :
    next.Kept config handle where
  paced := failures ▸ kept.paced
  past := fun time mem => le_trans (kept.past time (failures ▸ mem)) later
  forgotten := by
    obtain ⟨old, split, before⟩ := kept.forgotten
    obtain ⟨cut, left, expired⟩ := reverse_eq_prune (limiter.fails handle)
      (next.now - config.codeWindow)
    refine ⟨cut ++ old, ?_, ?_⟩
    · rw [failures, split, left, pruned, List.append_assoc]
    · intro time mem
      rcases List.mem_append.mp mem with mine | earlier
      · exact expired time mine
      · exact le_trans (before time earlier) (sub_le_sub_right later _)

/-! ### `code_check` -/

@[simp] theorem codeCheck_now (trusted : Bool) (now : ℚ) :
    (limiter.codeCheck config handle trusted now).2.now = now := by
  unfold codeCheck
  dsimp only
  repeat' split
  all_goals rfl

@[simp] theorem codeCheck_recorded (trusted : Bool) (now : ℚ) :
    (limiter.codeCheck config handle trusted now).2.recorded =
      limiter.recorded := by
  unfold codeCheck
  dsimp only
  repeat' split
  all_goals rfl

theorem codeCheck_failures (trusted : Bool) (now : ℚ) :
    (limiter.codeCheck config handle trusted now).2.failures other =
      limiter.failures other := by
  simp [failures]

/-- What a check answers, and what it leaves of the failures of the handle. -/
theorem codeCheck_cases (now : ℚ) :
    let checked := limiter.codeCheck config handle false now
    let pruned := prune (limiter.fails handle) (now - config.codeWindow)
    checked.2.fails handle = pruned ∧
      (checked.1 = none ∧ pruned.length < config.codeBudget ∨
        ∃ last, pruned.getLast? = some last ∧
          checked.1 = if now < last + config.codeSpacing then
            some (ceil (last + config.codeSpacing - now)) else none) := by
  have room := config.codeBudget_pos
  unfold codeCheck
  simp only [Bool.false_eq_true, ↓reduceIte]
  split
  case h_1 missing => simp [fails, missing, Limits.prune, room]
  case h_2 empty => simp [fails, empty, Limits.prune, room]
  case h_3 fails _ stored =>
    have held : limiter.fails handle = fails := by
      simp [AuthLimiter.fails, stored]
    rw [held]
    have left : (limiter.codes.modify handle
        (Limits.prune · (now - config.codeWindow))).peek handle =
          some (Limits.prune fails (now - config.codeWindow)) := by
      simp [stored]
    split
    case isTrue small => exact ⟨by simp [AuthLimiter.fails, left], Or.inl ⟨rfl, small⟩⟩
    case isFalse full =>
      cases ends : (Limits.prune fails (now - config.codeWindow)).getLast? with
      | none =>
          rw [List.getLast?_eq_none_iff] at ends
          simp [ends, room] at full
      | some last =>
          exact ⟨by simp [AuthLimiter.fails, left], Or.inr ⟨last, rfl, rfl⟩⟩

theorem codeCheck_other (trusted : Bool) (now : ℚ) (different : other ≠ handle) :
    (limiter.codeCheck config handle trusted now).2.codes.peek other =
      limiter.codes.peek other := by
  unfold codeCheck
  dsimp only
  repeat' split
  all_goals simp [different]

theorem codeCheck_trusted (now : ℚ) :
    (limiter.codeCheck config handle true now).2.codes = limiter.codes := rfl

theorem Kept.codeCheck (kept : limiter.Kept config handle) (trusted : Bool)
    {now : ℚ} (later : limiter.now ≤ now) :
    (limiter.codeCheck config other trusted now).2.Kept config handle := by
  by_cases same : handle = other
  · subst same
    cases trusted with
    | true =>
        apply kept.same (by simpa using later) (codeCheck_failures _ _)
        rw [fails, codeCheck_trusted, fails]
    | false =>
        apply kept.prune (by simpa using later) (codeCheck_failures _ _)
        rw [(codeCheck_cases now).1, codeCheck_now]
  · apply kept.same (by simpa using later) (codeCheck_failures _ _)
    rw [fails, codeCheck_other _ _ same, fails]

/-- Whoever passes the check may fail without being out of pace. -/
theorem Kept.paces (kept : limiter.Kept config handle) {checked failed : ℚ}
    (later : limiter.now ≤ checked) (failing : checked ≤ failed)
    (passes : (limiter.codeCheck config handle false checked).1 = none) :
    since (limiter.failures handle) (failed - config.codeWindow) <
        config.codeBudget ∨
      ∀ last ∈ (limiter.failures handle).head?,
        last + config.codeSpacing ≤ failed := by
  obtain ⟨old, split, before⟩ :=
    (@Kept.codeCheck config handle handle limiter kept false checked later).forgotten
  rw [codeCheck_failures, (codeCheck_cases checked).1] at split
  rw [codeCheck_now] at before
  rcases (@codeCheck_cases config handle limiter checked).2 with
    ⟨-, small⟩ | ⟨last, ends, answer⟩
  · left
    refine lt_of_le_of_lt ?_ small
    have none_old : old.countP (fun time =>
        decide (failed - config.codeWindow < time)) = 0 := by
      apply List.countP_eq_zero.mpr
      intro time mem after
      have := before time mem
      have := of_decide_eq_true after
      linarith
    rw [since, split, List.countP_append, none_old, Nat.add_zero,
      ← List.length_reverse]
    exact List.countP_le_length
  · right
    rw [passes] at answer
    intro newest head
    rw [split, List.head?_append, List.head?_reverse, ends] at head
    cases head
    by_contra early
    rw [if_pos (by linarith)] at answer
    cases answer

/-! ### `code_failure` -/

theorem codeFailure_failures (now : ℚ) :
    (limiter.codeFailure config handle now).2.failures other =
      if handle = other then now :: limiter.failures other
      else limiter.failures other := by
  by_cases same : handle = other
  · simp [codeFailure, failures, same]
  · simp [codeFailure, failures, same]

theorem codeFailure_fails {now : ℚ}
    (there : ((limiter.codeFailure config handle now).2.codes.peek
      handle).isSome) :
    (limiter.codeFailure config handle now).2.fails handle =
      prune (limiter.fails handle) (now - config.codeWindow) ++ [now] := by
  simp only [codeFailure, fails, BoundedLRU.peek_modify, ↓reduceIte,
    Option.isSome_map] at there ⊢
  obtain ⟨value, stored⟩ := Option.isSome_iff_exists.mp there
  simp [stored, BoundedLRU.get_fst]

theorem codeFailure_other {now : ℚ} (different : other ≠ handle) {fails : List ℚ}
    (left : (limiter.codeFailure config handle now).2.codes.peek other =
      some fails) : limiter.codes.peek other = some fails := by
  simp only [codeFailure, BoundedLRU.peek_modify, different, ↓reduceIte] at left
  exact BoundedLRU.peek_of_peek_get different left

theorem Kept.codeFailure (kept : limiter.Kept config handle) {now : ℚ}
    (later : limiter.now ≤ now)
    (paces : since (limiter.failures handle) (now - config.codeWindow) <
        config.codeBudget ∨
      ∀ last ∈ (limiter.failures handle).head?,
        last + config.codeSpacing ≤ now)
    (there : ((limiter.codeFailure config handle now).2.codes.peek
      handle).isSome) :
    (limiter.codeFailure config handle now).2.Kept config handle where
  paced := by
    rw [codeFailure_failures, if_pos rfl]
    refine ⟨kept.paced, fun last head => ?_, paces⟩
    exact le_trans (kept.past last (List.mem_of_mem_head? head)) later
  past := by
    rw [codeFailure_failures, if_pos rfl]
    intro time mem
    rcases List.mem_cons.mp mem with rfl | earlier
    · exact le_refl _
    · exact le_trans (kept.past time earlier) later
  forgotten := by
    obtain ⟨old, split, before⟩ := kept.forgotten
    obtain ⟨cut, left, expired⟩ := reverse_eq_prune (limiter.fails handle)
      (now - config.codeWindow)
    refine ⟨cut ++ old, ?_, ?_⟩
    · rw [codeFailure_failures, if_pos rfl, codeFailure_fails there, split, left,
        List.reverse_append]
      simp
    · intro time mem
      rcases List.mem_append.mp mem with mine | earlier
      · exact expired time mine
      · exact le_trans (before time earlier) (sub_le_sub_right later _)

/-- The failures of another handle: evicted, or as they were. -/
theorem codeFailure_fails_other {now : ℚ} (different : other ≠ handle)
    (there : (limiter.codes.peek other).isSome →
      ((limiter.codeFailure config handle now).2.codes.peek other).isSome) :
    (limiter.codeFailure config handle now).2.fails other =
      limiter.fails other := by
  cases left : (limiter.codeFailure config handle now).2.codes.peek other with
  | some fails =>
      rw [AuthLimiter.fails, AuthLimiter.fails, left,
        codeFailure_other different left]
  | none =>
      rw [left] at there
      cases held : limiter.codes.peek other with
      | none => rw [AuthLimiter.fails, AuthLimiter.fails, left, held]
      | some fails => simp [held] at there

end AuthLimiter

/-! ### The steps -/

/-- What an attempt does: its check lets it through, and its failure is
recorded. -/
theorem attempt_cases {trusted : Bool} {checked failed : ℚ}
    (taken : limiterStep config limiter
      (.attempt handle trusted checked failed) = some next) :
    limiter.now ≤ checked ∧ checked ≤ failed ∧
      (limiter.codeCheck config handle trusted checked).1 = none ∧
      next = ((limiter.codeCheck config handle trusted checked).2.codeFailure
        config handle failed).2 := by
  simp only [limiterStep] at taken
  split at taken
  case isTrue ordered =>
    cases answer : limiter.codeCheck config handle trusted checked with
    | mk wait left =>
        rw [answer] at taken
        cases wait with
        | none => exact ⟨ordered.1, ordered.2, rfl, (Option.some.inj taken).symm⟩
        | some wait => cases taken
  case isFalse => cases taken

theorem codeCheck_step {trusted : Bool} {now : ℚ}
    (taken : limiterStep config limiter (.codeCheck handle trusted now) =
      some next) :
    limiter.now ≤ now ∧
      next = (limiter.codeCheck config handle trusted now).2 := by
  simp only [limiterStep] at taken
  split at taken
  case isTrue ordered => exact ⟨ordered, (Option.some.inj taken).symm⟩
  case isFalse => cases taken

theorem codeReset_fails (different : other ≠ handle) :
    (limiter.codeReset handle).fails other = limiter.fails other := by
  simp [AuthLimiter.fails, AuthLimiter.codeReset, different]

/-- The step keeps the pace of the handle. -/
theorem kept_step {action : Action} (kept : limiter.Kept config handle)
    (counted : Counted config handle limiter action)
    (taken : limiterStep config limiter action = some next) :
    next.Kept config handle := by
  obtain ⟨untrusted, unreset, stays⟩ := counted
  have stays := stays next taken
  cases action with
  | codeCheck other trusted now =>
      obtain ⟨later, rfl⟩ := codeCheck_step taken
      exact kept.codeCheck trusted later
  | attempt other trusted checked failed =>
      obtain ⟨later, failing, passes, rfl⟩ := attempt_cases taken
      have checkedKept : (limiter.codeCheck config other trusted checked).2.Kept config handle :=
        kept.codeCheck trusted later
      have onward : (limiter.codeCheck config other trusted checked).2.now ≤
          failed := by
        simpa using failing
      by_cases same : handle = other
      · subst same
        cases trusted with
        | true => exact absurd rfl (untrusted checked failed)
        | false =>
            apply checkedKept.codeFailure onward
            · rw [AuthLimiter.codeCheck_failures]
              exact kept.paces later failing passes
            · exact stays (Or.inr ⟨checked, failed, rfl⟩)
      · apply checkedKept.same onward
        · rw [AuthLimiter.codeFailure_failures, if_neg (Ne.symm same)]
        · apply AuthLimiter.codeFailure_fails_other same
          rw [AuthLimiter.codeCheck_other _ _ same]
          exact fun held => stays (Or.inl held)
  | codeReset other =>
      cases taken
      have different : handle ≠ other := fun same => unreset (same ▸ rfl)
      exact kept.same (le_refl _) rfl (codeReset_fails different)

/-! ### Waiting -/

/-- The handle is let through from `until` on, if it does not fail again. -/
def Until (config : LimitConfig) (handle : Handle) (again : ℚ)
    (limiter : AuthLimiter) : Prop :=
  ∀ last ∈ (limiter.fails handle).getLast?, last + config.codeSpacing ≤ again

theorem until_step {again : ℚ} {action : Action}
    (waits : Until config handle again limiter)
    (unfailed : ∀ trusted checked failed,
      action ≠ .attempt handle trusted checked failed)
    (taken : limiterStep config limiter action = some next) :
    Until config handle again next := by
  have checks : ∀ other trusted now,
      Until config handle again
        (limiter.codeCheck config other trusted now).2 := by
    intro other trusted now last ends
    by_cases same : handle = other
    · subst same
      cases trusted with
      | true =>
          rw [AuthLimiter.fails, AuthLimiter.codeCheck_trusted] at ends
          exact waits last ends
      | false =>
          rw [(AuthLimiter.codeCheck_cases now).1] at ends
          exact waits last (getLast?_prune ends)
    · rw [AuthLimiter.fails, AuthLimiter.codeCheck_other _ _ same] at ends
      exact waits last ends
  cases action with
  | codeCheck other trusted now =>
      obtain ⟨-, rfl⟩ := codeCheck_step taken
      exact checks other trusted now
  | attempt other trusted checked failed =>
      obtain ⟨-, -, -, rfl⟩ := attempt_cases taken
      have different : handle ≠ other := by
        rintro rfl
        exact unfailed trusted checked failed rfl
      intro last ends
      cases left : ((limiter.codeCheck config other trusted
          checked).2.codeFailure config other failed).2.codes.peek handle with
      | none => simp [AuthLimiter.fails, left] at ends
      | some fails =>
          rw [AuthLimiter.fails, left] at ends
          apply checks other trusted checked last
          rw [AuthLimiter.fails, AuthLimiter.codeFailure_other different left]
          exact ends
  | codeReset other =>
      cases taken
      intro last ends
      by_cases same : handle = other
      · subst same
        cases held : limiter.codes.peek handle with
        | none =>
            simp [AuthLimiter.fails, AuthLimiter.codeReset, held] at ends
        | some fails =>
            simp [AuthLimiter.fails, AuthLimiter.codeReset, held] at ends
      · rw [codeReset_fails same] at ends
        exact waits last ends

theorem until_run {again : ℚ} {actions : List Action}
    (waits : Until config handle again limiter)
    (unfailed : ∀ action ∈ actions, ∀ trusted checked failed,
      action ≠ .attempt handle trusted checked failed)
    (reached : run (limiterStep config) limiter actions = some next) :
    Until config handle again next := by
  induction actions generalizing limiter with
  | nil =>
      cases reached
      exact waits
  | cons action rest ih =>
      cases taken : limiterStep config limiter action with
      | none => simp [run, taken] at reached
      | some after =>
          simp only [run, taken] at reached
          exact ih
            (until_step waits (unfailed action List.mem_cons_self) taken)
            (fun other mem => unfailed other (List.mem_cons_of_mem _ mem))
            reached

theorem passes_of_until {again now : ℚ}
    (waits : Until config handle again limiter) (after : again ≤ now) :
    (limiter.codeCheck config handle false now).1 = none := by
  rcases (@AuthLimiter.codeCheck_cases config handle limiter now).2 with
    ⟨passes, -⟩ | ⟨last, ends, answer⟩
  · exact passes
  · have before := waits last (getLast?_prune ends)
    rw [answer, if_neg (not_lt.mpr (le_trans before after))]

end Brook.Limits
