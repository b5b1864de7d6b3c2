import Mathlib.Algebra.Order.Floor.Semiring
import Mathlib.Algebra.Order.Field.Basic
import Mathlib.Data.List.Count
import Mathlib.Tactic.Linarith

namespace Brook.Window

/-! Events that keep a distance of `spacing` from one another, once `budget` of
them lie within the last `window`.  Lists of times have the last event first. -/

section

variable {Time : Type*} [Field Time] [LinearOrder Time]

/-- How many of the times come after `cutoff`. -/
def since (times : List Time) (cutoff : Time) : Nat :=
  times.countP fun time => decide (cutoff < time)

def Paced (budget : Nat) (window spacing : Time) : List Time → Prop
  | [] => True
  | time :: earlier =>
      Paced budget window spacing earlier ∧
        (∀ last ∈ earlier.head?, last ≤ time) ∧
        (since earlier (time - window) < budget ∨
          ∀ last ∈ earlier.head?, last + spacing ≤ time)

/-- The events that `counts` holds for, up to `last`, exceed the budget only by
as many as fit with their distance. -/
def Spread (budget : Nat) (spacing : Time) (counts : Time → Bool) (count : Nat)
    (last : Time) : Prop :=
  ∃ first, counts first = true ∧
    ((count : Time) - budget) * spacing ≤ last - first

variable {budget : Nat} {window spacing : Time} {times : List Time}
variable {counts ends : Time → Bool}

theorem Paced.le_head (paced : Paced budget window spacing times) {last : Time}
    (head : times.head? = some last) : ∀ time ∈ times, time ≤ last := by
  induction times generalizing last with
  | nil => cases head
  | cons first earlier ih =>
      cases head
      intro time mem
      rcases List.mem_cons.mp mem with rfl | rest
      · exact le_refl _
      · cases next : earlier.head? with
        | none =>
            rw [List.head?_eq_none_iff] at next
            simp [next] at rest
        | some second =>
            exact le_trans (ih paced.1 next time rest)
              (paced.2.1 second next)

/-- Where the last event does not count, no event does. -/
theorem Paced.countP_eq_zero (paced : Paced budget window spacing times)
    (upward : ∀ {low high}, low ≤ high → counts low = true →
      counts high = true)
    {last : Time} (head : times.head? = some last)
    (uncounted : counts last = false) : times.countP counts = 0 := by
  apply List.countP_eq_zero.mpr
  intro time mem counted
  rw [upward (paced.le_head head time mem) counted] at uncounted
  cases uncounted

/-- The events from the last that `ends` holds for are paced as the whole is. -/
theorem Paced.dropWhile (paced : Paced budget window spacing times)
    (ends : Time → Bool) :
    Paced budget window spacing (times.dropWhile fun time => !ends time) := by
  induction times with
  | nil => exact trivial
  | cons time earlier ih =>
      rw [List.dropWhile_cons]
      split
      case isTrue => exact ih paced.1
      case isFalse => exact paced

omit [Field Time] [LinearOrder Time] in
theorem ends_of_head?_dropWhile (ends : Time → Bool) {last : Time}
    (head : (times.dropWhile fun time => !ends time).head? = some last) :
    ends last = true := by
  have stays := List.head?_dropWhile_not (fun time => !ends time) times
  rw [head] at stays
  simpa using stays

/-- Where `ends` holds for all that comes before, it is enough to count from the
last event that it holds for. -/
theorem Paced.countP_dropWhile (paced : Paced budget window spacing times)
    (downward : ∀ {low high}, low ≤ high → ends high = true →
      ends low = true) :
    (times.dropWhile fun time => !ends time).countP counts =
      times.countP fun time => counts time && ends time := by
  induction times with
  | nil => rfl
  | cons time earlier ih =>
      rw [List.dropWhile_cons]
      cases ended : ends time with
      | false =>
          rw [List.countP_cons_of_neg (by simp [ended])]
          exact ih paced.1
      | true =>
          apply List.countP_congr
          intro other mem
          have before := downward (paced.le_head rfl other mem) ended
          simp [before]

variable [IsStrictOrderedRing Time]

theorem Spread.cons {count : Nat} {second time : Time}
    (counted : counts second = true) (enough : budget ≤ count)
    (apart : second + spacing ≤ time)
    (rest : count ≤ budget ∨ Spread budget spacing counts count second) :
    Spread budget spacing counts (count + 1) time := by
  rcases rest with few | ⟨first, lowest, spaced⟩
  · have exactly : count = budget := Nat.le_antisymm few enough
    refine ⟨second, counted, ?_⟩
    rw [exactly]
    push_cast
    linarith
  · refine ⟨first, lowest, ?_⟩
    push_cast
    linarith

theorem Spread.count_le [FloorSemiring Time] {count : Nat} {last span : Time}
    (spread : Spread budget spacing counts count last) (spaced : 0 < spacing)
    (within : ∀ first, counts first = true → last - first ≤ span) :
    count ≤ budget + ⌊span / spacing⌋₊ := by
  obtain ⟨first, counted, apart⟩ := spread
  by_cases few : count ≤ budget
  · exact le_trans few (Nat.le_add_right _ _)
  · have more : budget ≤ count := Nat.le_of_not_le few
    rw [← Nat.sub_le_iff_le_add']
    apply Nat.le_floor
    rw [Nat.cast_sub more, le_div_iff₀ spaced]
    exact le_trans apart (within first counted)

/-- The events that count are within the budget, or spread, where they all lie
within the window of the last event. -/
theorem Paced.spread (paced : Paced budget window spacing times)
    (allowed : 0 < budget)
    (upward : ∀ {low high}, low ≤ high → counts low = true →
      counts high = true)
    (within : ∀ last ∈ times.head?, ∀ time, counts time = true →
      last - window < time) :
    times.countP counts ≤ budget ∨
      ∃ last ∈ times.head?,
        Spread budget spacing counts (times.countP counts) last := by
  induction times with
  | nil => exact Or.inl (Nat.zero_le _)
  | cons time earlier ih =>
      cases counted : counts time with
      | false =>
          left
          rw [paced.countP_eq_zero upward rfl counted]
          exact Nat.zero_le _
      | true =>
          rw [List.countP_cons_of_pos counted]
          by_cases small : earlier.countP counts < budget
          · exact Or.inl small
          have enough : budget ≤ earlier.countP counts := Nat.le_of_not_lt small
          have seen : earlier.countP counts ≤ since earlier (time - window) := by
            apply List.countP_mono_left
            intro other _ later
            exact decide_eq_true (within time rfl other later)
          cases next : earlier.head? with
          | none =>
              rw [List.head?_eq_none_iff] at next
              simp only [next, List.countP_nil] at enough
              omega
          | some second =>
              right
              have apart : second + spacing ≤ time :=
                paced.2.2.resolve_left (Nat.not_lt.mpr (le_trans enough seen))
                  second next
              have before : second ≤ time := paced.2.1 second next
              have inWindow : ∀ last ∈ earlier.head?, ∀ other,
                  counts other = true → last - window < other := by
                intro last head other later
                rw [next, Option.mem_some_iff] at head
                subst head
                exact lt_of_le_of_lt (sub_le_sub_right before window)
                  (within time rfl other later)
              have counted_second : counts second = true := by
                by_contra uncounted
                have none_before := paced.1.countP_eq_zero upward next
                  (Bool.not_eq_true _ ▸ uncounted)
                omega
              refine ⟨time, rfl, Spread.cons counted_second enough apart ?_⟩
              rcases ih paced.1 inWindow with few | ⟨last, head, spread⟩
              · exact Or.inl few
              · rw [next, Option.mem_some_iff] at head
                subst head
                exact Or.inr spread

variable [FloorSemiring Time]

/-- A stretch of time that is shorter than the window has no more events than
the budget and as many as fit into its span with their distance. -/
theorem Paced.count_le (paced : Paced budget window spacing times)
    (allowed : 0 < budget) (spaced : 0 < spacing)
    (upward : ∀ {low high}, low ≤ high → counts low = true →
      counts high = true)
    (downward : ∀ {low high}, low ≤ high → ends high = true →
      ends low = true)
    (short : ∀ {start finish}, counts start = true → ends finish = true →
      finish - window < start)
    {span : Time}
    (spans : ∀ {start finish}, counts start = true → ends finish = true →
      finish - start ≤ span) :
    times.countP (fun time => counts time && ends time) ≤
      budget + ⌊span / spacing⌋₊ := by
  rw [← paced.countP_dropWhile downward]
  have within : ∀ last ∈ (times.dropWhile fun time => !ends time).head?,
      ∀ time, counts time = true → last - window < time :=
    fun last head time counted =>
      short counted (ends_of_head?_dropWhile ends head)
  rcases (paced.dropWhile ends).spread allowed upward within with
    few | ⟨last, head, spread⟩
  · exact le_trans few (Nat.le_add_right _ _)
  · exact spread.count_le spaced fun first counted =>
      spans counted (ends_of_head?_dropWhile ends head)

omit [Field Time] [IsStrictOrderedRing Time] [FloorSemiring Time] in
theorem countP_from_le (start : Time) :
    times.countP (fun time => decide (start ≤ time)) ≤
      since times start +
        times.countP (fun time =>
          decide (start ≤ time) && decide (time ≤ start)) := by
  induction times with
  | nil => exact Nat.zero_le _
  | cons time earlier ih =>
      simp only [since, List.countP_cons] at ih ⊢
      rcases lt_trichotomy start time with after | same | before
      · simp only [after, after.le, not_le.mpr after, decide_true, decide_false,
          Bool.and_false, if_true]
        simp
        omega
      · subst same
        simp
        omega
      · simp only [not_lt.mpr before.le, not_le.mpr before, decide_false,
          Bool.false_and]
        simp
        omega

/-- The last event may lie on the end of the window: those on its start then
make room for as many as the budget. -/
theorem Paced.count_from_le (paced : Paced budget window spacing times)
    (allowed : 0 < budget) (spaced : 0 < spacing) (long : 0 < window)
    {start : Time} (bounded : ∀ last ∈ times.head?, last ≤ start + window) :
    times.countP (fun time => decide (start ≤ time)) ≤
      budget + max budget ⌊window / spacing⌋₊ := by
  have upward : ∀ {low high : Time}, low ≤ high →
      decide (start ≤ low) = true → decide (start ≤ high) = true :=
    fun less low => decide_eq_true (le_trans (of_decide_eq_true low) less)
  have spans : ∀ {last : Time}, last ≤ start + window → ∀ first,
      decide (start ≤ first) = true → last - first ≤ window := by
    intro last before first counted
    have := of_decide_eq_true counted
    linarith
  have fits : budget + ⌊window / spacing⌋₊ ≤
      budget + max budget ⌊window / spacing⌋₊ :=
    Nat.add_le_add_left (le_max_right _ _) _
  have inside : ∀ {events : List Time}, Paced budget window spacing events →
      (∀ last ∈ events.head?, last < start + window) →
      events.countP (fun time => decide (start ≤ time)) ≤ budget ∨
        ∃ last ∈ events.head?, Spread budget spacing
          (fun time => decide (start ≤ time))
          (events.countP fun time => decide (start ≤ time)) last := by
    intro events paced before
    apply paced.spread allowed upward
    intro last head time counted
    have := of_decide_eq_true counted
    have := before last head
    linarith
  cases times with
  | nil => exact Nat.zero_le _
  | cons time earlier =>
      rcases lt_or_eq_of_le (bounded time rfl) with before | atEnd
      · rcases inside paced (by simpa using before) with few | ⟨last, head, spread⟩
        · exact le_trans few (Nat.le_add_right _ _)
        · exact le_trans (spread.count_le spaced (spans (bounded last head))) fits
      · have last_counts : (fun time => decide (start ≤ time)) time = true :=
          decide_eq_true (by linarith)
        rw [@List.countP_cons_of_pos _ (fun time => decide (start ≤ time)) _ _
          last_counts]
        have cutoff : time - window = start := by linarith
        by_cases small : since earlier start < budget
        · have least := @countP_from_le _ _ earlier start
          have atStart := paced.1.count_le allowed spaced upward
            (fun {low high} less high => decide_eq_true
              (le_trans less (of_decide_eq_true high)) :
              ∀ {low high : Time}, low ≤ high → decide (high ≤ start) = true →
                decide (low ≤ start) = true)
            (fun {first last} low high => by
              have := of_decide_eq_true low
              have := of_decide_eq_true high
              linarith)
            (fun {first last} low high => by
              have := of_decide_eq_true low
              have := of_decide_eq_true high
              linarith : ∀ {first last : Time}, decide (start ≤ first) = true →
                decide (last ≤ start) = true → last - first ≤ 0)
          rw [zero_div, Nat.floor_zero, Nat.add_zero] at atStart
          have := le_max_left budget ⌊window / spacing⌋₊
          omega
        · have enough : budget ≤ since earlier start := Nat.le_of_not_lt small
          have apart := paced.2.2.resolve_left (cutoff ▸ small)
          have more : budget ≤ earlier.countP fun time => decide (start ≤ time) := by
            refine le_trans enough (List.countP_mono_left ?_)
            intro other _ after
            exact decide_eq_true (of_decide_eq_true after).le
          have before : ∀ last ∈ earlier.head?, last < start + window := by
            intro last head
            have := apart last head
            linarith
          cases next : earlier.head? with
          | none =>
              rw [List.head?_eq_none_iff] at next
              simp only [next, List.countP_nil] at more
              omega
          | some second =>
              have counted : decide (start ≤ second) = true := by
                by_contra uncounted
                have none_before := paced.1.countP_eq_zero upward next
                  (Bool.not_eq_true _ ▸ uncounted)
                omega
              have spread : Spread budget spacing _ _ time :=
                Spread.cons counted more (apart second next) (by
                  rcases inside paced.1 before with few | ⟨last, head, spread⟩
                  · exact Or.inl few
                  · rw [next, Option.mem_some_iff] at head
                    subst head
                    exact Or.inr spread)
              exact le_trans (spread.count_le spaced (spans atEnd.le)) fits

/-- A stretch that contains both ends of the window. -/
theorem Paced.count_closed_le (paced : Paced budget window spacing times)
    (allowed : 0 < budget) (spaced : 0 < spacing) (long : 0 < window)
    (start : Time) :
    times.countP (fun time =>
        decide (start ≤ time) && decide (time ≤ start + window)) ≤
      budget + max budget ⌊window / spacing⌋₊ := by
  have downward : ∀ {low high : Time}, low ≤ high →
      decide (high ≤ start + window) = true →
      decide (low ≤ start + window) = true :=
    fun less high => decide_eq_true (le_trans less (of_decide_eq_true high))
  rw [← paced.countP_dropWhile downward]
  apply (paced.dropWhile _).count_from_le allowed spaced long
  intro last head
  exact of_decide_eq_true (ends_of_head?_dropWhile
    (fun time => decide (time ≤ start + window)) head)

end

end Brook.Window
