import Mathlib.Algebra.Order.Field.Basic
import Mathlib.Data.List.Count
import Mathlib.Data.List.TakeWhile
import Mathlib.Tactic.Linarith
import Mathlib.Tactic.Ring

namespace Brook.Meter

/-! What a bucket of tokens lets through, and what a history of bounded length still knows. -/

section Bucket

variable {Time : Type*} [Field Time] [LinearOrder Time]

/-- How many of the times are not before `start`. -/
def countFrom (times : List Time) (start : Time) : Nat :=
  times.countP fun time => decide (start ≤ time)

/-- Times, the last first, of what a bucket let through. -/
def Metered (capacity rate : Time) : List Time → Prop
  | [] => True
  | time :: earlier =>
      Metered capacity rate earlier ∧
        (∀ last ∈ earlier.head?, last ≤ time) ∧
        ∀ start ≤ time, (countFrom (time :: earlier) start : Time) ≤
          capacity + (time - start) * rate

/-- What the bucket holds is what was poured in and not taken out. -/
structure Level (capacity rate tokens refilled : Time) (times : List Time) : Prop where
  metered : Metered capacity rate times
  before : ∀ last ∈ times.head?, last ≤ refilled
  low : 0 ≤ tokens
  high : tokens ≤ capacity
  paid : ∀ start ≤ refilled,
    (countFrom times start : Time) + tokens ≤ capacity + (refilled - start) * rate

variable {capacity rate tokens refilled time : Time} {times : List Time}

theorem Metered.le_head (metered : Metered capacity rate times) {bound : Time}
    (head : ∀ last ∈ times.head?, last ≤ bound) : ∀ time ∈ times, time ≤ bound := by
  induction times generalizing bound with
  | nil => intro time mem; cases mem
  | cons last earlier ih =>
      intro time mem
      obtain rfl | rest := List.mem_cons.mp mem
      · exact head time rfl
      · exact le_trans (ih metered.1 metered.2.1 time rest) (head last rfl)

omit [Field Time] in
theorem countFrom_eq_zero {start : Time} (before : ∀ time ∈ times, time < start) :
    countFrom times start = 0 := by
  refine List.countP_eq_zero.mpr fun time mem from' => ?_
  exact absurd (of_decide_eq_true from') (not_le.mpr (before time mem))

variable [IsStrictOrderedRing Time]

theorem Level.full (refilled : Time) (holds : 0 ≤ capacity) (rises : 0 ≤ rate) :
    Level capacity rate capacity refilled [] where
  metered := trivial
  before last head := by cases head
  low := holds
  high := le_refl capacity
  paid start before := by
    have gained := mul_nonneg (sub_nonneg.mpr before) rises
    simp only [countFrom, List.countP_nil, Nat.cast_zero]
    linarith

theorem Level.fill (level : Level capacity rate tokens refilled times) (rises : 0 ≤ rate)
    (later : refilled ≤ time) :
    Level capacity rate (min capacity (tokens + (time - refilled) * rate)) time times where
  metered := level.metered
  before last head := le_trans (level.before last head) later
  low := by
    have gained := mul_nonneg (sub_nonneg.mpr later) rises
    exact le_min (le_trans level.low level.high) (add_nonneg level.low gained)
  high := min_le_left _ _
  paid start before := by
    rcases le_or_gt start refilled with early | late
    · have paid := level.paid start early
      have least := min_le_right capacity (tokens + (time - refilled) * rate)
      have split : (time - start) * rate =
          (refilled - start) * rate + (time - refilled) * rate := by ring
      rw [split]
      linarith
    · have none_yet : countFrom times start = 0 :=
        countFrom_eq_zero fun other mem =>
          lt_of_le_of_lt (level.metered.le_head level.before other mem) late
      have gained := mul_nonneg (sub_nonneg.mpr before) rises
      have least := min_le_left capacity (tokens + (time - refilled) * rate)
      rw [none_yet, Nat.cast_zero]
      linarith

theorem Level.take (level : Level capacity rate tokens refilled times) (enough : 1 ≤ tokens) :
    Level capacity rate (tokens - 1) refilled (refilled :: times) := by
  have counts : ∀ start ≤ refilled,
      countFrom (refilled :: times) start = countFrom times start + 1 := by
    intro start before
    exact List.countP_cons_of_pos (decide_eq_true before)
  have paid : ∀ start ≤ refilled, (countFrom (refilled :: times) start : Time) + (tokens - 1) ≤
      capacity + (refilled - start) * rate := by
    intro start before
    have paid := level.paid start before
    rw [counts start before]
    push_cast
    linarith
  refine ⟨⟨level.metered, level.before, fun start before => ?_⟩, fun last head => ?_, ?_, ?_, paid⟩
  · have paid := paid start before
    linarith
  · cases head
    exact le_refl refilled
  · linarith
  · linarith [level.high]

/-- In a stretch of time the bucket lets through what it holds and what is poured in. -/
theorem Metered.count_le (metered : Metered capacity rate times) (holds : 0 ≤ capacity)
    (rises : 0 ≤ rate) (start : Time) {span : Time} (long : 0 ≤ span) :
    ((times.countP fun time => decide (start ≤ time) && decide (time ≤ start + span) : Nat) :
      Time) ≤ capacity + span * rate := by
  induction times with
  | nil =>
      have gained := mul_nonneg long rises
      simp only [List.countP_nil, Nat.cast_zero]
      linarith
  | cons time earlier ih =>
      by_cases inside : time ≤ start + span
      · rcases le_or_gt start time with from' | before
        · have most : (time :: earlier).countP
              (fun time => decide (start ≤ time) && decide (time ≤ start + span)) ≤
              countFrom (time :: earlier) start := by
            refine List.countP_mono_left fun other _ both => ?_
            exact (Bool.and_eq_true_iff.mp both).1
          have bound := metered.2.2 start from'
          have shorter : (time - start) * rate ≤ span * rate :=
            mul_le_mul_of_nonneg_right (by linarith) rises
          have cast : (((time :: earlier).countP
              fun time => decide (start ≤ time) && decide (time ≤ start + span) : Nat) : Time) ≤
              (countFrom (time :: earlier) start : Time) := Nat.cast_le.mpr most
          linarith
        · rw [List.countP_cons_of_neg (by simp [not_le.mpr before])]
          exact ih metered.1
      · rw [List.countP_cons_of_neg (by simp [inside])]
        exact ih metered.1

end Bucket

section History

variable {Time : Type*} [LinearOrder Time]

/-- Of all times, the oldest first, the last ones are kept: as many as there may be, or all that
are after the cutoff. -/
structure Remembers (limit : Nat) (cutoff : Time) (all kept : List Time) : Prop where
  sorted : all.Pairwise (· ≤ ·)
  split : ∃ gone, all = gone ++ kept ∧ (kept.length = limit ∨ ∀ time ∈ gone, time ≤ cutoff)
  bounded : kept.length ≤ limit

variable {limit : Nat} {cutoff next time : Time} {all kept : List Time}

theorem Remembers.nil : Remembers limit cutoff [] ([] : List Time) where
  sorted := List.Pairwise.nil
  split := ⟨[], rfl, Or.inr fun time mem => by cases mem⟩
  bounded := Nat.zero_le _

theorem Remembers.later (remembers : Remembers limit cutoff all kept) (after : cutoff ≤ next) :
    Remembers limit next all kept where
  sorted := remembers.sorted
  split := by
    obtain ⟨gone, whole, full | old⟩ := remembers.split
    · exact ⟨gone, whole, Or.inl full⟩
    · exact ⟨gone, whole, Or.inr fun time mem => le_trans (old time mem) after⟩
  bounded := remembers.bounded

/-- The kept times up to the cutoff are forgotten. -/
theorem Remembers.prune (remembers : Remembers limit cutoff all kept) :
    Remembers limit cutoff all (kept.dropWhile fun time => decide (time ≤ cutoff)) := by
  obtain ⟨gone, whole, or⟩ := remembers.split
  have halves : (kept.takeWhile fun time => decide (time ≤ cutoff)) ++
      (kept.dropWhile fun time => decide (time ≤ cutoff)) = kept :=
    List.takeWhile_append_dropWhile
  refine ⟨remembers.sorted,
    ⟨gone ++ kept.takeWhile fun time => decide (time ≤ cutoff), ?_, ?_⟩, ?_⟩
  · rw [List.append_assoc, halves, whole]
  · cases taken : kept.takeWhile fun time => decide (time ≤ cutoff) with
    | nil =>
        rw [taken, List.nil_append] at halves
        rw [halves, List.append_nil]
        exact or
    | cons first rest =>
        right
        -- What is gone is before the first that is forgotten now.
        have old : first ≤ cutoff := by
          have mem : first ∈ kept.takeWhile fun time => decide (time ≤ cutoff) := by
            rw [taken]
            exact List.mem_cons_self
          simpa using List.mem_takeWhile_imp mem
        have sorted := remembers.sorted
        rw [whole, ← halves, taken] at sorted
        intro time mem
        rw [List.mem_append] at mem
        rcases mem with before | now
        · refine le_trans ?_ old
          exact (List.pairwise_append.mp sorted).2.2 time before first (by simp)
        · have mem : time ∈ kept.takeWhile fun time => decide (time ≤ cutoff) := taken ▸ now
          simpa using List.mem_takeWhile_imp mem
  · exact le_trans (List.dropWhile_sublist _).length_le remembers.bounded

theorem Remembers.append (remembers : Remembers limit cutoff all kept) (some : 0 < limit)
    (last : ∀ other ∈ all, other ≤ time) :
    Remembers limit cutoff (all ++ [time])
      ((kept ++ [time]).drop (kept.length + 1 - limit)) := by
  obtain ⟨gone, whole, or⟩ := remembers.split
  have bounded := remembers.bounded
  refine ⟨?_, ⟨gone ++ (kept ++ [time]).take (kept.length + 1 - limit), ?_, ?_⟩, ?_⟩
  · refine List.pairwise_append.mpr ⟨remembers.sorted, List.pairwise_singleton _ _, ?_⟩
    intro other mem new isNew
    rw [List.mem_singleton.mp isNew]
    exact last other mem
  · rw [List.append_assoc, List.take_append_drop, whole, List.append_assoc]
  · rcases Nat.lt_or_ge kept.length limit with room | full
    · rw [show kept.length + 1 - limit = 0 by omega, List.take_zero, List.append_nil,
        List.drop_zero, List.length_append, List.length_singleton]
      rcases or with full | old
      · omega
      · exact Or.inr old
    · left
      rw [List.length_drop, List.length_append, List.length_singleton]
      omega
  · rw [List.length_drop, List.length_append, List.length_singleton]
    omega

/-- As many are kept as may be exactly when that many lie after the cutoff. -/
theorem Remembers.full_iff (remembers : Remembers limit cutoff all kept)
    (pruned : ∀ time ∈ kept, cutoff < time) :
    kept.length = limit ↔ limit ≤ all.countP fun time => decide (cutoff < time) := by
  obtain ⟨gone, whole, or⟩ := remembers.split
  have bounded := remembers.bounded
  have every : kept.countP (fun time => decide (cutoff < time)) = kept.length :=
    List.countP_eq_length.mpr fun time mem => decide_eq_true (pruned time mem)
  rw [whole, List.countP_append, every]
  rcases or with full | old
  · omega
  · have none_left : gone.countP (fun time => decide (cutoff < time)) = 0 :=
      List.countP_eq_zero.mpr fun time mem after =>
        absurd (of_decide_eq_true after) (not_lt.mpr (old time mem))
    omega

theorem Remembers.kept_sorted (remembers : Remembers limit cutoff all kept) :
    kept.Pairwise (· ≤ ·) := by
  obtain ⟨gone, whole, -⟩ := remembers.split
  have sorted := remembers.sorted
  rw [whole] at sorted
  exact (List.pairwise_append.mp sorted).2.1

theorem after_dropWhile (sorted : kept.Pairwise (· ≤ ·)) (cutoff : Time) :
    ∀ time ∈ kept.dropWhile (fun time => decide (time ≤ cutoff)), cutoff < time := by
  induction kept with
  | nil => intro time mem; cases mem
  | cons first rest ih =>
      rw [List.dropWhile_cons]
      split
      case isTrue => exact ih (List.pairwise_cons.mp sorted).2
      case isFalse later =>
        have first_later : cutoff < first := by simpa using later
        intro time mem
        obtain rfl | rest_mem := List.mem_cons.mp mem
        · exact first_later
        · exact lt_of_lt_of_le first_later ((List.pairwise_cons.mp sorted).1 time rest_mem)

end History

end Brook.Meter
