import Brook.Preview.Fixed

namespace Brook.Preview

/-! The walk over a JPEG's markers, and where it parts from the format's grammar. -/

section

variable {word : Nat} {b : List UInt8} {i j k : Nat} {marker other : UInt8}

namespace Jpeg

theorem CodeAt.first (code : CodeAt b i j marker) : b[i]? = some 0xff := by
  cases code with
  | code last => exact last
  | fill first => exact first

theorem CodeAt.bounds (code : CodeAt b i j marker) : i + 2 ≤ j ∧ j ≤ b.length := by
  induction code with
  | code last next =>
      have inside := inside_of_get next
      omega
  | fill first rest ih => omega

/-- A place has at most one marker. -/
theorem CodeAt.unique (code : CodeAt b i j marker) :
    ∀ {k : Nat} {other : UInt8}, CodeAt b i k other → j = k ∧ marker = other := by
  induction code with
  | code last next differs =>
      intro k other again
      cases again with
      | code _ also =>
          rw [next, Option.some.injEq] at also
          exact ⟨rfl, also⟩
      | fill _ rest =>
          have follows := rest.first
          rw [next, Option.some.injEq] at follows
          exact (differs follows).elim
  | fill first rest ih =>
      intro k other again
      cases again with
      | code _ also differs =>
          have follows := rest.first
          rw [also, Option.some.injEq] at follows
          exact (differs follows).elim
      | fill _ also => exact ih also

end Jpeg

open Jpeg (CodeAt Frame SidesAt)

/-- The fill bytes are skipped to the last of the run, where there is a marker. -/
theorem skipFill_cases (room : b.length + 2 ^ 10 ≤ word) (fuel : Nat) :
    ∀ {i : Nat}, b.length - i < fuel →
      (∃ n marker, skipFill word b fuel i = .answer n ∧ b[n]? = some 0xff ∧
        b[n + 1]? = some marker ∧ CodeAt b i (n + 2) marker) ∨
      ((∀ {j marker}, ¬ CodeAt b i j marker) ∧
        (skipFill word b fuel i = .refused ∨ ∃ n byte, skipFill word b fuel i = .answer n ∧
          b[n]? = some byte ∧ byte ≠ 0xff)) := by
  induction fuel with
  | zero => exact fun none_left => absurd none_left (Nat.not_lt_zero _)
  | succ fuel ih =>
      intro i enough
      rw [skipFill, get]
      cases first : b[i]? with
      | none =>
          refine .inr ⟨fun code => ?_, .inl rfl⟩
          rw [code.first] at first
          cases first
      | some byte =>
          simp only [Scan.ofOption, Scan.answer_bind]
          have inside := inside_of_get first
          by_cases is_ff : byte = 0xff
          · subst is_ff
            rw [if_pos rfl, add_eq (by omega), Scan.answer_bind, get]
            cases second : b[i + 1]? with
            | none =>
                refine .inr ⟨fun code => ?_, .inl rfl⟩
                cases code with
                | code _ next =>
                    rw [second] at next
                    cases next
                | fill _ rest =>
                    have next := rest.first
                    rw [second] at next
                    cases next
            | some next =>
                simp only [Scan.ofOption, Scan.answer_bind]
                by_cases more : next = 0xff
                · subst more
                  rw [if_pos rfl]
                  rcases ih (i := i + 1) (by omega) with
                    ⟨n, marker, skipped, last, found, code⟩ | ⟨none_there, outcome⟩
                  · exact .inl ⟨n, marker, skipped, last, found, .fill first code⟩
                  · refine .inr ⟨fun code => ?_, outcome⟩
                    cases code with
                    | code _ also differs =>
                        rw [second, Option.some.injEq] at also
                        exact differs also.symm
                    | fill _ rest => exact none_there rest
                · rw [if_neg more]
                  exact .inl ⟨i, next, rfl, first, second, .code first second more⟩
          · rw [if_neg is_ff]
            refine .inr ⟨fun code => ?_, .inr ⟨i, byte, rfl, first, is_ff⟩⟩
            rw [code.first, Option.some.injEq] at first
            exact is_ff first.symm

/-- What the walk does at a marker, told by the place after it. -/
def atMarker (word : Nat) (b : List UInt8) (fuel j : Nat) (marker : UInt8) : Scan (Nat × Nat) :=
  if lengthless marker then jpegMarkers word b fuel j
  else if startOfFrame marker then do
    let h ← .ofOption (big b (j + 3) 2)
    let w ← .ofOption (big b (j + 5) 2)
    return (w, h)
  else do
    let len ← .ofOption (big b j 2)
    if len < 2 then .refused else jpegMarkers word b fuel (j + len)

theorem jpegMarkers_code (room : b.length + 2 ^ 17 ≤ word) (fuel : Nat)
    (code : CodeAt b i j marker) :
    jpegMarkers word b (fuel + 1) i = atMarker word b fuel j marker := by
  have small : b.length + 2 ^ 10 ≤ word := by omega
  have enough : b.length - i < b.length + 1 := by omega
  rw [jpegMarkers]
  rcases skipFill_cases small _ enough with
    ⟨n, found_marker, skipped, last, next, found⟩ | ⟨none_there, _⟩
  · obtain ⟨rfl, rfl⟩ := code.unique found
    have inside := inside_of_get next
    rw [skipped, Scan.answer_bind, get, last, Scan.ofOption, Scan.answer_bind, if_neg (by simp),
      add_eq (by omega), Scan.answer_bind, get, next, Scan.ofOption, Scan.answer_bind, atMarker]
    split
    case isTrue => rw [add_eq (by omega), Scan.answer_bind]
    case isFalse =>
      split
      case isTrue =>
        have at_height : n + 5 + 2 < word := by omega
        have at_width : n + 7 + 2 < word := by omega
        simp only [jpegFrame, add_eq (Nat.lt_of_le_of_lt (Nat.le_add_right _ 2) at_height),
          add_eq (Nat.lt_of_le_of_lt (Nat.le_add_right _ 2) at_width), Scan.answer_bind,
          be16_eq at_height, be16_eq at_width]
      case isFalse =>
        rw [add_eq (by omega), Scan.answer_bind, be16_eq (by omega)]
        cases stated : big b (n + 2) 2 with
        | none => rfl
        | some len =>
            simp only [Scan.ofOption, Scan.answer_bind]
            split
            case isTrue => rfl
            case isFalse =>
              have len_lt := big_lt stated
              rw [add_eq (by omega), Scan.answer_bind, Nat.add_assoc]
  · exact (none_there code).elim

theorem jpegMarkers_none (room : b.length + 2 ^ 17 ≤ word) (fuel : Nat)
    (none_there : ∀ {j marker}, ¬ CodeAt b i j marker) :
    jpegMarkers word b (fuel + 1) i = .refused := by
  have small : b.length + 2 ^ 10 ≤ word := by omega
  have enough : b.length - i < b.length + 1 := by omega
  rw [jpegMarkers]
  rcases skipFill_cases small _ enough with
    ⟨n, marker, _, _, _, found⟩ | ⟨_, refused | ⟨n, byte, skipped, found, differs⟩⟩
  · exact (none_there found).elim
  · rw [refused, Scan.refused_bind]
  · rw [skipped, Scan.answer_bind, get, found, Scan.ofOption, Scan.answer_bind, if_pos differs]

/-- The markers that the walk takes to a frame header, and the place after the header's
marker. -/
inductive Path (b : List UInt8) : Nat → List UInt8 → Nat → Nat × Nat → Prop where
  | header {i j : Nat} {marker : UInt8} {sides : Nat × Nat} (code : CodeAt b i j marker)
      (sized : lengthless marker = false) (frame : startOfFrame marker = true)
      (read : SidesAt b j sides) : Path b i [] j sides
  | alone {i j stop : Nat} {marker : UInt8} {passed : List UInt8} {sides : Nat × Nat}
      (code : CodeAt b i j marker) (unsized : lengthless marker = true)
      (rest : Path b j passed stop sides) : Path b i (marker :: passed) stop sides
  | segment {i j stop length : Nat} {marker : UInt8} {passed : List UInt8} {sides : Nat × Nat}
      (code : CodeAt b i j marker) (sized : lengthless marker = false)
      (other : startOfFrame marker = false) (stated : big b j 2 = some length)
      (long : 2 ≤ length) (rest : Path b (j + length) passed stop sides) :
      Path b i (marker :: passed) stop sides

theorem Path.code {passed : List UInt8} {stop : Nat} {sides : Nat × Nat}
    (path : Path b i passed stop sides) : ∃ j marker, CodeAt b i j marker := by
  cases path with
  | header code => exact ⟨_, _, code⟩
  | alone code => exact ⟨_, _, code⟩
  | segment code => exact ⟨_, _, code⟩

theorem Path.unique {passed : List UInt8} {stop : Nat} {sides : Nat × Nat}
    (path : Path b i passed stop sides) : ∀ {others : List UInt8} {end_at : Nat}
      {other_sides : Nat × Nat}, Path b i others end_at other_sides →
      passed = others ∧ stop = end_at ∧ sides = other_sides := by
  induction path with
  | header code sized frame read =>
      intro others end_at other_sides again
      cases again with
      | header also _ _ also_read =>
          obtain ⟨rfl, rfl⟩ := code.unique also
          refine ⟨rfl, rfl, Prod.ext ?_ ?_⟩
          · exact Option.some.inj (read.2.symm.trans also_read.2)
          · exact Option.some.inj (read.1.symm.trans also_read.1)
      | alone also unsized =>
          obtain ⟨rfl, rfl⟩ := code.unique also
          cases sized.symm.trans unsized
      | segment also _ not_frame =>
          obtain ⟨rfl, rfl⟩ := code.unique also
          cases frame.symm.trans not_frame
  | alone code unsized rest ih =>
      intro others end_at other_sides again
      cases again with
      | header also sized =>
          obtain ⟨rfl, rfl⟩ := code.unique also
          cases sized.symm.trans unsized
      | alone also _ also_rest =>
          obtain ⟨rfl, rfl⟩ := code.unique also
          obtain ⟨rfl, rfl, rfl⟩ := ih also_rest
          exact ⟨rfl, rfl, rfl⟩
      | segment also sized =>
          obtain ⟨rfl, rfl⟩ := code.unique also
          cases sized.symm.trans unsized
  | segment code sized other stated long rest ih =>
      intro others end_at other_sides again
      cases again with
      | header also _ frame =>
          obtain ⟨rfl, rfl⟩ := code.unique also
          cases other.symm.trans frame
      | alone also unsized =>
          obtain ⟨rfl, rfl⟩ := code.unique also
          cases sized.symm.trans unsized
      | segment also _ _ also_stated _ also_rest =>
          obtain ⟨rfl, rfl⟩ := code.unique also
          obtain rfl := Option.some.inj (stated.symm.trans also_stated)
          obtain ⟨rfl, rfl, rfl⟩ := ih also_rest
          exact ⟨rfl, rfl, rfl⟩

/-- A path goes on from the marker at its start, as that marker says. -/
theorem path_iff {sides : Nat × Nat} (code : CodeAt b i j marker) :
    (∃ passed stop, Path b i passed stop sides) ↔
      if lengthless marker then ∃ passed stop, Path b j passed stop sides
      else if startOfFrame marker then SidesAt b j sides
      else ∃ length, big b j 2 = some length ∧ 2 ≤ length ∧
        ∃ passed stop, Path b (j + length) passed stop sides := by
  constructor
  · rintro ⟨passed, stop, path⟩
    cases path with
    | header also sized frame read =>
        obtain ⟨rfl, rfl⟩ := code.unique also
        rw [sized, frame]
        exact read
    | alone also unsized rest =>
        obtain ⟨rfl, rfl⟩ := code.unique also
        rw [unsized]
        exact ⟨_, _, rest⟩
    | segment also sized other stated long rest =>
        obtain ⟨rfl, rfl⟩ := code.unique also
        rw [sized, other]
        exact ⟨_, stated, long, _, _, rest⟩
  · intro onward
    cases sized : lengthless marker with
    | true =>
        rw [sized, if_pos rfl] at onward
        obtain ⟨passed, stop, rest⟩ := onward
        exact ⟨_, _, .alone code sized rest⟩
    | false =>
        rw [sized, if_neg Bool.false_ne_true] at onward
        cases frame : startOfFrame marker with
        | true =>
            rw [frame, if_pos rfl] at onward
            exact ⟨_, _, .header code sized frame onward⟩
        | false =>
            rw [frame, if_neg Bool.false_ne_true] at onward
            obtain ⟨length, stated, long, passed, stop, rest⟩ := onward
            exact ⟨_, _, .segment code sized frame stated long rest⟩

/-- The walk has no fault, and answers exactly along a path. -/
structure Walks (b : List UInt8) (i : Nat) (scan : Scan (Nat × Nat)) : Prop where
  sound : scan.Sound
  answers : ∀ {sides : Nat × Nat}, scan = .answer sides ↔ ∃ passed stop, Path b i passed stop sides

theorem walks_refused
    (none_there : ∀ {sides : Nat × Nat}, ¬ ∃ passed stop, Path b i passed stop sides) :
    Walks b i .refused where
  sound := fun _ faulted => nomatch faulted
  answers {_} := ⟨fun answered => (nomatch answered), fun path => (none_there path).elim⟩

theorem jpegMarkers_walks (room : b.length + 2 ^ 17 ≤ word) (fuel : Nat) :
    ∀ {i : Nat}, b.length - i < fuel → Walks b i (jpegMarkers word b fuel i) := by
  induction fuel with
  | zero => exact fun none_left => absurd none_left (Nat.not_lt_zero _)
  | succ fuel ih =>
      intro i enough
      by_cases there : ∃ j marker, CodeAt b i j marker
      · obtain ⟨j, marker, code⟩ := there
        have bounds := code.bounds
        rw [jpegMarkers_code room fuel code, atMarker]
        split
        case isTrue unsized =>
          have rest := ih (i := j) (by omega)
          refine ⟨rest.sound, fun {sides} => ?_⟩
          rw [path_iff code, if_pos unsized]
          exact rest.answers
        case isFalse sized =>
          split
          case isTrue frame =>
            have onward : ∀ sides, (∃ passed stop, Path b i passed stop sides) ↔
                SidesAt b j sides := by
              intro sides
              rw [path_iff code, if_neg sized, if_pos frame]
            cases height : big b (j + 3) 2 with
            | none =>
                refine walks_refused fun {sides} path => ?_
                have read := (onward sides).mp path
                cases height.symm.trans read.1
            | some h =>
                cases width : big b (j + 5) 2 with
                | none =>
                    refine walks_refused fun {sides} path => ?_
                    have read := (onward sides).mp path
                    cases width.symm.trans read.2
                | some w =>
                    refine ⟨fun _ faulted => (by cases faulted), fun {sides} => ?_⟩
                    rw [onward, SidesAt, height, width]
                    simp only [Scan.ofOption, Scan.answer_bind, Scan.pure_eq,
                      Scan.answer.injEq, Option.some.injEq]
                    constructor
                    · rintro rfl
                      exact ⟨rfl, rfl⟩
                    · rintro ⟨rfl, rfl⟩
                      rfl
          case isFalse other =>
            have onward : ∀ sides, (∃ passed stop, Path b i passed stop sides) ↔
                ∃ length, big b j 2 = some length ∧ 2 ≤ length ∧
                  ∃ passed stop, Path b (j + length) passed stop sides := by
              intro sides
              rw [path_iff code, if_neg sized, if_neg other]
            cases stated : big b j 2 with
            | none =>
                refine walks_refused fun {sides} path => ?_
                obtain ⟨length, found, _⟩ := (onward sides).mp path
                cases stated.symm.trans found
            | some length =>
                simp only [Scan.ofOption, Scan.answer_bind]
                split
                case isTrue short =>
                  refine walks_refused fun {sides} path => ?_
                  obtain ⟨_, found, long, _⟩ := (onward sides).mp path
                  cases stated.symm.trans found
                  omega
                case isFalse long =>
                  have rest := ih (i := j + length) (by omega)
                  refine ⟨rest.sound, fun {sides} => ?_⟩
                  rw [onward, rest.answers, stated]
                  constructor
                  · exact fun path => ⟨length, rfl, Nat.le_of_not_lt long, path⟩
                  · rintro ⟨_, same, _, path⟩
                    cases same
                    exact path
      · have none_there : ∀ {j marker}, ¬ CodeAt b i j marker :=
          fun code => there ⟨_, _, code⟩
        rw [jpegMarkers_none room fuel none_there]
        refine walks_refused fun {sides} path => ?_
        obtain ⟨_, _, path⟩ := path
        exact there path.code

/-- Nothing on the path but what the format has there: no end of the image, no stuffed
byte, and a length of the frame header that counts itself. -/
structure Proper (b : List UInt8) (passed : List UInt8) (stop : Nat) : Prop where
  markers : ∀ marker ∈ passed, marker ≠ 0xd9 ∧ marker ≠ 0
  length : ∃ length, big b stop 2 = some length ∧ 2 ≤ length

theorem startOfFrame_iff : startOfFrame marker = true ↔ Jpeg.isFrame marker := by
  simp only [startOfFrame, Jpeg.isFrame, Bool.and_eq_true, decide_eq_true_eq, and_assoc]

theorem lengthless_iff : lengthless marker = true ↔
    Jpeg.standsAlone marker ∨ Jpeg.isEnd marker := by
  simp only [lengthless, Jpeg.standsAlone, Jpeg.isEnd, Bool.or_eq_true, Bool.and_eq_true,
    decide_eq_true_eq, UInt8.le_iff_toNat_le, ← UInt8.toNat_inj, UInt8.reduceToNat]
  omega

theorem frame_sized (frame : Jpeg.isFrame marker) : lengthless marker = false := by
  have low := UInt8.le_iff_toNat_le.mp frame.1
  have high := UInt8.le_iff_toNat_le.mp frame.2.1
  refine Bool.eq_false_iff.mpr fun free => ?_
  simp only [lengthless, Bool.or_eq_true, Bool.and_eq_true, decide_eq_true_eq,
    UInt8.le_iff_toNat_le, ← UInt8.toNat_inj, UInt8.reduceToNat] at free low high
  omega

theorem alone_proper (stands : Jpeg.standsAlone marker) : marker ≠ 0xd9 ∧ marker ≠ 0 := by
  constructor
  · rintro rfl
    revert stands
    decide
  · rintro rfl
    revert stands
    decide

theorem Proper.tail {passed : List UInt8} {stop : Nat}
    (proper : Proper b (marker :: passed) stop) : Proper b passed stop :=
  ⟨fun other member => proper.markers other (List.mem_cons_of_mem _ member), proper.length⟩

theorem Proper.cons {passed : List UInt8} {stop : Nat} (proper : Proper b passed stop)
    (here : marker ≠ 0xd9 ∧ marker ≠ 0) : Proper b (marker :: passed) stop :=
  ⟨List.forall_mem_cons.mpr ⟨here, proper.markers⟩, proper.length⟩

/-- The grammar's frame header is the one at the end of a proper path. -/
theorem frame_iff {sides : Nat × Nat} : Frame b i sides ↔
    ∃ passed stop, Path b i passed stop sides ∧ Proper b passed stop := by
  constructor
  · intro frame
    induction frame with
    | alone code stands rest ih =>
        obtain ⟨passed, stop, path, proper⟩ := ih
        exact ⟨_, _, .alone code (lengthless_iff.mpr (.inl stands)) path,
          proper.cons (alone_proper stands)⟩
    | segment code marks going joined other stated long rest ih =>
        obtain ⟨passed, stop, path, proper⟩ := ih
        have sized := Bool.eq_false_iff.mpr (mt lengthless_iff.mp (not_or.mpr ⟨joined, going⟩))
        have not_frame := Bool.eq_false_iff.mpr (mt startOfFrame_iff.mp other)
        exact ⟨_, _, .segment code sized not_frame stated long path, proper.cons ⟨going, marks⟩⟩
    | header code frame stated long read =>
        exact ⟨_, _, .header code (frame_sized frame) (startOfFrame_iff.mpr frame) read,
          by simp, ⟨_, stated, long⟩⟩
  · rintro ⟨passed, stop, path, proper⟩
    induction path with
    | header code sized frame read =>
        obtain ⟨length, stated, long⟩ := proper.length
        exact .header code (startOfFrame_iff.mp frame) stated long read
    | alone code unsized rest ih =>
        obtain ⟨going, _⟩ := proper.markers _ List.mem_cons_self
        have stands := (lengthless_iff.mp unsized).resolve_right going
        exact .alone code stands (ih proper.tail)
    | segment code sized other stated long rest ih =>
        obtain ⟨going, marks⟩ := proper.markers _ List.mem_cons_self
        have joined := mt (fun stands => lengthless_iff.mpr (.inl stands))
          (Bool.eq_false_iff.mp sized)
        have not_frame := mt startOfFrame_iff.mpr (Bool.eq_false_iff.mp other)
        exact .segment code marks going joined not_frame stated long (ih proper.tail)

end

end Brook.Preview
