import Mathlib.Order.Defs.LinearOrder
import Mathlib.Data.Set.Insert

namespace Brook.Window

universe u

variable {α : Type u} [LinearOrder α]

/-! What a window onto an ordered set shows, and where it leaves something out. -/

/-- From its first element up to `tops`, `shown` has all of `all`. -/
def Joined (all shown tops : Set α) : Prop :=
  ∀ i ∈ all, (∃ low ∈ shown, low ≤ i) → (∃ top ∈ tops, i ≤ top) → i ∈ shown

def Beyond (page : Set α) (i : α) : Prop := ∀ x ∈ page, x < i

/-- Between `page` and `tops`, `shown` has all of `all`. -/
def Ahead (all page shown tops : Set α) : Prop :=
  ∀ i ∈ all, Beyond page i → (∃ top ∈ tops, i ≤ top) → i ∈ shown

/-- From its first element to its last, `page` has all of `all`. -/
def Solid (all page : Set α) : Prop :=
  ∀ i ∈ all, (∃ x ∈ page, x ≤ i) → Beyond page i ∨ i ∈ page

/-- The page goes down to `low`, or to the first element there is. -/
def Reaches (all page : Set α) (low : α) : Prop :=
  (∃ x ∈ page, x ≤ low) ∨ ∀ i ∈ all, Beyond page i ∨ i ∈ page

/-- Below `high`, which it lies under, `page` has all of `all` from its first element on. -/
structure Under (all page : Set α) (high : α) : Prop where
  below : ∀ x ∈ page, x < high
  full : ∀ i ∈ all, i < high → (∃ x ∈ page, x ≤ i) → i ∈ page

variable {all all' page older shown shown' kept tops tops' : Set α} {low high m : α}

namespace Joined

/-- What is new lies above the tops. -/
theorem of_all (joined : Joined all shown tops)
    (old : ∀ i ∈ all', (∃ top ∈ tops, i ≤ top) → i ∈ all) : Joined all' shown tops :=
  fun i member from_low to_top => joined i (old i member to_top) from_low to_top

theorem of_tops (joined : Joined all shown tops)
    (under : ∀ top' ∈ tops', ∃ top ∈ tops, top' ≤ top) : Joined all shown tops' := by
  intro i member from_low to_top
  obtain ⟨top', here, le⟩ := to_top
  obtain ⟨top, there, higher⟩ := under top' here
  exact joined i member from_low ⟨top, there, le.trans higher⟩

theorem under (joined : Joined all shown tops) (oldest : high ∈ shown)
    (below : Under all page high) : Joined all (shown ∪ page) tops := by
  intro i member from_low to_top
  rcases lt_or_ge i high with lower | higher
  · obtain ⟨first, here | here, le⟩ := from_low
    · exact .inl (joined i member ⟨first, here, le⟩ to_top)
    · exact .inr (below.full i member lower ⟨first, here, le⟩)
  · exact .inl (joined i member ⟨high, oldest, higher⟩ to_top)

theorem insert (joined : Joined all shown tops)
    (entry : ∀ i ∈ all, m < i → (∃ top ∈ tops', i ≤ top) → ∃ first ∈ shown, first ≤ i)
    (reach : ∀ i ∈ all, i ≠ m → (∃ first ∈ shown, first ≤ i) → (∃ top ∈ tops', i ≤ top) →
      i ∈ shown ∨ ∃ top ∈ tops, i ≤ top) :
    Joined all (Insert.insert m shown) tops' := by
  intro i member from_low to_top
  by_cases here : i = m
  · exact .inl here
  · have from_shown : ∃ first ∈ shown, first ≤ i := by
      obtain ⟨first, rfl | old, le⟩ := from_low
      · exact entry i member (lt_of_le_of_ne le (Ne.symm here)) to_top
      · exact ⟨first, old, le⟩
    rcases reach i member here from_shown to_top with there | to_old
    · exact .inr there
    · exact .inr (joined i member from_shown to_old)

end Joined

namespace Ahead

theorem of_all (ahead : Ahead all page shown tops)
    (old : ∀ i ∈ all', (∃ top ∈ tops, i ≤ top) → i ∈ all) : Ahead all' page shown tops :=
  fun i member beyond to_top => ahead i (old i member to_top) beyond to_top

theorem of_tops (ahead : Ahead all page shown tops)
    (under : ∀ top' ∈ tops', ∃ top ∈ tops, top' ≤ top) : Ahead all page shown tops' := by
  intro i member beyond to_top
  obtain ⟨top', here, le⟩ := to_top
  obtain ⟨top, there, higher⟩ := under top' here
  exact ahead i member beyond ⟨top, there, le.trans higher⟩

theorem of_shown (ahead : Ahead all page shown tops) (more : shown ⊆ shown') :
    Ahead all page shown' tops :=
  fun i member beyond to_top => more (ahead i member beyond to_top)

/-- Nothing is beyond a page that has the last element there is. -/
theorem of_none (none : ∀ i ∈ all, ¬ Beyond page i) : Ahead all page shown tops :=
  fun i member beyond => (none i member beyond).elim

/-- A page is read on downwards. -/
theorem of_page (ahead : Ahead all page shown tops) (more : page ⊆ older) :
    Ahead all older shown tops :=
  fun i member beyond to_top => ahead i member (fun x here => beyond x (more here)) to_top

end Ahead

namespace Solid

theorem of_all (solid : Solid all page) (old : ∀ i ∈ all', i ∈ all ∨ Beyond page i) :
    Solid all' page := by
  intro i member from_low
  rcases old i member with there | beyond
  · exact solid i there from_low
  · exact .inl beyond

/-- A page is read on downwards from its first element. -/
theorem under (solid : Solid all page) (first : high ∈ page) (least : ∀ x ∈ page, high ≤ x)
    (below : Under all older high) : Solid all (older ∪ page) := by
  intro i member from_low
  rcases lt_or_ge i high with lower | higher
  · obtain ⟨x, here | here, le⟩ := from_low
    · exact .inr (.inl (below.full i member lower ⟨x, here, le⟩))
    · exact (not_le.mpr lower ((least x here).trans le)).elim
  · rcases solid i member ⟨high, first, higher⟩ with beyond | here
    · refine .inl fun x there => ?_
      rcases there with under | there
      · exact (below.below x under).trans_le higher
      · exact beyond x there
    · exact .inr (.inr here)

end Solid

/-- A page that reaches down to what is shown is joined to it. -/
theorem Joined.union_page (joined : Joined all shown {low}) (solid : Solid all page)
    (ahead : Ahead all page shown tops) (reaches : Reaches all page low) :
    Joined all (shown ∪ page) (tops ∪ page) := by
  intro i member from_low to_top
  by_cases beyond : Beyond page i
  · obtain ⟨top, here | here, le⟩ := to_top
    · exact .inl (ahead i member beyond ⟨top, here, le⟩)
    · exact (not_le.mpr (beyond top here) le).elim
  · rcases reaches with ⟨x, here, le⟩ | full
    · rcases lt_or_ge i x with lower | higher
      · obtain ⟨first, there | there, from_first⟩ := from_low
        · exact .inl (joined i member ⟨first, there, from_first⟩ ⟨low, rfl, lower.le.trans le⟩)
        · exact .inr ((solid i member ⟨first, there, from_first⟩).resolve_left beyond)
      · exact .inr ((solid i member ⟨x, here, higher⟩).resolve_left beyond)
    · exact .inr ((full i member).resolve_left beyond)

/-- A page in the place of what was shown below it. -/
theorem Joined.replace (solid : Solid all page) (ahead : Ahead all page shown tops)
    (above : ∀ i ∈ kept, ∃ x ∈ page, x ≤ i)
    (keeps : ∀ i ∈ shown, Beyond page i → i ∈ kept) :
    Joined all (kept ∪ page) (tops ∪ page) := by
  intro i member from_low to_top
  have from_page : ∃ x ∈ page, x ≤ i := by
    obtain ⟨first, here | here, le⟩ := from_low
    · obtain ⟨x, there, lower⟩ := above first here
      exact ⟨x, there, lower.trans le⟩
    · exact ⟨first, here, le⟩
  rcases solid i member from_page with beyond | here
  · obtain ⟨top, there | there, le⟩ := to_top
    · exact .inl (keeps i (ahead i member beyond ⟨top, there, le⟩) beyond)
    · exact (not_le.mpr (beyond top there) le).elim
  · exact .inr here

/-- A page beside what is shown, where nothing between the two is left out. -/
theorem Joined.beside (solid : Solid all page) (ahead : Ahead all page shown tops)
    (between : ∀ i ∈ all, (∃ first ∈ shown, first ≤ i) → (∃ x ∈ page, i ≤ x) →
      i ∈ shown ∨ i ∈ page) :
    Joined all (shown ∪ page) (tops ∪ page) := by
  intro i member from_low to_top
  by_cases beyond : Beyond page i
  · obtain ⟨top, here | here, le⟩ := to_top
    · exact .inl (ahead i member beyond ⟨top, here, le⟩)
    · exact (not_le.mpr (beyond top here) le).elim
  · obtain ⟨first, here | here, le⟩ := from_low
    · rw [Beyond] at beyond
      push Not at beyond
      exact between i member ⟨first, here, le⟩ beyond
    · exact .inr ((solid i member ⟨first, here, le⟩).resolve_left beyond)

end Brook.Window
