import Mathlib.Data.List.Basic
import Mathlib.Data.List.Induction

namespace Brook.Transition

universe u

variable {Event : Type u} {because : List Event → Event → Prop}

/-! Logs: what has happened, the latest entry last. -/

/-- Every entry has its reason in the entries before it. -/
def Justified (because : List Event → Event → Prop) (log : List Event) : Prop :=
  ∀ front event back, log = front ++ event :: back → because front event

namespace Justified

theorem nil : Justified because [] := by
  intro front event back split
  simp at split

theorem snoc_iff {log : List Event} {event : Event} :
    Justified because (log ++ [event]) ↔ Justified because log ∧ because log event := by
  constructor
  · intro justified
    refine ⟨fun front earlier back split => ?_, justified log event [] rfl⟩
    exact justified front earlier (back ++ [event]) (by simp [split])
  · rintro ⟨justified, reason⟩ front last back split
    rcases List.eq_nil_or_concat back with rfl | ⟨rest, final, rfl⟩
    · obtain ⟨rfl, same⟩ := List.append_inj' split rfl
      cases same
      exact reason
    · rw [List.concat_eq_append, ← List.cons_append, ← List.append_assoc] at split
      exact justified front last rest (List.append_inj' split rfl).1

theorem snoc {log : List Event} {event : Event} (justified : Justified because log)
    (reason : because log event) : Justified because (log ++ [event]) :=
  snoc_iff.mpr ⟨justified, reason⟩

/-- Several entries at once, each with its reason in what comes before it. -/
theorem append {log later : List Event} (justified : Justified because log)
    (reasons : ∀ front event back, later = front ++ event :: back → because (log ++ front) event) :
    Justified because (log ++ later) := by
  induction later using List.reverseRecOn with
  | nil => simpa using justified
  | append_singleton rest last ih =>
      rw [← List.append_assoc]
      refine snoc (ih fun front event back split => ?_) (reasons rest last [] rfl)
      exact reasons front event (back ++ [last]) (by simp [split])

/-- The reasons of a single entry, as `append` asks for them. -/
theorem single {log : List Event} {event : Event} (reason : because log event)
    (front : List Event) (other : Event) (back : List Event)
    (split : [event] = front ++ other :: back) : because (log ++ front) other := by
  cases front with
  | cons => simp at split
  | nil =>
      simp only [List.nil_append, List.cons.injEq] at split
      rw [List.append_nil]
      exact split.1 ▸ reason

end Justified

end Brook.Transition
