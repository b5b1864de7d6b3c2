import Brook.Stores.Recovery

namespace Brook.Stores

open Durable

namespace Store

variable {protection : Protection} {kind : Kind} {start left : Store} {key : Option Key}

/-- The next open, which nothing stops, is ready with a current database. -/
def NextReady (protection : Protection) (kind : Kind) (left : Store) : Prop :=
  ∃ rebuilt s, openAs protection kind left.restart [] = (.done (.ready rebuilt), s, []) ∧
    s.Current kind

theorem Opener.restart (own : Opener protection key left) :
    Opener protection key left.restart :=
  own.of_slot rfl

theorem not_ready {answer : Opened} {s : Store}
    (goes : Goes (openAs protection kind) left.restart answer s)
    (other : ∀ rebuilt, answer ≠ .ready rebuilt) : ¬ NextReady protection kind left := by
  rintro ⟨rebuilt, t, ready, -⟩
  exact other rebuilt (goes.unique ready).1

/-- Once the old database is removed, only a file without its `meta` row is in the
way. -/
theorem nextReady_of_left (reached : Left protection kind start left) :
    NextReady protection kind left ↔ ¬ Halfway left.trace := by
  rcases reached with gone | half | made
  · refine ⟨fun _ halfway => gone.file halfway.1, fun _ => ?_⟩
    exact next_new protection kind rfl gone.db
  · obtain ⟨d, key, there, readable, format, own⟩ := half.db
    obtain ⟨s, damaged⟩ :=
      next_half kind (show left.restart.opened = false from rfl) own.restart there
        readable format
    refine ⟨fun ready => absurd ready (not_ready damaged fun _ same => by cases same), ?_⟩
    exact fun whole => absurd ⟨half.file, half.metaRow⟩ whole
  · obtain ⟨d, key, there, readable, objects, format, own⟩ := made.db
    refine ⟨fun _ halfway => halfway.2 made.metaRow, fun _ => ?_⟩
    exact next_made (show left.restart.opened = false from rfl) own.restart there readable
      objects format

theorem nextReady_of_old {d : Database} {f : Nat} (there : start.db = some d)
    (cover : d.cover = some key) (format : d.format = some f) (other : f ≠ kind.format)
    (old : Old protection key start left) :
    NextReady protection kind left ↔ kind ≠ .outbox := by
  have here : left.restart.db = some d := old.before.db.trans there
  rcases next_format rfl old.own.restart here (Or.inr cover) format other with
    ⟨outbox, unsent, s, reported⟩ | ⟨no_outbox, ready⟩
  · exact iff_of_false (not_ready reported fun _ same => by cases same)
      (not_not_intro outbox)
  · exact iff_of_true ready no_outbox

theorem nextReady_of_foreign {d : Database} (there : start.db = some d)
    (unreadable : ¬ d.readable (some (start.slot.getD start.made)))
    (unlike : start.check ≠ some (start.slot.getD start.made))
    (decided : ¬ (start.check = none ∧ start.slot.isSome)) (foreign : Foreign start left) :
    NextReady .keyed kind left ↔ ¬ (start.check = none ∧ .key ∈ left.trace) := by
  have here : left.restart.db = some d := foreign.before.db.trans there
  have same_key : left.slot.getD left.made = start.slot.getD start.made := by
    rcases foreign.slot with ⟨slot, made, -⟩ | ⟨absent, slot, -⟩
    · rw [slot, made]
    · rw [slot, absent]
      rfl
  have made_here : (left.check = none ∧ left.slot.isSome) ↔
      (start.check = none ∧ .key ∈ left.trace) := by
    rw [foreign.check]
    rcases foreign.slot with ⟨slot, -, no_key⟩ | ⟨absent, slot, with_key⟩
    · rw [slot]
      exact iff_of_false decided fun both => no_key both.2
    · simp [slot, with_key]
  rw [← same_key] at unreadable
  have unlike' : left.restart.check ≠ some (left.slot.getD left.made) := by
    rw [same_key, show left.restart.check = left.check from rfl, foreign.check]
    exact unlike
  rw [← made_here]
  rcases next_unreadable kind rfl here unreadable unlike' with
    ⟨absent, some_key, s, damaged⟩ | ⟨claimed, ready⟩
  · exact iff_of_false (not_ready damaged fun _ same => by cases same)
      (not_not_intro ⟨absent, some_key⟩)
  · exact iff_of_true ready claimed

theorem crashed_at {P : Store → Prop} {A : Opened → Store → Prop} {R : Store → Prop}
    {x : Step Opened} {fates rest : List Fate} (triple : Triple P x A R) (met : P start)
    (crashed : x start fates = (.crashed, left, rest)) : R left := by
  have ends := triple start fates met
  rw [crashed] at ends
  exact ends

end Store

open Store

/-- The next open is ready exactly where the crash did not come between the new file
and its `meta` row, nor before the removal where only the call knew what to do. -/
theorem crash_while_making (protection : Protection) (kind : Kind) (scenario : Scenario)
    (start left : Store) (fates rest : List Fate) (clean : start.trace = [])
    (finds : scenario.Finds protection kind start)
    (crashed : scenario.run protection kind start fates = (.crashed, left, rest)) :
    (∃ rebuilt s, openAs protection kind left.restart [] =
        (.done (.ready rebuilt), s, []) ∧ s.Current kind) ↔
      ¬ Halfway left.trace ∧ ¬ scenario.Undecided kind start left.trace := by
  have begun : Before start start :=
    ⟨rfl, by simp [clean], by simp [clean], by simp [clean]⟩
  have settled : ∀ {undecided : Prop}, (undecided → .removeDb ∉ left.trace) →
      (start.db.isSome ∨ ¬ undecided) → Left protection kind start left →
      (NextReady protection kind left ↔ ¬ Halfway left.trace ∧ ¬ undecided) := by
    intro undecided not_removed there reached
    rw [nextReady_of_left reached]
    refine ⟨fun whole => ⟨whole, fun open_still => ?_⟩, fun both => both.1⟩
    rcases there with there | decided
    · apply not_removed open_still
      rcases reached with gone | half | made
      · exact gone.cleared there
      · exact half.cleared there
      · exact made.cleared there
    · exact decided open_still
  cases scenario with
  | firstOpen =>
      have gone : Gone start start :=
        ⟨finds, begun.file, begun.metaRow, fun there => by rw [finds] at there; cases there⟩
      have reached := crashed_at (cut_reserved cut_openReserved_new
        fun _ met => Or.inl met) gone crashed
      exact settled (fun no => no.elim) (Or.inr not_false) reached
  | formatChange =>
      obtain ⟨d, key, f, there, own, cover, format, other⟩ := finds
      have old : Old protection key start start := ⟨begun, own⟩
      have cut : Old protection key start left ∨ Left protection kind start left := by
        rw [Scenario.run] at crashed
        split at crashed
        case isTrue =>
          exact crashed_at (cut_reserved cut_rebuild fun _ met => Or.inl met) old crashed
        case isFalse no_outbox =>
          exact crashed_at (cut_reserved
            (cut_openReserved_old there cover format other no_outbox)
            fun _ met => Or.inl met) old crashed
      rcases cut with kept | reached
      · have ready := nextReady_of_old there cover format other kept
        refine ready.trans ⟨fun no_outbox => ⟨?_, fun both => no_outbox both.1⟩, ?_⟩
        · exact fun halfway => kept.before.file halfway.1
        · exact fun both outbox => both.2 ⟨outbox, kept.before.removeDb⟩
      · exact settled (fun both => both.2) (Or.inl (by rw [there]; rfl)) reached
  | keyMissing =>
      obtain ⟨rfl, ⟨d, there, unreadable⟩, unlike, decided⟩ := finds
      have cut : Foreign start left ∨ Left .keyed kind start left := by
        refine crashed_at (cut_reserved
          (cut_openReserved_foreign there unreadable unlike decided clean) ?_) rfl crashed
        rintro s rfl
        exact Or.inl ⟨begun, rfl, Or.inl ⟨rfl, rfl, by simp [clean]⟩⟩
      rcases cut with kept | reached
      · have ready : NextReady .keyed kind left ↔ _ :=
          nextReady_of_foreign there unreadable unlike decided kept
        refine ready.trans ⟨fun claimed => ⟨?_, fun both => claimed ⟨both.1, both.2.1⟩⟩, ?_⟩
        · exact fun halfway => kept.before.file halfway.1
        · exact fun both unclaimed =>
            both.2 ⟨unclaimed.1, unclaimed.2, kept.before.removeDb⟩
      · exact settled (fun both => both.2.2) (Or.inl (by rw [there]; rfl)) reached

/-- Nothing on disk, and no key. -/
def Store.nothing : Store := ⟨none, 0, none, none, none, false, [], []⟩

/-- What is left where the crash comes after the last step that goes through. -/
def Store.cutAfter (steps : Nat) : Store :=
  (openAs .keyed .index Store.nothing (List.replicate steps .goes ++ [.crash])).2.1

/-- Between two statements of the schema, the crash leaves a store that counts as
damaged. -/
theorem crash_inside_schema_damages :
    ¬ ∀ (protection : Protection) (kind : Kind) (scenario : Scenario)
      (start left : Store) (fates rest : List Fate), start.trace = [] →
      scenario.Finds protection kind start →
      scenario.run protection kind start fates = (.crashed, left, rest) →
      ∃ rebuilt s, openAs protection kind left.restart [] =
        (.done (.ready rebuilt), s, []) ∧ s.Current kind := by
  intro claim
  obtain ⟨rebuilt, s, ready, -⟩ := claim .keyed .index .firstOpen Store.nothing
    (Store.cutAfter 5) (List.replicate 5 .goes ++ [.crash]) [] rfl rfl rfl
  have damaged : (openAs .keyed .index (Store.cutAfter 5).restart []).1 =
      .done .damaged := rfl
  rw [ready] at damaged
  cases damaged

/-- After the `meta` row, a crash before the check is recovered from. -/
theorem crash_before_check_recovers :
    ∃ rebuilt s, openAs .keyed .index (Store.cutAfter 7).restart [] =
      (.done (.ready rebuilt), s, []) ∧ s.Current .index :=
  (crash_while_making .keyed .index .firstOpen Store.nothing (Store.cutAfter 7)
    (List.replicate 7 .goes ++ [.crash]) [] rfl rfl rfl).mpr
      ⟨fun halfway => halfway.2 (by decide), not_false⟩

end Brook.Stores
