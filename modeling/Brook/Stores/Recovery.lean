import Brook.Stores.Cut

namespace Brook.Stores

open Durable

/-! A crash while a store is being made, and the next open. -/

/-- When a store is made. -/
inductive Scenario
  | firstOpen
  | keyMissing
  | formatChange

namespace Scenario

/-- The call that makes the store; an outbox in another format is rebuilt by a call of
its own. -/
def run (protection : Protection) (kind : Kind) : Scenario → Step Opened
  | .formatChange =>
      if kind = .outbox then Store.rebuild protection kind else Store.openAs protection kind
  | .firstOpen | .keyMissing => Store.openAs protection kind

/-- What the call finds. -/
def Finds (protection : Protection) (kind : Kind) (start : Store) : Scenario → Prop
  | .firstOpen => start.db = none
  | .formatChange => ∃ d key f, start.db = some d ∧ Store.Opener protection key start ∧
      d.cover = some key ∧ d.format = some f ∧ f ≠ kind.format
  | .keyMissing => protection = .keyed ∧
      (∃ d, start.db = some d ∧ ¬ d.readable (some (start.slot.getD start.made))) ∧
      start.check ≠ some (start.slot.getD start.made) ∧
      ¬ (start.check = none ∧ start.slot.isSome)

/-- The crash came before anything was removed, and what the next open would have
to know is not on disk: that the key was made by this call, or that the outbox was to
be rebuilt. -/
def Undecided (kind : Kind) (start : Store) (trace : List Op) : Scenario → Prop
  | .firstOpen => False
  | .formatChange => kind = .outbox ∧ .removeDb ∉ trace
  | .keyMissing => start.check = none ∧ .key ∈ trace ∧ .removeDb ∉ trace

end Scenario

/-- The crash came after the new database file was made and before its `meta` row. -/
def Halfway (trace : List Op) : Prop := .file ∈ trace ∧ .metaRow ∉ trace

namespace Store

variable {protection : Protection} {kind : Kind} {start s : Store} {key : Option Key}

theorem cut_reserved {P R : Store → Prop} {A : Opened → Store → Prop} {x : Step Opened}
    (inside : Triple P x A R) (stopped : ∀ s, P s → R s) : Triple P (reserved x) A R := by
  apply Triple.bind (fun _ s => P s)
  · exact Triple.step stopped fun _ met => met
  · intro _
    apply Triple.bind (fun _ s => P s)
    · exact Triple.get fun _ met => met
    · intro t
      split
      case isTrue => exact Triple.fail stopped
      case isFalse => exact inside

/-! ### Another format -/

/-- The database is there as it was, and the key opens it. -/
structure Old (protection : Protection) (key : Option Key) (start s : Store) : Prop where
  before : Before start s
  own : Opener protection key s

theorem Old.same (old : Old protection key start s) {s' : Store} (db : s'.db = s.db)
    (slot : s'.slot = s.slot) {more : List Op} (trace : s'.trace = s.trace ++ more)
    (none_removed : .removeDb ∉ more) (none_made : .file ∉ more)
    (no_row : .metaRow ∉ more) : Old protection key start s' where
  before := {
    db := db.trans old.before.db
    removeDb := by simp [trace, old.before.removeDb, none_removed]
    file := by simp [trace, old.before.file, none_made]
    metaRow := by simp [trace, old.before.metaRow, no_row] }
  own := old.own.of_slot slot

theorem cut_connect_old {d : Database} (there : start.db = some d)
    (cover : d.cover = some key) :
    Triple (Old protection key start) (connect key)
      (fun _ s => Old protection key start s) (Old protection key start) := by
  apply Triple.bind (fun t s => t = s ∧ Old protection key start s)
  · exact Triple.get fun s old => ⟨rfl, old⟩
  · intro t
    split
    case isFalse absent =>
      apply Triple.pointwise
      rintro s ⟨rfl, old⟩
      rw [old.before.db, there] at absent
      exact absurd rfl absent
    case isTrue =>
      apply Triple.attempt
      · exact fun s met => met.2
      · exact fun s met _ _ => met.2
      · rintro s ⟨-, old⟩
        have db : s.db = some d := old.before.db.trans there
        have kept : some { d with cover := some key } = s.db := by
          rw [db, ← cover]
        rw [db]
        dsimp only
        rw [if_pos (show d.readable key from Or.inr cover)]
        have noted : (note .cover { s with db := some { d with cover := some key } }).trace =
            s.trace ++ [.cover] := rfl
        exact old.same kept rfl noted (by decide) (by decide) (by decide)

/-- The files of another key's database are removed and a new one is made. -/
theorem cut_keyMissing (kind : Kind) {k : Key} (before : Before start s)
    (own : Opener .keyed (some k) s) :
    Triple (fun t => t = s)
      (Run.bind removeAll fun _ =>
        Run.bind (create kind k) fun _ => Run.pure (Inner.ready (some .keyMissing)))
      (fun inner t => inner = .ready (some .keyMissing) ∧ Made .keyed kind start t)
      (fun t => t = s ∨ Left .keyed kind start t) := by
  apply Triple.bind (fun _ t => Gone start t ∧ Opener .keyed (some k) t)
  · apply (cut_removeAll s).weaken (fun _ met => met)
    · rintro _ t ⟨db, slot, more, trace, removed, file, metaRow⟩
      exact ⟨before.gone db trace removed file metaRow, own.of_slot slot⟩
    · rintro t (same | ⟨db, more, trace, removed, file, metaRow⟩)
      · exact Or.inl same
      · exact Or.inr (Or.inl (before.gone db trace removed file metaRow))
  · intro _
    apply Triple.bind _ ((cut_create k).weaken (fun _ met => met) (fun _ _ met => met)
      (fun _ met => Or.inr met))
    intro _
    exact Triple.pure fun _ made => ⟨rfl, made⟩

theorem cut_openFound_old {d : Database} {k : Key} (kind : Kind) (madeNow : Bool)
    (check : Option Key) (there : start.db = some d) (cover : d.cover = some (some k)) :
    Triple (Old .keyed (some k) start) (openFound kind k madeNow check)
      (fun inner s => (∃ rebuilt, inner = .ready rebuilt) →
        inner = .ready none ∧ Old .keyed (some k) start s ∨ Made .keyed kind start s)
      (fun s => Old .keyed (some k) start s ∨ Left .keyed kind start s) := by
  apply Triple.bind _ ((cut_connect_old there cover).weaken (fun _ met => met)
    (fun _ _ met => met) (fun _ met => Or.inl met))
  intro connected
  cases connected with
  | true =>
      rw [if_pos rfl]
      split
      case isTrue => exact Triple.pure fun s old _ => Or.inl ⟨rfl, old⟩
      case isFalse =>
        apply Triple.bind (fun _ s => Old .keyed (some k) start s)
        · apply (writeCheck_keeps _).weaken (fun _ met => met) (fun _ _ met => met)
            (fun _ met => Or.inl met)
          rintro s s' old db slot ⟨more, trace, only⟩
          refine old.same db slot trace ?_ ?_ ?_
          all_goals
            intro mem
            rcases only _ mem with same | same <;> cases same
        · intro _
          exact Triple.pure fun s old _ => Or.inl ⟨rfl, old⟩
  | false =>
      rw [if_neg (by decide)]
      split
      case isTrue =>
        apply Triple.pointwise
        intro s old
        apply (cut_keyMissing kind old.before old.own).weaken (fun _ met => met)
        · exact fun _ t made _ => Or.inr made.2
        · rintro t (rfl | left_over)
          · exact Or.inl old
          · exact Or.inr left_over
      case isFalse =>
        refine Triple.pure fun s _ ready => ?_
        obtain ⟨rebuilt, same⟩ := ready
        cases same

theorem cut_openInner_old {d : Database} (there : start.db = some d)
    (cover : d.cover = some key) :
    Triple (Old protection key start) (openInner protection kind)
      (fun inner s => (∃ rebuilt, inner = .ready rebuilt) →
        inner = .ready none ∧ Old protection key start s ∨ Made protection kind start s)
      (fun s => Old protection key start s ∨ Left protection kind start s) := by
  have present : ∀ {t s : Store}, t = s ∧ Old protection key start s → t.db.isSome := by
    rintro t s ⟨rfl, old⟩
    rw [old.before.db, there]
    rfl
  cases protection with
  | plain =>
      rw [openInner, if_neg (by decide), openPlain]
      apply Triple.bind (fun t s => t = s ∧ Old .plain key start s)
      · exact Triple.get fun s old => ⟨rfl, old⟩
      · intro t
        apply Triple.pointwise
        intro s met
        rw [if_pos (present met)]
        have no_key : key = none := met.2.own
        subst no_key
        apply Triple.bind _ ((cut_connect_old there cover).weaken
          (fun t same => same ▸ met.2) (fun _ _ met => met) (fun _ met => Or.inl met))
        intro connected
        refine Triple.pure fun s old ready => Or.inl ⟨?_, old⟩
        obtain ⟨rebuilt, same⟩ := ready
        cases connected with
        | false => cases same
        | true => rfl
  | keyed =>
      rw [openInner, if_pos rfl, openKeyed]
      apply Triple.bind _ ((cut_getOrCreate
        (Q := fun k _ s => some k = key ∧ Old .keyed key start s)
        (fun s k old slot => ⟨slot.symm.trans old.own.2, old⟩) ?_).weaken
          (fun _ met => met) (fun _ _ met => met) (fun _ met => Or.inl met))
      · intro answer
        cases answer with
        | none =>
            refine Triple.pure fun s _ ready => ?_
            obtain ⟨rebuilt, same⟩ := ready
            cases same
        | some answer =>
            obtain ⟨k, madeNow⟩ := answer
            apply Triple.bind (fun t s => t = s ∧ some k = key ∧ Old .keyed key start s)
            · exact Triple.get fun s met => ⟨rfl, met⟩
            · intro t
              apply Triple.pointwise
              rintro s ⟨same, rfl, old⟩
              rw [if_pos (present ⟨same, old⟩)]
              apply Triple.bind (fun _ s => Old .keyed (some k) start s)
              · apply Triple.attempt
                · rintro t rfl
                  exact Or.inl old
                · intro _ _ _ refused
                  cases refused
                · rintro t rfl
                  exact old
              · intro check
                exact cut_openFound_old kind madeNow check there cover
      · intro s old slot
        have own := old.own.2
        have some_key := old.own.1
        rw [← own, slot] at some_key
        cases some_key

/-- The database of another format is remade, unless it is an outbox. -/
theorem cut_openReserved_old {d : Database} {f : Nat} (there : start.db = some d)
    (cover : d.cover = some key) (format : d.format = some f) (other : f ≠ kind.format)
    (no_outbox : kind ≠ .outbox) :
    Triple (Old protection key start) (openReserved protection kind) (fun _ _ => True)
      (fun s => Old protection key start s ∨ Left protection kind start s) := by
  apply Triple.bind _ (cut_openInner_old there cover)
  intro inner
  cases inner with
  | other opened => exact Triple.pure fun _ _ => trivial
  | ready rebuilt =>
      cases rebuilt with
      | some reason =>
          apply (cut_spawn (some reason)).weaken
          · intro s met
            rcases met ⟨_, rfl⟩ with ⟨same, -⟩ | made
            · cases same
            · exact made
          · exact fun _ _ met => met
          · exact fun _ met => Or.inr met
      | none =>
          apply Triple.bind (fun found s => Old protection key start s ∧
              (found = none ∨ found = some f) ∨
            Made protection kind start s ∧ (found = none ∨ found = some kind.format))
          · apply Triple.attempt
            · intro s met
              rcases met ⟨_, rfl⟩ with ⟨-, old⟩ | made
              · exact Or.inl old
              · exact Or.inr (Or.inr (Or.inr made))
            · intro s met a refused
              cases refused
              rcases met ⟨_, rfl⟩ with ⟨-, old⟩ | made
              · exact Or.inl ⟨old, Or.inl rfl⟩
              · exact Or.inr ⟨made, Or.inl rfl⟩
            · intro s met
              rcases met ⟨_, rfl⟩ with ⟨-, old⟩ | made
              · refine Or.inl ⟨old, Or.inr ?_⟩
                rw [old.before.db, there, Option.bind_some, format]
              · obtain ⟨e, _, here, -, -, current, -⟩ := made.db
                refine Or.inr ⟨made, Or.inr ?_⟩
                rw [here, Option.bind_some, current]
          · intro found
            split
            case isTrue => exact Triple.pure fun _ _ => trivial
            case isFalse some_format =>
              split
              case isTrue current =>
                apply (cut_spawn none).weaken
                · rintro s (⟨-, none_found | same⟩ | ⟨made, -⟩)
                  · exact absurd none_found some_format
                  · exact absurd (Option.some.inj (same.symm.trans current)) other
                  · exact made
                · exact fun _ _ met => met
                · exact fun _ met => Or.inr met
              case isFalse changed =>
                apply Triple.pointwise
                rintro s (⟨old, -⟩ | ⟨-, none_found | same⟩)
                · apply Triple.bind (fun _ t => Gone start t)
                  · apply (cut_removeAll s).weaken (fun _ met => met)
                    · rintro _ t ⟨db, slot, more, trace, removed, file, metaRow⟩
                      exact old.before.gone db trace removed file metaRow
                    · rintro t (rfl | ⟨db, more, trace, removed, file, metaRow⟩)
                      · exact Or.inl old
                      · exact Or.inr (Or.inl
                          (old.before.gone db trace removed file metaRow))
                  · intro _
                    apply Triple.bind _ (cut_openInner_new.weaken (fun _ met => met)
                      (fun _ _ met => met) (fun _ met => Or.inr met))
                    intro inner
                    cases inner with
                    | other opened => exact Triple.pure fun _ _ => trivial
                    | ready rebuilt =>
                        exact (cut_spawn (some .formatChanged)).weaken
                          (fun _ met => met ⟨_, rfl⟩) (fun _ _ met => met)
                          (fun _ met => Or.inr met)
                · exact absurd none_found some_format
                · exact absurd same changed

/-- An outbox in another format is removed first, by a call of its own. -/
theorem cut_rebuild :
    Triple (Old protection key start)
      (Run.bind removeAll fun _ => openReserved protection kind) (fun _ _ => True)
      (fun s => Old protection key start s ∨ Left protection kind start s) := by
  apply Triple.pointwise
  intro s old
  apply Triple.bind (fun _ t => Gone start t)
  · apply (cut_removeAll s).weaken (fun _ met => met)
    · rintro _ t ⟨db, slot, more, trace, removed, file, metaRow⟩
      exact old.before.gone db trace removed file metaRow
    · rintro t (rfl | ⟨db, more, trace, removed, file, metaRow⟩)
      · exact Or.inl old
      · exact Or.inr (Or.inl (old.before.gone db trace removed file metaRow))
  · intro _
    exact cut_openReserved_new.weaken (fun _ met => met) (fun _ _ met => met)
      (fun _ met => Or.inr met)

/-! ### A missing key -/

/-- Another key's database is there as it was; the key may have been made. -/
structure Foreign (start s : Store) : Prop where
  before : Before start s
  check : s.check = start.check
  slot : s.slot = start.slot ∧ s.made = start.made ∧ .key ∉ s.trace ∨
    start.slot = none ∧ s.slot = some start.made ∧ .key ∈ s.trace

theorem cut_connect_foreign {d : Database} {k : Key} {P : Store → Prop}
    (there : ∀ s, P s → s.db = some d) (unreadable : ¬ d.readable (some k)) :
    Triple P (connect (some k)) (fun connected s => connected = false ∧ P s) P := by
  apply Triple.bind (fun t s => t = s ∧ P s)
  · exact Triple.get fun s met => ⟨rfl, met⟩
  · intro t
    apply Triple.pointwise
    rintro s ⟨rfl, met⟩
    rw [if_pos (by rw [there t met]; rfl)]
    apply Triple.attempt
    · rintro s rfl
      exact met
    · rintro s rfl a refused
      cases refused
      exact ⟨rfl, met⟩
    · rintro s rfl
      rw [there s met]
      dsimp only
      rw [if_neg unreadable]
      exact ⟨rfl, met⟩

theorem cut_openInner_foreign {d : Database} (there : start.db = some d)
    (unreadable : ¬ d.readable (some (start.slot.getD start.made)))
    (unlike : start.check ≠ some (start.slot.getD start.made))
    (decided : ¬ (start.check = none ∧ start.slot.isSome)) (clean : start.trace = []) :
    Triple (fun s => s = start) (openInner .keyed kind)
      (fun inner s => inner = .ready (some .keyMissing) ∧ Made .keyed kind start s ∨
        ∃ opened, inner = .other opened)
      (fun s => Foreign start s ∨ Left .keyed kind start s) := by
  rw [openInner, if_pos rfl, openKeyed]
  have begun : Foreign start start :=
    ⟨⟨rfl, by simp [clean], by simp [clean], by simp [clean]⟩, rfl,
      Or.inl ⟨rfl, rfl, by simp [clean]⟩⟩
  apply Triple.bind _ ((cut_getOrCreate
    (Q := fun k madeNow s => Foreign start s ∧ s.slot = some k ∧
      k = start.slot.getD start.made ∧ (madeNow = true ↔ start.slot = none)) ?_ ?_).weaken
      (fun _ met => met) (fun _ _ met => met) (fun s same => Or.inl (same ▸ begun)))
  · intro answer
    cases answer with
    | none => exact Triple.pure fun s _ => Or.inr ⟨_, rfl⟩
    | some answer =>
        obtain ⟨k, madeNow⟩ := answer
        apply Triple.bind (fun t s => t = s ∧ Foreign start s ∧ s.slot = some k ∧
          k = start.slot.getD start.made ∧ (madeNow = true ↔ start.slot = none))
        · exact Triple.get fun s met => ⟨rfl, met⟩
        · intro t
          apply Triple.pointwise
          rintro s ⟨rfl, foreign, slot, key_is, new⟩
          rw [if_pos (by rw [foreign.before.db, there]; rfl)]
          rw [← key_is] at unreadable unlike
          apply Triple.bind (fun check s => check = start.check ∧ s = t)
          · apply Triple.attempt
            · rintro s rfl
              exact Or.inl foreign
            · intro _ _ _ refused
              cases refused
            · rintro s rfl
              exact ⟨foreign.check, rfl⟩
          · intro check
            apply Triple.pointwise
            rintro s ⟨rfl, rfl⟩
            have proof : (start.check.isSome ∧ start.check ≠ some k) ∨
                (start.check = none ∧ madeNow) := by
              cases checked : start.check with
              | some other_key => exact Or.inl ⟨rfl, checked ▸ unlike⟩
              | none =>
                  refine Or.inr ⟨rfl, new.mpr ?_⟩
                  rw [checked] at decided
                  simpa using decided
            have refused : Triple (fun u => u = s) (connect (some k))
                (fun connected u => connected = false ∧ u = s) (fun u => u = s) :=
              cut_connect_foreign (fun u same => same ▸ foreign.before.db.trans there)
                unreadable
            apply Triple.bind _ (refused.weaken (fun _ met => met) (fun _ _ met => met)
              (fun u same => Or.inl (same ▸ foreign)))
            intro connected
            apply Triple.pointwise
            rintro t ⟨rfl, rfl⟩
            rw [if_neg (by decide), if_pos proof]
            apply (cut_keyMissing kind foreign.before ⟨rfl, slot⟩).weaken
              (fun _ met => met)
            · exact fun _ _ made => Or.inl made
            · rintro s (rfl | left_over)
              · exact Or.inl foreign
              · exact Or.inr left_over
  · rintro s k rfl slot
    exact ⟨begun, slot, by rw [slot]; rfl, by simp [slot]⟩
  · rintro s rfl slot
    refine ⟨⟨⟨rfl, ?_, ?_, ?_⟩, rfl, Or.inr ⟨slot, rfl, ?_⟩⟩, rfl, by rw [slot]; rfl,
      by simp [slot]⟩
    all_goals simp [note, clean]

theorem cut_openReserved_foreign {d : Database} (there : start.db = some d)
    (unreadable : ¬ d.readable (some (start.slot.getD start.made)))
    (unlike : start.check ≠ some (start.slot.getD start.made))
    (decided : ¬ (start.check = none ∧ start.slot.isSome)) (clean : start.trace = []) :
    Triple (fun s => s = start) (openReserved .keyed kind) (fun _ _ => True)
      (fun s => Foreign start s ∨ Left .keyed kind start s) := by
  apply Triple.bind _ (cut_openInner_foreign there unreadable unlike decided clean)
  intro inner
  cases inner with
  | other opened => exact Triple.pure fun _ _ => trivial
  | ready rebuilt =>
      apply Triple.pointwise
      rintro s (⟨same, made⟩ | ⟨opened, same⟩)
      · cases same
        exact (cut_spawn (some .keyMissing)).weaken (fun t same => same ▸ made)
          (fun _ _ met => met) (fun _ met => Or.inr met)
      · cases same

end Store

end Brook.Stores
