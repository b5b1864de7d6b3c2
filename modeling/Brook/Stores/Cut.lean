import Brook.Stores.Making

namespace Brook.Stores

open Durable

/-! Where the making of a store can be cut off. -/

namespace Store

variable {protection : Protection} {kind : Kind} {start s : Store} {key : Option Key}

/-- Whatever was there before is removed. -/
def Cleared (start s : Store) : Prop := start.db.isSome → .removeDb ∈ s.trace

/-- There is no database. -/
structure Gone (start s : Store) : Prop where
  db : s.db = none
  file : .file ∉ s.trace
  metaRow : .metaRow ∉ s.trace
  cleared : Cleared start s

/-- There is a new database without its `meta` row. -/
structure Half (protection : Protection) (start s : Store) : Prop where
  db : ∃ d key, s.db = some d ∧ d.readable key ∧ d.format = none ∧ Opener protection key s
  file : .file ∈ s.trace
  metaRow : .metaRow ∉ s.trace
  cleared : Cleared start s

/-- The new database has its schema and its `meta` row. -/
structure Made (protection : Protection) (kind : Kind) (start s : Store) : Prop where
  db : ∃ d key, s.db = some d ∧ d.readable key ∧ d.objects = kind.schema ∧
    d.format = some kind.format ∧ Opener protection key s
  metaRow : .metaRow ∈ s.trace
  cleared : Cleared start s

/-- What the making of a new database can leave. -/
def Left (protection : Protection) (kind : Kind) (start s : Store) : Prop :=
  Gone start s ∨ Half protection start s ∨ Made protection kind start s

/-- The new file, opened and still empty. -/
structure Fresh (protection : Protection) (start : Store) (key : Option Key)
    (s : Store) : Prop where
  db : s.db = some { Database.empty with cover := some key }
  own : Opener protection key s
  file : .file ∈ s.trace
  metaRow : .metaRow ∉ s.trace
  cleared : Cleared start s

theorem Opener.of_slot {s' : Store} (own : Opener protection key s)
    (slot : s'.slot = s.slot) : Opener protection key s' := by
  cases protection with
  | plain => exact own
  | keyed => exact ⟨own.1, slot.trans own.2⟩

theorem Gone.note_file (gone : Gone start s) (own : Opener protection key s) :
    Half protection start (note .file { s with db := some Database.empty }) where
  db := ⟨Database.empty, key, rfl, Or.inl rfl, rfl, own.of_slot rfl⟩
  file := List.mem_append_right _ (List.mem_singleton.mpr rfl)
  metaRow := by simp [note, gone.metaRow]
  cleared := fun there => List.mem_append_left _ (gone.cleared there)

theorem Gone.note_cover (gone : Gone start s) (own : Opener protection key s) :
    Fresh protection start key (note .cover
      { note .file { s with db := some Database.empty } with
        db := some { Database.empty with cover := some key } }) where
  db := rfl
  own := own.of_slot rfl
  file := List.mem_append_left _ (List.mem_append_right _ (List.mem_singleton.mpr rfl))
  metaRow := by simp [note, gone.metaRow]
  cleared := fun there =>
    List.mem_append_left _ (List.mem_append_left _ (gone.cleared there))

theorem cut_connect :
    Triple (fun s => Gone start s ∧ Opener protection key s) (connect key)
      (fun connected s => (connected = true → Fresh protection start key s) ∧
        (connected = false → Left protection kind start s))
      (Left protection kind start) := by
  apply Triple.bind (fun t s => t = s ∧ Gone start s ∧ Opener protection key s)
  · exact Triple.get fun s met => ⟨rfl, met⟩
  · intro t
    split
    case isTrue there =>
      apply Triple.pointwise
      rintro s ⟨rfl, gone, -⟩
      rw [gone.db] at there
      cases there
    case isFalse =>
      apply Triple.bind (fun there s => (there = true →
        ∃ s₀, Gone start s₀ ∧ Opener protection key s₀ ∧
          s = note .file { s₀ with db := some Database.empty }) ∧
        (there = false → Gone start s))
      · apply Triple.attempt
        · exact fun s met => Or.inl met.2.1
        · intro s met a refused
          cases refused
          exact ⟨fun there => (by cases there), fun _ => met.2.1⟩
        · exact fun s met =>
            ⟨fun _ => ⟨s, met.2.1, met.2.2, rfl⟩, fun there => (by cases there)⟩
      · intro there
        cases there with
        | false =>
            exact Triple.pure fun _ met =>
              ⟨fun connected => (by cases connected), fun _ => Or.inl (met.2 rfl)⟩
        | true =>
            rw [if_pos rfl]
            apply Triple.attempt
            · intro s met
              obtain ⟨s₀, gone, own, rfl⟩ := met.1 rfl
              exact Or.inr (Or.inl (gone.note_file own))
            · intro s met a refused
              cases refused
              obtain ⟨s₀, gone, own, rfl⟩ := met.1 rfl
              exact ⟨fun connected => (by cases connected),
                fun _ => Or.inr (Or.inl (gone.note_file own))⟩
            · intro s met
              obtain ⟨s₀, gone, own, rfl⟩ := met.1 rfl
              exact ⟨fun _ => gone.note_cover own, fun connected => (by cases connected)⟩

theorem cut_createSchema :
    Triple (Fresh protection start key) (createSchema kind)
      (fun _ s => Made protection kind start s) (Left protection kind start) := by
  have prefix_of : ∀ s, Fresh protection start key s → ∀ names : List String,
      ((names.map addObject).foldl (fun s f => f s) s).db =
        some { Database.empty with cover := some key, objects := names } ∧
      Half protection start ((names.map addObject).foldl (fun s f => f s) s) := by
    intro s fresh names
    rw [foldl_addObject, fresh.db]
    refine ⟨rfl, ⟨_, key, rfl, Or.inr rfl, rfl, fresh.own.of_slot rfl⟩, ?_, ?_, ?_⟩
    · exact List.mem_append_left _ fresh.file
    · simp [fresh.metaRow]
    · exact fun there => List.mem_append_left _ (fresh.cleared there)
  apply Triple.bind (fun _ s => s.db =
      some { Database.empty with cover := some key, objects := kind.schema } ∧
    Half protection start s ∧ Opener protection key s)
  · apply Triple.steps
    · intro s fresh n
      rw [← List.map_take]
      exact Or.inr (Or.inl (prefix_of s fresh _).2)
    · intro s fresh
      obtain ⟨db, half⟩ := prefix_of s fresh kind.schema
      refine ⟨db, half, ?_⟩
      rw [foldl_addObject]
      exact fresh.own.of_slot rfl
  · intro _
    apply Triple.step
    · exact fun s met => Or.inr (Or.inl met.2.1)
    · rintro s ⟨db, half, own⟩
      refine ⟨⟨{ Database.empty with
          cover := some key, objects := kind.schema, format := some kind.format },
        key, ?_, Or.inr rfl, rfl, rfl, own.of_slot rfl⟩, ?_, ?_⟩
      · simp [insertMeta, note, db]
      · exact List.mem_append_right _ (List.mem_singleton.mpr rfl)
      · exact fun there => List.mem_append_left _ (half.cleared there)

theorem Made.note_check {s' : Store} (made : Made protection kind start s)
    (db : s'.db = s.db) (slot : s'.slot = s.slot)
    (trace : ∀ op ∈ s.trace, op ∈ s'.trace) : Made protection kind start s' := by
  obtain ⟨d, key, there, readable, objects, format, own⟩ := made.db
  exact ⟨⟨d, key, db.trans there, readable, objects, format, own.of_slot slot⟩,
    trace _ made.metaRow, fun there => trace _ (made.cleared there)⟩

/-- The steps of writing a check touch nothing but the check. -/
theorem writeCheck_keeps {P : Store → Prop} {k : Key}
    (kept : ∀ s s', P s → s'.db = s.db → s'.slot = s.slot →
      (∃ more, s'.trace = s.trace ++ more ∧ ∀ op ∈ more, op = .checkTmp ∨ op = .checkRename) →
      P s') :
    Triple P (writeCheck k) (fun _ => P) P := by
  have tmp : ∀ s, P s → P (note .checkTmp { s with tmp := some k }) :=
    fun s met => kept s _ met rfl rfl
      ⟨[.checkTmp], rfl, fun op mem => Or.inl (List.mem_singleton.mp mem)⟩
  have renamed : ∀ s, P s → P (note .checkRename { s with check := some k, tmp := none }) :=
    fun s met => kept s _ met rfl rfl
      ⟨[.checkRename], rfl, fun op mem => Or.inr (List.mem_singleton.mp mem)⟩
  apply Triple.steps
  · intro s met n
    rcases n with _ | _ | n
    · exact met
    · exact tmp s met
    · cases n with
      | zero => exact renamed _ (tmp s met)
      | succ n =>
          rw [List.take_of_length_le (by simp)]
          exact renamed _ (tmp s met)
  · exact fun s met => renamed _ (tmp s met)

theorem cut_create (k : Key) :
    Triple (fun s => Gone start s ∧ Opener .keyed (some k) s) (create kind k)
      (fun _ s => Made .keyed kind start s) (Left .keyed kind start) := by
  apply Triple.bind _ cut_connect
  intro connected
  cases connected with
  | false => exact Triple.fail fun s met => met.2 rfl
  | true =>
      rw [if_pos rfl]
      apply Triple.bind (fun _ s => Made .keyed kind start s)
      · exact cut_createSchema.weaken (fun s met => met.1 rfl) (fun _ _ met => met)
          (fun _ met => met)
      · intro _
        apply (writeCheck_keeps _).weaken (fun _ met => met) (fun _ _ met => met)
          (fun s made => Or.inr (Or.inr made))
        rintro s s' made db slot ⟨more, trace, -⟩
        exact made.note_check db slot fun op mem => trace ▸ List.mem_append_left _ mem

/-- Removing the files: until the database is removed nothing changed, and after it
nothing is there. -/
theorem cut_removeAll (s : Store) :
    Triple (fun t => t = s) removeAll
      (fun _ s' => s'.db = none ∧ s'.slot = s.slot ∧ ∃ more, s'.trace = s.trace ++ more ∧
        .removeDb ∈ more ∧ .file ∉ more ∧ .metaRow ∉ more)
      (fun s' => s' = s ∨ s'.db = none ∧ ∃ more, s'.trace = s.trace ++ more ∧
        .removeDb ∈ more ∧ .file ∉ more ∧ .metaRow ∉ more) := by
  apply Triple.steps
  · rintro t rfl n
    match n with
    | 0 => exact Or.inl rfl
    | 1 => exact Or.inr ⟨rfl, [.removeDb], rfl, by decide, by decide, by decide⟩
    | 2 => exact Or.inr ⟨rfl, [.removeDb, .removeWal],
        by simp [note, removeDb], by decide, by decide, by decide⟩
    | 3 => exact Or.inr ⟨rfl, [.removeDb, .removeWal, .removeShm],
        by simp [note, removeDb], by decide, by decide, by decide⟩
    | 4 => exact Or.inr ⟨rfl, [.removeDb, .removeWal, .removeShm, .removeJournal],
        by simp [note, removeDb], by decide, by decide, by decide⟩
    | n + 5 =>
        rw [List.take_of_length_le (by simp)]
        exact Or.inr ⟨rfl,
          [.removeDb, .removeWal, .removeShm, .removeJournal, .removeCheck],
          by simp [note, removeDb], by decide, by decide, by decide⟩
  · rintro t rfl
    exact ⟨rfl, rfl, [.removeDb, .removeWal, .removeShm, .removeJournal, .removeCheck],
      by simp [note, removeDb], by decide, by decide, by decide⟩

/-- Nothing was removed and nothing made. -/
structure Before (start s : Store) : Prop where
  db : s.db = start.db
  removeDb : .removeDb ∉ s.trace
  file : .file ∉ s.trace
  metaRow : .metaRow ∉ s.trace

theorem Before.gone (before : Before start s) {s' : Store} (db : s'.db = none)
    {more : List Op} (trace : s'.trace = s.trace ++ more) (removed : .removeDb ∈ more)
    (file : .file ∉ more) (metaRow : .metaRow ∉ more) : Gone start s' where
  db := db
  file := by simp [trace, before.file, file]
  metaRow := by simp [trace, before.metaRow, metaRow]
  cleared := fun _ => trace ▸ List.mem_append_right _ removed

/-- Answering with a key changes nothing but the slot. -/
theorem cut_getOrCreate {P : Store → Prop} {Q : Key → Bool → Store → Prop}
    (old : ∀ s k, P s → s.slot = some k → Q k false s)
    (new : ∀ s, P s → s.slot = none →
      Q s.made true (note .key { s with slot := some s.made, made := s.made + 1 })) :
    Triple P getOrCreate
      (fun answer s => match answer with
        | none => P s
        | some (k, madeNow) => Q k madeNow s)
      P := by
  apply Triple.attempt
  · exact fun s met => met
  · intro s met a refused
    cases refused
    exact met
  · intro s met
    cases slot : s.slot with
    | none => exact new s met slot
    | some k => exact old s k met slot

theorem cut_openInner_new :
    Triple (Gone start) (openInner protection kind)
      (fun inner s => (∃ rebuilt, inner = .ready rebuilt) → Made protection kind start s)
      (Left protection kind start) := by
  cases protection with
  | plain =>
      rw [openInner, if_neg (by decide), openPlain]
      apply Triple.bind (fun t s => t = s ∧ Gone start s)
      · exact Triple.get fun s gone => ⟨rfl, gone⟩
      · intro t
        split
        case isTrue there =>
          apply Triple.pointwise
          rintro s ⟨rfl, gone⟩
          rw [gone.db] at there
          cases there
        case isFalse =>
          apply Triple.bind _ (cut_connect.weaken (fun s met => ⟨met.2, show Opener .plain none s from rfl⟩)
            (fun _ _ met => met) (fun _ met => met))
          intro connected
          cases connected with
          | false => exact Triple.fail fun s met => met.2 rfl
          | true =>
              rw [if_pos rfl]
              apply Triple.bind _ (cut_createSchema.weaken (fun s met => met.1 rfl)
                (fun _ _ met => met) (fun _ met => met))
              intro _
              exact Triple.pure fun s made _ => made
  | keyed =>
      rw [openInner, if_pos rfl, openKeyed]
      apply Triple.bind _ ((cut_getOrCreate
        (Q := fun k _ s => Gone start s ∧ Opener .keyed (some k) s)
        (fun s k gone slot => ⟨gone, rfl, slot⟩) ?_).weaken (fun _ met => met)
          (fun _ _ met => met) (fun _ gone => Or.inl gone))
      · intro answer
        cases answer with
        | none =>
            refine Triple.pure fun s _ ready => ?_
            obtain ⟨rebuilt, same⟩ := ready
            cases same
        | some answer =>
            obtain ⟨k, madeNow⟩ := answer
            apply Triple.bind (fun t s => t = s ∧ Gone start s ∧ Opener .keyed (some k) s)
            · exact Triple.get fun s met => ⟨rfl, met⟩
            · intro t
              split
              case isTrue there =>
                apply Triple.pointwise
                rintro s ⟨rfl, gone, -⟩
                rw [gone.db] at there
                cases there
              case isFalse =>
                apply Triple.bind _ ((cut_create k).weaken (fun s met => met.2)
                  (fun _ _ met => met) (fun _ met => met))
                intro _
                exact Triple.pure fun s made _ => made
      · intro s gone slot
        refine ⟨⟨gone.db, ?_, ?_, ?_⟩, rfl, rfl⟩
        · simp [note, gone.file]
        · simp [note, gone.metaRow]
        · exact fun there => List.mem_append_left _ (gone.cleared there)

theorem cut_spawn (rebuilt : Option Rebuilt) :
    Triple (Made protection kind start) (spawn rebuilt) (fun _ _ => True)
      (Left protection kind start) := by
  apply Triple.bind (fun _ _ => True)
  · exact Triple.step (fun s made => Or.inr (Or.inr made)) (fun _ _ => trivial)
  · intro _
    exact Triple.pure fun _ _ => trivial

/-- Opening where nothing is there. -/
theorem cut_openReserved_new :
    Triple (Gone start) (openReserved protection kind) (fun _ _ => True)
      (Left protection kind start) := by
  apply Triple.bind _ cut_openInner_new
  intro inner
  cases inner with
  | other opened => exact Triple.pure fun _ _ => trivial
  | ready rebuilt =>
      cases rebuilt with
      | some reason =>
          exact (cut_spawn (some reason)).weaken (fun s met => met ⟨_, rfl⟩)
            (fun _ _ met => met) (fun _ met => met)
      | none =>
          apply Triple.bind (fun found s => Made protection kind start s ∧
            (found = none ∨ found = some kind.format))
          · apply Triple.attempt
            · exact fun s met => Or.inr (Or.inr (met ⟨_, rfl⟩))
            · intro s met a refused
              cases refused
              exact ⟨met ⟨_, rfl⟩, Or.inl rfl⟩
            · intro s met
              obtain ⟨d, key, there, -, -, format, -⟩ := (met ⟨_, rfl⟩).db
              refine ⟨met ⟨_, rfl⟩, Or.inr ?_⟩
              rw [there, Option.bind_some, format]
          · intro found
            split
            case isTrue => exact Triple.pure fun _ _ => trivial
            case isFalse some_format =>
              split
              case isTrue =>
                exact (cut_spawn none).weaken (fun s met => met.1)
                  (fun _ _ met => met) (fun _ met => met)
              case isFalse other =>
                apply Triple.pointwise
                rintro s ⟨-, none_found | same⟩
                · exact absurd none_found some_format
                · exact absurd same other

end Store

end Brook.Stores
