import Brook.Stores.Making

namespace Brook.Stores

open Durable

/-! Every state that an open can come to. -/

def Database.otherFormat (kind : Kind) (d : Database) : Prop :=
  ∃ f, d.format = some f ∧ f ≠ kind.format

namespace Store

variable {kind : Kind} {start s : Store} {k : Key}

/-- What no step of an open changes once the slot has answered. -/
structure Under (k : Key) (made : Nat) (s : Store) : Prop where
  slot : s.slot = some k
  made : s.made = made
  opened : s.opened = false

/-- The database is there as it was found, apart from the cover of an empty file; the
check is as it was found or this key's. -/
structure Found (start : Store) (k : Key) (made : Nat) (s : Store) : Prop where
  under : Under k made s
  removed : s.removed = start.removed
  db : s.db = start.db ∨ ∃ d, start.db = some d ∧ d.cover = none ∧
    s.db = some { d with cover := some (some k) }
  check : s.check = start.check ∨ s.check = some k

/-- There is at most a new database, under this key. -/
structure New (start : Store) (k : Key) (made : Nat) (s : Store) : Prop where
  under : Under k made s
  removed : s.removed = start.removed ++ start.db.toList
  db : ∀ d, s.db = some d → (d.cover = none ∧ d.format = none) ∨ d.cover = some (some k)
  check : s.check = start.check ∨ s.check = none ∨ s.check = some k

/-- A current database of this key, with its check. -/
def Held (kind : Kind) (k : Key) (s : Store) : Prop :=
  s.check = some k ∧ ∃ d, s.db = some d ∧ d.cover = some (some k) ∧
    d.format = some kind.format

variable {made : Nat}

theorem New.next (new : New start k made s) {s' : Store} (slot : s'.slot = s.slot)
    (made_same : s'.made = s.made) (opened : s'.opened = s.opened)
    (removed : s'.removed = s.removed)
    (db : ∀ d, s'.db = some d →
      (d.cover = none ∧ d.format = none) ∨ d.cover = some (some k))
    (check : s'.check = s.check ∨ s'.check = some k) : New start k made s' where
  under := ⟨slot.trans new.under.slot, made_same.trans new.under.made,
    opened.trans new.under.opened⟩
  removed := removed.trans new.removed
  db := db
  check := by
    rcases check with same | own
    · rw [same]
      exact new.check
    · exact Or.inr (Or.inr own)

theorem new_connect :
    Triple (fun s => New start k made s ∧ s.db = none) (connect (some k))
      (fun connected s => New start k made s ∧ (connected = true →
        s.db = some { Database.empty with cover := some (some k) }))
      (New start k made) := by
  apply Triple.bind (fun t s => t = s ∧ New start k made s ∧ s.db = none)
  · exact Triple.get fun s met => ⟨rfl, met⟩
  · intro t
    apply Triple.pointwise
    rintro s ⟨rfl, new, absent⟩
    rw [if_neg (by rw [absent]; decide)]
    apply Triple.bind (fun there s => New start k made s ∧
      (there = true → s.db = some Database.empty))
    · apply Triple.attempt
      · rintro s rfl
        exact new
      · rintro s rfl a refused
        cases refused
        exact ⟨new, fun there => by cases there⟩
      · rintro s rfl
        refine ⟨new.next rfl rfl rfl rfl ?_ (Or.inl rfl), fun _ => rfl⟩
        intro d there
        cases there
        exact Or.inl ⟨rfl, rfl⟩
    · intro there
      cases there with
      | false => exact Triple.pure fun s met => ⟨met.1, fun connected => by cases connected⟩
      | true =>
          rw [if_pos rfl]
          apply Triple.attempt
          · exact fun s met => met.1
          · intro s met a refused
            cases refused
            exact ⟨met.1, fun connected => by cases connected⟩
          · rintro s ⟨new, empty⟩
            rw [empty rfl]
            refine ⟨new.next rfl rfl rfl rfl ?_ (Or.inl rfl), fun _ => rfl⟩
            intro d there
            cases there
            exact Or.inr rfl

theorem new_createSchema :
    Triple (fun s => New start k made s ∧
        s.db = some { Database.empty with cover := some (some k) })
      (createSchema kind)
      (fun _ s => New start k made s ∧ ∃ d, s.db = some d ∧
        d.cover = some (some k) ∧ d.format = some kind.format)
      (New start k made) := by
  have objects : ∀ s, New start k made s →
      s.db = some { Database.empty with cover := some (some k) } →
      ∀ names : List String,
        New start k made ((names.map addObject).foldl (fun s f => f s) s) ∧
        ((names.map addObject).foldl (fun s f => f s) s).db =
          some { Database.empty with cover := some (some k), objects := names } := by
    intro s new db names
    rw [foldl_addObject, db]
    refine ⟨new.next rfl rfl rfl rfl ?_ (Or.inl rfl), rfl⟩
    intro d there
    cases there
    exact Or.inr rfl
  apply Triple.bind (fun _ s => New start k made s ∧
    s.db = some { Database.empty with cover := some (some k), objects := kind.schema })
  · apply Triple.steps
    · rintro s ⟨new, db⟩ n
      rw [← List.map_take]
      exact (objects s new db _).1
    · rintro s ⟨new, db⟩
      exact objects s new db kind.schema
  · intro _
    apply Triple.step
    · exact fun s met => met.1
    · rintro s ⟨new, db⟩
      have after : (insertMeta kind s).db = some { Database.empty with
          cover := some (some k), objects := kind.schema, format := some kind.format } := by
        simp [insertMeta, note, db]
      refine ⟨new.next rfl rfl rfl rfl ?_ (Or.inl rfl), _, after, rfl, rfl⟩
      intro d there
      rw [after] at there
      cases there
      exact Or.inr rfl

/-- Writing the check of a key changes nothing but the check. -/
theorem writeCheck_changes {P : Store → Prop} {Q : Store → Prop}
    (tmp : ∀ s, P s → P (note .checkTmp { s with tmp := some k }))
    (renamed : ∀ s, P s → Q (note .checkRename { s with check := some k, tmp := none }))
    (kept : ∀ s, Q s → P s) :
    Triple P (writeCheck k) (fun _ => Q) P := by
  apply Triple.steps
  · intro s met n
    match n with
    | 0 => exact met
    | 1 => exact tmp s met
    | 2 => exact kept _ (renamed _ (tmp s met))
    | n + 3 =>
        rw [List.take_of_length_le (by simp)]
        exact kept _ (renamed _ (tmp s met))
  · exact fun s met => renamed _ (tmp s met)

theorem new_create :
    Triple (fun s => New start k made s ∧ s.db = none) (create kind k)
      (fun _ s => New start k made s ∧ Held kind k s) (New start k made) := by
  apply Triple.bind _ new_connect
  intro connected
  cases connected with
  | false => exact Triple.fail fun s met => met.1
  | true =>
      rw [if_pos rfl]
      apply Triple.bind _ (new_createSchema.weaken (fun s met => ⟨met.1, met.2 rfl⟩)
        (fun _ _ met => met) (fun _ met => met))
      intro _
      apply (writeCheck_changes (k := k) (P := fun s => New start k made s ∧ ∃ d,
          s.db = some d ∧ d.cover = some (some k) ∧ d.format = some kind.format)
        (Q := fun s => New start k made s ∧ Held kind k s) ?_ ?_ ?_).weaken
          (fun _ met => met) (fun _ _ met => met) (fun _ met => met.1)
      · rintro s ⟨new, there⟩
        exact ⟨new.next rfl rfl rfl rfl new.db (Or.inl rfl), there⟩
      · rintro s ⟨new, there⟩
        exact ⟨new.next rfl rfl rfl rfl new.db (Or.inr rfl), rfl, there⟩
      · exact fun s met => ⟨met.1, met.2.2⟩

/-- Keys are used after they are made, and an empty file holds nothing. -/
structure WellKeyed (s : Store) : Prop where
  slot : ∀ k, s.slot = some k → k < s.made
  check : ∀ k, s.check = some k → k < s.made
  cover : ∀ d k, s.db = some d → d.cover = some (some k) → k < s.made
  empty : ∀ d, s.db = some d → d.cover = none → d.format = none

/-- How the slot answered. -/
def Answered (start : Store) (k : Key) (made : Nat) : Prop :=
  start.slot = some k ∧ made = start.made ∨
    start.slot = none ∧ k = start.made ∧ made = start.made + 1

/-- Why a database was removed: its format is another one, or it was taken for another
key's, rightly or since its connection was refused beside a check of another key. -/
def Justified (kind : Kind) (start : Store) (k : Key) (refused : Prop) : Prop :=
  ∀ d, start.db = some d → d.otherFormat kind ∨ start.check ≠ some k ∧
    (d.cover = some (some k) → start.slot = some k ∧ start.check.isSome ∧ refused)

theorem connect_found {d : Database} {fates : List Fate} (found : Found start k made s)
    (same : s.db = start.db) (there : start.db = some d) :
    Ends
      (fun connected s' => Found start k made s' ∧
        (connected = true → ∃ e, s'.db = some e ∧ e.cover = some (some k)) ∧
        (connected = false → s' = s ∧
          (d.readable (some k) → fates.head? = some .fails)))
      (Found start k made) (connect (some k) s fates) := by
  have here : s.db = some d := same.trans there
  have straight : connect (some k) s fates = uncover (some k) s fates := by
    rw [connect, Run.bind, Run.get]
    dsimp only
    rw [if_pos (by rw [here]; rfl)]
  rw [straight]
  apply Ends.attempt found
  · intro refused a same_answer
    cases same_answer
    exact ⟨found, fun connected => (by cases connected), fun _ => ⟨rfl, fun _ => refused⟩⟩
  · rw [here]
    dsimp only
    split
    case isTrue readable =>
      refine ⟨⟨⟨found.under.slot, found.under.made, found.under.opened⟩, found.removed, ?_,
        found.check⟩, fun _ => ⟨_, rfl, rfl⟩, fun connected => (by cases connected)⟩
      rcases readable with empty | own
      · exact Or.inr ⟨d, there, empty, rfl⟩
      · refine Or.inl ?_
        rw [there]
        show some { d with cover := some (some k) } = some d
        rw [← own]
    case isFalse unreadable =>
      exact ⟨found, fun connected => (by cases connected),
        fun _ => ⟨rfl, fun readable => absurd readable unreadable⟩⟩

theorem removeAll_steps {P : Store → Prop} {Q : Store → Prop}
    (removed : ∀ s, P s → Q (removeDb s))
    (kept : ∀ s s', Q s → s'.slot = s.slot → s'.made = s.made → s'.opened = s.opened →
      s'.removed = s.removed → s'.db = s.db →
      (s'.check = s.check ∨ s'.check = none) → Q s') :
    Triple P removeAll (fun _ => Q) (fun s => P s ∨ Q s) := by
  apply Triple.steps
  · intro s met n
    match n with
    | 0 => exact Or.inl met
    | 1 => exact Or.inr (removed s met)
    | 2 => exact Or.inr (kept _ _ (removed s met) rfl rfl rfl rfl rfl (Or.inl rfl))
    | 3 => exact Or.inr (kept _ _ (removed s met) rfl rfl rfl rfl rfl (Or.inl rfl))
    | 4 => exact Or.inr (kept _ _ (removed s met) rfl rfl rfl rfl rfl (Or.inl rfl))
    | n + 5 =>
        rw [List.take_of_length_le (by simp)]
        exact Or.inr (kept _ _ (removed s met) rfl rfl rfl rfl rfl (Or.inr rfl))
  · exact fun s met => kept _ _ (removed s met) rfl rfl rfl rfl rfl (Or.inr rfl)

/-- A database that was found is removed; then nothing is there. -/
theorem found_removeAll :
    Triple (fun s => Found start k made s ∧ s.db = start.db) removeAll
      (fun _ s => New start k made s ∧ s.db = none)
      (fun s => Found start k made s ∨ New start k made s) := by
  apply (removeAll_steps (P := fun s => Found start k made s ∧ s.db = start.db)
    (Q := fun s => New start k made s ∧ s.db = none) ?_ ?_).weaken
      (fun _ met => met) (fun _ _ met => met) ?_
  · rintro s ⟨found, same⟩
    refine ⟨⟨⟨found.under.slot, found.under.made, found.under.opened⟩, ?_, ?_, ?_⟩, rfl⟩
    · rw [← same, ← found.removed]
      rfl
    · intro d there
      cases there
    · rcases found.check with old | own
      · exact Or.inl old
      · exact Or.inr (Or.inr own)
  · rintro s s' ⟨new, absent⟩ slot made_same opened removed db check
    refine ⟨?_, db.trans absent⟩
    have none_there : ∀ d, s'.db = some d →
        (d.cover = none ∧ d.format = none) ∨ d.cover = some (some k) := by
      intro d there
      rw [db, absent] at there
      cases there
    rcases check with same | gone
    · exact new.next slot made_same opened removed none_there (Or.inl same)
    · exact ⟨⟨slot.trans new.under.slot, made_same.trans new.under.made,
        opened.trans new.under.opened⟩, removed.trans new.removed, none_there,
        Or.inr (Or.inl gone)⟩
  · rintro s (⟨found, -⟩ | ⟨new, -⟩)
    · exact Or.inl found
    · exact Or.inr new

/-- What an inner open comes to. -/
inductive Comes (kind : Kind) (start : Store) (refused : Prop) : Store → Prop
  | early : Comes kind start refused start
  | found {k : Key} {made : Nat} {s : Store} (answered : Answered start k made)
      (found : Found start k made s) : Comes kind start refused s
  | new {k : Key} {made : Nat} {s : Store} (answered : Answered start k made)
      (new : New start k made s) (why : Justified kind start k refused) :
      Comes kind start refused s

theorem openFound_comes {d : Database} {fates : List Fate} {madeNow : Bool}
    (keyed : start.WellKeyed) (answered : Answered start k made)
    (now : madeNow = true ↔ start.slot = none)
    (found : Found start k made s) (same : s.db = start.db) (there : start.db = some d) :
    Ends
      (fun inner s' =>
        inner = .ready none ∧ Found start k made s' ∧ s'.check = some k ∧
          (∃ e, s'.db = some e ∧ e.cover = some (some k)) ∨
        (∃ r, inner = .ready (some r)) ∧ New start k made s' ∧ Held kind k s' ∧
          Justified kind start k (fates.head? = some .fails) ∨
        (∃ opened, inner = .other opened) ∧ Found start k made s')
      (fun s' => Found start k made s' ∨
        New start k made s' ∧ Justified kind start k (fates.head? = some .fails))
      (openFound kind k madeNow start.check s fates) := by
  apply Ends.bind ((connect_found found same there).weaken (fun _ _ met => met)
    (fun _ met => Or.inl met))
  intro connected
  cases connected with
  | true =>
      rw [if_pos rfl]
      split
      case isTrue own =>
        refine Triple.pure fun s' met => Or.inl ⟨rfl, met.1, ?_, met.2.1 rfl⟩
        rcases met.1.check with old | new
        · exact old.trans own
        · exact new
      case isFalse =>
        apply Triple.bind (fun _ s' => (Found start k made s' ∧
          ∃ e, s'.db = some e ∧ e.cover = some (some k)) ∧ s'.check = some k)
        · apply (writeCheck_changes (k := k) (P := fun s' => Found start k made s' ∧
              ∃ e, s'.db = some e ∧ e.cover = some (some k))
            (Q := fun s' => (Found start k made s' ∧
              ∃ e, s'.db = some e ∧ e.cover = some (some k)) ∧ s'.check = some k)
            ?_ ?_ (fun _ met => met.1)).weaken (fun s' met => ⟨met.1, met.2.1 rfl⟩)
              (fun _ _ met => met) (fun _ met => Or.inl met.1)
          · rintro t ⟨⟨⟨slot, made_same, opened⟩, removed, db, check⟩, there⟩
            exact ⟨⟨⟨slot, made_same, opened⟩, removed, db, check⟩, there⟩
          · rintro t ⟨⟨⟨slot, made_same, opened⟩, removed, db, check⟩, there⟩
            exact ⟨⟨⟨⟨slot, made_same, opened⟩, removed, db, Or.inr rfl⟩, there⟩, rfl⟩
        · intro _
          exact Triple.pure fun s' met => Or.inl ⟨rfl, met.1.1, met.2, met.1.2⟩
  | false =>
      rw [if_neg (by decide)]
      apply Triple.pointwise
      rintro s' ⟨-, -, closed⟩
      obtain ⟨rfl, refused⟩ := closed rfl
      split
      case isFalse =>
        apply Triple.pure
        rintro t rfl
        exact Or.inr (Or.inr ⟨⟨_, rfl⟩, found⟩)
      case isTrue proof =>
        have why : Justified kind start k (fates.head? = some .fails) := by
          intro e here
          cases here.symm.trans there
          right
          constructor
          · rcases proof with other | absent
            · exact other.2
            · rw [absent.1]
              exact Option.some_ne_none _ ∘ Eq.symm
          · intro own
            have slot : start.slot = some k := by
              rcases answered with ⟨slot, -⟩ | ⟨-, new, -⟩
              · exact slot
              · exact absurd (new ▸ keyed.cover d k there own) (Nat.lt_irrefl _)
            refine ⟨slot, ?_, refused (Or.inr own)⟩
            rcases proof with other | absent
            · exact other.1
            · rw [now.mp absent.2] at slot
              cases slot
        apply Triple.bind (fun _ t => New start k made t ∧ t.db = none)
        · apply found_removeAll.weaken (fun t is => ?_) (fun _ _ met => met)
          · rintro t (kept | new)
            · exact Or.inl kept
            · exact Or.inr ⟨new, why⟩
          · subst is
            exact ⟨found, same⟩
        · intro _
          apply Triple.bind _ (new_create.weaken (fun _ met => met) (fun _ _ met => met)
            (fun t met => Or.inr ⟨met, why⟩))
          intro _
          exact Triple.pure fun t met =>
            Or.inr (Or.inl ⟨⟨_, rfl⟩, met.1, met.2, why⟩)

/-- What opening comes to where nothing is there any more. -/
theorem new_openInner :
    Triple (fun s => New start k made s ∧ s.db = none) (openInner .keyed kind)
      (fun inner s => New start k made s ∧
        ((∃ rebuilt, inner = .ready rebuilt) → Held kind k s))
      (New start k made) := by
  rw [openInner, if_pos rfl, openKeyed]
  apply Triple.bind (fun answer s => (New start k made s ∧ s.db = none) ∧
    (answer = none ∨ ∃ now, answer = some (k, now)))
  · apply Triple.attempt
    · exact fun s met => met.1
    · intro s met a refused
      cases refused
      exact ⟨met, Or.inl rfl⟩
    · intro s met
      rw [met.1.under.slot]
      exact ⟨met, Or.inr ⟨false, rfl⟩⟩
  · intro answer
    apply Triple.pointwise
    rintro s ⟨met, rfl | ⟨now, rfl⟩⟩
    · refine Triple.pure fun t same => ⟨same ▸ met.1, fun ready => ?_⟩
      obtain ⟨rebuilt, answer⟩ := ready
      cases answer
    · apply Triple.bind (fun t u => t = u ∧ u = s)
      · exact Triple.get fun u same => ⟨rfl, same⟩
      · intro t
        apply Triple.pointwise
        rintro u ⟨rfl, rfl⟩
        rw [if_neg (by rw [met.2]; decide)]
        apply Triple.bind _ (new_create.weaken (fun u same => same ▸ met)
          (fun _ _ met => met) (fun _ met => met))
        intro _
        exact Triple.pure fun u met => ⟨met.1, fun _ => met.2⟩

/-- What an inner open answers, and the store it leaves. -/
def Settles (kind : Kind) (start : Store) (refused : Prop) (inner : Inner) (s : Store) :
    Prop :=
  (inner = .ready none ∧ ∃ k made, Answered start k made ∧ Found start k made s ∧
    s.check = some k ∧ ∃ e, s.db = some e ∧ e.cover = some (some k)) ∨
  ((∃ rebuilt, inner = .ready rebuilt) ∧ ∃ k made, Answered start k made ∧
    New start k made s ∧ Held kind k s ∧ Justified kind start k refused) ∨
  ((∃ opened, inner = .other opened) ∧ Comes kind start refused s)

/-- Once the slot has answered. -/
theorem answered_comes {fates : List Fate} {madeNow : Bool} (keyed : start.WellKeyed)
    (answered : Answered start k made) (now : madeNow = true ↔ start.slot = none)
    (found : Found start k made s) (db : s.db = start.db) (check : s.check = start.check) :
    Ends (Settles kind start (fates.tail.head? = some .fails))
      (Comes kind start (fates.tail.head? = some .fails))
      ((if s.db.isSome then
          Run.bind readCheck fun check => openFound kind k madeNow check
        else Run.bind (create kind k) fun _ => Run.pure (.ready none)) s fates) := by
  cases there : start.db with
  | none =>
      rw [if_neg (by rw [db, there]; decide)]
      have why : Justified kind start k (fates.tail.head? = some .fails) := by
        intro d here
        rw [there] at here
        cases here
      have new : New start k made s := by
        refine ⟨found.under, ?_, ?_, Or.inl check⟩
        · rw [found.removed, there, Option.toList_none, List.append_nil]
        · intro d here
          rw [db, there] at here
          cases here
      have opens : Triple (fun t => t = s)
          (Run.bind (create kind k) fun _ => Run.pure (.ready none))
          (Settles kind start (fates.tail.head? = some .fails))
          (Comes kind start (fates.tail.head? = some .fails)) := by
        apply Triple.bind _ (new_create.weaken (fun t same => ?_) (fun _ _ met => met)
          (fun t met => .new answered met why))
        · intro _
          exact Triple.pure fun t met =>
            Or.inr (Or.inl ⟨⟨none, rfl⟩, k, made, answered, met.1, met.2, why⟩)
        · subst same
          exact ⟨new, db.trans there⟩
      exact opens s fates rfl
  | some d =>
      rw [if_pos (by rw [db, there]; rfl)]
      apply Ends.bind_attempt (.found answered found)
      · intro _ a refused
        cases refused
      · intro _
        dsimp only
        rw [check]
        apply (openFound_comes keyed answered now found db there).weaken
        · rintro inner t (⟨ready, kept, own, cover⟩ | ⟨⟨r, ready⟩, new, held, why⟩ |
            ⟨other, kept⟩)
          · exact Or.inl ⟨ready, k, made, answered, kept, own, cover⟩
          · exact Or.inr (Or.inl ⟨⟨some r, ready⟩, k, made, answered, new, held, why⟩)
          · exact Or.inr (Or.inr ⟨other, .found answered kept⟩)
        · rintro t (kept | ⟨new, why⟩)
          · exact .found answered kept
          · exact .new answered new why

/-- What the slot, the check and the connection make of a store. -/
theorem openInner_comes {fates : List Fate} (keyed : start.WellKeyed)
    (closed : start.opened = false) :
    Ends (Settles kind start (fates.tail.tail.head? = some .fails))
      (Comes kind start (fates.tail.tail.head? = some .fails))
      (openInner .keyed kind start fates) := by
  rw [openInner, if_pos rfl, openKeyed]
  apply Ends.bind_attempt .early
  · intro _ a refused
    cases refused
    exact Or.inr (Or.inr ⟨⟨_, rfl⟩, .early⟩)
  · intro _
    cases slot : start.slot with
    | none =>
        exact answered_comes keyed (Or.inr ⟨slot, rfl, rfl⟩) (by simp [slot])
          ⟨⟨rfl, rfl, closed⟩, rfl, Or.inl rfl, Or.inl rfl⟩ rfl rfl
    | some k =>
        exact answered_comes keyed (Or.inl ⟨slot, rfl⟩) (by simp [slot])
          ⟨⟨slot, rfl, closed⟩, rfl, Or.inl rfl, Or.inl rfl⟩ rfl rfl

theorem Comes.closed {refused : Prop} (comes : Comes kind start refused s)
    (closed : start.opened = false) : s.opened = false := by
  cases comes with
  | early => exact closed
  | found _ found => exact found.under.opened
  | new _ new _ => exact new.under.opened

theorem restart_closed (closed : s.opened = false) : s.restart = s := by
  cases s
  cases closed
  rfl

theorem restart_opened (closed : s.opened = false) : { s with opened := true }.restart = s := by
  cases s
  cases closed
  rfl

/-- A store that was found or made, and that is open only where it is ready. -/
structure Rests (kind : Kind) (start : Store) (refused : Prop) (s : Store) : Prop where
  comes : Comes kind start refused s.restart
  held : s.opened = true → ∃ k, s.slot = some k ∧ Held kind k s

theorem Comes.rests {refused : Prop} (comes : Comes kind start refused s)
    (closed : start.opened = false) : Rests kind start refused s where
  comes := by
    rw [restart_closed (comes.closed closed)]
    exact comes
  held := fun opened => by
    rw [comes.closed closed] at opened
    cases opened

theorem spawn_rests {refused : Prop} {rebuilt : Option Rebuilt}
    (closed : start.opened = false) :
    Triple (fun s => Comes kind start refused s ∧ ∃ k, s.slot = some k ∧ Held kind k s)
      (spawn rebuilt) (fun _ => Rests kind start refused) (Rests kind start refused) := by
  apply Triple.bind (fun _ => Rests kind start refused)
  · apply Triple.step
    · exact fun s met => met.1.rests closed
    · rintro s ⟨comes, k, slot, check, d, there, cover, format⟩
      constructor
      · rw [restart_opened (comes.closed closed)]
        exact comes
      · exact fun _ => ⟨k, slot, check, d, there, cover, format⟩
  · intro _
    exact Triple.pure fun s met => met

theorem Found.same_db {e : Database} {f : Nat} (found : Found start k made s)
    (keyed : start.WellKeyed) (here : s.db = some e) (format : e.format = some f) :
    s.db = start.db := by
  rcases found.db with same | ⟨d, there, empty, claimed⟩
  · exact same
  · rw [here] at claimed
    cases claimed
    have nothing : some f = none := format.symm.trans (keyed.empty d there empty)
    cases nothing

theorem remake_rests {refused : Prop} {f : Nat} (closed : start.opened = false)
    (answered : Answered start k made) (found : Found start k made s)
    (same : s.db = start.db) (format : s.db.bind Database.format = some f)
    (other : f ≠ kind.format) :
    Triple (fun t => t = s) (remake .keyed kind) (fun _ => Rests kind start refused)
      (Rests kind start refused) := by
  have why : Justified kind start k refused := by
    intro d there
    rw [same, there] at format
    exact Or.inl ⟨f, format, other⟩
  have rests : ∀ t, New start k made t → Rests kind start refused t :=
    fun t new => (Comes.new answered new why).rests closed
  apply Triple.bind (fun _ t => New start k made t ∧ t.db = none)
  · apply found_removeAll.weaken (fun t is => ?_) (fun _ _ met => met)
    · rintro t (kept | new)
      · exact (Comes.found answered kept).rests closed
      · exact rests t new
    · subst is
      exact ⟨found, same⟩
  · intro _
    apply Triple.bind _ (new_openInner.weaken (fun _ met => met) (fun _ _ met => met) rests)
    intro inner
    cases inner with
    | other opened => exact Triple.pure fun t met => rests t met.1
    | ready rebuilt =>
        apply (spawn_rests closed).weaken ?_ (fun _ _ met => met) (fun _ met => met)
        rintro t ⟨new, held⟩
        exact ⟨.new answered new why, k, new.under.slot, held ⟨rebuilt, rfl⟩⟩

/-- What an open that was reserved comes to. -/
theorem openReserved_rests {fates : List Fate} (keyed : start.WellKeyed)
    (closed : start.opened = false) :
    Ends (fun _ => Rests kind start (fates.tail.tail.head? = some .fails))
      (Rests kind start (fates.tail.tail.head? = some .fails))
      (openReserved .keyed kind start fates) := by
  apply Ends.bind ((openInner_comes keyed closed).weaken (fun _ _ met => met)
    (fun _ comes => comes.rests closed))
  intro inner
  apply Triple.pointwise
  rintro s (⟨rfl, k, made, answered, found, check, e, here, cover⟩ |
    ⟨⟨rebuilt, rfl⟩, k, made, answered, new, held, why⟩ | ⟨⟨opened, rfl⟩, comes⟩)
  · have comes : Comes kind start (fates.tail.tail.head? = some .fails) s :=
      Comes.found answered found
    apply Triple.bind (fun f t => t = s ∧ (f = none ∨ f = s.db.bind Database.format))
    · apply Triple.attempt
      · rintro t rfl
        exact comes.rests closed
      · rintro t rfl a refused
        cases refused
        exact ⟨rfl, Or.inl rfl⟩
      · rintro t rfl
        exact ⟨rfl, Or.inr rfl⟩
    · intro answer
      apply Triple.pointwise
      rintro t ⟨rfl, read⟩
      have rests := comes.rests closed
      split
      case isTrue =>
        apply Triple.pure
        rintro u rfl
        exact rests
      case isFalse some_format =>
        obtain ⟨f, rfl⟩ := Option.ne_none_iff_exists'.mp some_format
        have format : e.format = some f := by
          rcases read with absent | same
          · exact absurd absent some_format
          · rw [here] at same
            exact same.symm
        split
        case isTrue current =>
          cases current
          apply (spawn_rests closed).weaken ?_ (fun _ _ met => met) (fun _ met => met)
          rintro u rfl
          exact ⟨comes, k, found.under.slot, check, e, here, cover, format⟩
        case isFalse changed =>
          split
          case isTrue =>
            apply Triple.bind (fun _ u => u = t)
            · apply Triple.attempt
              · rintro u rfl
                exact rests
              · rintro u rfl _ _
                rfl
              · rintro u rfl
                rfl
            · intro _
              apply Triple.pure
              rintro u rfl
              exact rests
          case isFalse =>
            apply remake_rests closed answered found (found.same_db keyed here format)
              (f := f)
            · rw [here]
              exact format
            · exact fun same => changed (same ▸ rfl)
  · have comes := Comes.new answered new why
    cases rebuilt with
    | some reason =>
        apply (spawn_rests closed).weaken ?_ (fun _ _ met => met) (fun _ met => met)
        rintro u rfl
        exact ⟨comes, k, new.under.slot, held⟩
    | none =>
        obtain ⟨check, e, here, cover, format⟩ := held
        apply Triple.bind (fun f t => t = s ∧ (f = none ∨ f = some kind.format))
        · apply Triple.attempt
          · rintro t rfl
            exact comes.rests closed
          · rintro t rfl a refused
            cases refused
            exact ⟨rfl, Or.inl rfl⟩
          · rintro t rfl
            refine ⟨rfl, Or.inr ?_⟩
            rw [here]
            exact format
        · intro answer
          apply Triple.pointwise
          rintro t ⟨rfl, rfl | rfl⟩
          · rw [if_pos rfl]
            apply Triple.pure
            rintro u rfl
            exact comes.rests closed
          · rw [if_neg (Option.some_ne_none _), if_pos rfl]
            apply (spawn_rests closed).weaken ?_ (fun _ _ met => met) (fun _ met => met)
            rintro u rfl
            exact ⟨comes, k, new.under.slot, check, e, here, cover, format⟩
  · apply Triple.pure
    rintro u rfl
    exact comes.rests closed

end Store

end Brook.Stores
