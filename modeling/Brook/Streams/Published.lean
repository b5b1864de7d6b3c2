import Brook.Streams.Publish
import Brook.Transition.Run

namespace Brook.Table

variable {Key Row : Type} [DecidableEq Key] {table : Table Key Row}

/-- At most one row passes a test that at most one value passes. -/
theorem key_unique_of_values {test : Row → Bool}
    (few : (table.values.filter test).length ≤ 1) {first second : Key} {row other : Row}
    (found : table.get? first = some row) (passes : test row = true)
    (alsoFound : table.get? second = some other) (alsoPasses : test other = true) :
    first = second := by
  have shorter : (table.rows.filter fun entry => test entry.2).length ≤ 1 := by
    simpa [values, List.filter_map, Function.comp_def] using few
  have member : (first, row) ∈ table.rows.filter fun entry => test entry.2 :=
    List.mem_filter.mpr ⟨mem_rows.mpr found, passes⟩
  have alsoMember : (second, other) ∈ table.rows.filter fun entry => test entry.2 :=
    List.mem_filter.mpr ⟨mem_rows.mpr alsoFound, alsoPasses⟩
  revert shorter member alsoMember
  generalize (table.rows.filter fun entry => test entry.2) = rows
  intro shorter member alsoMember
  cases rows with
  | nil => cases member
  | cons only rest =>
      obtain rfl : rest = [] := List.length_eq_zero_iff.mp (Nat.le_zero.mp
        (Nat.le_of_succ_le_succ shorter))
      have same := (List.mem_singleton.mp member).trans (List.mem_singleton.mp alsoMember).symm
      exact congrArg Prod.fst same

end Brook.Table

namespace Brook.Streams

variable {mlines : List MLine} {mid : Mid} {kind : Kind} {active : Bool}

/-! What the labels of an offer say of its streams. -/

theorem mem_of_mediaOf (kept : (mediaOf mlines).get? mid = some (kind, active)) :
    ⟨mid, some kind, active⟩ ∈ mlines := by
  rcases Table.putAll_cases ∅ (mlines.filterMap fun line =>
      line.kind.map fun kind => (line.mid, kind, line.active)) mid with
    ⟨_, none⟩ | ⟨row, member, found⟩
  · exact nomatch none.symm.trans kept
  · obtain rfl := Option.some.inj (found.symm.trans kept)
    obtain ⟨line, listed, read⟩ := List.mem_filterMap.mp member
    obtain ⟨lineKind, named, rfl, rfl, rfl⟩ : ∃ lineKind, line.kind = some lineKind ∧
        line.mid = mid ∧ lineKind = kind ∧ line.active = active := by simpa using read
    exact named ▸ listed

theorem get?_sourcesOf {media : Table Mid (Kind × Bool)} {source : Mid → Kind → Option Source}
    {shown : Source} : (sourcesOf media source).get? mid = some shown ↔
      ∃ kind, media.get? mid = some (kind, true) ∧ source mid kind = some shown := by
  have listed : ∀ row, (mid, row) ∈ media.rows.filterMap (fun line =>
      if line.2.2 then (source line.1 line.2.1).map (line.1, ·) else none) ↔
      ∃ kind, media.get? mid = some (kind, true) ∧ source mid kind = some row := by
    intro row
    simp only [List.mem_filterMap, Option.ite_none_right_eq_some, Option.map_eq_some_iff,
      Prod.mk.injEq, Prod.exists, ← Table.mem_rows]
    constructor
    · rintro ⟨_, kind, _, member, rfl, _, read, rfl, rfl⟩
      exact ⟨kind, member, read⟩
    · rintro ⟨kind, member, read⟩
      exact ⟨mid, kind, true, member, rfl, row, read, rfl, rfl⟩
  rw [← listed]
  rcases Table.putAll_cases ∅ (media.rows.filterMap fun line =>
      if line.2.2 then (source line.1 line.2.1).map (line.1, ·) else none) mid with
    ⟨absent, none⟩ | ⟨row, member, found⟩
  · constructor
    · intro given
      cases none.symm.trans given
    · intro member
      exact (absent _ member).elim
  · constructor
    · intro given
      exact Option.some.inj (found.symm.trans given) ▸ member
    · intro alsoMember
      obtain ⟨kind, kept, read⟩ := (listed row).mp member
      obtain ⟨other, alsoKept, alsoRead⟩ := (listed shown).mp alsoMember
      obtain rfl : kind = other := by
        simpa using kept.symm.trans alsoKept
      exact found.trans (read.symm.trans alsoRead)

theorem mem_sources {source : Source} : source ∈ kind.sources ↔ source.kind = kind := by
  cases kind <;> cases source <;> decide

theorem usual_mem (kind : Kind) : kind.usual ∈ kind.sources := by
  cases kind <;> decide

/-! What labels that are valid come to. -/

/-- A source of its kind for each stream, as the labels or the live streams have it. -/
structure Labelled (mlines : List MLine) (tracks : Option (List Track))
    (current sources : Sources) : Prop where
  mids : ∀ mid, (∃ source, sources.get? mid = some source) ↔
    ∃ kind, (mediaOf mlines).get? mid = some (kind, true)
  kept : ∀ mid source old, sources.get? mid = some source → current.get? mid = some old →
    source = old
  valid : ∀ mid kind source, (mediaOf mlines).get? mid = some (kind, true) →
    sources.get? mid = some source → source ∈ kind.sources ∨
      tracks = none ∧ current.get? mid = some source
  screen : ∀ mid other, sources.get? mid = some .screen → sources.get? other = some .screen →
    mid = other ∨ current.get? mid = some .screen ∧ current.get? other = some .screen

theorem labelled_of_pinned (current : Sources) : Labelled mlines none current
    (sourcesOf (mediaOf mlines) fun mid kind => some ((current.get? mid).getD kind.usual)) where
  mids mid := by
    simp only [get?_sourcesOf, Option.some.injEq]
    constructor
    · rintro ⟨_, kind, kept, _⟩
      exact ⟨kind, kept⟩
    · rintro ⟨kind, kept⟩
      exact ⟨_, kind, kept, rfl⟩
  kept mid source old given live := by
    obtain ⟨kind, _, read⟩ := get?_sourcesOf.mp given
    simpa [live] using read.symm
  valid mid kind source kept given := by
    obtain ⟨other, alsoKept, read⟩ := get?_sourcesOf.mp given
    obtain rfl : kind = other := by simpa using kept.symm.trans alsoKept
    cases live : current.get? mid with
    | none =>
        obtain rfl : kind.usual = source := by simpa [live] using read
        exact Or.inl (usual_mem kind)
    | some old =>
        obtain rfl : old = source := by simpa [live] using read
        exact Or.inr ⟨rfl, rfl⟩
  screen := by
    have pinned : ∀ mid, (sourcesOf (mediaOf mlines) fun mid kind =>
        some ((current.get? mid).getD kind.usual)).get? mid = some .screen →
        current.get? mid = some .screen := by
      intro mid given
      obtain ⟨kind, _, read⟩ := get?_sourcesOf.mp given
      cases live : current.get? mid with
      | none => cases kind <;> simp [live, Kind.usual] at read
      | some old => simpa [live] using read
    exact fun mid other given alsoGiven => Or.inr ⟨pinned mid given, pinned other alsoGiven⟩

theorem fits_iff {track : Track} {media : Table Mid (Kind × Bool)} :
    track.fits media = true ↔ ∃ kind active source, media.get? track.mid = some (kind, active) ∧
      track.kind = some kind ∧ track.source = some source ∧ source ∈ kind.sources := by
  simp only [Track.fits, Option.any_eq_true, Prod.exists, decide_eq_true_eq]
  constructor
  · rintro ⟨kind, active, found, named, source, given, valid⟩
    exact ⟨kind, active, source, found, named, given, valid⟩
  · rintro ⟨kind, active, source, found, named, given, valid⟩
    exact ⟨kind, active, found, named, source, given, valid⟩

/-- The label that a mid has is one of the labels, under its own mid. -/
theorem track_of_labels {tracks : List Track} {track : Track}
    (found : ((∅ : Table Mid Track).putAll
      (tracks.map fun track => (track.mid, track))).get? mid = some track) :
    track ∈ tracks ∧ track.mid = mid := by
  rcases Table.putAll_cases ∅ (tracks.map fun track => (track.mid, track)) mid with
    ⟨_, none⟩ | ⟨row, member, alsoFound⟩
  · exact nomatch none.symm.trans found
  · obtain rfl := Option.some.inj (alsoFound.symm.trans found)
    obtain ⟨other, listed, same⟩ := List.mem_map.mp member
    simp only [Prod.mk.injEq] at same
    exact ⟨same.2 ▸ listed, same.2 ▸ same.1⟩

theorem labelled_of_labels {tracks : List Track} {current sources : Sources}
    (given : labelStreams mlines (some tracks) current = some sources) :
    Labelled mlines (some tracks) current sources := by
  simp only [labelStreams] at given
  split at given
  · cases given
  split at given
  · cases given
  rename_i labelled
  split at given
  · cases given
  rename_i fit
  split at given
  · cases given
  rename_i screens
  split at given
  · cases given
  rename_i same
  obtain rfl := Option.some.inj given
  simp only [List.any_eq_true, not_exists, not_and, Bool.not_eq_true, Prod.forall,
    decide_eq_true_eq, Bool.not_eq_false] at labelled
  simp only [not_not, List.all_eq_true] at fit
  simp only [List.any_eq_true, not_exists, not_and, Bool.not_eq_true, Prod.forall,
    Table.mem_rows, Option.any_eq_false, decide_eq_false_iff_not, not_not] at same
  -- The label of a stream names its kind and a source of it.
  have label : ∀ mid kind track, (mediaOf mlines).get? mid = some (kind, true) →
      ((∅ : Table Mid Track).putAll
        (tracks.map fun track => (track.mid, track))).get? mid = some track →
      ∃ source, track.source = some source ∧ source ∈ kind.sources := by
    intro mid kind track kept found
    obtain ⟨listed, rfl⟩ := track_of_labels found
    obtain ⟨other, active, source, alsoKept, _, given, valid⟩ := fits_iff.mp (fit track listed)
    obtain ⟨rfl, rfl⟩ : kind = other ∧ true = active := by
      simpa using kept.symm.trans alsoKept
    exact ⟨source, given, valid⟩
  refine ⟨fun mid => ?_, fun mid source old shown live => ?_,
    fun mid kind source kept shown => Or.inl ?_, fun mid other shown alsoShown => Or.inl ?_⟩
  · simp only [get?_sourcesOf]
    constructor
    · rintro ⟨_, kind, kept, _⟩
      exact ⟨kind, kept⟩
    · rintro ⟨kind, kept⟩
      obtain ⟨track, found⟩ := Table.contains_iff.mp
        (labelled mid kind true (Table.mem_rows.mpr kept) rfl)
      obtain ⟨source, given, _⟩ := label mid kind track kept found
      exact ⟨source, kind, kept, by simp [found, given]⟩
  · exact (same mid source shown old live).symm
  · obtain ⟨other, alsoKept, read⟩ := get?_sourcesOf.mp shown
    obtain ⟨track, found, given⟩ := Option.bind_eq_some_iff.mp read
    obtain ⟨named, alsoGiven, valid⟩ := label mid kind track kept found
    exact Option.some.inj (alsoGiven.symm.trans given) ▸ valid
  · exact Table.key_unique_of_values (Nat.le_of_not_lt screens) shown (by decide) alsoShown
      (by decide)

theorem labelled_of_labelStreams {tracks : Option (List Track)} {current sources : Sources}
    (given : labelStreams mlines tracks current = some sources) :
    Labelled mlines tracks current sources := by
  cases tracks with
  | none =>
      obtain rfl := Option.some.inj given
      exact labelled_of_pinned current
  | some tracks => exact labelled_of_labels given

end Brook.Streams
