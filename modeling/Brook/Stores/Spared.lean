import Brook.Stores.CrashSafe
import Brook.Stores.Reached
import Brook.Transition.Run

namespace Brook.Stores

open Durable Transition

namespace Store

/-! Runs of a store with a key: what becomes of what was committed. -/

inductive Action
  | opens (fates : List Fate)
  | rebuilds (fates : List Fate)
  | resets (fates : List Fate)
  /-- The key is gone from its slot. -/
  | losesKey
  /-- It is closed, or the process ends. -/
  | stops
  /-- What a transaction of an open store leaves. -/
  | commits (rows : List Row)

/-- After a crash there is a new process. -/
def after {α : Type} (result : Outcome StoreError α × Store × List Fate) : Store :=
  match result.1 with
  | .crashed => result.2.1.restart
  | _ => result.2.1

def act (kind : Kind) (s : Store) : Action → Option Store
  | .opens fates => some (after (openAs .keyed kind s fates))
  | .rebuilds fates => some (after (rebuild .keyed kind s fates))
  | .resets fates => some (after (resetAs .keyed s fates))
  | .losesKey => some { s with slot := none }
  | .stops => some s.restart
  | .commits rows =>
      if s.opened then some { s with db := s.db.map fun d => { d with rows := rows } }
      else none

/-- Whether the action is none that removes or changes rows by request. -/
def Action.keeps : Action → Prop
  | .rebuilds _ => False
  | .resets _ => False
  | .commits _ => False
  | _ => True

/-- An open removes only a database of another format or of another key than the one
that the slot answered. -/
def Spares (kind : Kind) (s : Store) (fates : List Fate) : Prop :=
  ∃ gone, (openAs .keyed kind s fates).2.1.removed = s.removed ++ gone ∧
    ∀ d ∈ gone, d.otherFormat kind ∨
      ∃ k, (openAs .keyed kind s fates).2.1.slot = some k ∧ d.cover ≠ some (some k)

/-- There is a database of the slot's key beside a check of another key. -/
def Misled (kind : Kind) (s : Store) : Prop :=
  s.opened = false ∧ ∃ k d other, s.slot = some k ∧ s.db = some d ∧
    d.cover = some (some k) ∧ ¬ d.otherFormat kind ∧ s.check = some other ∧ other ≠ k

/-- The connection is refused, and the removal that follows is not. -/
def OnlyConnectionRefused (fates : List Fate) : Prop :=
  ∃ rest, fates = [.goes, .goes, .goes, .fails] ++ rest ∧
    rest.head? ≠ some .fails ∧ rest.head? ≠ some .crash

/-- Such a database is taken for another key's. -/
def Misjudges (kind : Kind) (s : Store) (fates : List Fate) : Prop :=
  Misled kind s ∧ OnlyConnectionRefused fates

variable {kind : Kind} {start s : Store} {k : Key} {made : Nat}

/-! ### What every state meets -/

structure Sound (kind : Kind) (s : Store) : Prop where
  keyed : s.WellKeyed
  held : s.opened = true → ∃ k, Held kind k s

theorem WellKeyed.restart (keyed : s.WellKeyed) : s.restart.WellKeyed :=
  ⟨keyed.slot, keyed.check, keyed.cover, keyed.empty⟩

theorem WellKeyed.of_restart (keyed : s.restart.WellKeyed) : s.WellKeyed :=
  ⟨keyed.slot, keyed.check, keyed.cover, keyed.empty⟩

theorem Answered.bounds (answered : Answered start k made) (keyed : start.WellKeyed) :
    k < made ∧ start.made ≤ made := by
  rcases answered with ⟨slot, rfl⟩ | ⟨-, rfl, rfl⟩
  · exact ⟨keyed.slot k slot, Nat.le_refl _⟩
  · exact ⟨Nat.lt_succ_self _, Nat.le_succ _⟩

theorem Comes.wellKeyed {refused : Prop} (comes : Comes kind start refused s)
    (keyed : start.WellKeyed) : s.WellKeyed := by
  cases comes with
  | early => exact keyed
  | @found k made _ answered found =>
      obtain ⟨below, grown⟩ := answered.bounds keyed
      have slot := found.under.slot
      have made_is := found.under.made
      constructor
      · intro key is
        rw [slot] at is
        cases is
        exact made_is ▸ below
      · intro key is
        rcases found.check with same | own
        · rw [same] at is
          exact made_is ▸ Nat.lt_of_lt_of_le (keyed.check key is) grown
        · rw [own] at is
          cases is
          exact made_is ▸ below
      · intro d key here cover
        rcases found.db with same | ⟨e, there, empty, claimed⟩
        · rw [same] at here
          exact made_is ▸ Nat.lt_of_lt_of_le (keyed.cover d key here cover) grown
        · rw [claimed] at here
          cases here
          cases cover
          exact made_is ▸ below
      · intro d here cover
        rcases found.db with same | ⟨e, there, empty, claimed⟩
        · rw [same] at here
          exact keyed.empty d here cover
        · rw [claimed] at here
          cases here
          cases cover
  | @new k made _ answered new why =>
      obtain ⟨below, grown⟩ := answered.bounds keyed
      have slot := new.under.slot
      have made_is := new.under.made
      constructor
      · intro key is
        rw [slot] at is
        cases is
        exact made_is ▸ below
      · intro key is
        rcases new.check with same | none_left | own
        · rw [same] at is
          exact made_is ▸ Nat.lt_of_lt_of_le (keyed.check key is) grown
        · rw [none_left] at is
          cases is
        · rw [own] at is
          cases is
          exact made_is ▸ below
      · intro d key here cover
        rcases new.db d here with ⟨empty, -⟩ | own
        · rw [empty] at cover
          cases cover
        · rw [own] at cover
          cases cover
          exact made_is ▸ below
      · intro d here cover
        rcases new.db d here with ⟨-, nothing⟩ | own
        · exact nothing
        · rw [own] at cover
          cases cover

theorem Rests.sound {refused : Prop} (rests : Rests kind start refused s)
    (keyed : start.WellKeyed) : Sound kind s where
  keyed := (rests.comes.wellKeyed keyed).of_restart
  held opened := by
    obtain ⟨k, -, held⟩ := rests.held opened
    exact ⟨k, held⟩

theorem Sound.of_closed (keyed : s.WellKeyed) (closed : s.opened = false) :
    Sound kind s where
  keyed := keyed
  held opened := by
    rw [closed] at opened
    cases opened

/-- What is done to a reserved store is done to a closed one. -/
theorem reserved_ends {α : Type} {x : Step α} {answers : α → Store → Prop}
    {stops : Store → Prop} {fates : List Fate} (early : stops s)
    (reserves : s.opened = false → Ends answers stops (x s fates.tail)) :
    Ends answers stops (reserved x s fates) := by
  apply Ends.bind_attempt early
  · intro _ a refused
    cases refused
  · intro _
    show Ends answers stops ((if s.opened then Run.fail .alreadyOpen else x) s fates.tail)
    split
    case isTrue => exact early
    case isFalse closed => exact reserves (Bool.eq_false_iff.mpr closed)

theorem openAs_rests {fates : List Fate} (sound : Sound kind s) :
    Ends (fun _ t => t = s ∨ s.opened = false ∧ Rests kind s (fates[3]? = some .fails) t)
      (fun t => t = s ∨ s.opened = false ∧ Rests kind s (fates[3]? = some .fails) t)
      (openAs .keyed kind s fates) := by
  have fourth : fates.tail.tail.tail.head? = fates[3]? := by
    rcases fates with _ | ⟨_, _ | ⟨_, _ | ⟨_, _ | ⟨_, _⟩⟩⟩⟩ <;> rfl
  apply reserved_ends (Or.inl rfl)
  intro closed
  rw [← fourth]
  exact (openReserved_rests sound.keyed closed).weaken
    (fun _ _ rests => Or.inr ⟨closed, rests⟩) (fun _ rests => Or.inr ⟨closed, rests⟩)

theorem removeAll_keyed :
    Triple (fun s => s.WellKeyed ∧ s.opened = false) removeAll
      (fun _ s => s.WellKeyed ∧ s.opened = false)
      (fun s => s.WellKeyed ∧ s.opened = false) := by
  apply Triple.steps_keep
  intro change member s met
  obtain ⟨⟨slot, check, cover, empty⟩, closed⟩ := met
  simp only [List.mem_cons, List.not_mem_nil, or_false] at member
  rcases member with rfl | rfl | rfl | rfl | rfl
  · refine ⟨⟨slot, check, fun d k here => ?_, fun d here => ?_⟩, closed⟩
    · cases here
    · cases here
  · exact ⟨⟨slot, check, cover, empty⟩, closed⟩
  · exact ⟨⟨slot, check, cover, empty⟩, closed⟩
  · exact ⟨⟨slot, check, cover, empty⟩, closed⟩
  · refine ⟨⟨slot, fun k is => ?_, cover, empty⟩, closed⟩
    cases is

theorem after_sound {α : Type} {result : Outcome StoreError α × Store × List Fate}
    (ends : Ends (fun _ => Sound kind) (Sound kind) result) : Sound kind (after result) := by
  have sound := ends.state
  unfold after
  split
  · exact Sound.of_closed sound.keyed.restart rfl
  · exact sound

theorem act_sound {action : Action} (sound : Sound kind start)
    (stepped : act kind start action = some s) : Sound kind s := by
  cases action with
  | opens fates =>
      cases stepped
      have back : ∀ t, t = start ∨ start.opened = false ∧
          Rests kind start (fates[3]? = some .fails) t → Sound kind t := by
        rintro t (rfl | ⟨-, rests⟩)
        · exact sound
        · exact rests.sound sound.keyed
      exact after_sound ((openAs_rests sound).weaken (fun _ => back) back)
  | rebuilds fates =>
      cases stepped
      apply after_sound
      apply reserved_ends sound
      intro closed
      have opens : ∀ fates, Ends (fun _ => Sound kind) (Sound kind)
          ((Run.bind removeAll fun _ => openReserved .keyed kind) start fates) := by
        intro fates
        refine @Ends.bind _ _ _ _ (fun _ s => s.WellKeyed ∧ s.opened = false) _ _ _ _ _ _ ?_ ?_
        · exact (removeAll_keyed start fates ⟨sound.keyed, closed⟩).weaken
            (fun _ _ met => met) (fun _ met => Sound.of_closed met.1 met.2)
        · intro _ t fates met
          have back : ∀ u, Rests kind t (fates.tail.tail.head? = some .fails) u →
              Sound kind u := fun u rests => rests.sound met.1
          exact (openReserved_rests met.1 met.2).weaken (fun _ => back) back
      exact opens _
  | resets fates =>
      cases stepped
      apply after_sound
      apply reserved_ends sound
      intro closed
      have closing : ∀ t : Store, t.WellKeyed ∧ t.opened = false → Sound kind t :=
        fun t met => Sound.of_closed met.1 met.2
      have resets : Triple (fun s => s.WellKeyed ∧ s.opened = false)
          (Run.bind destroy fun destroyed => Run.bind removeAll fun _ => Run.pure destroyed)
          (fun _ => Sound kind) (Sound kind) := by
        apply Triple.bind (fun _ s => s.WellKeyed ∧ s.opened = false)
        · apply Triple.attempt closing
          · exact fun _ met _ _ => met
          · rintro t ⟨keyed, closed⟩
            refine ⟨⟨?_, keyed.check, keyed.cover, keyed.empty⟩, closed⟩
            intro k slot
            cases slot
        · intro destroyed
          apply Triple.bind _ (removeAll_keyed.weaken (fun _ met => met)
            (fun _ _ met => met) closing)
          intro _
          exact Triple.pure closing
      exact resets start _ ⟨sound.keyed, closed⟩
  | losesKey =>
      cases stepped
      refine ⟨⟨?_, sound.keyed.check, sound.keyed.cover, sound.keyed.empty⟩, sound.held⟩
      intro k slot
      cases slot
  | stops =>
      cases stepped
      exact Sound.of_closed sound.keyed.restart rfl
  | commits rows =>
      rw [act] at stepped
      split at stepped
      case isFalse => cases stepped
      case isTrue opened =>
        cases stepped
        obtain ⟨k, check, d, there, cover, format⟩ := sound.held opened
        have now : ∀ e, (start.db.map fun d => { d with rows := rows }) = some e →
            e.cover = some (some k) := by
          intro e here
          rw [there] at here
          cases here
          exact cover
        refine ⟨⟨sound.keyed.slot, sound.keyed.check, ?_, ?_⟩, ?_⟩
        · intro e other here covered
          rw [now e here] at covered
          cases covered
          exact sound.keyed.cover d k there cover
        · intro e here covered
          rw [now e here] at covered
          cases covered
        · refine fun _ => ⟨k, check, { d with rows := rows }, ?_, cover, format⟩
          show start.db.map _ = _
          rw [there]
          rfl

/-! ### One open -/

/-- How an open can come to remove a database. -/
structure Removes (kind : Kind) (start : Store) (refused : Prop) (k : Key) (s : Store) :
    Prop where
  closed : start.opened = false
  slot : s.slot = some k
  removed : s.removed = start.removed ++ start.db.toList
  why : Justified kind start k refused

theorem openAs_removed (sound : Sound kind s) (fates : List Fate) :
    (openAs .keyed kind s fates).2.1.removed = s.removed ∨
    ∃ k, Removes kind s (fates[3]? = some .fails) k (openAs .keyed kind s fates).2.1 := by
  have told : ∀ t, t = s ∨ s.opened = false ∧ Rests kind s (fates[3]? = some .fails) t →
      t.removed = s.removed ∨ ∃ k, Removes kind s (fates[3]? = some .fails) k t := by
    rintro t (rfl | ⟨closed, rests⟩)
    · exact Or.inl rfl
    · generalize left : t.restart = u
      have comes := rests.comes
      have removed : t.removed = u.removed := by rw [← left]; rfl
      have slot : t.slot = u.slot := by rw [← left]; rfl
      rw [left] at comes
      cases comes with
      | early => exact Or.inl removed
      | found _ found => exact Or.inl (removed.trans found.removed)
      | @new k made _ answered new why =>
          exact Or.inr ⟨k, closed, slot.trans new.under.slot, removed.trans new.removed, why⟩
  exact told _ (openAs_rests sound).state

/-- Beside a check of another key and with its connection refused, a database is only
safe where the open is stopped before the removal. -/
theorem stopped_early {fates : List Fate} (misled : Misled kind s)
    (refused : fates[3]? = some .fails) (stopped : ¬ OnlyConnectionRefused fates) :
    (openAs .keyed kind s fates).2.1.removed = s.removed := by
  obtain ⟨closed, k, d, other, slot, there, cover, -, check, unlike⟩ := misled
  obtain ⟨f₀, f₁, f₂, rest, rfl⟩ : ∃ f₀ f₁ f₂ rest, fates = f₀ :: f₁ :: f₂ :: .fails :: rest := by
    rcases fates with _ | ⟨f₀, _ | ⟨f₁, _ | ⟨f₂, _ | ⟨f₃, rest⟩⟩⟩⟩
    · cases refused
    · cases refused
    · cases refused
    · cases refused
    · have is : f₃ = .fails := Option.some.inj refused
      exact ⟨f₀, f₁, f₂, rest, by rw [is]⟩
  have unlike' : ¬ other = k := unlike
  cases f₀ with
  | fails => simp [openAs, reserved, Run.bind, Run.step, Run.attempt]
  | crash => simp [openAs, reserved, Run.bind, Run.step, Run.attempt]
  | goes =>
  cases f₁ with
  | fails => simp [openAs, reserved, Run.bind, Run.step, Run.attempt, Run.get, closed,
      openReserved, openInner, openKeyed, getOrCreate, Run.pure]
  | crash => simp [openAs, reserved, Run.bind, Run.step, Run.attempt, Run.get, closed,
      openReserved, openInner, openKeyed, getOrCreate]
  | goes =>
  cases f₂ with
  | fails => simp [openAs, reserved, Run.bind, Run.step, Run.attempt, Run.get, closed,
      openReserved, openInner, openKeyed, getOrCreate, slot, there, readCheck]
  | crash => simp [openAs, reserved, Run.bind, Run.step, Run.attempt, Run.get, closed,
      openReserved, openInner, openKeyed, getOrCreate, slot, there, readCheck]
  | goes =>
  rcases rest with _ | ⟨f₄, rest⟩
  · exact absurd ⟨[], rfl, by simp, by simp⟩ stopped
  cases f₄ with
  | goes => exact absurd ⟨.goes :: rest, rfl, by simp, by simp⟩ stopped
  | fails => simp [openAs, reserved, Run.bind, Run.step, Run.attempt, Run.get, closed,
      openReserved, openInner, openKeyed, getOrCreate, slot, there, readCheck, check,
      openFound, connect, uncover, removeAll, Run.steps, unlike']
  | crash => simp [openAs, reserved, Run.bind, Run.step, Run.attempt, Run.get, closed,
      openReserved, openInner, openKeyed, getOrCreate, slot, there, readCheck, check,
      openFound, connect, uncover, removeAll, Run.steps, unlike']

/-- Where the removal goes through, that database is gone. -/
theorem misjudged_removes {fates : List Fate} (misjudges : Misjudges kind s fates) :
    ∃ k d, d.cover = some (some k) ∧ ¬ d.otherFormat kind ∧
      (openAs .keyed kind s fates).2.1.slot = some k ∧
      (openAs .keyed kind s fates).2.1.removed = s.removed ++ [d] := by
  obtain ⟨⟨closed, k, d, other, slot, there, cover, format, check, unlike⟩, rest, rfl,
    not_fails, not_crash⟩ := misjudges
  have unlike' : ¬ other = k := unlike
  let gone : Store → Prop := fun t => New s k s.made t ∧ t.db = none
  have begun : gone (removeDb s) := by
    refine ⟨⟨⟨slot, rfl, closed⟩, ?_, ?_, Or.inl rfl⟩, rfl⟩
    · rfl
    · intro e here
      cases here
  have rest_goes : Triple gone (Run.steps StoreError.io [note .removeWal, note .removeShm,
      note .removeJournal, fun s => note .removeCheck { s with check := none }])
      (fun _ => gone) gone := by
    apply Triple.steps_keep
    intro change member t met
    simp only [List.mem_cons, List.not_mem_nil, or_false] at member
    obtain ⟨⟨under, removed, db, check⟩, absent⟩ := met
    rcases member with rfl | rfl | rfl | rfl
    · exact ⟨⟨⟨under.slot, under.made, under.opened⟩, removed, db, check⟩, absent⟩
    · exact ⟨⟨⟨under.slot, under.made, under.opened⟩, removed, db, check⟩, absent⟩
    · exact ⟨⟨⟨under.slot, under.made, under.opened⟩, removed, db, check⟩, absent⟩
    · exact ⟨⟨⟨under.slot, under.made, under.opened⟩, removed, db, Or.inr (Or.inl rfl)⟩,
        absent⟩
  have removes : Ends (fun _ => gone) gone (removeAll s rest) := by
    rcases rest with _ | ⟨fate, rest⟩
    · exact rest_goes _ [] begun
    · cases fate with
      | goes => exact rest_goes _ rest begun
      | fails => exact absurd rfl not_fails
      | crash => exact absurd rfl not_crash
  have inner : Ends (fun inner t => inner = .ready (some .keyMissing) ∧ New s k s.made t)
      (New s k s.made)
      (openInner .keyed kind s (.goes :: .goes :: .fails :: rest)) := by
    have straight : openInner .keyed kind s (.goes :: .goes :: .fails :: rest) =
        Run.bind removeAll (fun _ => Run.bind (create kind k)
          fun _ => Run.pure (.ready (some .keyMissing))) s rest := by
      simp [openInner, openKeyed, Run.bind, Run.attempt, Run.get, getOrCreate, slot, there,
        readCheck, check, openFound, connect, uncover, unlike']
    rw [straight]
    apply Ends.bind (removes.weaken (fun _ _ met => met) (fun _ met => met.1))
    intro _
    apply Triple.bind _ new_create
    intro _
    exact Triple.pure fun t met => ⟨rfl, met.1⟩
  have whole : Ends (fun _ t => t.slot = some k ∧ t.removed = s.removed ++ s.db.toList)
      (fun t => t.slot = some k ∧ t.removed = s.removed ++ s.db.toList)
      (openAs .keyed kind s ([.goes, .goes, .goes, .fails] ++ rest)) := by
    have straight : openAs .keyed kind s ([.goes, .goes, .goes, .fails] ++ rest) =
        openReserved .keyed kind s (.goes :: .goes :: .fails :: rest) := by
      simp [openAs, reserved, Run.bind, Run.step, Run.attempt, Run.get, closed]
    rw [straight]
    apply Ends.bind (inner.weaken (fun _ _ met => met)
      (fun t new => ⟨new.under.slot, new.removed⟩))
    intro answer
    apply Triple.pointwise
    rintro t ⟨rfl, new⟩
    apply Triple.bind (fun _ t => t.slot = some k ∧ t.removed = s.removed ++ s.db.toList)
    · apply Triple.step
      · rintro t rfl
        exact ⟨new.under.slot, new.removed⟩
      · rintro t rfl
        exact ⟨new.under.slot, new.removed⟩
    · intro _
      exact Triple.pure fun t met => met
  have done := whole.state
  rw [there] at done
  exact ⟨k, d, cover, format, done⟩

/-- An open spares the database of the slot's key exactly where it does not misjudge. -/
theorem spares_iff {fates : List Fate} (sound : Sound kind s) :
    Spares kind s fates ↔ ¬ Misjudges kind s fates := by
  constructor
  · rintro ⟨gone, removed, why⟩ misjudges
    obtain ⟨k, d, cover, format, slot, removed'⟩ := misjudged_removes misjudges
    have gone_is : gone = [d] := List.append_cancel_left (removed.symm.trans removed')
    have member : d ∈ gone := gone_is ▸ List.mem_singleton_self d
    rcases why d member with other | ⟨k', slot', not_own⟩
    · exact format other
    · rw [slot] at slot'
      cases slot'
      exact not_own cover
  · intro fair
    have kept : (openAs .keyed kind s fates).2.1.removed = s.removed →
        Spares kind s fates := by
      intro same
      refine ⟨[], ?_, fun d here => (by cases here)⟩
      rw [same, List.append_nil]
    rcases openAs_removed sound fates with same | ⟨k, closed, slot, removed, why⟩
    · exact kept same
    · by_cases hard : Misled kind s ∧ fates[3]? = some .fails
      · apply kept
        exact stopped_early hard.1 hard.2 fun only => fair ⟨hard.1, only⟩
      · refine ⟨s.db.toList, removed, fun d here => ?_⟩
        have there : s.db = some d := Option.mem_toList.mp here
        rcases why d there with other | ⟨unlike, own⟩
        · exact Or.inl other
        · by_cases cover : d.cover = some (some k)
          · left
            by_contra format
            obtain ⟨slot_was, some_check, refused⟩ := own cover
            obtain ⟨other, check⟩ := Option.isSome_iff_exists.mp some_check
            refine hard ⟨⟨closed, k, d, other, slot_was, there, cover, format, check, ?_⟩,
              refused⟩
            intro same
            exact unlike (same ▸ check)
          · exact Or.inr ⟨k, slot, cover⟩

/-! ### What was committed -/

/-- While the slot has this key, these rows are there. -/
structure Keeps (kind : Kind) (k : Key) (rows : List Row) (s : Store) : Prop where
  made : k < s.made
  there : s.slot = some k → s.check = some k ∧ ∃ d, s.db = some d ∧
    d.cover = some (some k) ∧ d.format = some kind.format ∧ d.rows = rows

variable {rows : List Row}

theorem Keeps.of_restart (keeps : Keeps kind k rows s.restart) : Keeps kind k rows s :=
  ⟨keeps.made, keeps.there⟩

theorem Keeps.restart (keeps : Keeps kind k rows s) : Keeps kind k rows s.restart :=
  ⟨keeps.made, keeps.there⟩

theorem Comes.keeps {refused : Prop} (comes : Comes kind start refused s)
    (keyed : start.WellKeyed) (keeps : Keeps kind k rows start) : Keeps kind k rows s := by
  -- A key that was made just now is not this one.
  have slot_was : ∀ {made : Nat}, Answered start k made → start.slot = some k := by
    intro made answered
    rcases answered with ⟨slot, -⟩ | ⟨-, new, -⟩
    · exact slot
    · exact absurd (new ▸ keeps.made) (Nat.lt_irrefl _)
  cases comes with
  | early => exact keeps
  | @found key made _ answered found =>
      constructor
      · rw [found.under.made]
        exact Nat.lt_of_lt_of_le keeps.made (answered.bounds keyed).2
      · intro slot
        rw [found.under.slot] at slot
        cases slot
        obtain ⟨check, d, here, cover, format, same_rows⟩ := keeps.there (slot_was answered)
        refine ⟨found.check.elim (fun same => same.trans check) id, d, ?_, cover, format,
          same_rows⟩
        rcases found.db with same | ⟨e, there, empty, -⟩
        · exact same.trans here
        · rw [here] at there
          cases there
          rw [cover] at empty
          cases empty
  | @new key made _ answered new why =>
      constructor
      · rw [new.under.made]
        exact Nat.lt_of_lt_of_le keeps.made (answered.bounds keyed).2
      · intro slot
        rw [new.under.slot] at slot
        cases slot
        obtain ⟨check, d, here, cover, format, -⟩ := keeps.there (slot_was answered)
        rcases why d here with ⟨f, is, other⟩ | ⟨unlike, -⟩
        · rw [format] at is
          exact absurd (Option.some.inj is).symm other
        · exact absurd check unlike

theorem act_keeps {action : Action} (sound : Sound kind start) (keeping : action.keeps)
    (keeps : Keeps kind k rows start) (stepped : act kind start action = some s) :
    Keeps kind k rows s := by
  cases action with
  | opens fates =>
      cases stepped
      have back : ∀ t, t = start ∨ start.opened = false ∧
          Rests kind start (fates[3]? = some .fails) t → Keeps kind k rows t := by
        rintro t (rfl | ⟨-, rests⟩)
        · exact keeps
        · exact (rests.comes.keeps sound.keyed keeps).of_restart
      have left := back _ (@openAs_rests _ _ fates sound).state
      unfold after
      split
      · exact left.restart
      · exact left
  | losesKey =>
      cases stepped
      refine ⟨keeps.made, fun slot => ?_⟩
      cases slot
  | stops =>
      cases stepped
      exact keeps.restart
  | rebuilds fates => exact keeping.elim
  | resets fates => exact keeping.elim
  | commits rows => exact keeping.elim

theorem run_keeps {later : List Action} (sound : Sound kind start)
    (keeping : ∀ action ∈ later, action.keeps) (keeps : Keeps kind k rows start)
    (reached : run (act kind) start later = some s) : Keeps kind k rows s := by
  induction later generalizing start with
  | nil =>
      cases reached
      exact keeps
  | cons action rest ih =>
      rw [run] at reached
      cases stepped : act kind start action with
      | none => rw [stepped] at reached; cases reached
      | some next =>
          rw [stepped] at reached
          exact ih (act_sound sound stepped)
            (fun later member => keeping later (List.mem_cons_of_mem action member))
            (act_keeps sound (keeping action List.mem_cons_self) keeps stepped) reached

theorem commit_keeps (sound : Sound kind s) (opened : s.opened = true) (rows : List Row) :
    ∃ k t, act kind s (.commits rows) = some t ∧ Keeps kind k rows t := by
  obtain ⟨k, check, d, there, cover, format⟩ := sound.held opened
  refine ⟨k, _, if_pos opened, sound.keyed.check k check, fun _ => ⟨check, ?_⟩⟩
  refine ⟨{ d with rows := rows }, ?_, cover, format, rfl⟩
  show s.db.map _ = _
  rw [there]
  rfl

end Store

open Store

/-- In every state that a store comes to, an open removes a database of its slot's key
exactly where it misjudges; and what was committed is there whenever the slot has the
key that it was committed under. -/
theorem opens_spare_unless_misjudged (kind : Kind) (start s : Store) (before : List Action)
    (keyed : start.WellKeyed) (closed : start.opened = false)
    (reached : run (act kind) start before = some s) :
    (∀ fates, Spares kind s fates ↔ ¬ Misjudges kind s fates) ∧
    (∀ rows, s.opened = true → ∃ k t, act kind s (.commits rows) = some t ∧
      ∀ later u, (∀ action ∈ later, action.keeps) →
        run (act kind) t later = some u → u.slot = some k →
        ∃ d, u.db = some d ∧ d.cover = some (some k) ∧ d.rows = rows) := by
  have sound : Sound kind s :=
    run_invariant_of_step (fun sound stepped => act_sound sound stepped)
      (Sound.of_closed keyed closed) reached
  refine ⟨fun fates => spares_iff sound, fun rows opened => ?_⟩
  obtain ⟨k, t, committed, keeps⟩ := commit_keeps sound opened rows
  refine ⟨k, t, committed, fun later u keeping done slot => ?_⟩
  obtain ⟨-, d, there, cover, -, same_rows⟩ :=
    (run_keeps (act_sound sound committed) keeping keeps done).there slot
  exact ⟨d, there, cover, same_rows⟩

/-- A store is opened and closed and its key is lost; an open of it is cut off after the
removal of its database, the next one before the check of the new database. -/
def Store.twiceCut : List Action :=
  [.opens [], .stops, .losesKey, .opens (List.replicate 5 .goes ++ [.crash]),
    .opens (List.replicate 8 .goes ++ [.crash])]

def Store.withoutCheck : Store :=
  ((run (act .index) Store.nothing Store.twiceCut).getD Store.nothing)

theorem Store.nothing_wellKeyed : Store.nothing.WellKeyed where
  slot k is := by cases is
  check k is := by cases is
  cover d k there := by cases there
  empty d there := by cases there

/-- The check that is still there is the old key's, and a refused connection then counts
as proof against the new database. -/
theorem stale_check_condemns :
    ¬ ∀ (kind : Kind) (start s : Store) (before : List Action), start.WellKeyed →
      start.opened = false → run (act kind) start before = some s →
      ∀ fates, Spares kind s fates := by
  intro claim
  let made : Database := ⟨some (some 1), ["meta", "stores"], some 2, []⟩
  have slot : (openAs .keyed .index Store.withoutCheck [.goes, .goes, .goes, .fails]).2.1.slot =
      some 1 := rfl
  have gone_now : (openAs .keyed .index Store.withoutCheck
      [.goes, .goes, .goes, .fails]).2.1.removed = Store.withoutCheck.removed ++ [made] := rfl
  obtain ⟨gone, removed, why⟩ := claim .index Store.nothing Store.withoutCheck
    Store.twiceCut Store.nothing_wellKeyed rfl rfl [.goes, .goes, .goes, .fails]
  have gone_is : gone = [made] := List.append_cancel_left (removed.symm.trans gone_now)
  have member : made ∈ gone := gone_is ▸ List.mem_singleton_self made
  rcases why made member with ⟨f, format, other⟩ | ⟨k, slot', not_own⟩
  · exact other (Option.some.inj format).symm
  · rw [slot] at slot'
    cases slot'
    exact not_own rfl

def Store.firstOpened : Store := after (openAs .keyed .index Store.nothing [])

theorem first_opened_spared :
    (∀ fates, Spares .index Store.firstOpened fates ↔
      ¬ Misjudges .index Store.firstOpened fates) ∧
    (∀ rows, Store.firstOpened.opened = true → ∃ k t,
      act .index Store.firstOpened (.commits rows) = some t ∧
      ∀ later u, (∀ action ∈ later, action.keeps) →
        run (act .index) t later = some u → u.slot = some k →
        ∃ d, u.db = some d ∧ d.cover = some (some k) ∧ d.rows = rows) :=
  opens_spare_unless_misjudged .index Store.nothing Store.firstOpened [.opens []]
    Store.nothing_wellKeyed rfl rfl

end Brook.Stores
