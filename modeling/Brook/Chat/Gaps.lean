import Brook.Chat.Shown

namespace Brook.Chat

open Window (Joined Beyond Ahead Solid Reaches Under)

variable {Id Time : Type} [LinearOrder Id] [LinearOrder Time]

/-! When the shown messages have a hole. -/

/-- The shown messages are whole up to these: to the anchor that was noted, else to the
newest. -/
def TimelineModel.topIds (t : TimelineModel Id) : List Id :=
  match t.gapAnchor with
  | none => ids t.messages
  | some gap => [gap]

namespace Turn

/-- What the turn has read of the channel. -/
def seen (turn : Turn Id) : List Id := ids (turn.answer.getD [] ++ turn.fetched)

/-- The newest page was read. -/
def HeadAnswered (turn : Turn Id) : Prop := turn.answer ≠ none ∨ turn.fetched ≠ []

instance (turn : Turn Id) : Decidable turn.HeadAnswered :=
  inferInstanceAs (Decidable (_ ∨ _))

end Turn

def HeadDrain.turn? : HeadDrain Id → Option (Turn Id)
  | .turn running => some running
  | _ => none

namespace Rereads

/-- Nothing is fetched or will be, the socket is up, and the last re-read went well. -/
structure Quiet (s : Rereads Id) : Prop where
  up : s.up = true
  headDrain : s.headDrain = .idle
  asks : s.asks = 0
  older : s.older = .idle
  headFailed : s.timeline.headFailed = false

instance (s : Rereads Id) : Decidable s.Quiet :=
  decidable_of_iff
    (s.up = true ∧ s.headDrain = .idle ∧ s.asks = 0 ∧ s.older = .idle ∧
      s.timeline.headFailed = false)
    ⟨fun ⟨up, idle, asks, older, failed⟩ => ⟨up, idle, asks, older, failed⟩,
      fun quiet => ⟨quiet.up, quiet.headDrain, quiet.asks, quiet.older, quiet.headFailed⟩⟩

/-- No undeleted message of the channel whose id `between` picks is left out. -/
def NoneMissing (s : Rereads Id) (between : Id → Prop) : Prop :=
  ∀ m ∈ s.log, m.deleted = false → between m.id → m.id ∈ ids s.timeline.messages

/-- No undeleted message is left out between the oldest shown and the newest. -/
def NoHole (s : Rereads Id) : Prop :=
  s.NoneMissing fun id => (∃ first ∈ ids s.timeline.messages, first ≤ id) ∧
    ∃ last ∈ ids s.timeline.messages, id ≤ last

instance (s : Rereads Id) (between : Id → Prop) [DecidablePred between] :
    Decidable (s.NoneMissing between) :=
  inferInstanceAs (Decidable (∀ m ∈ s.log, _ → _ → _))

instance (s : Rereads Id) : Decidable s.NoHole := inferInstanceAs (Decidable (NoneMissing _ _))

/-- A message above every shown one can be merged: a re-read will fill up to the anchor
below it, or the running one will read the newest page yet, or nothing is left out. -/
def AboveFits (s : Rereads Id) (id : Id) : Prop :=
  s.timeline.gapAnchor ≠ none ∨
    (∀ turn ∈ s.headDrain.turn?, turn.HeadAnswered →
      s.NoneMissing fun u => u < id ∧ ∀ x ∈ turn.seen, x < u) ∧
    (s.headDrain.turn? = none →
      s.NoneMissing fun u => u < id ∧ ∃ first ∈ ids s.timeline.messages, first ≤ u)

instance (s : Rereads Id) (id : Id) : Decidable (s.AboveFits id) :=
  inferInstanceAs (Decidable (_ ∨ _))

/-- A message below every shown one can be merged: the first page is being read, or nothing
is left out. -/
def BelowFits (s : Rereads Id) (id : Id) : Prop :=
  (∃ turn ∈ s.headDrain.turn?, turn.anchor = none) ∨
    s.NoneMissing fun u => id < u ∧ ∀ first ∈ ids s.timeline.messages, u < first

instance (s : Rereads Id) (id : Id) : Decidable (s.BelowFits id) :=
  inferInstanceAs (Decidable (_ ∨ _))

structure MergeFits (s : Rereads Id) (id : Id) : Prop where
  above : (∀ last ∈ ids s.timeline.messages, last < id) → s.AboveFits id
  below : s.timeline.messages ≠ [] → (∀ first ∈ ids s.timeline.messages, id < first) →
    s.BelowFits id

instance (s : Rereads Id) (id : Id) : Decidable (s.MergeFits id) :=
  decidable_of_iff
    (((∀ last ∈ ids s.timeline.messages, last < id) → s.AboveFits id) ∧
      (s.timeline.messages ≠ [] → (∀ first ∈ ids s.timeline.messages, id < first) →
        s.BelowFits id))
    ⟨fun ⟨above, below⟩ => ⟨above, below⟩, fun fits => ⟨fits.above, fits.below⟩⟩

/-- A turn that began with nothing shown ends with the page: nothing is left out between it
and what was merged meanwhile. -/
def PageFits (s : Rereads Id) (page : List (Message Id)) : Prop :=
  ∀ m ∈ s.log, m.deleted = false → (∃ first ∈ ids s.timeline.messages, first ≤ m.id) →
    (∃ last ∈ ids page, m.id ≤ last) → m.id ∈ ids s.timeline.messages ∨ m.id ∈ ids page

instance (s : Rereads Id) (page : List (Message Id)) : Decidable (s.PageFits page) :=
  inferInstanceAs (Decidable (∀ m ∈ s.log, _ → _ → _ → _))

/-- A turn that began with nothing shown fails: nothing is left out between what was merged
meanwhile. -/
def FailFits (s : Rereads Id) : Prop :=
  s.NoneMissing fun id => (∃ first ∈ ids s.timeline.messages, first ≤ id) ∧
    ∃ top ∈ s.timeline.topIds, id ≤ top

instance (s : Rereads Id) : Decidable s.FailFits := inferInstanceAs (Decidable (NoneMissing _ _))

/-- The steps that leave no hole behind. -/
def Fits (s : Rereads Id) : RereadAction Id → Prop
  | .event event =>
      ∀ m ∈ (Delivery.event event).copies s.timeline.channelId, s.MergeFits m.id
  | .sent m => s.MergeFits m.id
  | .receive =>
      ∀ turn ∈ s.headDrain.turn?, turn.anchor = none → ∀ page ∈ turn.answer, s.PageFits page
  | .fail => ∀ turn ∈ s.headDrain.turn?, turn.anchor = none → s.FailFits
  | _ => True

instance (s : Rereads Id) : ∀ action, Decidable (s.Fits action)
  | .event event =>
      inferInstanceAs (Decidable
        (∀ m ∈ (Delivery.event event).copies s.timeline.channelId, s.MergeFits m.id))
  | .sent m => inferInstanceAs (Decidable (s.MergeFits m.id))
  | .receive =>
      inferInstanceAs (Decidable (∀ turn ∈ s.headDrain.turn?, turn.anchor = none →
        ∀ page ∈ turn.answer, s.PageFits page))
  | .fail =>
      inferInstanceAs (Decidable (∀ turn ∈ s.headDrain.turn?, turn.anchor = none → s.FailFits))
  | .commit _ | .edit _ _ _ | .remove _ | .down | .ready | .resync | .foreground | .load
  | .fetchHead | .startTurn | .answer | .loadOlder | .askOlder | .answerOlder | .receiveOlder
  | .failOlder => isTrue trivial

end Rereads

namespace TimelineModel

def shown (t : TimelineModel Id) : Set Id := elems (ids t.messages)

def tops (t : TimelineModel Id) : Set Id := elems t.topIds

omit [LinearOrder Id] in
theorem tops_none {t : TimelineModel Id} (none : t.gapAnchor = none) : t.tops = t.shown := by
  rw [tops, topIds, none, shown]

omit [LinearOrder Id] in
theorem tops_some {t : TimelineModel Id} {gap : Id} (noted : t.gapAnchor = some gap) :
    t.tops = {gap} := by
  rw [tops, topIds, noted]
  ext id
  exact List.mem_singleton

/-- The anchor is a message that is shown. -/
def GapShown (t : TimelineModel Id) : Prop := ∀ gap ∈ t.gapAnchor, gap ∈ t.shown

omit [LinearOrder Id] in
theorem GapShown.tops {t : TimelineModel Id} (shows : t.GapShown) {top : Id}
    (here : top ∈ t.tops) : top ∈ t.shown := by
  cases noted : t.gapAnchor with
  | none => rwa [tops_none noted] at here
  | some gap =>
      rw [tops_some noted] at here
      obtain rfl : top = gap := here
      exact shows top noted

variable {all page : Set Id} {t later : TimelineModel Id} {m : Id}

/-- Another message on the screen, with the anchors as they were. -/
structure Adds (t : TimelineModel Id) (m : Id) (later : TimelineModel Id) : Prop where
  shown : later.shown = insert m t.shown
  gapAnchor : later.gapAnchor = t.gapAnchor

omit [LinearOrder Id] in
theorem Adds.mem_tops (adds : t.Adds m later) {top : Id} (here : top ∈ later.tops) :
    top ∈ t.tops ∨ t.gapAnchor = none ∧ top = m := by
  cases noted : t.gapAnchor with
  | none =>
      rw [tops_none (adds.gapAnchor.trans noted), adds.shown] at here
      rw [tops_none noted]
      exact here.symm.imp_right fun same => ⟨rfl, same⟩
  | some gap =>
      rw [tops_some (adds.gapAnchor.trans noted)] at here
      rw [tops_some noted]
      exact .inl here

/-- What is asked of a message above every shown one. -/
theorem Adds.reach (adds : t.Adds m later) {i : Id} (other : i ≠ m)
    (above : (∀ last ∈ t.shown, last < m) → t.gapAnchor = none → i < m → i ∈ t.shown)
    (to_top : ∃ top ∈ later.tops, i ≤ top) : i ∈ t.shown ∨ ∃ top ∈ t.tops, i ≤ top := by
  obtain ⟨top, here, le⟩ := to_top
  rcases adds.mem_tops here with old | ⟨none, rfl⟩
  · exact .inr ⟨top, old, le⟩
  · by_cases highest : ∀ last ∈ t.shown, last < top
    · exact .inl (above highest none (lt_of_le_of_ne le other))
    · push Not at highest
      obtain ⟨last, there, higher⟩ := highest
      exact .inr ⟨last, by rwa [tops_none none], le.trans higher⟩

theorem Adds.joined (adds : t.Adds m later) (joined : Joined all t.shown t.tops)
    (gap_shown : t.GapShown)
    (above : (∀ last ∈ t.shown, last < m) → t.gapAnchor = none →
      ∀ i ∈ all, i < m → (∃ first ∈ t.shown, first ≤ i) → i ∈ t.shown)
    (below : t.shown.Nonempty → (∀ first ∈ t.shown, m < first) →
      ∀ i ∈ all, m < i → ∃ first ∈ t.shown, first ≤ i) :
    Joined all later.shown later.tops := by
  rw [adds.shown]
  refine joined.insert ?_ ?_
  · intro i member higher to_top
    by_cases lowest : ∀ first ∈ t.shown, m < first
    · refine below ?_ lowest i member higher
      obtain ⟨top, here, le⟩ := to_top
      rcases adds.mem_tops here with old | ⟨_, rfl⟩
      · exact ⟨top, gap_shown.tops old⟩
      · exact (not_le.mpr higher le).elim
    · push Not at lowest
      obtain ⟨first, here, lower⟩ := lowest
      exact ⟨first, here, lower.trans higher.le⟩
  · intro i member other from_low to_top
    exact adds.reach other
      (fun highest none lower => above highest none i member lower from_low) to_top

theorem Adds.joined_anchor (adds : t.Adds m later) {anchor : Id}
    (joined : Joined all t.shown {anchor}) (here : anchor ∈ t.shown)
    (below : t.shown.Nonempty → (∀ first ∈ t.shown, m < first) →
      ∀ i ∈ all, m < i → ∃ first ∈ t.shown, first ≤ i) :
    Joined all later.shown {anchor} := by
  rw [adds.shown]
  refine joined.insert ?_ fun _ _ _ _ to_top => .inr to_top
  intro i member higher _
  by_cases lowest : ∀ first ∈ t.shown, m < first
  · exact below ⟨anchor, here⟩ lowest i member higher
  · push Not at lowest
    obtain ⟨first, there, lower⟩ := lowest
    exact ⟨first, there, lower.trans higher.le⟩

theorem Adds.ahead (adds : t.Adds m later) (ahead : Ahead all page t.shown t.tops)
    (above : (∀ last ∈ t.shown, last < m) → t.gapAnchor = none →
      ∀ i ∈ all, i < m → Beyond page i → i ∈ t.shown) :
    Ahead all page later.shown later.tops := by
  intro i member beyond to_top
  rw [adds.shown]
  by_cases here : i = m
  · exact .inl here
  · right
    rcases adds.reach here (fun highest none lower => above highest none i member lower beyond)
      to_top with there | to_old
    · exact there
    · exact ahead i member beyond to_old

end TimelineModel

end Brook.Chat
