import Brook.Chat.Gaps

namespace Brook.Chat

open Window (Joined Beyond Ahead Solid Reaches Under)

variable {Id Time : Type} [LinearOrder Id] [LinearOrder Time]

/-! A re-read fills what was missed, from the anchor up to the newest message. -/

/-- What a turn has read, and what it will fill. -/
structure Turn.Fills (turn : Turn Id) (log : List (Message Id)) (t : TimelineModel Id) :
    Prop where
  shown : ∀ anchor ∈ turn.anchor, anchor ∈ t.shown
  joined : ∀ anchor ∈ turn.anchor, Joined (live log) t.shown {anchor}
  known : ∀ id ∈ turn.seen, id ∈ ids log
  solid : Solid (live log) (elems turn.seen)
  start : turn.answer = some [] →
    ∀ id ∈ live log, Beyond (elems turn.seen) id ∨ id ∈ elems turn.seen
  ahead : turn.HeadAnswered → Ahead (live log) (elems turn.seen) t.shown t.tops
  /-- With nothing to meet, one page is read. -/
  onePage : turn.anchor = none → turn.fetched = []

/-- An older page that was asked for while the shown history is the one it was noted in. -/
structure OlderLoad.Extends (oldest : Id) (answer : Option (List (Message Id)))
    (log : List (Message Id)) (t : TimelineModel Id) : Prop where
  shown : oldest ∈ t.shown
  known : ∀ page ∈ answer, ∀ id ∈ ids page, id ∈ ids log
  under : ∀ page ∈ answer, Under (live log) (elems (ids page)) oldest

def OlderLoad.Fits (older : OlderLoad Id) (log : List (Message Id)) (t : TimelineModel Id) :
    Prop :=
  match older with
  | .idle => True
  | .waiting oldest noted =>
      noted ≤ t.replaced ∧ (noted = t.replaced → Extends oldest none log t)
  | .asked oldest noted answer =>
      noted ≤ t.replaced ∧ (noted = t.replaced → Extends oldest answer log t)

theorem OlderLoad.Fits.imp {older : OlderLoad Id} {log log' : List (Message Id)}
    {t t' : TimelineModel Id} (fits : older.Fits log t) (replaced : t'.replaced = t.replaced)
    (extend : ∀ {oldest : Id} {answer : Option (List (Message Id))},
      Extends oldest answer log t → Extends oldest answer log' t') : older.Fits log' t' := by
  cases older with
  | idle => trivial
  | waiting oldest noted =>
      exact ⟨fits.1.trans_eq replaced.symm, fun same => extend (fits.2 (same.trans replaced))⟩
  | asked oldest noted answer =>
      exact ⟨fits.1.trans_eq replaced.symm, fun same => extend (fits.2 (same.trans replaced))⟩

theorem OlderLoad.Fits.of_shown {older : OlderLoad Id} {log : List (Message Id)}
    {before t : TimelineModel Id} (fits : older.Fits log before)
    (replaced : t.replaced = before.replaced) (more : before.shown ⊆ t.shown) :
    older.Fits log t :=
  fits.imp replaced fun fit => ⟨more fit.shown, fit.known, fit.under⟩

/-- What was noted in a history that was replaced since is dropped. -/
theorem OlderLoad.Fits.of_replaced {older : OlderLoad Id} {log : List (Message Id)}
    {before t : TimelineModel Id} (fits : older.Fits log before)
    (replaced : before.replaced < t.replaced) : older.Fits log t := by
  have dropped : ∀ {noted : Nat}, noted ≤ before.replaced → noted ≠ t.replaced :=
    fun le => (le.trans_lt replaced).ne
  cases older with
  | idle => trivial
  | waiting oldest noted =>
      exact ⟨fits.1.trans replaced.le, fun same => (dropped fits.1 same).elim⟩
  | asked oldest noted answer =>
      exact ⟨fits.1.trans replaced.le, fun same => (dropped fits.1 same).elim⟩

namespace Rereads

structure Base (s : Rereads Id) : Prop where
  rereads : s.timeline.rereadOnReady = true
  sorted : Table.Sorted Message.id s.timeline.messages
  ordered : Table.Sorted Message.id s.log
  known : ∀ id ∈ s.timeline.shown, id ∈ ids s.log
  gap : s.timeline.GapShown
  older : s.older.Fits s.log s.timeline

structure Inv (s : Rereads Id) : Prop extends s.Base where
  rest : s.headDrain.turn? = none → Joined (live s.log) s.timeline.shown s.timeline.tops
  turn : ∀ turn ∈ s.headDrain.turn?, turn.Fills s.log s.timeline
  /-- An anchor is noted for a re-read that is still to come. -/
  owed : s.headDrain = .idle → s.timeline.gapAnchor ≠ none →
    0 < s.asks ∨ s.timeline.headFailed = true
  pending : ∀ turn ∈ s.headDrain.turn?, s.timeline.gapAnchor ≠ none →
    0 < s.asks ∨ s.headRefetchPending = true

variable {s : Rereads Id}

theorem Inv.noHole (inv : s.Inv) (quiet : s.Quiet) : s.NoHole := by
  have none : s.timeline.gapAnchor = none := by
    by_contra noted
    rcases inv.owed quiet.headDrain noted with asked | failed
    · rw [quiet.asks] at asked
      exact absurd asked (Nat.lt_irrefl 0)
    · rw [quiet.headFailed] at failed
      cases failed
  have joined := inv.rest (by rw [quiet.headDrain]; rfl)
  rw [TimelineModel.tops_none none] at joined
  rintro m member alive ⟨from_first, to_last⟩
  exact joined m.id ⟨m, member, alive, rfl⟩ from_first to_last

theorem inv_start (channelId me : String) : (start channelId me : Rereads Id).Inv where
  rereads := rfl
  sorted := List.Pairwise.nil
  ordered := List.Pairwise.nil
  known := fun _ here => nomatch here
  gap := fun _ noted => nomatch noted
  older := trivial
  rest := fun _ _ member => nomatch member
  turn := fun _ running => nomatch running
  owed := fun _ noted => (noted rfl).elim
  pending := fun _ running => nomatch running

/-! What the server does. -/

section Log

variable {log : List (Message Id)}

/-- The server's list after a commit, an edit or a deletion. -/
structure LaterLog (before log : List (Message Id)) : Prop where
  ordered : Table.Sorted Message.id log
  more : ∀ id ∈ ids before, id ∈ ids log
  new : ∀ id ∈ live log, id ∈ live before ∨ ∀ known ∈ ids before, known < id

theorem LaterLog.old {before : List (Message Id)} (later : LaterLog before log) {tops : Set Id}
    (known : ∀ top ∈ tops, top ∈ ids before) {id : Id} (member : id ∈ live log)
    (to_top : ∃ top ∈ tops, id ≤ top) : id ∈ live before := by
  obtain ⟨top, here, le⟩ := to_top
  rcases later.new id member with old | above
  · exact old
  · exact (not_le.mpr (above top (known top here)) le).elim

theorem LaterLog.beyond {before : List (Message Id)} (later : LaterLog before log)
    {page : List Id} (known : ∀ x ∈ page, x ∈ ids before) {id : Id} (member : id ∈ live log) :
    id ∈ live before ∨ Beyond (elems page) id :=
  (later.new id member).imp_right fun above x here => above x (known x here)

theorem Inv.serve (inv : s.Inv) (later : LaterLog s.log log) : { s with log := log }.Inv := by
  have tops : ∀ top ∈ s.timeline.tops, top ∈ ids s.log :=
    fun top here => inv.known top (inv.gap.tops here)
  have extend : ∀ {oldest : Id} {answer : Option (List (Message Id))},
      OlderLoad.Extends oldest answer s.log s.timeline →
      OlderLoad.Extends oldest answer log s.timeline := by
    intro oldest answer extends_
    refine ⟨extends_.shown, fun page here id member =>
      later.more id (extends_.known page here id member), fun page here => ?_⟩
    have under := extends_.under page here
    refine ⟨under.below, fun id member lower => ?_⟩
    have known : ∀ top ∈ ({oldest} : Set Id), top ∈ ids s.log := by
      rintro _ rfl
      exact inv.known _ extends_.shown
    exact under.full id (later.old known member ⟨oldest, rfl, lower.le⟩) lower
  refine { inv with
    ordered := later.ordered
    known := fun id here => later.more id (inv.known id here)
    older := inv.older.imp rfl extend
    rest := fun rest => (inv.rest rest).of_all fun id member => later.old tops member
    turn := fun turn running => ?_ }
  · have fills := inv.turn turn running
    exact {
      shown := fills.shown
      joined := fun anchor here => (fills.joined anchor here).of_all fun id member =>
        later.old (by
          rintro _ rfl
          exact inv.known _ (fills.shown _ here)) member
      known := fun id here => later.more id (fills.known id here)
      solid := fills.solid.of_all fun id member => later.beyond fills.known member
      start := fun empty id member => by
        rcases later.beyond fills.known member with old | beyond
        · exact fills.start empty id old
        · exact .inl beyond
      ahead := fun answered => (fills.ahead answered).of_all fun id member =>
        later.old tops member
      onePage := fills.onePage }

theorem laterLog_commit {m : Message Id} (ordered : Table.Sorted Message.id s.log)
    (above : ∀ earlier ∈ s.log, earlier.id < m.id) : LaterLog s.log (s.log ++ [m]) where
  ordered := by
    refine List.pairwise_append.mpr ⟨ordered, List.pairwise_singleton _ _, ?_⟩
    intro earlier here last at_end
    rw [List.mem_singleton] at at_end
    exact at_end ▸ above earlier here
  more id here := by
    rw [ids_append]
    exact List.mem_append_left _ here
  new := by
    rintro id ⟨row, member, alive, rfl⟩
    rcases List.mem_append.mp member with before | last
    · exact .inl ⟨row, before, alive, rfl⟩
    · right
      intro known here
      obtain ⟨earlier, there, rfl⟩ := mem_ids.mp here
      rw [List.mem_singleton] at last
      exact last ▸ above earlier there

/-- Rows that change in neither their ids nor, once deleted, in that. -/
theorem laterLog_map {change : Message Id → Message Id}
    (ordered : Table.Sorted Message.id s.log) (same : ∀ row, (change row).id = row.id)
    (gone : ∀ row, row.deleted = true → (change row).deleted = true) :
    LaterLog s.log (s.log.map change) where
  ordered := ordered.map same
  more id here := by
    obtain ⟨row, member, rfl⟩ := mem_ids.mp here
    exact mem_ids.mpr ⟨change row, List.mem_map_of_mem member, same row⟩
  new := by
    rintro id ⟨_, member, alive, rfl⟩
    obtain ⟨row, there, rfl⟩ := List.mem_map.mp member
    refine .inl ⟨row, there, ?_, (same row).symm⟩
    by_contra deleted
    rw [gone row (by simpa using deleted)] at alive
    cases alive

end Log

/-! What reaches the timeline. -/

section Timeline

variable {t : TimelineModel Id}

/-- The timeline changes in nothing that the rows and the anchor show, but for the anchor
that it notes. -/
structure Noted (before t : TimelineModel Id) : Prop where
  shown : t.shown = before.shown
  sorted : Table.Sorted Message.id t.messages
  replaced : t.replaced = before.replaced
  headFailed : t.headFailed = before.headFailed
  rereads : t.rereadOnReady = before.rereadOnReady
  gap : t.gapAnchor = before.gapAnchor ∨
    before.gapAnchor = none ∧ ∀ gap ∈ t.gapAnchor, gap ∈ before.shown

theorem Noted.tops {before : TimelineModel Id} (noted : Noted before t) {top : Id}
    (here : top ∈ t.tops) : top ∈ before.tops := by
  cases gap : t.gapAnchor with
  | none =>
      rw [TimelineModel.tops_none gap, noted.shown] at here
      rcases noted.gap with same | ⟨none, _⟩
      · rwa [TimelineModel.tops_none (same.symm.trans gap)]
      · rwa [TimelineModel.tops_none none]
  | some anchor =>
      rw [TimelineModel.tops_some gap] at here
      rcases noted.gap with same | ⟨none, shown⟩
      · rwa [TimelineModel.tops_some (same.symm.trans gap)]
      · rw [TimelineModel.tops_none none]
        exact here ▸ shown anchor gap

theorem Inv.note (inv : s.Inv) (noted : Noted s.timeline t) {asks : Nat}
    (asked : t.gapAnchor ≠ none → 0 < asks ∨ t.gapAnchor = s.timeline.gapAnchor ∧ asks = s.asks) :
    { s with timeline := t, asks := asks }.Inv := by
  have under : ∀ top' ∈ t.tops, ∃ top ∈ s.timeline.tops, top' ≤ top :=
    fun top here => ⟨top, noted.tops here, le_rfl⟩
  refine {
    rereads := noted.rereads.trans inv.rereads
    sorted := noted.sorted
    ordered := inv.ordered
    known := fun id here => inv.known id (noted.shown ▸ here)
    gap := fun gap here => ?_
    older := inv.older.of_shown noted.replaced (noted.shown ▸ subset_rfl)
    rest := fun rest => noted.shown ▸ (inv.rest rest).of_tops under
    turn := fun turn running => ?_
    owed := fun idle gap => ?_
    pending := fun turn running gap => ?_ }
  · rw [noted.shown]
    rcases noted.gap with same | ⟨_, shown⟩
    · exact inv.gap gap (same ▸ here)
    · exact shown gap here
  · have fills := inv.turn turn running
    exact { fills with
      shown := fun anchor here => noted.shown ▸ fills.shown anchor here
      joined := fun anchor here => noted.shown ▸ fills.joined anchor here
      ahead := fun answered => noted.shown ▸ (fills.ahead answered).of_tops under }
  · rcases asked gap with more | ⟨same, rfl⟩
    · exact .inl more
    · exact noted.headFailed ▸ inv.owed idle (same ▸ gap)
  · rcases asked gap with more | ⟨same, rfl⟩
    · exact .inl more
    · exact inv.pending turn running (same ▸ gap)

theorem Inv.noteGap (inv : s.Inv) {forgets : TimelineModel Id}
    (rows : forgets.messages = s.timeline.messages) (marks : s.timeline.SameMarks forgets) :
    { s with timeline := forgets.noteGapAnchor, asks := s.asks + 1 }.Inv := by
  have shown : forgets.noteGapAnchor.shown = s.timeline.shown := by
    rw [TimelineModel.shown, TimelineModel.noteGapAnchor_messages, rows, TimelineModel.shown]
  have sorted : Table.Sorted Message.id forgets.noteGapAnchor.messages := by
    rw [TimelineModel.noteGapAnchor_messages, rows]
    exact inv.sorted
  refine inv.note ⟨shown, sorted, ?_, ?_, ?_, ?_⟩ fun _ => .inl (Nat.succ_pos _)
  · rw [← marks.replaced, TimelineModel.noteGapAnchor]
    split <;> rfl
  · rw [← marks.headFailed, TimelineModel.noteGapAnchor]
    split <;> rfl
  · rw [← marks.rereadOnReady, TimelineModel.noteGapAnchor]
    split <;> rfl
  · rw [TimelineModel.noteGapAnchor]
    split
    case isTrue none =>
      refine .inr ⟨marks.gapAnchor.symm.trans none, fun gap here => ?_⟩
      obtain ⟨last, at_end, rfl⟩ := Option.map_eq_some_iff.mp here
      rw [rows] at at_end
      exact mem_ids.mpr ⟨last, List.mem_of_getLast? at_end, rfl⟩
    case isFalse => exact .inl marks.gapAnchor

omit [LinearOrder Id] in
theorem NoneMissing.shown {between : Id → Prop} (none : s.NoneMissing between) {id : Id}
    (member : id ∈ live s.log) (picked : between id) : id ∈ s.timeline.shown := by
  obtain ⟨m, here, alive, rfl⟩ := member
  exact none m here alive picked

theorem MergeFits.entry {m : Id} (fits : s.MergeFits m)
    (anchored : ∀ turn ∈ s.headDrain.turn?, turn.anchor ≠ none)
    (some_shown : s.timeline.shown.Nonempty) (lowest : ∀ first ∈ s.timeline.shown, m < first)
    (id : Id) (member : id ∈ live s.log) (higher : m < id) :
    ∃ first ∈ s.timeline.shown, first ≤ id := by
  have some_rows : s.timeline.messages ≠ [] := by
    intro none
    obtain ⟨first, here⟩ := some_shown
    rw [TimelineModel.shown, none] at here
    cases here
  rcases fits.below some_rows lowest with ⟨turn, running, none⟩ | none_missing
  · exact (anchored turn running none).elim
  · by_contra under
    push Not at under
    have here := none_missing.shown member ⟨higher, under⟩
    exact lt_irrefl id (under id here)

theorem Inv.merge (inv : s.Inv) {m : Id} (adds : s.timeline.Adds m t)
    (sorted : Table.Sorted Message.id t.messages) (marks : s.timeline.SameMarks t)
    (known : m ∈ ids s.log) (fits : s.MergeFits m) : { s with timeline := t }.Inv := by
  have more : s.timeline.shown ⊆ t.shown := adds.shown ▸ Set.subset_insert m _
  refine {
    rereads := marks.rereadOnReady.trans inv.rereads
    sorted := sorted
    ordered := inv.ordered
    known := fun id here => ?_
    gap := fun gap here => more (inv.gap gap (marks.gapAnchor ▸ here))
    older := inv.older.of_shown marks.replaced more
    rest := fun rest => adds.joined (inv.rest rest) inv.gap ?_ ?_
    turn := fun turn running => ?_
    owed := fun idle gap => marks.headFailed ▸ inv.owed idle (marks.gapAnchor ▸ gap)
    pending := fun turn running gap => inv.pending turn running (marks.gapAnchor ▸ gap) }
  · rw [adds.shown] at here
    rcases here with rfl | old
    · exact known
    · exact inv.known id old
  · intro highest none id member lower from_low
    rcases fits.above highest with noted | ⟨_, resting⟩
    · exact (noted none).elim
    · exact (resting rest).shown member ⟨lower, from_low⟩
  · exact fits.entry fun turn running => nomatch rest.symm.trans running
  · have fills := inv.turn turn running
    exact { fills with
      shown := fun anchor here => more (fills.shown anchor here)
      joined := fun anchor here => by
        refine adds.joined_anchor (fills.joined anchor here) (fills.shown anchor here)
          (fits.entry fun other also => ?_)
        cases running.symm.trans also
        rw [here]
        exact Option.some_ne_none anchor
      ahead := fun answered => by
        refine adds.ahead (fills.ahead answered) ?_
        intro highest none id member lower beyond
        rcases fits.above highest with noted | ⟨reading, _⟩
        · exact (noted none).elim
        · exact (reading turn running answered).shown member ⟨lower, beyond⟩ }

/-- An event or a send puts at most one message on the screen. -/
theorem Inv.deliver (parseTime : String → Option Time) (inv : s.Inv) {delivery : Delivery Id}
    (not_ready : delivery ≠ .event .ready) (not_resync : delivery ≠ .event .resync)
    (single : delivery.copies s.timeline.channelId = [] ∨
      ∃ m, delivery.copies s.timeline.channelId = [m])
    (known : s.Known delivery)
    (fits : ∀ m ∈ delivery.copies s.timeline.channelId, s.MergeFits m.id) :
    { s with timeline := s.timeline.deliver parseTime delivery }.Inv := by
  obtain ⟨sorted, rows, marks⟩ :=
    TimelineModel.deliver_ids parseTime inv.sorted not_ready not_resync
  rw [Known] at known
  rcases single with none | ⟨m, one⟩
  · have shown : (s.timeline.deliver parseTime delivery).shown = s.timeline.shown := by
      ext id
      exact (rows id).trans (by rw [none]; simp [TimelineModel.shown])
    exact inv.note ⟨shown, sorted, marks.replaced, marks.headFailed, marks.rereadOnReady,
      .inl marks.gapAnchor⟩ fun _ => .inr ⟨marks.gapAnchor, rfl⟩
  · have here : m ∈ delivery.copies s.timeline.channelId := one ▸ List.mem_singleton_self m
    refine inv.merge ⟨?_, marks.gapAnchor⟩ sorted marks (known m here) (fits m here)
    ext id
    refine (rows id).trans ?_
    rw [one]
    simp [TimelineModel.shown, or_comm]

omit [LinearOrder Id] in
theorem copies_event (channel : String) (event : ServerEvent Id) :
    (Delivery.event event).copies channel = [] ∨
      ∃ m, (Delivery.event event).copies channel = [m] := by
  cases event with
  | messageNew message =>
      rw [Delivery.copies]
      split
      · exact .inr ⟨message, rfl⟩
      · exact .inl rfl
  | messageUpdate message =>
      rw [Delivery.copies]
      split
      · exact .inr ⟨message, rfl⟩
      · exact .inl rfl
  | messageDelete => exact .inl rfl
  | reactionUpdate => exact .inl rfl
  | resync => exact .inl rfl
  | ready => exact .inl rfl

end Timeline

/-! The turns of the head fetch. -/

theorem Inv.fetchHead (inv : s.Inv) (asks : Nat) : { s.fetchHead with asks := asks }.Inv := by
  have base := inv.toBase
  rw [Rereads.fetchHead]
  split
  case h_1 idle =>
    exact { base with
      rest := fun _ => inv.rest (by rw [idle]; rfl)
      turn := fun turn running => nomatch running
      owed := fun other => nomatch other
      pending := fun turn running => nomatch running }
  case h_2 busy =>
    exact { base with
      rest := inv.rest
      turn := inv.turn
      owed := fun idle => (busy idle).elim
      pending := fun _ _ _ => .inr rfl }

theorem Base.startTurn (base : s.Base)
    (joined : Joined (live s.log) s.timeline.shown s.timeline.tops) : s.startTurn.Inv := by
  have last_shown : ∀ anchor ∈ s.timeline.messages.getLast?.map (·.id),
      anchor ∈ s.timeline.shown := by
    intro anchor here
    obtain ⟨last, at_end, rfl⟩ := Option.map_eq_some_iff.mp here
    exact mem_ids.mpr ⟨last, List.mem_of_getLast? at_end, rfl⟩
  refine {
    rereads := base.rereads
    sorted := base.sorted
    ordered := base.ordered
    known := base.known
    gap := fun gap none => nomatch none
    older := base.older.of_shown rfl subset_rfl
    rest := fun none => nomatch none
    turn := ?_
    owed := fun idle => nomatch idle
    pending := fun _ _ none => (none rfl).elim }
  rintro _ ⟨⟩
  refine {
    shown := fun anchor here => ?_
    joined := fun anchor here => ?_
    known := fun id here => nomatch here
    solid := fun id _ ⟨x, here, _⟩ => nomatch here
    start := fun none => nomatch none
    ahead := fun answered => by rcases answered with some | some <;> exact (some rfl).elim
    onePage := fun _ => rfl }
  · rcases Option.or_eq_some_iff.mp here with noted | ⟨_, last⟩
    · exact base.gap anchor noted
    · exact last_shown anchor last
  · rcases Option.or_eq_some_iff.mp here with noted | ⟨none, last⟩
    · rwa [← TimelineModel.tops_some noted]
    · refine joined.of_tops ?_
      rintro _ rfl
      rw [TimelineModel.tops_none none]
      exact ⟨_, last_shown _ last, le_rfl⟩

theorem Base.endTurn (base : s.Base)
    (joined : Joined (live s.log) s.timeline.shown s.timeline.tops)
    (owed : s.headRefetchPending = false → s.timeline.gapAnchor ≠ none →
      0 < s.asks ∨ s.timeline.headFailed = true) : s.endTurn.Inv := by
  rw [Rereads.endTurn]
  split
  case isTrue => exact base.startTurn joined
  case isFalse none =>
    exact { base with
      rest := fun _ => joined
      turn := fun turn running => nomatch running
      owed := fun _ => owed (Bool.eq_false_iff.mpr none)
      pending := fun turn running => nomatch running }

section Turn

variable {turn : Turn Id}

/-- The server gives the newest page. -/
theorem fills_head (ordered : Table.Sorted Message.id s.log) {t : TimelineModel Id}
    (fills : turn.Fills s.log t) (fetched : turn.fetched = []) :
    Turn.Fills { turn with answer := channelHistory s.log none } s.log t := by
  have seen : Turn.seen { turn with answer := channelHistory s.log none } =
      ids (channelHistory s.log none) := by
    rw [Turn.seen, fetched, List.append_nil]
    rfl
  refine { fills with known := ?_, solid := ?_, start := ?_, ahead := ?_ } <;> rw [seen]
  · intro id here
    obtain ⟨m, member, rfl⟩ := mem_ids.mp here
    exact mem_ids.mpr ⟨m, (of_mem_channelHistory member).1, rfl⟩
  · exact fun id member from_page => .inr (full_channelHistory ordered member from_page)
  · intro empty id member
    obtain ⟨_, none, _⟩ := channelHistory_empty ordered (Option.some.inj empty) member
    exact nomatch none
  · exact fun _ => Ahead.of_none fun id member => not_beyond_channelHistory ordered member

/-- The server gives the page before those that were read. -/
theorem fills_older (ordered : Table.Sorted Message.id s.log) {t : TimelineModel Id}
    (fills : turn.Fills s.log t) (unanswered : turn.answer = none) {low : Id}
    (before : turn.before = some low) :
    Turn.Fills { turn with answer := channelHistory s.log (some low) } s.log t := by
  have seen : turn.seen = ids turn.fetched := by rw [Turn.seen, unanswered]; rfl
  have read : Turn.seen { turn with answer := channelHistory s.log (some low) } =
      ids (channelHistory s.log (some low)) ++ turn.seen := by
    rw [seen, Turn.seen, ← ids_append]
    rfl
  obtain ⟨first, least⟩ := List.min?_eq_some_iff.mp before
  rw [← seen] at first least
  have some_fetched : turn.fetched ≠ [] := by
    intro none
    rw [seen, none] at first
    exact nomatch first
  have solid := fills.solid.under first (fun x here => least x here)
    (under_channelHistory ordered low)
  refine { fills with known := ?_, solid := ?_, start := ?_, ahead := ?_ } <;> rw [read]
  · intro id here
    rcases List.mem_append.mp here with page | old
    · obtain ⟨m, member, rfl⟩ := mem_ids.mp page
      exact mem_ids.mpr ⟨m, (of_mem_channelHistory member).1, rfl⟩
    · exact fills.known id old
  · rwa [elems_append]
  · intro empty id member
    rw [elems_append]
    obtain ⟨_, ⟨⟩, le⟩ := channelHistory_empty ordered (Option.some.inj empty) member
    exact solid id member ⟨low, .inr first, le⟩
  · rw [elems_append]
    exact fun _ => (fills.ahead (.inr some_fetched)).of_page Set.subset_union_right

theorem Inv.answer (inv : s.Inv) (running : s.headDrain = .turn turn)
    (unanswered : turn.answer = none) :
    { s with
      headDrain := .turn { turn with answer := channelHistory s.log turn.before } }.Inv := by
  have here : turn ∈ s.headDrain.turn? := by rw [running]; rfl
  refine { inv.toBase with
    rest := fun none => nomatch none
    turn := ?_
    owed := fun idle => nomatch idle
    pending := fun _ _ gap => inv.pending turn here gap }
  rintro _ ⟨⟩
  cases before : turn.before with
  | none =>
      rw [Turn.before, List.min?_eq_none_iff, ids, List.map_eq_nil_iff] at before
      exact fills_head inv.ordered (inv.turn turn here) before
  | some low => exact fills_older inv.ordered (inv.turn turn here) unanswered before

/-- The next page is asked for. -/
theorem Inv.next (inv : s.Inv) {page : List (Message Id)} (running : s.headDrain = .turn turn)
    (answered : turn.answer = some page) (apart : meets page turn.anchor = false) :
    { s with
      headDrain := .turn
        ⟨turn.anchor, page ++ turn.fetched, turn.pageBacks + 1, none⟩ }.Inv := by
  have here : turn ∈ s.headDrain.turn? := by rw [running]; rfl
  have fills := inv.turn turn here
  refine { inv.toBase with
    rest := fun none => nomatch none
    turn := ?_
    owed := fun idle => nomatch idle
    pending := fun _ _ gap => inv.pending turn here gap }
  rintro _ ⟨⟩
  have seen : Turn.seen ⟨turn.anchor, page ++ turn.fetched, turn.pageBacks + 1, none⟩ =
      turn.seen := by
    rw [Turn.seen, Turn.seen, answered]
    rfl
  have some_answer : turn.HeadAnswered := .inl (answered ▸ Option.some_ne_none page)
  exact {
    shown := fills.shown
    joined := fills.joined
    known := seen.symm ▸ fills.known
    solid := seen.symm ▸ fills.solid
    start := fun none => nomatch none
    ahead := fun _ => seen.symm ▸ fills.ahead some_answer
    onePage := fun unanchored => by
      change turn.anchor = none at unanchored
      rw [unanchored] at apart
      exact nomatch apart }

/-- The anchor that was noted during a turn, against what the turn has read. -/
theorem raised_cases (fetched : List (Message Id)) (gap : Id) :
    (TimelineModel.raised fetched gap = gap ∧ ∀ x ∈ ids fetched, x ≤ gap) ∨
      TimelineModel.raised fetched gap ∈ ids fetched := by
  rw [TimelineModel.raised]
  split
  case h_1 newest found =>
    obtain ⟨member, greatest⟩ := List.max?_eq_some_iff.mp found
    split
    case isTrue => exact .inr member
    case isFalse under =>
      exact .inl ⟨rfl, fun x here => (greatest x here).trans (not_lt.mp under)⟩
  case h_2 none =>
    rw [List.max?_eq_none_iff] at none
    rw [none]
    exact .inl ⟨rfl, fun x here => nomatch here⟩

/-- What was read, with what is kept of the screen. -/
structure Filled (fetched : List (Message Id)) (kept : Set Id) (before t : TimelineModel Id) :
    Prop where
  shown : t.shown = kept ∪ elems (ids fetched)
  sorted : Table.Sorted Message.id t.messages
  gapAnchor : t.gapAnchor = before.gapAnchor.map (TimelineModel.raised fetched)
  rereads : t.rereadOnReady = before.rereadOnReady
  part : kept ⊆ before.shown
  keeps : ∀ id ∈ before.shown, Beyond (elems (ids fetched)) id → id ∈ kept

variable {fetched : List (Message Id)} {kept : Set Id} {t : TimelineModel Id}

theorem Filled.tops (filled : Filled fetched kept s.timeline t) {top : Id}
    (here : top ∈ t.tops) : top ∈ s.timeline.tops ∪ elems (ids fetched) := by
  cases noted : s.timeline.gapAnchor with
  | none =>
      have none : t.gapAnchor = none := by rw [filled.gapAnchor, noted, Option.map_none]
      rw [TimelineModel.tops_none none, filled.shown] at here
      rw [TimelineModel.tops_none noted]
      exact here.imp_left fun old => filled.part old
  | some gap =>
      have raised : t.gapAnchor = some (TimelineModel.raised fetched gap) := by
        rw [filled.gapAnchor, noted, Option.map_some]
      rw [TimelineModel.tops_some raised] at here
      obtain rfl : top = _ := here
      rw [TimelineModel.tops_some noted]
      exact (raised_cases fetched gap).imp_left fun same => same.1

theorem Filled.gapShown (filled : Filled fetched kept s.timeline t)
    (gap_shown : s.timeline.GapShown) : t.GapShown := by
  intro anchor here
  rw [filled.gapAnchor] at here
  obtain ⟨gap, noted, rfl⟩ := Option.map_eq_some_iff.mp here
  rw [filled.shown]
  rcases raised_cases fetched gap with ⟨same, highest⟩ | read
  · rw [same]
    by_cases read : gap ∈ ids fetched
    · exact .inr read
    · refine .inl (filled.keeps gap (gap_shown gap noted) fun x there => ?_)
      exact lt_of_le_of_ne (highest x there) fun same => read (same ▸ there)
  · exact .inr read

/-- The end of a turn that has read its pages. -/
theorem Inv.filled (inv : s.Inv) (running : s.headDrain = .turn turn)
    (filled : Filled fetched kept s.timeline t) (seen : turn.seen = ids fetched)
    (joined : Joined (live s.log) (kept ∪ elems (ids fetched))
      (s.timeline.tops ∪ elems (ids fetched)))
    (older : s.older.Fits s.log t) : { s with timeline := t }.endTurn.Inv := by
  have here : turn ∈ s.headDrain.turn? := by rw [running]; rfl
  have fills := inv.turn turn here
  refine Base.endTurn ?_ ?_ ?_
  · refine {
      rereads := filled.rereads.trans inv.rereads
      sorted := filled.sorted
      ordered := inv.ordered
      known := fun id there => ?_
      gap := filled.gapShown inv.gap
      older := older }
    rw [filled.shown] at there
    rcases there with old | read
    · exact inv.known id (filled.part old)
    · exact fills.known id (seen ▸ read)
  · have shown := filled.shown
    change Joined (live s.log) t.shown t.tops
    rw [shown]
    exact joined.of_tops fun top there => ⟨top, filled.tops there, le_rfl⟩
  · intro not_pending noted
    have before : s.timeline.gapAnchor ≠ none := by
      intro unnoted
      refine noted ?_
      change t.gapAnchor = none
      rw [filled.gapAnchor, unnoted, Option.map_none]
    rcases inv.pending turn here before with asked | pending
    · exact .inl asked
    · exact nomatch not_pending.symm.trans pending

theorem filled_met (parseTime : String → Option Time) {before : TimelineModel Id}
    (sorted : Table.Sorted Message.id before.messages) (fetched : List (Message Id)) :
    Filled fetched before.shown before (before.fillGap parseTime fetched true) := by
  obtain ⟨still, shown⟩ := TimelineModel.store_ids parseTime sorted fetched
  have marks := before.store_marks parseTime fetched
  exact {
    shown := by ext id; exact shown id
    sorted := still
    gapAnchor := congrArg (Option.map _) marks.gapAnchor
    rereads := marks.rereadOnReady
    part := subset_rfl
    keeps := fun _ here _ => here }

theorem filled_replaced (parseTime : String → Option Time) {before : TimelineModel Id}
    (sorted : Table.Sorted Message.id before.messages) (fetched : List (Message Id)) :
    Filled fetched (before.keepBeside fetched).shown before
      (before.fillGap parseTime fetched false) := by
  have kept : Table.Sorted Message.id (before.keepBeside fetched).messages := sorted.filter _
  obtain ⟨still, shown⟩ := TimelineModel.store_ids parseTime kept fetched
  have marks := (before.keepBeside fetched).store_marks parseTime fetched
  refine {
    shown := by ext id; exact shown id
    sorted := still
    gapAnchor := congrArg (Option.map _) marks.gapAnchor
    rereads := marks.rereadOnReady
    part := ?_
    keeps := ?_ }
  · intro id here
    obtain ⟨row, member, rfl⟩ := mem_ids.mp here
    exact mem_ids.mpr ⟨row, (List.mem_filter.mp member).1, rfl⟩
  · intro id here beyond
    obtain ⟨row, member, rfl⟩ := mem_ids.mp here
    refine mem_ids.mpr ⟨row, List.mem_filter.mpr ⟨member, ?_⟩, rfl⟩
    rw [Bool.or_eq_true, Option.all_eq_true]
    left
    intro newest found
    exact decide_eq_true (beyond newest (List.max?_mem found))

/-- What is kept of the screen lies above the first message that was read. -/
theorem keepBeside_above {before : TimelineModel Id} (some_fetched : ids fetched ≠ [])
    {id : Id} (here : id ∈ (before.keepBeside fetched).shown) :
    ∃ x ∈ elems (ids fetched), x ≤ id := by
  obtain ⟨row, member, rfl⟩ := mem_ids.mp here
  have kept := (List.mem_filter.mp member).2
  rw [Bool.or_eq_true, Bool.and_eq_true, Option.all_eq_true, Option.all_eq_true] at kept
  rcases kept with above | ⟨above, _⟩
  · obtain ⟨newest, found⟩ := Option.ne_none_iff_exists'.mp (List.max?_eq_none_iff.not.mpr
      some_fetched)
    exact ⟨newest, List.max?_mem found, (of_decide_eq_true (above newest found)).le⟩
  · obtain ⟨oldest, found⟩ := Option.ne_none_iff_exists'.mp (List.min?_eq_none_iff.not.mpr
      some_fetched)
    exact ⟨oldest, List.min?_mem found, of_decide_eq_true (above oldest found)⟩

/-- A page that meets the anchor goes down to it. -/
theorem reaches_of_meets {page : List (Message Id)} {anchor : Id}
    (fills : turn.Fills s.log t) (answered : turn.answer = some page)
    (met : meets page (some anchor) = true) :
    Reaches (live s.log) (elems turn.seen) anchor := by
  simp only [meets] at met
  split at met
  case h_1 none =>
    rw [List.min?_eq_none_iff, ids, List.map_eq_nil_iff] at none
    exact .inr (fills.start (none ▸ answered))
  case h_2 oldest found =>
    refine .inl ⟨oldest, ?_, of_decide_eq_true met⟩
    rw [Turn.seen, answered, ids_append]
    exact List.mem_append_left _ (List.min?_mem found)

theorem ids_ne_nil_of_meets {page : List (Message Id)} {anchor : Option Id}
    (apart : meets page anchor = false) : ids page ≠ [] := by
  intro none
  cases anchor with
  | none => exact nomatch apart
  | some low =>
      rw [meets, none] at apart
      exact nomatch apart

theorem Inv.receive (parseTime : String → Option Time) (inv : s.Inv)
    {page : List (Message Id)} (running : s.headDrain = .turn turn)
    (answered : turn.answer = some page) (fits : turn.anchor = none → s.PageFits page) :
    (s.receive parseTime turn page).Inv := by
  have fills := inv.turn turn (by rw [running]; rfl)
  have seen : turn.seen = ids (page ++ turn.fetched) := by rw [Turn.seen, answered]; rfl
  have ahead := fills.ahead (.inl (answered ▸ Option.some_ne_none page))
  have solid := fills.solid
  rw [seen] at ahead solid
  simp only [Rereads.receive]
  split
  case isTrue next => exact inv.next running answered next.1
  case isFalse =>
    cases met : meets page turn.anchor with
    | true =>
        refine inv.filled running (filled_met parseTime inv.sorted _) seen ?_
          (inv.older.of_shown ?_ ?_)
        · cases anchor : turn.anchor with
          | none =>
              refine Joined.beside solid ahead ?_
              rw [fills.onePage anchor, List.append_nil]
              rintro id ⟨m, member, alive, rfl⟩ from_first to_last
              exact fits anchor m member alive from_first to_last
          | some low =>
              rw [anchor] at met
              have reaches := reaches_of_meets fills answered met
              rw [seen] at reaches
              exact (fills.joined low anchor).union_page solid ahead reaches
        · exact (s.timeline.store_marks parseTime _).replaced
        · have filled := filled_met parseTime inv.sorted (page ++ turn.fetched)
          rw [filled.shown]
          exact Set.subset_union_left
    | false =>
        have some_fetched : ids (page ++ turn.fetched) ≠ [] := by
          rw [ids_append]
          exact fun none => ids_ne_nil_of_meets met (List.append_eq_nil_iff.mp none).1
        have filled := filled_replaced parseTime inv.sorted (page ++ turn.fetched)
        refine inv.filled running filled seen ?_ ?_
        · exact Joined.replace solid ahead (fun id here => keepBeside_above some_fetched here)
            filled.keeps
        · refine inv.older.of_replaced ?_
          have marks := (s.timeline.keepBeside (page ++ turn.fetched)).store_marks parseTime
            (page ++ turn.fetched)
          change s.timeline.replaced < _
          exact (Nat.lt_succ_self _).trans_eq marks.replaced.symm

/-- A request of the turn failed. -/
theorem Inv.fail (inv : s.Inv) (running : s.headDrain = .turn turn)
    (fits : turn.anchor = none → s.FailFits) :
    { s with timeline := s.timeline.failHead turn.anchor }.endTurn.Inv := by
  have fills := inv.turn turn (by rw [running]; rfl)
  have same : (s.timeline.failHead turn.anchor).shown = s.timeline.shown := rfl
  have back : (s.timeline.failHead turn.anchor).GapShown ∧
      Joined (live s.log) s.timeline.shown (s.timeline.failHead turn.anchor).tops := by
    cases anchor : turn.anchor with
    | none =>
        have gap : (s.timeline.failHead none).gapAnchor = s.timeline.gapAnchor := by
          rw [TimelineModel.failHead]
          cases s.timeline.gapAnchor <;> rfl
        have tops : (s.timeline.failHead none).tops = s.timeline.tops := by
          rw [TimelineModel.tops, TimelineModel.topIds, gap]
          rfl
        refine ⟨fun noted here => inv.gap noted (gap ▸ here), ?_⟩
        rw [tops]
        rintro id ⟨m, member, alive, rfl⟩ from_first to_top
        exact fits anchor m member alive ⟨from_first, to_top⟩
    | some low =>
        have under : ∃ low', (s.timeline.failHead (some low)).gapAnchor = some low' ∧
            low' ≤ low ∧ low' ∈ s.timeline.shown := by
          have low_shown := fills.shown low anchor
          rw [TimelineModel.failHead]
          cases gap : s.timeline.gapAnchor with
          | none => exact ⟨low, rfl, le_rfl, low_shown⟩
          | some noted =>
              refine ⟨min low noted, rfl, min_le_left low noted, ?_⟩
              rcases min_choice low noted with first | second
              · rwa [first]
              · rw [second]
                exact inv.gap noted gap
        obtain ⟨low', noted, le, here⟩ := under
        refine ⟨fun gap there => ?_, ?_⟩
        · cases noted.symm.trans there
          exact here
        · rw [TimelineModel.tops_some noted]
          refine (fills.joined low anchor).of_tops ?_
          rintro _ rfl
          exact ⟨low, rfl, le⟩
  refine Base.endTurn ?_ (same ▸ back.2) fun _ _ => .inr rfl
  exact {
    rereads := inv.rereads
    sorted := inv.sorted
    ordered := inv.ordered
    known := inv.known
    gap := back.1
    older := inv.older.of_shown rfl subset_rfl }

end Turn

end Rereads

end Brook.Chat
