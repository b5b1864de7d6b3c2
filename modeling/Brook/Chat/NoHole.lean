import Brook.Chat.Refilled

namespace Brook.Chat

open Window (Joined Beyond Ahead Solid Reaches Under)

variable {Id Time : Type} [LinearOrder Id] [LinearOrder Time]

namespace Rereads

variable {s : Rereads Id}

/-! The older pages. -/

section Older

/-- The older request is put away, or noted anew. -/
theorem Inv.putOlder (inv : s.Inv) {older : OlderLoad Id}
    (fits : older.Fits s.log s.timeline) : { s with older := older }.Inv :=
  { inv with older := fits }

theorem Inv.endOlder (inv : s.Inv) : { s with older := .idle }.Inv :=
  { inv with older := trivial }

theorem Inv.noteOldest (inv : s.Inv) : s.noteOldest.Inv := by
  rw [Rereads.noteOldest]
  split
  case isTrue => exact inv.endOlder
  case isFalse =>
    split
    case h_1 => exact inv.endOlder
    case h_2 oldest found =>
      refine inv.putOlder ⟨le_rfl, fun _ => ⟨?_, fun _ unasked => (nomatch unasked),
        fun _ unasked => (nomatch unasked)⟩⟩
      exact mem_ids.mpr ⟨oldest, List.mem_of_mem_head? found, rfl⟩

/-- What the older request changes beside the rows. -/
theorem Inv.mark (inv : s.Inv) (t : TimelineModel Id) (rows : t.messages = s.timeline.messages)
    (marks : s.timeline.SameMarks t) : { s with timeline := t }.Inv := by
  have shown : t.shown = s.timeline.shown := by
    rw [TimelineModel.shown, rows, TimelineModel.shown]
  refine inv.note ⟨shown, rows ▸ inv.sorted, marks.replaced, marks.headFailed,
    marks.rereadOnReady, .inl marks.gapAnchor⟩ fun _ => .inr ⟨marks.gapAnchor, rfl⟩

/-- An older page of the shown history is put under it. -/
theorem Inv.extend (inv : s.Inv) {t : TimelineModel Id} {oldest : Id}
    {page : List (Message Id)}
    (fit : OlderLoad.Extends oldest (some page) s.log s.timeline)
    (shown : t.shown = s.timeline.shown ∪ elems (ids page))
    (sorted : Table.Sorted Message.id t.messages) (marks : s.timeline.SameMarks t) :
    { s with timeline := t, older := .idle }.Inv := by
  have under := fit.under page rfl
  have more : s.timeline.shown ⊆ t.shown := shown ▸ Set.subset_union_left
  have tops : ∀ top' ∈ t.tops, ∃ top ∈ s.timeline.tops, top' ≤ top := by
    intro top here
    cases noted : s.timeline.gapAnchor with
    | none =>
        rw [TimelineModel.tops_none (marks.gapAnchor.trans noted), shown] at here
        rw [TimelineModel.tops_none noted]
        rcases here with old | read
        · exact ⟨top, old, le_rfl⟩
        · exact ⟨oldest, fit.shown, (under.below top read).le⟩
    | some gap =>
        rw [TimelineModel.tops_some (marks.gapAnchor.trans noted)] at here
        rw [TimelineModel.tops_some noted]
        exact ⟨top, here, le_rfl⟩
  refine {
    rereads := marks.rereadOnReady.trans inv.rereads
    sorted := sorted
    ordered := inv.ordered
    known := fun id here => ?_
    gap := fun gap here => more (inv.gap gap (marks.gapAnchor ▸ here))
    older := trivial
    rest := fun rest => shown ▸ ((inv.rest rest).under fit.shown under).of_tops tops
    turn := fun turn running => ?_
    owed := fun idle gap => marks.headFailed ▸ inv.owed idle (marks.gapAnchor ▸ gap)
    pending := fun turn running gap => inv.pending turn running (marks.gapAnchor ▸ gap) }
  · rw [shown] at here
    rcases here with old | read
    · exact inv.known id old
    · exact fit.known page rfl id read
  · have fills := inv.turn turn running
    exact { fills with
      shown := fun anchor here => more (fills.shown anchor here)
      joined := fun anchor here => shown ▸ (fills.joined anchor here).under fit.shown under
      ahead := fun answered => ((fills.ahead answered).of_shown more).of_tops tops }

variable {replacedAtAsk : Nat} {oldest : Id} {page : List (Message Id)}

theorem Inv.askOlder (inv : s.Inv) {replacedAtStart : Nat}
    (waiting : s.older = .waiting oldest replacedAtStart) :
    (s.askOlder oldest replacedAtStart).Inv := by
  have fits : OlderLoad.Fits (.waiting oldest replacedAtStart) s.log s.timeline :=
    waiting ▸ inv.older
  rw [Rereads.askOlder]
  split
  case isTrue => exact inv.noteOldest
  case isFalse same =>
    split
    case isTrue =>
      exact (inv.mark { s.timeline with olderFailed := true } rfl ⟨rfl, rfl, rfl, rfl⟩).endOlder
    case isFalse =>
      exact inv.putOlder fits

theorem Inv.answerOlder (inv : s.Inv) (asked : s.older = .asked oldest replacedAtAsk none) :
    { s with
      older := .asked oldest replacedAtAsk (channelHistory s.log (some oldest)) }.Inv := by
  have fits : OlderLoad.Fits (.asked oldest replacedAtAsk none) s.log s.timeline :=
    asked ▸ inv.older
  refine inv.putOlder ⟨fits.1, fun same => ⟨(fits.2 same).shown, ?_, ?_⟩⟩
  · rintro _ ⟨⟩ id here
    obtain ⟨m, member, rfl⟩ := mem_ids.mp here
    exact mem_ids.mpr ⟨m, (of_mem_channelHistory member).1, rfl⟩
  · rintro _ ⟨⟩
    exact under_channelHistory inv.ordered oldest

theorem Inv.receiveOlder (parseTime : String → Option Time) (inv : s.Inv)
    (asked : s.older = .asked oldest replacedAtAsk (some page)) :
    (s.receiveOlder parseTime replacedAtAsk page).Inv := by
  have fits : OlderLoad.Fits (.asked oldest replacedAtAsk (some page)) s.log s.timeline :=
    asked ▸ inv.older
  simp only [Rereads.receiveOlder]
  split
  case isTrue => exact inv.noteOldest
  case isFalse same =>
    have fit := fits.2 (not_not.mp same).symm
    obtain ⟨sorted, shown⟩ := TimelineModel.store_ids parseTime
      (show Table.Sorted Message.id
        { s.timeline with atStart := s.timeline.atStart || page.isEmpty }.messages from
          inv.sorted) page
    have marks := TimelineModel.store_marks parseTime
      { s.timeline with atStart := s.timeline.atStart || page.isEmpty } page
    refine inv.extend fit ?_ sorted
      ⟨marks.gapAnchor, marks.replaced, marks.headFailed, marks.rereadOnReady⟩
    ext id
    exact shown id

theorem Inv.failOlder (inv : s.Inv) : (s.failOlder replacedAtAsk).Inv := by
  rw [Rereads.failOlder]
  split
  case isTrue => exact inv.noteOldest
  case isFalse =>
    exact (inv.mark
      { s.timeline with error := some "Couldn't load messages.", olderFailed := true } rfl
      ⟨rfl, rfl, rfl, rfl⟩).endOlder

end Older

variable (parseTime : String → Option Time) {next : Rereads Id} {action : RereadAction Id}

/-- A step that leaves no hole behind keeps the timeline so that a re-read fills it. -/
theorem inv_step (inv : s.Inv) (fits : s.Fits action)
    (stepped : s.step parseTime action = some next) : next.Inv := by
  cases action with
  | commit m =>
      simp only [step, Option.ite_none_right_eq_some, Option.some.injEq] at stepped
      obtain ⟨⟨_, _, above⟩, rfl⟩ := stepped
      exact inv.serve (laterLog_commit inv.ordered above)
  | edit id body editedAt =>
      obtain rfl := Option.some.inj stepped
      refine inv.serve (laterLog_map inv.ordered (fun row => ?_) fun row gone => ?_)
      · split <;> rfl
      · split <;> exact gone
  | remove id =>
      obtain rfl := Option.some.inj stepped
      refine inv.serve (laterLog_map inv.ordered (fun row => ?_) fun row gone => ?_)
      · split <;> rfl
      · split
        · rfl
        · exact gone
  | down =>
      obtain rfl := Option.some.inj stepped
      exact { inv with }
  | ready =>
      simp only [step, TimelineModel.apply, inv.rereads, if_true] at stepped
      obtain rfl := Option.some.inj stepped
      have noted : { s with
          timeline := s.timeline.forgetMarks.noteGapAnchor, asks := s.asks + 1 }.Inv :=
        inv.noteGap rfl ⟨rfl, rfl, rfl, rfl⟩
      exact { noted with }
  | resync =>
      have rereads : s.timeline.forgetMarks.rereadOnReady = true := inv.rereads
      simp only [step, TimelineModel.apply, rereads, if_true, Option.ite_none_right_eq_some,
        Option.some.injEq] at stepped
      obtain ⟨_, rfl⟩ := stepped
      exact inv.noteGap rfl ⟨rfl, rfl, rfl, rfl⟩
  | foreground =>
      obtain rfl := Option.some.inj stepped
      exact inv.noteGap rfl ⟨rfl, rfl, rfl, rfl⟩
  | event event =>
      simp only [step, Option.ite_none_right_eq_some, Option.some.injEq] at stepped
      obtain ⟨⟨_, not_ready, not_resync, known⟩, rfl⟩ := stepped
      exact inv.deliver parseTime (fun same => not_ready (Delivery.event.inj same))
        (fun same => not_resync (Delivery.event.inj same)) (copies_event _ event) known fits
  | sent m =>
      simp only [step, Option.ite_none_right_eq_some, Option.some.injEq] at stepped
      obtain ⟨known, rfl⟩ := stepped
      refine inv.deliver parseTime (fun same => by cases same) (fun same => by cases same)
        (.inr ⟨m, rfl⟩) known ?_
      intro sent here
      rw [List.mem_singleton.mp here]
      exact fits
  | load =>
      obtain rfl := Option.some.inj stepped
      exact inv.fetchHead _
  | fetchHead =>
      simp only [step, Option.ite_none_right_eq_some, Option.some.injEq] at stepped
      obtain ⟨_, rfl⟩ := stepped
      exact inv.fetchHead _
  | startTurn =>
      simp only [step, Option.ite_none_right_eq_some, Option.some.injEq] at stepped
      obtain ⟨starting, rfl⟩ := stepped
      exact inv.startTurn (inv.rest (by rw [starting]; rfl))
  | answer =>
      simp only [step] at stepped
      split at stepped
      case h_1 turn running =>
        simp only [Option.ite_none_right_eq_some, Option.some.injEq] at stepped
        obtain ⟨unanswered, rfl⟩ := stepped
        exact inv.answer running unanswered
      case h_2 => cases stepped
  | receive =>
      simp only [step] at stepped
      split at stepped
      case h_1 turn running =>
        obtain ⟨page, answered, rfl⟩ := Option.map_eq_some_iff.mp stepped
        refine inv.receive parseTime running answered fun unanchored => ?_
        exact fits turn (by rw [running]; rfl) unanchored page answered
      case h_2 => cases stepped
  | fail =>
      simp only [step] at stepped
      split at stepped
      case h_1 turn running =>
        obtain rfl := Option.some.inj stepped
        exact inv.fail running (fits turn (by rw [running]; rfl))
      case h_2 => cases stepped
  | loadOlder =>
      simp only [step, Option.ite_none_right_eq_some, Option.some.injEq] at stepped
      obtain ⟨_, rfl⟩ := stepped
      exact (inv.mark { s.timeline with olderFailed := false } rfl
        ⟨rfl, rfl, rfl, rfl⟩).noteOldest
  | askOlder =>
      simp only [step] at stepped
      split at stepped
      case h_1 oldest replacedAtStart waiting =>
        obtain rfl := Option.some.inj stepped
        exact inv.askOlder waiting
      case h_2 => cases stepped
  | answerOlder =>
      simp only [step] at stepped
      split at stepped
      case h_1 oldest replacedAtAsk asked =>
        obtain rfl := Option.some.inj stepped
        exact inv.answerOlder asked
      case h_2 => cases stepped
  | receiveOlder =>
      simp only [step] at stepped
      split at stepped
      case h_1 oldest replacedAtAsk page asked =>
        obtain rfl := Option.some.inj stepped
        exact inv.receiveOlder parseTime asked
      case h_2 => cases stepped
  | failOlder =>
      simp only [step] at stepped
      split at stepped
      case h_1 =>
        obtain rfl := Option.some.inj stepped
        exact inv.failOlder
      case h_2 => cases stepped

/-- Where no step of the run merges a message over a gap that no anchor marks, nothing is
left out of the shown messages once all is quiet. -/
theorem no_hole {channelId me : String} {actions : List (RereadAction Id)}
    (fits : Transition.Along (step parseTime) Fits (start channelId me) actions)
    (ran : Transition.run (step parseTime) (start channelId me) actions = some next)
    (quiet : next.Quiet) : next.NoHole :=
  (Transition.run_invariant (fun inv fits stepped => inv_step parseTime inv fits stepped)
    (inv_start channelId me) fits ran).noHole quiet

/-- A message of the channel. -/
def hello (id : Nat) : Message Nat := ⟨id, "general", "ann", "hello", none, false, [], []⟩

def commits (first count : Nat) : List (RereadAction Nat) :=
  (List.range count).map fun i => .commit (hello (first + i))

/-- The conversation is loaded with one message; the socket goes down. -/
def loaded : List (RereadAction Nat) :=
  [.commit (hello 1), .ready, .fetchHead, .startTurn, .answer, .receive, .down]

/-- More than a page is missed; the user's own message is sent before the re-read starts. -/
def missedPage : List (RereadAction Nat) :=
  loaded ++ commits 2 59 ++
    [.ready, .commit (hello 61), .sent (hello 61), .fetchHead, .startTurn, .answer, .receive,
      .answer, .receive]

theorem no_hole_missedPage :
    ∃ s, Transition.run (step fun _ => (none : Option Nat)) (start "general" "ann") missedPage =
      some s ∧ s.Quiet ∧ s.NoHole := by
  have fits : Transition.Along (step fun _ => (none : Option Nat)) Fits
      (start "general" "ann") missedPage := by decide +kernel
  have quiet : ∀ s ∈ Transition.run (step fun _ => (none : Option Nat)) (start "general" "ann")
      missedPage, s.Quiet := by decide +kernel
  cases ran : Transition.run (step fun _ => (none : Option Nat)) (start "general" "ann")
      missedPage with
  | none => exact absurd ran (by decide +kernel)
  | some s => exact ⟨s, rfl, quiet s ran, no_hole _ fits ran (quiet s ran)⟩

/-- The same, but the user's own message is sent while the socket is down: the re-read takes
it for the point where the gap begins. -/
def sentWhileDown : List (RereadAction Nat) :=
  loaded ++ commits 2 60 ++
    [.sent (hello 61), .ready, .fetchHead, .startTurn, .answer, .receive]

theorem hole_sentWhileDown :
    ¬ ∀ (parseTime : String → Option Nat) (channelId me : String)
      (actions : List (RereadAction Nat)) (s : Rereads Nat),
      Transition.run (step parseTime) (start channelId me) actions = some s → s.Quiet →
        s.NoHole := by
  intro all
  have quiet : ∀ s ∈ Transition.run (step fun _ => (none : Option Nat)) (start "general" "ann")
      sentWhileDown, s.Quiet ∧ ¬ s.NoHole := by decide +kernel
  cases ran : Transition.run (step fun _ => (none : Option Nat)) (start "general" "ann")
      sentWhileDown with
  | none => exact absurd ran (by decide +kernel)
  | some s => exact (quiet s ran).2 (all _ _ _ _ s ran (quiet s ran).1)

end Rereads

end Brook.Chat
