import Brook.Chat.Timeline
import Brook.Chat.Toggles

namespace Brook.Chat

open Toggles (Report)

/-! What one client knows of one emoji on one message: its chip, and the two marks that
order the events. -/

structure Chip where
  count : Int
  me : Bool

structure ChipView where
  chip : Option Chip
  mark : Option Int
  mine : Option Int

namespace ChipView

/-- The event is newer than what the mark is of. -/
def Fresh (mark : Option Int) (seq : Nat) : Prop :=
  mark.getD TimelineModel.unmarked < seq

instance (mark : Option Int) (seq : Nat) : Decidable (Fresh mark seq) :=
  inferInstanceAs (Decidable (_ < _))

/-- The chip of an event that brings its count. -/
def counted (v : ChipView) (e : ReactionEvent) (mine : Bool) : Option Chip :=
  if e.count = 0 then none
  else some ⟨e.count, if mine then e.added else (v.chip.map (·.me)).getD false⟩

def receive (me : String) (v : ChipView) (e : ReactionEvent) : ChipView :=
  let meFresh := (me ≠ "" ∧ e.userId = me) ∧ Fresh v.mine e.seq
  { chip :=
      if Fresh v.mark e.seq then v.counted e (decide meFresh)
      else if meFresh then v.chip.map fun chip => { chip with me := e.added }
      else v.chip
    mark := if Fresh v.mark e.seq then some e.seq else v.mark
    mine := if meFresh then some e.seq else v.mine }

/-- No chip, and no event yet. -/
def unseen : ChipView := ⟨none, none, none⟩

theorem fresh_none (seq : Nat) : Fresh none seq := by
  rw [Fresh, Option.getD_none, TimelineModel.unmarked]
  omega

@[simp] theorem fresh_some {mark : Int} {seq : Nat} : Fresh (some mark) seq ↔ mark < seq :=
  Iff.rfl

section

variable {me : String} {rows : List String} {events delivered : List ReactionEvent}
variable {v : ChipView} {e : ReactionEvent}

/-- The newest event of the user's own. -/
def LastOwn (me : String) (events : List ReactionEvent) (o : ReactionEvent) : Prop :=
  o ∈ events ∧ o.userId = me ∧ ∀ {f}, f ∈ events → f.userId = me → f.seq ≤ o.seq

/-- The view after some of the events. -/
structure Follows (me : String) (events delivered : List ReactionEvent) (v : ChipView) :
    Prop where
  within : ∀ {e}, e ∈ delivered → e ∈ events
  mark : ∀ {e}, e ∈ delivered → ¬ Fresh v.mark e.seq
  chip : v.mark = none ∧ v.chip = none ∨ ∃ e ∈ delivered, v.mark = some (e.seq : Int) ∧
    (v.chip.map (·.count)) = if e.count = 0 then none else some (e.count : Int)
  mine : ∀ {e}, e ∈ delivered → e.userId = me → ¬ Fresh v.mine e.seq
  mine_own : ∀ {seq}, v.mine = some seq → ∃ e ∈ delivered, e.userId = me ∧ (e.seq : Int) = seq
  /-- Once the user's newest event is in, the flag is what it says. -/
  flag : ∀ {o}, LastOwn me events o → o ∈ delivered → ∀ {chip}, v.chip = some chip →
    chip.me = o.added
  unflagged : (∀ e ∈ events, e.userId ≠ me) → ∀ {chip}, v.chip = some chip → chip.me = false

theorem unseen_follows : Follows me events [] unseen where
  within := by simp
  mark := by simp
  chip := .inl ⟨rfl, rfl⟩
  mine := by simp
  mine_own := by simp [unseen]
  flag := by simp
  unflagged := by simp [unseen]

/-- A mark that has moved is not behind where it was. -/
theorem not_fresh_moved {mark : Option Int} {seq later : Nat} {moves : Prop} [Decidable moves]
    (only : moves → Fresh mark later) (behind : ¬ Fresh mark seq) :
    ¬ Fresh (if moves then some (later : Int) else mark) seq := by
  split
  case isTrue moved =>
    have fresh := only moved
    cases mark with
    | none => exact (behind (fresh_none seq)).elim
    | some known =>
        rw [fresh_some] at fresh behind ⊢
        omega
  case isFalse => exact behind

theorem not_fresh_self {mark : Option Int} {seq : Nat} {moves : Prop} [Decidable moves]
    (moved : Fresh mark seq → moves) :
    ¬ Fresh (if moves then some (seq : Int) else mark) seq := by
  split
  case isTrue =>
    rw [fresh_some]
    omega
  case isFalse stays => exact fun fresh => stays (moved fresh)

/-- Own events that are newer than the user's newest one in hand are not in hand. -/
theorem Follows.not_received (follows : Follows me events delivered v) (member : e ∈ events) {o : ReactionEvent}
    (last : LastOwn me events o) (own : e.userId = me) (fresh : Fresh v.mine e.seq) :
    o ∉ delivered := by
  intro received
  have behind := follows.mine received last.2.1
  have newest := last.2.2 member own
  cases known : v.mine with
  | none =>
      rw [known] at behind
      exact behind (fresh_none _)
  | some mark =>
      rw [known, fresh_some] at fresh behind
      omega

theorem Follows.own_received (follows : Follows me events delivered v) {o : ReactionEvent}
    (behind : ¬ Fresh v.mine o.seq) :
    ∃ f ∈ delivered, f.userId = me ∧ o.seq ≤ f.seq := by
  cases known : v.mine with
  | none =>
      rw [known] at behind
      exact (behind (fresh_none _)).elim
  | some mark =>
      obtain ⟨f, received, own, same⟩ := follows.mine_own known
      rw [known, fresh_some] at behind
      exact ⟨f, received, own, by omega⟩

theorem Follows.lastOwn (follows : Follows me events delivered v)
    (all : ∀ {e}, e ∈ events → e ∈ delivered) (member : e ∈ events) (own : e.userId = me) :
    ∃ o, LastOwn me events o := by
  cases known : v.mine with
  | none =>
      have behind := follows.mine (all member) own
      rw [known] at behind
      exact (behind (fresh_none _)).elim
  | some mark =>
      obtain ⟨o, o_received, o_own, same⟩ := follows.mine_own known
      refine ⟨o, follows.within o_received, o_own, ?_⟩
      intro g g_member g_own
      have behind := follows.mine (all g_member) g_own
      rw [known, fresh_some] at behind
      omega

/-- While the user's reaction stands, the chip is there once their newest event is in. -/
theorem Follows.chip_of_standing (follows : Follows me events delivered v)
    (report : Report rows events) {o : ReactionEvent} (last : LastOwn me events o)
    (received : o ∈ delivered) (standing : me ∈ rows) : v.chip ≠ none := by
  intro gone
  rcases follows.chip with ⟨unmarked, _⟩ | ⟨newest, newest_received, marked, count⟩
  · have behind := follows.mark received
    rw [unmarked] at behind
    exact behind (fresh_none _)
  · have reached := follows.mark received
    rw [marked, fresh_some] at reached
    have positive := report.reached (follows.within newest_received) standing (by
      intro f member own
      have before := last.2.2 member own
      omega)
    rw [gone, if_neg (Nat.ne_of_gt positive)] at count
    cases count

/-- The flag of the chip that an event leaves, once the user's newest event is in. -/
theorem Follows.flag_receive (follows : Follows me events delivered v)
    (report : Report rows events) (member : e ∈ events) {o : ReactionEvent}
    (last : LastOwn me events o) (holds : o ∈ delivered ∨ o = e) {chip : Chip}
    (shown : (v.receive me e).chip = some chip) : chip.me = o.added := by
  have own_iff : me ≠ "" ∧ e.userId = me ↔ e.userId = me :=
    and_iff_right_of_imp fun own => own ▸ report.named member
  simp only [ChipView.receive, own_iff] at shown
  by_cases moved : e.userId = me ∧ Fresh v.mine e.seq
  · -- A newer own event can only be the newest one.
    have here : o = e := holds.resolve_left (follows.not_received member last moved.1 moved.2)
    subst here
    simp only [moved, and_self, decide_true, if_true, counted] at shown
    split at shown
    case isTrue =>
      split at shown
      · cases shown
      · cases shown
        rfl
    case isFalse =>
      obtain ⟨old, _, rfl⟩ := Option.map_eq_some_iff.mp shown
      rfl
  · have received : o ∈ delivered := by
      rcases holds with before | rfl
      · exact before
      · have behind : ¬ Fresh v.mine o.seq := fun fresh => moved ⟨last.2.1, fresh⟩
        rcases follows.own_received behind with ⟨f, before, own, later⟩
        have newest := last.2.2 (follows.within before) own
        rw [report.apart member (follows.within before) (Nat.le_antisymm later newest)]
        exact before
    simp only [moved, decide_false, if_false, counted] at shown
    split at shown
    case isTrue =>
      split at shown
      · cases shown
      · cases shown
        cases before : v.chip with
        | some old => simpa using follows.flag last received before
        | none =>
            -- A chip that is gone would still be there, had the user's reaction stayed.
            have left : me ∉ rows := fun standing =>
              follows.chip_of_standing report last received standing before
            have removed : ¬ o.added = true := by
              have own := report.own last.1 (fun {f} f_member same =>
                last.2.2 f_member (same.trans last.2.1))
              rw [own, last.2.1]
              exact left
            simp [removed]
    case isFalse => exact follows.flag last received shown

theorem Follows.receive (follows : Follows me events delivered v)
    (report : Report rows events) (member : e ∈ events) :
    Follows me events (delivered ++ [e]) (v.receive me e) := by
  have own_iff : me ≠ "" ∧ e.userId = me ↔ e.userId = me :=
    and_iff_right_of_imp fun own => own ▸ report.named member
  have received : ∀ {f}, f ∈ delivered ++ [e] ↔ f ∈ delivered ∨ f = e := by simp
  constructor
  case within =>
    intro f holds
    rcases received.mp holds with before | rfl
    · exact follows.within before
    · exact member
  case mark =>
    intro f holds
    rcases received.mp holds with before | rfl
    · exact not_fresh_moved id (follows.mark before)
    · exact not_fresh_self id
  case chip =>
    simp only [ChipView.receive, own_iff]
    by_cases fresh : Fresh v.mark e.seq
    · rw [if_pos fresh, if_pos fresh]
      refine .inr ⟨e, received.mpr (.inr rfl), rfl, ?_⟩
      rw [counted]
      split <;> rfl
    · rw [if_neg fresh, if_neg fresh]
      rcases follows.chip with ⟨unmarked, _⟩ | ⟨newest, newest_received, marked, count⟩
      · rw [unmarked] at fresh
        exact (fresh (fresh_none _)).elim
      · refine .inr ⟨newest, received.mpr (.inl newest_received), marked, ?_⟩
        rw [← count]
        split
        · rw [Option.map_map]
          rfl
        · rfl
  case mine =>
    intro f holds own
    rcases received.mp holds with before | rfl
    · exact not_fresh_moved And.right (follows.mine before own)
    · exact not_fresh_self fun fresh => ⟨own_iff.mpr own, fresh⟩
  case mine_own =>
    intro seq marked
    simp only [ChipView.receive, own_iff] at marked
    split at marked
    case isTrue moved =>
      cases marked
      exact ⟨e, received.mpr (.inr rfl), moved.1, rfl⟩
    case isFalse =>
      obtain ⟨f, before, own, same⟩ := follows.mine_own marked
      exact ⟨f, received.mpr (.inl before), own, same⟩
  case flag =>
    intro o last holds chip shown
    exact follows.flag_receive report member last (received.mp holds) shown
  case unflagged =>
    intro others chip shown
    have not_moved : ¬ (e.userId = me ∧ Fresh v.mine e.seq) := fun both => others e member both.1
    simp only [ChipView.receive, own_iff, not_moved, decide_false, if_false, counted] at shown
    split at shown
    case isTrue =>
      split at shown
      · cases shown
      · cases shown
        cases before : v.chip with
        | none => rfl
        | some old => simpa using follows.unflagged others before
    case isFalse => exact follows.unflagged others shown

theorem Follows.receiveAll (report : Report rows events) {later : List ReactionEvent}
    (all : ∀ {e}, e ∈ later → e ∈ events) (follows : Follows me events delivered v) :
    Follows me events (delivered ++ later) (later.foldl (ChipView.receive me) v) := by
  induction later generalizing delivered v with
  | nil =>
      rw [List.append_nil]
      exact follows
  | cons e rest ih =>
      have next := follows.receive report (all List.mem_cons_self)
      have rest_all : ∀ {f}, f ∈ rest → f ∈ events := fun member => all (List.mem_cons_of_mem _ member)
      have done := ih rest_all next
      rwa [List.append_assoc, List.singleton_append] at done

/-- With every event in, the chip has the committed count and the user's own flag. -/
theorem Follows.settled (follows : Follows me events delivered v) (report : Report rows events)
    (all : ∀ {e}, e ∈ events → e ∈ delivered) :
    v.chip = if rows = [] then none else some ⟨rows.length, decide (me ∈ rows)⟩ := by
  rcases follows.chip with ⟨unmarked, none_shown⟩ | ⟨newest, received, marked, count⟩
  · rw [none_shown]
    cases rows with
    | nil => rfl
    | cons userId rest =>
        obtain ⟨e, sent, _⟩ := report.reported List.mem_cons_self
        have behind := follows.mark (all sent)
        rw [unmarked] at behind
        exact (behind (fresh_none _)).elim
  · have total := report.total (follows.within received) (by
      intro f member
      have behind := follows.mark (all member)
      rw [marked, fresh_some] at behind
      omega)
    rw [total] at count
    cases shown : v.chip with
    | none =>
        rw [shown] at count
        split at count
        case isTrue empty => rw [if_pos (List.eq_nil_of_length_eq_zero empty)]
        case isFalse => cases count
    | some chip =>
        rw [shown] at count
        split at count
        case isTrue => cases count
        case isFalse some_left =>
          have nonempty : rows ≠ [] := fun none_left => some_left (by rw [none_left]; rfl)
          rw [if_neg nonempty]
          rw [Option.map_some, Option.some.injEq] at count
          have flag : chip.me = decide (me ∈ rows) := by
            by_cases acted : ∃ e ∈ events, e.userId = me
            · obtain ⟨e, member, own⟩ := acted
              obtain ⟨o, last⟩ := follows.lastOwn all member own
              rw [follows.flag last (all last.1) shown]
              have tells := report.own last.1 fun {f} f_member same =>
                last.2.2 f_member (same.trans last.2.1)
              rw [last.2.1] at tells
              by_cases standing : me ∈ rows
              · simp [standing, tells.mpr standing]
              · simp [standing, mt tells.mp standing]
            · have others : ∀ e ∈ events, e.userId ≠ me := fun e member own =>
                acted ⟨e, member, own⟩
              have left : me ∉ rows := fun standing => acted (report.reported standing)
              simp [left, follows.unflagged others shown]
          rw [← count, ← flag]

end

end ChipView

/-! ### The timeline's chips -/

namespace ReactionRules

/-- The chip as it stands in the message's row. -/
def row (emoji : String) (chip : Chip) : Reaction := ⟨emoji, chip.count, chip.me⟩

/-- The list has this chip of the emoji and no other. -/
def Has (emoji : String) (chip : Option Chip) (list : List Reaction) : Prop :=
  list.filter (·.emoji = emoji) = chip.toList.map (row emoji)

variable {emoji : String} {list : List Reaction} {chip : Chip}

theorem Has.none_place (has : Has emoji none list) : list.findIdx? (·.emoji = emoji) = none := by
  rw [List.findIdx?_eq_none_iff]
  intro reaction member
  have absent := List.filter_eq_nil_iff.mp has reaction member
  simpa using absent

theorem Has.split (has : Has emoji (some chip) list) : ∃ front back,
    list = front ++ row emoji chip :: back ∧ front.filter (·.emoji = emoji) = [] ∧
      back.filter (·.emoji = emoji) = [] ∧
      list.findIdx? (·.emoji = emoji) = some front.length := by
  obtain ⟨front, back, rfl, before, here, after⟩ := List.filter_eq_cons_iff.mp has
  have front_none : front.filter (·.emoji = emoji) = [] := List.filter_eq_nil_iff.mpr before
  refine ⟨front, back, rfl, front_none, after, ?_⟩
  have no_place : front.findIdx? (·.emoji = emoji) = none := Has.none_place front_none
  rw [List.findIdx?_append, no_place, List.findIdx?_cons, if_pos here]
  simp

theorem applying_has {old : Option Chip} (has : Has emoji old list) (count : Int)
    (added byMe : Bool) :
    Has emoji (if count ≤ 0 then none
      else some ⟨count, if byMe then added else (old.map (·.me)).getD false⟩)
      (applying emoji count added byMe list) := by
  cases old with
  | none =>
      have place := has.none_place
      simp only [applying, place]
      split
      · exact has
      · rw [Has] at has ⊢
        rw [List.filter_append, has]
        simp [row]
  | some chip =>
      obtain ⟨front, back, rfl, front_none, back_none, place⟩ := has.split
      simp only [applying, place]
      split
      · rw [List.eraseIdx_append_of_length_le (Nat.le_refl _), Nat.sub_self,
          List.eraseIdx_cons_zero]
        simp [Has, front_none, back_none]
      · rw [List.set_append_right _ _ (Nat.le_refl _), Nat.sub_self, List.set_cons_zero]
        simp [Has, front_none, back_none, row]

theorem modify_length_append {α : Type} (front : List α) (item : α) (back : List α)
    (change : α → α) :
    (front ++ item :: back).modify front.length change = front ++ change item :: back := by
  induction front with
  | nil => rfl
  | cons first rest ih => simpa using ih

theorem marking_has {old : Option Chip} (has : Has emoji old list) (added : Bool) :
    Has emoji (old.map fun chip => { chip with me := added }) (marking emoji added list) := by
  cases old with
  | none =>
      simp only [marking, has.none_place]
      exact has
  | some chip =>
      obtain ⟨front, back, rfl, front_none, back_none, place⟩ := has.split
      simp only [marking, place]
      rw [modify_length_append]
      simp [Has, front_none, back_none, row]

end ReactionRules

namespace TimelineModel

variable {Id Time : Type} [LinearOrder Id] [LinearOrder Time]

/-- What the timeline shows and has noted of one emoji on one message. -/
structure Displays (t : TimelineModel Id) (messageId : Id) (emoji : String) (v : ChipView) :
    Prop where
  shown : ∃ place message, t.messages.findIdx? (·.id = messageId) = some place ∧
    t.messages[place]? = some message ∧ ReactionRules.Has emoji v.chip message.reactions
  mark : t.reactionSeqs.get? (messageId, emoji) = v.mark
  mine : t.reactionMineSeqs.get? (messageId, emoji) = v.mine

theorem findIdx?_modify {α : Type} {found : α → Bool} {change : α → α}
    (keeps : ∀ row, found (change row) = found row) (rows : List α) (place : Nat) :
    (rows.modify place change).findIdx? found = rows.findIdx? found := by
  induction rows generalizing place with
  | nil => simp
  | cons row rest ih =>
      cases place with
      | zero => simp [List.findIdx?_cons, keeps]
      | succ before => simp [List.findIdx?_cons, ih]

def update (channelId : String) (messageId : Id) (emoji : String) (e : ReactionEvent) :
    ServerEvent Id :=
  .reactionUpdate channelId messageId emoji e.userId e.added e.count e.seq

/-- What the event makes of the chip, in the row. -/
theorem has_receive {emoji : String} {v : ChipView} {list : List Reaction} {me : String}
    {e : ReactionEvent} (has : ReactionRules.Has emoji v.chip list)
    (moves : ChipView.Fresh v.mark e.seq ∨
      (me ≠ "" ∧ e.userId = me) ∧ ChipView.Fresh v.mine e.seq) :
    ReactionRules.Has emoji (v.receive me e).chip
      (if ChipView.Fresh v.mark e.seq then
        ReactionRules.applying emoji e.count e.added
          (decide ((me ≠ "" ∧ e.userId = me) ∧ ChipView.Fresh v.mine e.seq)) list
      else ReactionRules.marking emoji e.added list) := by
  simp only [ChipView.receive]
  split
  case isTrue =>
    have applied := ReactionRules.applying_has has e.count e.added
      (decide ((me ≠ "" ∧ e.userId = me) ∧ ChipView.Fresh v.mine e.seq))
    have zero_iff : (e.count : Int) ≤ 0 ↔ e.count = 0 := by omega
    simp only [zero_iff] at applied
    exact applied
  case isFalse stale =>
    rw [if_pos (moves.resolve_left stale)]
    exact ReactionRules.marking_has has e.added

theorem get?_put_if {Key : Type} [DecidableEq Key] (marks : Table Key Int) (key : Key)
    (seq : Int) (moves : Prop) [Decidable moves] :
    (if moves then marks.put key seq else marks).get? key =
      if moves then some seq else marks.get? key := by
  split
  · exact Table.get?_put_self marks key seq
  · rfl

theorem Displays.receive {t : TimelineModel Id} {messageId : Id} {emoji : String} {v : ChipView}
    (displays : t.Displays messageId emoji v) (parseTime : String → Option Time)
    (e : ReactionEvent) :
    (t.apply parseTime (update t.channelId messageId emoji e)).Displays messageId emoji
      (v.receive t.me e) := by
  obtain ⟨⟨place, message, found, here, has⟩, mark, mine⟩ := displays
  simp only [apply, update, if_true, applyReaction, found, mark, mine]
  change Displays (if ChipView.Fresh v.mark e.seq ∨
    (t.me ≠ "" ∧ e.userId = t.me) ∧ ChipView.Fresh v.mine e.seq then _ else t) _ _ _
  split
  case isTrue moves =>
    constructor
    case shown =>
      have shown := has_receive has moves
      refine ⟨place, { message with reactions := _ }, ?_, ?_, shown⟩
      · refine Eq.trans (findIdx?_modify ?_ t.messages place) found
        exact fun _ => rfl
      · exact (List.getElem?_modify_eq ..).trans (congrArg _ here)
    case mark =>
      rw [get?_put_if, mark]
      rfl
    case mine =>
      rw [get?_put_if, mine]
      rfl
  case isFalse stays =>
    have not_count : ¬ ChipView.Fresh v.mark e.seq := fun fresh => stays (.inl fresh)
    have not_mine : ¬ ((t.me ≠ "" ∧ e.userId = t.me) ∧ ChipView.Fresh v.mine e.seq) :=
      fun own => stays (.inr own)
    have same : v.receive t.me e = v := by
      simp only [ChipView.receive, if_neg not_count, if_neg not_mine]
    rw [same]
    exact ⟨⟨place, message, found, here, has⟩, mark, mine⟩

theorem applyReaction_me (t : TimelineModel Id) (messageId : Id) (emoji userId : String)
    (added : Bool) (count seq : Int) :
    (t.applyReaction messageId emoji userId added count seq).me = t.me ∧
      (t.applyReaction messageId emoji userId added count seq).channelId = t.channelId := by
  simp only [applyReaction]
  split
  case h_1 => exact ⟨rfl, rfl⟩
  case h_2 => split <;> exact ⟨rfl, rfl⟩

theorem apply_update_me (parseTime : String → Option Time) (t : TimelineModel Id)
    (messageId : Id) (emoji : String) (e : ReactionEvent) :
    (t.apply parseTime (update t.channelId messageId emoji e)).me = t.me ∧
      (t.apply parseTime (update t.channelId messageId emoji e)).channelId = t.channelId := by
  simp only [apply, update, if_true]
  exact applyReaction_me t messageId emoji e.userId e.added e.count e.seq

/-- The timeline follows the view through all deliveries. -/
theorem Displays.receiveAll (parseTime : String → Option Time) {messageId : Id} {emoji : String}
    (delivered : List ReactionEvent) {t : TimelineModel Id} {v : ChipView}
    (displays : t.Displays messageId emoji v) :
    (delivered.foldl (fun t e => t.apply parseTime (update t.channelId messageId emoji e))
      t).Displays messageId emoji (delivered.foldl (ChipView.receive t.me) v) := by
  induction delivered generalizing t v with
  | nil => exact displays
  | cons e rest ih =>
      have next := ih (displays.receive parseTime e)
      rw [(apply_update_me parseTime t messageId emoji e).1] at next
      exact next

/-- The chips of the emoji on the message. -/
def chips (t : TimelineModel Id) (messageId : Id) (emoji : String) : Option (List Reaction) :=
  (t.messages.find? (·.id = messageId)).map fun message =>
    message.reactions.filter (·.emoji = emoji)

theorem find?_of_findIdx? {α : Type} {found : α → Bool} {rows : List α} {place : Nat} {row : α}
    (at_place : rows.findIdx? found = some place) (here : rows[place]? = some row) :
    rows.find? found = some row := by
  induction rows generalizing place with
  | nil => cases at_place
  | cons first rest ih =>
      rw [List.findIdx?_cons] at at_place
      split at at_place
      case isTrue matches_first =>
        cases at_place
        rw [List.getElem?_cons_zero, Option.some.injEq] at here
        rw [List.find?_cons_of_pos matches_first, here]
      case isFalse differs =>
        obtain ⟨before, at_rest, rfl⟩ := Option.map_eq_some_iff.mp at_place
        rw [List.find?_cons_of_neg differs]
        exact ih at_rest here

theorem Displays.chips {t : TimelineModel Id} {messageId : Id} {emoji : String} {v : ChipView}
    (displays : t.Displays messageId emoji v) :
    t.chips messageId emoji = some (v.chip.toList.map (ReactionRules.row emoji)) := by
  obtain ⟨place, message, found, here, has⟩ := displays.shown
  rw [TimelineModel.chips, find?_of_findIdx? found here, Option.map_some, has]

/-- The message is shown without the emoji, and no event of it was applied. -/
structure Untouched (t : TimelineModel Id) (messageId : Id) (emoji : String) : Prop where
  chips : t.chips messageId emoji = some []
  mark : t.reactionSeqs.get? (messageId, emoji) = none
  mine : t.reactionMineSeqs.get? (messageId, emoji) = none

theorem Untouched.displays {t : TimelineModel Id} {messageId : Id} {emoji : String}
    (untouched : t.Untouched messageId emoji) :
    t.Displays messageId emoji ChipView.unseen := by
  obtain ⟨chips, mark, mine⟩ := untouched
  obtain ⟨message, found, none_shown⟩ := Option.map_eq_some_iff.mp chips
  refine ⟨?_, mark, mine⟩
  cases place : t.messages.findIdx? (·.id = messageId) with
  | none =>
      have absent := List.findIdx?_eq_none_iff.mp place message (List.mem_of_find?_eq_some found)
      have here := List.find?_some found
      rw [here] at absent
      cases absent
  | some i =>
      have inside := (List.findIdx?_eq_some_iff_getElem.mp place).1
      have at_place := List.getElem?_eq_getElem inside
      have same := find?_of_findIdx? place at_place
      rw [found, Option.some.injEq] at same
      refine ⟨i, message, rfl, same ▸ at_place, none_shown⟩

/-- Once every event was delivered, in any order and any number of times, the chip has the
committed count and says whether the user's own reaction is committed. -/
theorem chips_of_all_delivered (parseTime : String → Option Time) {counter : Nat}
    {actions : List Toggles.Action} {s : Toggles}
    (ran : Transition.run Toggles.step (Toggles.start counter) actions = some s)
    (ended : s.Ended) {t : TimelineModel Id} {messageId : Id} {emoji : String}
    (untouched : t.Untouched messageId emoji) {delivered : List ReactionEvent}
    (all : ∀ e, e ∈ delivered ↔ e ∈ s.events) :
    (delivered.foldl (fun t e => t.apply parseTime (update t.channelId messageId emoji e))
      t).chips messageId emoji =
      some (if s.rows = [] then [] else [⟨emoji, s.rows.length, decide (t.me ∈ s.rows)⟩]) := by
  have report := (Toggles.wf_of_run ran).report ended
  have start : ChipView.Follows t.me s.events [] ChipView.unseen := ChipView.unseen_follows
  have follows := start.receiveAll report fun {e} member => (all e).mp member
  rw [List.nil_append] at follows
  have settled := follows.settled report fun {e} member => (all e).mpr member
  have displays := (untouched.displays).receiveAll parseTime delivered
  rw [displays.chips, settled]
  split <;> rfl

/-- Ann's count is read after Bob has committed too. -/
def bothReact : List Toggles.Action :=
  [.ask "ann", .ask "bob", .look 0, .look 1, .take 0, .flush 0, .commit 0, .take 1, .flush 1,
    .commit 1, .count 0, .count 1, .send 1, .send 0]

def bothReacted : Toggles :=
  ⟨6, none, ["bob", "ann"],
    [⟨"ann", .sent true 5 2⟩, ⟨"bob", .sent true 6 2⟩]⟩

theorem chips_of_all_delivered_reordered :
    ([⟨"bob", true, 2, 6⟩, ⟨"ann", true, 2, 5⟩, ⟨"bob", true, 2, 6⟩].foldl
      (fun t e => t.apply (fun _ => (none : Option Nat)) (update t.channelId 1 "+1" e))
      { channelId := "general", me := "ann", rereadOnReady := true,
        messages := [⟨1, "general", "bob", "hello", none, false, [], []⟩] :
          TimelineModel Nat }).chips 1 "+1" = some [⟨"+1", 2, true⟩] := by
  have ran : Transition.run Toggles.step (Toggles.start 4) bothReact = some bothReacted := by
    decide +kernel
  have ended : bothReacted.Ended := by
    unfold Toggles.Ended
    decide +kernel
  have all : ∀ e, e ∈ [ReactionEvent.mk "bob" true 2 6, ⟨"ann", true, 2, 5⟩, ⟨"bob", true, 2, 6⟩] ↔
      e ∈ bothReacted.events := by
    intro e
    have sent : bothReacted.events = [⟨"ann", true, 2, 5⟩, ⟨"bob", true, 2, 6⟩] := by
      decide +kernel
    rw [sent]
    simp only [List.mem_cons, List.not_mem_nil, or_false]
    constructor
    · rintro (bob | ann | bob)
      · exact .inr bob
      · exact .inl ann
      · exact .inr bob
    · rintro (ann | bob)
      · exact .inr (.inl ann)
      · exact .inl bob
  exact chips_of_all_delivered _ ran ended ⟨by decide +kernel, rfl, rfl⟩ all

end TimelineModel

end Brook.Chat
