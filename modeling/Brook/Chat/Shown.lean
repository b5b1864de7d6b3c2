import Brook.Chat.Reread
import Brook.Window.Joined
import Mathlib.Order.MinMax

namespace Brook.Chat

open Window (Joined Beyond Ahead Solid Reaches Under)

variable {Id Time : Type} [LinearOrder Id] [LinearOrder Time]

/-! Which ids the timeline shows, and which a page has. -/

omit [LinearOrder Id] in
@[simp] theorem ids_append (front back : List (Message Id)) :
    ids (front ++ back) = ids front ++ ids back := List.map_append

omit [LinearOrder Id] in
@[simp] theorem ids_cons (m : Message Id) (rest : List (Message Id)) :
    ids (m :: rest) = m.id :: ids rest := rfl

omit [LinearOrder Id] in
@[simp] theorem ids_nil : ids ([] : List (Message Id)) = [] := rfl

omit [LinearOrder Id] in
theorem mem_ids {messages : List (Message Id)} {id : Id} :
    id ∈ ids messages ↔ ∃ row ∈ messages, row.id = id := List.mem_map

omit [LinearOrder Id] in
theorem ids_modify (messages : List (Message Id)) (place : Nat)
    {change : Message Id → Message Id} (same : ∀ row, (change row).id = row.id) :
    ids (messages.modify place change) = ids messages := by
  rw [ids, ids]
  refine List.ext_getElem? fun i => ?_
  rw [List.getElem?_map, List.getElem?_map, List.getElem?_modify]
  cases messages[i]? with
  | none => rfl
  | some row =>
      simp only [Option.map_eq_map, Option.map_some, Option.some.injEq]
      split
      · exact same row
      · rfl

theorem sorted_iff_ids {messages : List (Message Id)} :
    Table.Sorted Message.id messages ↔ (ids messages).Pairwise (· < ·) :=
  List.pairwise_map.symm

theorem Sorted.of_ids {messages later : List (Message Id)}
    (sorted : Table.Sorted Message.id messages) (same : ids later = ids messages) :
    Table.Sorted Message.id later := by
  rw [sorted_iff_ids] at sorted ⊢
  rwa [same]

namespace TimelineModel

theorem mergeOne_put (parseTime : String → Option Time)
    (kept : List Id × Table Id (Message Id)) (m : Message Id) :
    ∃ row, row.id = m.id ∧ (mergeOne parseTime kept m).2 = kept.2.put m.id row := by
  simp only [mergeOne]
  generalize (if m.deleted then m.id :: kept.1 else kept.1) = deleted
  split
  case isTrue => exact ⟨m.tombstone, rfl, rfl⟩
  case isFalse =>
    split
    case h_1 => exact ⟨m, rfl, rfl⟩
    case h_2 old _ =>
      split
      case isTrue => exact ⟨m, rfl, rfl⟩
      case isFalse => exact ⟨{ m with body := old.body, editedAt := old.editedAt }, rfl, rfl⟩

/-- Messages are put under their own ids, and nothing is taken out. -/
theorem mergeAll_ids (parseTime : String → Option Time) (incoming : List (Message Id))
    {kept : List Id × Table Id (Message Id)} (keyed : kept.2.Keyed Message.id) :
    (incoming.foldl (mergeOne parseTime) kept).2.Keyed Message.id ∧
      ∀ id, (∃ row, (incoming.foldl (mergeOne parseTime) kept).2.get? id = some row) ↔
        (∃ row, kept.2.get? id = some row) ∨ id ∈ ids incoming := by
  induction incoming generalizing kept with
  | nil => exact ⟨keyed, fun id => by simp⟩
  | cons m rest ih =>
      obtain ⟨row, named, put⟩ := mergeOne_put parseTime kept m
      have keyedPut : (mergeOne parseTime kept m).2.Keyed Message.id := by
        rw [put, ← named]
        exact keyed.put row
      obtain ⟨keyedAll, shown⟩ := ih keyedPut
      refine ⟨keyedAll, fun id => ?_⟩
      rw [List.foldl_cons, shown, put, Table.get?_put]
      split
      case isTrue same => simp [same]
      case isFalse other => simp [other]

theorem store_ids (parseTime : String → Option Time) {t : TimelineModel Id}
    (sorted : Table.Sorted Message.id t.messages) (incoming : List (Message Id)) :
    Table.Sorted Message.id (t.store parseTime incoming).messages ∧
      ∀ id, id ∈ ids (t.store parseTime incoming).messages ↔
        id ∈ ids t.messages ∨ id ∈ ids incoming := by
  rw [TimelineModel.store]
  split
  case isTrue none =>
    subst none
    exact ⟨sorted, fun id => by simp⟩
  case isFalse =>
    have keyedBefore : (t.deleted, Table.indexed Message.id t.messages).2.Keyed Message.id :=
      Table.keyed_indexed sorted
    obtain ⟨keyed, shown⟩ := mergeAll_ids parseTime incoming keyedBefore
    refine ⟨Table.sorted_sortedValues keyed, fun id => ?_⟩
    have before : (∃ row, (Table.indexed Message.id t.messages).get? id = some row) ↔
        id ∈ ids t.messages := by
      rw [mem_ids]
      exact exists_congr fun row => Table.get?_indexed sorted
    rw [← before, ← shown, mem_ids]
    constructor
    · rintro ⟨row, member, rfl⟩
      exact ⟨row, (Table.mem_sortedValues keyed).mp member⟩
    · rintro ⟨row, found⟩
      have named := keyed found
      exact ⟨row, (Table.mem_sortedValues keyed).mpr (named ▸ found), named⟩

/-- What the timeline keeps beside its rows while nothing is read again. -/
structure SameMarks (t later : TimelineModel Id) : Prop where
  gapAnchor : later.gapAnchor = t.gapAnchor
  replaced : later.replaced = t.replaced
  headFailed : later.headFailed = t.headFailed
  rereadOnReady : later.rereadOnReady = t.rereadOnReady

theorem store_marks (parseTime : String → Option Time) (t : TimelineModel Id)
    (incoming : List (Message Id)) : t.SameMarks (t.store parseTime incoming) := by
  rw [TimelineModel.store]
  split <;> exact ⟨rfl, rfl, rfl, rfl⟩

theorem merge_marks (parseTime : String → Option Time) (t : TimelineModel Id)
    (incoming : List (Message Id)) : t.SameMarks (t.merge parseTime incoming) := by
  obtain ⟨gap, replaced, failed, rereads⟩ :=
    store_marks parseTime (t.touch (incoming.map (·.id))) incoming
  exact ⟨gap, replaced, failed, rereads⟩

/-- What a delivery leaves on the screen, where it starts no re-read. -/
theorem deliver_ids (parseTime : String → Option Time) {t : TimelineModel Id}
    (sorted : Table.Sorted Message.id t.messages) {delivery : Delivery Id} (not_ready : delivery ≠ .event .ready)
    (not_resync : delivery ≠ .event .resync) :
    Table.Sorted Message.id (t.deliver parseTime delivery).messages ∧
      (∀ id, id ∈ ids (t.deliver parseTime delivery).messages ↔
        id ∈ ids t.messages ∨ id ∈ ids (delivery.copies t.channelId)) ∧
      t.SameMarks (t.deliver parseTime delivery) := by
  have merged : ∀ incoming, Table.Sorted Message.id (t.merge parseTime incoming).messages ∧
      (∀ id, id ∈ ids (t.merge parseTime incoming).messages ↔
        id ∈ ids t.messages ∨ id ∈ ids incoming) ∧
      t.SameMarks (t.merge parseTime incoming) := by
    intro incoming
    have touched : Table.Sorted Message.id (t.touch (incoming.map (·.id))).messages := sorted
    obtain ⟨still, shown⟩ := store_ids parseTime touched incoming
    exact ⟨still, shown, merge_marks parseTime t incoming⟩
  have same : ∀ {later : TimelineModel Id}, ids later.messages = ids t.messages →
      t.SameMarks later → Table.Sorted Message.id later.messages ∧
        (∀ id, id ∈ ids later.messages ↔ id ∈ ids t.messages ∨ id ∈ ids []) ∧
        t.SameMarks later := by
    intro later rows marks
    exact ⟨Sorted.of_ids sorted rows, fun id => by simp [rows], marks⟩
  cases delivery with
  | page messages =>
      obtain ⟨still, shown⟩ := store_ids parseTime sorted messages
      exact ⟨still, shown, store_marks parseTime t messages⟩
  | sent message => exact merged [message]
  | event event =>
      cases event with
      | messageNew message =>
          simp only [deliver, apply, Delivery.copies]
          split
          · exact merged [message]
          · exact same rfl ⟨rfl, rfl, rfl, rfl⟩
      | messageUpdate message =>
          simp only [deliver, apply, Delivery.copies]
          split
          · exact merged [message]
          · exact same rfl ⟨rfl, rfl, rfl, rfl⟩
      | messageDelete channel messageId =>
          simp only [deliver, apply, Delivery.copies]
          split
          · split
            · exact same (ids_modify _ _ fun _ => rfl) ⟨rfl, rfl, rfl, rfl⟩
            · exact same rfl ⟨rfl, rfl, rfl, rfl⟩
          · exact same rfl ⟨rfl, rfl, rfl, rfl⟩
      | reactionUpdate channel messageId emoji userId added count seq =>
          simp only [deliver, apply, applyReaction, Delivery.copies]
          split
          · split
            · exact same rfl ⟨rfl, rfl, rfl, rfl⟩
            · split
              · exact same (ids_modify _ _ fun _ => rfl) ⟨rfl, rfl, rfl, rfl⟩
              · exact same rfl ⟨rfl, rfl, rfl, rfl⟩
          · exact same rfl ⟨rfl, rfl, rfl, rfl⟩
      | resync => exact (not_resync rfl).elim
      | ready => exact (not_ready rfl).elim

end TimelineModel

def elems {α : Type} (list : List α) : Set α := { i | i ∈ list }

omit [LinearOrder Id] in
@[simp] theorem mem_elems {list : List Id} {id : Id} : id ∈ elems list ↔ id ∈ list := Iff.rfl

omit [LinearOrder Id] in
theorem elems_append (front back : List Id) :
    elems (front ++ back) = elems front ∪ elems back := by
  ext id
  exact List.mem_append

/-- The channel's messages that are not deleted. -/
def live (log : List (Message Id)) : Set Id :=
  { id | ∃ m ∈ log, m.deleted = false ∧ m.id = id }

section Page

variable {log : List (Message Id)} {before : Option Id} {m first : Message Id}

theorem of_mem_channelHistory (here : m ∈ channelHistory log before) :
    m ∈ log ∧ m.deleted = false ∧ ∀ b ∈ before, m.id < b := by
  have member := List.mem_of_mem_drop here
  rw [List.mem_filter] at member
  simpa [Option.all_eq_true] using member

/-- What a page leaves out lies under all of it. -/
theorem channelHistory_cases (ordered : Table.Sorted Message.id log) (member : m ∈ log)
    (alive : m.deleted = false) (below : ∀ b ∈ before, m.id < b) :
    m ∈ channelHistory log before ∨
      channelHistory log before ≠ [] ∧ ∀ p ∈ channelHistory log before, m.id < p.id := by
  have listed : m ∈ log.filter fun m => !m.deleted && before.all (m.id < ·) := by
    rw [List.mem_filter]
    refine ⟨member, ?_⟩
    rw [alive, Bool.not_false, Bool.true_and, Option.all_eq_true]
    exact fun b here => decide_eq_true (below b here)
  have sorted : Table.Sorted Message.id
      (log.filter fun m => !m.deleted && before.all (m.id < ·)) := ordered.filter _
  rw [channelHistory]
  generalize (log.filter fun m => !m.deleted && before.all (m.id < ·)) = rows at listed sorted
  rw [← List.take_append_drop (rows.length - pageSize) rows] at listed sorted
  rcases List.mem_append.mp listed with early | late
  · right
    refine ⟨fun none => ?_, fun p here => (List.pairwise_append.mp sorted).2.2 m early p here⟩
    rw [List.drop_eq_nil_iff] at none
    have some_early := List.length_pos_of_mem early
    rw [List.length_take] at some_early
    simp only [pageSize] at none some_early
    omega
  · exact .inl late

variable (ordered : Table.Sorted Message.id log)
include ordered

theorem under_channelHistory (high : Id) :
    Under (live log) (elems (ids (channelHistory log (some high)))) high := by
  constructor
  case below =>
    intro x here
    obtain ⟨m, member, rfl⟩ := mem_ids.mp here
    exact (of_mem_channelHistory member).2.2 high rfl
  case full =>
    rintro id ⟨m, member, alive, rfl⟩ lower ⟨x, here, le⟩
    obtain ⟨p, member_p, rfl⟩ := mem_ids.mp here
    have below : ∀ b ∈ some high, m.id < b := fun b at_b => by cases at_b; exact lower
    rcases channelHistory_cases ordered member alive below with there | ⟨_, under⟩
    · exact mem_ids.mpr ⟨m, there, rfl⟩
    · exact (not_le.mpr (under p member_p) le).elim

/-- The newest page has everything from its first message on. -/
theorem full_channelHistory {id : Id} (alive : id ∈ live log)
    (from_page : ∃ x ∈ elems (ids (channelHistory log none)), x ≤ id) :
    id ∈ elems (ids (channelHistory log none)) := by
  obtain ⟨m, member, undeleted, rfl⟩ := alive
  obtain ⟨x, here, le⟩ := from_page
  obtain ⟨p, member_p, rfl⟩ := mem_ids.mp here
  have below : ∀ b ∈ (none : Option Id), m.id < b := fun b at_b => by cases at_b
  rcases channelHistory_cases ordered member undeleted below with there | ⟨_, under⟩
  · exact mem_ids.mpr ⟨m, there, rfl⟩
  · exact (not_le.mpr (under p member_p) le).elim

/-- Nothing that was there is newer than the newest page. -/
theorem not_beyond_channelHistory {id : Id} (alive : id ∈ live log) :
    ¬ Beyond (elems (ids (channelHistory log none))) id := by
  obtain ⟨m, member, undeleted, rfl⟩ := alive
  intro beyond
  have below : ∀ b ∈ (none : Option Id), m.id < b := fun b at_b => by cases at_b
  rcases channelHistory_cases ordered member undeleted below with there | ⟨some_page, under⟩
  · exact lt_irrefl _ (beyond m.id (mem_ids.mpr ⟨m, there, rfl⟩))
  · obtain ⟨p, member_p⟩ := List.exists_mem_of_ne_nil _ some_page
    exact lt_asymm (under p member_p) (beyond p.id (mem_ids.mpr ⟨p, member_p, rfl⟩))

theorem channelHistory_empty {before : Option Id} (empty : channelHistory log before = [])
    {id : Id} (alive : id ∈ live log) : ∃ b ∈ before, b ≤ id := by
  obtain ⟨m, member, undeleted, rfl⟩ := alive
  by_contra below
  push Not at below
  rcases channelHistory_cases ordered member undeleted (fun b at_b => below b at_b) with
    there | ⟨some_page, _⟩
  · rw [empty] at there
    exact nomatch there
  · exact some_page empty

omit ordered

end Page

end Brook.Chat
