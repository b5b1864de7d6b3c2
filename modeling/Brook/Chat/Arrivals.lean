import Brook.Chat.Timeline
import Mathlib.Order.WithBot

namespace Brook.Chat

/-! What the timeline shows depends on what was delivered, not on the order and the
groups it arrived in. -/

/-- What reaches the timeline: a page of the history, the user's own send or edit, or a
live event. -/
inductive Delivery (Id : Type) where
  | page (messages : List (Message Id))
  | sent (message : Message Id)
  | event (event : ServerEvent Id)

namespace Delivery

variable {Id : Type}

/-- The copies of messages that it brings to the timeline of `channel`. -/
def copies (channel : String) : Delivery Id → List (Message Id)
  | .page messages => messages
  | .sent message => [message]
  | .event (.messageNew message) => if message.channelId = channel then [message] else []
  | .event (.messageUpdate message) => if message.channelId = channel then [message] else []
  | .event _ => []

/-- The ids whose deletion it reports to the timeline of `channel`. -/
def deletes (channel : String) : Delivery Id → List Id
  | .event (.messageDelete at_channel id) => if at_channel = channel then [id] else []
  | _ => []

/-- All copies that the deliveries bring. -/
def allCopies (channel : String) (deliveries : List (Delivery Id)) : List (Message Id) :=
  deliveries.flatMap (·.copies channel)

/-- All deletions that the deliveries report. -/
def allDeletes (channel : String) (deliveries : List (Delivery Id)) : List Id :=
  deliveries.flatMap (·.deletes channel)

end Delivery

/-- Nothing of the message is left to read. -/
structure Message.IsTombstone {Id : Type} (row : Message Id) : Prop where
  body : row.body = ""
  attachments : row.attachments = []
  deleted : row.deleted = true

theorem Message.tombstone_isTombstone {Id : Type} (m : Message Id) :
    m.tombstone.IsTombstone := ⟨rfl, rfl, rfl⟩

namespace TimelineModel

variable {Id Time : Type} [LinearOrder Id] [LinearOrder Time]

def deliver (parseTime : String → Option Time) (t : TimelineModel Id) :
    Delivery Id → TimelineModel Id
  | .page messages => t.store parseTime messages
  | .sent message => t.merge parseTime [message]
  | .event event => t.apply parseTime event

variable {parseTime : String → Option Time}

/-- The instant of an edit; a message never edited is older than any edit. -/
def editTime (parseTime : String → Option Time) (editedAt : Option String) : WithBot Time :=
  (editedAt.bind parseTime).elim ⊥ fun time => time

/-- The edited time can be read. -/
def Dated (parseTime : String → Option Time) (m : Message Id) : Prop :=
  ∀ text, m.editedAt = some text → parseTime text ≠ none

theorem isNewer_iff {incoming shown : Option String}
    (reads : ∀ text, incoming = some text → parseTime text ≠ none)
    (shown_reads : ∀ text, shown = some text → parseTime text ≠ none) :
    isNewer parseTime incoming shown = true ↔
      editTime parseTime shown < editTime parseTime incoming ∨
        (incoming = none ∧ shown = none) := by
  cases incoming with
  | none =>
      cases shown with
      | none => simp [isNewer]
      | some text => simp [isNewer, editTime]
  | some text =>
      obtain ⟨time, read⟩ := Option.ne_none_iff_exists'.mp (reads text rfl)
      cases shown with
      | none => simp [isNewer, editTime, read]
      | some old =>
          obtain ⟨earlier, old_read⟩ := Option.ne_none_iff_exists'.mp (shown_reads old rfl)
          simp [isNewer, editTime, read, old_read]

/-- No copy of the same message was edited later. -/
def IsLatest (parseTime : String → Option Time) (copies : List (Message Id))
    (copy : Message Id) : Prop :=
  ∀ other ∈ copies, other.id = copy.id →
    editTime parseTime other.editedAt ≤ editTime parseTime copy.editedAt

/-- The row has the text of a copy that was edited last. -/
def ShowsLatest (parseTime : String → Option Time) (copies : List (Message Id))
    (row : Message Id) : Prop :=
  ∃ copy ∈ copies, copy.id = row.id ∧ row.body = copy.body ∧ row.editedAt = copy.editedAt ∧
    IsLatest parseTime copies copy

/-- A deleted copy, or the report of the deletion, was delivered. -/
def Gone (copies : List (Message Id)) (reported : List Id) (id : Id) : Prop :=
  (∃ copy ∈ copies, copy.id = id ∧ copy.deleted = true) ∨ id ∈ reported

/-- The rows, by their ids, that these copies and reports leave. -/
structure Reflects (parseTime : String → Option Time) (copies : List (Message Id))
    (reported deleted : List Id) (row? : Id → Option (Message Id)) : Prop where
  gone : ∀ id, id ∈ deleted ↔ Gone copies reported id
  keyed : ∀ {id row}, row? id = some row → row.id = id
  shown : ∀ id, (∃ row, row? id = some row) ↔ ∃ copy ∈ copies, copy.id = id
  tombstone : ∀ {id row}, row? id = some row → id ∈ deleted → row.IsTombstone
  live : ∀ {id row}, row? id = some row → id ∉ deleted →
    row.deleted = false ∧ ShowsLatest parseTime copies row

omit [LinearOrder Id] in
theorem ShowsLatest.append {copies : List (Message Id)} {m row : Message Id}
    (shows : ShowsLatest parseTime copies row)
    (older : m.id = row.id → editTime parseTime m.editedAt ≤ editTime parseTime row.editedAt) :
    ShowsLatest parseTime (copies ++ [m]) row := by
  obtain ⟨copy, member, same, body, edited, latest⟩ := shows
  refine ⟨copy, List.mem_append_left _ member, same, body, edited, ?_⟩
  intro other here named
  rcases List.mem_append.mp here with before | last
  · exact latest other before named
  · rw [List.mem_singleton] at last
    subst last
    rw [← edited]
    exact older (named.trans same)

/-- A new copy whose row is put in its place. -/
theorem Reflects.put {copies : List (Message Id)} {reported deleted after : List Id}
    {rows : Table Id (Message Id)}
    (reflects : Reflects parseTime copies reported deleted rows.get?) {m row : Message Id}
    (named : row.id = m.id)
    (after_iff : ∀ id, id ∈ after ↔ id ∈ deleted ∨ id = m.id ∧ m.deleted = true)
    (tombstone : m.id ∈ after → row.IsTombstone)
    (live : m.id ∉ after →
      row.deleted = false ∧ ShowsLatest parseTime (copies ++ [m]) row) :
    Reflects parseTime (copies ++ [m]) reported after (rows.put m.id row).get? := by
  constructor
  case gone =>
    intro id
    rw [after_iff, reflects.gone]
    constructor
    · rintro ((⟨copy, member, same, gone⟩ | told) | ⟨rfl, gone⟩)
      · exact .inl ⟨copy, List.mem_append_left _ member, same, gone⟩
      · exact .inr told
      · exact .inl ⟨m, by simp, rfl, gone⟩
    · rintro (⟨copy, member, same, gone⟩ | told)
      · rcases List.mem_append.mp member with before | last
        · exact .inl (.inl ⟨copy, before, same, gone⟩)
        · rw [List.mem_singleton] at last
          subst last
          exact .inr ⟨same.symm, gone⟩
      · exact .inl (.inr told)
  case keyed =>
    intro id stored found
    rw [Table.get?_put] at found
    split at found
    case isTrue same =>
      cases found
      exact named.trans same.symm
    case isFalse => exact reflects.keyed found
  case shown =>
    intro id
    rw [Table.get?_put]
    split
    case isTrue same => simp [same]
    case isFalse different =>
      rw [reflects.shown]
      simp [Ne.symm different]
  case tombstone =>
    intro id stored found gone
    rw [Table.get?_put] at found
    split at found
    case isTrue same =>
      cases found
      exact tombstone (same ▸ gone)
    case isFalse different =>
      refine reflects.tombstone found ?_
      exact ((after_iff id).mp gone).resolve_right fun both => different both.1
  case live =>
    intro id stored found kept
    rw [Table.get?_put] at found
    split at found
    case isTrue same =>
      cases found
      exact live (same ▸ kept)
    case isFalse different =>
      obtain ⟨alive, shows⟩ :=
        reflects.live found fun gone => kept ((after_iff id).mpr (.inl gone))
      refine ⟨alive, shows.append ?_⟩
      intro same
      exact (different ((reflects.keyed found).symm.trans same.symm)).elim

theorem Reflects.mergeOne {copies : List (Message Id)} {reported deleted : List Id}
    {rows : Table Id (Message Id)}
    (reflects : Reflects parseTime copies reported deleted rows.get?) {m : Message Id}
    (dated : ∀ copy ∈ copies ++ [m], Dated parseTime copy) :
    Reflects parseTime (copies ++ [m]) reported
      (TimelineModel.mergeOne parseTime (deleted, rows) m).1
      (TimelineModel.mergeOne parseTime (deleted, rows) m).2.get? := by
  have after_iff : ∀ id, id ∈ (if m.deleted then m.id :: deleted else deleted) ↔
      id ∈ deleted ∨ id = m.id ∧ m.deleted = true := by
    intro id
    split
    case isTrue gone => simp [gone, or_comm]
    case isFalse kept => simp [kept]
  have own : m ∈ copies ++ [m] := by simp
  simp only [TimelineModel.mergeOne]
  generalize (if m.deleted then m.id :: deleted else deleted) = after at after_iff
  split
  case isTrue gone =>
    exact reflects.put rfl after_iff (fun _ => m.tombstone_isTombstone)
      fun kept => (kept gone).elim
  case isFalse kept =>
    have alive : m.deleted = false := by
      cases gone : m.deleted with
      | true => exact (kept ((after_iff m.id).mpr (.inr ⟨rfl, gone⟩))).elim
      | false => rfl
    have before : m.id ∉ deleted := fun gone => kept ((after_iff m.id).mpr (.inl gone))
    split
    case h_1 fresh =>
      refine reflects.put rfl after_iff (fun gone => (kept gone).elim) fun _ => ⟨alive, ?_⟩
      refine ⟨m, own, rfl, rfl, rfl, ?_⟩
      intro other member same
      rcases List.mem_append.mp member with earlier | last
      · obtain ⟨row, found⟩ := (reflects.shown m.id).mpr ⟨other, earlier, same⟩
        rw [fresh] at found
        cases found
      · rw [List.mem_singleton] at last
        rw [last]
    case h_2 old found =>
      obtain ⟨_, shows⟩ := reflects.live found before
      obtain ⟨copy, member, same, body, edited, latest⟩ := shows
      have named := reflects.keyed found
      have old_dated : ∀ text, old.editedAt = some text → parseTime text ≠ none := by
        rw [edited]
        exact dated copy (List.mem_append_left _ member)
      have newer_iff := isNewer_iff (dated m own) old_dated
      split
      case isTrue newer =>
        refine reflects.put rfl after_iff (fun gone => (kept gone).elim) fun _ => ⟨alive, ?_⟩
        have above : editTime parseTime old.editedAt ≤ editTime parseTime m.editedAt := by
          rcases newer_iff.mp newer with later | ⟨never, never_shown⟩
          · exact later.le
          · rw [never, never_shown]
        refine ⟨m, own, rfl, rfl, rfl, ?_⟩
        intro other here same_id
        rcases List.mem_append.mp here with earlier | last
        · have under := latest other earlier (same_id.trans (named.symm.trans same.symm))
          rw [← edited] at under
          exact under.trans above
        · rw [List.mem_singleton] at last
          rw [last]
      case isFalse not_newer =>
        refine reflects.put rfl after_iff (fun gone => (kept gone).elim) fun _ => ⟨alive, ?_⟩
        have shows : ShowsLatest parseTime copies
            { m with body := old.body, editedAt := old.editedAt } :=
          ⟨copy, member, same.trans named, body, edited, latest⟩
        refine shows.append fun _ => ?_
        by_contra later
        exact not_newer (newer_iff.mpr (.inl (not_le.mp later)))

theorem Reflects.mergeAll {incoming : List (Message Id)} :
    ∀ {copies : List (Message Id)} {reported deleted : List Id} {rows : Table Id (Message Id)},
      Reflects parseTime copies reported deleted rows.get? →
      (∀ copy ∈ copies ++ incoming, Dated parseTime copy) →
      Reflects parseTime (copies ++ incoming) reported
        (incoming.foldl (TimelineModel.mergeOne parseTime) (deleted, rows)).1
        (incoming.foldl (TimelineModel.mergeOne parseTime) (deleted, rows)).2.get? := by
  induction incoming with
  | nil =>
      intro copies reported deleted rows reflects _
      rwa [List.append_nil]
  | cons m rest ih =>
      intro copies reported deleted rows reflects dated
      have split : copies ++ m :: rest = (copies ++ [m]) ++ rest := by simp
      rw [split] at dated ⊢
      have first := reflects.mergeOne (m := m) fun copy member =>
        dated copy (List.mem_append_left _ member)
      exact ih first dated

/-- The shown list with what was delivered. -/
structure Shows (parseTime : String → Option Time) (copies : List (Message Id))
    (reported : List Id) (t : TimelineModel Id) : Prop where
  sorted : Table.Sorted Message.id t.messages
  rows : Reflects parseTime copies reported t.deleted
    (Table.indexed Message.id t.messages).get?

theorem Shows.store {copies incoming : List (Message Id)} {reported : List Id}
    {t : TimelineModel Id} (shows : Shows parseTime copies reported t)
    (dated : ∀ copy ∈ copies ++ incoming, Dated parseTime copy) :
    Shows parseTime (copies ++ incoming) reported (t.store parseTime incoming) := by
  rw [TimelineModel.store]
  split
  case isTrue none =>
    rw [none, List.append_nil]
    exact shows
  case isFalse =>
    have rows := shows.rows.mergeAll dated
    have keyed : (incoming.foldl (TimelineModel.mergeOne parseTime)
        (t.deleted, Table.indexed Message.id t.messages)).2.Keyed Message.id := rows.keyed
    refine ⟨Table.sorted_sortedValues keyed, ?_⟩
    have same := funext (Table.get?_indexed_sortedValues keyed)
    rw [same]
    exact rows

theorem Shows.touch {copies : List (Message Id)} {reported : List Id} {t : TimelineModel Id}
    (shows : Shows parseTime copies reported t) (ids : List Id) :
    Shows parseTime copies reported (t.touch ids) := ⟨shows.sorted, shows.rows⟩

theorem Shows.merge {copies incoming : List (Message Id)} {reported : List Id}
    {t : TimelineModel Id} (shows : Shows parseTime copies reported t)
    (dated : ∀ copy ∈ copies ++ incoming, Dated parseTime copy) :
    Shows parseTime (copies ++ incoming) reported (t.merge parseTime incoming) :=
  (shows.touch _).store dated

omit [LinearOrder Id] in
/-- Rows that change in what is neither text nor deletion. -/
theorem Reflects.map {copies : List (Message Id)} {reported deleted : List Id}
    {row? : Id → Option (Message Id)}
    (reflects : Reflects parseTime copies reported deleted row?)
    {change : Message Id → List Reaction} :
    Reflects parseTime copies reported deleted fun id =>
      (row? id).map fun row => { row with reactions := change row } := by
  constructor
  case gone => exact reflects.gone
  case keyed =>
    intro id row mapped
    obtain ⟨old, found, rfl⟩ := Option.map_eq_some_iff.mp mapped
    have named : old.id = id := reflects.keyed found
    exact named
  case shown =>
    intro id
    rw [← reflects.shown]
    constructor
    · rintro ⟨row, mapped⟩
      obtain ⟨old, found, _⟩ := Option.map_eq_some_iff.mp mapped
      exact ⟨old, found⟩
    · rintro ⟨old, found⟩
      exact ⟨_, Option.map_eq_some_iff.mpr ⟨old, found, rfl⟩⟩
  case tombstone =>
    intro id row mapped gone
    obtain ⟨old, found, rfl⟩ := Option.map_eq_some_iff.mp mapped
    obtain ⟨body, attachments, is_deleted⟩ := reflects.tombstone found gone
    exact ⟨body, attachments, is_deleted⟩
  case live =>
    intro id row mapped kept
    obtain ⟨old, found, rfl⟩ := Option.map_eq_some_iff.mp mapped
    have live := reflects.live found kept
    exact live

theorem Reflects.delete {copies : List (Message Id)} {reported deleted : List Id}
    {row? : Id → Option (Message Id)}
    (reflects : Reflects parseTime copies reported deleted row?) (messageId : Id) :
    Reflects parseTime copies (reported ++ [messageId]) (messageId :: deleted) fun id =>
      (row? id).map fun row => if row.id = messageId then row.tombstone else row := by
  constructor
  case gone =>
    intro id
    rw [List.mem_cons, reflects.gone, Gone, Gone, List.mem_append, List.mem_singleton]
    constructor
    · rintro (here | copy | told)
      · exact .inr (.inr here)
      · exact .inl copy
      · exact .inr (.inl told)
    · rintro (copy | told | here)
      · exact .inr (.inl copy)
      · exact .inr (.inr told)
      · exact .inl here
  case keyed =>
    intro id row mapped
    obtain ⟨old, found, rfl⟩ := Option.map_eq_some_iff.mp mapped
    have named : old.id = id := reflects.keyed found
    split
    case isTrue => exact named
    case isFalse => exact named
  case shown =>
    intro id
    rw [← reflects.shown]
    constructor
    · rintro ⟨row, mapped⟩
      obtain ⟨old, found, _⟩ := Option.map_eq_some_iff.mp mapped
      exact ⟨old, found⟩
    · rintro ⟨old, found⟩
      exact ⟨_, Option.map_eq_some_iff.mpr ⟨old, found, rfl⟩⟩
  case tombstone =>
    intro id row mapped gone
    obtain ⟨old, found, rfl⟩ := Option.map_eq_some_iff.mp mapped
    split
    case isTrue => exact old.tombstone_isTombstone
    case isFalse other =>
      refine reflects.tombstone found ?_
      rcases List.mem_cons.mp gone with here | before
      · exact (other ((reflects.keyed found).trans here)).elim
      · exact before
  case live =>
    intro id row mapped kept
    obtain ⟨old, found, rfl⟩ := Option.map_eq_some_iff.mp mapped
    have other : ¬ old.id = messageId := by
      intro here
      rw [reflects.keyed found] at here
      exact kept (List.mem_cons.mpr (.inl here))
    rw [if_neg other]
    exact reflects.live found fun gone => kept (List.mem_cons_of_mem _ gone)

theorem Shows.delete {copies : List (Message Id)} {reported : List Id} {t : TimelineModel Id}
    (shows : Shows parseTime copies reported t) (messageId : Id) :
    Shows parseTime copies (reported ++ [messageId])
      (t.apply parseTime (.messageDelete t.channelId messageId)) := by
  have sorted : Table.Sorted Message.id (t.messages.map fun row =>
      if row.id = messageId then row.tombstone else row) :=
    shows.sorted.map fun row => by split <;> rfl
  have rows : Reflects parseTime copies (reported ++ [messageId]) (messageId :: t.deleted)
      (Table.indexed Message.id (t.messages.map fun row =>
        if row.id = messageId then row.tombstone else row)).get? := by
    have same := funext (Table.get?_indexed_map shows.sorted
      (fun row => if row.id = messageId then row.tombstone else row)
      fun row => by split <;> rfl)
    rw [same]
    exact shows.rows.delete messageId
  simp only [TimelineModel.apply, if_true]
  split
  case h_1 place found =>
    change t.messages.findIdx? _ = _ at found
    rw [← Table.Sorted.modify_findIdx? shows.sorted found] at sorted rows
    exact ⟨sorted, rows⟩
  case h_2 absent =>
    change t.messages.findIdx? _ = _ at absent
    rw [Table.map_of_findIdx?_none _ absent] at sorted rows
    exact ⟨sorted, rows⟩

theorem Shows.applyReaction {copies : List (Message Id)} {reported : List Id}
    {t : TimelineModel Id} (shows : Shows parseTime copies reported t) (messageId : Id)
    (emoji userId : String) (added : Bool) (count seq : Int) :
    Shows parseTime copies reported
      (t.applyReaction messageId emoji userId added count seq) := by
  rcases t.applyReaction_cases messageId emoji userId added count seq with
    same | ⟨change, place, found, messages, deleted⟩
  · rw [same]
    exact shows
  · have as_change : (fun row : Message Id =>
        if row.id = messageId then { row with reactions := change row } else row) =
        fun row =>
          { row with reactions := if row.id = messageId then change row else row.reactions } := by
      funext row
      split <;> rfl
    rw [Table.Sorted.modify_findIdx? shows.sorted found, as_change] at messages
    constructor
    case sorted =>
      rw [messages]
      exact shows.sorted.map fun _ => rfl
    case rows =>
      rw [messages, deleted, funext (Table.get?_indexed_map shows.sorted
        (fun row : Message Id =>
          { row with reactions := if row.id = messageId then change row else row.reactions })
        fun _ => rfl)]
      exact shows.rows.map

/-- The state changes in neither the rows nor the deleted ids. -/
theorem Shows.same {copies : List (Message Id)} {reported : List Id} {t later : TimelineModel Id}
    (shows : Shows parseTime copies reported t) (messages : later.messages = t.messages)
    (deleted : later.deleted = t.deleted) : Shows parseTime copies reported later := by
  constructor
  case sorted =>
    rw [messages]
    exact shows.sorted
  case rows =>
    rw [messages, deleted]
    exact shows.rows

/-- What one delivery adds. -/
theorem Shows.deliver {copies : List (Message Id)} {reported : List Id} {t : TimelineModel Id}
    (shows : Shows parseTime copies reported t) (delivery : Delivery Id)
    (dated : ∀ copy ∈ copies ++ delivery.copies t.channelId, Dated parseTime copy) :
    Shows parseTime (copies ++ delivery.copies t.channelId)
      (reported ++ delivery.deletes t.channelId) (t.deliver parseTime delivery) := by
  cases delivery with
  | page messages =>
      simp only [Delivery.deletes, List.append_nil]
      exact shows.store dated
  | sent message =>
      simp only [Delivery.deletes, List.append_nil]
      exact shows.merge dated
  | event event =>
      cases event with
      | messageNew message =>
          simp only [Delivery.copies, Delivery.deletes, List.append_nil,
            TimelineModel.deliver, TimelineModel.apply] at dated ⊢
          split at dated <;> rename_i here
          · rw [if_pos here, if_pos here]
            exact shows.merge dated
          · rw [if_neg here, if_neg here, List.append_nil]
            exact shows
      | messageUpdate message =>
          simp only [Delivery.copies, Delivery.deletes, List.append_nil,
            TimelineModel.deliver, TimelineModel.apply] at dated ⊢
          split at dated <;> rename_i here
          · rw [if_pos here, if_pos here]
            exact shows.merge dated
          · rw [if_neg here, if_neg here, List.append_nil]
            exact shows
      | messageDelete channel messageId =>
          simp only [Delivery.copies, Delivery.deletes, List.append_nil]
          by_cases here : channel = t.channelId
          · subst here
            rw [if_pos rfl]
            exact shows.delete messageId
          · rw [if_neg here, List.append_nil, TimelineModel.deliver, TimelineModel.apply,
              if_neg here]
            exact shows
      | reactionUpdate channel messageId emoji userId added count seq =>
          simp only [Delivery.copies, Delivery.deletes, List.append_nil,
            TimelineModel.deliver, TimelineModel.apply]
          split
          · exact shows.applyReaction messageId emoji userId added count seq
          · exact shows
      | resync =>
          simp only [Delivery.copies, Delivery.deletes, List.append_nil,
            TimelineModel.deliver, TimelineModel.apply]
          split
          · exact shows.same (by simp) (by simp)
          · exact shows.same (by simp) (by simp)
      | ready =>
          simp only [Delivery.copies, Delivery.deletes, List.append_nil,
            TimelineModel.deliver, TimelineModel.apply]
          split
          · exact shows.same (by simp) (by simp)
          · exact shows

@[simp] theorem store_channelId (t : TimelineModel Id) (incoming : List (Message Id)) :
    (t.store parseTime incoming).channelId = t.channelId := by
  rw [TimelineModel.store]
  split <;> rfl

theorem deliver_channelId (parseTime : String → Option Time) (t : TimelineModel Id) (delivery : Delivery Id) :
    (t.deliver parseTime delivery).channelId = t.channelId := by
  have merged : ∀ incoming, (t.merge parseTime incoming).channelId = t.channelId :=
    fun incoming => store_channelId _ incoming
  have noted : ∀ t : TimelineModel Id, t.noteGapAnchor.channelId = t.channelId := by
    intro t
    rw [noteGapAnchor]
    split <;> rfl
  cases delivery with
  | page messages => exact store_channelId t messages
  | sent message => exact merged [message]
  | event event =>
      simp only [TimelineModel.deliver, TimelineModel.apply]
      split
      case h_1 => split <;> [exact merged _; rfl]
      case h_2 => split <;> [exact merged _; rfl]
      case h_3 => split <;> [(split <;> rfl); rfl]
      case h_4 =>
        split
        · rw [TimelineModel.applyReaction]
          split
          · rfl
          · simp only
            split <;> rfl
        · rfl
      case h_5 => split <;> [exact noted _; rfl]
      case h_6 => split <;> [exact noted _; rfl]

/-- What all deliveries add. -/
theorem Shows.deliverAll {copies : List (Message Id)} {reported : List Id}
    {t : TimelineModel Id} (shows : Shows parseTime copies reported t)
    (deliveries : List (Delivery Id))
    (dated : ∀ copy ∈ copies ++ Delivery.allCopies t.channelId deliveries,
      Dated parseTime copy) :
    Shows parseTime (copies ++ Delivery.allCopies t.channelId deliveries)
      (reported ++ Delivery.allDeletes t.channelId deliveries)
      (deliveries.foldl (TimelineModel.deliver parseTime) t) := by
  induction deliveries generalizing copies reported t with
  | nil => simpa [Delivery.allCopies, Delivery.allDeletes] using shows
  | cons delivery rest ih =>
      simp only [Delivery.allCopies, Delivery.allDeletes, List.flatMap_cons,
        ← List.append_assoc] at dated ⊢
      have first := shows.deliver delivery fun copy member =>
        dated copy (List.mem_append_left _ member)
      have channel := deliver_channelId parseTime t delivery
      have later := ih first
      rw [channel] at later
      exact later dated

def opened (channelId me : String) (rereadOnReady : Bool) : TimelineModel Id :=
  { channelId := channelId, me := me, rereadOnReady := rereadOnReady }

theorem shows_opened (channelId me : String) (rereadOnReady : Bool) :
    Shows parseTime [] [] (opened channelId me rereadOnReady : TimelineModel Id) := by
  have sorted : Table.Sorted Message.id ([] : List (Message Id)) := List.Pairwise.nil
  have empty : ∀ {id : Id} {row : Message Id},
      ¬ (Table.indexed Message.id []).get? id = some row := by
    intro id row found
    cases ((Table.get?_indexed sorted).mp found).1
  refine ⟨sorted, ?_⟩
  constructor
  case gone => simp [opened, Gone]
  case keyed => exact fun found => (empty found).elim
  case shown =>
    intro id
    constructor
    · rintro ⟨row, found⟩
      exact (empty found).elim
    · rintro ⟨copy, member, _⟩
      cases member
  case tombstone => exact fun found => (empty found).elim
  case live => exact fun found => (empty found).elim

/-- The timeline that these deliveries leave, in their order. -/
def after (parseTime : String → Option Time) (channelId me : String) (rereadOnReady : Bool)
    (deliveries : List (Delivery Id)) : TimelineModel Id :=
  deliveries.foldl (TimelineModel.deliver parseTime) (opened channelId me rereadOnReady)

/-- Copies of one message with the same edited time have the same text. -/
def OneBody (parseTime : String → Option Time) (copies : List (Message Id)) : Prop :=
  ∀ copy ∈ copies, ∀ other ∈ copies, copy.id = other.id →
    editTime parseTime copy.editedAt = editTime parseTime other.editedAt →
    copy.body = other.body

theorem shows_after (channelId me : String) (rereadOnReady : Bool)
    (deliveries : List (Delivery Id))
    (dated : ∀ copy ∈ Delivery.allCopies channelId deliveries, Dated parseTime copy) :
    Shows parseTime (Delivery.allCopies channelId deliveries)
      (Delivery.allDeletes channelId deliveries)
      (after parseTime channelId me rereadOnReady deliveries) := by
  have start : Shows parseTime [] [] (opened channelId me rereadOnReady : TimelineModel Id) :=
    shows_opened channelId me rereadOnReady
  have shows := start.deliverAll deliveries
  simp only [List.nil_append] at shows
  exact shows dated

theorem Shows.row_iff {copies : List (Message Id)} {reported : List Id} {t : TimelineModel Id}
    (shows : Shows parseTime copies reported t) (id : Id) :
    (∃ row ∈ t.messages, row.id = id) ↔ ∃ copy ∈ copies, copy.id = id := by
  rw [← shows.rows.shown id]
  simp only [Table.get?_indexed shows.sorted]

theorem Shows.tombstone_iff {copies : List (Message Id)} {reported : List Id}
    {t : TimelineModel Id} (shows : Shows parseTime copies reported t) {row : Message Id}
    (member : row ∈ t.messages) : row.IsTombstone ↔ Gone copies reported row.id := by
  have found := (Table.get?_indexed shows.sorted).mpr ⟨member, rfl⟩
  rw [← shows.rows.gone]
  constructor
  · intro tombstone
    by_contra kept
    have alive := (shows.rows.live found kept).1
    rw [tombstone.deleted] at alive
    cases alive
  · exact shows.rows.tombstone found

theorem Shows.showsLatest {copies : List (Message Id)} {reported : List Id}
    {t : TimelineModel Id} (shows : Shows parseTime copies reported t) {row : Message Id}
    (member : row ∈ t.messages) (kept : ¬ Gone copies reported row.id) :
    ShowsLatest parseTime copies row := by
  have found := (Table.get?_indexed shows.sorted).mpr ⟨member, rfl⟩
  rw [← shows.rows.gone] at kept
  exact (shows.rows.live found kept).2

omit [LinearOrder Id] in
/-- All copies that were edited last have the text that is shown. -/
theorem ShowsLatest.text {copies : List (Message Id)} {row copy : Message Id}
    (shows : ShowsLatest parseTime copies row) (one_body : OneBody parseTime copies)
    (member : copy ∈ copies) (same : copy.id = row.id)
    (latest : IsLatest parseTime copies copy) :
    row.body = copy.body ∧ editTime parseTime row.editedAt = editTime parseTime copy.editedAt := by
  obtain ⟨last, last_member, last_same, body, edited, last_latest⟩ := shows
  have both := last_same.trans same.symm
  have times := le_antisymm (latest last last_member both) (last_latest copy member both.symm)
  rw [body, edited]
  exact ⟨one_body last last_member copy member both times, times⟩

/-- The rows are one for each delivered id, in the order of the ids; a row is a tombstone
exactly where a deletion was delivered, and elsewhere has the text that was edited last. -/
theorem after_rows (channelId me : String) (rereadOnReady : Bool)
    (deliveries : List (Delivery Id))
    (dated : ∀ copy ∈ Delivery.allCopies channelId deliveries, Dated parseTime copy)
    (one_body : OneBody parseTime (Delivery.allCopies channelId deliveries)) :
    Table.Sorted Message.id (after parseTime channelId me rereadOnReady deliveries).messages ∧
    (∀ id, (∃ row ∈ (after parseTime channelId me rereadOnReady deliveries).messages,
      row.id = id) ↔ ∃ copy ∈ Delivery.allCopies channelId deliveries, copy.id = id) ∧
    ∀ row ∈ (after parseTime channelId me rereadOnReady deliveries).messages,
      (row.IsTombstone ↔ Gone (Delivery.allCopies channelId deliveries)
        (Delivery.allDeletes channelId deliveries) row.id) ∧
      (¬ Gone (Delivery.allCopies channelId deliveries)
          (Delivery.allDeletes channelId deliveries) row.id →
        ShowsLatest parseTime (Delivery.allCopies channelId deliveries) row ∧
        ∀ copy ∈ Delivery.allCopies channelId deliveries, copy.id = row.id →
          IsLatest parseTime (Delivery.allCopies channelId deliveries) copy →
          row.body = copy.body ∧
          editTime parseTime row.editedAt = editTime parseTime copy.editedAt) := by
  have shows := shows_after channelId me rereadOnReady deliveries dated
  refine ⟨shows.sorted, shows.row_iff, ?_⟩
  intro row member
  refine ⟨shows.tombstone_iff member, ?_⟩
  intro kept
  have latest := shows.showsLatest member kept
  exact ⟨latest, fun copy copy_member same copy_latest =>
    latest.text one_body copy_member same copy_latest⟩

/-- A deletion before the page, and the two edits of another message in the wrong order. -/
def edits : List (Delivery Nat) :=
  let copy (id : Nat) (body : String) (editedAt : Option String) : Message Nat :=
    ⟨id, "general", "ann", body, editedAt, false, [], []⟩
  [.event (.messageDelete "general" 2),
    .page [copy 1 "helo" none, copy 2 "secret" none],
    .event (.messageUpdate (copy 1 "hello!" (some "2026-09-26T10:00:00.5Z"))),
    .sent (copy 1 "hello" (some "2026-09-26T10:00:00Z"))]

/-- The milliseconds since ten o'clock, of the two times that occur. -/
def sinceTen (text : String) : Option Nat :=
  if text = "2026-09-26T10:00:00Z" then some 0
  else if text = "2026-09-26T10:00:00.5Z" then some 500
  else none

theorem after_rows_edits :
    (after sinceTen "general" "bob" true edits).messages.map (fun row => (row.id, row.body)) =
      [(1, "hello!"), (2, "")] ∧
    ∀ row ∈ (after sinceTen "general" "bob" true edits).messages,
      (row.IsTombstone ↔ Gone (Delivery.allCopies "general" edits)
        (Delivery.allDeletes "general" edits) row.id) := by
  have dated : ∀ copy ∈ Delivery.allCopies "general" edits, Dated sinceTen copy := by
    intro copy member
    simp only [edits, Delivery.allCopies, Delivery.copies, List.flatMap_cons, List.flatMap_nil,
      if_true, List.nil_append, List.append_nil, List.cons_append, List.mem_cons,
      List.not_mem_nil, or_false] at member
    rcases member with rfl | rfl | rfl | rfl <;> simp [Dated, sinceTen]
  have one_body : OneBody sinceTen (Delivery.allCopies "general" edits) := by
    unfold OneBody
    decide +kernel
  have rows := after_rows "general" "bob" true edits dated one_body
  exact ⟨by decide +kernel, fun row member => (rows.2.2 row member).1⟩

end TimelineModel

end Brook.Chat
