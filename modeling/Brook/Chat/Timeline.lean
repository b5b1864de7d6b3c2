import Brook.Table.Sorted

namespace Brook.Chat

/-! One channel's messages as the Apple clients show them: kept in the order of
their ids, and merged from pages, live events and the user's own sends. -/

structure Reaction where
  emoji : String
  count : Int
  me : Bool
deriving DecidableEq

structure Message (Id : Type) where
  id : Id
  channelId : String
  authorId : String
  body : String
  editedAt : Option String
  deleted : Bool
  attachments : List String
  reactions : List Reaction
deriving DecidableEq

/-- What stays of a deleted message. -/
def Message.tombstone {Id : Type} (m : Message Id) : Message Id :=
  { m with body := "", deleted := true, attachments := [] }

/-! How a live reaction event changes a message's chips. -/

namespace ReactionRules

def applying (emoji : String) (count : Int) (added byMe : Bool) (list : List Reaction) :
    List Reaction :=
  let i := list.findIdx? (·.emoji = emoji)
  let me := if byMe then added else ((i.bind (list[·]?)).map (·.me)).getD false
  if count ≤ 0 then
    match i with
    | some i => list.eraseIdx i
    | none => list
  else
    match i with
    | some i => list.set i ⟨emoji, count, me⟩
    | none => list ++ [⟨emoji, count, me⟩]

/-- The user's own flag, where the event brings no newer count. -/
def marking (emoji : String) (added : Bool) (list : List Reaction) : List Reaction :=
  match list.findIdx? (·.emoji = emoji) with
  | some j => list.modify j fun r => ⟨r.emoji, r.count, added⟩
  | none => list

end ReactionRules

inductive ServerEvent (Id : Type) where
  | messageNew (message : Message Id)
  | messageUpdate (message : Message Id)
  | messageDelete (channel : String) (messageId : Id)
  | reactionUpdate (channel : String) (messageId : Id) (emoji userId : String)
      (added : Bool) (count seq : Int)
  | resync
  | ready
deriving DecidableEq

structure TimelineModel (Id : Type) where
  channelId : String
  /-- The user's id; empty while it is not known. -/
  me : String
  rereadOnReady : Bool
  messages : List (Message Id) := []
  atStart : Bool := false
  olderFailed : Bool := false
  headFailed : Bool := false
  error : Option String := none
  replaced : Nat := 0
  /-- The newest message that was shown when a re-read was asked for. -/
  gapAnchor : Option Id := none
  touchedDuringFetch : Option (List Id) := none
  /-- Ids deleted, shown or not. -/
  deleted : List Id := []
  reactionEvents : Table Id Nat := ∅
  reactionSeqs : Table (Id × String) Int := ∅
  reactionMineSeqs : Table (Id × String) Int := ∅

namespace TimelineModel

section

variable {Id : Type}

def touch (t : TimelineModel Id) (ids : List Id) : TimelineModel Id :=
  { t with touchedDuringFetch := t.touchedDuringFetch.map (ids ++ ·) }

@[simp] theorem touch_messages (t : TimelineModel Id) (ids : List Id) :
    (t.touch ids).messages = t.messages := rfl

@[simp] theorem touch_deleted (t : TimelineModel Id) (ids : List Id) :
    (t.touch ids).deleted = t.deleted := rfl

/-- The point that a coming re-read must reach back to; the first that is noted stays. -/
def noteGapAnchor (t : TimelineModel Id) : TimelineModel Id :=
  if t.gapAnchor = none then { t with gapAnchor := t.messages.getLast?.map (·.id) } else t

@[simp] theorem noteGapAnchor_messages (t : TimelineModel Id) :
    t.noteGapAnchor.messages = t.messages := by
  rw [noteGapAnchor]
  split <;> rfl

@[simp] theorem noteGapAnchor_deleted (t : TimelineModel Id) :
    t.noteGapAnchor.deleted = t.deleted := by
  rw [noteGapAnchor]
  split <;> rfl

def forgetMarks (t : TimelineModel Id) : TimelineModel Id :=
  { t with reactionSeqs := ∅, reactionMineSeqs := ∅ }

@[simp] theorem forgetMarks_messages (t : TimelineModel Id) :
    t.forgetMarks.messages = t.messages := rfl

@[simp] theorem forgetMarks_deleted (t : TimelineModel Id) :
    t.forgetMarks.deleted = t.deleted := rfl

/-- `Int64.min`. -/
def unmarked : Int := -9223372036854775808

end

variable {Id Time : Type} [LinearOrder Id] [LinearOrder Time]

/-- Whether `incoming`'s body replaces `shown`'s. -/
def isNewer (parseTime : String → Option Time) : Option String → Option String → Bool
  | none, none => true
  | none, some _ => false
  | some _, none => true
  | some a, some b =>
      match parseTime a with
      | none => decide (b < a)
      | some da =>
          match parseTime b with
          | none => decide (b < a)
          | some db => decide (db < da)

/-- One copy: a deleted id stays deleted, and the body changes only for a newer edit. -/
def mergeOne (parseTime : String → Option Time)
    (kept : List Id × Table Id (Message Id)) (m : Message Id) :
    List Id × Table Id (Message Id) :=
  let deleted := if m.deleted then m.id :: kept.1 else kept.1
  if m.id ∈ deleted then
    (deleted, kept.2.put m.id m.tombstone)
  else
    match kept.2.get? m.id with
    | none => (deleted, kept.2.put m.id m)
    | some old =>
        if isNewer parseTime m.editedAt old.editedAt then
          (deleted, kept.2.put m.id m)
        else
          (deleted, kept.2.put m.id { m with body := old.body, editedAt := old.editedAt })

/-- Insert or replace by id, keeping the order of the ids. -/
def store (parseTime : String → Option Time) (t : TimelineModel Id)
    (incoming : List (Message Id)) : TimelineModel Id :=
  if incoming = [] then t
  else
    let kept := incoming.foldl (mergeOne parseTime)
      (t.deleted, Table.indexed Message.id t.messages)
    { t with deleted := kept.1, messages := kept.2.sortedValues Message.id }

/-- Live events and the user's own sends. -/
def merge (parseTime : String → Option Time) (t : TimelineModel Id)
    (incoming : List (Message Id)) : TimelineModel Id :=
  (t.touch (incoming.map (·.id))).store parseTime incoming

def applyReaction (t : TimelineModel Id) (messageId : Id) (emoji userId : String)
    (added : Bool) (count seq : Int) : TimelineModel Id :=
  match t.messages.findIdx? (·.id = messageId) with
  | none => t
  | some i =>
      let key := (messageId, emoji)
      let byMe := t.me ≠ "" ∧ userId = t.me
      let countFresh := (t.reactionSeqs.get? key).getD unmarked < seq
      let meFresh := byMe ∧ (t.reactionMineSeqs.get? key).getD unmarked < seq
      if countFresh ∨ meFresh then
        let events := (t.reactionEvents.get? messageId).getD 0
        { t.touch [messageId] with
          reactionSeqs := if countFresh then t.reactionSeqs.put key seq else t.reactionSeqs
          reactionMineSeqs :=
            if meFresh then t.reactionMineSeqs.put key seq else t.reactionMineSeqs
          reactionEvents := t.reactionEvents.put messageId (events + 1)
          messages := t.messages.modify i fun message => { message with
            reactions :=
              if countFresh then
                ReactionRules.applying emoji count added (decide meFresh) message.reactions
              else ReactionRules.marking emoji added message.reactions } }
      else t

/-- A reaction event changes the chips of one shown message. -/
theorem applyReaction_cases (t : TimelineModel Id) (messageId : Id) (emoji userId : String)
    (added : Bool) (count seq : Int) :
    t.applyReaction messageId emoji userId added count seq = t ∨
      ∃ (change : Message Id → List Reaction) (place : Nat),
        t.messages.findIdx? (·.id = messageId) = some place ∧
        (t.applyReaction messageId emoji userId added count seq).messages =
          t.messages.modify place (fun row => { row with reactions := change row }) ∧
        (t.applyReaction messageId emoji userId added count seq).deleted = t.deleted := by
  simp only [applyReaction]
  split
  case h_1 => exact .inl rfl
  case h_2 place found =>
    split
    case isFalse => exact .inl rfl
    case isTrue => exact .inr ⟨_, place, found, rfl, rfl⟩

/-- A live event, if it is this channel's.  What `ready` and `resync` start besides is
the re-read's. -/
def apply (parseTime : String → Option Time) (t : TimelineModel Id) :
    ServerEvent Id → TimelineModel Id
  | .messageNew message =>
      if message.channelId = t.channelId then t.merge parseTime [message] else t
  | .messageUpdate message =>
      if message.channelId = t.channelId then t.merge parseTime [message] else t
  | .messageDelete channel messageId =>
      if channel = t.channelId then
        let t := t.touch [messageId]
        let t := { t with deleted := messageId :: t.deleted }
        match t.messages.findIdx? (·.id = messageId) with
        | some i => { t with messages := t.messages.modify i Message.tombstone }
        | none => t
      else t
  | .reactionUpdate channel messageId emoji userId added count seq =>
      if channel = t.channelId then
        t.applyReaction messageId emoji userId added count seq
      else t
  | .resync =>
      let t := t.forgetMarks
      if t.rereadOnReady then t.noteGapAnchor else t
  | .ready => if t.rereadOnReady then t.forgetMarks.noteGapAnchor else t

end TimelineModel

end Brook.Chat
