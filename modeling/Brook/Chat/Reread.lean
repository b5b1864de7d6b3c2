import Brook.Chat.Arrivals
import Brook.Transition.Run

namespace Brook.Chat

/-! The newest pages, which iOS reads again after the events that it may have missed, and
the older pages that the reader asks for. -/

variable {Id Time : Type} [LinearOrder Id] [LinearOrder Time]

def ids (messages : List (Message Id)) : List Id := messages.map (·.id)

def pageSize : Nat := 50

/-- How many older pages a re-read asks for to meet what is shown. -/
def rereadPageBacks : Nat := 3

/-- The server's answer: the newest undeleted messages, below `before` where it is given,
oldest first. -/
def channelHistory (log : List (Message Id)) (before : Option Id) : List (Message Id) :=
  let rows := log.filter fun m => !m.deleted && before.all (m.id < ·)
  rows.drop (rows.length - pageSize)

/-- Whether a page reaches back to the anchor; it does where nothing is owed, and an empty
page does. -/
def meets (page : List (Message Id)) (anchor : Option Id) : Bool :=
  match anchor with
  | none => true
  | some anchor =>
      match (ids page).min? with
      | none => true
      | some oldest => oldest ≤ anchor

namespace TimelineModel

/-- The shown messages that the fetch does not cover: the newer ones, and those that were
touched while it ran. -/
def keepBeside (t : TimelineModel Id) (fetched : List (Message Id)) : TimelineModel Id :=
  let newest := (ids fetched).max?
  let oldestFetched := (ids fetched).min?
  let touched := t.touchedDuringFetch.getD []
  { t with
    messages := t.messages.filter fun m =>
      newest.all (· < m.id) || (oldestFetched.all (· ≤ m.id) && touched.contains m.id)
    atStart := false
    replaced := t.replaced + 1 }

/-- The anchor that was noted meanwhile, not below what the fetch has proved. -/
def raised (fetched : List (Message Id)) (pending : Id) : Id :=
  match (ids fetched).max? with
  | some n => if pending < n then n else pending
  | none => pending

/-- A re-read's pages are in: merged where they meet what is shown, else in its place. -/
def fillGap (parseTime : String → Option Time) (t : TimelineModel Id)
    (fetched : List (Message Id)) (met : Bool) : TimelineModel Id :=
  let t := (if met then t else t.keepBeside fetched).store parseTime fetched
  { t with
    gapAnchor := t.gapAnchor.map (raised fetched)
    headFailed := false
    olderFailed := false
    error := none
    touchedDuringFetch := none }

/-- A request of a re-read failed: its anchor goes back. -/
def failHead (t : TimelineModel Id) (anchor : Option Id) : TimelineModel Id :=
  { t with
    gapAnchor := ([anchor, t.gapAnchor].filterMap id).min?
    error := some "Couldn't load messages."
    headFailed := true
    touchedDuringFetch := none }

end TimelineModel

/-- One turn of the head fetch: the pages it has, and the server's answer to the request
that is out, once it gave it. -/
structure Turn (Id : Type) where
  anchor : Option Id
  fetched : List (Message Id) := []
  pageBacks : Nat := 0
  answer : Option (List (Message Id)) := none
deriving DecidableEq

/-- The request that is out asks for the messages below this one. -/
def Turn.before (turn : Turn Id) : Option Id := (ids turn.fetched).min?

/-- `headDrain`. -/
inductive HeadDrain (Id : Type) where
  | idle
  /-- The slot is taken; its task has not started. -/
  | starting
  | turn (turn : Turn Id)
deriving DecidableEq

/-- `loadOlder`, in flight or not. -/
inductive OlderLoad (Id : Type) where
  | idle
  /-- The oldest shown message was noted together with `replaced`. -/
  | waiting (oldest : Id) (replacedAtStart : Nat)
  | asked (oldest : Id) (replacedAtAsk : Nat) (answer : Option (List (Message Id)))
deriving DecidableEq

/-- The timeline with its fetches, and the channel's messages on the server in the order
they were committed. -/
structure Rereads (Id : Type) where
  timeline : TimelineModel Id
  log : List (Message Id) := []
  /-- The socket is up, and brought its `ready`. -/
  up : Bool := false
  /-- Tasks that will call `fetchHead`. -/
  asks : Nat := 0
  headDrain : HeadDrain Id := .idle
  headRefetchPending : Bool := false
  older : OlderLoad Id := .idle

inductive RereadAction (Id : Type) where
  /-- The server stores a message, changes its text, or deletes it. -/
  | commit (message : Message Id)
  | edit (id : Id) (body : String) (editedAt : Option String)
  | remove (id : Id)
  | down
  | ready
  | resync
  /-- `reread()`: the app is at the front again. -/
  | foreground
  /-- Any other event. -/
  | event (event : ServerEvent Id)
  /-- The answer to the user's own send or edit. -/
  | sent (message : Message Id)
  | load
  /-- One of the tasks that were started calls `fetchHead`. -/
  | fetchHead
  | startTurn
  | answer
  | receive
  | fail
  | loadOlder
  | askOlder
  | answerOlder
  | receiveOlder
  | failOlder

namespace Rereads

variable (parseTime : String → Option Time)

/-- `fetchHead`: the slot is taken, or one more turn follows the running one. -/
def fetchHead (s : Rereads Id) : Rereads Id :=
  match s.headDrain with
  | .idle => { s with headDrain := .starting }
  | _ => { s with headRefetchPending := true }

/-- The turn takes the anchor, and asks for the newest page. -/
def startTurn (s : Rereads Id) : Rereads Id :=
  { s with
    timeline := { s.timeline with gapAnchor := none, touchedDuringFetch := some [] }
    headRefetchPending := false
    headDrain :=
      .turn { anchor := s.timeline.gapAnchor.or (s.timeline.messages.getLast?.map (·.id)) } }

/-- The turn is over; one that was asked for meanwhile follows. -/
def endTurn (s : Rereads Id) : Rereads Id :=
  if s.headRefetchPending then s.startTurn else { s with headDrain := .idle }

/-- A page that does not meet what is shown is followed by the one before it. -/
def receive (s : Rereads Id) (turn : Turn Id) (page : List (Message Id)) : Rereads Id :=
  let fetched := page ++ turn.fetched
  if meets page turn.anchor = false ∧ turn.pageBacks < rereadPageBacks then
    { s with
      headDrain :=
        .turn { anchor := turn.anchor, fetched := fetched, pageBacks := turn.pageBacks + 1 } }
  else
    let t := s.timeline.fillGap parseTime fetched (meets page turn.anchor)
    { s with timeline := t }.endTurn

/-- The oldest shown message is noted, unless there is no older one to ask for. -/
def noteOldest (s : Rereads Id) : Rereads Id :=
  if s.timeline.atStart then { s with older := .idle }
  else
    match s.timeline.messages.head? with
    | none => { s with older := .idle }
    | some oldest => { s with older := .waiting oldest.id s.timeline.replaced }

/-- The last look before the request. -/
def askOlder (s : Rereads Id) (oldest : Id) (replacedAtStart : Nat) : Rereads Id :=
  if s.timeline.replaced ≠ replacedAtStart then s.noteOldest
  else if s.timeline.headFailed then
    { s with timeline := { s.timeline with olderFailed := true }, older := .idle }
  else { s with older := .asked oldest replacedAtStart none }

/-- An older page; one of a history that was replaced is dropped. -/
def receiveOlder (s : Rereads Id) (replacedAtAsk : Nat) (page : List (Message Id)) :
    Rereads Id :=
  if s.timeline.replaced ≠ replacedAtAsk then s.noteOldest
  else
    let t := { s.timeline with atStart := s.timeline.atStart || page.isEmpty }
    { s with
      timeline := { t.store parseTime page with error := none }
      older := .idle }

def failOlder (s : Rereads Id) (replacedAtAsk : Nat) : Rereads Id :=
  if s.timeline.replaced ≠ replacedAtAsk then s.noteOldest
  else
    { s with
      timeline :=
        { s.timeline with error := some "Couldn't load messages.", olderFailed := true }
      older := .idle }

/-- The messages that an event or a send brings are the channel's. -/
def Known (s : Rereads Id) (delivery : Delivery Id) : Prop :=
  ∀ m ∈ delivery.copies s.timeline.channelId, m.id ∈ ids s.log

instance (s : Rereads Id) (delivery : Delivery Id) : Decidable (s.Known delivery) :=
  inferInstanceAs (Decidable (∀ m ∈ _, _))

def step (s : Rereads Id) : RereadAction Id → Option (Rereads Id)
  | .commit m =>
      if m.deleted = false ∧ m.channelId = s.timeline.channelId ∧
          ∀ earlier ∈ s.log, earlier.id < m.id then
        some { s with log := s.log ++ [m] }
      else none
  | .edit id body editedAt =>
      some { s with log := s.log.map fun m =>
        if m.id = id then { m with body := body, editedAt := editedAt } else m }
  | .remove id =>
      some { s with log := s.log.map fun m => if m.id = id then m.tombstone else m }
  | .down => some { s with up := false }
  | .ready =>
      some { s with
        timeline := s.timeline.apply parseTime .ready
        up := true
        asks := s.asks + 1 }
  | .resync =>
      if s.up then
        some { s with timeline := s.timeline.apply parseTime .resync, asks := s.asks + 1 }
      else none
  | .foreground => some { s with timeline := s.timeline.noteGapAnchor, asks := s.asks + 1 }
  | .event event =>
      if s.up ∧ event ≠ .ready ∧ event ≠ .resync ∧ s.Known (.event event) then
        some { s with timeline := s.timeline.deliver parseTime (.event event) }
      else none
  | .sent m =>
      if s.Known (.sent m) then
        some { s with timeline := s.timeline.deliver parseTime (.sent m) }
      else none
  | .load => some s.fetchHead
  | .fetchHead => if 0 < s.asks then some { s.fetchHead with asks := s.asks - 1 } else none
  | .startTurn => if s.headDrain = .starting then some s.startTurn else none
  | .answer =>
      match s.headDrain with
      | .turn turn =>
          if turn.answer = none then
            some { s with
              headDrain := .turn { turn with answer := channelHistory s.log turn.before } }
          else none
      | _ => none
  | .receive =>
      match s.headDrain with
      | .turn turn => turn.answer.map (s.receive parseTime turn)
      | _ => none
  | .fail =>
      match s.headDrain with
      | .turn turn => some { s with timeline := s.timeline.failHead turn.anchor }.endTurn
      | _ => none
  | .loadOlder =>
      if s.headDrain = .idle ∧ s.older = .idle ∧ s.timeline.atStart = false ∧
          s.timeline.messages ≠ [] then
        some { s with timeline := { s.timeline with olderFailed := false } }.noteOldest
      else none
  | .askOlder =>
      match s.older with
      | .waiting oldest replacedAtStart => some (s.askOlder oldest replacedAtStart)
      | _ => none
  | .answerOlder =>
      match s.older with
      | .asked oldest replacedAtAsk none =>
          some { s with
            older := .asked oldest replacedAtAsk (channelHistory s.log (some oldest)) }
      | _ => none
  | .receiveOlder =>
      match s.older with
      | .asked _ replacedAtAsk (some page) =>
          some (s.receiveOlder parseTime replacedAtAsk page)
      | _ => none
  | .failOlder =>
      match s.older with
      | .asked _ replacedAtAsk _ => some (s.failOlder replacedAtAsk)
      | _ => none

/-- The conversation is opened on iOS, without a cache, in a channel with no messages yet. -/
def start (channelId me : String) : Rereads Id :=
  { timeline := TimelineModel.opened channelId me true }

end Rereads

end Brook.Chat
