import Brook.Channels.Ownership

namespace Brook.Channels

open Transition

/-! One membership's `last_read_message_id`.  A request that writes it takes the
counter lock of `_take_seq` in the flush before its commit, so `send_message`
holds the lock when it reads the row and `mark_read` does not. -/

/-- UUIDv7 ids, in their order. -/
abbrev MessageId := Nat

inductive MarkerRequest
  | sendMessage
  | markRead (messageId : Option MessageId)

/-- How far a request is; `since` counts the markers that were committed when it
read the row. -/
inductive MarkerStage
  | begun
  | inserted (message : MessageId)
  | seen (lastRead : Option MessageId) (since : Nat)
  | dirty (marker : MessageId) (since : Nat)
  | flushed (message marker : Option MessageId) (since : Nat)

structure Marking where
  request : MarkerRequest
  stage : MarkerStage

/-- Every marker that was committed, the newest first, the channel's live
messages, the holder of the counter row and the requests under way. -/
structure Markers where
  committed : List MessageId
  messages : List MessageId
  holder : Option TxId
  requests : Table TxId Marking

namespace Markers

def start : Markers := ⟨[], [], none, ∅⟩

def lastRead (db : Markers) : Option MessageId := db.committed.head?

def setStage (db : Markers) (tx : TxId) (request : MarkerRequest)
    (stage : MarkerStage) : Markers :=
  { db with requests := db.requests.put tx ⟨request, stage⟩ }

/-- The end of a transaction, with the release of the counter. -/
def finish (db : Markers) (tx : TxId) : Markers :=
  { db with
    holder := if db.holder = some tx then none else db.holder
    requests := db.requests.filter fun other _ => other ≠ tx }

def latestMessageId (db : Markers) : Option MessageId := db.messages.max?

end Markers

/-- Both routes only advance the marker. -/
def advances (lastRead : Option MessageId) (target : MessageId) : Bool :=
  match lastRead with
  | none => true
  | some lastRead => lastRead < target

inductive MarkerAction
  | begin (tx : TxId) (request : MarkerRequest)
  | insert (tx : TxId) (message : MessageId)
  | readMembership (tx : TxId)
  | readTarget (tx : TxId)
  | flush (tx : TxId)
  | commit (tx : TxId)
  | rollback (tx : TxId)
  | arrive (message : MessageId)
  | delete (message : MessageId)

/-- The `_membership` of `send_message` and the assignment under it, and the
`_membership` of `mark_read`. -/
def readMembershipStep (db : Markers) (tx : TxId) (marking : Marking) :
    Option Markers :=
  match marking.request, marking.stage with
  | .sendMessage, .inserted message =>
      let marker := if advances db.lastRead message then some message else none
      some (db.setStage tx .sendMessage
        (.flushed (some message) marker db.committed.length))
  | .markRead messageId, .begun =>
      some (db.setStage tx (.markRead messageId)
        (.seen db.lastRead db.committed.length))
  | _, _ => none

/-- `mark_read` from its second `SELECT` to the assignment. -/
def readTargetStep (db : Markers) (tx : TxId) (marking : Marking) :
    Option Markers :=
  match marking.request, marking.stage with
  | .markRead messageId, .seen lastRead since =>
      let target :=
        match messageId with
        | none => db.latestMessageId
        | some messageId =>
            if messageId ∈ db.messages then some messageId else none
      match target with
      | none => some (db.finish tx)
      | some target =>
          if advances lastRead target then
            some (db.setStage tx (.markRead messageId) (.dirty target since))
          else some (db.finish tx)
  | _, _ => none

/-- `_take_seq`, in the flush that inserts the message or updates the row. -/
def takeSeqStep (db : Markers) (tx : TxId) (request : MarkerRequest)
    (stage : MarkerStage) : Option Markers :=
  match db.holder with
  | some _ => none
  | none => some { db.setStage tx request stage with holder := some tx }

def commitMarkerStep (db : Markers) (tx : TxId)
    (message marker : Option MessageId) : Markers :=
  { db with
    messages := message.toList ++ db.messages
    committed := marker.toList ++ db.committed }.finish tx

def markerStep (db : Markers) : MarkerAction → Option Markers
  | .begin tx request =>
      if db.requests.contains tx then none
      else some (db.setStage tx request .begun)
  | .insert tx message =>
      match db.requests.get? tx with
      | some ⟨.sendMessage, .begun⟩ =>
          takeSeqStep db tx .sendMessage (.inserted message)
      | _ => none
  | .readMembership tx =>
      (db.requests.get? tx).bind (readMembershipStep db tx)
  | .readTarget tx => (db.requests.get? tx).bind (readTargetStep db tx)
  | .flush tx =>
      match db.requests.get? tx with
      | some ⟨request, .dirty marker since⟩ =>
          takeSeqStep db tx request (.flushed none (some marker) since)
      | _ => none
  | .commit tx =>
      match db.requests.get? tx with
      | some ⟨_, .flushed message marker _⟩ =>
          some (commitMarkerStep db tx message marker)
      | _ => none
  | .rollback tx => some (db.finish tx)
  | .arrive message =>
      if db.holder.isSome then none
      else some { db with messages := message :: db.messages }
  | .delete message =>
      if db.holder.isSome then none
      else some { db with messages := db.messages.filter (· ≠ message) }

/-- The committed marker never went back. -/
def Forward (db : Markers) : Prop :=
  db.committed.Pairwise fun later earlier => earlier ≤ later

instance (db : Markers) : Decidable (Forward db) :=
  inferInstanceAs (Decidable (db.committed.Pairwise _))

/-- A `mark_read` commits its marker only while no marker past it was committed
since it read the row. -/
def InTime (db : Markers) : MarkerAction → Prop
  | .commit tx =>
      ∀ messageId message marker since,
        db.requests.get? tx =
          some ⟨.markRead messageId, .flushed message (some marker) since⟩ →
        ∀ past ∈ db.committed.take (db.committed.length - since), past ≤ marker
  | _ => True

/-- The marker is past every marker that was committed when the row was read. -/
structure PastRead (committed : List MessageId) (marker : MessageId)
    (since : Nat) : Prop where
  bound : since ≤ committed.length
  past : ∀ seen ∈ committed.drop (committed.length - since), seen < marker

def MarkerStage.Holds (db : Markers) (tx : TxId) (request : MarkerRequest) :
    MarkerStage → Prop
  | .begun => True
  | .inserted _ => db.holder = some tx
  | .seen lastRead since =>
      since ≤ db.committed.length ∧
        lastRead = (db.committed.drop (db.committed.length - since)).head?
  | .dirty marker since =>
      request ≠ .sendMessage ∧ PastRead db.committed marker since
  | .flushed _ marker since =>
      db.holder = some tx ∧ ∀ stored, marker = some stored →
        (request = .sendMessage → since = db.committed.length) ∧
          PastRead db.committed stored since

/-- The marker has only gone forward, and each request is right about what it
has read. -/
structure Advancing (db : Markers) : Prop where
  forward : Forward db
  stages : ∀ tx request stage,
    db.requests.get? tx = some ⟨request, stage⟩ → stage.Holds db tx request

section

variable {db next : Markers} {tx : TxId} {request : MarkerRequest}

theorem advancing_start : Advancing Markers.start where
  forward := List.Pairwise.nil
  stages := by simp [Markers.start]

/-- A marker past the newest of an ordered history is past all of it. -/
theorem lt_of_advances {history : List MessageId} {target : MessageId}
    (ordered : history.Pairwise fun later earlier => earlier ≤ later)
    (advance : advances history.head? target = true) :
    ∀ seen ∈ history, seen < target := by
  cases history with
  | nil => simp
  | cons newest rest =>
      have first : newest < target := by simpa [advances] using advance
      intro seen mem
      rcases List.mem_cons.mp mem with rfl | older
      · exact first
      · exact Nat.lt_of_le_of_lt ((List.pairwise_cons.mp ordered).1 seen older)
          first

/-- What was read stays where it was when another marker is committed. -/
theorem drop_cons_since {history : List MessageId} {since : Nat}
    (marker : MessageId) (bound : since ≤ history.length) :
    (marker :: history).drop ((marker :: history).length - since) =
      history.drop (history.length - since) := by
  rw [List.length_cons, Nat.succ_sub bound, List.drop_succ_cons]

theorem PastRead.cons {history : List MessageId} {marker : MessageId}
    {since : Nat} (past : PastRead history marker since)
    (newer : MessageId) : PastRead (newer :: history) marker since where
  bound := Nat.le_succ_of_le past.bound
  past := by
    rw [drop_cons_since newer past.bound]
    exact past.past

/-- A request that reads the newest marker and advances it is past them all. -/
theorem pastRead_of_advances {target : MessageId} {since : Nat}
    {lastRead : Option MessageId} (forward : Forward db)
    (bound : since ≤ db.committed.length)
    (read : lastRead =
      (db.committed.drop (db.committed.length - since)).head?)
    (advance : advances lastRead target = true) :
    PastRead db.committed target since where
  bound := bound
  past := by
    subst read
    exact lt_of_advances (forward.sublist (List.drop_sublist _ _)) advance

/-- A stage depends on the holder and on the history only. -/
theorem MarkerStage.Holds.of_same {stage : MarkerStage}
    (holds : stage.Holds db tx request) (history : next.committed = db.committed)
    (held : db.holder = some tx → next.holder = some tx) :
    stage.Holds next tx request := by
  cases stage with
  | begun => trivial
  | inserted message => exact held holds
  | seen lastRead since => simpa [MarkerStage.Holds, history] using holds
  | dirty marker since => simpa [MarkerStage.Holds, history] using holds
  | flushed message marker since =>
      refine ⟨held holds.1, ?_⟩
      rw [history]
      exact holds.2

theorem Advancing.finish (sound : Advancing db) (tx : TxId) :
    Advancing (db.finish tx) where
  forward := sound.forward
  stages := by
    intro other request stage stored
    simp only [Markers.finish, Table.get?_filter,
      Option.filter_eq_some_iff, decide_eq_true_eq] at stored
    apply (sound.stages other request stage stored.1).of_same
    · rfl
    · intro held
      simp [Markers.finish, held, stored.2]

theorem Advancing.setStage (sound : Advancing db) {stage : MarkerStage}
    (holds : stage.Holds db tx request) :
    Advancing (db.setStage tx request stage) where
  forward := sound.forward
  stages := by
    intro other otherRequest otherStage stored
    by_cases same : other = tx
    · subst same
      simp only [Markers.setStage, Table.get?_put_self, Option.some.injEq,
        Marking.mk.injEq] at stored
      obtain ⟨rfl, rfl⟩ := stored
      exact holds.of_same rfl id
    · rw [Markers.setStage, Table.get?_put_ne _ _ same] at stored
      exact (sound.stages other otherRequest otherStage stored).of_same rfl id

/-- Taking the free counter row. -/
theorem takeSeqStep_advancing (sound : Advancing db) {stage : MarkerStage}
    (holds : stage.Holds { db with holder := some tx } tx request)
    (taken : takeSeqStep db tx request stage = some next) : Advancing next := by
  unfold takeSeqStep at taken
  split at taken
  · cases taken
  · rename_i free
    cases taken
    have locked : Advancing { db with holder := some tx } :=
      { forward := sound.forward
        stages := by
          intro other otherRequest otherStage stored
          apply (sound.stages other otherRequest otherStage stored).of_same
          · rfl
          · intro held
            simp [free] at held }
    exact locked.setStage holds

theorem readMembershipStep_advancing (sound : Advancing db) {marking : Marking}
    (stored : db.requests.get? tx = some marking)
    (taken : readMembershipStep db tx marking = some next) :
    Advancing next := by
  obtain ⟨request, stage⟩ := marking
  have holds := sound.stages tx request stage stored
  have all : db.committed.drop (db.committed.length - db.committed.length) =
      db.committed := by simp
  unfold readMembershipStep at taken
  split at taken
  · rename_i request stage message isSend inserted
    simp only at isSend inserted
    subst isSend inserted
    cases taken
    apply sound.setStage
    refine ⟨holds, ?_⟩
    intro marker set
    split at set
    · rename_i advance
      cases set
      refine ⟨fun _ => rfl, ?_⟩
      apply pastRead_of_advances sound.forward (Nat.le_refl _) _ advance
      rw [all]
      rfl
    · cases set
  · cases taken
    apply sound.setStage
    refine ⟨Nat.le_refl _, ?_⟩
    rw [all]
    rfl
  · cases taken

theorem readTargetStep_advancing (sound : Advancing db) {marking : Marking}
    (stored : db.requests.get? tx = some marking)
    (taken : readTargetStep db tx marking = some next) : Advancing next := by
  obtain ⟨request, stage⟩ := marking
  have holds := sound.stages tx request stage stored
  simp only [readTargetStep] at taken
  split at taken
  · rename_i messageId lastRead since
    split at taken
    · cases taken
      exact sound.finish tx
    · split at taken
      · rename_i advance
        cases taken
        apply sound.setStage
        refine ⟨by simp, ?_⟩
        exact pastRead_of_advances sound.forward holds.1 holds.2 advance
      · cases taken
        exact sound.finish tx
  · cases taken

/-- Another request's stage survives the commit of a marker. -/
theorem MarkerStage.Holds.commit {stage : MarkerStage} {marker : MessageId}
    (holds : stage.Holds db tx request) (other : db.holder ≠ some tx)
    (history : next.committed = marker :: db.committed) :
    stage.Holds next tx request := by
  cases stage with
  | begun => trivial
  | inserted message => exact (other holds).elim
  | seen lastRead since =>
      obtain ⟨bound, read⟩ := holds
      refine ⟨?_, ?_⟩
      · simpa [history] using Nat.le_succ_of_le bound
      · rw [history, drop_cons_since marker bound]
        exact read
  | dirty target since =>
      refine ⟨holds.1, ?_⟩
      rw [history]
      exact holds.2.cons marker
  | flushed message target since => exact (other holds.1).elim

/-- A marker past all that was read, and not behind any that came later, is not
behind the committed one. -/
theorem PastRead.forward_cons {marker : MessageId} {since : Nat}
    (past : PastRead db.committed marker since) (forward : Forward db)
    (later : ∀ newer ∈ db.committed.take (db.committed.length - since),
      newer ≤ marker) :
    (marker :: db.committed).Pairwise fun later earlier => earlier ≤ later := by
  refine List.pairwise_cons.mpr ⟨?_, forward⟩
  intro stored mem
  rw [← List.take_append_drop (db.committed.length - since) db.committed,
    List.mem_append] at mem
  rcases mem with newer | read
  · exact later stored newer
  · exact Nat.le_of_lt (past.past stored read)

theorem commitMarkerStep_advancing (sound : Advancing db)
    {message marker : Option MessageId} {since : Nat}
    (stored : db.requests.get? tx = some ⟨request, .flushed message marker since⟩)
    (inTime : InTime db (.commit tx)) :
    Advancing (commitMarkerStep db tx message marker) := by
  obtain ⟨held, target⟩ := sound.stages tx request _ stored
  constructor
  · cases marker with
    | none => exact sound.forward
    | some marker =>
        obtain ⟨fresh, past⟩ := target marker rfl
        apply past.forward_cons sound.forward
        cases request with
        | sendMessage => simp [fresh rfl]
        | markRead messageId => exact inTime messageId message marker since stored
  · intro other otherRequest stage kept
    simp only [commitMarkerStep, Markers.finish, Table.get?_filter,
      Option.filter_eq_some_iff, decide_eq_true_eq] at kept
    obtain ⟨kept, different⟩ := kept
    have holds := sound.stages other otherRequest stage kept
    have elsewhere : db.holder ≠ some other := by
      rw [held]
      simpa using Ne.symm different
    cases marker with
    | none =>
        apply holds.of_same
        · rfl
        · exact fun mine => (elsewhere mine).elim
    | some marker => exact holds.commit elsewhere rfl

theorem markerStep_advancing {action : MarkerAction} (sound : Advancing db)
    (inTime : InTime db action) (taken : markerStep db action = some next) :
    Advancing next := by
  cases action with
  | begin tx request =>
      simp only [markerStep] at taken
      split at taken
      · cases taken
      · cases taken
        exact sound.setStage trivial
  | insert tx message =>
      simp only [markerStep] at taken
      split at taken
      · apply takeSeqStep_advancing sound _ taken
        rfl
      · cases taken
  | readMembership tx =>
      obtain ⟨marking, stored, read⟩ := Option.bind_eq_some_iff.mp taken
      exact readMembershipStep_advancing sound stored read
  | readTarget tx =>
      obtain ⟨marking, stored, read⟩ := Option.bind_eq_some_iff.mp taken
      exact readTargetStep_advancing sound stored read
  | flush tx =>
      simp only [markerStep] at taken
      split at taken
      · rename_i request marker since stored
        obtain ⟨isMark, past⟩ := sound.stages tx request _ stored
        apply takeSeqStep_advancing sound _ taken
        refine ⟨rfl, ?_⟩
        rintro _ ⟨⟩
        exact ⟨fun isSend => (isMark isSend).elim, past⟩
      · cases taken
  | commit tx =>
      simp only [markerStep] at taken
      split at taken
      · rename_i stored
        cases taken
        exact commitMarkerStep_advancing sound stored inTime
      · cases taken
  | rollback tx =>
      cases taken
      exact sound.finish tx
  | arrive message =>
      simp only [markerStep] at taken
      split at taken
      · cases taken
      · cases taken
        exact ⟨sound.forward, sound.stages⟩
  | delete message =>
      simp only [markerStep] at taken
      split at taken
      · cases taken
      · cases taken
        exact ⟨sound.forward, sound.stages⟩

/-- A marker that went forward was not behind any other. -/
theorem inTime_of_forward {action : MarkerAction}
    (taken : markerStep db action = some next) (forward : Forward next) :
    InTime db action := by
  cases action with
  | commit tx =>
      intro messageId message marker since stored past mem
      simp only [markerStep, stored, Option.some.injEq] at taken
      subst taken
      have newest : (marker :: db.committed).Pairwise
          fun later earlier => earlier ≤ later := forward
      exact (List.pairwise_cons.mp newest).1 past (List.mem_of_mem_take mem)
  | _ => trivial

end

/-- The marker only moves forward exactly when no `mark_read` commits behind a
marker that was committed since it read the row. -/
theorem forward_iff_inTime (actions : List MarkerAction) :
    Throughout markerStep Forward Markers.start actions ↔
      Along markerStep InTime Markers.start actions := by
  apply throughout_iff_along
  · exact Advancing.forward
  · exact markerStep_advancing
  · exact fun _ => inTime_of_forward
  · intro db action stuck
    cases action with
    | commit tx =>
        intro messageId message marker since stored
        simp [markerStep, stored] at stuck
    | _ => trivial
  · exact advancing_start

/-- Two devices read the row before either writes it; the one that is further
behind commits last. -/
def rewound : List MarkerAction :=
  [.arrive 1, .arrive 2, .begin 1 (.markRead (some 1)),
    .begin 2 (.markRead (some 2)), .readMembership 1, .readMembership 2,
    .readTarget 1, .readTarget 2, .flush 2, .commit 2, .flush 1, .commit 1]

theorem rewind_of_overlap :
    ¬ ∀ actions db, run markerStep Markers.start actions = some db →
      Forward db := by
  intro claimed
  obtain ⟨db, reached, back⟩ : ∃ db,
      run markerStep Markers.start rewound = some db ∧ db.committed = [1, 2] :=
    ⟨_, rfl, by decide +kernel⟩
  have forward := claimed rewound db reached
  rw [Forward, back] at forward
  revert forward
  decide

end Brook.Channels
