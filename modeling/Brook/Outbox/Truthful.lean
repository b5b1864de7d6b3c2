import Brook.Transition.Run
import Brook.Outbox.Delete

namespace Brook.Outbox

/-! `delete_pending` tells the truth: what it finds of a row says whether the server has its
message, as long as no other Delete took the row and no resend is answered for another. -/

variable {desk : Desk} {outbox next : OutboxSystem} {attempt : Attempt} {stage : Stage}
  {id : ClientId}

/-- The await comes only after a send was answered with success. -/
def Stage.settled : Stage → Bool
  | .acking | .dropping => true
  | .settling state => state = .accepted
  | _ => false

/-- The await leaves an accepted row accepted. -/
def Stage.spares : Stage → Bool
  | .reading | .posting _ | .acking | .dropping => true
  | .settling state => state = .accepted
  | .marking | .uploading _ _ | .detaching => false

/-- What the sender's attempt knows of its row. -/
structure Attending (desk : Desk) (attempt : Attempt) (stage : Stage) : Prop where
  there : ∃ row ∈ desk.outbox.rows, row.clientId = attempt.clientId
  accepted : ∀ row ∈ desk.outbox.rows, row.clientId = attempt.clientId →
    (row.state = .accepted ↔ attempt.accepted = true)
  sent : attempt.accepted = true ∨ stage.settled = true → desk.Sent attempt.clientId
  spares : attempt.accepted = true → stage.spares = true

def Attended (desk : Desk) : Holder → Prop
  | .sender attempt stage => Attending desk attempt stage
  | .free | .direct => True

/-- The rows, those that went and those that were accepted. -/
structure Booked (desk : Desk) : Prop where
  distinct : (desk.outbox.rows.map (·.clientId)).Nodup
  sequence : ∀ row ∈ desk.outbox.rows, row.ordinal < desk.outbox.sequence
  accepted : ∀ row ∈ desk.outbox.rows, row.state = .accepted → desk.Sent row.clientId
  noted : ∀ row ∈ desk.outbox.rows, row.key ∈ desk.noted → row.state = .accepted
  noticed : ∀ key ∈ desk.noted, key.1 < desk.outbox.sequence
  apart : ∀ gone ∈ desk.gone, ∀ row ∈ desk.outbox.rows, row.key ≠ gone.key
  before : ∀ gone ∈ desk.gone, gone.key.1 < desk.outbox.sequence
  once : (desk.gone.map (·.key)).Nodup
  /-- A row that was dropped by the sender, or accepted when it went, had been sent. -/
  sent : ∀ gone ∈ desk.gone, gone.remover = .sender ∨ gone.state = .accepted →
    desk.Sent gone.key.2
  /-- And of any other no send had been answered with success and recorded. -/
  unsent : ∀ gone ∈ desk.gone, gone.remover ≠ .sender → gone.state ≠ .accepted →
    gone.key ∉ desk.noted

/-- What a call that holds the lock, or has removed its row, may count on. -/
structure Counted (desk : Desk) (call : CallId) (row : Call) : Prop where
  holds : row.stage ≠ .waiting → desk.held = some call
  found : ∀ found, row.stage = .removed found → row.command = .delete ∧
    ((found = none ∨ found = some .accepted) → desk.Sent row.clientId) ∧
    ∀ state, found = some state → state ≠ .accepted →
      ∃ gone ∈ desk.gone, gone.key.2 = row.clientId ∧ gone.remover = .call call ∧
        gone.state ≠ .accepted

/-- What was told rests on what went. -/
structure Based (desk : Desk) (told : Told) : Prop where
  alreadySent : told.deleted = .alreadySent → desk.Sent told.clientId
  removed : told.deleted = .removed → ∃ gone ∈ desk.gone, gone.key.2 = told.clientId ∧
    gone.remover = .call told.call ∧ gone.state ≠ .accepted

structure Sound (desk : Desk) : Prop where
  booked : Booked desk
  attended : Attended desk desk.outbox.holder
  lock : desk.held ≠ none → desk.outbox.holder = .free
  calls : ∀ call row, desk.calls.get? call = some row → Counted desk call row
  told : ∀ told ∈ desk.told, Based desk told

/-! ### The rows -/

@[simp] theorem mem_acceptedKeys {key : RowKey} :
    key ∈ outbox.acceptedKeys ↔ ∃ row ∈ outbox.rows, row.state = .accepted ∧ row.key = key := by
  simp [OutboxSystem.acceptedKeys, and_assoc]

@[simp] theorem mem_lost {remover : Remover} {gone : Gone} :
    gone ∈ outbox.lost next remover ↔ ∃ row ∈ outbox.rows,
      (∀ other ∈ next.rows, other.key ≠ row.key) ∧
        (⟨row.key, row.state, remover⟩ : Gone) = gone := by
  simp [OutboxSystem.lost, and_assoc]

/-- What the next rows have of the rows that are there. -/
structure Follows (desk : Desk) (next : OutboxSystem) : Prop where
  distinct : (next.rows.map (·.clientId)).Nodup
  sequence : desk.outbox.sequence ≤ next.sequence
  below : ∀ row ∈ next.rows, row.ordinal < next.sequence
  earlier : ∀ row ∈ next.rows,
    (desk.outbox.sequence ≤ row.ordinal ∧ row.state ≠ .accepted) ∨
      ∃ old ∈ desk.outbox.rows, old.key = row.key ∧
        (old.state = .accepted → row.state = .accepted) ∧
        (row.state = .accepted → old.state = .accepted ∨ desk.Sent row.clientId)

/-- Rows with one id are one row. -/
theorem eq_of_key {rows : List Row} (distinct : (rows.map (·.clientId)).Nodup) {row other : Row}
    (member : row ∈ rows) (also : other ∈ rows) (same : row.key = other.key) : row = other :=
  List.inj_on_of_nodup_map distinct member also (congrArg Prod.snd same)

theorem nodup_lost {remover : Remover} (distinct : (outbox.rows.map (·.clientId)).Nodup) :
    ((outbox.lost next remover).map (·.key)).Nodup := by
  have nodup : (outbox.rows.map Row.key).Nodup := by
    refine List.Nodup.of_map Prod.snd ?_
    rw [List.map_map]
    exact distinct
  rw [OutboxSystem.lost, List.map_map]
  exact (List.filter_sublist.map Row.key).nodup nodup

namespace Booked

theorem moved (booked : Booked desk) {remover : Remover} (follows : Follows desk next)
    (sent : remover = .sender → ∀ gone ∈ desk.outbox.lost next .sender,
      desk.Sent gone.key.2) : Booked (desk.moved next remover) where
  distinct := follows.distinct
  sequence := follows.below
  accepted row member isAccepted := by
    obtain ⟨-, other⟩ | ⟨old, stored, same, -, back⟩ := follows.earlier row member
    · exact (other isAccepted).elim
    · obtain was | sent := back isAccepted
      · have := booked.accepted old stored was
        rwa [show old.clientId = row.clientId from congrArg Prod.snd same] at this
      · exact sent
  noted row member noted := by
    obtain noted | accepted := List.mem_append.mp noted
    · obtain ⟨fresh, -⟩ | ⟨old, stored, same, kept, -⟩ := follows.earlier row member
      · exact absurd (booked.noticed row.key noted) (Nat.not_lt.mpr fresh)
      · exact kept (booked.noted old stored (same ▸ noted))
    · obtain ⟨other, also, isAccepted, same⟩ := mem_acceptedKeys.mp accepted
      rwa [eq_of_key follows.distinct also member same] at isAccepted
  noticed key noted := by
    obtain noted | accepted := List.mem_append.mp noted
    · exact Nat.lt_of_lt_of_le (booked.noticed key noted) follows.sequence
    · obtain ⟨row, member, -, rfl⟩ := mem_acceptedKeys.mp accepted
      exact follows.below row member
  apart gone went row member := by
    obtain went | lost := List.mem_append.mp went
    · obtain ⟨fresh, -⟩ | ⟨old, stored, same, -⟩ := follows.earlier row member
      · intro same
        exact absurd (booked.before gone went) (Nat.not_lt.mpr (same ▸ fresh))
      · rw [← same]
        exact booked.apart gone went old stored
    · obtain ⟨old, -, absent, rfl⟩ := mem_lost.mp lost
      exact absent row member
  before gone went := by
    obtain went | lost := List.mem_append.mp went
    · exact Nat.lt_of_lt_of_le (booked.before gone went) follows.sequence
    · obtain ⟨old, stored, -, rfl⟩ := mem_lost.mp lost
      exact Nat.lt_of_lt_of_le (booked.sequence old stored) follows.sequence
  once := by
    rw [Desk.moved, List.map_append, List.nodup_append']
    refine ⟨booked.once, nodup_lost booked.distinct, ?_⟩
    rintro key before lost
    obtain ⟨gone, went, rfl⟩ := List.mem_map.mp before
    obtain ⟨other, lost, same⟩ := List.mem_map.mp lost
    obtain ⟨old, stored, -, rfl⟩ := mem_lost.mp lost
    exact booked.apart gone went old stored same
  sent gone went lawful := by
    obtain went | lost := List.mem_append.mp went
    · exact booked.sent gone went lawful
    · have lost' := lost
      obtain ⟨old, stored, -, rfl⟩ := mem_lost.mp lost
      obtain rfl | isAccepted := lawful
      · exact sent rfl _ lost'
      · exact booked.accepted old stored isAccepted
  unsent gone went other state noted := by
    obtain went | lost := List.mem_append.mp went
    · obtain noted | accepted := List.mem_append.mp noted
      · exact booked.unsent gone went other state noted
      · obtain ⟨row, member, isAccepted, same⟩ := mem_acceptedKeys.mp accepted
        obtain ⟨fresh, -⟩ | ⟨old, stored, also, -⟩ := follows.earlier row member
        · exact absurd (booked.before gone went) (Nat.not_lt.mpr (same ▸ fresh))
        · exact booked.apart gone went old stored (also.trans same)
    · obtain ⟨old, stored, absent, rfl⟩ := mem_lost.mp lost
      obtain noted | accepted := List.mem_append.mp noted
      · exact state (booked.noted old stored noted)
      · obtain ⟨row, member, -, same⟩ := mem_acceptedKeys.mp accepted
        exact absent row member same

end Booked

/-- The outbox goes on to `next`, with the books kept. -/
structure Went (desk : Desk) (next : OutboxSystem) : Prop where
  follows : Follows desk next
  lost : ∀ gone ∈ desk.outbox.lost next .sender, desk.Sent gone.key.2
  attended : Attended (desk.moved next .sender) next.holder

section Rows

variable (booked : Booked desk)
include booked

theorem Follows.rewritten {write : Row → Row} (rows : next.rows = desk.outbox.rows.map write)
    (sequence : next.sequence = desk.outbox.sequence) (keeps : ∀ row, (write row).key = row.key)
    (kept : ∀ row ∈ desk.outbox.rows, row.state = .accepted → (write row).state = .accepted)
    (sent : ∀ row ∈ desk.outbox.rows, (write row).state = .accepted →
      row.state = .accepted ∨ desk.Sent row.clientId) : Follows desk next where
  distinct := by
    rw [rows, List.map_map]
    have same : (fun row : Row => row.clientId) ∘ write = fun row : Row => row.clientId :=
      funext fun row => congrArg Prod.snd (keeps row)
    rw [same]
    exact booked.distinct
  sequence := Nat.le_of_eq sequence.symm
  below row member := by
    rw [rows] at member
    obtain ⟨old, stored, rfl⟩ := List.mem_map.mp member
    rw [sequence, show (write old).ordinal = old.ordinal from congrArg Prod.fst (keeps old)]
    exact booked.sequence old stored
  earlier row member := by
    rw [rows] at member
    obtain ⟨old, stored, rfl⟩ := List.mem_map.mp member
    refine Or.inr ⟨old, stored, (keeps old).symm, kept old stored, fun isAccepted => ?_⟩
    rw [show (write old).clientId = old.clientId from congrArg Prod.snd (keeps old)]
    exact sent old stored isAccepted

theorem Follows.same (rows : next.rows = desk.outbox.rows)
    (sequence : next.sequence = desk.outbox.sequence) : Follows desk next := by
  have unchanged : next.rows = desk.outbox.rows.map fun row => row := by rw [rows, List.map_id']
  exact Follows.rewritten booked unchanged sequence (fun _ => rfl)
    (fun _ _ isAccepted => isAccepted) fun _ _ isAccepted => Or.inl isAccepted

theorem Follows.removed {id : ClientId}
    (rows : next.rows = desk.outbox.rows.filter fun row => row.clientId ≠ id)
    (sequence : next.sequence = desk.outbox.sequence) : Follows desk next where
  distinct := by
    rw [rows]
    exact (List.filter_sublist.map _).nodup booked.distinct
  sequence := Nat.le_of_eq sequence.symm
  below row member := by
    rw [rows] at member
    rw [sequence]
    exact booked.sequence row (List.mem_filter.mp member).1
  earlier row member := by
    rw [rows] at member
    exact Or.inr ⟨row, (List.mem_filter.mp member).1, rfl, fun isAccepted => isAccepted,
      fun isAccepted => Or.inl isAccepted⟩

theorem Follows.added {row : Row} (rows : next.rows = desk.outbox.rows ++ [row])
    (sequence : next.sequence = desk.outbox.sequence + 1)
    (ordinal : row.ordinal = desk.outbox.sequence) (pending : row.state = .pending)
    (fresh : ∀ other ∈ desk.outbox.rows, other.clientId ≠ row.clientId) :
    Follows desk next where
  distinct := by
    rw [rows, List.map_append, List.nodup_append']
    refine ⟨booked.distinct, List.nodup_singleton _, fun id member last => ?_⟩
    obtain ⟨other, stored, rfl⟩ := List.mem_map.mp member
    exact fresh other stored (List.mem_singleton.mp last)
  sequence := by omega
  below other member := by
    rw [rows] at member
    obtain stored | last := List.mem_append.mp member
    · have := booked.sequence other stored
      omega
    · rw [List.mem_singleton.mp last]
      omega
  earlier other member := by
    rw [rows] at member
    obtain stored | last := List.mem_append.mp member
    · exact Or.inr ⟨other, stored, rfl, fun isAccepted => isAccepted,
        fun isAccepted => Or.inl isAccepted⟩
    · rw [List.mem_singleton.mp last, pending, ordinal]
      exact Or.inl ⟨Nat.le_refl _, by decide⟩

end Rows

/-- Nothing goes where every key stays. -/
theorem not_mem_lost {remover : Remover} {gone : Gone}
    (stay : ∀ row ∈ outbox.rows, ∃ other ∈ next.rows, other.key = row.key) :
    gone ∉ outbox.lost next remover := by
  intro lost
  obtain ⟨row, member, absent, -⟩ := mem_lost.mp lost
  obtain ⟨other, also, same⟩ := stay row member
  exact absent other also same

theorem stay_rewritten {write : Row → Row} (rows : next.rows = outbox.rows.map write)
    (keeps : ∀ row, (write row).key = row.key) :
    ∀ row ∈ outbox.rows, ∃ other ∈ next.rows, other.key = row.key := by
  intro row member
  rw [rows]
  exact ⟨write row, List.mem_map_of_mem member, keeps row⟩

/-- What goes with the rows of an id had that id. -/
theorem id_of_lost {remover : Remover} {gone : Gone} {id : ClientId}
    (rows : next.rows = outbox.rows.filter fun row => row.clientId ≠ id)
    (lost : gone ∈ outbox.lost next remover) : gone.key.2 = id := by
  obtain ⟨row, member, absent, rfl⟩ := mem_lost.mp lost
  by_contra other
  refine absent row ?_ rfl
  rw [rows]
  exact List.mem_filter.mpr ⟨member, decide_eq_true other⟩

/-! ### The sender -/

namespace Attending

/-- The attempt goes on over rows that keep their ids and whether they are accepted. -/
theorem on (attending : Attending desk attempt stage) {remover : Remover} {write : Row → Row}
    {later : Attempt} {rest : Stage} (rows : next.rows = desk.outbox.rows.map write)
    (keeps : ∀ row, (write row).key = row.key)
    (state : ∀ row ∈ desk.outbox.rows, (write row).clientId = attempt.clientId →
      ((write row).state = .accepted ↔ row.state = .accepted))
    (id : later.clientId = attempt.clientId) (same : later.accepted = attempt.accepted)
    (sent : rest.settled = true → desk.Sent attempt.clientId)
    (spares : attempt.accepted = true → rest.spares = true) :
    Attending (desk.moved next remover) later rest where
  there := by
    obtain ⟨row, member, mine⟩ := attending.there
    refine ⟨write row, ?_, ?_⟩
    · rw [show (desk.moved next remover).outbox.rows = next.rows from rfl, rows]
      exact List.mem_map_of_mem member
    · rw [id, ← mine]
      exact congrArg Prod.snd (keeps row)
  accepted row member mine := by
    rw [show (desk.moved next remover).outbox.rows = next.rows from rfl, rows] at member
    obtain ⟨old, stored, rfl⟩ := List.mem_map.mp member
    rw [id] at mine
    rw [state old stored mine, same]
    refine attending.accepted old stored ?_
    rw [← mine]
    exact (congrArg Prod.snd (keeps old)).symm
  sent known := by
    rw [id]
    obtain was | settled := known
    · exact attending.sent (Or.inl (same ▸ was))
    · exact sent settled
  spares was := spares (same ▸ was)

/-- The attempt goes on over the same rows. -/
theorem same (attending : Attending desk attempt stage) {remover : Remover} {later : Attempt}
    {rest : Stage} (rows : next.rows = desk.outbox.rows) (id : later.clientId = attempt.clientId)
    (same : later.accepted = attempt.accepted)
    (sent : rest.settled = true → desk.Sent attempt.clientId)
    (spares : attempt.accepted = true → rest.spares = true) :
    Attending (desk.moved next remover) later rest := by
  have unchanged : next.rows = desk.outbox.rows.map fun row => row := by rw [rows, List.map_id']
  exact attending.on unchanged (fun _ => rfl) (fun _ _ _ => Iff.rfl) id same sent spares

end Attending

theorem Attended.same {holder : Holder} (attended : Attended desk holder) {remover : Remover}
    (rows : next.rows = desk.outbox.rows) : Attended (desk.moved next remover) holder := by
  cases holder with
  | free | direct => trivial
  | sender attempt stage =>
      exact Attending.same attended rows rfl rfl (fun settled => attended.sent (Or.inr settled))
        attended.spares

@[simp] theorem Stage.settled_waiting :
    (Stage.settling attempt.waiting).settled = attempt.accepted := by
  cases known : attempt.accepted <;> simp [Stage.settled, Attempt.waiting, known]

@[simp] theorem Stage.spares_waiting :
    (Stage.settling attempt.waiting).spares = attempt.accepted := by
  cases known : attempt.accepted <;> simp [Stage.spares, Attempt.waiting, known]

theorem Row.retry_key (row : Row) (dropReply : Bool) : (row.retry dropReply).key = row.key := by
  rw [Row.retry]
  split
  · split
    · split <;> rfl
    · rfl
  · rfl

theorem Row.retry_accepted (row : Row) (dropReply : Bool) :
    (row.retry dropReply).state = .accepted ↔ row.state = .accepted := by
  rw [Row.retry]
  split
  case h_1 code failed =>
    split
    · split
      · simp [failed]
      · exact Iff.rfl
    · simp [failed]
  case h_2 => exact Iff.rfl

theorem Row.reopen_key (row : Row) : row.reopen.key = row.key := rfl

theorem Row.reopen_accepted (row : Row) : row.reopen.state = .accepted ↔ row.state = .accepted := by
  rw [Row.reopen]
  dsimp only
  split
  case isTrue sending => simp [sending]
  case isFalse => exact Iff.rfl

namespace Went

section

variable (booked : Booked desk)
include booked

/-- The sender's lock is let go of, or its session or its turn changes. -/
theorem same (rows : next.rows = desk.outbox.rows)
    (sequence : next.sequence = desk.outbox.sequence)
    (attended : Attended (desk.moved next .sender) next.holder) : Went desk next where
  follows := Follows.same booked rows sequence
  lost _ lost := (not_mem_lost (fun row member => ⟨row, rows ▸ member, rfl⟩) lost).elim
  attended := attended

variable {later : Attempt} {rest : Stage} (attending : Attending desk attempt stage)
  (mine : later.clientId = attempt.clientId) (accepted : later.accepted = attempt.accepted)
include attending mine accepted

theorem advances {write : Row → Row} (rows : next.rows = desk.outbox.rows.map write)
    (sequence : next.sequence = desk.outbox.sequence) (keeps : ∀ row, (write row).key = row.key)
    (state : ∀ row ∈ desk.outbox.rows, (write row).state = .accepted ↔ row.state = .accepted)
    (holder : next.holder = .sender later rest)
    (sent : rest.settled = true → desk.Sent attempt.clientId)
    (spares : attempt.accepted = true → rest.spares = true) : Went desk next where
  follows := Follows.rewritten booked rows sequence keeps
    (fun row member => (state row member).mpr)
    fun row member isAccepted => Or.inl ((state row member).mp isAccepted)
  lost _ lost := (not_mem_lost (stay_rewritten rows keeps) lost).elim
  attended := by
    rw [holder]
    exact attending.on rows keeps (fun row member _ => state row member) mine accepted sent spares

theorem advance (sent : rest.settled = true → desk.Sent attempt.clientId)
    (spares : attempt.accepted = true → rest.spares = true) :
    Went desk (desk.outbox.advance later rest) := by
  have unchanged : desk.outbox.rows = desk.outbox.rows.map fun row => row :=
    (List.map_id' _).symm
  exact advances booked attending mine accepted unchanged rfl (fun _ => rfl)
    (fun _ _ => Iff.rfl) rfl sent spares

theorem wait : Went desk (desk.outbox.wait later) := by
  refine advance booked attending mine accepted ?_ ?_
  · rw [Stage.settled_waiting, accepted]
    exact fun was => attending.sent (Or.inl was)
  · rw [Stage.spares_waiting, accepted]
    exact fun was => was

theorem post : Went desk (desk.outbox.post later) := by
  have unchanged : desk.outbox.rows = desk.outbox.rows.map fun row => row :=
    (List.map_id' _).symm
  rw [OutboxSystem.post]
  split
  · exact advances booked attending mine accepted unchanged rfl (fun _ => rfl)
      (fun _ _ => Iff.rfl) rfl (fun settled => by cases settled) fun _ => rfl
  · exact wait booked attending mine accepted

end

section

variable (booked : Booked desk)
include booked

theorem enqueue (attended : Attended desk desk.outbox.holder) {id : ClientId} {body : String}
    {replyTo : Option MessageId} {files : Nat} {asked : List ClientId} :
    Went desk { desk.outbox.enqueue id body replyTo files with asked } := by
  rw [OutboxSystem.enqueue]
  split
  case isTrue => exact same booked rfl rfl (attended.same rfl)
  case isFalse new =>
    have fresh : ∀ row ∈ desk.outbox.rows, row.clientId ≠ id := by
      simpa using new
    refine ⟨Follows.added booked rfl rfl rfl rfl fresh, fun gone lost => ?_, ?_⟩
    · exact (not_mem_lost (fun row member =>
        ⟨row, List.mem_append_left _ member, rfl⟩) lost).elim
    · cases holder : desk.outbox.holder with
      | free | direct => trivial
      | sender attempt stage =>
          rw [holder] at attended
          obtain ⟨row, member, mine⟩ := attended.there
          refine ⟨⟨row, List.mem_append_left _ member, mine⟩, fun other also same => ?_,
            attended.sent, attended.spares⟩
          obtain stored | last := List.mem_append.mp also
          · exact attended.accepted other stored same
          · rw [List.mem_singleton.mp last] at same
            exact (fresh row member (mine.trans same.symm)).elim

theorem begins {attempt : Attempt} {stage : Stage} {ready : Option Epoch} {row : Row}
    (member : row ∈ desk.outbox.rows) (mine : attempt.clientId = row.clientId)
    (accepted : attempt.accepted = decide (row.state = .accepted))
    (sent : stage.settled = true → attempt.accepted = true)
    (spares : attempt.accepted = true → stage.spares = true) :
    Went desk ({ desk.outbox with ready }.advance attempt stage) := by
  refine same booked rfl rfl ⟨⟨row, member, mine.symm⟩, fun other also same => ?_,
    fun known => ?_, spares⟩
  · have : other = row :=
      List.inj_on_of_nodup_map booked.distinct also member (same.trans mine)
    rw [this, accepted, decide_eq_true_eq]
  · have isAccepted : attempt.accepted = true := known.elim (fun was => was) sent
    rw [accepted, decide_eq_true_eq] at isAccepted
    have := booked.accepted row member isAccepted
    rwa [← mine] at this

theorem acquire (free : desk.outbox.holder = .free) {epoch : Epoch} :
    Went desk ({ desk.outbox with ready := none }.acquire epoch) := by
  have stays : Went desk { desk.outbox with ready := none } := by
    refine same booked rfl rfl ?_
    rw [show ({ desk.outbox with ready := none } : OutboxSystem).holder = .free from free]
    trivial
  rw [OutboxSystem.acquire]
  split
  case h_1 => exact stays
  case h_2 row rest rows =>
    have member : row ∈ desk.outbox.rows := by
      rw [show desk.outbox.rows = row :: rest from rows]
      exact List.mem_cons_self
    dsimp only
    split
    case h_1 => exact stays
    case h_2 state =>
      split
      · exact begins booked member rfl rfl (by simp [Stage.settled]) fun _ => rfl
      · exact begins booked member rfl rfl (by simp) (by simp)
    case h_3 state =>
      exact begins booked member rfl rfl (by simp [Stage.settled]) (by simp [state])
    case h_4 state =>
      exact begins booked member rfl rfl (by simp [Stage.settled]) (by simp [state])

variable (attending : Attending desk attempt stage)
include attending

theorem readFiles : Went desk (desk.outbox.readFiles attempt) := by
  simp only [OutboxSystem.readFiles]
  split
  case isTrue => exact post booked attending rfl rfl
  case isFalse other =>
    split
    · exact post booked attending rfl rfl
    · exact advance booked attending rfl rfl (by simp [Stage.settled])
        fun isAccepted => (other isAccepted).elim

/-- An attempt that uploads is no resend. -/
theorem upload (fresh : attempt.accepted = false) {ids : List FileId} {result : Upload}
    (left : List (Option FileId)) : Went desk (desk.outbox.upload attempt ids result left) := by
  have spares {stage : Stage} (isAccepted : attempt.accepted = true) :
      stage.spares = true := by
    rw [fresh] at isAccepted
    cases isAccepted
  match left with
  | [] =>
      simp only [OutboxSystem.upload]
      split
      · exact advance booked attending rfl rfl (by simp [Stage.settled]) spares
      · exact post booked attending rfl rfl
  | some file :: rest =>
      exact advance booked attending rfl rfl (by simp [Stage.settled]) spares
  | none :: rest =>
      simp only [OutboxSystem.upload]
      split
      case isTrue => exact wait booked attending rfl rfl
      case isFalse =>
        cases result with
        | file file recorded =>
            dsimp only
            split
            · refine advances booked attending (Eq.refl attempt.clientId) rfl rfl rfl
                (fun row => ?_) (fun row _ => ?_) rfl (by simp [Stage.settled]) spares
              · split <;> rfl
              · split <;> rfl
            · exact wait booked attending rfl rfl
        | failed code => exact advance booked attending rfl rfl (by simp [Stage.settled]) spares
        | transient => exact wait booked attending rfl rfl

/-- An answer under the id that was sent has been heard; one under another fails no accepted
row. -/
theorem answered {answer : Answer}
    (heard : (attempt.clientId, answer) ∈ desk.answered)
    (echoes : ∀ message, answer = .ok message → attempt.accepted = true →
      desk.outbox.current attempt → message.clientId = attempt.clientId) :
    Went desk (desk.outbox.answered attempt answer) := by
  simp only [OutboxSystem.answered]
  split
  case isTrue => exact wait booked attending rfl rfl
  case isFalse current =>
    rw [not_not] at current
    cases answer with
    | transient => exact wait booked attending rfl rfl
    | refused code =>
        dsimp only
        split
        case isTrue detaches =>
          refine advance booked attending rfl rfl (by simp [Stage.settled]) fun isAccepted => ?_
          rw [detaches.2.2.1] at isAccepted
          cases isAccepted
        case isFalse =>
          split
          case isTrue isAccepted =>
            exact advance booked attending rfl rfl (fun _ => attending.sent (Or.inl isAccepted))
              fun _ => rfl
          case isFalse other =>
            exact advance booked attending rfl rfl (by simp [Stage.settled])
              fun isAccepted => (other isAccepted).elim
    | ok message =>
        dsimp only
        split
        case isTrue mine =>
          exact advance booked attending rfl rfl (fun _ => ⟨message, mine, heard⟩) fun _ => rfl
        case isFalse other =>
          exact advance booked attending rfl rfl (by simp [Stage.settled])
            fun isAccepted => (other (echoes message rfl isAccepted current)).elim

/-- A row that waits for its next attempt is not accepted, unless it was. -/
theorem mark (fresh : attempt.accepted = false) :
    let marked := desk.outbox.setState attempt.clientId .sending
    Went desk (if marked.current attempt then marked.advance attempt .reading
      else marked.wait attempt) := by
  have state : ∀ row ∈ desk.outbox.rows,
      ((if row.clientId = attempt.clientId then { row with state := .sending } else row).state =
        .accepted ↔ row.state = .accepted) := by
    intro row member
    split
    case isTrue mine => simp [attending.accepted row member mine, fresh]
    case isFalse => exact Iff.rfl
  have keeps : ∀ row : Row,
      (if row.clientId = attempt.clientId then { row with state := .sending } else row).key =
        row.key := by
    intro row
    split <;> rfl
  dsimp only
  split
  · exact advances booked attending (Eq.refl attempt.clientId) rfl rfl rfl keeps
      state rfl (by simp [Stage.settled]) fun _ => rfl
  · exact advances booked attending (Eq.refl attempt.clientId) rfl rfl rfl keeps
      state rfl (by simp [fresh]) (by simp [fresh])

theorem detach :
    Went desk ((desk.outbox.update attempt.clientId Row.detach).advance attempt .reading) := by
  refine advances booked attending (Eq.refl attempt.clientId) rfl rfl rfl
    (fun row => ?_) (fun row _ => ?_) rfl (by simp [Stage.settled]) fun _ => rfl
  · split <;> rfl
  · split <;> rfl

/-- The last write of an attempt records a success, or what was not one. -/
theorem settle {state : RowState} (settling : stage = .settling state) :
    Went desk (desk.outbox.setState attempt.clientId state).release := by
  have keeps : ∀ row : Row,
      (if row.clientId = attempt.clientId then { row with state } else row).key = row.key := by
    intro row
    split <;> rfl
  subst settling
  refine ⟨Follows.rewritten booked rfl rfl keeps (fun row member isAccepted => ?_)
    fun row member isAccepted => ?_, fun gone lost => ?_, trivial⟩
  · split
    case isTrue mine =>
      have := attending.spares ((attending.accepted row member mine).mp isAccepted)
      simpa [Stage.spares] using this
    case isFalse => exact isAccepted
  · split at isAccepted
    case isTrue mine =>
      rw [mine]
      exact Or.inr (attending.sent (Or.inr (by simpa [Stage.settled] using isAccepted)))
    case isFalse => exact Or.inl isAccepted
  · exact (not_mem_lost (stay_rewritten rfl keeps) lost).elim

/-- The sender drops only what was sent. -/
theorem drop (dropping : stage = .dropping) :
    Went desk (desk.outbox.remove attempt.clientId).release := by
  subst dropping
  refine ⟨Follows.removed booked rfl rfl, fun gone lost => ?_, trivial⟩
  rw [id_of_lost rfl lost]
  exact attending.sent (Or.inr rfl)

end

theorem reopen (booked : Booked desk) (attended : Attended desk desk.outbox.holder) :
    Went desk { desk.outbox with
      opened := true
      rows := desk.outbox.rows.map Row.reopen } := by
  refine ⟨Follows.rewritten booked rfl rfl Row.reopen_key
    (fun row _ => row.reopen_accepted.mpr)
    fun row _ isAccepted => Or.inl (row.reopen_accepted.mp isAccepted), fun gone lost => ?_, ?_⟩
  · exact (not_mem_lost (stay_rewritten rfl Row.reopen_key) lost).elim
  · cases holder : desk.outbox.holder with
    | free | direct => trivial
    | sender attempt stage =>
        rw [holder] at attended
        exact Attending.on attended rfl Row.reopen_key (fun row _ _ => row.reopen_accepted) rfl rfl
          (fun settled => attended.sent (Or.inr settled)) attended.spares

/-- Whatever the outbox does by itself. -/
theorem of_step (booked : Booked desk) (attended : Attended desk desk.outbox.holder)
    {action : OutboxAction} (own : action.byItself = true)
    (stepped : outboxStep desk.outbox action = some next) : Went desk next := by
  have fresh {attempt : Attempt} {stage : Stage} (attending : Attending desk attempt stage)
      (marks : stage.spares = false) : attempt.accepted = false := by
    rw [Bool.eq_false_iff]
    intro isAccepted
    rw [attending.spares isAccepted] at marks
    cases marks
  cases action with
  | retry | answer | setMember | setArchived | setQuotable | setAttachable | receive | resume
  | fail => cases own
  | enqueue id body replyTo files =>
      simp only [outboxStep] at stepped
      split at stepped
      · cases stepped
        exact enqueue booked attended
      · cases stepped
  | sendDirect id body replyTo =>
      simp only [outboxStep] at stepped
      split at stepped
      · cases stepped
        exact same booked rfl rfl trivial
      · cases stepped
  | directEnds =>
      simp only [outboxStep] at stepped
      split at stepped
      · cases stepped
        exact same booked rfl rfl trivial
      · cases stepped
  | signIn | signOut =>
      cases stepped
      exact same booked rfl rfl (attended.same rfl)
  | signedIn =>
      simp only [outboxStep] at stepped
      split at stepped
      · cases stepped
        exact same booked rfl rfl (attended.same rfl)
      · cases stepped
  | acquire read =>
      simp only [outboxStep] at stepped
      split at stepped
      case h_1 epoch ready free =>
        cases stepped
        split
        · exact acquire booked free
        · exact same booked rfl rfl (attended.same rfl)
      case h_2 => cases stepped
  | mark written =>
      simp only [outboxStep] at stepped
      split at stepped
      case h_1 attempt holder =>
        rw [holder] at attended
        cases stepped
        split
        · exact mark booked attended (fresh attended rfl)
        · exact same booked rfl rfl trivial
      case h_2 => cases stepped
  | readFiles read =>
      simp only [outboxStep] at stepped
      split at stepped
      case h_1 attempt holder =>
        rw [holder] at attended
        cases stepped
        split
        · exact readFiles booked attended
        · exact wait booked attended rfl rfl
      case h_2 => cases stepped
  | upload cancelled result =>
      simp only [outboxStep] at stepped
      split at stepped
      case h_1 attempt ids left holder =>
        rw [holder] at attended
        cases stepped
        split
        · refine advance booked attended rfl rfl (by simp [Stage.settled]) fun isAccepted => ?_
          rw [fresh attended rfl] at isAccepted
          cases isAccepted
        · exact upload booked attended (fresh attended rfl) left
      case h_2 => cases stepped
  | detach written =>
      simp only [outboxStep] at stepped
      split at stepped
      case h_1 attempt holder =>
        rw [holder] at attended
        cases stepped
        split
        · exact detach booked attended
        · exact wait booked attended rfl rfl
      case h_2 => cases stepped
  | ack written =>
      simp only [outboxStep] at stepped
      split at stepped
      case h_1 attempt holder =>
        rw [holder] at attended
        have sent := attended.sent (Or.inr rfl)
        cases stepped
        split
        · exact advance booked attended rfl rfl (fun _ => sent) fun _ => rfl
        · exact advance booked attended rfl rfl (fun _ => sent) fun _ => rfl
      case h_2 => cases stepped
  | drop written =>
      simp only [outboxStep] at stepped
      split at stepped
      case h_1 attempt holder =>
        rw [holder] at attended
        cases stepped
        split
        · exact drop booked attended rfl
        · split
          · exact same booked rfl rfl trivial
          · exact advance booked attended rfl rfl (fun _ => attended.sent (Or.inr rfl))
              fun _ => rfl
      case h_2 => cases stepped
  | settle written =>
      simp only [outboxStep] at stepped
      split at stepped
      case h_1 attempt state holder =>
        rw [holder] at attended
        cases stepped
        split
        · exact settle booked attended rfl
        · exact same booked rfl rfl trivial
      case h_2 => cases stepped
  | crash =>
      cases stepped
      exact same booked rfl rfl trivial
  | reopen =>
      simp only [outboxStep] at stepped
      split at stepped
      · cases stepped
      · cases stepped
        exact reopen booked attended

end Went

theorem free_of_step (free : outbox.holder = .free) {action : OutboxAction}
    (own : action.byItself = true) (lock : action.takesLock = false)
    (stepped : outboxStep outbox action = some next) : next.holder = .free := by
  cases action with
  | retry | answer | setMember | setArchived | setQuotable | setAttachable | receive | resume
  | fail => cases own
  | sendDirect | acquire => cases lock
  | enqueue id body replyTo files =>
      simp only [outboxStep, OutboxSystem.enqueue] at stepped
      split at stepped
      · split at stepped
        · cases stepped
          exact free
        · cases stepped
          exact free
      · cases stepped
  | signedIn | reopen =>
      simp only [outboxStep] at stepped
      split at stepped
      all_goals cases stepped
      exact free
  | signIn | signOut =>
      cases stepped
      exact free
  | crash =>
      cases stepped
      rfl
  | directEnds | mark | readFiles | upload | detach | ack | drop | settle =>
      simp [outboxStep, free] at stepped

/-! ### The calls -/

/-- Nothing that was told, or counted on, is taken back. -/
structure Grows (desk later : Desk) : Prop where
  answered : ∀ answer ∈ desk.answered, answer ∈ later.answered
  gone : ∀ gone ∈ desk.gone, gone ∈ later.gone

theorem Grows.moved {remover : Remover} : Grows desk (desk.moved next remover) :=
  ⟨fun _ member => member, fun _ member => List.mem_append_left _ member⟩

theorem Grows.sent {later : Desk} (grows : Grows desk later) (sent : desk.Sent id) :
    later.Sent id := by
  obtain ⟨message, mine, member⟩ := sent
  exact ⟨message, mine, grows.answered _ member⟩

theorem Grows.same {later : Desk} (answered : later.answered = desk.answered)
    (gone : later.gone = desk.gone) : Grows desk later :=
  ⟨fun _ member => answered ▸ member, fun _ member => gone ▸ member⟩

theorem Attended.grows {later : Desk} {holder : Holder} (attended : Attended desk holder)
    (rows : later.outbox.rows = desk.outbox.rows) (grows : Grows desk later) :
    Attended later holder := by
  cases holder with
  | free | direct => trivial
  | sender attempt stage =>
      refine ⟨?_, ?_, fun known => grows.sent (attended.sent known), attended.spares⟩
      · rw [rows]
        exact attended.there
      · rw [rows]
        exact attended.accepted

theorem Based.grows {later : Desk} {told : Told} (based : Based desk told)
    (grows : Grows desk later) : Based later told where
  alreadySent already := grows.sent (based.alreadySent already)
  removed removed := by
    obtain ⟨gone, member, rest⟩ := based.removed removed
    exact ⟨gone, grows.gone gone member, rest⟩

theorem Counted.grows {later : Desk} {call : CallId} {row : Call} (counted : Counted desk call row)
    (grows : Grows desk later) (holds : row.stage ≠ .waiting → later.held = some call) :
    Counted later call row where
  holds := holds
  found found removed := by
    obtain ⟨isDelete, sent, unsent⟩ := counted.found found removed
    refine ⟨isDelete, fun known => grows.sent (sent known), fun state known other => ?_⟩
    obtain ⟨gone, member, rest⟩ := unsent state known other
    exact ⟨gone, grows.gone gone member, rest⟩

theorem Based.truthful {told : Told} (based : Based desk told) (booked : Booked desk) :
    desk.Truthful told where
  alreadySent := based.alreadySent
  removed removed := by
    obtain ⟨gone, member, mine, remover, state⟩ := based.removed removed
    have other : gone.remover ≠ .sender := by
      rw [remover]
      simp
    refine ⟨gone, member, mine, remover, booked.unsent gone member other state, ?_⟩
    intro another also same
    rwa [List.inj_on_of_nodup_map booked.once also member same]

theorem known_of_alreadySent {found : Option RowState}
    (already : Desk.deletedOf found = .alreadySent) : found = none ∨ found = some .accepted := by
  cases found with
  | none => exact Or.inl rfl
  | some state =>
      cases state with
      | accepted => exact Or.inr rfl
      | pending | sending | failed => cases already

theorem known_of_removed {found : Option RowState} (removed : Desk.deletedOf found = .removed) :
    ∃ state, found = some state ∧ state ≠ .accepted := by
  cases found with
  | none => cases removed
  | some state =>
      refine ⟨state, rfl, ?_⟩
      rintro rfl
      cases removed

namespace Sound

theorem start : Sound Desk.start where
  booked := by constructor <;> simp [Desk.start, OutboxSystem.start]
  attended := trivial
  lock := by simp [Desk.start]
  calls := by simp [Desk.start]
  told := by simp [Desk.start]

/-- The outbox goes on by itself, under the calls. -/
theorem moved (sound : Sound desk) (went : Went desk next)
    (free : desk.outbox.holder = .free → desk.held ≠ none → next.holder = .free) :
    Sound (desk.moved next .sender) where
  booked := sound.booked.moved went.follows fun _ => went.lost
  attended := went.attended
  lock held := free (sound.lock held) held
  calls call row found := (sound.calls call row found).grows .moved (sound.calls call row found).holds
  told told member := (sound.told told member).grows .moved

theorem stopped (sound : Sound desk) : Sound desk.stopped where
  booked := { sound.booked with }
  attended := sound.attended.grows rfl (.same rfl rfl)
  lock held := (held rfl).elim
  calls _ _ found := by simp [Desk.stopped] at found
  told told member := (sound.told told member).grows (.same rfl rfl)

/-- A step of the calls: the outbox and the books stay. -/
theorem calling (sound : Sound desk) {calls : Table CallId Call} {begun : CallId}
    {held : Option CallId} {said : List Told} (lock : held ≠ none → desk.outbox.holder = .free)
    (counted : ∀ call row, calls.get? call = some row →
      Counted { desk with calls, begun, held, told := said } call row)
    (based : ∀ told ∈ said, Based desk told) :
    Sound { desk with calls, begun, held, told := said } where
  booked := { sound.booked with }
  attended := sound.attended.grows rfl (.same rfl rfl)
  lock := lock
  calls := counted
  told told member := (based told member).grows (.same rfl rfl)

theorem ends (sound : Sound desk) (call : CallId) : Sound (desk.ends call) := by
  refine sound.calling (fun held => ?_) (fun other row found => ?_) sound.told
  · split at held
    · exact (held rfl).elim
    · exact sound.lock held
  · simp only [Table.get?_filter, Option.filter_eq_some_iff, decide_eq_true_eq] at found
    refine (sound.calls other row found.1).grows (.same rfl rfl)
      fun stage => ?_
    have holds := (sound.calls other row found.1).holds stage
    dsimp only
    rw [if_neg, holds]
    rw [holds]
    exact fun same => found.2 (Option.some.inj same)

theorem tell (sound : Sound desk) {call : CallId} {id : ClientId} {deleted : Deleted}
    (based : Based desk ⟨call, id, deleted⟩) : Sound (desk.tell call id deleted) := by
  refine sound.calling sound.lock (fun other row found => ?_) fun told member => ?_
  · exact (sound.calls other row found).grows (.same rfl rfl)
      (sound.calls other row found).holds
  · obtain before | last := List.mem_append.mp member
    · exact sound.told told before
    · rw [List.mem_singleton.mp last]
      exact based

theorem look (sound : Sound desk) (id : ClientId) (command : Command) :
    Sound (desk.look id command) := by
  have next : Sound { desk with begun := desk.begun + 1 } :=
    sound.calling sound.lock (fun other row found =>
      (sound.calls other row found).grows (.same rfl rfl)
        (sound.calls other row found).holds) sound.told
  simp only [Desk.look]
  split
  · refine sound.calling sound.lock (fun other row found => ?_) sound.told
    rw [Table.get?_put] at found
    split at found
    · cases found
      exact ⟨fun stage => (stage rfl).elim, fun _ removed => by cases removed⟩
    · exact (sound.calls other row found).grows (.same rfl rfl) (sound.calls other row found).holds
  · split
    · refine next.tell ⟨?_, ?_⟩
      all_goals rintro ⟨⟩
    · exact next

theorem lock_taken (sound : Sound desk) {call : CallId} {id : ClientId} {command : Command}
    (held : desk.held = none) (free : desk.outbox.holder = .free) :
    Sound { desk with
      calls := desk.calls.put call ⟨id, command, .holding⟩
      held := some call } := by
  refine sound.calling (fun _ => free) (fun other row found => ?_) sound.told
  rw [Table.get?_put] at found
  split at found
  case isTrue same =>
    cases found
    exact ⟨fun _ => by rw [same], fun _ removed => by cases removed⟩
  case isFalse =>
    refine (sound.calls other row found).grows (.same rfl rfl)
      fun stage => ?_
    rw [(sound.calls other row found).holds stage] at held
    cases held

/-- Under the lock a call's write meets no attempt of the sender. -/
theorem written (sound : Sound desk) {call : CallId}
    (follows : Follows desk next) (free : next.holder = .free) :
    Sound (desk.moved next (.call call)) where
  booked := sound.booked.moved follows fun sender => by cases sender
  attended := by
    rw [show (desk.moved next (.call call)).outbox.holder = .free from free]
    trivial
  lock _ := free
  calls other row found := (sound.calls other row found).grows .moved
    (sound.calls other row found).holds
  told told member := (sound.told told member).grows .moved

theorem delete (sound : Sound desk) {call : CallId} {id : ClientId}
    (held : desk.held = some call)
    (sent : desk.outbox.stateOf id = none → desk.WentSent id) :
    Sound (desk.write call ⟨id, .delete, .holding⟩) := by
  have free : desk.outbox.holder = .free := sound.lock (by simp [held])
  have after : Sound (desk.moved (desk.outbox.remove id) (.call call)) :=
    sound.written (Follows.removed sound.booked rfl rfl) free
  have earlier : desk.outbox.stateOf id = none ∨ desk.outbox.stateOf id = some .accepted →
      desk.Sent id := by
    rintro (absent | accepted)
    · obtain ⟨gone, member, mine, lawful⟩ := sent absent
      rw [← mine]
      exact sound.booked.sent gone member lawful
    · obtain ⟨row, found, state⟩ := Option.map_eq_some_iff.mp accepted
      have mine : row.clientId = id := by simpa using List.find?_some found
      rw [← mine]
      exact sound.booked.accepted row (List.mem_of_find?_eq_some found) state
  refine after.calling after.lock (fun other row found => ?_) after.told
  rw [Table.get?_put] at found
  split at found
  case isFalse =>
    exact (after.calls other row found).grows (.same rfl rfl) (after.calls other row found).holds
  case isTrue same =>
    cases found
    subst same
    refine ⟨fun _ => held, fun found removed => ?_⟩
    cases removed
    refine ⟨rfl, earlier, fun state known unsent => ?_⟩
    obtain ⟨row, found, same⟩ := Option.map_eq_some_iff.mp known
    have mine : row.clientId = id := by simpa using List.find?_some found
    have lost : (⟨row.key, row.state, .call other⟩ : Gone) ∈
        desk.outbox.lost (desk.outbox.remove id) (.call other) := by
      refine mem_lost.mpr ⟨row, List.mem_of_find?_eq_some found, fun still member also => ?_, rfl⟩
      have kept := (List.mem_filter.mp member).2
      rw [decide_eq_true_eq] at kept
      exact kept ((congrArg Prod.snd also).trans mine)
    refine ⟨_, List.mem_append_right _ lost, mine, rfl, ?_⟩
    rw [same]
    exact unsent

theorem retry (sound : Sound desk) {call : CallId} {id : ClientId} {dropReply : Bool}
    (held : desk.held = some call) :
    Sound (desk.write call ⟨id, .retry dropReply, .holding⟩) := by
  have keeps : ∀ row : Row,
      (if row.clientId = id then row.retry dropReply else row).key = row.key := by
    intro row
    split
    · exact row.retry_key dropReply
    · rfl
  have state : ∀ row : Row, (if row.clientId = id then row.retry dropReply else row).state =
      .accepted ↔ row.state = .accepted := by
    intro row
    split
    · exact row.retry_accepted dropReply
    · exact Iff.rfl
  have follows : Follows desk (desk.outbox.update id (·.retry dropReply)) :=
    Follows.rewritten sound.booked rfl rfl keeps (fun row _ => (state row).mpr)
      fun row _ isAccepted => Or.inl ((state row).mp isAccepted)
  exact (sound.written follows (sound.lock (by simp [held]))).ends call

/-- An answer may say more than was known. -/
theorem hear (sound : Sound desk) (id : ClientId) (answer : Answer) :
    Sound (desk.hear id answer) := by
  have grows : Grows desk (desk.hear id answer) :=
    ⟨fun _ member => List.mem_append_left _ member, fun _ member => member⟩
  exact
    { booked :=
        { sound.booked with
          accepted := fun row member isAccepted =>
            grows.sent (sound.booked.accepted row member isAccepted)
          sent := fun gone member lawful => grows.sent (sound.booked.sent gone member lawful) }
      attended := sound.attended.grows rfl grows
      lock := sound.lock
      calls := fun call row found =>
        (sound.calls call row found).grows grows (sound.calls call row found).holds
      told := fun told member => (sound.told told member).grows grows }

theorem step (sound : Sound desk) {action : DeskAction} (fair : desk.Fair action)
    {later : Desk} (stepped : deskStep desk action = some later) : Sound later := by
  cases action with
  | outbox action =>
      simp only [deskStep] at stepped
      split at stepped
      case isFalse => cases stepped
      case isTrue own =>
        obtain ⟨next, went, rfl⟩ := Option.map_eq_some_iff.mp stepped
        have moved : Sound (desk.moved next .sender) := by
          refine sound.moved (Went.of_step sound.booked sound.attended own.1 went) ?_
          intro free held
          refine free_of_step free own.1 ?_ went
          exact Bool.eq_false_iff.mpr fun takes => held (own.2 takes)
        split
        · exact moved.stopped
        · exact moved
  | answer answer =>
      simp only [deskStep] at stepped
      split at stepped
      case h_2 => cases stepped
      case h_1 attempt request holder =>
        cases stepped
        have heard := sound.hear attempt.clientId answer
        have attended := heard.attended
        rw [show (desk.hear attempt.clientId answer).outbox.holder = _ from holder] at attended
        refine heard.moved (Went.answered heard.booked attended
          (List.mem_append_right _ (List.mem_singleton.mpr rfl)) ?_) fun free => ?_
        · rintro message rfl isAccepted current
          refine fair attempt.clientId ?_
          rw [Desk.resending, holder]
          exact if_pos ⟨isAccepted, current⟩
        · rw [show (desk.hear attempt.clientId answer).outbox.holder = _ from holder] at free
          cases free
  | look id command read =>
      simp only [deskStep] at stepped
      split at stepped
      case isFalse => cases stepped
      case isTrue =>
        cases stepped
        split
        · exact sound.look id command
        · exact sound
  | lock call =>
      simp only [deskStep] at stepped
      split at stepped
      case h_2 => cases stepped
      case h_1 =>
        split at stepped
        case isFalse => cases stepped
        case isTrue idle =>
          cases stepped
          exact sound.lock_taken idle.1 idle.2
  | write call written =>
      simp only [deskStep] at stepped
      split at stepped
      case h_2 => cases stepped
      case h_1 id command found =>
        cases stepped
        have held : desk.held = some call := (sound.calls call _ found).holds (by simp)
        cases written with
        | false => exact sound.ends call
        | true =>
            cases command with
            | delete => exact sound.delete held fun absent => fair _ found rfl absent
            | retry dropReply => exact sound.retry held
  | finish call =>
      simp only [deskStep] at stepped
      split at stepped
      case h_2 => cases stepped
      case h_1 id command found there =>
        cases stepped
        obtain ⟨-, sent, unsent⟩ := (sound.calls call _ there).found found rfl
        refine (sound.tell ⟨fun already => sent ?_, fun removed => ?_⟩).ends call
        · exact known_of_alreadySent already
        · obtain ⟨state, known, other⟩ := known_of_removed removed
          exact unsent state known other
  | abandon call =>
      simp only [deskStep] at stepped
      split at stepped
      · cases stepped
        exact sound.ends call
      · cases stepped

end Sound

/-- Where every delete that finds its row gone finds it sent, and no resend of an accepted row
is answered under another id, `delete_pending` answers `AlreadySent` only for what the server
took, and `Removed` only for what it removed itself and was never known to be sent. -/
theorem delete_pending_truthful (actions : List DeskAction) (desk : Desk)
    (fair : Transition.Along deskStep Desk.Fair Desk.start actions)
    (reached : Transition.run deskStep Desk.start actions = some desk) :
    ∀ told ∈ desk.told, desk.Truthful told := by
  have sound : Sound desk :=
    Transition.run_invariant (fun sound fair stepped => sound.step fair stepped) Sound.start
      fair reached
  exact fun told member => (sound.told told member).truthful sound.booked

/-- A row that goes out while its delete waits for the lock. -/
theorem delete_pending_waits_for_the_answer :
    ∃ desk, Transition.run deskStep Desk.start
      [.outbox (.enqueue 7 "hi" none 0), .outbox .signIn, .outbox .signedIn,
        .outbox (.acquire true), .outbox (.mark true), .outbox (.readFiles true),
        .look 7 .delete true, .answer (.ok ⟨7, "hi", none⟩), .outbox (.ack true),
        .outbox (.drop true), .lock 0, .write 0 true, .finish 0] = some desk ∧
      desk.told = [⟨0, 7, .alreadySent⟩] ∧ ∀ told ∈ desk.told, desk.Truthful told := by
  refine ⟨_, rfl, rfl, delete_pending_truthful
    [.outbox (.enqueue 7 "hi" none 0), .outbox .signIn, .outbox .signedIn,
      .outbox (.acquire true), .outbox (.mark true), .outbox (.readFiles true),
      .look 7 .delete true, .answer (.ok ⟨7, "hi", none⟩), .outbox (.ack true),
      .outbox (.drop true), .lock 0, .write 0 true, .finish 0] _ (by decide) rfl⟩

/-- Of two deletes of one row the second finds it gone, and calls it sent; and a resend that
is answered under another id makes an accepted row one that can be removed. -/
theorem second_delete_claims_sent :
    (∃ desk, Transition.run deskStep Desk.start
      [.outbox (.enqueue 7 "hi" none 0), .look 7 .delete true, .look 7 .delete true, .lock 0,
        .write 0 true, .finish 0, .lock 1, .write 1 true, .finish 1] = some desk ∧
      ∃ told ∈ desk.told, ¬ desk.Truthful told) ∧
    ∃ desk, Transition.run deskStep Desk.start
      [.outbox (.enqueue 7 "hi" none 0), .outbox .signIn, .outbox .signedIn,
        .outbox (.acquire true), .outbox (.mark true), .outbox (.readFiles true),
        .answer (.ok ⟨7, "hi", none⟩), .outbox (.ack false), .outbox (.settle true),
        .outbox .signedIn, .outbox (.acquire true), .outbox (.readFiles true),
        .answer (.ok ⟨8, "", none⟩), .outbox (.settle true),
        .look 7 .delete true, .lock 0, .write 0 true, .finish 0] = some desk ∧
      ∃ told ∈ desk.told, ¬ desk.Truthful told := by
  constructor
  · refine ⟨_, rfl, ⟨1, 7, .alreadySent⟩, by decide, fun truthful => ?_⟩
    obtain ⟨message, -, member⟩ := truthful.alreadySent rfl
    cases member
  · refine ⟨_, rfl, ⟨0, 7, .removed⟩, by decide, fun truthful => ?_⟩
    obtain ⟨gone, member, -, -, unsent⟩ := truthful.removed rfl
    rw [List.mem_singleton.mp member] at unsent
    exact unsent.1 (by decide)

end Brook.Outbox
