import Brook.Transport.Traced
import Mathlib.Data.List.Perm.Basic

namespace Brook.Transport

open Brook.CallTask (CommandError)
open Brook.Ws (Json)

/-! Every command is in one place: before the queue, in it, waiting for its reply, or told. -/

def asks (reply : Channel) (out : Outgoing) : Bool :=
  out.wanted.any fun wanted => wanted.reply = reply

def Wanted.on (reply : Channel) (wanted : Wanted) : Bool := decide (wanted.reply = reply)

def Event.settles (reply : Channel) : Event → Bool
  | .result other _ _ => other = reply
  | _ => false

/-- In how many places the command of this channel is. -/
def Client.tally (client : Client) (reply : Channel) : Nat :=
  client.admitted.countP (asks reply) + client.queue.countP (asks reply) +
    client.pending.countP (Wanted.on reply) + client.log.countP (Event.settles reply)

structure Once (client : Client) : Prop where
  atMost : ∀ reply, client.tally reply ≤ 1
  unused : ∀ reply, client.replies ≤ reply → client.tally reply = 0
  kept : ∀ reply < client.replies, client.tally reply = 0 → reply ∈ client.gaveUp

/-- A move keeps every command in its one place, or makes a new one; it may drop one whose caller
gave up. -/
structure Balanced (client next : Client) : Prop where
  gaveUp : client.gaveUp ⊆ next.gaveUp
  tally : (next.replies = client.replies ∧ ∀ reply, next.tally reply = client.tally reply ∨
      next.tally reply ≤ client.tally reply ∧ reply ∈ client.gaveUp) ∨
    (next.replies = client.replies + 1 ∧ ∀ reply,
      next.tally reply = client.tally reply + if client.replies = reply then 1 else 0)

variable {client next : Client} {link : Link} {reply : Channel}

theorem Once.balanced (once : Once client) (balanced : Balanced client next) : Once next := by
  rcases balanced.tally with ⟨same, counts⟩ | ⟨more, counts⟩
  · refine ⟨fun reply => ?_, fun reply unused => ?_, fun reply made absent => ?_⟩
    · have before := once.atMost reply
      rcases counts reply with is | ⟨is, -⟩ <;> omega
    · have before := once.unused reply (by omega)
      rcases counts reply with is | ⟨is, -⟩ <;> omega
    · rcases counts reply with is | ⟨-, gone⟩
      · exact balanced.gaveUp (once.kept reply (by omega) (by omega))
      · exact balanced.gaveUp gone
  · refine ⟨fun reply => ?_, fun reply unused => ?_, fun reply made absent => ?_⟩
    · have before := once.atMost reply
      have fresh := once.unused reply
      have now := counts reply
      split at now <;> omega
    · have before := once.unused reply (by omega)
      have now := counts reply
      split at now <;> omega
    · have now := counts reply
      split at now
      · omega
      · exact balanced.gaveUp (once.kept reply (by omega) (by omega))

theorem Balanced.still (gaveUp : client.gaveUp ⊆ next.gaveUp)
    (replies : next.replies = client.replies)
    (counts : ∀ reply, next.tally reply = client.tally reply) : Balanced client next :=
  ⟨gaveUp, .inl ⟨replies, fun reply => .inl (counts reply)⟩⟩

/-! ### Counting -/

theorem Event.Aside.unsettling {event : Event} (aside : event.Aside) :
    event.settles reply = false := by
  cases aside <;> rfl

theorem settles_result (wanted : Wanted) (moment : Nat) (outcome : Except CommandError Reply) :
    (Event.result wanted.reply moment outcome).settles reply = wanted.on reply := by
  simp [Event.settles, Wanted.on]

theorem countP_aside {events : List Event} (aside : ∀ event ∈ events, event.Aside) :
    events.countP (Event.settles reply) = 0 := by
  rw [List.countP_eq_zero]
  exact fun event mem => by simp [(aside event mem).unsettling]

theorem countP_settled (now : Nat) (waiting : List Wanted) (error : CommandError) :
    (Client.settled now waiting error).countP (Event.settles reply) =
      waiting.countP (Wanted.on reply) := by
  simp only [Client.settled, List.countP_map]
  rfl

theorem countP_wanted (out : Outgoing) :
    out.wanted.toList.countP (Wanted.on reply) = if asks reply out then 1 else 0 := by
  cases wanted : out.wanted with
  | none => simp [asks, wanted]
  | some wanted => simp [asks, wanted, Wanted.on, List.countP_cons]

theorem countP_eraseIdx (reply : Channel) {index : Nat} {out : Outgoing} {outs : List Outgoing}
    (waits : outs[index]? = some out) :
    outs.countP (asks reply) =
      (outs.eraseIdx index).countP (asks reply) + if asks reply out then 1 else 0 := by
  obtain ⟨inside, rfl⟩ := List.getElem?_eq_some_iff.mp waits
  have counted := (List.getElem_cons_eraseIdx_perm inside).countP_eq (asks reply)
  rw [List.countP_cons] at counted
  omega

theorem countP_pending (reply : Channel) {id : String} {waiting : Pending}
    (waits : link.pending.get? id = some waiting) :
    (link.pending.values.map Pending.wanted).countP (Wanted.on reply) =
      ((link.pending.filter fun other _ => decide (other ≠ id)).values.map Pending.wanted).countP
        (Wanted.on reply) + if waiting.wanted.on reply then 1 else 0 := by
  have counted := ((Table.values_perm waits).map Pending.wanted).countP_eq (Wanted.on reply)
  rw [List.map_cons, List.countP_cons] at counted
  omega

theorem pending_of_link (isOpen : client.link = some link) :
    client.pending = link.pending.values.map Pending.wanted := by
  rw [Client.pending, isOpen]

theorem pending_of_closed (closed : client.link = none) : client.pending = [] := by
  rw [Client.pending, closed]

/-! ### Every move -/

theorem Aside.balanced (aside : Aside client next) : Balanced client next := by
  obtain ⟨more, log, quiet, gaveUp⟩ := aside.log
  refine .still (fun reply mem => (gaveUp reply).mpr (.inl mem)) aside.replies fun reply => ?_
  have pending : next.pending = client.pending := by
    cases isOpen : client.link with
    | none => rw [pending_of_closed isOpen, pending_of_closed (aside.closed isOpen)]
    | some link =>
        obtain ⟨later, is, same⟩ := aside.link link isOpen
        rw [pending_of_link isOpen, pending_of_link is, same.pending]
  rw [Client.tally, Client.tally, aside.admitted, aside.queue, pending, log, List.countP_append,
    countP_aside quiet, Nat.add_zero]

theorem expire_balanced (isOpen : client.link = some link) :
    Balanced client (client.expire link) := by
  rw [Client.expire, Client.failAll_eq]
  refine .still (fun _ => id) rfl fun reply => ?_
  have split := List.countP_eq_countP_filter_add link.pending.rows
    (fun entry => entry.2.wanted.on reply)
    (fun entry => decide (entry.2.deadline ≤ client.now))
  rw [Client.tally, Client.tally, pending_of_link isOpen]
  simp only [Client.pending, List.countP_append, countP_settled, Table.values, Table.filter,
    List.map_map, List.countP_map]
  simp only [Function.comp_def] at split ⊢
  omega

theorem finish_balanced (isOpen : client.link = some link) :
    Balanced client (client.finish link) := by
  rw [Client.finish, Client.failAll_eq]
  refine .still (fun _ => id) rfl fun reply => ?_
  rw [Client.tally, Client.tally, pending_of_link isOpen]
  simp only [Client.pending, List.countP_append, countP_settled, Client.note, List.countP_nil,
    List.countP_singleton, Event.settles]
  simp
  omega

theorem stop_balanced : Balanced client client.stop := by
  rw [Client.stop, Client.failAll_eq]
  refine .still (fun _ => id) rfl fun reply => ?_
  have asked : (client.queue.filterMap Outgoing.wanted).countP (Wanted.on reply) =
      client.queue.countP (asks reply) := by
    rw [List.countP_filterMap]
    refine List.countP_congr fun out _ => ?_
    cases wanted : out.wanted <;> simp [asks, wanted, Wanted.on]
  simp only [Client.tally, List.countP_append, countP_settled, Client.note, List.countP_nil,
    List.countP_singleton, Event.settles, asked]
  simp [Client.pending]
  omega

theorem Move.balanced (sound : Sound client) (move : Move client next) : Balanced client next := by
  cases move with
  | aside aside => exact aside.balanced
  | refused =>
      refine ⟨fun _ => id, .inr ⟨rfl, fun reply => ?_⟩⟩
      simp only [Client.tally, Client.answer, Client.note, List.countP_append,
        List.countP_singleton, Event.settles, Client.pending, decide_eq_true_eq]
      omega
  | asked out wanted asked fresh =>
      refine ⟨fun _ => id, .inr ⟨rfl, fun reply => ?_⟩⟩
      simp only [Client.tally, Client.note, List.countP_append, List.countP_singleton,
        Event.settles, Client.pending, asks, asked, fresh, Option.any_some, decide_eq_true_eq]
      simp
      omega
  | notified out asked =>
      refine .still (fun _ => id) rfl fun reply => ?_
      simp [Client.tally, Client.note, List.countP_append, Event.settles, Client.pending, asks,
        asked]
  | queued index out waits =>
      refine .still (fun _ => id) rfl fun reply => ?_
      have counted := countP_eraseIdx reply waits
      simp only [Client.tally, Client.note, List.countP_append, List.countP_singleton,
        Event.settles, Client.pending]
      simp
      omega
  | turnedAway index out error waits =>
      rw [Client.fail_eq]
      refine .still (fun _ => id) rfl fun reply => ?_
      have counted := countP_eraseIdx reply waits
      simp only [Client.tally, List.countP_append, countP_settled, countP_wanted, Client.pending]
      omega
  | skipped out rest first closed =>
      refine ⟨fun _ => id, .inl ⟨rfl, fun reply => ?_⟩⟩
      rw [Client.tally, Client.tally, first, List.countP_cons]
      simp only [Client.pending]
      by_cases asked : asks reply out = true
      · refine .inr ⟨by omega, ?_⟩
        simp only [asks, Option.any_eq_true, decide_eq_true_eq] at asked
        obtain ⟨wanted, is, rfl⟩ := asked
        simpa [Client.isClosed, is] using closed
      · exact .inl (by simp [asked])
  | unsent link out rest error ids isOpen first =>
      rw [Client.fail_eq]
      refine .still (fun _ => id) rfl fun reply => ?_
      rw [Client.tally, Client.tally, pending_of_link isOpen, first, List.countP_cons]
      simp only [Client.pending, List.countP_append, countP_settled, countP_wanted]
      omega
  | wrote link out rest took isOpen first =>
      refine .still (fun _ => id) rfl fun reply => ?_
      have fresh : link.pending.get? (Client.frameId out.generation (link.nextId + 1)) = none :=
        Option.eq_none_iff_forall_ne_some.mpr fun waiting waits =>
          link.not_gave_next out.generation ((sound.link link isOpen).pending _ waiting waits)
      rw [Client.tally, Client.tally, pending_of_link isOpen, first, List.countP_cons]
      cases asked : out.wanted with
      | none => simp [Client.pending, Client.register, Client.note, Event.settles, asks, asked]
      | some wanted =>
          simp only [Client.pending, Client.register, Client.note, List.countP_append,
            Table.values_put_of_absent _ fresh, List.map_cons, List.countP_cons, Event.settles,
            List.countP_nil, asks, asked, Option.any_some, Wanted.on]
          simp
          omega
  | reauth link took isOpen =>
      refine .still (fun _ => id) rfl fun reply => ?_
      rw [Client.tally, Client.tally, pending_of_link isOpen]
      simp [Client.pending, Client.note, Event.settles]
  | received link frame isOpen =>
      refine .still (fun _ => id) rfl fun reply => ?_
      rw [Client.tally, Client.tally]
      simp [Client.pending, Client.note, Event.settles]
  | replied link frame re waiting routes more isOpen answers waits aside still listens =>
      refine .still (fun _ => id) rfl fun reply => ?_
      have counted := countP_pending reply waits
      rw [Client.tally, Client.tally, pending_of_link isOpen]
      simp only [Client.pending, Client.answer, Client.note, List.countP_append, List.countP_cons,
        countP_aside aside, settles_result, List.countP_nil]
      simp only [Event.settles, Bool.false_eq_true, if_false]
      omega
  | left link frame re waiting isOpen answers waits closed =>
      refine ⟨fun _ => id, .inl ⟨rfl, fun reply => ?_⟩⟩
      have counted := countP_pending reply waits
      rw [Client.tally, Client.tally, pending_of_link isOpen]
      simp only [Client.pending, List.countP_append, List.countP_cons, Event.settles,
        List.countP_nil]
      by_cases asked : waiting.wanted.on reply = true
      · refine .inr ⟨by simp only [Bool.false_eq_true, if_false]; omega, ?_⟩
        simp only [Wanted.on, decide_eq_true_eq] at asked
        simpa [Client.isClosed, asked] using closed
      · refine .inl ?_
        simp only [asked, Bool.false_eq_true, if_false] at counted ⊢
        omega
  | failed link name waiting isOpen waits =>
      rw [Client.fail_eq]
      refine .still (fun _ => id) rfl fun reply => ?_
      have counted := countP_pending reply waits
      rw [Client.tally, Client.tally, pending_of_link isOpen]
      simp only [Client.pending, List.countP_append, countP_settled, Option.toList_some,
        List.countP_singleton]
      omega
  | expired link isOpen => exact expire_balanced isOpen
  | ended link isOpen => exact finish_balanced isOpen
  | opened closed =>
      refine .still (fun _ => id) rfl fun reply => ?_
      rw [Client.tally, Client.tally, pending_of_closed closed]
      have none_yet : (∅ : Table String Pending).values = [] := rfl
      simp [Client.pending, Client.connect, Client.note, Event.settles, none_yet]
  | becameReady link isOpen =>
      refine .still (fun _ => id) rfl fun reply => ?_
      rw [Client.tally, Client.tally]
      simp [Client.pending, Client.becomeReady, Client.note, Event.settles]
  | stopped => exact stop_balanced

theorem Once.start (view : SignedIn.View) : Once (start view) where
  atMost reply := by simp [Client.tally, Client.pending, Transport.start]
  unused reply _ := by simp [Client.tally, Client.pending, Transport.start]
  kept reply made := by simp [Transport.start] at made

theorem Once.move (sound : Sound client) (once : Once client) (move : Move client next) :
    Once next := once.balanced (move.balanced sound)

end Brook.Transport
