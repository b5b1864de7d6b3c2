import Brook.Transport.Honest
import Brook.Transport.Placed

namespace Brook.Transport

open Brook.CallTask (CommandError)
open Brook.SignedIn (Session Store View)
open Brook.Transition (Justified run)
open Brook.Ws (Json)

/-! Over every run: what callers are told, and where their commands went. -/

structure Accounts (client : Client) : Prop where
  once : Once client
  honest : Honest client
  placed : Placed client

theorem Honest.start (view : View) : Honest (start view) where
  justified := Justified.nil
  unused reply _ event mem := by cases mem
  unwritten out mem := by cases mem
  awaited link id waiting is := by cases is

theorem run_accounts {encode : Fields → String} {view : View} {actions : List Action}
    {client : Client} (reached : run (step encode) (start view) actions = some client) :
    Sound client ∧ Accounts client :=
  run_invariant ⟨.start view, .start view, .start view⟩
    (fun sound held move => ⟨held.once.move sound move, held.honest.move sound held.once move,
      held.placed.move sound move⟩) reached

variable {client : Client}

theorem carries_iff {event : Event} {reply : Channel} :
    event.carries reply ↔ ∃ socket id out moment wanted,
      event = .wrote socket id (.command out moment) ∧ out.wanted = some wanted ∧
        wanted.reply = reply := by
  constructor
  · intro carries
    cases event with
    | wrote socket id what =>
        cases what with
        | command out moment =>
            simp only [Event.carries, asks, Option.any_eq_true, decide_eq_true_eq] at carries
            obtain ⟨wanted, asked, on⟩ := carries
            exact ⟨socket, id, out, moment, wanted, rfl, asked, on⟩
        | auth => exact carries.elim
        | leave => exact carries.elim
    | _ => exact carries.elim
  · rintro ⟨socket, id, out, moment, wanted, rfl, asked, rfl⟩
    simp [Event.carries, asks, asked]

/-- A command that is written was neither written before nor told anything. -/
theorem Honest.before_write (honest : Honest client) {front back : List Event} {socket : Nat}
    {id : String} {out : Outgoing} {written : Nat} {wanted : Wanted}
    (split : client.log = front ++ .wrote socket id (.command out written) :: back)
    (asked : out.wanted = some wanted) {event : Event} (mem : event ∈ front) :
    ¬ event.carries wanted.reply ∧ event.settles wanted.reply = false := by
  have reason : Because front (.wrote socket id (.command out written)) :=
    honest.justified front _ back split
  exact reason wanted asked event mem

/-- The command was given to one socket only, once. -/
theorem Honest.wrote_once (honest : Honest client) {socket other : Nat} {id otherId : String}
    {out another : Outgoing} {written moment : Nat} {wanted own : Wanted}
    (mem : .wrote socket id (.command out written) ∈ client.log)
    (otherMem : .wrote other otherId (.command another moment) ∈ client.log)
    (asked : out.wanted = some wanted) (owned : another.wanted = some own)
    (same : own.reply = wanted.reply) : other = socket ∧ otherId = id := by
  obtain ⟨front, back, split⟩ := List.append_of_mem mem
  rw [split] at otherMem
  rcases List.mem_append.mp otherMem with before | here
  · refine absurd (carries_iff.mpr ⟨_, _, _, _, own, rfl, owned, same⟩)
      (honest.before_write split asked before).1
  rcases List.mem_cons.mp here with is | after
  · cases is
    exact ⟨rfl, rfl⟩
  obtain ⟨between, rest, rfl⟩ := List.append_of_mem after
  have later : client.log = (front ++ .wrote socket id (.command out written) :: between) ++
      .wrote other otherId (.command another moment) :: rest := by simp [split]
  refine absurd (carries_iff.mpr ⟨_, _, _, _, wanted, rfl, asked, same.symm⟩)
    (honest.before_write later owned (List.mem_append_right front List.mem_cons_self)).1

theorem Told.never {front : List Event} {reply : Channel} {moment : Nat} {error : CommandError}
    (told : Told front reply moment (.error error))
    (why : error = .notSent ∨ error = .tooLarge ∨ error = .busy) :
    ∀ event ∈ front, ¬ event.carries reply := by
  generalize is : (Except.error error : Except CommandError Reply) = outcome at told
  cases told with
  | unwritten _ _ never => exact never
  | answered socket id wanted written frame earlier more on waits answers heard =>
      rw [replyIn, Client.outcomeOf] at is
      split at is
      · cases is
        rcases why with is | is | is <;> cases is
      · split at is
        · cases is
        · cases is
          rcases why with is | is | is <;> cases is
  | timeout | unknown | stopped =>
      cases is
      rcases why with is | is | is <;> cases is

/-- Once a command is told that no socket was given it, none ever is. -/
theorem Honest.never_written (honest : Honest client) {front back : List Event} {reply : Channel}
    {moment : Nat} {error : CommandError}
    (split : client.log = front ++ .result reply moment (.error error) :: back)
    (why : error = .notSent ∨ error = .tooLarge ∨ error = .busy) {event : Event}
    (mem : event ∈ client.log) : ¬ event.carries reply := by
  have told : Told front reply moment (.error error) := honest.justified front _ back split
  rw [split] at mem
  rcases List.mem_append.mp mem with inside | here
  · exact told.never why event inside
  rcases List.mem_cons.mp here with rfl | after
  · exact id
  intro carries
  obtain ⟨socket, id, out, written, wanted, rfl, asked, rfl⟩ := carries_iff.mp carries
  obtain ⟨between, rest, rfl⟩ := List.append_of_mem after
  have later : client.log = (front ++ .result wanted.reply moment (.error error) :: between) ++
      .wrote socket id (.command out written) :: rest := by simp [split]
  have unsettled := (honest.before_write later asked
    (List.mem_append_right front List.mem_cons_self)).2
  simp [Event.settles] at unsettled

/-- A command written on a socket that has ended was told something, or nobody waits. -/
theorem Accounts.told_of_ended (accounts : Accounts client) {socket : Nat} {id : String}
    {out : Outgoing} {written : Nat} {wanted : Wanted}
    (mem : .wrote socket id (.command out written) ∈ client.log)
    (asked : out.wanted = some wanted) (isOver : .ended socket ∈ client.log) :
    wanted.reply ∈ client.gaveUp ∨
      ∃ moment outcome, .result wanted.reply moment outcome ∈ client.log := by
  obtain ⟨once, honest, placed⟩ := accounts
  have carried := carries_iff.mpr ⟨socket, id, out, written, wanted, rfl, asked, rfl⟩
  have made : wanted.reply < client.replies := by
    by_contra unmade
    exact honest.unused wanted.reply (not_lt.mp unmade) _ mem carried
  by_cases told : client.log.countP (Event.settles wanted.reply) = 0
  · left
    refine once.kept wanted.reply made ?_
    have unqueued : ∀ out' ∈ client.admitted ++ client.queue, asks wanted.reply out' ≠ true := by
      intro other waits asking
      simp only [asks, Option.any_eq_true, decide_eq_true_eq] at asking
      obtain ⟨own, owned, same⟩ := asking
      exact honest.unwritten other waits own owned _ mem (same ▸ carried)
    have unpending : client.pending.countP (Wanted.on wanted.reply) = 0 := by
      rw [List.countP_eq_zero]
      intro own pending on
      simp only [Wanted.on, decide_eq_true_eq] at on
      cases isOpen : client.link with
      | none =>
          rw [pending_of_closed isOpen] at pending
          cases pending
      | some link =>
          rw [pending_of_link isOpen] at pending
          obtain ⟨waiting, stored, rfl⟩ := List.mem_map.mp pending
          obtain ⟨name, found⟩ := Table.mem_values.mp stored
          obtain ⟨moment, -, front, another, back, split, owned, -⟩ :=
            honest.awaited link name waiting isOpen found
          have inside : .wrote client.sockets name (.command another moment) ∈ client.log := by
            rw [split]
            simp
          have here := (honest.wrote_once mem inside asked owned on).1
          rw [(placed.ended socket isOver).2 here.symm] at isOpen
          cases isOpen
    have unadmitted := List.countP_eq_zero.mpr fun other inside =>
      unqueued other (List.mem_append_left _ inside)
    have unwaiting := List.countP_eq_zero.mpr fun other inside =>
      unqueued other (List.mem_append_right _ inside)
    rw [Client.tally, unadmitted, unwaiting, unpending, told]
  · right
    obtain ⟨event, inside, settles⟩ := List.countP_pos_iff.mp (Nat.pos_of_ne_zero told)
    cases event with
    | result reply moment outcome =>
        have same : reply = wanted.reply := of_decide_eq_true settles
        exact ⟨moment, outcome, same ▸ inside⟩
    | _ => cases settles

/-- A store that holds a session. -/
def signedIn : View :=
  ⟨0, { Store.new with session := some ⟨⟨0, 0⟩, ⟨0, 0⟩⟩ }, ⟨none, false, none, 0⟩⟩

def connected : List Action :=
  [.mark, .connect, .text (some (.obj [("type", .str "ready")])) true 0]

/-- A command that is answered, then the end of the connection. -/
def answered : List Action :=
  connected ++ [.request 1 [("type", .str "call.leave")] "call.ok" none, .enqueue 0,
    .take .done 3,
    .text (some (.obj [("type", .str "call.ok"), ("re", .str (Client.frameId 1 1))])) true 0,
    .close]

/-- Commands leave in the order of the queue, each at most once, under an id that is never used
again, and only on the one socket of the generation they were made for. -/
theorem commands_placed {encode : Fields → String} {view : View} {actions : List Action}
    {client : Client} (reached : run (step encode) (start view) actions = some client) :
    (∀ front socket id out written back,
      client.log = front ++ .wrote socket id (.command out written) :: back →
        .admitted out ∈ front ∧ .ready socket out.generation ∈ front ∧ .ended socket ∉ front) ∧
      (∀ socket other generation, .ready socket generation ∈ client.log →
        .ready other generation ∈ client.log → socket = other) ∧
      (client.log.filterMap Event.id?).Nodup ∧
      (client.log.filterMap Event.written?).Sublist (client.log.filterMap Event.queued?) := by
  obtain ⟨-, accounts⟩ := run_accounts reached
  refine ⟨fun front socket id out written back split => ?_, accounts.placed.owner,
    accounts.placed.ids, ?_⟩
  · exact accounts.placed.justified front _ back split
  · exact (List.sublist_append_left _ _).trans accounts.placed.inOrder

theorem commands_placed_answered :
    ∃ client, run (step fun _ => "") (start signedIn) answered = some client ∧
      client.log.filterMap Event.id? = [Client.frameId 1 1] ∧
      (client.log.filterMap Event.written?).Sublist (client.log.filterMap Event.queued?) :=
  ⟨_, rfl, rfl, (commands_placed (show run (step fun _ => "") (start signedIn) answered = some _
    from rfl)).2.2.2⟩

end Brook.Transport
