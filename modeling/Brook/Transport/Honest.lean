import Brook.Transition.Log
import Brook.Transport.Once

namespace Brook.Transport

open Brook.CallTask (CommandError)
open Brook.SignedIn (View)
open Brook.Transition (Justified run)
open Brook.Ws (Json)

/-! What a caller is told about its command is what happened to it. -/

/-- The command of this channel is given to a socket. -/
def Event.carries (reply : Channel) : Event → Prop
  | .wrote _ _ (.command out _) => asks reply out = true
  | _ => False

/-- The command was written on this socket, and no frame with its id was received there since. -/
def Unanswered (log : List Event) (socket : Nat) (id : String) (wanted : Wanted) (written : Nat) :
    Prop :=
  ∃ front out back, log = front ++ .wrote socket id (.command out written) :: back ∧
    out.wanted = some wanted ∧ ∀ frame, .received socket frame ∈ back → reOf frame ≠ some id

/-- What must have happened for a caller to be told this. -/
inductive Told (before : List Event) (reply : Channel) (moment : Nat) :
    Except CommandError Reply → Prop
  /-- No byte of it was given to any socket. -/
  | unwritten (error : CommandError)
      (why : error = .notSent ∨ error = .tooLarge ∨ error = .busy)
      (never : ∀ event ∈ before, ¬ event.carries reply) : Told before reply moment (.error error)
  /-- The first frame with its id, on the socket it was written on, says so. -/
  | answered (socket : Nat) (id : String) (wanted : Wanted) (written : Nat) (frame : Json)
      (earlier more : List Event) (on : wanted.reply = reply)
      (waits : Unanswered earlier socket id wanted written) (answers : reOf frame = some id)
      (heard : before = earlier ++ .received socket frame :: more) :
      Told before reply moment (replyIn wanted.expect frame)
  | timeout (socket : Nat) (id : String) (wanted : Wanted) (written : Nat)
      (on : wanted.reply = reply) (waits : Unanswered before socket id wanted written)
      (late : written + replyTimeout ≤ moment) : Told before reply moment (.error .timeout)
  | unknown (socket : Nat) (id : String) (wanted : Wanted) (written : Nat)
      (on : wanted.reply = reply) (waits : Unanswered before socket id wanted written) :
      Told before reply moment (.error .unknown)
  | stopped (mem : .stopped ∈ before) : Told before reply moment (.error .unknown)

/-- The reason that an entry has in those before it. -/
def Because (before : List Event) : Event → Prop
  | .result reply moment outcome => Told before reply moment outcome
  | .wrote _ _ (.command out _) => ∀ wanted, out.wanted = some wanted →
      ∀ event ∈ before, ¬ event.carries wanted.reply ∧ event.settles wanted.reply = false
  | _ => True

structure Honest (client : Client) : Prop where
  justified : Justified Because client.log
  unused : ∀ reply, client.replies ≤ reply → ∀ event ∈ client.log, ¬ event.carries reply
  unwritten : ∀ out ∈ client.admitted ++ client.queue, ∀ wanted, out.wanted = some wanted →
    ∀ event ∈ client.log, ¬ event.carries wanted.reply
  awaited : ∀ link id waiting, client.link = some link →
    link.pending.get? id = some waiting → ∃ written,
      waiting.deadline = written + replyTimeout ∧
        Unanswered client.log client.sockets id waiting.wanted written

variable {client next : Client} {link : Link} {reply : Channel}

theorem Unanswered.append {log later : List Event} {socket : Nat} {id : String} {wanted : Wanted}
    {written : Nat} (waits : Unanswered log socket id wanted written)
    (unheard : ∀ frame, .received socket frame ∈ later → reOf frame ≠ some id) :
    Unanswered (log ++ later) socket id wanted written := by
  obtain ⟨front, out, back, split, asked, silent⟩ := waits
  refine ⟨front, out, back ++ later, by simp [split], asked, fun frame mem => ?_⟩
  rcases List.mem_append.mp mem with before | after
  · exact silent frame before
  · exact unheard frame after

theorem Event.Aside.because {event : Event} (aside : event.Aside) (before : List Event) :
    Because before event := by
  cases aside <;> exact trivial

theorem Event.Aside.silent {event : Event} (aside : event.Aside) : ¬ event.carries reply := by
  cases aside <;> exact id

theorem Event.Aside.not_received {event : Event} (aside : event.Aside) (socket : Nat)
    (frame : Json) : event ≠ .received socket frame := by
  cases aside <;> exact fun same => by cases same

/-- A move that writes no command. -/
theorem Honest.grow (honest : Honest client) {later : List Event}
    (log : next.log = client.log ++ later)
    (reasons : ∀ front event back, later = front ++ event :: back →
      Because (client.log ++ front) event)
    (silent : ∀ event ∈ later, ∀ reply, ¬ event.carries reply)
    (replies : client.replies ≤ next.replies)
    (waiting : ∀ out ∈ next.admitted ++ next.queue, out ∈ client.admitted ++ client.queue ∨
      ∀ wanted, out.wanted = some wanted → wanted.reply = client.replies)
    (pending : ∀ nextLink id waiting, next.link = some nextLink →
      nextLink.pending.get? id = some waiting → next.sockets = client.sockets ∧
        ∃ link, client.link = some link ∧ link.pending.get? id = some waiting ∧
          ∀ frame, .received client.sockets frame ∈ later → reOf frame ≠ some id) :
    Honest next where
  justified := by
    rw [log]
    exact honest.justified.append reasons
  unused reply unused event mem := by
    rw [log] at mem
    rcases List.mem_append.mp mem with before | after
    · exact honest.unused reply (replies.trans unused) event before
    · exact silent event after reply
  unwritten out mem wanted asked event inside := by
    rw [log] at inside
    rcases List.mem_append.mp inside with before | after
    · rcases waiting out mem with was | fresh
      · exact honest.unwritten out was wanted asked event before
      · exact honest.unused _ (fresh wanted asked).ge event before
    · exact silent event after wanted.reply
  awaited nextLink id waiting isOpen waits := by
    obtain ⟨sockets, link, wasOpen, waited, unheard⟩ := pending nextLink id waiting isOpen waits
    obtain ⟨written, deadline, unanswered⟩ := honest.awaited link id waiting wasOpen waited
    rw [log, sockets]
    exact ⟨written, deadline, unanswered.append unheard⟩

theorem settled_split {now : Nat} {waiting : List Wanted} {error : CommandError}
    {front back : List Event} {event : Event}
    (split : Client.settled now waiting error = front ++ event :: back) :
    ∃ wanted ∈ waiting, event = .result wanted.reply now (.error error) ∧
      ∀ socket frame, .received socket frame ∉ front := by
  rw [Client.settled, List.map_eq_append_iff] at split
  obtain ⟨told, rest, rfl, rfl, tail⟩ := split
  obtain ⟨wanted, left, rfl, rfl, -⟩ := List.map_eq_cons_iff.mp tail
  refine ⟨wanted, by simp, rfl, fun socket frame mem => ?_⟩
  obtain ⟨other, -, same⟩ := List.mem_map.mp mem
  cases same

theorem settled_silent {now : Nat} {waiting : List Wanted} {error : CommandError} {event : Event}
    (mem : event ∈ Client.settled now waiting error) : ¬ event.carries reply := by
  obtain ⟨wanted, -, rfl⟩ := List.mem_map.mp mem
  exact id

theorem not_received_settled {now : Nat} {waiting : List Wanted} {error : CommandError}
    {socket : Nat} {frame : Json} : .received socket frame ∉ Client.settled now waiting error := by
  intro mem
  obtain ⟨wanted, -, same⟩ := List.mem_map.mp mem
  cases same

/-- A command that no socket was given fails. -/
theorem unwritten_reasons {log : List Event} {now : Nat} {wanted : Option Wanted}
    {error : CommandError} (why : error = .notSent ∨ error = .tooLarge ∨ error = .busy)
    (never : ∀ own, wanted = some own → ∀ event ∈ log, ¬ event.carries own.reply)
    (front : List Event) (event : Event) (back : List Event)
    (split : Client.settled now wanted.toList error = front ++ event :: back) :
    Because (log ++ front) event := by
  cases wanted with
  | none => simp [Client.settled] at split
  | some wanted =>
      refine Justified.single ?_ front event back split
      exact Told.unwritten error why (never wanted rfl)

/-- A queue that only got shorter. -/
theorem waiting_fewer {admitted queue : List Outgoing} (fewer : admitted ⊆ client.admitted)
    (shorter : queue ⊆ client.queue) (out : Outgoing) (mem : out ∈ admitted ++ queue) :
    out ∈ client.admitted ++ client.queue ∨
      ∀ wanted, out.wanted = some wanted → wanted.reply = client.replies := by
  rcases List.mem_append.mp mem with before | after
  · exact .inl (List.mem_append_left _ (fewer before))
  · exact .inl (List.mem_append_right _ (shorter after))

/-- The link is the one that was. -/
theorem pending_same {later : List Event}
    (unheard : ∀ frame, .received client.sockets frame ∉ later)
    (nextLink : Link) (id : String) (waiting : Pending) (isOpen : client.link = some nextLink)
    (waits : nextLink.pending.get? id = some waiting) : client.sockets = client.sockets ∧
      ∃ link, client.link = some link ∧ link.pending.get? id = some waiting ∧
        ∀ frame, .received client.sockets frame ∈ later → reOf frame ≠ some id :=
  ⟨rfl, nextLink, isOpen, waits, fun frame mem => absurd mem (unheard frame)⟩

theorem Honest.aside (honest : Honest client) (aside : Aside client next) : Honest next := by
  obtain ⟨more, log, quiet, -⟩ := aside.log
  refine honest.grow log (fun front event back split => ?_) (fun event mem reply => ?_)
    aside.replies.ge (fun out mem => .inl ?_) (fun nextLink id waiting isOpen waits => ?_)
  · exact (quiet event (by simp [split])).because _
  · exact (quiet event mem).silent
  · rwa [aside.admitted, aside.queue] at mem
  · cases was : client.link with
    | none =>
        rw [aside.closed was] at isOpen
        cases isOpen
    | some link =>
        obtain ⟨later, is, same⟩ := aside.link link was
        rw [is] at isOpen
        cases isOpen
        rw [same.pending] at waits
        exact ⟨aside.sockets, link, rfl, waits, fun frame mem =>
          absurd rfl ((quiet _ mem).not_received client.sockets frame)⟩

theorem Honest.write (honest : Honest client) (once : Once client)
    (isOpen : client.link = some link)
    (sound : link.Sound client.conn.ready) {out : Outgoing} {rest : List Outgoing} {took : Nat}
    (first : client.queue = out :: rest) :
    Honest { ({ client with queue := rest, now := client.now + took }.note
          (.wrote client.sockets (Client.frameId out.generation (link.nextId + 1))
            (.command out client.now))) with
        link := some (Client.register { link with nextId := link.nextId + 1 }
          (Client.frameId out.generation (link.nextId + 1)) out.wanted
          (client.now + replyTimeout)) } := by
  have fresh : ∀ waiting, link.pending.get? (Client.frameId out.generation (link.nextId + 1)) ≠
      some waiting := fun waiting waits =>
    link.not_gave_next out.generation (sound.pending _ waiting waits)
  have tallied : ∀ wanted, out.wanted = some wanted →
      client.admitted.countP (asks wanted.reply) = 0 ∧ rest.countP (asks wanted.reply) = 0 ∧
        client.log.countP (Event.settles wanted.reply) = 0 := by
    intro wanted asked
    have atMost := once.atMost wanted.reply
    rw [Client.tally, first, List.countP_cons_of_pos (by simp [asks, asked])] at atMost
    omega
  refine ⟨?_, fun reply unused event mem => ?_, fun other mem wanted asked event inside => ?_,
    fun nextLink id waiting is waits => ?_⟩
  · refine honest.justified.snoc fun wanted asked event mem => ⟨?_, ?_⟩
    · exact honest.unwritten out (by simp [first]) wanted asked event mem
    · have unsettled := List.countP_eq_zero.mp (tallied wanted asked).2.2 event mem
      simpa using unsettled
  · rcases List.mem_append.mp mem with before | now
    · exact honest.unused reply unused event before
    · rw [List.mem_singleton] at now
      subst now
      intro carried
      simp only [Event.carries, asks, Option.any_eq_true, decide_eq_true_eq] at carried
      obtain ⟨wanted, asked, rfl⟩ := carried
      have unmade := once.unused wanted.reply unused
      rw [Client.tally, first, List.countP_cons_of_pos (by simp [asks, asked])] at unmade
      omega
  · rcases List.mem_append.mp inside with before | now
    · refine honest.unwritten other ?_ wanted asked event before
      rcases List.mem_append.mp mem with waits | waits
      · exact List.mem_append_left _ waits
      · exact List.mem_append_right _ (by rw [first]; exact List.mem_cons_of_mem _ waits)
    · rw [List.mem_singleton] at now
      subst now
      intro carried
      simp only [Event.carries, asks, Option.any_eq_true, decide_eq_true_eq] at carried
      obtain ⟨own, owned, same⟩ := carried
      obtain ⟨noneAdmitted, noneQueued, -⟩ := tallied own owned
      rw [same] at noneAdmitted noneQueued
      have asking : asks wanted.reply other = true := by simp [asks, asked]
      rcases List.mem_append.mp mem with waits | waits
      · exact absurd asking (List.countP_eq_zero.mp noneAdmitted other waits)
      · exact absurd asking (List.countP_eq_zero.mp noneQueued other waits)
  · cases is
    have unheard : ∀ frame, Event.received client.sockets frame ∉
        [Event.wrote client.sockets (Client.frameId out.generation (link.nextId + 1))
          (.command out client.now)] := fun frame mem => by simp at mem
    have kept : link.pending.get? id = some waiting → ∃ written,
        waiting.deadline = written + replyTimeout ∧ Unanswered (client.log ++
          [.wrote client.sockets (Client.frameId out.generation (link.nextId + 1))
            (.command out client.now)]) client.sockets id waiting.wanted written := fun waits => by
      obtain ⟨written, deadline, unanswered⟩ := honest.awaited link id waiting isOpen waits
      exact ⟨written, deadline, unanswered.append fun frame mem => absurd mem (unheard frame)⟩
    cases asked : out.wanted with
    | none =>
        rw [asked] at waits
        exact kept waits
    | some wanted =>
        simp only [asked, Client.register, Table.get?_put] at waits
        by_cases same : id = Client.frameId out.generation (link.nextId + 1)
        · rw [if_pos (by simpa using same)] at waits
          cases waits
          subst same
          exact ⟨client.now, rfl, client.log, out, [], rfl, asked, fun frame mem => by simp at mem⟩
        · rw [if_neg (by simpa using same)] at waits
          exact kept waits

/-- A reply ends the wait of its command, whatever it says. -/
theorem Honest.replied (honest : Honest client) (isOpen : client.link = some link) {frame : Json}
    {re : String} {waiting : Pending} (answers : reOf frame = some re)
    (waits : link.pending.get? re = some waiting) {routes : Table String Mailbox}
    {more : List Event} (quiet : ∀ event ∈ more, event.Aside) :
    Honest ({ client with
        link := some { link with pending := link.pending.filter fun other _ => other ≠ re }
        routes := routes
        log := client.log ++ Event.received client.sockets frame :: more }.answer
          waiting.wanted.reply (replyIn waiting.wanted.expect frame)) := by
  obtain ⟨written, -, unanswered⟩ := honest.awaited link re waiting isOpen waits
  have log : client.log ++ Event.received client.sockets frame :: more ++
      [.result waiting.wanted.reply client.now (replyIn waiting.wanted.expect frame)] =
      client.log ++ (Event.received client.sockets frame :: more ++
        [.result waiting.wanted.reply client.now (replyIn waiting.wanted.expect frame)]) :=
    List.append_assoc _ _ _
  refine honest.grow log (fun front event back split => ?_) (fun event mem reply => ?_)
    (le_refl _) (fun out mem => .inl mem) (fun nextLink id other is found => ?_)
  · rcases List.eq_nil_or_concat back with rfl | ⟨rest, last, rfl⟩
    · obtain ⟨rfl, same⟩ := List.append_inj' split rfl
      cases same
      exact .answered client.sockets re waiting.wanted written frame client.log more rfl unanswered
        answers rfl
    · rw [List.concat_eq_append, ← List.cons_append, ← List.append_assoc] at split
      have inside := (List.append_inj' split rfl).1
      cases front with
      | nil =>
          simp only [List.nil_append, List.cons.injEq] at inside
          obtain ⟨rfl, -⟩ := inside
          exact trivial
      | cons _ front =>
          simp only [List.cons_append, List.cons.injEq] at inside
          exact (quiet event (by simp [inside.2])).because _
  · simp only [List.cons_append, List.mem_cons, List.mem_append, List.not_mem_nil, or_false] at mem
    rcases mem with rfl | inside | rfl
    · exact id
    · exact (quiet event inside).silent
    · exact id
  · cases is
    simp only [Table.get?_filter, Option.filter_eq_some_iff, decide_eq_true_eq] at found
    refine ⟨rfl, link, isOpen, found.1, fun other mem same => ?_⟩
    simp only [List.cons_append, List.mem_cons, List.mem_append, List.not_mem_nil, or_false,
      Event.received.injEq, true_and, reduceCtorEq] at mem
    rcases mem with rfl | inside
    · rw [answers] at same
      cases same
      exact found.2 rfl
    · exact (quiet _ inside).not_received client.sockets other rfl

theorem Honest.expired (honest : Honest client) (isOpen : client.link = some link) :
    Honest (client.expire link) := by
  rw [Client.expire, Client.failAll_eq]
  refine honest.grow rfl (fun front event back split => ?_)
    (fun event mem reply => settled_silent mem) (le_refl _) (fun out mem => .inl mem) ?_
  · obtain ⟨wanted, mem, rfl, unheard⟩ := settled_split split
    obtain ⟨waiting, stored, rfl⟩ := List.mem_map.mp mem
    obtain ⟨id, found⟩ := Table.mem_values.mp stored
    simp only [Table.get?_filter, Option.filter_eq_some_iff, decide_eq_true_eq] at found
    obtain ⟨written, deadline, unanswered⟩ := honest.awaited link id waiting isOpen found.1
    exact .timeout client.sockets id waiting.wanted written rfl
      (unanswered.append fun frame inside => absurd inside (unheard _ _)) (by omega)
  · rintro nextLink id waiting ⟨⟩ found
    simp only [Table.get?_filter, Option.filter_eq_some_iff] at found
    exact ⟨rfl, link, isOpen, found.1, fun frame mem => absurd mem not_received_settled⟩

/-- The end of the connection, then the results of those that waited. -/
theorem Honest.ended (honest : Honest client) (isOpen : client.link = some link) :
    Honest (client.finish link) := by
  rw [Client.finish, Client.failAll_eq]
  have log : client.log ++ [.ended client.sockets] ++
      Client.settled client.now (link.pending.values.map Pending.wanted) .unknown =
      client.log ++ (.ended client.sockets ::
        Client.settled client.now (link.pending.values.map Pending.wanted) .unknown) := by simp
  refine honest.grow log (fun front event back split => ?_) (fun event mem reply => ?_)
    (le_refl _) (fun out mem => .inl mem) (fun nextLink id other is => by cases is)
  · cases front with
    | nil =>
        simp only [List.nil_append, List.cons.injEq] at split
        obtain ⟨rfl, -⟩ := split
        exact trivial
    | cons first front =>
        simp only [List.cons_append, List.cons.injEq] at split
        obtain ⟨rfl, split⟩ := split
        obtain ⟨wanted, mem, rfl, unheard⟩ := settled_split split
        obtain ⟨waiting, stored, rfl⟩ := List.mem_map.mp mem
        obtain ⟨id, found⟩ := Table.mem_values.mp stored
        obtain ⟨written, -, unanswered⟩ := honest.awaited link id waiting isOpen found
        refine .unknown client.sockets id waiting.wanted written rfl
          (unanswered.append fun frame inside => ?_)
        simp only [List.mem_cons, reduceCtorEq, false_or] at inside
        exact absurd inside (unheard _ _)
  · rcases List.mem_cons.mp mem with rfl | told
    · exact id
    · exact settled_silent told

theorem Honest.stopped (honest : Honest client) : Honest client.stop := by
  rw [Client.stop, Client.failAll_eq]
  refine honest.grow (List.append_assoc _ _ _) (fun front event back split => ?_)
    (fun event mem reply => ?_) (le_refl _) (fun out mem => .inl ?_)
    (fun nextLink id other is => by cases is)
  · cases front with
    | nil =>
        simp only [List.singleton_append, List.nil_append, List.cons.injEq] at split
        obtain ⟨rfl, -⟩ := split
        exact trivial
    | cons first front =>
        simp only [List.cons_append, List.cons.injEq] at split
        obtain ⟨rfl, split⟩ := split
        obtain ⟨wanted, -, rfl, -⟩ := settled_split split
        exact .stopped (by simp)
  · rcases List.mem_append.mp mem with stopped | told
    · rw [List.mem_singleton] at stopped
      subst stopped
      exact id
    · exact settled_silent told
  · rcases List.mem_append.mp mem with waits | waits
    · exact List.mem_append_left _ waits
    · cases waits

theorem Honest.move (sound : Sound client) (once : Once client) (honest : Honest client)
    (move : Move client next) : Honest next := by
  cases move with
  | aside aside => exact honest.aside aside
  | refused =>
      refine honest.grow rfl (Justified.single ?_) ?_ (Nat.le_succ _)
        (waiting_fewer (fun _ => id) (fun _ => id)) (pending_same ?_)
      · exact Told.unwritten .notSent (.inl rfl) (honest.unused _ (le_refl _))
      · simp [Event.carries]
      · simp
  | asked out wanted asked fresh =>
      refine honest.grow rfl (Justified.single trivial) ?_ (Nat.le_succ _) ?_
        (pending_same ?_)
      · simp [Event.carries]
      · intro other mem
        simp only [Client.note, List.append_assoc, List.mem_append, List.mem_singleton] at mem ⊢
        rcases mem with before | rfl | after
        · exact .inl (.inl before)
        · refine .inr fun own owned => ?_
          rw [asked] at owned
          cases owned
          exact fresh
        · exact .inl (.inr after)
      · simp
  | notified out asked =>
      refine honest.grow rfl (Justified.single trivial) ?_ (le_refl _) ?_ (pending_same ?_)
      · simp [Event.carries]
      · intro other mem
        simp only [Client.note, List.append_assoc, List.mem_append, List.mem_singleton] at mem ⊢
        rcases mem with before | rfl | after
        · exact .inl (.inl before)
        · refine .inr fun own owned => ?_
          rw [asked] at owned
          cases owned
        · exact .inl (.inr after)
      · simp
  | queued index out waits =>
      refine honest.grow rfl (Justified.single trivial) ?_ (le_refl _) ?_ (pending_same ?_)
      · simp [Event.carries]
      · intro other mem
        simp only [Client.note, List.mem_append, List.mem_singleton] at mem ⊢
        rcases mem with before | after | rfl
        · exact .inl (.inl (List.mem_of_mem_eraseIdx before))
        · exact .inl (.inr after)
        · exact .inl (.inl (List.mem_of_getElem? waits))
      · simp
  | turnedAway index out error waits why =>
      rw [Client.fail_eq]
      refine honest.grow rfl (unwritten_reasons ?_ ?_) ?_ (le_refl _)
        (waiting_fewer (fun _ => List.mem_of_mem_eraseIdx) (fun _ => id)) (pending_same ?_)
      · exact why.imp_right .inr
      · exact honest.unwritten out (List.mem_append_left _ (List.mem_of_getElem? waits))
      · exact fun event mem reply => settled_silent mem
      · exact fun frame => not_received_settled
  | skipped out rest first =>
      refine honest.grow (List.append_nil _).symm ?_ (by simp) (le_refl _)
        (waiting_fewer (fun _ => id) ?_) (pending_same (by simp))
      · simp
      · rw [first]
        exact List.subset_cons_self _ _
  | unsent link out rest error ids isOpen first why =>
      rw [Client.fail_eq]
      refine honest.grow rfl (unwritten_reasons ?_ ?_) ?_ (le_refl _)
        (waiting_fewer (fun _ => id) ?_) ?_
      · exact why.imp_right .inl
      · exact honest.unwritten out (by simp [first])
      · exact fun event mem reply => settled_silent mem
      · rw [first]
        exact List.subset_cons_self _ _
      · rintro nextLink id waiting ⟨⟩ found
        exact ⟨rfl, link, isOpen, found, fun frame mem => absurd mem not_received_settled⟩
  | wrote link out rest took isOpen first =>
      exact honest.write once isOpen (sound.link link isOpen) first
  | reauth link took isOpen =>
      refine honest.grow rfl (Justified.single trivial) ?_ (le_refl _)
        (waiting_fewer (fun _ => id) (fun _ => id)) ?_
      · simp [Event.carries]
      · rintro nextLink id waiting ⟨⟩ found
        exact ⟨rfl, link, isOpen, found, by simp⟩
  | received link frame isOpen unasked =>
      refine honest.grow rfl (Justified.single trivial) ?_ (le_refl _)
        (waiting_fewer (fun _ => id) (fun _ => id)) ?_
      · simp [Event.carries]
      · intro nextLink id waiting is found
        have same : link = nextLink := Option.some.inj (isOpen.symm.trans is)
        subst same
        refine ⟨rfl, link, isOpen, found, fun other mem same => ?_⟩
        simp only [List.mem_singleton, Event.received.injEq, true_and] at mem
        subst mem
        rw [unasked id same] at found
        cases found
  | replied link frame re waiting routes more isOpen answers waits quiet =>
      exact honest.replied isOpen answers waits quiet
  | left link frame re waiting isOpen answers waits closed =>
      refine honest.grow rfl ?_ ?_ (le_refl _) (waiting_fewer (fun _ => id) (fun _ => id)) ?_
      · intro front event back split
        have mem : event ∈ [Event.received client.sockets frame, .wrote client.sockets
            (Client.frameId client.conn.generation (link.nextId + 1))
            (.leave (text ((frame.get? "data").getD .null) "call_id"))] := by
          simp [split]
        simp only [List.mem_cons, List.not_mem_nil, or_false] at mem
        rcases mem with rfl | rfl
        · exact trivial
        · exact trivial
      · simp [Event.carries]
      · rintro nextLink id other ⟨⟩ found
        simp only [Table.get?_filter, Option.filter_eq_some_iff, decide_eq_true_eq] at found
        refine ⟨rfl, link, isOpen, found.1, fun heard mem same => ?_⟩
        simp only [List.mem_cons, List.not_mem_nil, or_false, Event.received.injEq, true_and,
          reduceCtorEq] at mem
        subst mem
        rw [answers] at same
        cases same
        exact found.2 rfl
  | failed link name waiting isOpen waits =>
      obtain ⟨written, -, unanswered⟩ := honest.awaited link name waiting isOpen waits
      refine honest.grow rfl (Justified.single ?_) ?_ (le_refl _)
        (waiting_fewer (fun _ => id) (fun _ => id)) ?_
      · exact Told.unknown client.sockets name waiting.wanted written rfl unanswered
      · simp [Event.carries]
      · rintro nextLink id other ⟨⟩ found
        simp only [Table.get?_filter, Option.filter_eq_some_iff] at found
        exact ⟨rfl, link, isOpen, found.1, by simp⟩
  | expired link isOpen => exact honest.expired isOpen
  | ended link isOpen => exact honest.ended isOpen
  | opened closed =>
      refine honest.grow rfl (Justified.single trivial) ?_ (le_refl _)
        (waiting_fewer (fun _ => id) (fun _ => id)) ?_
      · simp [Event.carries]
      · rintro nextLink id waiting ⟨⟩ found
        simp at found
  | becameReady link isOpen =>
      refine honest.grow rfl (Justified.single trivial) ?_ (le_refl _)
        (waiting_fewer (fun _ => id) (fun _ => id)) (pending_same ?_)
      · simp [Event.carries]
      · simp
  | stopped => exact honest.stopped

end Brook.Transport
