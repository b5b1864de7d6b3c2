import Brook.Transport.Outcomes

namespace Brook.Transport

open Brook.CallTask (CommandError)
open Brook.SignedIn (View)
open Brook.Transition (run)
open Brook.Ws (Json)

/-! A join that the server confirmed is either handed to its caller or left at once. -/

def dataOf (frame : Json) : Json := (frame.get? "data").getD .null

/-- This frame is the first answer to a command of which nothing was told yet. -/
structure Answers (front : List Event) (socket : Nat) (frame : Json) (id : String)
    (wanted : Wanted) : Prop where
  re : reOf frame = some id
  waits : ∃ written, Unanswered front socket id wanted written
  untold : ∀ event ∈ front, event.settles wanted.reply = false

/-- What follows a confirmed join. -/
def Resolved (front : List Event) (socket : Nat) (frame : Json) (wanted : Wanted)
    (back : List Event) : Prop :=
  (.gaveUp wanted.reply ∈ front ∧ ∃ name rest,
      back = .wrote socket name (.leave (text (dataOf frame) "call_id")) :: rest) ∨
    (.gaveUp wanted.reply ∉ front ∧
      ∃ moment, .result wanted.reply moment (.ok ⟨"call.joined", dataOf frame⟩) ∈ back)

structure Joins (client : Client) : Prop where
  gaveUp : ∀ reply, reply ∈ client.gaveUp ↔ .gaveUp reply ∈ client.log
  sockets : ∀ socket id what, .wrote socket id what ∈ client.log → socket ≤ client.sockets
  pending : ∀ link id wanted written, client.link = some link →
    Unanswered client.log client.sockets id wanted written →
      (∀ event ∈ client.log, event.settles wanted.reply = false) →
        ∃ waiting, link.pending.get? id = some waiting ∧ waiting.wanted = wanted
  resolved : ∀ front socket frame back id wanted,
    client.log = front ++ .received socket frame :: back → Answers front socket frame id wanted →
      wanted.expect = "call.joined" → text frame "type" = "call.joined" →
        Resolved front socket frame wanted back

variable {client next : Client} {link : Link}

theorem Resolved.append {front back : List Event} {socket : Nat} {frame : Json} {wanted : Wanted}
    (resolved : Resolved front socket frame wanted back) (more : List Event) :
    Resolved front socket frame wanted (back ++ more) := by
  rcases resolved with ⟨gone, name, rest, rfl⟩ | ⟨listens, moment, mem⟩
  · exact .inl ⟨gone, name, rest ++ more, rfl⟩
  · exact .inr ⟨listens, moment, List.mem_append_left _ mem⟩

/-- A split of a longer log, at an entry of the old part or of the new one. -/
theorem split_append {log later front back : List Event} {event : Event}
    (split : log ++ later = front ++ event :: back) :
    (∃ rest, log = front ++ event :: rest ∧ back = rest ++ later) ∨
      ∃ between, front = log ++ between ∧ later = between ++ event :: back := by
  rcases List.append_eq_append_iff.mp split with ⟨between, is, rest⟩ | ⟨between, is, rest⟩
  · exact .inr ⟨between, is, rest⟩
  · cases between with
    | nil =>
        refine .inr ⟨[], by simpa using is.symm, by simpa using rest.symm⟩
    | cons first between =>
        simp only [List.cons_append, List.cons.injEq] at rest
        obtain ⟨rfl, rfl⟩ := rest
        exact .inl ⟨between, is, rfl⟩

/-- Entries that write no command leave a wait where it began. -/
theorem Unanswered.of_append {log later : List Event} {socket : Nat} {id : String}
    {wanted : Wanted} {written : Nat} (waits : Unanswered (log ++ later) socket id wanted written)
    (silent : ∀ out, .wrote socket id (.command out written) ∉ later) :
    Unanswered log socket id wanted written ∧
      ∀ frame, .received socket frame ∈ later → reOf frame ≠ some id := by
  obtain ⟨front, out, back, split, asked, unheard⟩ := waits
  rcases split_append split with ⟨rest, is, rfl⟩ | ⟨between, -, is⟩
  · exact ⟨⟨front, out, rest, is, asked, fun frame mem =>
      unheard frame (List.mem_append_left _ mem)⟩,
      fun frame mem => unheard frame (List.mem_append_right _ mem)⟩
  · exact absurd (by rw [is]; simp) (silent out)

/-- A move whose entries answer no join. -/
theorem Joins.grow (joins : Joins client) {later : List Event}
    (log : next.log = client.log ++ later)
    (gaveUp : ∀ reply, reply ∈ next.gaveUp ↔ reply ∈ client.gaveUp ∨ .gaveUp reply ∈ later)
    (sockets : next.sockets = client.sockets)
    (silent : ∀ socket id out written, .wrote socket id (.command out written) ∉ later)
    (wrote : ∀ socket id what, .wrote socket id what ∈ later → socket = client.sockets)
    (pending : ∀ nextLink id wanted written, next.link = some nextLink →
      Unanswered client.log client.sockets id wanted written →
        (∀ frame, .received client.sockets frame ∈ later → reOf frame ≠ some id) →
          (∀ event ∈ later, event.settles wanted.reply = false) →
            ∃ link, client.link = some link ∧ ∀ waiting, link.pending.get? id = some waiting →
              waiting.wanted = wanted → nextLink.pending.get? id = some waiting)
    (resolved : ∀ front socket frame back id wanted,
      later = front ++ .received socket frame :: back →
        Answers (client.log ++ front) socket frame id wanted →
          wanted.expect = "call.joined" → text frame "type" = "call.joined" →
            Resolved (client.log ++ front) socket frame wanted back) : Joins next where
  gaveUp reply := by
    rw [log, List.mem_append, gaveUp, joins.gaveUp]
  sockets socket id what mem := by
    rw [log] at mem
    rw [sockets]
    rcases List.mem_append.mp mem with before | now
    · exact joins.sockets socket id what before
    · exact (wrote socket id what now).le
  pending nextLink id wanted written isOpen waits untold := by
    rw [log, sockets] at waits
    rw [log] at untold
    obtain ⟨waited, unheard⟩ := waits.of_append fun out => silent _ _ _ _
    obtain ⟨link, was, stays⟩ := pending nextLink id wanted written isOpen waited unheard
      fun event mem => untold event (List.mem_append_right _ mem)
    obtain ⟨waiting, found, same⟩ := joins.pending link id wanted written was waited
      fun event mem => untold event (List.mem_append_left _ mem)
    exact ⟨waiting, stays waiting found same, same⟩
  resolved front socket frame back id wanted split answers join joined := by
    rw [log] at split
    rcases split_append split with ⟨rest, is, rfl⟩ | ⟨between, rfl, is⟩
    · exact (joins.resolved front socket frame rest id wanted is answers join joined).append later
    · exact resolved between socket frame back id wanted is answers join joined

/-- No frame was received. -/
theorem unheard_resolved {log later : List Event}
    (unheard : ∀ socket frame, .received socket frame ∉ later) (front : List Event)
    (socket : Nat) (frame : Json) (back : List Event) (id : String) (wanted : Wanted)
    (split : later = front ++ .received socket frame :: back)
    (_ : Answers (log ++ front) socket frame id wanted) (_ : wanted.expect = "call.joined")
    (_ : text frame "type" = "call.joined") : Resolved (log ++ front) socket frame wanted back :=
  absurd (by rw [split]; simp) (unheard socket frame)

/-- The link is where it was, with everything that waits. -/
theorem stays_same (nextLink : Link) (id : String) (wanted : Wanted)
    (isOpen : client.link = some nextLink) : ∃ link, client.link = some link ∧
      ∀ waiting, link.pending.get? id = some waiting → waiting.wanted = wanted →
        nextLink.pending.get? id = some waiting :=
  ⟨nextLink, isOpen, fun _ found _ => found⟩

theorem settled_kind {now : Nat} {waiting : List Wanted} {error : CommandError} {event : Event}
    (mem : event ∈ Client.settled now waiting error) :
    ∃ wanted ∈ waiting, event = .result wanted.reply now (.error error) := by
  obtain ⟨wanted, inside, rfl⟩ := List.mem_map.mp mem
  exact ⟨wanted, inside, rfl⟩

/-- Results of commands that fail, on the same link or without one. -/
theorem Joins.fails (joins : Joins client) {wanteds : List Wanted} {error : CommandError}
    (log : next.log = client.log ++ Client.settled client.now wanteds error)
    (gaveUp : next.gaveUp = client.gaveUp) (sockets : next.sockets = client.sockets)
    (pending : ∀ nextLink, next.link = some nextLink → ∃ link, client.link = some link ∧
      ∀ id waiting, link.pending.get? id = some waiting →
        waiting.wanted ∉ wanteds → nextLink.pending.get? id = some waiting) : Joins next := by
  have kinds : ∀ event ∈ Client.settled client.now wanteds error, ∃ wanted ∈ wanteds,
      event = .result wanted.reply client.now (.error error) := fun _ => settled_kind
  refine joins.grow log (fun reply => ?_) sockets (fun socket id out written mem => ?_)
    (fun socket id what mem => ?_) (fun nextLink id wanted written isOpen _ _ untold => ?_)
    (unheard_resolved fun socket frame mem => ?_)
  · rw [gaveUp]
    refine ⟨.inl, fun either => either.elim (fun mem => mem) fun mem => ?_⟩
    obtain ⟨wanted, -, is⟩ := kinds _ mem
    cases is
  · obtain ⟨wanted, -, is⟩ := kinds _ mem
    cases is
  · obtain ⟨wanted, -, is⟩ := kinds _ mem
    cases is
  · obtain ⟨link, was, stays⟩ := pending nextLink isOpen
    refine ⟨link, was, fun waiting found same => stays id waiting found fun told => ?_⟩
    have settles := untold (.result waiting.wanted.reply client.now (.error error))
      (List.mem_map.mpr ⟨waiting.wanted, told, rfl⟩)
    simp [Event.settles, same] at settles
  · obtain ⟨wanted, -, is⟩ := kinds _ mem
    cases is

theorem Joins.aside (joins : Joins client) (aside : Aside client next) : Joins next := by
  obtain ⟨more, log, quiet, gaveUp⟩ := aside.log
  refine joins.grow log gaveUp aside.sockets (fun socket id out written mem => ?_)
    (fun socket id what mem => ?_) (fun nextLink id wanted written isOpen _ _ _ => ?_)
    (unheard_resolved fun socket frame mem => ?_)
  · cases quiet _ mem
  · cases quiet _ mem
  · cases was : client.link with
    | none =>
        rw [aside.closed was] at isOpen
        cases isOpen
    | some link =>
        obtain ⟨later, is, same⟩ := aside.link link was
        rw [is] at isOpen
        cases isOpen
        exact ⟨link, rfl, fun waiting found _ => by rwa [same.pending]⟩
  · cases quiet _ mem

/-- An entry that answers nothing and writes no command. -/
def Event.Beside (socket : Nat) : Event → Prop
  | .admitted _ => True
  | .queued _ => True
  | .ready _ _ => True
  | .result _ _ (.error _) => True
  | .wrote other _ (.auth _) => other = socket
  | _ => False

/-- One entry beside the answers, the link being what it was. -/
theorem Joins.noted (joins : Joins client) {event : Event} (log : next.log = client.log ++ [event])
    (gaveUp : next.gaveUp = client.gaveUp) (sockets : next.sockets = client.sockets)
    (link : ∀ nextLink, next.link = some nextLink → ∃ link, client.link = some link ∧
      nextLink.pending = link.pending)
    (beside : event.Beside client.sockets) : Joins next := by
  refine joins.grow log (fun reply => ?_) sockets (fun socket id out written mem => ?_)
    (fun socket id what mem => ?_) (fun nextLink id wanted written isOpen _ _ _ => ?_)
    (unheard_resolved fun socket frame mem => ?_)
  · rw [gaveUp]
    refine ⟨.inl, fun either => either.elim (fun mem => mem) fun mem => ?_⟩
    cases List.mem_singleton.mp mem
    exact beside.elim
  · cases List.mem_singleton.mp mem
    exact beside.elim
  · cases List.mem_singleton.mp mem
    cases what with
    | auth => exact beside
    | command | leave => exact beside.elim
  · obtain ⟨link, was, same⟩ := link nextLink isOpen
    exact ⟨link, was, fun waiting found _ => by rwa [same]⟩
  · cases List.mem_singleton.mp mem
    exact beside.elim

theorem Joins.write (joins : Joins client) (isOpen : client.link = some link)
    (sound : link.Sound client.conn.ready) {out : Outgoing} {rest : List Outgoing} {took : Nat} :
    Joins { ({ client with queue := rest, now := client.now + took }.note
          (.wrote client.sockets (Client.frameId out.generation (link.nextId + 1))
            (.command out client.now))) with
        link := some (Client.register { link with nextId := link.nextId + 1 }
          (Client.frameId out.generation (link.nextId + 1)) out.wanted
          (client.now + replyTimeout)) } where
  gaveUp reply := by simp [Client.note, joins.gaveUp]
  sockets socket id what mem := by
    simp only [Client.note, List.mem_append, List.mem_singleton, Event.wrote.injEq] at mem
    rcases mem with before | ⟨rfl, -⟩
    · exact joins.sockets socket id what before
    · exact le_refl _
  pending nextLink id wanted written is waits untold := by
    cases is
    obtain ⟨front, another, back, split, asked, unheard⟩ := waits
    rcases split_append split with ⟨tail, is, -⟩ | ⟨between, -, is⟩
    · obtain ⟨waiting, found, same⟩ := joins.pending link id wanted written isOpen
        ⟨front, another, tail, is, asked, fun frame mem => unheard frame (by
          have := split.symm.trans (congrArg (· ++ _) is)
          simp only [List.append_assoc, List.cons_append, List.append_cancel_left_eq,
            List.cons.injEq, true_and] at this
          rw [this]
          exact List.mem_append_left _ mem)⟩
        fun event mem => untold event (List.mem_append_left _ mem)
      have other : id ≠ Client.frameId out.generation (link.nextId + 1) := fun same =>
        link.not_gave_next out.generation (same ▸ sound.pending id waiting found)
      refine ⟨waiting, ?_, same⟩
      cases out.wanted with
      | none => exact found
      | some own =>
          simp only [Client.register, Table.get?_put]
          rw [if_neg (by simpa using other)]
          exact found
    · cases between with
      | cons => simp at is
      | nil =>
          simp only [List.nil_append, List.cons.injEq, Event.wrote.injEq,
            Written.command.injEq] at is
          obtain ⟨⟨-, rfl, rfl, rfl⟩, -⟩ := is
          exact ⟨⟨wanted, client.now + replyTimeout⟩, by simp [Client.register, asked], rfl⟩
  resolved front socket frame back id wanted split answers join joined := by
    rcases split_append split with ⟨tail, is, rfl⟩ | ⟨between, -, is⟩
    · exact (joins.resolved front socket frame tail id wanted is answers join joined).append _
    · cases between with
      | nil => simp at is
      | cons => simp at is

theorem Joins.received (joins : Joins client) (isOpen : client.link = some link) {frame : Json}
    (unasked : ∀ re, reOf frame = some re → link.pending.get? re = none) :
    Joins (client.note (.received client.sockets frame)) := by
  refine joins.grow rfl (fun reply => by simp [Client.note]) rfl (by simp) (by simp)
    (fun nextLink id wanted _ is _ _ _ => stays_same nextLink id wanted is)
    (fun front socket heard back id wanted split answers join joined => ?_)
  cases front with
  | cons => simp at split
  | nil =>
      simp only [List.nil_append, List.cons.injEq, Event.received.injEq] at split
      obtain ⟨⟨rfl, rfl⟩, rfl⟩ := split
      obtain ⟨re, ⟨written, waits⟩, untold⟩ := answers
      simp only [List.append_nil] at waits untold
      obtain ⟨waiting, found, -⟩ := joins.pending link id wanted written isOpen waits untold
      rw [unasked id re] at found
      cases found

/-- The only wait that a frame ends is the one under its id. -/
theorem Joins.answered_wanted (joins : Joins client) (isOpen : client.link = some link)
    {frame : Json} {re id : String} {waiting : Pending} {wanted : Wanted}
    (names : reOf frame = some re) (found : link.pending.get? re = some waiting)
    (answers : Answers client.log client.sockets frame id wanted) : waiting.wanted = wanted := by
  obtain ⟨names', ⟨written, waits⟩, untold⟩ := answers
  rw [names] at names'
  cases names'
  obtain ⟨other, found', same⟩ := joins.pending link re wanted written isOpen waits untold
  rw [found] at found'
  cases found'
  exact same

theorem isClosed_iff (client : Client) (wanted : Wanted) :
    client.isClosed (some wanted) = true ↔ wanted.reply ∈ client.gaveUp := by
  simp [Client.isClosed]

theorem Joins.replied (joins : Joins client) (isOpen : client.link = some link) {frame : Json}
    {re : String} {waiting : Pending} (names : reOf frame = some re)
    (found : link.pending.get? re = some waiting) {routes : Table String Mailbox}
    {more : List Event} (quiet : ∀ event ∈ more, event.Aside)
    (still : ∀ reply, .gaveUp reply ∉ more)
    (listens : waiting.wanted.expect = "call.joined" → text frame "type" = "call.joined" →
      client.isClosed (some waiting.wanted) = false) :
    Joins ({ client with
        link := some { link with pending := link.pending.filter fun other _ => other ≠ re }
        routes := routes
        log := client.log ++ Event.received client.sockets frame :: more }.answer
          waiting.wanted.reply (replyIn waiting.wanted.expect frame)) := by
  have mem_later : ∀ {event : Event}, event ∈ Event.received client.sockets frame :: more ++
      [.result waiting.wanted.reply client.now (replyIn waiting.wanted.expect frame)] →
      event = .received client.sockets frame ∨ event.Aside ∨
        event = .result waiting.wanted.reply client.now (replyIn waiting.wanted.expect frame) := by
    intro event mem
    simp only [List.cons_append, List.mem_cons, List.mem_append, List.not_mem_nil, or_false] at mem
    exact mem.imp_right (Or.imp_left (quiet event))
  refine joins.grow (List.append_assoc _ _ _) (fun reply => ?_) rfl
    (fun socket id out written mem => ?_) (fun socket id what mem => ?_)
    (fun nextLink id wanted written is _ unheard _ => ?_)
    (fun front socket heard back id wanted split answers join joined => ?_)
  · refine ⟨.inl, fun either => either.elim (fun mem => mem) fun mem => ?_⟩
    simp only [List.cons_append, List.mem_cons, List.mem_append, List.not_mem_nil, or_false,
      reduceCtorEq, false_or] at mem
    exact absurd mem (still reply)
  · rcases mem_later mem with is | aside | is <;> first | cases is | cases aside
  · rcases mem_later mem with is | aside | is <;> first | cases is | cases aside
  · cases is
    refine ⟨link, isOpen, fun other kept _ => ?_⟩
    simp only [Table.get?_filter, Option.filter_eq_some_iff, decide_eq_true_eq]
    exact ⟨kept, fun same => unheard frame (by simp) (same ▸ names)⟩
  · cases front with
    | cons first front =>
        simp only [List.cons_append, List.cons.injEq] at split
        have inside : Event.received socket heard ∈ more ++
            [.result waiting.wanted.reply client.now (replyIn waiting.wanted.expect frame)] := by
          rw [split.2]
          simp
        rcases List.mem_append.mp inside with mem | mem
        · cases quiet _ mem
        · simp at mem
    | nil =>
        simp only [List.cons_append, List.nil_append, List.cons.injEq, Event.received.injEq]
          at split
        obtain ⟨⟨rfl, rfl⟩, rfl⟩ := split
        simp only [List.append_nil] at answers ⊢
        have same := joins.answered_wanted isOpen names found answers
        subst same
        have open_ := listens join joined
        refine .inr ⟨fun gone => ?_, client.now, ?_⟩
        · rw [(isClosed_iff client _).mpr ((joins.gaveUp _).mpr gone)] at open_
          cases open_
        · simp [replyIn, Client.outcomeOf, join, joined, dataOf]

theorem Joins.left (joins : Joins client) (isOpen : client.link = some link) {frame : Json}
    {re : String} {waiting : Pending} (names : reOf frame = some re)
    (found : link.pending.get? re = some waiting)
    (closed : client.isClosed (some waiting.wanted) = true) :
    Joins { client with
      link := some { link with
        pending := link.pending.filter fun other _ => other ≠ re
        nextId := link.nextId + 1 }
      log := client.log ++ [.received client.sockets frame, .wrote client.sockets
        (Client.frameId client.conn.generation (link.nextId + 1))
        (.leave (text ((frame.get? "data").getD .null) "call_id"))] } := by
  refine joins.grow rfl (fun reply => by simp) rfl (by simp) (fun socket id what mem => ?_)
    (fun nextLink id wanted written is _ unheard _ => ?_)
    (fun front socket heard back id wanted split answers join joined => ?_)
  · simp only [List.mem_cons, reduceCtorEq, Event.wrote.injEq, List.not_mem_nil, or_false,
      false_or] at mem
    exact mem.1
  · cases is
    refine ⟨link, isOpen, fun other kept _ => ?_⟩
    simp only [Table.get?_filter, Option.filter_eq_some_iff, decide_eq_true_eq]
    exact ⟨kept, fun same => unheard frame (by simp) (same ▸ names)⟩
  · cases front with
    | cons first front =>
        simp only [List.cons_append, List.cons.injEq] at split
        cases front <;> simp at split
    | nil =>
        simp only [List.nil_append, List.cons.injEq, Event.received.injEq] at split
        obtain ⟨⟨rfl, rfl⟩, rfl⟩ := split
        simp only [List.append_nil] at answers ⊢
        have same := joins.answered_wanted isOpen names found answers
        subst same
        refine .inl ⟨?_, _, [], rfl⟩
        exact (joins.gaveUp _).mp ((isClosed_iff client _).mp closed)

theorem Joins.finished (joins : Joins client) (link : Link) : Joins (client.finish link) := by
  rw [Client.finish, Client.failAll_eq]
  have isOver : Joins ({ client with
      conn := { client.conn with ready := false }, link := none }.note (.ended client.sockets)) :=
    joins.grow rfl (fun reply => by simp [Client.note]) rfl (by simp) (by simp)
      (fun nextLink _ _ _ is => by cases is) (unheard_resolved (by simp))
  exact isOver.fails rfl rfl rfl fun nextLink is => by cases is

theorem Joins.stopped (joins : Joins client) : Joins client.stop := by
  rw [Client.stop, Client.failAll_eq]
  have isOver : Joins ({ client with link := none, queue := [], stopped := true }.note .stopped) :=
    joins.grow rfl (fun reply => by simp [Client.note]) rfl (by simp) (by simp)
      (fun nextLink _ _ _ is => by cases is) (unheard_resolved (by simp))
  exact isOver.fails rfl rfl rfl fun nextLink is => by cases is

/-- On a new socket nothing was written yet. -/
theorem Joins.opened (joins : Joins client) : Joins client.connect where
  gaveUp reply := by simp [Client.connect, Client.note, joins.gaveUp]
  sockets socket id what mem := by
    have before : .wrote socket id what ∈ client.log := by
      simpa [Client.connect, Client.note] using mem
    exact (joins.sockets socket id what before).trans (Nat.le_succ _)
  pending nextLink id wanted written _ waits _ := by
    obtain ⟨front, out, back, split, -⟩ := waits
    have wrote : .wrote (client.sockets + 1) id (.command out written) ∈ client.log := by
      have mem : .wrote (client.sockets + 1) id (.command out written) ∈ client.connect.log := by
        rw [split]
        exact List.mem_append_right _ List.mem_cons_self
      simpa [Client.connect, Client.note] using mem
    have bound := joins.sockets _ _ _ wrote
    omega
  resolved front socket frame back id wanted split answers join joined := by
    rcases split_append split with ⟨tail, is, rfl⟩ | ⟨between, -, is⟩
    · exact (joins.resolved front socket frame tail id wanted is answers join joined).append _
    · cases between <;> simp at is

theorem Joins.move (sound : Sound client) (joins : Joins client) (move : Move client next) :
    Joins next := by
  cases move with
  | aside aside => exact joins.aside aside
  | refused | asked | notified | queued | becameReady =>
      exact joins.noted rfl rfl rfl (fun nextLink is => ⟨nextLink, is, rfl⟩) trivial
  | turnedAway index out error =>
      rw [Client.fail_eq]
      exact joins.fails rfl rfl rfl fun nextLink is => ⟨nextLink, is, fun _ _ found _ => found⟩
  | skipped =>
      exact joins.grow (List.append_nil _).symm (by simp) rfl (by simp) (by simp)
        (fun nextLink id wanted _ is _ _ _ => stays_same nextLink id wanted is)
        (unheard_resolved (by simp))
  | unsent link out rest error ids isOpen =>
      rw [Client.fail_eq]
      refine joins.fails rfl rfl rfl fun nextLink is => ?_
      cases is
      exact ⟨link, isOpen, fun _ _ found _ => found⟩
  | wrote link out rest took isOpen => exact joins.write isOpen (sound.link link isOpen)
  | reauth link took isOpen =>
      refine joins.noted rfl rfl rfl (fun nextLink is => ?_) rfl
      cases is
      exact ⟨link, isOpen, rfl⟩
  | received link frame isOpen unasked => exact joins.received isOpen unasked
  | replied link frame re waiting routes more isOpen answers waits quiet still listens =>
      exact joins.replied isOpen answers waits quiet still listens
  | left link frame re waiting isOpen answers waits closed =>
      exact joins.left isOpen answers waits closed
  | failed link name waiting isOpen waits =>
      rw [Client.fail_eq]
      refine joins.fails rfl rfl rfl fun nextLink is => ?_
      cases is
      refine ⟨link, isOpen, fun id other found untold => ?_⟩
      simp only [Table.get?_filter, Option.filter_eq_some_iff, decide_eq_true_eq]
      refine ⟨found, fun same => ?_⟩
      rw [same, waits] at found
      cases found
      simp at untold
  | expired link isOpen =>
      rw [Client.expire, Client.failAll_eq]
      refine joins.fails rfl rfl rfl fun nextLink is => ?_
      cases is
      refine ⟨link, isOpen, fun id waiting found untold => ?_⟩
      simp only [Table.get?_filter, Option.filter_eq_some_iff, Bool.not_eq_true',
        decide_eq_false_iff_not]
      refine ⟨found, fun late => untold (List.mem_map.mpr ⟨waiting, ?_, rfl⟩)⟩
      exact Table.mem_values.mpr ⟨id, by simp [Option.filter_eq_some_iff, found, late]⟩
  | ended link => exact joins.finished link
  | opened => exact joins.opened
  | stopped => exact joins.stopped

theorem Joins.start (view : View) : Joins (start view) where
  gaveUp reply := by simp [Transport.start]
  sockets socket id what mem := by cases mem
  pending link id wanted written is := by cases is
  resolved front socket frame back id wanted split := by
    simp [Transport.start] at split

def joinedFrame : Json :=
  .obj [("type", .str "call.joined"), ("re", .str (Client.frameId 1 1)),
    ("data", .obj [("call_id", .str "k")])]

/-- A join whose caller gives up before its answer. -/
def abandoned : List Action :=
  connected ++ [.request 1 [("type", .str "call.join")] "call.joined" (some 0), .enqueue 0,
    .take .done 0, .giveUp 0, .text (some joinedFrame) true 0]

def joinCommand : Outgoing :=
  ⟨[("type", .str "call.join")], 1, some ⟨"call.joined", 0, some 0⟩⟩

end Brook.Transport
