import Brook.Transport.Sound
import Brook.Transition.Run

namespace Brook.Transport

open Brook.CallTask (CommandError)
open Brook.SignedIn (Revision View)
open Brook.Transition (run)
open Brook.Ws (Json)

/-! Every step is a chain of moves. -/

variable {client next : Client} {link : Link}

theorem Event.Aside.all_nil : ∀ event ∈ ([] : List Event), event.Aside := by simp

theorem Event.Aside.one {event : Event} (aside : event.Aside) :
    ∀ other ∈ [event], other.Aside := by
  intro other mem
  rw [List.mem_singleton] at mem
  exact mem ▸ aside

/-- A change beside the commands and the socket. -/
theorem Move.beside (client : Client) {now : Nat} {session : View} {unpublished : List Revision}
    {revision : Revision} {seen marked : Bool} {routes : Table String Mailbox}
    {gaveUp : List Channel} {gone : List Mailbox} {more : List Event}
    (later : client.now ≤ now) (aside : ∀ event ∈ more, event.Aside)
    (still : ∀ reply, reply ∈ gaveUp ↔ reply ∈ client.gaveUp ∨ .gaveUp reply ∈ more) :
    Move client { client with
      now, session, unpublished, revision, seen, marked, routes, gaveUp, gone
      log := client.log ++ more } := by
  refine .aside ⟨later, rfl, rfl, rfl, id, fun link isOpen => ?_, rfl, rfl, rfl,
    more, rfl, aside, still⟩
  exact ⟨link, isOpen, rfl, rfl, .inl rfl, .inl⟩

theorem Move.silent (client : Client) {now : Nat} {session : View} {unpublished : List Revision}
    {revision : Revision} {seen marked : Bool} {gone : List Mailbox} (later : client.now ≤ now) :
    Move client { client with now, session, unpublished, revision, seen, marked, gone } := by
  refine .aside ⟨later, rfl, rfl, rfl, id, fun link isOpen => ?_, rfl, rfl, rfl, [], by simp,
    Event.Aside.all_nil, by simp⟩
  exact ⟨link, isOpen, rfl, rfl, .inl rfl, .inl⟩

/-- A change of the link that concerns no command. -/
theorem Move.relinked (isOpen : client.link = some link) {later : Link}
    (aside : link.Aside client.conn.ready later) :
    Move client { client with link := some later } := by
  refine .aside ⟨le_refl _, rfl, rfl, rfl, fun closed => ?_, fun other is => ?_, rfl, rfl,
    rfl, [], by simp, Event.Aside.all_nil, by simp⟩
  · rw [closed] at isOpen
    cases isOpen
  · rw [isOpen] at is
    cases is
    exact ⟨later, rfl, aside⟩

theorem submit_asked (client : Client) (generation : Nat) (frame : Fields) (expect : String)
    (route : Option Mailbox) : Move client (client.request generation frame expect route) := by
  rw [Client.request, Client.submit]
  split
  case isTrue => exact .refused client
  case isFalse current =>
    simp only [not_or, Bool.not_eq_false, not_not] at current
    exact .asked client ⟨frame, generation, some ⟨expect, client.replies, route⟩⟩ _ rfl rfl
      current.1 current.2

theorem submit_notified (client : Client) (generation : Nat) (frame : Fields) :
    Moves client (client.notify generation frame) := by
  rw [Client.notify, Client.submit]
  split
  case isTrue => exact .refl
  case isFalse current =>
    simp only [not_or, Bool.not_eq_false, not_not] at current
    exact .single (.notified client ⟨frame, generation, none⟩ rfl current.1 current.2)

theorem enqueue_moves {index : Nat} {out : Outgoing} (waits : client.admitted[index]? = some out) :
    Move client ({ client with admitted := client.admitted.eraseIdx index }.enqueue out) := by
  rw [Client.enqueue]
  split
  case isTrue => exact .turnedAway client index out .notSent waits (.inl rfl)
  case isFalse =>
    split
    case isTrue => exact .turnedAway client index out .busy waits (.inr rfl)
    case isFalse => exact .queued client index out waits

/-- The end of a connection only looks at what is pending. -/
theorem finish_move {after : Link} (isOpen : client.link = some link)
    (pending : after.pending = link.pending) : Move client (client.finish after) := by
  have ended := Move.ended client link isOpen
  rw [Client.finish] at ended ⊢
  rwa [pending]

theorem keepUp_moves (client : Client) (isOpen : client.link = some link) {later : Link}
    (aside : link.Aside client.conn.ready later) (ready : client.conn.ready = true)
    (reached : Bool) (took : Nat) : Moves client (client.keepUp later reached took) := by
  have relinked := Move.relinked isOpen aside
  rw [Client.keepUp]
  split
  case isFalse => exact .single relinked
  case isTrue =>
    rw [Client.sendReauth]
    cases client.session.store.session with
    | none =>
        refine .single (Move.relinked isOpen ⟨aside.pending, aside.nextId, .inr rfl, aside.ready⟩)
    | some session =>
        have sent := Move.reauth { client with link := some later } later took rfl ready
        refine .head relinked ?_
        cases reached with
        | true => exact .single sent
        | false => exact .tail (.single sent) (finish_move rfl rfl)

/-- The write failed: its command is told, then the connection ends. -/
theorem failed_moves (client : Client) {id : String} {wanted : Option Wanted} {deadline : Nat}
    (fresh : link.pending.get? id = none) :
    Moves { client with link := some (Client.register link id wanted deadline) }
      ((client.fail wanted .unknown).finish { Client.register link id wanted deadline with
        pending := (Client.register link id wanted deadline).pending.filter
          fun other _ => other ≠ id }) := by
  cases wanted with
  | none => exact .single (finish_move rfl (Table.filter_ne_of_absent fresh))
  | some wanted =>
      have told := Move.failed
        { client with link := some (Client.register link id (some wanted) deadline) } _ id
        ⟨wanted, deadline⟩ rfl (by simp [Client.register])
      exact .tail (.single told) (finish_move rfl rfl)

theorem writeCommand_moves (encode : Fields → String) (isOpen : client.link = some link)
    {out : Outgoing} {rest : List Outgoing} (first : client.queue = out :: rest) (sent : Sent)
    (took : Nat) (sound : link.Sound client.conn.ready) :
    Moves client ({ client with queue := rest }.writeCommand encode link out sent took) := by
  rw [Client.writeCommand]
  split
  case isTrue =>
    have unsent := Move.unsent client link out rest .notSent 0 isOpen first (.inl rfl)
    rw [Client.fail_eq] at unsent ⊢
    have same : (some { link with nextId := link.nextId + 0 } : Option Link) = client.link :=
      isOpen.symm
    rw [same] at unsent
    exact .single unsent
  case isFalse current =>
    simp only [not_or, Bool.not_eq_false, not_not] at current
    obtain ⟨ready, current⟩ := current
    split
    case isTrue closed => exact .single (.skipped client out rest first closed)
    case isFalse =>
      dsimp only
      split
      case isTrue =>
        exact .single (.unsent client link out rest .tooLarge 1 isOpen first (.inr rfl))
      case isFalse =>
        have wrote := Move.wrote client link out rest took isOpen first ready current
        cases sent with
        | done => exact .single wrote
        | stalled => exact .tail (.single wrote) (.ended _ _ rfl)
        | failed =>
            refine .trans (.single wrote) (failed_moves _ ?_)
            exact Option.eq_none_iff_forall_ne_some.mpr fun waiting waits =>
              link.not_gave_next out.generation (sound.pending _ waiting waits)

/-- What a reply does, after the frame was received. -/
theorem onReply_moves (isOpen : client.link = some link) {frame : Json} {re : String}
    (answers : reOf frame = some re) :
    let heard := client.note (.received client.sockets frame)
    let handled := heard.onReply link re (text frame "type") ((frame.get? "data").getD .null)
    Moves client { handled.1 with link := some handled.2 } := by
  dsimp only [Client.onReply]
  cases waits : link.pending.get? re with
  | none =>
      have heard := Move.received client link frame isOpen fun other is => by
        rw [answers] at is
        cases is
        exact waits
      have same : client.note (.received client.sockets frame) =
          { client.note (.received client.sockets frame) with link := some link } := by
        rw [← isOpen]
        rfl
      rw [same] at heard
      exact .single heard
  | some waiting =>
      dsimp only
      split
      case isFalse other =>
        refine .single (.replied client link frame re waiting client.routes [] isOpen answers waits
          Event.Aside.all_nil (by simp) fun join joined => absurd ⟨joined, ?_⟩ other)
        simp [Client.outcomeOf, join, joined, Except.isOk, Except.toBool]
      case isTrue =>
        split
        case isTrue closed =>
          have gone := Move.left client link frame re waiting isOpen answers waits closed
          simp only [Client.note, List.append_assoc, List.cons_append, List.nil_append]
          exact .single gone
        case isFalse listens =>
          simp only [Bool.not_eq_true] at listens
          cases route : waiting.wanted.route with
          | none =>
              exact .single (.replied client link frame re waiting client.routes [] isOpen answers
                waits Event.Aside.all_nil (by simp) fun _ _ => listens)
          | some mailbox =>
              have joined := Move.replied client link frame re waiting
                (client.routes.put (text ((frame.get? "data").getD .null) "call_id") mailbox)
                [.delivered mailbox ⟨text frame "type", (frame.get? "data").getD .null⟩,
                  .routed (text ((frame.get? "data").getD .null) "call_id") mailbox]
                isOpen answers waits (by
                  intro event mem
                  simp only [List.mem_cons, List.not_mem_nil, or_false] at mem
                  rcases mem with rfl | rfl
                  · exact .delivered _ _
                  · exact .routed _ _) (by simp) fun _ _ => listens
              simp only [Client.answer, Client.note, Client.install, List.append_assoc,
                List.cons_append, List.nil_append] at joined ⊢
              exact .single joined

theorem onCall_moves (client : Client) (ty : String) (data : Json) :
    Moves client (client.onCall ty data) := by
  rw [Client.onCall]
  split
  case h_1 => exact .refl
  case h_2 =>
    split
    case isTrue =>
      exact .single (Move.beside client (le_refl _) (Event.Aside.unrouted _).one (by simp))
    case isFalse =>
      exact .single (Move.beside client (le_refl _) (Event.Aside.delivered _ _).one (by simp))

theorem onCall_link (client : Client) (ty : String) (data : Json) :
    (client.onCall ty data).link = client.link := by
  rw [Client.onCall]
  split
  case h_1 => rfl
  case h_2 => split <;> rfl

/-- A frame that made the socket ready, or left it as it was. -/
structure Handled (client : Client) (link : Link) (handled : Client × Link × Bool) : Prop where
  moves : Moves client { handled.1 with link := some handled.2.1 }
  ready : handled.2.2 = true →
    handled.1.link = some link ∧ handled.2.1 = link ∧ handled.1.conn.ready = true

theorem Handled.unchanged (moves : Moves client next) (isOpen : next.link = some link) :
    Handled client link (next, link, false) where
  moves := by
    have same : ({ next with link := some link } : Client) = next := by rw [← isOpen]
    dsimp only
    rwa [same]
  ready is := by cases is

theorem handleText_moves (isOpen : client.link = some link) (frame : Json) :
    Handled client link ((client.note (.received client.sockets frame)).handleText link frame) := by
  rw [Client.handleText]
  dsimp only
  cases answers : reOf frame with
  | some re =>
      have asked : (frame.get? "re").isNone = false := by
        cases field : frame.get? "re" with
        | none => simp [reOf, field] at answers
        | some => rfl
      rw [reOf] at answers
      simp only [answers, asked, Bool.false_eq_true, if_false]
      exact ⟨onReply_moves isOpen answers, fun is => by cases is⟩
  | none =>
      have heard := Move.received client link frame isOpen fun re is => by
        rw [answers] at is
        cases is
      rw [reOf] at answers
      simp only [answers]
      have noted : ∃ raw, Moves client raw ∧ raw.link = some link ∧
          raw = if (frame.get? "re").isNone then
            (client.note (.received client.sockets frame)).note
              (.raw (text frame "type") ((frame.get? "data").getD .null))
          else client.note (.received client.sockets frame) := by
        refine ⟨_, ?_, ?_, rfl⟩
        · split
          case isTrue =>
            exact .tail (.single heard)
              (Move.beside _ (le_refl _) (Event.Aside.raw _ _).one (by simp))
          case isFalse => exact .single heard
        · split <;> exact isOpen
      obtain ⟨raw, moves, link_raw, is⟩ := noted
      rw [← is]
      split
      case isTrue =>
        refine ⟨.tail moves ?_, fun _ => ⟨link_raw, rfl, rfl⟩⟩
        have ready := Move.becameReady raw link link_raw
        have same : ({ raw.becomeReady with link := some link } : Client) = raw.becomeReady := by
          rw [← link_raw]
          rfl
        dsimp only
        rwa [same]
      case isFalse =>
        have published : Move raw (raw.note (.published frame)) :=
          Move.beside raw (le_refl _) (Event.Aside.published _).one (by simp)
        split
        case isTrue => exact .unchanged (.tail moves published) link_raw
        case isFalse =>
          split
          case isTrue =>
            exact .unchanged (moves.trans (onCall_moves raw _ _))
              ((onCall_link raw _ _).trans link_raw)
          case isFalse => exact .unchanged (.tail moves published) link_raw

theorem onText_moves (isOpen : client.link = some link) (sound : link.Sound client.conn.ready)
    (frame : Json) (reached : Bool) (took : Nat) :
    Moves client (client.onText link frame reached took) := by
  rw [Client.onText]
  split
  case h_1 reauth answered =>
    rw [Client.answersReauth, Option.filter_eq_some_iff] at answered
    obtain ⟨flying, names⟩ := answered
    have heard := Move.received client link frame isOpen fun re is => by
      rw [reOf, of_decide_eq_true names] at is
      cases is
      exact (sound.reauth reauth flying).2
    split
    case isTrue =>
      refine .head heard (keepUp_moves (client.note (.received client.sockets frame)) isOpen
        ?_ ?_ reached took)
      · exact ⟨rfl, rfl, .inr rfl, .inl⟩
      cases ready : client.conn.ready with
      | true => exact ready
      | false =>
          rw [(sound.quiet ready).2] at flying
          cases flying
    case isFalse => exact .tail (.single heard) (finish_move isOpen rfl)
  case h_2 =>
    have handled := handleText_moves isOpen frame
    generalize (client.note (.received client.sockets frame)).handleText link frame = result
      at handled
    obtain ⟨later, laterLink, becameReady⟩ := result
    cases becameReady with
    | false => exact handled.moves
    | true =>
        obtain ⟨stays, rfl, ready⟩ := handled.ready rfl
        have same : ({ later with link := some laterLink } : Client) = later := by rw [← stays]
        have moves := handled.moves
        dsimp only at moves stays ready ⊢
        rw [same] at moves
        refine moves.trans (keepUp_moves later stays ?_ ready reached took)
        exact ⟨rfl, rfl, .inl rfl, fun _ => .inr ready⟩

theorem onRevision_moves (isOpen : client.link = some link)
    (sound : link.Sound client.conn.ready) (reached : Bool) (took : Nat) :
    Moves client (client.onRevision link reached took) := by
  have seen : Move client { client with seen := true } := Move.silent client (le_refl _)
  rw [Client.onRevision]
  dsimp only
  split
  case isTrue => exact .tail (.single seen) (finish_move isOpen rfl)
  case isFalse =>
    split
    case isTrue quiet =>
      exact .head seen (keepUp_moves { client with seen := true } isOpen
        ⟨rfl, rfl, .inl rfl, .inl⟩ (sound.ready quiet.1) reached took)
    case isFalse => exact .single seen

theorem step_moves {encode : Fields → String} {action : Action} (sound : Sound client)
    (stepped : step encode client action = some next) : Moves client next := by
  cases action with
  | tick ms =>
      cases stepped
      exact .single (Move.silent client (Nat.le_add_right _ _))
  | request generation frame expect route =>
      cases stepped
      exact .single (submit_asked client generation frame expect route)
  | notify generation frame =>
      cases stepped
      exact submit_notified client generation frame
  | enqueue index =>
      obtain ⟨out, waits, rfl⟩ := Option.map_eq_some_iff.mp stepped
      exact .single (enqueue_moves waits)
  | giveUp reply =>
      cases stepped
      exact .single (Move.beside client (le_refl _) (Event.Aside.gaveUp _).one (by simp [or_comm]))
  | mailboxGone mailbox =>
      cases stepped
      exact .single (Move.silent client (le_refl _))
  | unroute callId =>
      cases stepped
      exact .single (Move.beside client (le_refl _) (Event.Aside.unrouted _).one (by simp))
  | session section_ =>
      cases stepped
      exact .single (Move.silent client (le_refl _))
  | publish index =>
      obtain ⟨revision, -, rfl⟩ := Option.map_eq_some_iff.mp stepped
      exact .single (Move.silent client (le_refl _))
  | mark =>
      simp only [step, Option.ite_none_left_eq_some] at stepped
      obtain ⟨-, stepped⟩ := stepped
      cases stepped
      exact .single (Move.silent client (le_refl _))
  | connect =>
      simp only [step, Option.ite_none_left_eq_some, not_or, Bool.not_eq_true] at stepped
      obtain ⟨⟨closed, runs, -⟩, stepped⟩ := stepped
      cases stepped
      exact .single (.opened client (by simpa using closed) runs)
  | revision reached took =>
      simp only [step, Option.bind_eq_some_iff, Option.ite_none_left_eq_some] at stepped
      obtain ⟨link, isOpen, -, stepped⟩ := stepped
      cases stepped
      exact onRevision_moves isOpen (sound.link link isOpen) reached took
  | take sent took =>
      simp only [step, Option.bind_eq_some_iff] at stepped
      obtain ⟨link, isOpen, stepped⟩ := stepped
      split at stepped
      case h_1 => cases stepped
      case h_2 out rest first =>
        cases stepped
        exact writeCommand_moves encode isOpen first sent took (sound.link link isOpen)
  | text frame reached took =>
      obtain ⟨link, isOpen, rfl⟩ := Option.map_eq_some_iff.mp stepped
      cases frame with
      | none => exact .refl
      | some frame => exact onText_moves isOpen (sound.link link isOpen) frame reached took
  | deadline =>
      obtain ⟨link, isOpen, rfl⟩ := Option.map_eq_some_iff.mp stepped
      rw [Client.onDeadline]
      split
      case isTrue => exact .single (.ended client link isOpen)
      case isFalse => exact .single (.expired client link isOpen)
  | close =>
      obtain ⟨link, isOpen, rfl⟩ := Option.map_eq_some_iff.mp stepped
      exact .single (.ended client link isOpen)
  | stop =>
      simp only [step, Option.ite_none_left_eq_some] at stepped
      obtain ⟨-, stepped⟩ := stepped
      cases stepped
      exact .single (.stopped client)

theorem start_sound (view : View) : Sound (start view) where
  link other is := by cases is
  ready is := by cases is
  stopped is := by cases is

/-- What holds at the start and after each move of a sound client holds after every run. -/
theorem run_invariant {encode : Fields → String} {view : View} {inv : Client → Prop}
    (initial : inv (start view))
    (preserved : ∀ {client next}, Sound client → inv client → Move client next → inv next)
    {actions : List Action} (reached : run (step encode) (start view) actions = some next) :
    Sound next ∧ inv next := by
  have kept : ∀ {client next}, Moves client next → Sound client ∧ inv client →
      Sound next ∧ inv next := by
    intro client next moves
    induction moves with
    | refl => exact id
    | tail _ last ih =>
        intro held
        have before := ih held
        exact ⟨before.1.move last, preserved before.1 before.2 last⟩
  have stepKept : ∀ {client : Client} {action : Action} {next : Client}, Sound client ∧ inv client →
      step encode client action = some next → Sound next ∧ inv next :=
    fun held stepped => kept (step_moves held.1 stepped) held
  have initially : Sound (start view) ∧ inv (start view) := ⟨start_sound view, initial⟩
  exact Brook.Transition.run_invariant_of_step stepKept initially reached

end Brook.Transport
