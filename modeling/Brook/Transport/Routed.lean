import Brook.Transport.Joined

namespace Brook.Transport

open Brook.CallTask (CommandError)
open Brook.SignedIn (View)
open Brook.Transition (run run_append run_cons run_nil)
open Brook.Ws (Json)

/-! What reaches the mailbox of a call: its `call.joined`, then every frame of the call that comes
while the route stands, in order. -/

/-- A frame of a call that answers no command: the call, and what its task is handed. -/
def callFrame? (frame : Json) : Option (String × CallFrame) :=
  if (reOf frame).isSome ∨ text frame "type" = "ready" ∨ text frame "type" = "channel.call" ∨
      (text frame "type").startsWith "call." = false then none
  else some (text (dataOf frame) "call_id", ⟨text frame "type", dataOf frame⟩)

/-- A frame of this call comes in. -/
def Event.frameOf (callId : String) : Event → Option CallFrame
  | .received _ frame => ((callFrame? frame).filter fun call => call.1 = callId).map Prod.snd
  | _ => none

/-- A frame of this call is handed to a mailbox. -/
def Event.handed (callId : String) : Event → Option (Mailbox × CallFrame)
  | .delivered mailbox frame =>
      if text frame.data "call_id" = callId then some (mailbox, frame) else none
  | _ => none

def Event.reroute (callId : String) (current : Option Mailbox) : Event → Option Mailbox
  | .routed other mailbox => if other = callId then some mailbox else current
  | .unrouted other => if other = callId then none else current
  | _ => current

def Event.reroutes (callId : String) : Event → Bool
  | .routed other _ => other = callId
  | .unrouted other => other = callId
  | _ => false

/-- Nothing about frames or routes. -/
def Event.unrouting : Event → Bool
  | .received _ _ => false
  | .delivered _ _ => false
  | .routed _ _ => false
  | .unrouted _ => false
  | _ => true

/-- While a call keeps its route, its mailbox is handed its frames and nothing else. -/
structure Carries (client : Client) (more : List Event) (next : Client) : Prop where
  routes : ∀ callId, next.routes.get? callId =
    more.foldl (Event.reroute callId) (client.routes.get? callId)
  hands : ∀ callId mailbox, client.routes.get? callId = some mailbox →
    (∀ event ∈ more, event.reroutes callId = false) →
      more.filterMap (Event.handed callId) =
        (more.filterMap (Event.frameOf callId)).map (mailbox, ·)
  installs : ∀ callId mailbox, .routed callId mailbox ∉ more

def Forwards (client next : Client) : Prop :=
  ∃ more, next.log = client.log ++ more ∧ Carries client more next

variable {client next : Client} {link : Link}

theorem foldl_reroute_still {callId : String} {more : List Event} {current : Option Mailbox}
    (still : ∀ event ∈ more, event.reroutes callId = false) :
    more.foldl (Event.reroute callId) current = current := by
  induction more with
  | nil => rfl
  | cons event rest ih =>
      have one : event.reroute callId current = current := by
        have is := still event List.mem_cons_self
        cases event with
        | routed other mailbox => exact if_neg (of_decide_eq_false is)
        | unrouted other => exact if_neg (of_decide_eq_false is)
        | _ => rfl
      rw [List.foldl_cons, one]
      exact ih fun other mem => still other (List.mem_cons_of_mem _ mem)

theorem Forwards.refl (client : Client) : Forwards client client :=
  ⟨[], by simp, fun _ => rfl, fun _ _ _ _ => rfl, by simp⟩

theorem Forwards.trans {last : Client} (front : Forwards client next) (back : Forwards next last) :
    Forwards client last := by
  obtain ⟨more, log, carries⟩ := front
  obtain ⟨rest, later, carriesLater⟩ := back
  refine ⟨more ++ rest, by rw [later, log, List.append_assoc], fun callId => ?_,
    fun callId mailbox found still => ?_, fun callId mailbox mem => ?_⟩
  · rw [carriesLater.routes, carries.routes, List.foldl_append]
  · have before : ∀ event ∈ more, event.reroutes callId = false := fun event mem =>
      still event (List.mem_append_left _ mem)
    have kept : next.routes.get? callId = some mailbox := by
      rw [carries.routes, foldl_reroute_still before, found]
    rw [List.filterMap_append, List.filterMap_append, List.map_append,
      carries.hands callId mailbox found before, carriesLater.hands callId mailbox kept
        fun event mem => still event (List.mem_append_right _ mem)]
  · rcases List.mem_append.mp mem with before | after
    · exact carries.installs callId mailbox before
    · exact carriesLater.installs callId mailbox after

theorem kinds_of_unrouting {event : Event} (is : event.unrouting = true) (callId : String)
    (current : Option Mailbox) : event.reroute callId current = current ∧
      event.handed callId = none ∧ event.frameOf callId = none ∧
        ∀ mailbox, event ≠ .routed callId mailbox := by
  cases event <;> first | exact ⟨rfl, rfl, rfl, fun _ same => by cases same⟩ | cases is

/-- A step beside frames and routes. -/
theorem Forwards.beside {more : List Event} (log : next.log = client.log ++ more)
    (routes : next.routes = client.routes) (aside : ∀ event ∈ more, event.unrouting = true) :
    Forwards client next := by
  refine ⟨more, log, fun callId => ?_, fun callId mailbox _ _ => ?_, fun callId mailbox mem => ?_⟩
  · rw [routes]
    clear log
    induction more with
    | nil => rfl
    | cons event rest ih =>
        rw [List.foldl_cons, (kinds_of_unrouting (aside event List.mem_cons_self) callId _).1]
        exact ih fun other mem => aside other (List.mem_cons_of_mem _ mem)
  · have none_handed : more.filterMap (Event.handed callId) = [] :=
      List.filterMap_eq_nil_iff.mpr fun event mem =>
        (kinds_of_unrouting (aside event mem) callId none).2.1
    have none_come : more.filterMap (Event.frameOf callId) = [] :=
      List.filterMap_eq_nil_iff.mpr fun event mem =>
        (kinds_of_unrouting (aside event mem) callId none).2.2.1
    rw [none_handed, none_come]
    rfl
  · exact (kinds_of_unrouting (aside _ mem) callId none).2.2.2 mailbox rfl

/-- A frame that no mailbox is handed. -/
theorem Forwards.heard (client : Client) {frame : Json} (other : callFrame? frame = none) :
    Forwards client (client.note (.received client.sockets frame)) := by
  refine ⟨_, rfl, fun callId => rfl, fun callId mailbox _ _ => ?_, by simp⟩
  simp [Event.handed, Event.frameOf, other, List.filterMap_cons]

theorem Forwards.fails (client : Client) (wanted : Option Wanted) (error : CommandError) :
    Forwards client (client.fail wanted error) := by
  rw [Client.fail_eq]
  refine .beside rfl rfl fun event mem => ?_
  obtain ⟨own, -, rfl⟩ := settled_kind mem
  rfl

theorem settled_unrouting {now : Nat} {waiting : List Wanted} {error : CommandError}
    {event : Event} (mem : event ∈ Client.settled now waiting error) :
    event.unrouting = true := by
  obtain ⟨own, -, rfl⟩ := settled_kind mem
  rfl

theorem Forwards.finish (client : Client) (link : Link) :
    Forwards client (client.finish link) := by
  rw [Client.finish, Client.failAll_eq]
  refine .beside (List.append_assoc _ _ _) rfl fun event mem => ?_
  rcases List.mem_append.mp mem with isOver | told
  · rw [List.mem_singleton] at isOver
    subst isOver
    rfl
  · exact settled_unrouting told

theorem Forwards.silent {client next : Client} (log : next.log = client.log)
    (routes : next.routes = client.routes) : Forwards client next :=
  .beside (by rw [log, List.append_nil]) routes (by simp)

theorem Forwards.one {client next : Client} {event : Event} (log : next.log = client.log ++ [event])
    (routes : next.routes = client.routes) (aside : event.unrouting = true) :
    Forwards client next :=
  .beside log routes fun other mem => by rwa [List.mem_singleton.mp mem]

theorem Forwards.keepUp (client : Client) (link : Link) (reached : Bool) (took : Nat) :
    Forwards client (client.keepUp link reached took) := by
  rw [Client.keepUp]
  split
  case isFalse => exact .silent rfl rfl
  case isTrue =>
    rw [Client.sendReauth]
    cases client.session.store.session with
    | none => exact .silent rfl rfl
    | some session =>
        cases reached with
        | true => exact .one rfl rfl rfl
        | false =>
            have sent : Forwards client ({ client with now := client.now + took }.note
                (.wrote client.sockets (Client.frameId client.conn.generation (link.nextId + 1))
                  (.auth client.session.store.rev))) := .one rfl rfl rfl
            exact sent.trans (.finish _ _)

theorem Forwards.submit (client : Client) (out : Outgoing) :
    Forwards client (client.submit out) := by
  rw [Client.submit]
  split
  case isTrue => exact .fails client _ _
  case isFalse => exact .one rfl rfl rfl

theorem Forwards.enqueue (client : Client) (out : Outgoing) :
    Forwards client (client.enqueue out) := by
  rw [Client.enqueue]
  split
  case isTrue => exact .fails client _ _
  case isFalse =>
    split
    case isTrue => exact .fails client _ _
    case isFalse => exact .one rfl rfl rfl

theorem Forwards.writeCommand (encode : Fields → String) (client : Client) (link : Link)
    (out : Outgoing) (sent : Sent) (took : Nat) :
    Forwards client (client.writeCommand encode link out sent took) := by
  rw [Client.writeCommand]
  split
  case isTrue => exact .fails client _ _
  case isFalse =>
    split
    case isTrue => exact .refl client
    case isFalse =>
      dsimp only
      split
      case isTrue => exact (Forwards.fails client _ _).trans (.silent rfl rfl)
      case isFalse =>
        have handed : Forwards client ({ client with now := client.now + took }.note
            (.wrote client.sockets (Client.frameId out.generation (link.nextId + 1))
              (.command out client.now))) := .one rfl rfl rfl
        cases sent with
        | done => exact handed.trans (.silent rfl rfl)
        | failed => exact (handed.trans (.fails _ _ _)).trans (.finish _ _)
        | stalled => exact handed.trans (.finish _ _)

theorem get?_unrouted (routes : Table String Mailbox) (callId other : String) :
    (routes.filter fun key _ => key ≠ callId).get? other =
      (Event.unrouted callId).reroute other (routes.get? other) := by
  rw [Table.get?_filter, Event.reroute]
  by_cases same : callId = other
  · rw [if_pos same, Option.filter_eq_none_iff]
    exact fun _ _ => by simp [same]
  · rw [if_neg same]
    cases routes.get? other with
    | none => rfl
    | some mailbox => exact Option.filter_some_pos (decide_eq_true fun back => same back.symm)

/-- An event of a call goes to the mailbox of its route. -/
theorem Forwards.onCall (client : Client) {frame : Json} (others : List Event)
    (aside : ∀ event ∈ others, event.unrouting = true)
    (ofCall : callFrame? frame = some (text (dataOf frame) "call_id",
      ⟨text frame "type", dataOf frame⟩)) :
    Forwards client ({ client with
      log := client.log ++ Event.received client.sockets frame :: others }.onCall
        (text frame "type") (dataOf frame)) := by
  have quiet : ∀ callId, others.filterMap (Event.handed callId) = [] ∧
      others.filterMap (Event.frameOf callId) = [] ∧
      ∀ current, others.foldl (Event.reroute callId) current = current := fun callId =>
    ⟨List.filterMap_eq_nil_iff.mpr fun event mem => (kinds_of_unrouting (aside event mem) callId
        none).2.1,
      List.filterMap_eq_nil_iff.mpr fun event mem => (kinds_of_unrouting (aside event mem) callId
        none).2.2.1,
      fun current => foldl_reroute_still fun event mem => by
        have is := aside event mem
        cases event <;> first | rfl | cases is⟩
  -- The frame comes in, and then this is done with it.
  have whole : ∀ {next : Client} (tail : List Event),
      next.log = client.log ++ (Event.received client.sockets frame :: others) ++ tail →
      (∀ callId, next.routes.get? callId =
        tail.foldl (Event.reroute callId) (client.routes.get? callId)) →
      (∀ callId mailbox, client.routes.get? callId = some mailbox →
        (∀ event ∈ tail, event.reroutes callId = false) → tail.filterMap (Event.handed callId) =
          if text (dataOf frame) "call_id" = callId
          then [(mailbox, ⟨text frame "type", dataOf frame⟩)] else []) →
      (∀ callId, tail.filterMap (Event.frameOf callId) = []) →
      (∀ callId mailbox, .routed callId mailbox ∉ tail) → Forwards client next := by
    intro next tail log routes hands come installs
    refine ⟨_, by rw [log, List.append_assoc], fun callId => ?_,
      fun callId mailbox found still => ?_, fun callId mailbox mem => ?_⟩
    · rw [routes, List.foldl_append, List.foldl_cons, (quiet callId).2.2]
      rfl
    · have handed := hands callId mailbox found fun event mem =>
        still event (List.mem_append_right _ mem)
      rw [List.filterMap_append, List.filterMap_append, handed, come]
      by_cases same : text (dataOf frame) "call_id" = callId <;>
        simp [List.filterMap_cons, (quiet callId).1, (quiet callId).2.1, Event.handed,
          Event.frameOf, ofCall, same, Option.filter]
    · rcases List.mem_append.mp mem with first | last
      · simp only [List.mem_cons, reduceCtorEq, false_or] at first
        exact (kinds_of_unrouting (aside _ first) callId none).2.2.2 mailbox rfl
      · exact installs callId mailbox last
  rw [Client.onCall]
  split
  case h_1 unrouted =>
    refine whole [] (List.append_nil _).symm (fun _ => rfl) (fun callId mailbox found _ => ?_)
      (fun _ => rfl) (by simp)
    rw [if_neg]
    · rfl
    · rintro rfl
      rw [show client.routes.get? _ = none from unrouted] at found
      cases found
  case h_2 routed found =>
    have found : client.routes.get? (text (dataOf frame) "call_id") = some routed := found
    split
    case isTrue =>
      refine whole [.unrouted (text (dataOf frame) "call_id")] rfl
        (fun callId => get?_unrouted _ _ _) (fun callId mailbox was still => ?_) (fun _ => rfl)
        (by simp)
      have other := still _ (List.mem_singleton_self _)
      rw [if_neg (of_decide_eq_false other)]
      rfl
    case isFalse =>
      refine whole [.delivered routed ⟨text frame "type", dataOf frame⟩] rfl (fun _ => rfl)
        (fun callId mailbox was _ => ?_) (fun _ => rfl) (by simp)
      by_cases same : text (dataOf frame) "call_id" = callId
      · subst same
        cases was.symm.trans found
        simp [Event.handed]
      · simp [Event.handed, same]

/-- A confirmed join installs the route right after its mailbox got `call.joined`. -/
def Installs (client next : Client) : Prop :=
  ∃ frame mailbox expect reply, (reOf frame).isSome ∧ text frame "type" = "call.joined" ∧
    next.log = client.log ++ [.received client.sockets frame,
      .delivered mailbox ⟨"call.joined", dataOf frame⟩,
      .routed (text (dataOf frame) "call_id") mailbox,
      .result reply client.now (replyIn expect frame)] ∧
    next.routes = client.routes.put (text (dataOf frame) "call_id") mailbox

def Advances (client next : Client) : Prop := Forwards client next ∨ Installs client next

theorem callFrame?_of_reply {frame : Json} {re : String} (answers : reOf frame = some re) :
    callFrame? frame = none := if_pos (.inl (by rw [answers]; rfl))

theorem onReply_advances (client : Client) (link : Link) {frame : Json} {re : String}
    (answers : reOf frame = some re) :
    let handled := (client.note (.received client.sockets frame)).onReply link re
      (text frame "type") (dataOf frame)
    Advances client { handled.1 with link := some handled.2 } := by
  have heard : Forwards client (client.note (.received client.sockets frame)) :=
    .heard client (callFrame?_of_reply answers)
  dsimp only [Client.onReply]
  cases link.pending.get? re with
  | none => exact .inl (heard.trans (.silent rfl rfl))
  | some waiting =>
      dsimp only
      split
      case isFalse => exact .inl (heard.trans (.one rfl rfl rfl))
      case isTrue joined =>
        split
        case isTrue => exact .inl (heard.trans (.one rfl rfl rfl))
        case isFalse =>
          cases waiting.wanted.route with
          | none => exact .inl (heard.trans (.one rfl rfl rfl))
          | some mailbox =>
              refine .inr ⟨frame, mailbox, waiting.wanted.expect, waiting.wanted.reply,
                by rw [answers]; rfl, joined.1, ?_, rfl⟩
              simp [Client.answer, Client.note, Client.install, joined.1, replyIn, dataOf]

/-- What a frame's handling makes of the client: the socket stays with it, unless it became
ready. -/
structure HandledRoutes (client : Client) (handled : Client × Link × Bool) : Prop where
  advances : Advances client { handled.1 with link := some handled.2.1 }
  ready : handled.2.2 = true → Forwards client handled.1

theorem HandledRoutes.forwards {handled : Client × Link × Bool}
    (forwards : Forwards client handled.1) : HandledRoutes client handled :=
  ⟨.inl (forwards.trans (.silent rfl rfl)), fun _ => forwards⟩

theorem handleText_advances (client : Client) (link : Link) (frame : Json) :
    HandledRoutes client
      ((client.note (.received client.sockets frame)).handleText link frame) := by
  rw [Client.handleText]
  dsimp only
  cases answers : reOf frame with
  | some re =>
      have asked : (frame.get? "re").isNone = false := by
        cases field : frame.get? "re" with
        | none => simp [reOf, field] at answers
        | some => rfl
      rw [reOf] at answers
      simp only [answers, asked, Bool.false_eq_true, if_false]
      exact ⟨onReply_advances client link answers, fun is => by cases is⟩
  | none =>
      have noted : ∃ others, (∀ event ∈ others, event.unrouting = true) ∧
          (if (frame.get? "re").isNone then
            (client.note (.received client.sockets frame)).note
              (.raw (text frame "type") ((frame.get? "data").getD .null))
          else client.note (.received client.sockets frame)) =
            { client with log := client.log ++ Event.received client.sockets frame :: others } := by
        split
        case isTrue =>
          exact ⟨[.raw (text frame "type") (dataOf frame)], by simp [Event.unrouting],
            by simp [Client.note, dataOf]⟩
        case isFalse => exact ⟨[], by simp, rfl⟩
      obtain ⟨others, aside, is⟩ := noted
      have heard : callFrame? frame = none → Forwards client { client with
          log := client.log ++ Event.received client.sockets frame :: others } := fun other =>
        (Forwards.heard client other).trans (.beside (by simp [Client.note]) rfl aside)
      have unanswered := answers
      rw [reOf] at answers
      simp only [answers, is]
      split
      case isTrue ready =>
        exact .forwards ((heard (if_pos (.inr (.inl ready)))).trans (.one rfl rfl rfl))
      case isFalse ready =>
        split
        case isTrue channel =>
          exact .forwards ((heard (if_pos (.inr (.inr (.inl channel))))).trans (.one rfl rfl rfl))
        case isFalse channel =>
          split
          case isTrue call =>
            refine .forwards (.onCall client others aside (if_neg ?_))
            simp [unanswered, ready, channel, call]
          case isFalse call =>
            refine .forwards ((heard (if_pos ?_)).trans (.one rfl rfl rfl))
            simp [call]

theorem onText_advances (client : Client) (link : Link) (frame : Json) (reached : Bool)
    (took : Nat) : Advances client (client.onText link frame reached took) := by
  rw [Client.onText]
  split
  case h_1 reauth answered =>
    rw [Client.answersReauth, Option.filter_eq_some_iff] at answered
    have answers : reOf frame = some reauth.id := of_decide_eq_true answered.2
    have heard := Forwards.heard client (callFrame?_of_reply answers)
    split
    case isTrue => exact .inl (heard.trans (.keepUp _ _ _ _))
    case isFalse => exact .inl (heard.trans (.finish _ _))
  case h_2 =>
    have handled := handleText_advances client link frame
    generalize (client.note (.received client.sockets frame)).handleText link frame = result
      at handled
    obtain ⟨later, laterLink, becameReady⟩ := result
    cases becameReady with
    | false => exact handled.advances
    | true => exact .inl ((handled.ready rfl).trans (.keepUp _ _ _ _))

theorem onRevision_forwards (client : Client) (link : Link) (reached : Bool) (took : Nat) :
    Forwards client (client.onRevision link reached took) := by
  have seen : Forwards client { client with seen := true } := .silent rfl rfl
  rw [Client.onRevision]
  dsimp only
  split
  case isTrue => exact seen.trans (.finish _ _)
  case isFalse =>
    split
    case isTrue => exact seen.trans (.keepUp _ _ _ _)
    case isFalse => exact seen

/-- A call task gives its route back. -/
theorem unroute_forwards (client : Client) (callId : String) :
    Forwards client ({ client with
      routes := client.routes.filter fun other _ => other ≠ callId }.note (.unrouted callId)) :=
  ⟨_, rfl, fun other => get?_unrouted _ _ _, fun _ _ _ _ => rfl, by simp⟩

theorem step_advances {encode : Fields → String} {action : Action}
    (stepped : step encode client action = some next) : Advances client next := by
  cases action with
  | tick | session | mailboxGone =>
      cases stepped
      exact .inl (.silent rfl rfl)
  | request generation frame expect route =>
      cases stepped
      have counted : Forwards client { client with replies := client.replies + 1 } :=
        .silent rfl rfl
      exact .inl (counted.trans (.submit _ _))
  | notify generation frame =>
      cases stepped
      exact .inl (.submit _ _)
  | enqueue index =>
      obtain ⟨out, -, rfl⟩ := Option.map_eq_some_iff.mp stepped
      have passed : Forwards client { client with admitted := client.admitted.eraseIdx index } :=
        .silent rfl rfl
      exact .inl (passed.trans (.enqueue _ _))
  | giveUp reply =>
      cases stepped
      exact .inl (.one rfl rfl rfl)
  | unroute callId =>
      cases stepped
      exact .inl (unroute_forwards client callId)
  | publish index =>
      obtain ⟨revision, -, rfl⟩ := Option.map_eq_some_iff.mp stepped
      exact .inl (.silent rfl rfl)
  | mark =>
      simp only [step, Option.ite_none_left_eq_some] at stepped
      obtain ⟨-, stepped⟩ := stepped
      cases stepped
      exact .inl (.silent rfl rfl)
  | connect =>
      simp only [step, Option.ite_none_left_eq_some] at stepped
      obtain ⟨-, stepped⟩ := stepped
      cases stepped
      exact .inl (.one rfl rfl rfl)
  | revision reached took =>
      simp only [step, Option.bind_eq_some_iff, Option.ite_none_left_eq_some] at stepped
      obtain ⟨link, -, -, stepped⟩ := stepped
      cases stepped
      exact .inl (onRevision_forwards client link reached took)
  | take sent took =>
      simp only [step, Option.bind_eq_some_iff] at stepped
      obtain ⟨link, -, stepped⟩ := stepped
      split at stepped
      case h_1 => cases stepped
      case h_2 out rest first =>
        cases stepped
        have taken : Forwards client { client with queue := rest } := .silent rfl rfl
        exact .inl (taken.trans (.writeCommand encode _ link out sent took))
  | text frame reached took =>
      obtain ⟨link, -, rfl⟩ := Option.map_eq_some_iff.mp stepped
      cases frame with
      | none => exact .inl (.refl client)
      | some frame => exact onText_advances client link frame reached took
  | deadline =>
      obtain ⟨link, -, rfl⟩ := Option.map_eq_some_iff.mp stepped
      rw [Client.onDeadline]
      split
      case isTrue => exact .inl (.finish client link)
      case isFalse =>
        rw [Client.expire, Client.failAll_eq]
        exact .inl (.beside rfl rfl fun event mem => settled_unrouting mem)
  | close =>
      obtain ⟨link, -, rfl⟩ := Option.map_eq_some_iff.mp stepped
      exact .inl (.finish client link)
  | stop =>
      simp only [step, Option.ite_none_left_eq_some] at stepped
      obtain ⟨-, stepped⟩ := stepped
      cases stepped
      rw [Client.stop, Client.failAll_eq]
      refine .inl (.beside (List.append_assoc _ _ _) rfl fun event mem => ?_)
      rcases List.mem_append.mp mem with isOver | told
      · rw [List.mem_singleton] at isOver
        subst isOver
        rfl
      · exact settled_unrouting told

/-- The entries right before a route is installed: the answer to a join came in, and the mailbox
was handed it. -/
def Opening (front : List Event) (callId : String) (mailbox : Mailbox) : Prop :=
  ∃ before socket frame, front = before ++ [.received socket frame,
      .delivered mailbox ⟨"call.joined", dataOf frame⟩] ∧
    (reOf frame).isSome ∧ text frame "type" = "call.joined" ∧
    text (dataOf frame) "call_id" = callId

/-- Up to when the call is routed anew or its route goes, the mailbox gets the call's frames. -/
def Delivered (callId : String) (mailbox : Mailbox) (back : List Event) : Prop :=
  (∀ event ∈ back, event.reroutes callId = false) →
    back.filterMap (Event.handed callId) = (back.filterMap (Event.frameOf callId)).map (mailbox, ·)

structure Delivers (client : Client) : Prop where
  routes : ∀ callId, client.routes.get? callId =
    client.log.foldl (Event.reroute callId) none
  routed : ∀ {front callId mailbox back}, client.log = front ++ .routed callId mailbox :: back →
    Opening front callId mailbox ∧ Delivered callId mailbox back

/-- The route of a call stands as long as nothing reroutes it. -/
theorem Delivers.standing (delivers : Delivers client) {front back : List Event} {callId : String}
    {mailbox : Mailbox} (split : client.log = front ++ .routed callId mailbox :: back)
    (still : ∀ event ∈ back, event.reroutes callId = false) :
    client.routes.get? callId = some mailbox := by
  rw [delivers.routes, split, List.foldl_append, List.foldl_cons, foldl_reroute_still still]
  exact if_pos rfl

theorem Delivers.forwards (delivers : Delivers client) (forwards : Forwards client next) :
    Delivers next := by
  obtain ⟨more, log, carries⟩ := forwards
  refine ⟨fun callId => ?_, fun {front callId mailbox back} split => ?_⟩
  · rw [carries.routes, delivers.routes, log, List.foldl_append]
  · rw [log] at split
    rcases split_append split with ⟨tail, is, rfl⟩ | ⟨between, -, is⟩
    · obtain ⟨opening, delivered⟩ := delivers.routed is
      refine ⟨opening, fun still => ?_⟩
      have before : ∀ event ∈ tail, event.reroutes callId = false := fun event mem =>
        still event (List.mem_append_left _ mem)
      rw [List.filterMap_append, List.filterMap_append, List.map_append, delivered before,
        carries.hands callId mailbox (delivers.standing is before)
          fun event mem => still event (List.mem_append_right _ mem)]
    · exact absurd (is ▸ List.mem_append_right _ List.mem_cons_self)
        (carries.installs callId mailbox)

theorem Delivers.installs (delivers : Delivers client) (installs : Installs client next) :
    Delivers next := by
  obtain ⟨frame, mailbox, expect, reply, answers, joined, log, routes⟩ := installs
  obtain ⟨re, answered⟩ := Option.isSome_iff_exists.mp answers
  have other := callFrame?_of_reply answered
  refine ⟨fun callId => ?_, fun {front callId owner back} split => ?_⟩
  · rw [routes, Table.get?_put, log, List.foldl_append, ← delivers.routes]
    simp [Event.reroute, eq_comm]
  · rw [log] at split
    rcases split_append split with ⟨tail, is, rfl⟩ | ⟨between, rfl, is⟩
    · obtain ⟨opening, delivered⟩ := delivers.routed is
      refine ⟨opening, fun still => ?_⟩
      have elsewhere : text (dataOf frame) "call_id" ≠ callId := by
        have kept := still (.routed (text (dataOf frame) "call_id") mailbox) (by simp)
        simpa [Event.reroutes] using kept
      rw [List.filterMap_append, List.filterMap_append, List.map_append,
        delivered fun event mem => still event (List.mem_append_left _ mem)]
      simp [Event.handed, Event.frameOf, other, elsewhere, List.filterMap_cons]
    · -- Of the entries of this step only the third one installs a route.
      rcases between with _ | ⟨first, _ | ⟨second, _ | ⟨third, _ | ⟨fourth, between⟩⟩⟩⟩
      · simp at is
      · simp at is
      · simp only [List.cons_append, List.nil_append, List.cons.injEq, Event.routed.injEq] at is
        obtain ⟨rfl, rfl, ⟨rfl, rfl⟩, rfl⟩ := is
        exact ⟨⟨client.log, client.sockets, frame, rfl, answers, joined, rfl⟩, fun _ => rfl⟩
      · simp at is
      · simp at is

theorem Delivers.start (view : View) : Delivers (start view) where
  routes callId := by simp [Transport.start]
  routed split := by simp [Transport.start] at split

theorem Delivers.step {encode : Fields → String} {action : Action} (delivers : Delivers client)
    (stepped : step encode client action = some next) : Delivers next :=
  (step_advances stepped).elim delivers.forwards delivers.installs

/-- A call is routed when the answer to its join comes in, and that answer is the first thing its
mailbox gets; after it the mailbox gets every frame of the call, in order and once, until the call
is routed anew or its route goes. -/
theorem routes_deliver {encode : Fields → String} {view : View} {actions : List Action}
    (reached : run (Transport.step encode) (Transport.start view) actions = some client)
    {front back : List Event} {callId : String} {mailbox : Mailbox}
    (split : client.log = front ++ .routed callId mailbox :: back) :
    Opening front callId mailbox ∧ Delivered callId mailbox back := by
  have held : Delivers client := Brook.Transition.run_invariant_of_step
    (fun held stepped => held.step stepped) (.start view) reached
  exact held.routed split

def stateFrame : Json :=
  .obj [("type", .str "call.state"), ("data", .obj [("call_id", .str "k")])]

/-- A join that is answered. -/
def joinedCall : List Action :=
  connected ++ [.request 1 [("type", .str "call.join")] "call.joined" (some 7), .enqueue 0,
    .take .done 0, .text (some joinedFrame) true 0]

/-- A frame of the call while its route stands. -/
theorem step_stateFrame {encode : Fields → String} {mailbox : Mailbox}
    (isOpen : client.link = some link) (routed : client.routes.get? "k" = some mailbox)
    (here : client.gone = []) :
    Transport.step encode client (.text (some stateFrame) true 0) = some { client with
      log := client.log ++ [.received client.sockets stateFrame,
        .raw "call.state" (dataOf stateFrame),
        .delivered mailbox ⟨"call.state", dataOf stateFrame⟩] } := by
  have call : ("call.state").startsWith "call." = true := by decide +kernel
  have ty : text stateFrame "type" = "call.state" := rfl
  have re : stateFrame.get? "re" = none := rfl
  have data : (Json.get? "data" stateFrame).getD .null = dataOf stateFrame := rfl
  have own : text (dataOf stateFrame) "call_id" = "k" := rfl
  simp [Transport.step, isOpen, Client.onText, Client.answersReauth, Client.handleText, re, ty,
    call, Client.onCall, Client.note, data, own, routed, here]

theorem routes_deliver_joined :
    ∃ client front back, run (Transport.step fun _ => "") (Transport.start signedIn)
        (joinedCall ++ [.text (some stateFrame) true 0]) = some client ∧
      client.log = front ++ .routed "k" 7 :: back ∧ Opening front "k" 7 ∧ Delivered "k" 7 back ∧
      back.filterMap (Event.handed "k") = [(7, ⟨"call.state", dataOf stateFrame⟩)] := by
  obtain ⟨joined, reached, ⟨link, isOpen⟩, routed, here, log⟩ :
      ∃ joined, run (Transport.step fun _ => "") (Transport.start signedIn) joinedCall =
          some joined ∧ (∃ link, joined.link = some link) ∧ joined.routes.get? "k" = some 7 ∧
        joined.gone = [] ∧ joined.log = joined.log.take 9 ++
          [.routed "k" 7, .result 0 0 (replyIn "call.joined" joinedFrame)] :=
    ⟨_, rfl, ⟨_, rfl⟩, rfl, rfl, rfl⟩
  generalize joined.log.take 9 = front at log
  have whole : run (Transport.step fun _ => "") (Transport.start signedIn)
      (joinedCall ++ [.text (some stateFrame) true 0]) = _ := run_append _ _ _
  rw [reached, Option.bind_some, run_cons (step_stateFrame isOpen routed here), run_nil] at whole
  have split : joined.log ++ [.received joined.sockets stateFrame,
      .raw "call.state" (dataOf stateFrame), .delivered 7 ⟨"call.state", dataOf stateFrame⟩] =
      front ++ .routed "k" 7 :: [.result 0 0 (replyIn "call.joined" joinedFrame),
        .received joined.sockets stateFrame, .raw "call.state" (dataOf stateFrame),
        .delivered 7 ⟨"call.state", dataOf stateFrame⟩] := by
    rw [log]
    simp
  obtain ⟨opening, delivered⟩ := routes_deliver whole split
  exact ⟨_, _, _, whole, split, opening, delivered, rfl⟩

end Brook.Transport
