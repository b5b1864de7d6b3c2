import Brook.Transition.Log
import Brook.Transport.Traced

namespace Brook.Transport

open Brook.CallTask (CommandError)
open Brook.SignedIn (View)
open Brook.Transition (Justified run)
open Brook.Ws (Json)

/-! Where a command is written: on the one socket of its generation, in the order of the queue and
under an id of its own. -/

def Event.id? : Event → Option String
  | .wrote _ id _ => some id
  | _ => none

def Event.written? : Event → Option Outgoing
  | .wrote _ _ (.command out _) => some out
  | _ => none

def Event.queued? : Event → Option Outgoing
  | .queued out => some out
  | _ => none

/-- Nothing about a socket or the queue. -/
def Event.plain : Event → Bool
  | .queued _ => false
  | .opened _ _ => false
  | .ready _ _ => false
  | .wrote _ _ _ => false
  | .ended _ => false
  | _ => true

/-- A command is written after its check, between the `ready` of its generation on this socket
and the socket's end. -/
def Where (before : List Event) : Event → Prop
  | .wrote socket _ (.command out _) =>
      .admitted out ∈ before ∧ .ready socket out.generation ∈ before ∧ .ended socket ∉ before
  | _ => True

structure Placed (client : Client) : Prop where
  justified : Justified Where client.log
  ids : (client.log.filterMap Event.id?).Nodup
  given : ∀ id ∈ client.log.filterMap Event.id?, ∃ generation number,
    id = Client.frameId generation number ∧ generation ≤ client.conn.generation ∧
      ∀ link, client.link = some link → client.conn.ready = true →
        generation = client.conn.generation → number ≤ link.nextId
  readied : ∀ socket generation, .ready socket generation ∈ client.log →
    generation ≤ client.conn.generation
  owner : ∀ socket other generation, .ready socket generation ∈ client.log →
    .ready other generation ∈ client.log → socket = other
  current : client.conn.ready = true → client.link.isSome = true →
    .ready client.sockets client.conn.generation ∈ client.log
  ended : ∀ socket, .ended socket ∈ client.log →
    socket ≤ client.sockets ∧ (socket = client.sockets → client.link = none)
  admitted : ∀ out ∈ client.admitted ++ client.queue, .admitted out ∈ client.log
  inOrder : (client.log.filterMap Event.written? ++ client.queue).Sublist
    (client.log.filterMap Event.queued?)

variable {client next : Client} {link : Link}

@[simp] theorem filterMap_one {Read : Type} (read : Event → Option Read) (event : Event) :
    [event].filterMap read = (read event).toList := by
  cases is : read event <;> simp [is]

section Plain

variable {later : List Event} (plain : ∀ event ∈ later, event.plain = true)
include plain

theorem filterMap_id_plain : later.filterMap Event.id? = [] := by
  rw [List.filterMap_eq_nil_iff]
  intro event mem
  have is := plain event mem
  cases event <;> first | rfl | cases is

theorem filterMap_written_plain : later.filterMap Event.written? = [] := by
  rw [List.filterMap_eq_nil_iff]
  intro event mem
  have is := plain event mem
  cases event <;> first | rfl | cases is

theorem filterMap_queued_plain : later.filterMap Event.queued? = [] := by
  rw [List.filterMap_eq_nil_iff]
  intro event mem
  have is := plain event mem
  cases event <;> first | rfl | cases is

theorem mem_append_plain {log : List Event} {event : Event} (marked : event.plain = false)
    (mem : event ∈ log ++ later) : event ∈ log := by
  rcases List.mem_append.mp mem with before | after
  · exact before
  · rw [plain event after] at marked
    cases marked

theorem where_plain {before : List Event} {event : Event} (mem : event ∈ later) :
    Where before event := by
  have is := plain event mem
  cases event <;> first | exact trivial | cases is

end Plain

/-- A move that writes nothing and queues nothing. -/
theorem Placed.grow (placed : Placed client) {later : List Event}
    (log : next.log = client.log ++ later) (plain : ∀ event ∈ later, event.plain = true)
    (generation : next.conn.generation = client.conn.generation)
    (ready : next.conn.ready = true → client.conn.ready = true)
    (sockets : next.sockets = client.sockets)
    (closed : client.link = none → next.link = none)
    (link : ∀ nextLink, next.link = some nextLink →
      ∃ link, client.link = some link ∧ link.nextId ≤ nextLink.nextId)
    (admitted : ∀ out ∈ next.admitted ++ next.queue,
      out ∈ client.admitted ++ client.queue ∨ .admitted out ∈ later)
    (queue : next.queue.Sublist client.queue) : Placed next where
  justified := by
    rw [log]
    refine placed.justified.append fun front event back split => ?_
    exact where_plain plain (by simp [split])
  ids := by
    rw [log, List.filterMap_append, filterMap_id_plain plain, List.append_nil]
    exact placed.ids
  given id mem := by
    rw [log, List.filterMap_append, filterMap_id_plain plain, List.append_nil] at mem
    obtain ⟨g, number, is, old, bound⟩ := placed.given id mem
    refine ⟨g, number, is, old.trans generation.ge, fun nextLink isOpen isReady same => ?_⟩
    obtain ⟨link, was, grows⟩ := link nextLink isOpen
    exact (bound link was (ready isReady) (same.trans generation)).trans grows
  readied socket g mem := by
    rw [log] at mem
    rw [generation]
    exact placed.readied socket g (mem_append_plain plain rfl mem)
  owner socket other g mem otherMem := by
    rw [log] at mem otherMem
    exact placed.owner socket other g (mem_append_plain plain rfl mem)
      (mem_append_plain plain rfl otherMem)
  current isReady isOpen := by
    obtain ⟨nextLink, is⟩ := Option.isSome_iff_exists.mp isOpen
    obtain ⟨link, was, -⟩ := link nextLink is
    rw [log, sockets, generation]
    exact List.mem_append_left _ (placed.current (ready isReady) (by rw [was]; rfl))
  ended socket mem := by
    rw [log] at mem
    obtain ⟨bound, only⟩ := placed.ended socket (mem_append_plain plain rfl mem)
    rw [sockets]
    exact ⟨bound, fun same => closed (only same)⟩
  admitted out mem := by
    rw [log]
    rcases admitted out mem with was | is
    · exact List.mem_append_left _ (placed.admitted out was)
    · exact List.mem_append_right _ is
  inOrder := by
    rw [log, List.filterMap_append, List.filterMap_append, filterMap_written_plain plain,
      filterMap_queued_plain plain, List.append_nil, List.append_nil]
    exact ((List.Sublist.refl _).append queue).trans placed.inOrder

/-- A write on the current, ready connection takes an id that was never given. -/
theorem Placed.fresh (placed : Placed client) (isOpen : client.link = some link)
    (ready : client.conn.ready = true) :
    Client.frameId client.conn.generation (link.nextId + 1) ∉ client.log.filterMap Event.id? := by
  intro mem
  obtain ⟨generation, number, is, -, bound⟩ := placed.given _ mem
  obtain ⟨same, numbers⟩ := Client.frameId_inj.mp is
  have given := bound link isOpen ready same.symm
  omega

/-- A write on the current, ready connection. -/
theorem Placed.write (placed : Placed client) (isOpen : client.link = some link)
    (ready : client.conn.ready = true) (what : Written) {nextLink : Link}
    (log : next.log = client.log ++ [.wrote client.sockets
      (Client.frameId client.conn.generation (link.nextId + 1)) what])
    (isNext : next.link = some nextLink) (nextId : nextLink.nextId = link.nextId + 1)
    (conn : next.conn = client.conn) (sockets : next.sockets = client.sockets)
    (admitted : next.admitted = client.admitted)
    (queue : client.queue = (Event.written? (.wrote client.sockets
      (Client.frameId client.conn.generation (link.nextId + 1)) what)).toList ++ next.queue)
    (current : ∀ out moment, what = .command out moment →
      client.conn.generation = out.generation) : Placed next where
  justified := by
    rw [log]
    refine placed.justified.snoc ?_
    cases what with
    | command out moment =>
        refine ⟨placed.admitted out ?_, ?_, fun isOver => ?_⟩
        · rw [queue]
          simp [Event.written?]
        · rw [← current out moment rfl]
          exact placed.current ready (by rw [isOpen]; rfl)
        · rw [(placed.ended _ isOver).2 rfl] at isOpen
          cases isOpen
    | auth => exact trivial
    | leave => exact trivial
  ids := by
    rw [log, List.filterMap_append]
    simp only [Event.id?, List.filterMap_cons, List.filterMap_nil]
    rw [List.nodup_append]
    refine ⟨placed.ids, by simp, fun id mem other here same => ?_⟩
    rw [List.mem_singleton] at here
    subst here same
    exact placed.fresh isOpen ready mem
  given id mem := by
    rw [conn]
    rw [log, List.filterMap_append, List.mem_append] at mem
    rcases mem with before | now
    · obtain ⟨generation, number, is, old, bound⟩ := placed.given id before
      refine ⟨generation, number, is, old, fun other is' _ same => ?_⟩
      rw [isNext] at is'
      cases is'
      have given := bound link isOpen ready same
      omega
    · simp only [Event.id?, List.filterMap_cons, List.filterMap_nil, List.mem_singleton] at now
      refine ⟨_, _, now, le_refl _, fun other is' _ _ => ?_⟩
      rw [isNext] at is'
      cases is'
      omega
  readied socket generation mem := by
    rw [conn]
    rw [log] at mem
    exact placed.readied socket generation (by simpa using mem)
  owner socket other generation mem otherMem := by
    rw [log] at mem otherMem
    exact placed.owner socket other generation (by simpa using mem) (by simpa using otherMem)
  current _ _ := by
    rw [log, conn, sockets]
    exact List.mem_append_left _ (placed.current ready (by rw [isOpen]; rfl))
  ended socket mem := by
    rw [log] at mem
    obtain ⟨bound, only⟩ := placed.ended socket (by simpa using mem)
    rw [sockets]
    refine ⟨bound, fun same => ?_⟩
    rw [only same] at isOpen
    cases isOpen
  admitted out mem := by
    rw [log]
    refine List.mem_append_left _ (placed.admitted out ?_)
    rw [admitted] at mem
    rw [queue]
    rcases List.mem_append.mp mem with waits | waits
    · exact List.mem_append_left _ waits
    · exact List.mem_append_right _ (List.mem_append_right _ waits)
  inOrder := by
    have before := placed.inOrder
    rw [queue] at before
    rw [log, List.filterMap_append, List.filterMap_append]
    cases what <;> simpa [Event.written?, Event.queued?, List.filterMap_cons] using before

theorem Placed.aside (placed : Placed client) (aside : Aside client next) : Placed next := by
  obtain ⟨more, log, quiet, -⟩ := aside.log
  refine placed.grow log (fun event mem => ?_) (by rw [aside.conn]) (by rw [aside.conn]; exact id)
    aside.sockets aside.closed (fun nextLink isNext => ?_) (fun out mem => .inl ?_)
    (by rw [aside.queue])
  · have quiet := quiet event mem
    cases quiet <;> rfl
  · cases was : client.link with
    | none =>
        rw [aside.closed was] at isNext
        cases isNext
    | some link =>
        obtain ⟨later, is, same⟩ := aside.link link was
        rw [is] at isNext
        cases isNext
        exact ⟨link, rfl, same.nextId.ge⟩
  · rwa [aside.admitted, aside.queue] at mem

theorem settled_plain {now : Nat} {waiting : List Wanted} {error : CommandError} {event : Event}
    (mem : event ∈ Client.settled now waiting error) : event.plain = true := by
  obtain ⟨wanted, -, rfl⟩ := List.mem_map.mp mem
  rfl

/-- Beside the socket and the queue. -/
theorem Placed.beside (placed : Placed client) {later : List Event}
    (log : next.log = client.log ++ later) (plain : ∀ event ∈ later, event.plain = true)
    (conn : next.conn = client.conn) (sockets : next.sockets = client.sockets)
    (link : next.link = client.link)
    (admitted : ∀ out ∈ next.admitted ++ next.queue,
      out ∈ client.admitted ++ client.queue ∨ .admitted out ∈ later)
    (queue : next.queue.Sublist client.queue) : Placed next :=
  placed.grow log plain (by rw [conn]) (by rw [conn]; exact id) sockets (by rw [link]; exact id)
    (fun nextLink isNext => ⟨nextLink, by rw [← link, isNext], le_refl _⟩) admitted queue

/-- The socket became ready, on a generation of its own. -/
theorem Placed.becameReady (placed : Placed client) : Placed client.becomeReady where
  justified := placed.justified.snoc trivial
  ids := by simpa [Client.becomeReady, Client.note, Event.id?] using placed.ids
  given id mem := by
    obtain ⟨generation, number, is, old, -⟩ := placed.given id (by
      simpa [Client.becomeReady, Client.note, Event.id?] using mem)
    refine ⟨generation, number, is, old.trans (Nat.le_succ _), fun other _ _ same => ?_⟩
    simp only [Client.becomeReady, Client.note] at same
    omega
  readied socket generation mem := by
    simp only [Client.becomeReady, Client.note, List.mem_append, List.mem_singleton,
      Event.ready.injEq] at mem ⊢
    rcases mem with before | ⟨rfl, rfl⟩
    · exact (placed.readied socket generation before).trans (Nat.le_succ _)
    · exact le_refl _
  owner socket other generation mem otherMem := by
    simp only [Client.becomeReady, Client.note, List.mem_append, List.mem_singleton,
      Event.ready.injEq] at mem otherMem
    rcases mem with before | ⟨rfl, rfl⟩ <;> rcases otherMem with otherBefore | ⟨rfl, is⟩
    · exact placed.owner socket other generation before otherBefore
    · have old := placed.readied socket generation before
      omega
    · have old := placed.readied other _ otherBefore
      omega
    · rfl
  current _ _ := by simp [Client.becomeReady, Client.note]
  ended socket mem := by
    simp only [Client.becomeReady, Client.note, List.mem_append, List.mem_singleton,
      reduceCtorEq, or_false] at mem
    exact placed.ended socket mem
  admitted out mem := List.mem_append_left _ (placed.admitted out mem)
  inOrder := by
    simpa [Client.becomeReady, Client.note, Event.written?, Event.queued?] using placed.inOrder

/-- A connection that begins: nothing was written on it. -/
theorem Placed.opened (placed : Placed client) (sound : Sound client)
    (closed : client.link = none) (runs : client.stopped = false) : Placed client.connect := by
  have unready : client.conn.ready = false := by
    cases ready : client.conn.ready with
    | false => rfl
    | true =>
        have isOpen := sound.ready ready runs
        rw [closed] at isOpen
        cases isOpen
  refine
    { justified := placed.justified.snoc trivial
      ids := ?_
      given := fun id mem => ?_
      readied := fun socket generation mem => placed.readied socket generation (by
        simpa [Client.connect, Client.note] using mem)
      owner := fun socket other generation mem otherMem => placed.owner socket other generation
        (by simpa [Client.connect, Client.note] using mem)
        (by simpa [Client.connect, Client.note] using otherMem)
      current := fun ready _ => absurd (unready.symm.trans ready) (by decide)
      ended := fun socket mem => ?_
      admitted := fun out mem => List.mem_append_left _ (placed.admitted out mem)
      inOrder := ?_ }
  · simpa [Client.connect, Client.note, Event.id?] using placed.ids
  · obtain ⟨generation, number, is, old, -⟩ := placed.given id (by
      simpa [Client.connect, Client.note, Event.id?] using mem)
    exact ⟨generation, number, is, old, fun _ _ ready => absurd (unready.symm.trans ready)
      (by decide)⟩
  · have before : .ended socket ∈ client.log := by simpa [Client.connect, Client.note] using mem
    have bound := (placed.ended socket before).1
    refine ⟨bound.trans (Nat.le_succ _), fun same => ?_⟩
    simp only [Client.connect, Client.note] at same
    omega
  · simpa [Client.connect, Client.note, Event.written?, Event.queued?] using placed.inOrder

theorem Placed.finished (placed : Placed client) (link : Link) :
    Placed (client.finish link) := by
  rw [Client.finish, Client.failAll_eq]
  have isOver : Placed ({ client with
      conn := { client.conn with ready := false }
      link := none }.note (.ended client.sockets)) := by
    refine
      { justified := placed.justified.snoc trivial
        ids := ?_
        given := fun id mem => ?_
        readied := fun socket generation mem => placed.readied socket generation (by
          simpa [Client.note] using mem)
        owner := fun socket other generation mem otherMem =>
          placed.owner socket other generation (by simpa [Client.note] using mem)
            (by simpa [Client.note] using otherMem)
        current := fun is => by cases is
        ended := fun socket mem => ⟨?_, fun _ => rfl⟩
        admitted := fun out mem => List.mem_append_left _ (placed.admitted out mem)
        inOrder := ?_ }
    · simpa [Client.note, Event.id?] using placed.ids
    · obtain ⟨generation, number, is, old, -⟩ := placed.given id (by
        simpa [Client.note, Event.id?] using mem)
      exact ⟨generation, number, is, old, fun _ gone => by cases gone⟩
    · simp only [Client.note, List.mem_append, List.mem_singleton, Event.ended.injEq] at mem
      rcases mem with before | now
      · exact (placed.ended socket before).1
      · exact now.le
    · simpa [Client.note, Event.written?, Event.queued?] using placed.inOrder
  exact isOver.beside rfl (fun event mem => settled_plain mem) rfl rfl rfl (fun out mem => .inl mem)
    (List.Sublist.refl _)

theorem Placed.queued (placed : Placed client) {index : Nat} {out : Outgoing}
    (waits : client.admitted[index]? = some out) :
    Placed ({ client with
      admitted := client.admitted.eraseIdx index
      queue := client.queue ++ [out] }.note (.queued out)) where
  justified := placed.justified.snoc trivial
  ids := by simpa [Client.note, Event.id?] using placed.ids
  given id mem := placed.given id (by simpa [Client.note, Event.id?] using mem)
  readied socket generation mem :=
    placed.readied socket generation (by simpa [Client.note] using mem)
  owner socket other generation mem otherMem := placed.owner socket other generation
    (by simpa [Client.note] using mem) (by simpa [Client.note] using otherMem)
  current ready isOpen := List.mem_append_left _ (placed.current ready isOpen)
  ended socket mem := placed.ended socket (by simpa [Client.note] using mem)
  admitted other mem := by
    refine List.mem_append_left _ (placed.admitted other ?_)
    simp only [Client.note, List.mem_append, List.mem_singleton] at mem ⊢
    rcases mem with before | after | rfl
    · exact .inl (List.mem_of_mem_eraseIdx before)
    · exact .inr after
    · exact .inl (List.mem_of_getElem? waits)
  inOrder := by
    simp only [Client.note, List.filterMap_append, Event.written?, Event.queued?,
      List.filterMap_cons, List.filterMap_nil, List.append_nil, ← List.append_assoc]
    exact placed.inOrder.append (List.Sublist.refl _)

theorem Placed.move (sound : Sound client) (placed : Placed client) (move : Move client next) :
    Placed next := by
  cases move with
  | aside aside => exact placed.aside aside
  | refused =>
      exact placed.beside rfl (by simp [Event.plain]) rfl rfl rfl (fun out mem => .inl mem)
        (List.Sublist.refl _)
  | asked out wanted asked fresh =>
      refine placed.beside rfl (by simp [Event.plain]) rfl rfl rfl (fun other mem => ?_)
        (List.Sublist.refl _)
      simp only [Client.note, List.append_assoc, List.mem_append, List.mem_singleton] at mem ⊢
      rcases mem with before | rfl | after
      · exact .inl (.inl before)
      · exact .inr rfl
      · exact .inl (.inr after)
  | notified out =>
      refine placed.beside rfl (by simp [Event.plain]) rfl rfl rfl (fun other mem => ?_)
        (List.Sublist.refl _)
      simp only [Client.note, List.append_assoc, List.mem_append, List.mem_singleton] at mem ⊢
      rcases mem with before | rfl | after
      · exact .inl (.inl before)
      · exact .inr rfl
      · exact .inl (.inr after)
  | queued index out waits => exact placed.queued waits
  | turnedAway index out error waits =>
      rw [Client.fail_eq]
      exact placed.beside rfl (fun event mem => settled_plain mem) rfl rfl rfl
        (fun other mem => .inl (((List.eraseIdx_sublist _ _).append_right _).subset mem))
        (List.Sublist.refl _)
  | skipped out rest first =>
      have fewer : rest.Sublist client.queue := by
        rw [first]
        exact List.sublist_cons_self _ _
      exact placed.beside (List.append_nil _).symm (by simp) rfl rfl rfl
        (fun other mem => .inl ((fewer.append_left _).subset mem)) fewer
  | unsent link out rest error ids isOpen first =>
      rw [Client.fail_eq]
      have fewer : rest.Sublist client.queue := by
        rw [first]
        exact List.sublist_cons_self _ _
      refine placed.grow rfl (fun event mem => settled_plain mem) rfl id rfl
        (fun closed => ?_) (fun nextLink is => ?_)
        (fun other mem => .inl ((fewer.append_left _).subset mem)) fewer
      · rw [closed] at isOpen
        cases isOpen
      · cases is
        exact ⟨link, isOpen, Nat.le_add_right _ _⟩
  | wrote link out rest took isOpen first ready current =>
      refine placed.write isOpen ready (.command out client.now) ?_ rfl ?_ rfl rfl rfl ?_ ?_
      · rw [current]
        rfl
      · cases out.wanted <;> rfl
      · rw [first]
        rfl
      · rintro _ _ ⟨⟩
        exact current
  | reauth link took isOpen ready =>
      exact placed.write isOpen ready (.auth client.session.store.rev) rfl rfl rfl rfl rfl rfl rfl
        (fun _ _ is => by cases is)
  | received link frame isOpen =>
      exact placed.beside rfl (by simp [Event.plain]) rfl rfl rfl (fun out mem => .inl mem)
        (List.Sublist.refl _)
  | replied link frame re waiting routes more isOpen answers waits quiet =>
      refine placed.grow (List.append_assoc _ _ _) (fun event mem => ?_) rfl id rfl
        (fun closed => ?_) (fun nextLink is => ?_) (fun out mem => .inl mem) (List.Sublist.refl _)
      · simp only [List.cons_append, List.mem_cons, List.mem_append, List.not_mem_nil,
          or_false] at mem
        rcases mem with rfl | inside | rfl
        · rfl
        · have aside := quiet event inside
          cases aside <;> rfl
        · rfl
      · rw [closed] at isOpen
        cases isOpen
      · cases is
        exact ⟨link, isOpen, le_refl _⟩
  | left link frame re waiting isOpen answers waits =>
      have heard : Placed (client.note (.received client.sockets frame)) :=
        placed.beside rfl (by simp [Event.plain]) rfl rfl rfl (fun out mem => .inl mem)
          (List.Sublist.refl _)
      exact heard.write isOpen ((sound.link link isOpen).ready_of_get waits)
        (.leave (text ((frame.get? "data").getD .null) "call_id")) (by simp [Client.note]) rfl rfl rfl
        rfl rfl rfl (fun _ _ is => by cases is)
  | failed link name waiting isOpen =>
      rw [Client.fail_eq]
      refine placed.grow rfl (fun event mem => settled_plain mem) rfl id rfl
        (fun closed => ?_) (fun nextLink is => ?_) (fun out mem => .inl mem) (List.Sublist.refl _)
      · rw [closed] at isOpen
        cases isOpen
      · cases is
        exact ⟨link, isOpen, le_refl _⟩
  | expired link isOpen =>
      rw [Client.expire, Client.failAll_eq]
      refine placed.grow rfl (fun event mem => settled_plain mem) rfl id rfl
        (fun closed => ?_) (fun nextLink is => ?_) (fun out mem => .inl mem) (List.Sublist.refl _)
      · rw [closed] at isOpen
        cases isOpen
      · cases is
        exact ⟨link, isOpen, le_refl _⟩
  | ended link isOpen => exact placed.finished link
  | opened closed runs => exact placed.opened sound closed runs
  | becameReady => exact placed.becameReady
  | stopped =>
      rw [Client.stop, Client.failAll_eq]
      refine placed.grow (List.append_assoc _ _ _) (fun event mem => ?_) rfl id rfl
        (fun _ => rfl) (fun nextLink is => by cases is) (fun out mem => .inl ?_)
        (List.nil_sublist _)
      · rcases List.mem_append.mp mem with stopped | told
        · rw [List.mem_singleton] at stopped
          subst stopped
          rfl
        · exact settled_plain told
      · rcases List.mem_append.mp mem with waits | waits
        · exact List.mem_append_left _ waits
        · cases waits

theorem Placed.start (view : View) : Placed (start view) where
  justified := Brook.Transition.Justified.nil
  ids := List.nodup_nil
  given id mem := by cases mem
  readied socket generation mem := by cases mem
  owner socket other generation mem := by cases mem
  current ready := by cases ready
  ended socket mem := by cases mem
  admitted out mem := by cases mem
  inOrder := List.nil_sublist _

end Brook.Transport
