import Brook.Janus.Client

namespace Brook.Janus

open Brook.Transition (run)

/-! The events of a handle reach its listener one at a time and in the order they came, off the
read loop. -/

def Event.dispatchedTo (handle : HandleId) : Event → Option Message
  | .dispatched other message => if other = handle then some message else none
  | _ => none

def Event.startedBy (handle : HandleId) : Event → Option Message
  | .started other message => if other = handle then some message else none
  | _ => none

def Event.finishedBy (handle : HandleId) : Event → Option Message
  | .finished other message => if other = handle then some message else none
  | _ => none

/-- The messages of a handle whose tasks have come so far. -/
def Client.messages (client : Client) (far : Progress → Bool) (handle : HandleId) : List Message :=
  (client.deliveries.filter fun delivery =>
    delivery.handle = handle ∧ far delivery.progress = true).map (·.message)

/-- The tasks of a handle are chained, and the log tells how far they are. -/
structure Lined (client : Client) : Prop where
  ordered : ∀ {i j : Nat} {a b : Delivery}, i < j → client.deliveries[i]? = some a →
    client.deliveries[j]? = some b → a.handle = b.handle → b.progress ≠ .queued →
    a.progress = .done
  linked : ∀ {i j : Nat} {a b : Delivery}, i < j → client.deliveries[i]? = some a →
    client.deliveries[j]? = some b → a.handle = b.handle →
    a.progress = .done ∨ ∃ prev, b.prev = some prev ∧ i ≤ prev
  prevs : ∀ {j : Nat} {b : Delivery} {prev : Nat}, client.deliveries[j]? = some b →
    b.prev = some prev →
    prev < j ∧ ∃ a, client.deliveries[prev]? = some a ∧ a.handle = b.handle
  chained : ∀ {i : Nat} {a : Delivery}, client.deliveries[i]? = some a →
    a.progress = .done ∨ ∃ last, client.chains.get? a.handle = some last ∧ i ≤ last
  chains : ∀ {handle last}, client.chains.get? handle = some last →
    ∃ a, client.deliveries[last]? = some a ∧ a.handle = handle
  dispatched : ∀ handle, client.log.filterMap (Event.dispatchedTo handle) =
    client.messages (fun _ => true) handle
  started : ∀ handle, client.log.filterMap (Event.startedBy handle) =
    client.messages (· ≠ .queued) handle
  finished : ∀ handle, client.log.filterMap (Event.finishedBy handle) =
    client.messages (· = .done) handle

variable {client next : Client} {handle : HandleId}

theorem empty_lined : Lined .empty where
  ordered _ is := by cases is
  linked _ is := by cases is
  prevs is := by cases is
  chained is := by cases is
  chains is := by cases is
  dispatched _ := rfl
  started _ := rfl
  finished _ := rfl

/-! ### What has nothing to do with the listeners -/

def Event.isListened : Event → Bool
  | .dispatched _ _ => true
  | .started _ _ => true
  | .finished _ _ => true
  | _ => false

structure Still (client next : Client) : Prop where
  deliveries : next.deliveries = client.deliveries
  chains : next.chains = client.chains
  log : ∃ events, next.log = client.log ++ events ∧ ∀ event ∈ events, event.isListened = false

theorem unlistened {events : List Event} (quiet : ∀ event ∈ events, event.isListened = false) :
    events.filterMap (Event.dispatchedTo handle) = [] ∧
      events.filterMap (Event.startedBy handle) = [] ∧
      events.filterMap (Event.finishedBy handle) = [] := by
  simp only [List.filterMap_eq_nil_iff]
  refine ⟨fun event mem => ?_, fun event mem => ?_, fun event mem => ?_⟩ <;>
    · have quiet := quiet event mem
      cases event <;> first | rfl | cases quiet

theorem Lined.still (lined : Lined client) (still : Still client next) : Lined next := by
  obtain ⟨deliveries, chains, events, log, quiet⟩ := still
  have messages : ∀ far handle, next.messages far handle = client.messages far handle :=
    fun far handle => by rw [Client.messages, Client.messages, deliveries]
  refine ⟨?_, ?_, ?_, ?_, ?_, fun handle => ?_, fun handle => ?_, fun handle => ?_⟩
  · rw [deliveries]; exact lined.ordered
  · rw [deliveries]; exact lined.linked
  · rw [deliveries]; exact lined.prevs
  · rw [deliveries, chains]; exact lined.chained
  · rw [deliveries, chains]; exact lined.chains
  · rw [log, List.filterMap_append, (unlistened quiet).1, List.append_nil, messages,
      lined.dispatched]
  · rw [log, List.filterMap_append, (unlistened quiet).2.1, List.append_nil, messages,
      lined.started]
  · rw [log, List.filterMap_append, (unlistened quiet).2.2, List.append_nil, messages,
      lined.finished]

theorem Still.refl (client : Client) : Still client client :=
  ⟨rfl, rfl, [], (List.append_nil _).symm, fun _ mem => nomatch mem⟩

theorem Still.noted {base : Client} {event : Event} (quiet : event.isListened = false)
    (deliveries : base.deliveries = client.deliveries) (chains : base.chains = client.chains)
    (log : base.log = client.log) : Still client (base.note event) :=
  ⟨deliveries, chains, [event], by rw [Client.note, log],
    fun other mem => by rw [List.mem_singleton.mp mem, quiet]⟩

/-- A request moves nothing that the listeners see. -/
theorem still_of_request {action : Action} (stepped : step client action = some next) :
    Still client next ∨ (∃ message, action = .receive message) ∨
      (∃ index, action = .startListener index) ∨ (∃ index, action = .finishListener index) ∨
      ∃ index, action = .unchain index := by
  cases action with
  | receive message => exact .inr (.inl ⟨message, rfl⟩)
  | startListener index => exact .inr (.inr (.inl ⟨index, rfl⟩))
  | finishListener index => exact .inr (.inr (.inr (.inl ⟨index, rfl⟩)))
  | unchain index => exact .inr (.inr (.inr (.inr ⟨index, rfl⟩)))
  | request request =>
      cases stepped
      exact .inl ⟨rfl, rfl, (Still.refl client).log⟩
  | detachListener handle =>
      cases stepped
      exact .inl ⟨rfl, rfl, (Still.refl client).log⟩
  | lock tx =>
      obtain ⟨task, -, -, rfl⟩ := of_bind stepped
      rw [Client.ensureConnected]
      split
      · exact .inl (.noted rfl rfl rfl rfl)
      · exact .inl ⟨rfl, rfl, (Still.refl client).log⟩
  | connected tx reached =>
      obtain ⟨task, -, -, rfl⟩ := of_bind stepped
      cases reached <;> exact .inl (.noted rfl rfl rfl rfl)
  | sent tx sent =>
      obtain ⟨task, -, -, rfl⟩ := of_bind stepped
      cases sent with
      | true => exact .inl ⟨rfl, rfl, (Still.refl client).log⟩
      | false => exact .inl (.noted rfl rfl rfl rfl)
  | resume tx =>
      simp only [Janus.step, Option.bind_eq_some_iff, Option.ite_none_right_eq_some,
        Client.resume] at stepped
      obtain ⟨task, -, -, stepped⟩ := stepped
      split at stepped
      · cases stepped
        simp only [Client.conclude]
        split
        · exact .inl (.noted rfl rfl rfl rfl)
        · split
          · exact .inl (.noted rfl rfl rfl rfl)
          · rw [Client.register]
            split
            · exact .inl ⟨rfl, rfl, _, rfl, fun event mem => by rw [List.mem_singleton.mp mem]; rfl⟩
            · exact .inl (.noted rfl rfl rfl rfl)
      · cases stepped
        exact .inl (.noted rfl rfl rfl rfl)
      · cases stepped
  | timeout tx =>
      obtain ⟨task, -, -, rfl⟩ := of_bind stepped
      simp only [Client.onTimeout, Client.cancelFuture]
      split <;> exact .inl (.noted rfl rfl rfl rfl)
  | cancel tx =>
      obtain ⟨task, -, rfl⟩ := Option.map_eq_some_iff.mp stepped
      cases task.stage with
      | waiting =>
          simp only [Client.onCancel, Client.cancelFuture]
          split <;> exact .inl (.noted rfl rfl rfl rfl)
      | _ => exact .inl (.noted rfl rfl rfl rfl)
  | lose =>
      obtain ⟨socket, -, rfl⟩ := Option.map_eq_some_iff.mp stepped
      exact .inl (.noted rfl rfl rfl rfl)

/-! ### The tasks of the listeners -/

theorem Client.messages_append (far : Progress → Bool) {delivery : Delivery}
    (grown : next.deliveries = client.deliveries ++ [delivery]) :
    next.messages far handle = client.messages far handle ++
      if delivery.handle = handle ∧ far delivery.progress = true then [delivery.message]
      else [] := by
  rw [Client.messages, grown, List.filter_append, List.map_append, Client.messages]
  congr 1
  split
  case isTrue is => simp [is]
  case isFalse is => simp [is]

theorem Lined.dispatch (lined : Lined client) (handle : HandleId) (listener : Listener)
    (message : Message) : Lined (client.dispatch handle listener message) := by
  have at_ : ∀ {index : Nat} {there : Delivery},
      (client.dispatch handle listener message).deliveries[index]? = some there →
        client.deliveries[index]? = some there ∨ (index = client.deliveries.length ∧
          there = ⟨handle, listener, message, client.chains.get? handle, .queued⟩) := by
    intro index there is
    simp only [Client.dispatch, Client.note, List.getElem?_append] at is
    split at is
    · exact .inl is
    case isFalse beyond =>
      rw [List.getElem?_singleton] at is
      split at is
      · exact .inr ⟨by omega, (Option.some.inj is).symm⟩
      · cases is
  have kept : ∀ {index : Nat} {there : Delivery}, client.deliveries[index]? = some there →
      (client.dispatch handle listener message).deliveries[index]? = some there := by
    intro index there is
    simp only [Client.dispatch, Client.note]
    rw [List.getElem?_append_left (List.getElem?_eq_some_iff.mp is).1, is]
  have below : ∀ {index : Nat} {there : Delivery}, client.deliveries[index]? = some there →
      index < client.deliveries.length := fun is => (List.getElem?_eq_some_iff.mp is).1
  refine ⟨fun less isA isB same begun => ?_, fun less isA isB same => ?_, fun isB is => ?_,
    fun isA => ?_, fun is => ?_, fun other => ?_, fun other => ?_, fun other => ?_⟩
  · rcases at_ isB with wasB | ⟨rfl, rfl⟩
    · rcases at_ isA with wasA | ⟨rfl, -⟩
      · exact lined.ordered less wasA wasB same begun
      · exact absurd (below wasB) (by omega)
    · exact absurd rfl begun
  · rcases at_ isA with wasA | ⟨rfl, -⟩
    · rcases at_ isB with wasB | ⟨rfl, rfl⟩
      · exact lined.linked less wasA wasB same
      · have chained := lined.chained wasA
        rwa [same] at chained
    · rcases at_ isB with wasB | ⟨rfl, -⟩
      · exact absurd (below wasB) (by omega)
      · exact absurd less (Nat.lt_irrefl _)
  · rcases at_ isB with wasB | ⟨rfl, rfl⟩
    · obtain ⟨less, there, was, same⟩ := lined.prevs wasB is
      exact ⟨less, there, kept was, same⟩
    · obtain ⟨there, was, same⟩ := lined.chains is
      exact ⟨below was, there, kept was, same⟩
  · rename_i i a
    simp only [Client.dispatch, Client.note, Table.get?_put]
    rcases at_ isA with wasA | ⟨rfl, rfl⟩
    · split
      case isTrue same => exact .inr ⟨_, rfl, Nat.le_of_lt (below wasA)⟩
      case isFalse => exact lined.chained wasA
    · exact .inr ⟨_, if_pos rfl, Nat.le_refl _⟩
  · rename_i other last
    simp only [Client.dispatch, Client.note, Table.get?_put] at is
    split at is
    case isTrue same =>
      cases is
      exact ⟨_, List.getElem?_concat_length, same.symm⟩
    case isFalse =>
      obtain ⟨there, was, same⟩ := lined.chains is
      exact ⟨there, kept was, same⟩
  · rw [Client.messages_append _ (rfl : _ = client.deliveries ++ [_]), ← lined.dispatched other]
    by_cases same : handle = other <;>
      simp [Client.dispatch, Client.note, Event.dispatchedTo, same]
  · rw [Client.messages_append _ (rfl : _ = client.deliveries ++ [_]), ← lined.started other]
    simp [Client.dispatch, Client.note, Event.startedBy]
  · rw [Client.messages_append _ (rfl : _ = client.deliveries ++ [_]), ← lined.finished other]
    simp [Client.dispatch, Client.note, Event.finishedBy]

/-- A delivery in its place. -/
theorem split_at {deliveries : List Delivery} {index : Nat} {delivery : Delivery}
    (is : deliveries[index]? = some delivery) (there : Delivery) :
    ∃ front back, deliveries = front ++ delivery :: back ∧ front.length = index ∧
      deliveries.set index there = front ++ there :: back := by
  obtain ⟨bound, is⟩ := List.getElem?_eq_some_iff.mp is
  refine ⟨deliveries.take index, deliveries.drop (index + 1), ?_,
    List.length_take_of_le (Nat.le_of_lt bound), List.set_eq_take_append_cons_drop ▸ if_pos bound⟩
  rw [← is, ← List.drop_eq_getElem_cons bound, List.take_append_drop]

/-- A delivery that is no farther, or that no later one of its handle has passed. -/
theorem Client.messages_move (client : Client) {far : Progress → Bool} {index : Nat}
    {delivery : Delivery} (is : client.deliveries[index]? = some delivery) (progress : Progress)
    (stays : far delivery.progress = true → far progress = true)
    (last : far delivery.progress = false → far progress = true → ∀ j there, index < j →
      client.deliveries[j]? = some there → there.handle = delivery.handle →
      far there.progress = false) :
    (client.move index delivery progress).messages far handle =
      client.messages far handle ++
        if delivery.handle = handle ∧ far delivery.progress = false ∧ far progress = true
        then [delivery.message] else [] := by
  obtain ⟨front, back, split, length, moved⟩ := split_at is { delivery with progress }
  have after : far delivery.progress = false → far progress = true →
      delivery.handle = handle → (back.filter fun there =>
        there.handle = handle ∧ far there.progress = true) = [] := by
    intro was comes same
    refine List.filter_eq_nil_iff.mpr fun there mem => ?_
    obtain ⟨place, found⟩ := List.mem_iff_getElem?.mp mem
    have beyond := last was comes (index + 1 + place) there (by omega) (by
      rw [split, List.getElem?_append_right (by omega), length,
        show index + 1 + place - index = place + 1 by omega]
      exact found)
    intro sees
    obtain ⟨own, sees⟩ := of_decide_eq_true sees
    rw [beyond (own.trans same.symm)] at sees
    cases sees
  rw [Client.messages, Client.messages, Client.move]
  simp only [moved]
  rw [split, List.filter_append, List.filter_append, List.filter_cons, List.filter_cons]
  by_cases same : delivery.handle = handle
  · cases was : far delivery.progress with
    | true => simp [same, stays was]
    | false =>
        cases comes : far progress with
        | true =>
            rw [after was comes same]
            simp [same]
        | false => simp
  · simp [same]

/-- A task that goes on, where those before it are done. -/
theorem Lined.move (lined : Lined client) {index : Nat} {delivery : Delivery}
    (is : client.deliveries[index]? = some delivery) {progress : Progress} {event : Event}
    (open_ : delivery.progress ≠ .done)
    (first : ∀ i a, i < index → client.deliveries[i]? = some a → a.handle = delivery.handle →
      a.progress = .done)
    (dispatched : ∀ handle, (client.move index delivery progress).messages (fun _ => true) handle =
      client.messages (fun _ => true) handle ++ [event].filterMap (Event.dispatchedTo handle))
    (started : ∀ handle, (client.move index delivery progress).messages (· ≠ .queued) handle =
      client.messages (· ≠ .queued) handle ++ [event].filterMap (Event.startedBy handle))
    (finished : ∀ handle, (client.move index delivery progress).messages (· = .done) handle =
      client.messages (· = .done) handle ++ [event].filterMap (Event.finishedBy handle)) :
    Lined ((client.move index delivery progress).note event) := by
  have bound := (List.getElem?_eq_some_iff.mp is).1
  have at_ : ∀ {i : Nat} {a : Delivery},
      ((client.move index delivery progress).note event).deliveries[i]? = some a →
        (i ≠ index ∧ client.deliveries[i]? = some a) ∨
          (i = index ∧ a = { delivery with progress }) := by
    intro i a here
    simp only [Client.move, Client.note, List.getElem?_set] at here
    split at here
    case isTrue same => exact .inr ⟨same.symm, (Option.some.inj here).symm⟩
    case isFalse apart => exact .inl ⟨Ne.symm apart, here⟩
  have kept : ∀ {i : Nat} {a : Delivery}, client.deliveries[i]? = some a →
      ∃ b, ((client.move index delivery progress).note event).deliveries[i]? = some b ∧
        b.handle = a.handle := by
    intro i a was
    simp only [Client.move, Client.note, List.getElem?_set]
    split
    case isTrue same =>
      subst same
      rw [is] at was
      cases was
      exact ⟨_, rfl, rfl⟩
    case isFalse => exact ⟨a, was, rfl⟩
  refine ⟨fun less isA isB same begun => ?_, fun less isA isB same => ?_, fun isB prev => ?_,
    fun isA => ?_, fun last => ?_, fun handle => ?_, fun handle => ?_, fun handle => ?_⟩
  · rcases at_ isB with ⟨-, wasB⟩ | ⟨rfl, rfl⟩
    · rcases at_ isA with ⟨-, wasA⟩ | ⟨rfl, rfl⟩
      · exact lined.ordered less wasA wasB same begun
      · exact absurd (lined.ordered less is wasB same begun) open_
    · rcases at_ isA with ⟨-, wasA⟩ | ⟨rfl, -⟩
      · exact first _ _ less wasA same
      · exact absurd less (Nat.lt_irrefl _)
  · rename_i i j a b
    have linked : ∀ b, client.deliveries[j]? = some b → a.handle = b.handle →
        a.progress = .done ∨ ∃ prev, b.prev = some prev ∧ i ≤ prev := by
      intro b wasB same
      rcases at_ isA with ⟨-, wasA⟩ | ⟨rfl, rfl⟩
      · exact lined.linked less wasA wasB same
      · exact .inr ((lined.linked less is wasB same).resolve_left open_)
    rcases at_ isB with ⟨-, wasB⟩ | ⟨rfl, rfl⟩
    · exact linked b wasB same
    · exact linked delivery is same
  · rename_i j b before
    have had : before < j ∧
        ∃ a, client.deliveries[before]? = some a ∧ a.handle = b.handle := by
      rcases at_ isB with ⟨-, wasB⟩ | ⟨rfl, rfl⟩
      · exact lined.prevs wasB prev
      · obtain ⟨less, there, was, same⟩ := lined.prevs is prev
        exact ⟨less, there, was, same⟩
    obtain ⟨less, there, was, same⟩ := had
    obtain ⟨now, there, own⟩ := kept was
    exact ⟨less, now, there, own.trans same⟩
  · rcases at_ isA with ⟨-, wasA⟩ | ⟨rfl, rfl⟩
    · exact lined.chained wasA
    · exact .inr ((lined.chained is).resolve_left open_)
  · obtain ⟨there, was, same⟩ := lined.chains last
    obtain ⟨now, there, own⟩ := kept was
    exact ⟨now, there, own.trans same⟩
  · exact List.filterMap_append.trans (lined.dispatched handle ▸ (dispatched handle).symm)
  · exact List.filterMap_append.trans (lined.started handle ▸ (started handle).symm)
  · exact List.filterMap_append.trans (lined.finished handle ▸ (finished handle).symm)

/-- A task that may run its listener is the first of its handle that is not done. -/
theorem Lined.first (lined : Lined client) {index : Nat} {delivery : Delivery}
    (is : client.deliveries[index]? = some delivery) (free : client.free delivery = true)
    (i : Nat) (a : Delivery) (less : i < index) (isA : client.deliveries[i]? = some a)
    (same : a.handle = delivery.handle) : a.progress = .done := by
  rcases lined.linked less isA is same with isDone | ⟨prev, has, bound⟩
  · exact isDone
  · obtain ⟨-, there, was, own⟩ := lined.prevs is has
    rw [Client.free, has, Option.all_some, was, Option.any_some, decide_eq_true_eq] at free
    rcases Nat.lt_or_eq_of_le bound with before | rfl
    · exact lined.ordered before isA was (same.trans own.symm) (by rw [free]; simp)
    · rw [was] at isA
      cases isA
      exact free

theorem Lined.startListener (lined : Lined client) {index : Nat} {delivery : Delivery}
    (is : client.deliveries[index]? = some delivery) (queued : delivery.progress = .queued)
    (free : client.free delivery = true) : Lined (client.startListener index delivery) := by
  have later : ∀ j there, index < j → client.deliveries[j]? = some there →
      there.handle = delivery.handle → there.progress = .queued := by
    intro j there less isThere same
    by_contra begun
    have finished := lined.ordered less is isThere same.symm begun
    rw [queued] at finished
    cases finished
  refine lined.move is (by rw [queued]; simp) (lined.first is free) (fun handle => ?_)
    (fun handle => ?_) (fun handle => ?_)
  · rw [client.messages_move is .running (by simp) (by simp)]
    simp [Event.dispatchedTo]
  · rw [client.messages_move is .running (by simp) fun _ _ j there less isThere same => by
      simp [later j there less isThere same]]
    by_cases same : delivery.handle = handle <;> simp [Event.startedBy, same, queued]
  · rw [client.messages_move is .running (by simp [queued]) (by simp)]
    simp [Event.finishedBy]

theorem Lined.finishListener (lined : Lined client) {index : Nat} {delivery : Delivery}
    (is : client.deliveries[index]? = some delivery) (running : delivery.progress = .running) :
    Lined (client.finishListener index delivery) := by
  have later : ∀ j there, index < j → client.deliveries[j]? = some there →
      there.handle = delivery.handle → there.progress ≠ .done := by
    intro j there less isThere same ended
    have finished := lined.ordered less is isThere same.symm (by rw [ended]; simp)
    rw [running] at finished
    cases finished
  refine lined.move is (by rw [running]; simp) (fun i a less isA same =>
    lined.ordered less isA is same (by rw [running]; simp)) (fun handle => ?_)
    (fun handle => ?_) (fun handle => ?_)
  · rw [client.messages_move is .done (by simp) (by simp)]
    simp [Event.dispatchedTo]
  · rw [client.messages_move is .done (by simp) (by simp [running])]
    simp [Event.startedBy, running]
  · rw [client.messages_move is .done (by simp) fun _ _ j there less isThere same => by
      simp [later j there less isThere same]]
    by_cases same : delivery.handle = handle <;> simp [Event.finishedBy, same, running]

/-- A handle whose last task is done needs no chain. -/
theorem Lined.unchain (lined : Lined client) {index : Nat} {delivery : Delivery}
    (is : client.deliveries[index]? = some delivery) (ended : delivery.progress = .done) :
    Lined (client.unchain index delivery) := by
  rw [Client.unchain]
  split
  case isFalse => exact lined
  case isTrue last =>
    refine { lined with chained := fun isA => ?_, chains := fun here => ?_ }
    · rename_i i a
      rcases lined.chained isA with isDone | ⟨there, has, bound⟩
      · exact .inl isDone
      by_cases same : a.handle = delivery.handle
      · rw [same, last] at has
        cases has
        rcases Nat.lt_or_eq_of_le bound with before | rfl
        · exact .inl (lined.ordered before isA is same (by rw [ended]; simp))
        · rw [is] at isA
          cases isA
          exact .inl ended
      · refine .inr ⟨there, ?_, bound⟩
        rw [Table.get?_filter]
        simp [has, same]
    · rw [Table.get?_filter] at here
      exact lined.chains (Option.filter_eq_some_iff.mp here).1

theorem Lined.received (lined : Lined client) (socket : Socket) (message : Message) :
    Lined (client.onMessage socket message) := by
  have heard : Lined (client.note (.received socket message)) :=
    lined.still (.noted rfl rfl rfl rfl)
  have listened : ∀ {base : Client}, Lined base → Lined (base.toListener message) := by
    intro base lined
    rw [Client.toListener]
    split
    · exact lined
    · split
      · exact lined
      · exact lined.dispatch _ _ _
  simp only [Client.onMessage, Client.onFinal]
  split
  · exact heard
  split
  · exact listened heard
  split
  · exact heard.still ⟨rfl, rfl, (Still.refl _).log⟩
  · exact listened (heard.still ⟨rfl, rfl, (Still.refl _).log⟩)

theorem Lined.step {action : Action} (lined : Lined client)
    (stepped : step client action = some next) : Lined next := by
  rcases still_of_request stepped with
    still | ⟨message, rfl⟩ | ⟨index, rfl⟩ | ⟨index, rfl⟩ | ⟨index, rfl⟩
  · exact lined.still still
  · obtain ⟨socket, -, rfl⟩ := Option.map_eq_some_iff.mp stepped
    exact lined.received socket message
  · obtain ⟨delivery, is, ⟨queued, free⟩, rfl⟩ := of_bind stepped
    exact lined.startListener is queued free
  · obtain ⟨delivery, is, running, rfl⟩ := of_bind stepped
    exact lined.finishListener is running
  · obtain ⟨delivery, is, ended, rfl⟩ := of_bind stepped
    exact lined.unchain is ended

/-! ### What the log says -/

/-- Where each that passes has only such before it, those that pass come first. -/
theorem filter_front {pass : Delivery → Bool} {deliveries : List Delivery}
    (closed : deliveries.Pairwise fun a b => pass b = true → pass a = true) :
    deliveries.filter pass <+: deliveries := by
  induction deliveries with
  | nil => exact List.prefix_refl _
  | cons head tail ih =>
      obtain ⟨before, rest⟩ := List.pairwise_cons.mp closed
      cases passes : pass head with
      | true =>
          rw [List.filter_cons_of_pos passes]
          exact (List.prefix_cons_inj head).mpr (ih rest)
      | false =>
          have none_ : tail.filter pass = [] :=
            List.filter_eq_nil_iff.mpr fun there mem passed => by
              rw [before there mem passed] at passes
              cases passes
          rw [List.filter_cons_of_neg (by simp [passes]), none_]
          exact List.nil_prefix

/-- Where all but the last are done, at most one is not. -/
theorem length_le_done {deliveries : List Delivery}
    (ended : deliveries.Pairwise fun a _ => a.progress = .done) :
    deliveries.length ≤ (deliveries.filter (·.progress = .done)).length + 1 := by
  induction deliveries with
  | nil => exact Nat.zero_le _
  | cons head tail ih =>
      obtain ⟨before, rest⟩ := List.pairwise_cons.mp ended
      cases tail with
      | nil => simp
      | cons second tail =>
          rw [List.filter_cons_of_pos (by simp [before second List.mem_cons_self])]
          simp only [List.length_cons]
          exact Nat.succ_le_succ (ih rest)

/-- The deliveries of a handle. -/
def Client.line (client : Client) (handle : HandleId) : List Delivery :=
  client.deliveries.filter (·.handle = handle)

theorem Client.messages_eq (client : Client) (far : Progress → Bool) (handle : HandleId) :
    client.messages far handle =
      ((client.line handle).filter fun delivery => far delivery.progress).map (·.message) := by
  rw [Client.messages, Client.line, List.filter_filter]
  simp [Bool.and_comm]

theorem Lined.pairwise (lined : Lined client) (handle : HandleId) :
    (client.line handle).Pairwise fun a b => b.progress ≠ .queued → a.progress = .done := by
  have ordered : client.deliveries.Pairwise fun a b =>
      a.handle = b.handle → b.progress ≠ .queued → a.progress = .done := by
    rw [List.pairwise_iff_getElem]
    intro i j _ _ less
    exact lined.ordered less (List.getElem?_eq_getElem _) (List.getElem?_eq_getElem _)
  refine List.Pairwise.imp_of_mem (fun memA memB closed => ?_) (ordered.filter _)
  have own := of_decide_eq_true (List.mem_filter.mp memA).2
  exact closed (own.trans (of_decide_eq_true (List.mem_filter.mp memB).2).symm)

/-- A listener of the handle can be called, or can return. -/
def Client.GoesOn (client : Client) (handle : HandleId) : Prop :=
  ∃ index delivery, client.deliveries[index]? = some delivery ∧ delivery.handle = handle ∧
    ((step client (.startListener index)).isSome = true ∨
      (step client (.finishListener index)).isSome = true)

theorem Lined.goesOn (lined : Lined client) : ∀ {index : Nat} {delivery : Delivery},
    client.deliveries[index]? = some delivery → delivery.handle = handle →
      delivery.progress ≠ .done → client.GoesOn handle := by
  intro index
  induction index using Nat.strongRecOn with
  | ind index ih =>
      intro delivery is own open_
      cases progress : delivery.progress with
      | done => exact absurd progress open_
      | running =>
          exact ⟨index, delivery, is, own, .inr (by simp [Janus.step, is, progress])⟩
      | queued =>
          cases has : delivery.prev with
          | none =>
              exact ⟨index, delivery, is, own,
                .inl (by simp [Janus.step, is, progress, Client.free, has])⟩
          | some prev =>
              obtain ⟨less, there, was, same⟩ := lined.prevs is has
              by_cases ended : there.progress = .done
              · exact ⟨index, delivery, is, own,
                  .inl (by simp [Janus.step, is, progress, Client.free, has, was, ended])⟩
              · exact ih prev less was (same.trans own) ended

theorem Lined.stuck (lined : Lined client) (stuck : ¬client.GoesOn handle) :
    client.messages (· = .done) handle = client.messages (fun _ => true) handle := by
  rw [Client.messages_eq, Client.messages_eq]
  congr 1
  rw [List.filter_eq_self.mpr, List.filter_eq_self.mpr (by simp)]
  intro delivery mem
  obtain ⟨mem, own⟩ := List.mem_filter.mp mem
  obtain ⟨index, is⟩ := List.mem_iff_getElem?.mp mem
  by_contra open_
  exact stuck (lined.goesOn is (of_decide_eq_true own) (by simpa using open_))

/-- In every run and for each handle: what has gone to its listener is the first part of what came
for it, in order; the listener has dealt with all of that but at most the last; and while anything
is left, it can go on, whatever the read loop waits for. -/
theorem listeners_in_order {actions : List Action}
    (reached : run step .empty actions = some client) (handle : HandleId) :
    client.log.filterMap (Event.startedBy handle) <+:
        client.log.filterMap (Event.dispatchedTo handle) ∧
      client.log.filterMap (Event.finishedBy handle) <+:
        client.log.filterMap (Event.startedBy handle) ∧
      (client.log.filterMap (Event.startedBy handle)).length ≤
        (client.log.filterMap (Event.finishedBy handle)).length + 1 ∧
      (client.log.filterMap (Event.finishedBy handle) ≠
        client.log.filterMap (Event.dispatchedTo handle) → client.GoesOn handle) := by
  have lined : Lined client :=
    Brook.Transition.run_invariant_of_step (fun held stepped => held.step stepped) empty_lined
      reached
  have closed := lined.pairwise handle
  -- Of the tasks that have begun, those that are done are all of those that are done.
  have ended : ((client.line handle).filter (·.progress ≠ .queued)).filter (·.progress = .done) =
      (client.line handle).filter (·.progress = .done) := by
    rw [List.filter_filter]
    refine List.filter_congr fun delivery _ => ?_
    cases delivery.progress <;> rfl
  have begun : ((client.line handle).filter (·.progress ≠ .queued)).Pairwise
      fun a _ => a.progress = .done := by
    refine List.Pairwise.imp_of_mem (fun _ memB closed => ?_) (closed.filter _)
    exact closed (of_decide_eq_true (List.mem_filter.mp memB).2)
  rw [lined.dispatched, lined.started, lined.finished]
  refine ⟨?_, ?_, ?_, fun left => by_contra fun stuck => left (lined.stuck stuck)⟩
  · have all : (client.line handle).filter (fun _ => true) = client.line handle :=
      List.filter_eq_self.mpr (by simp)
    rw [Client.messages_eq, Client.messages_eq, all]
    refine (filter_front (closed.imp fun closed begun => ?_)).map _
    rw [closed (of_decide_eq_true begun)]
    rfl
  · rw [Client.messages_eq, Client.messages_eq, ← ended]
    exact (filter_front (begun.imp fun isDone _ => decide_eq_true isDone)).map _
  · rw [Client.messages_eq, Client.messages_eq, ← ended, List.length_map, List.length_map]
    exact length_le_done begun

def attached : Message := ⟨"success", some 0, none, some 7, "", none, ""⟩

def offered (content : String) : Message := ⟨"event", none, some 7, none, "", none, content⟩

/-- A handle gets two events while its listener is at the first. -/
def listening : List Action :=
  [.request ⟨"attach", false, some 1⟩, .lock 0, .connected 0 true, .sent 0 true,
    .receive attached, .resume 0, .receive (offered "first"), .startListener 0,
    .receive (offered "second")]

theorem listeners_in_order_listening :
    ∃ client, run step .empty listening = some client ∧
      client.log.filterMap (Event.startedBy 7) = [offered "first"] ∧
      client.log.filterMap (Event.dispatchedTo 7) = [offered "first", offered "second"] ∧
      client.GoesOn 7 :=
  ⟨_, rfl, rfl, rfl,
    (listeners_in_order (show run step .empty listening = some _ from rfl) 7).2.2.2 (by decide)⟩

end Brook.Janus
