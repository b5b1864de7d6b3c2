import Brook.Table.Basic
import Brook.Transition.Run

namespace Brook.Janus

/-! The client of the SFU: requests and their answers over one socket, and the listeners of its
handles.  A step is what runs between two awaits. -/

/-- A random transaction id; a request is known by the one that it carries. -/
abbrev Tx := Nat

abbrev Socket := Nat

abbrev HandleId := Nat

/-- The coroutine that a handle's events go to. -/
abbrev Listener := Nat

/-- A message of Janus: what this client reads of it, and the rest. -/
structure Message where
  janus : String
  transaction : Option Tx
  sender : Option HandleId
  /-- `data.id` -/
  id : Option HandleId
  /-- `str(msg.get("error"))` -/
  error : String
  /-- `plugindata.data.error`, where there is one. -/
  pluginError : Option String
  content : String
deriving DecidableEq

structure Request where
  body : String
  ackIsFinal : Bool
  /-- What `attach` registers for the handle that it gets. -/
  listener : Option Listener
deriving DecidableEq

inductive Failure
  | unreachable
  /-- The send itself fails. -/
  | closed
  | lost
  | timedOut
  | refused (why : String)
  | cancelled
deriving DecidableEq

inductive Future
  | pending
  | result (message : Message)
  | lost
  | cancelled
deriving DecidableEq

/-- Where a request is. -/
inductive Stage
  /-- It waits for the connect lock. -/
  | begun
  | connecting
  | sending
  | waiting
deriving DecidableEq

structure Task where
  request : Request
  stage : Stage

inductive Progress
  | queued
  | running
  | done
deriving DecidableEq

/-- An event of a handle, with the task that runs the listener. -/
structure Delivery where
  handle : HandleId
  listener : Listener
  message : Message
  /-- The task of the event before it. -/
  prev : Option Nat
  progress : Progress

inductive Event
  | asked (tx : Tx) (socket : Socket) (request : Request)
  | received (socket : Socket) (message : Message)
  | lost (socket : Socket)
  | returned (tx : Tx) (message : Message)
  | raised (tx : Tx) (failure : Failure)
  | dispatched (handle : HandleId) (message : Message)
  | started (handle : HandleId) (message : Message)
  | finished (handle : HandleId) (message : Message)
deriving DecidableEq

structure Client where
  ws : Option Socket
  /-- Connections made so far. -/
  sockets : Nat
  /-- Who holds the connect lock while it connects. -/
  connecting : Option Tx
  tasks : Table Tx Task
  /-- Requests made so far. -/
  requests : Nat
  futures : Table Tx Future
  pending : List Tx
  ackIsFinal : List Tx
  listeners : Table HandleId Listener
  deliveries : List Delivery
  /-- The last delivery of a handle, while its task runs. -/
  chains : Table HandleId Nat
  log : List Event

namespace Client

def empty : Client := ⟨none, 0, none, ∅, 0, ∅, [], [], ∅, [], ∅, []⟩

def note (client : Client) (event : Event) : Client :=
  { client with log := client.log ++ [event] }

/-- The request is over, with this. -/
def settle (client : Client) (tx : Tx) (event : Event) : Client :=
  { client with tasks := client.tasks.filter fun other _ => other ≠ tx }.note event

def enter (client : Client) (tx : Tx) (task : Task) (stage : Stage) : Client :=
  { client with tasks := client.tasks.put tx { task with stage } }

/-! ### Requests -/

/-- A future is made, and the send begins. -/
def ask (client : Client) (tx : Tx) (task : Task) (socket : Socket) : Client :=
  ({ client with
    futures := client.futures.put tx .pending
    pending := tx :: client.pending
    ackIsFinal :=
      if task.request.ackIsFinal then tx :: client.ackIsFinal else client.ackIsFinal }.enter tx
        task .sending).note (.asked tx socket task.request)

/-- `_ensure_connected`, once the lock is held. -/
def ensureConnected (client : Client) (tx : Tx) (task : Task) : Client :=
  match client.ws with
  | some socket => client.ask tx task socket
  | none => { client with connecting := some tx }.enter tx task .connecting

def onConnected (client : Client) (tx : Tx) (task : Task) (reached : Bool) : Client :=
  let client := { client with connecting := none }
  if reached then
    { client with
      ws := some (client.sockets + 1)
      sockets := client.sockets + 1 }.ask tx task (client.sockets + 1)
  else client.settle tx (.raised tx .unreachable)

def onSent (client : Client) (tx : Tx) (task : Task) (sent : Bool) : Client :=
  if sent then client.enter tx task .waiting else client.settle tx (.raised tx .closed)

/-- What `attach` does with the answer. -/
def register (client : Client) (request : Request) (message : Message) : Client :=
  match request.listener, message.id with
  | some listener, some handle =>
      { client with listeners := client.listeners.put handle listener }
  | _, _ => client

/-- The answer of a request, as its caller gets it. -/
def conclude (client : Client) (tx : Tx) (request : Request) (message : Message) : Client :=
  if message.janus = "error" then client.settle tx (.raised tx (.refused message.error))
  else
    match message.pluginError with
    | some why => client.settle tx (.raised tx (.refused why))
    | none => (client.settle tx (.returned tx message)).register request message

/-- The request goes on, once its future is done. -/
def resume (client : Client) (tx : Tx) (task : Task) : Option Client :=
  match client.futures.get? tx with
  | some (.result message) => some (client.conclude tx task.request message)
  | some .lost => some (client.settle tx (.raised tx .lost))
  | _ => none

/-- A future that is cancelled; one that is done stays as it is. -/
def cancelFuture (client : Client) (tx : Tx) : Client :=
  if client.futures.get? tx = some .pending then
    { client with futures := client.futures.put tx .cancelled }
  else client

def onTimeout (client : Client) (tx : Tx) : Client :=
  let client := client.cancelFuture tx
  { client with
    pending := client.pending.filter (· ≠ tx)
    ackIsFinal := client.ackIsFinal.filter (· ≠ tx) }.settle tx (.raised tx .timedOut)

/-- The task of the request is cancelled where it is. -/
def onCancel (client : Client) (tx : Tx) (stage : Stage) : Client :=
  match stage with
  | .begun => client.settle tx (.raised tx .cancelled)
  | .connecting => { client with connecting := none }.settle tx (.raised tx .cancelled)
  | .sending => client.settle tx (.raised tx .cancelled)
  | .waiting => (client.cancelFuture tx).settle tx (.raised tx .cancelled)

/-! ### The read loop -/

/-- `_dispatch` -/
def dispatch (client : Client) (handle : HandleId) (listener : Listener) (message : Message) :
    Client :=
  let delivery : Delivery :=
    ⟨handle, listener, message, client.chains.get? handle, .queued⟩
  { client with
    deliveries := client.deliveries ++ [delivery]
    chains := client.chains.put handle client.deliveries.length }.note
      (.dispatched handle message)

def toListener (client : Client) (message : Message) : Client :=
  match message.sender with
  | none => client
  | some handle =>
      match client.listeners.get? handle with
      | none => client
      | some listener => client.dispatch handle listener message

/-- A message that is no mere acknowledgement. -/
def onFinal (client : Client) (message : Message) : Client :=
  match message.transaction with
  | none => client.toListener message
  | some tx =>
      let awaited := client.pending.contains tx
      let client :=
        { client with
          ackIsFinal := client.ackIsFinal.filter (· ≠ tx)
          pending := client.pending.filter (· ≠ tx) }
      if awaited ∧ client.futures.get? tx = some .pending then
        { client with futures := client.futures.put tx (.result message) }
      else client.toListener message

def onMessage (client : Client) (socket : Socket) (message : Message) : Client :=
  let client := client.note (.received socket message)
  if message.janus = "ack" ∧ message.transaction.all (fun tx => !client.ackIsFinal.contains tx)
  then client
  else client.onFinal message

/-- The socket is gone, and with it every session and handle of Janus. -/
def onLost (client : Client) (socket : Socket) : Client :=
  let lose (tx : Tx) (future : Future) : Future :=
    if client.pending.contains tx ∧ future = .pending then .lost else future
  { client with
    ws := none
    futures := client.futures.mapRows lose
    pending := []
    listeners := ∅ }.note (.lost socket)

/-! ### The listeners -/

/-- The task of an event may run its listener. -/
def free (client : Client) (delivery : Delivery) : Bool :=
  delivery.prev.all fun prev => client.deliveries[prev]?.any (·.progress = .done)

def move (client : Client) (index : Nat) (delivery : Delivery) (progress : Progress) : Client :=
  { client with deliveries := client.deliveries.set index { delivery with progress } }

def startListener (client : Client) (index : Nat) (delivery : Delivery) : Client :=
  (client.move index delivery .running).note (.started delivery.handle delivery.message)

def finishListener (client : Client) (index : Nat) (delivery : Delivery) : Client :=
  (client.move index delivery .done).note (.finished delivery.handle delivery.message)

/-- The done callback. -/
def unchain (client : Client) (index : Nat) (delivery : Delivery) : Client :=
  if client.chains.get? delivery.handle = some index then
    { client with chains := client.chains.filter fun handle _ => handle ≠ delivery.handle }
  else client

end Client

inductive Action
  | request (request : Request)
  /-- `detach_listener`, and what `detach` does first. -/
  | detachListener (handle : HandleId)
  /-- A request gets the connect lock. -/
  | lock (tx : Tx)
  | connected (tx : Tx) (reached : Bool)
  | sent (tx : Tx) (sent : Bool)
  | resume (tx : Tx)
  | timeout (tx : Tx)
  | cancel (tx : Tx)
  | receive (message : Message)
  /-- The read loop ends. -/
  | lose
  | startListener (index : Nat)
  /-- The listener returns, or raises. -/
  | finishListener (index : Nat)
  | unchain (index : Nat)

/-- One step; `none` where the action cannot happen. -/
def step (client : Client) : Action → Option Client
  | .request request =>
      some { client with
        requests := client.requests + 1
        tasks := client.tasks.put client.requests ⟨request, .begun⟩ }
  | .detachListener handle =>
      some { client with listeners := client.listeners.filter fun other _ => other ≠ handle }
  | .lock tx =>
      (client.tasks.get? tx).bind fun task =>
        if task.stage = .begun ∧ client.connecting = none then
          some (client.ensureConnected tx task)
        else none
  | .connected tx reached =>
      (client.tasks.get? tx).bind fun task =>
        if task.stage = .connecting then some (client.onConnected tx task reached) else none
  | .sent tx sent =>
      (client.tasks.get? tx).bind fun task =>
        if task.stage = .sending then some (client.onSent tx task sent) else none
  | .resume tx =>
      (client.tasks.get? tx).bind fun task =>
        if task.stage = .waiting then client.resume tx task else none
  | .timeout tx =>
      (client.tasks.get? tx).bind fun task =>
        if task.stage = .waiting then some (client.onTimeout tx) else none
  | .cancel tx => (client.tasks.get? tx).map fun task => client.onCancel tx task.stage
  | .receive message => client.ws.map fun socket => client.onMessage socket message
  | .lose => client.ws.map client.onLost
  | .startListener index =>
      (client.deliveries[index]?).bind fun delivery =>
        if delivery.progress = .queued ∧ client.free delivery = true then
          some (client.startListener index delivery)
        else none
  | .finishListener index =>
      (client.deliveries[index]?).bind fun delivery =>
        if delivery.progress = .running then some (client.finishListener index delivery) else none
  | .unchain index =>
      (client.deliveries[index]?).bind fun delivery =>
        if delivery.progress = .done then some (client.unchain index delivery) else none

/-- A step of what it finds, where that is ready for it. -/
theorem of_bind {Found : Type} {found : Option Found} {ready : Found → Prop}
    [DecidablePred ready] {go : Found → Client} {next : Client}
    (stepped : (found.bind fun row => if ready row then some (go row) else none) = some next) :
    ∃ row, found = some row ∧ ready row ∧ go row = next := by
  simpa only [Option.bind_eq_some_iff, Option.ite_none_right_eq_some, Option.some.injEq]
    using stepped

end Brook.Janus
