import Brook.History.Load
import Brook.Sync.Grounded
import Brook.Transition.Run

namespace Brook

/-! One client that syncs, hears live events and loads history, in any order.
A page of history is answered in one state of the server and lands in a later
one; a live event is sent in one state and heard in a later one, or never. -/

structure HistorySystem where
  server : Server
  /-- Every state of the server so far, the latest first. -/
  past : List Server
  cache : Cache
  /-- The answer to the page request that is out. -/
  answered : Option SyncAnswer
  loads : List Load
  /-- The cursor of the page from 0 that the cache was filled from; nothing
  reads it, nor `asOf`, but conditions on runs. -/
  base : Int
  /-- Before that page: the counter of the earliest history page recorded for
  the channel. -/
  asOf : ChannelId → Int

inductive HistoryAction where
  | serve (request : Request)
  | ask (limit : Nat)
  | commit
  | live (state : Nat) (event : LiveEvent)
  | load (channel : ChannelId) (before : Option MessageId) (limit : Nat)
  | answer (load : Nat)
  | land (load : Nat)

/-- The counter of the earliest page recorded for a channel, after one more. -/
def Cache.earliest (cache : Cache) (load : Load) (counter : Int)
    (channel : ChannelId) (asOf : Int) : Int :=
  if channel = load.channel && cache.unchangedFloor load then
    if cache.coverage.contains channel then
      min asOf counter
    else
      counter
  else
    asOf

namespace HistorySystem

def start (server : Server) : HistorySystem where
  server := server
  past := [server]
  cache := Cache.empty
  answered := none
  loads := []
  base := 0
  asOf := fun _ => 0

def landed (me : UserId) (system : HistorySystem) (index : Nat)
    (load : Load) (counter : Int) (rows : List MessageRow) : HistorySystem :=
  { system with
    cache := system.cache.landLoad me load rows
    loads := system.loads.eraseIdx index
    asOf := fun channel =>
      system.cache.earliest load counter channel (system.asOf channel) }

def step (me : UserId) (system : HistorySystem) :
    HistoryAction → Option HistorySystem
  | .serve request =>
      (system.server.handle request).map fun after =>
        { system with server := after, past := after :: system.past }
  | .ask limit =>
      if system.answered.isSome || limit = 0 then
        none
      else
        some { system with
          answered := some (system.server.sync me system.cache.cursor limit) }
  | .commit =>
      match system.answered with
      | none => none
      | some answer =>
          let cache := system.cache.commitAnswer me answer
          some { system with
            cache := cache
            answered := none
            base := if system.cache.cursor = 0 then cache.cursor
              else system.base }
  | .live state event =>
      (system.past[state]?.bind (·.eventBatch event)).map fun batch =>
        { system with cache := system.cache.apply me batch }
  | .load channel before limit =>
      some { system with
        loads := system.loads ++
          [system.cache.startLoad channel before limit] }
  | .answer index =>
      match system.loads[index]? with
      | none => none
      | some load =>
          match load.answer, system.server.history me load.channel load.before
              load.limit with
          | none, .ok rows =>
              some { system with
                loads := system.loads.set index
                  { load with answer := some (system.server.counter, rows) } }
          | _, _ => none
  | .land index =>
      match system.loads[index]? with
      | none => none
      | some load =>
          match load.answer with
          | none => none
          | some (counter, rows) =>
              some (system.landed me index load counter rows)

end HistorySystem

end Brook
