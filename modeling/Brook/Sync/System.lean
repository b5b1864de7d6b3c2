import Brook.Cache.Coverage
import Brook.Server.Invariant
import Brook.Transition.Run

namespace Brook

/-! One client syncing with the server: requests of any users come between a
page's answer and its commit, and between the pages of a run. -/

structure SyncSystem where
  server : Server
  cache : Cache
  /-- The answer to the page request that is out. -/
  answered : Option SyncAnswer
  /-- The last page committed was the last of its run. -/
  caughtUp : Bool
  /-- The cursor at the caller's last removal from each channel; nothing reads
  it but conditions on runs. -/
  leftAt : ChannelId → Int

inductive SyncAction where
  | serve (request : Request)
  | ask (limit : Nat)
  | commit

/-- `MAX_PAGE`, the default of `limit`. -/
def maxPage : Nat := 500

namespace SyncSystem

def init : SyncSystem where
  server := Server.init
  cache := Cache.empty
  answered := none
  caughtUp := false
  leftAt := fun _ => 0

/-- The cache once the answer that is out has been committed.  No request
reads the cache, so the answer may as well be committed when it is given. -/
def landed (me : UserId) (system : SyncSystem) : Cache :=
  match system.answered with
  | none => system.cache
  | some answer => system.cache.commitAnswer me answer

/-- The cursors at which the caller left, after one request. -/
def leftAfter (me : UserId) (before after : Server) (cursor : Int)
    (leftAt : ChannelId → Int) (channel : ChannelId) : Int :=
  if before.isMember channel me && !after.isMember channel me then
    cursor
  else
    leftAt channel

/-- Whether the last page given was the last of its run. -/
def landedCaughtUp (system : SyncSystem) : Bool :=
  match system.answered with
  | none => system.caughtUp
  | some .reset => false
  | some (.page page) => !page.more

def serve (me : UserId) (system : SyncSystem) (after : Server) :
    SyncSystem :=
  { system with
    server := after
    leftAt := leftAfter me system.server after (system.landed me).cursor
      system.leftAt }

def step (me : UserId) (system : SyncSystem) :
    SyncAction → Option SyncSystem
  | .serve request => (system.server.handle request).map (system.serve me)
  | .ask limit =>
      if system.answered.isSome || limit = 0 || maxPage < limit then
        none
      else
        some { system with
          answered := some (system.server.sync me system.cache.cursor limit) }
  | .commit =>
      match system.answered with
      | none => none
      | some answer =>
          some { system with
            cache := system.cache.commitAnswer me answer
            answered := none
            caughtUp := system.landedCaughtUp }

end SyncSystem

end Brook
