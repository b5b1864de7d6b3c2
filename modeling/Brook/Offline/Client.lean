import Brook.Table.Basic

namespace Brook.Offline

/-! One client with local data: the session, the socket, the watcher that opens
each user's stores, and the syncs, history loads and pumps of open caches.  A
step is what runs between two awaits.  What a page, a history answer or a live
event holds for the cache is a parameter, `Rows`. -/

abbrev UserId := Nat

abbrev ChannelId := Nat

/-- An open `Cache`; a user's cache is opened again under a new one. -/
abbrev CacheId := Nat

abbrev TaskId := Nat

abbrev Cursor := Nat

structure Session where
  epoch : Nat
  user : Option UserId

/-- A connection, with the epoch and the user of the token it sent. -/
structure Socket where
  epoch : Nat
  user : UserId

/-- An event of the raw feed: one that only asks for a sync (`ready`, a hint, a
lost connection), or one with rows, heard on a socket of `user`. -/
inductive Event (Rows : Type)
  | asksSync
  | rows (rows : Rows) (user : UserId)

/-- `closing`: the pump is aborted, a sync may still be going. -/
inductive Phase
  | live
  | closing
  | closed
deriving DecidableEq

structure OpenCache (Rows : Type) where
  me : UserId
  phase : Phase
  feed : List (Event Rows)

/-- The row of `meta`. -/
structure MetaRow where
  cursor : Cursor
  generation : Nat

inductive Kind
  | sync
  | load (channel : ChannelId)
deriving DecidableEq

inductive Answer (Rows : Type)
  | page (rows : Rows) (next : Cursor) (more : Bool)
  | reset
  | history (rows : Rows)

/-- How far a sync or a load is; `bearer` is the user of the token that its
request carries. -/
inductive Stage (Rows : Type)
  | begun
  | asking (read : MetaRow)
  | waiting (read : MetaRow) (bearer : UserId)
  | answered (read : MetaRow) (bearer : UserId) (answer : Answer Rows)

structure Task (Rows : Type) where
  cache : CacheId
  kind : Kind
  stage : Stage Rows

/-- `signed_in` between its subscription to the feed and the open pump. -/
structure Switching (Rows : Type) where
  user : UserId
  feed : List (Event Rows)

/-- Where a write comes from. -/
inductive Source
  | answer (bearer : UserId)
  | frame (user : UserId)
deriving DecidableEq

def Source.user : Source → UserId
  | .answer bearer => bearer
  | .frame user => user

inductive Item (Rows : Type)
  | rows (rows : Rows)
  | cursor (cursor : Cursor)
  | range (channel : ChannelId)
  /-- The upper ends of all ranges, after the last page of a sync. -/
  | tops
deriving DecidableEq

/-- A write into the cache of `owner`. -/
structure Write (Rows : Type) where
  owner : UserId
  item : Item Rows
  source : Source
deriving DecidableEq

structure Client (Rows : Type) where
  session : Session
  socket : Option Socket
  /-- Not `none`: the watcher holds the offline lock. -/
  switching : Option (Switching Rows)
  active : Option CacheId
  caches : Table CacheId (OpenCache Rows)
  /-- The files on disk. -/
  stored : Table UserId MetaRow
  tasks : Table TaskId (Task Rows)
  log : List (Write Rows)

inductive ClientAction (Rows : Type)
  | signIn (user : UserId)
  | signOut
  | connect
  /-- The socket reads a frame; it may not have noticed a new epoch yet. -/
  | frame (rows : Option Rows)
  | notice
  | drop
  | watch
  | stopPump
  | close (cache : CacheId)
  | openStores (cache : CacheId)
  | openFails
  | startSync (task : TaskId) (cache : CacheId)
  | startLoad (task : TaskId) (channel : ChannelId)
  | readMeta (task : TaskId)
  | send (task : TaskId)
  | answer (task : TaskId) (answer : Answer Rows)
  | commit (task : TaskId)
  /-- An error, an abort, or a dropped future. -/
  | abandon (task : TaskId)
  | pump (cache : CacheId)

variable {Rows : Type}

/-- The pump's receiver; an aborted pump has none. -/
def OpenCache.hear (event : Event Rows) (cache : OpenCache Rows) :
    OpenCache Rows :=
  if cache.phase = .live then { cache with feed := cache.feed ++ [event] }
  else cache

namespace Client

/-- A client that starts: nobody is signed in, and the stores on disk are as an
earlier one left them. -/
def start (stored : Table UserId MetaRow) : Client Rows :=
  ⟨⟨0, none⟩, none, none, none, ∅, stored, ∅, []⟩

def metaOf (client : Client Rows) (user : UserId) : MetaRow :=
  (client.stored.get? user).getD ⟨0, 0⟩

/-- `raw.send` -/
def broadcast (client : Client Rows) (event : Event Rows) : Client Rows :=
  { client with
    caches := client.caches.mapRows fun _ cache => cache.hear event
    switching := client.switching.map fun switching =>
      { switching with feed := switching.feed ++ [event] } }

def setStage (client : Client Rows) (id : TaskId) (task : Task Rows)
    (stage : Stage Rows) : Client Rows :=
  { client with tasks := client.tasks.put id { task with stage } }

def finish (client : Client Rows) (id : TaskId) : Client Rows :=
  { client with tasks := client.tasks.filter fun other _ => other ≠ id }

def syncing (client : Client Rows) (id : CacheId) : Bool :=
  client.tasks.values.any fun task => task.cache = id ∧ task.kind = .sync

/-- What `apply` and the coverage turn down counts as written all the same. -/
def record (client : Client Rows) (owner : UserId) (source : Source)
    (items : List (Item Rows)) : Client Rows :=
  { client with
    log := items.map (⟨owner, ·, source⟩) ++ client.log }

def setMeta (client : Client Rows) (owner : UserId) (row : MetaRow) :
    Client Rows :=
  { client with stored := client.stored.put owner row }

end Client

/-- The transaction at the end of a page, a reset or a history load. -/
def commitStep (client : Client Rows) (id : TaskId) (task : Task Rows)
    (read : MetaRow) (bearer : UserId) (answer : Answer Rows)
    (me : UserId) : Client Rows :=
  let row := client.metaOf me
  match task.kind, answer with
  | .sync, .page rows next more =>
      let written := (client.setMeta me { row with cursor := next }).record me
        (.answer bearer) [.rows rows, .cursor next]
      if more then written.setStage id task .begun
      else (written.record me (.answer bearer) [.tops]).finish id
  | .sync, .reset =>
      ((client.setMeta me ⟨0, row.generation + 1⟩).record me (.answer bearer)
        [.cursor 0]).finish id
  | .load channel, .history rows =>
      -- The cache was reset meanwhile: stale.
      if row.generation ≠ read.generation then client.finish id
      else (client.record me (.answer bearer)
        [.rows rows, .range channel]).finish id
  | _, _ => client.finish id

/-- The watcher reads the session under the offline lock, and subscribes. -/
def watchStep (client : Client Rows) : Client Rows :=
  match client.session.user with
  | none => client
  | some user =>
      match client.active.bind client.caches.get? with
      | some cache =>
          if cache.me = user then client
          else { client with switching := some ⟨user, []⟩ }
      | none => { client with switching := some ⟨user, []⟩ }

def clientStep (client : Client Rows) :
    ClientAction Rows → Option (Client Rows)
  | .signIn user => some { client with
      session := ⟨client.session.epoch + 1, some user⟩ }
  | .signOut => some { client with
      session := ⟨client.session.epoch + 1, none⟩ }
  | .connect =>
      match client.socket, client.session.user with
      | none, some user => some { client with
          socket := some ⟨client.session.epoch, user⟩ }
      | _, _ => none
  | .frame rows =>
      match client.socket, rows with
      | some socket, some rows => some (client.broadcast (.rows rows socket.user))
      | some _, none => some (client.broadcast .asksSync)
      | none, _ => none
  | .notice =>
      match client.socket with
      | some socket =>
          if socket.epoch = client.session.epoch then none
          else some { client with socket := none }
      | none => none
  | .drop => some ({ client with socket := none }.broadcast .asksSync)
  | .watch => if client.switching.isSome then none else some (watchStep client)
  | .stopPump =>
      match client.switching, client.active with
      | some _, some id => some { client with
          active := none
          caches := client.caches.mapRows fun other cache =>
            if other = id then { cache with phase := .closing } else cache }
      | _, _ => none
  | .close id =>
      if client.syncing id then none
      else some { client with
        caches := client.caches.mapRows fun other cache =>
          if other = id ∧ cache.phase = .closing then
            { cache with phase := .closed }
          else cache }
  | .openStores id =>
      match client.switching with
      | none => none
      | some switching =>
          if client.active.isSome ∨ client.caches.contains id ∨
              ¬ client.caches.values.all (·.phase = .closed) then none
          else some { client with
            switching := none
            active := some id
            caches := client.caches.put id
              ⟨switching.user, .live, switching.feed⟩ }
  | .openFails =>
      if client.active.isSome then none
      else some { client with switching := none }
  | .startSync id cache =>
      match client.caches.get? cache with
      | none => none
      | some opened =>
          if opened.phase = .closed ∨ client.syncing cache ∨
              client.tasks.contains id then none
          else some { client with
            tasks := client.tasks.put id ⟨cache, .sync, .begun⟩ }
  | .startLoad id channel =>
      match client.switching, client.active with
      | none, some cache =>
          match client.caches.get? cache with
          | none => none
          | some opened =>
              if client.session.user ≠ some opened.me ∨
                  client.tasks.contains id then none
              else some { client with
                tasks := client.tasks.put id ⟨cache, .load channel, .begun⟩ }
      | _, _ => none
  | .readMeta id =>
      match client.tasks.get? id with
      | some ⟨cache, kind, .begun⟩ =>
          match client.caches.get? cache with
          | none => none
          | some opened =>
              if opened.phase = .closed then some (client.finish id)
              else some (client.setStage id ⟨cache, kind, .begun⟩
                (.asking (client.metaOf opened.me)))
      | _ => none
  | .send id =>
      match client.tasks.get? id with
      | some ⟨cache, kind, .asking read⟩ =>
          match client.session.user with
          | none => some (client.finish id)
          | some bearer => some (client.setStage id ⟨cache, kind, .asking read⟩
              (.waiting read bearer))
      | _ => none
  | .answer id answer =>
      match client.tasks.get? id with
      | some ⟨cache, kind, .waiting read bearer⟩ =>
          some (client.setStage id ⟨cache, kind, .waiting read bearer⟩
            (.answered read bearer answer))
      | _ => none
  | .commit id =>
      match client.tasks.get? id with
      | some ⟨cache, kind, .answered read bearer answer⟩ =>
          match client.caches.get? cache with
          | none => none
          | some opened =>
              if opened.phase = .closed then some (client.finish id)
              else some (commitStep client id
                ⟨cache, kind, .answered read bearer answer⟩ read bearer answer
                opened.me)
      | _ => none
  | .abandon id => some (client.finish id)
  | .pump id =>
      match client.caches.get? id with
      | some ⟨me, .live, event :: rest⟩ =>
          let heard := { client with
            caches := client.caches.put id ⟨me, .live, rest⟩ }
          match event with
          | .asksSync => some heard
          | .rows rows user => some (heard.record me (.frame user) [.rows rows])
      | _ => none

end Brook.Offline
