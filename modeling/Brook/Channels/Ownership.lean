import Brook.Table.Basic
import Brook.Transition.Run

namespace Brook.Channels

/-! The routes that write memberships, roles and ownership offers, as
transactions under `READ COMMITTED`: one step is one statement, the writes of a
transaction are its commit. -/

abbrev UserId := Nat

abbrev ChannelId := Nat

abbrev TxId := Nat

inductive Kind
  | channel
  | dm
deriving DecidableEq

inductive Role
  | owner
  | member
deriving DecidableEq

structure Channel where
  kind : Kind
  isPublic : Bool
  archived : Bool
deriving DecidableEq

inductive Route
  | createChannel (channel : ChannelId) (isPublic : Bool)
  | openDm (channel : ChannelId) (other : UserId)
  | addMember (channel : ChannelId) (user : UserId)
  | joinChannel (channel : ChannelId)
  | removeMember (channel : ChannelId) (user : UserId)
  | offerOwnership (channel : ChannelId) (user : UserId)
  | withdrawOffer (channel : ChannelId) (user : UserId)
  | acceptOwnership (channel : ChannelId)
  | declineOwnership (channel : ChannelId)
  | deleteChannel (channel : ChannelId)

/-- The channel whose row a route takes `FOR UPDATE`. -/
def Route.locks : Route → Option ChannelId
  | .removeMember channel _ | .offerOwnership channel _
  | .withdrawOffer channel _ | .acceptOwnership channel
  | .declineOwnership channel => some channel
  | _ => none

/-- What a route has read: the channel row, the caller's role, the role of the
user it is about; `cleared` is past the checks on it, and `writing` has what the
commit needs: for a removal, whose offers go. -/
inductive Stage
  | begun
  | located (channel : Channel)
  | checked (caller : Option Role)
  | target (role : Role)
  | cleared
  | writing (offers : List UserId)
deriving DecidableEq

structure Tx where
  caller : UserId
  route : Route
  stage : Stage

/-- The tables, the holders of the channel rows and the requests under way.
`admins` is `global_role`, which no route changes; an offer's value is
`offered_by`. -/
structure Db where
  admins : List UserId
  users : List UserId
  channels : Table ChannelId Channel
  memberships : Table (ChannelId × UserId) Role
  offers : Table (ChannelId × UserId) UserId
  locks : Table ChannelId TxId
  transactions : Table TxId Tx

namespace Db

def start (admins users : List UserId) : Db := ⟨admins, users, ∅, ∅, ∅, ∅, ∅⟩

def setStage (db : Db) (tx : TxId) (transaction : Tx) (stage : Stage) : Db :=
  { db with transactions := db.transactions.put tx { transaction with stage } }

/-- The end of a transaction, with the release of its lock. -/
def finish (db : Db) (tx : TxId) : Db :=
  { db with
    transactions := db.transactions.filter fun other _ => other ≠ tx
    locks := db.locks.filter fun _ holder => holder ≠ tx }

def isAdmin (db : Db) (user : UserId) : Bool := user ∈ db.admins

def role (db : Db) (channel : ChannelId) (user : UserId) : Option Role :=
  db.memberships.get? (channel, user)

/-- `SELECT count(*)` of a channel's owners. -/
def owners (db : Db) (channel : ChannelId) : Nat :=
  (db.memberships.filter fun key role =>
    key.1 = channel && role = .owner).rows.length

/-- Whose offers go with a member: those made to them and those made by them. -/
def offersOf (db : Db) (channel : ChannelId) (user : UserId) : List UserId :=
  (db.offers.filter fun key offeredBy =>
    key.1 = channel && (key.2 = user || offeredBy = user)).rows.map
      fun entry => entry.1.2

/-- A DM of the two users. -/
def hasDm (db : Db) (user other : UserId) : Bool :=
  db.channels.rows.any fun entry =>
    entry.2.kind = .dm && (db.role entry.1 user).isSome &&
      (db.role entry.1 other).isSome

end Db

/-- `_locked_channel_for`'s checks, and `_require_channel_admin`'s: a global
admin or an owner. -/
def authorized (db : Db) (caller : UserId) (role : Option Role) : Bool :=
  db.isAdmin caller || role = some .owner

/-- `SELECT ... FOR UPDATE` of the channel row. -/
def lockStep (db : Db) (tx : TxId) (transaction : Tx) : Option Db :=
  match transaction.route.locks, transaction.stage with
  | some channel, .begun =>
      if db.locks.contains channel then none
      else
        match db.channels.get? channel with
        | none => some (db.finish tx)
        | some row =>
            some { db.setStage tx transaction (.located row) with
              locks := db.locks.put channel tx }
  | _, _ => none

/-- The next `SELECT` of a route and the checks on its answer; a request that
is refused, or that finds nothing to do, ends. -/
def readStep (db : Db) (tx : TxId) (transaction : Tx) : Option Db :=
  let caller := transaction.caller
  let go (stage : Stage) : Option Db := some (db.setStage tx transaction stage)
  let stop : Option Db := some (db.finish tx)
  match transaction.route, transaction.stage with
  | .createChannel _ _, .begun =>
      if db.isAdmin caller then go (.writing []) else stop
  | .openDm _ other, .begun =>
      if other ∉ db.users ∨ other = caller ∨ db.hasDm caller other then stop
      else go (.writing [])
  | .addMember channel _, .begun =>
      match db.channels.get? channel with
      | none => stop
      | some row => if row.kind = .dm then stop else go (.located row)
  | .addMember channel _, .located _ =>
      let role := db.role channel caller
      if authorized db caller role then go (.checked role) else stop
  | .addMember channel user, .checked _ =>
      if user ∉ db.users ∨ (db.role channel user).isSome then stop
      else go (.writing [])
  | .joinChannel channel, .begun =>
      match db.channels.get? channel with
      | none => stop
      | some row =>
          if row.kind ≠ .channel ∨ row.isPublic = false ∨ row.archived then stop
          else go (.located row)
  | .joinChannel channel, .located _ =>
      if (db.role channel caller).isSome then stop else go (.writing [])
  | .deleteChannel channel, .begun =>
      match db.channels.get? channel with
      | none => stop
      | some row => if row.kind = .dm then stop else go (.located row)
  | .deleteChannel channel, .located _ =>
      if authorized db caller (db.role channel caller) then go (.writing [])
      else stop
  | .removeMember channel user, .located row =>
      let role := db.role channel caller
      if role = none ∧ db.isAdmin caller = false then stop
      else if row.kind = .dm then stop
      else if user ≠ caller ∧ authorized db caller role = false then stop
      else go (.checked role)
  | .removeMember channel user, .checked _ =>
      match db.role channel user with
      | none => stop
      | some role =>
          if role = .owner ∧ user ≠ caller ∧ db.isAdmin caller = false then stop
          else go (.target role)
  | .removeMember channel _, .target role =>
      if role = .owner ∧ db.owners channel ≤ 1 then stop else go .cleared
  | .removeMember channel user, .cleared =>
      go (.writing (db.offersOf channel user))
  | .offerOwnership channel _, .located row
  | .withdrawOffer channel _, .located row =>
      let role := db.role channel caller
      if role = none ∧ db.isAdmin caller = false then stop
      else if row.kind = .dm then stop
      else if authorized db caller role then go (.checked role)
      else stop
  | .offerOwnership channel user, .checked _ =>
      if user ∉ db.users then stop
      else
        match db.role channel user with
        | none => stop
        | some .owner => stop
        | some .member => go .cleared
  | .offerOwnership channel user, .cleared =>
      if db.offers.contains (channel, user) then stop else go (.writing [])
  | .withdrawOffer channel user, .checked _ =>
      if db.offers.contains (channel, user) then go (.writing []) else stop
  | .acceptOwnership channel, .located row
  | .declineOwnership channel, .located row =>
      let role := db.role channel caller
      if role = none ∧ db.isAdmin caller = false then stop
      else if row.kind = .dm then stop
      else go (.checked role)
  | .acceptOwnership channel, .checked role =>
      if db.offers.contains (channel, caller) = false ∨ role = none then stop
      else go (.writing [])
  | .declineOwnership channel, .checked _ =>
      if db.offers.contains (channel, caller) then go (.writing []) else stop
  | _, _ => none

/-- An `INSERT` of a membership, under its primary and its foreign key. -/
def insertMember (db : Db) (channel : ChannelId) (user : UserId) : Db :=
  if db.channels.contains channel ∧ db.role channel user = none then
    { db with memberships := db.memberships.put (channel, user) .member }
  else db

def dropOffer (db : Db) (channel : ChannelId) (user : UserId) : Db :=
  { db with offers := db.offers.filter fun key _ => key ≠ (channel, user) }

/-- The writes of a route; `none` while a `DELETE` waits for a channel's row. -/
def write (db : Db) (caller : UserId) (offers : List UserId) :
    Route → Option Db
  | .createChannel channel isPublic =>
      if db.channels.contains channel then none
      else
        some { db with
          channels := db.channels.put channel ⟨.channel, isPublic, false⟩
          memberships := db.memberships.put (channel, caller) .owner }
  | .openDm channel other =>
      if db.channels.contains channel then none
      else
        some { db with
          channels := db.channels.put channel ⟨.dm, false, false⟩
          memberships :=
            (db.memberships.put (channel, caller) .member).put
              (channel, other) .member }
  | .addMember channel user => some (insertMember db channel user)
  | .joinChannel channel => some (insertMember db channel caller)
  | .removeMember channel user =>
      some { db with
        memberships := db.memberships.filter fun key _ => key ≠ (channel, user)
        offers := db.offers.filter fun key _ =>
          ¬ (key.1 = channel ∧ key.2 ∈ offers) }
  | .offerOwnership channel user =>
      some { db with offers := db.offers.put (channel, user) caller }
  | .withdrawOffer channel user => some (dropOffer db channel user)
  | .acceptOwnership channel =>
      some { dropOffer db channel caller with
        memberships := db.memberships.put (channel, caller) .owner }
  | .declineOwnership channel => some (dropOffer db channel caller)
  | .deleteChannel channel =>
      if db.locks.contains channel then none
      else
        some { db with
          channels := db.channels.filter fun other _ => other ≠ channel
          memberships := db.memberships.filter fun key _ => key.1 ≠ channel
          offers := db.offers.filter fun key _ => key.1 ≠ channel }

def commitStep (db : Db) (tx : TxId) (transaction : Tx) : Option Db :=
  match transaction.stage with
  | .writing offers =>
      (write db transaction.caller offers transaction.route).map (·.finish tx)
  | _ => none

inductive Action
  | begin (tx : TxId) (caller : UserId) (route : Route)
  | lock (tx : TxId)
  | read (tx : TxId)
  | commit (tx : TxId)
  | rollback (tx : TxId)

def step (db : Db) : Action → Option Db
  | .begin tx caller route =>
      if db.transactions.contains tx then none
      else some (db.setStage tx ⟨caller, route, .begun⟩ .begun)
  | .lock tx => (db.transactions.get? tx).bind (lockStep db tx)
  | .read tx => (db.transactions.get? tx).bind (readStep db tx)
  | .commit tx => (db.transactions.get? tx).bind (commitStep db tx)
  | .rollback tx => some (db.finish tx)

end Brook.Channels
