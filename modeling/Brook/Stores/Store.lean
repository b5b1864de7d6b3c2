import Brook.Durable.Run

namespace Brook.Stores

open Durable

/-! One local store: its key slot, its database file and the check beside it, and
what opening it, rebuilding it and erasing it do to them, file by file.

Keys are numbered as they are made; a check is the code of its key, so that two keys
never have the same check.  Files that SQLite leaves beside a database are not read
once the database is gone, so that removing them is a step that changes nothing
here. -/

abbrev Key := Nat

inductive Protection
  | keyed
  | plain
deriving DecidableEq

inductive Kind
  | cache
  | outbox
  | index
deriving DecidableEq

def Kind.format : Kind → Nat
  | .index => 2
  | .cache => 3
  | .outbox => 3

/-- What the statements of a schema make, in order. -/
def Kind.schema : Kind → List String
  | .index => ["meta", "stores"]
  | .cache =>
      ["meta", "channels", "removed", "memberships", "users", "messages",
        "messages_by_channel", "coverage", "files", "message_files",
        "message_files_by_message", "message_files_by_channel", "deletions"]
  | .outbox => ["meta", "outbox", "outbox_files", "outbox_files_by_row", "deletions"]

/-- A row that was committed; a row of the outbox is accepted or still unsent. -/
structure Row where
  id : Nat
  accepted : Bool

structure Database where
  /-- The key that its pages are under, or that they are under none; an empty file is
  open to every key. -/
  cover : Option (Option Key)
  objects : List String
  /-- The `meta` row. -/
  format : Option Nat
  rows : List Row

namespace Database

def empty : Database := ⟨none, [], none, []⟩

def readable (d : Database) (key : Option Key) : Prop := d.cover = none ∨ d.cover = some key

instance (d : Database) (key : Option Key) : Decidable (d.readable key) :=
  inferInstanceAs (Decidable (_ ∨ _))

/-- `SELECT count(*) FROM outbox WHERE state != 'accepted'` -/
def unsent (d : Database) : Nat := d.rows.countP fun row => !row.accepted

end Database

/-- The steps that change what is on disk. -/
inductive Op
  | key
  | removeDb
  | removeWal
  | removeShm
  | removeJournal
  | removeCheck
  | file
  | cover
  | object (name : String)
  | metaRow
  | checkTmp
  | checkRename
deriving DecidableEq

structure Store where
  slot : Option Key
  /-- How many keys were made. -/
  made : Nat
  db : Option Database
  check : Option Key
  tmp : Option Key
  /-- Whether this process has it open. -/
  opened : Bool
  /-- The databases that were removed, and the steps that were done, last ones at
  the end. -/
  removed : List Database
  trace : List Op

inductive StoreError
  | alreadyOpen
  | io
  | sql

inductive Rebuilt
  | keyMissing
  | formatChanged

inductive Opened
  | ready (rebuilt : Option Rebuilt)
  | locked
  | damaged
  | needsRebuild (unsent : Option Nat)

inductive Inner
  | ready (rebuilt : Option Rebuilt)
  | other (opened : Opened)

abbrev Step (α : Type) := Run Store StoreError α

namespace Store

def note (op : Op) (s : Store) : Store := { s with trace := s.trace ++ [op] }

/-! ### Steps -/

/-- `get_or_create_reporting`, and whether the key was made by it; `none` where the
slot cannot be read or the key not be made. -/
def getOrCreate : Step (Option (Key × Bool)) :=
  Run.attempt (.done none) fun s =>
    match s.slot with
    | none =>
        (some (s.made, true),
          note .key { s with slot := some s.made, made := s.made + 1 })
    | some key => (some (key, false), s)

/-- `None` is a check that is not there; one that cannot be read decides nothing. -/
def readCheck : Step (Option Key) :=
  Run.attempt (.failed .io) fun s => (s.check, s)

/-- `Connection::open` of a file that is not there. -/
def makeFile : Step Bool :=
  Run.attempt (.done false) fun s => (true, note .file { s with db := some Database.empty })

/-- The first page is read, or written to an empty file. -/
def uncover (key : Option Key) : Step Bool :=
  Run.attempt (.done false) fun s =>
    match s.db with
    | none => (false, s)
    | some d =>
        if d.readable key then
          (true, note .cover { s with db := some { d with cover := some key } })
        else (false, s)

/-- `connect_keyed` and, without a key, `connect_plain`: whether it went well. -/
def connect (key : Option Key) : Step Bool :=
  Run.bind Run.get fun s =>
    if s.db.isSome then uncover key
    else Run.bind makeFile fun there => if there then uncover key else Run.pure false

def addObject (name : String) (s : Store) : Store :=
  note (.object name)
    { s with db := s.db.map fun d => { d with objects := d.objects ++ [name] } }

def insertMeta (kind : Kind) (s : Store) : Store :=
  note .metaRow { s with db := s.db.map fun d => { d with format := some kind.format } }

def createSchema (kind : Kind) : Step Unit :=
  Run.bind (Run.steps .sql (kind.schema.map addObject)) fun _ =>
    Run.step .sql (insertMeta kind)

/-- `write_atomically` of a check: its temporary file, the rename, and the directory. -/
def writeCheck (key : Key) : Step Unit :=
  Run.steps .io
    [fun s => note .checkTmp { s with tmp := some key },
      fun s => note .checkRename { s with check := some key, tmp := none },
      fun s => s]

def removeDb (s : Store) : Store :=
  note .removeDb { s with db := none, removed := s.removed ++ s.db.toList }

def removeAll : Step Unit :=
  Run.steps .io
    [removeDb, note .removeWal, note .removeShm, note .removeJournal,
      fun s => note .removeCheck { s with check := none }]

def create (kind : Kind) (key : Key) : Step Unit :=
  Run.bind (connect (some key)) fun connected =>
    if connected then Run.bind (createSchema kind) fun _ => writeCheck key
    else Run.fail .io

/-! ### Opening -/

def openPlain (kind : Kind) : Step Inner :=
  Run.bind Run.get fun s =>
    if s.db.isSome then
      Run.bind (connect none) fun connected =>
        Run.pure (if connected then .ready none else .other .damaged)
    else
      Run.bind (connect none) fun connected =>
        if connected then Run.bind (createSchema kind) fun _ => Run.pure (.ready none)
        else Run.fail .io

/-- A database that is there, with a key: only a check for another key, or a key that
was made just now where there is no check, is proof that it is another key's. -/
def openFound (kind : Kind) (key : Key) (madeNow : Bool) (check : Option Key) :
    Step Inner :=
  Run.bind (connect (some key)) fun connected =>
    if connected then
      if check = some key then Run.pure (.ready none)
      else Run.bind (writeCheck key) fun _ => Run.pure (.ready none)
    else if (check.isSome ∧ check ≠ some key) ∨ (check = none ∧ madeNow) then
      Run.bind removeAll fun _ =>
        Run.bind (create kind key) fun _ => Run.pure (.ready (some .keyMissing))
    else Run.pure (.other .damaged)

def openKeyed (kind : Kind) : Step Inner :=
  Run.bind getOrCreate fun answer =>
    match answer with
    | none => Run.pure (.other .locked)
    | some (key, madeNow) =>
        Run.bind Run.get fun s =>
          if s.db.isSome then
            Run.bind readCheck fun check => openFound kind key madeNow check
          else Run.bind (create kind key) fun _ => Run.pure (.ready none)

def openInner (protection : Protection) (kind : Kind) : Step Inner :=
  if protection = .keyed then openKeyed kind else openPlain kind

/-- `format_of`; `none` where it cannot be read. -/
def formatOf : Step (Option Nat) :=
  Run.attempt (.done none) fun s => (s.db.bind Database.format, s)

def countUnsent : Step (Option Nat) :=
  Run.attempt (.done none) fun s => (s.db.map Database.unsent, s)

/-- `Db::spawn` -/
def spawn (rebuilt : Option Rebuilt) : Step Opened :=
  Run.bind (Run.step .io fun s => { s with opened := true }) fun _ =>
    Run.pure (.ready rebuilt)

/-- What follows where the format is another one. -/
def remake (protection : Protection) (kind : Kind) : Step Opened :=
  Run.bind removeAll fun _ =>
    Run.bind (openInner protection kind) fun inner =>
      match inner with
      | .other opened => Run.pure opened
      | .ready _ => spawn (some .formatChanged)

def openReserved (protection : Protection) (kind : Kind) : Step Opened :=
  Run.bind (openInner protection kind) fun inner =>
    match inner with
    | .other opened => Run.pure opened
    | .ready (some rebuilt) => spawn (some rebuilt)
    | .ready none =>
        Run.bind formatOf fun found =>
          if found = none then Run.pure .damaged
          else if found = some kind.format then spawn none
          else if kind = .outbox then
            Run.bind countUnsent fun unsent => Run.pure (.needsRebuild unsent)
          else remake protection kind

/-- The directory is made and the store is reserved. -/
def reserved {α : Type} (x : Step α) : Step α :=
  Run.bind (Run.step .io fun s => s) fun _ =>
    Run.bind Run.get fun s => if s.opened then Run.fail .alreadyOpen else x

def openAs (protection : Protection) (kind : Kind) : Step Opened :=
  reserved (openReserved protection kind)

def rebuild (protection : Protection) (kind : Kind) : Step Opened :=
  reserved (Run.bind removeAll fun _ => openReserved protection kind)

/-- `destroy`: whether the key is gone. -/
def destroy : Step Bool :=
  Run.attempt (.done false) fun s => (true, { s with slot := none })

def resetAs (protection : Protection) : Step Bool :=
  reserved
    (Run.bind (if protection = .keyed then destroy else Run.pure true) fun destroyed =>
      Run.bind removeAll fun _ => Run.pure destroyed)

end Store

end Brook.Stores
