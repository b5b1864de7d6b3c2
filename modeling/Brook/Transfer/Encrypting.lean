import Brook.Snapshot.Completed
import Brook.Transfer.Download

namespace Brook.Transfer

open Aead (Bytes Cipher)
open Snapshot (Id Layout Setting Sealer)

/-! A download into the encrypted cache: the row of the file, the sink that seals what comes, and
everything that was ever sealed.  The blob is only written here; whether it verifies in the end is
left open, as are the failures of the store and of the disk. -/

/-- A key is 32 random bytes; no two draws are the same, so it is known by its draw. -/
abbrev Key := Nat

def chunkSize : Nat := 1 <<< 20

def syncEvery : Nat := 8

/-- What a message lists of a file. -/
structure FileInfo where
  size : Nat
  sha256 : String
deriving DecidableEq

structure Row where
  info : FileInfo
  key : Key
  chunk : Nat
  complete : Bool
  done : Nat
  positive : 0 < chunk

/-- A chunk that was sealed. -/
structure Chunk where
  key : Key
  index : Nat
  plain : Bytes

/-- What outlives a download: the row of the file, the keys drawn so far and what was sealed. -/
structure Files where
  row : Option Row
  drawn : Nat
  seals : List Chunk

/-- What others do to the row of a file: it is pinned, dropped with its messages or evicted, or
started over when its blob is too short. -/
inductive Change
  | pin (info : FileInfo) (listed : Bool)
  | drop
  | startOver

namespace Files

def empty : Files := ⟨none, 0, []⟩

/-- `new_key` -/
def newKey (files : Files) : Key × Files := (files.drawn, { files with drawn := files.drawn + 1 })

/-- A new row, from nothing. -/
def fresh (info : FileInfo) (key : Key) : Row := ⟨info, key, chunkSize, false, 0, by decide⟩

def change (files : Files) : Change → Files
  | .pin info listed =>
      let (key, files) := files.newKey
      match files.row with
      | some _ => files
      | none => if listed then { files with row := some (fresh info key) } else files
  | .drop => { files with row := none }
  | .startOver =>
      let (key, files) := files.newKey
      { files with
        row := files.row.map fun row =>
          { row with
            key := key
            done := 0
            complete := false } }

end Files

/-- How an operation of the sink goes: what others did before it, whether it fails before or after
it has changed the row, and whether the blob verifies. -/
structure Fate where
  meanwhile : List Change := []
  early : Bool := false
  late : Bool := false
  verified : Bool := true

structure EncryptingSink where
  files : Files
  sealer : Sealer Key
  /-- Plaintext bytes in chunks known durable. -/
  durable : Nat
  sha256 : String
  /-- How the operations to come go. -/
  fates : List Fate

namespace EncryptingSink

variable (cipher : Cipher Key) (sink : EncryptingSink)

def layout : Layout := sink.sealer.setting.layout

/-- The next operation begins. -/
def turn : Fate × EncryptingSink :=
  match sink.fates with
  | [] => ({}, sink)
  | fate :: fates =>
      (fate, { sink with
        files := fate.meanwhile.foldl Files.change sink.files
        fates := fates })

def resumeOffset : Nat :=
  min (sink.sealer.index * sink.layout.chunk + sink.sealer.buf.length) sink.layout.size

/-- `record` -/
def record (fate : Fate) : Except Kind Unit × EncryptingSink :=
  if fate.late then (.error "Other", sink)
  else
    let done := min (sink.sealer.index * sink.layout.chunk) sink.layout.size
    (.ok (), { sink with
      files.row := sink.files.row.map fun row =>
        if row.complete then row else { row with done := done }
      durable := done })

/-- Start over under a new key. -/
def restart : Except Kind Unit × EncryptingSink :=
  let (fate, sink) := sink.turn
  let (key, files) := sink.files.newKey
  if fate.early then (.error "Other", { sink with files := files })
  else
    match files.row with
    | none => (.error "NotFound", { sink with files := files })
    | some row =>
        let files :=
          { files with
            row := some
              { row with
                key := key
                done := 0
                complete := false } }
        if fate.late then (.error "Other", { sink with files := files })
        else
          (.ok (), { sink with
            files := files
            sealer := Sealer.new ⟨key, sink.sealer.setting.id, sink.layout⟩ 0
            durable := 0 })

/-- Push bytes into the sealer. -/
def push (bytes : Bytes) : EncryptingSink :=
  { sink with
    files.seals := sink.files.seals ++ (sink.sealer.completed bytes).map fun chunk =>
      ⟨sink.sealer.setting.key, chunk.1, chunk.2⟩
    sealer := (sink.sealer.push cipher bytes).2 }

def writeChunk (bytes : Bytes) : Except Kind Unit × EncryptingSink :=
  let (fate, sink) := sink.turn
  let before := sink.sealer.index
  match (sink.sealer.push cipher bytes).1 with
  | .error _ => (.error "InvalidData", sink.push cipher bytes)
  | .ok _ =>
      let sink := sink.push cipher bytes
      if fate.early then (.error "Other", sink)
      else if before < sink.sealer.index ∧
          syncEvery ≤ sink.sealer.index - sink.durable / sink.layout.chunk then
        sink.record fate
      else (.ok (), sink)

def finish (sha256 : String) : Except SinkError Unit × EncryptingSink :=
  let (fate, sink) := sink.turn
  if sink.sealer.isComplete = false ∨ sha256 ≠ sink.sha256 then
    (.error (.io "UnexpectedEof"), sink)
  else if fate.early then (.error (.io "Other"), sink)
  else if fate.verified = false then (.error .mismatch, sink.restart.2)
  else if fate.late then (.error (.io "Other"), sink)
  else
    match sink.files.row with
    | none => (.error (.io "NotFound"), sink)
    | some row =>
        (.ok (), { sink with
          files.row := some
            { row with
              complete := true
              done := row.info.size } })

/-- Keep the partial. -/
def abort : EncryptingSink :=
  let (fate, sink) := sink.turn
  (sink.record fate).2

end EncryptingSink

/-- The cache as a sink. -/
def encrypting (cipher : Cipher Key) : DownloadSink EncryptingSink where
  resumeOffset sink := sink.resumeOffset
  restart sink := sink.restart
  writeChunk bytes sink := sink.writeChunk cipher bytes
  finish sha256 sink := sink.finish sha256

/-- The row to resume, from its last whole chunk. -/
def Files.resumable (files : Files) (info : FileInfo) : Option Row :=
  files.row.filter fun row => row.info = info ∧ row.complete = false

/-- The row a download works on: the one there is, or a new one under a new key, if a message
still lists the file.  Others come in between. -/
def Files.claim (files : Files) (info : FileInfo) (meanwhile : List Change) (listed : Bool) :
    Option Row × Files :=
  match files.resumable info with
  | some row => (some row, files)
  | none =>
      let (key, files) := (meanwhile.foldl change files).newKey
      if listed then (some (fresh info key), { files with row := some (fresh info key) })
      else (none, files)

/-- `EncryptingSink::open` -/
def Files.openSink (id : Id) (files : Files) (info : FileInfo) (meanwhile : List Change)
    (listed opens : Bool) : Option EncryptingSink × Files :=
  match files.claim info meanwhile listed with
  | (none, files) => (none, files)
  | (some row, files) =>
      let layout : Layout := ⟨row.chunk, info.size, row.positive⟩
      let done := row.done - row.done % row.chunk
      if opens then
        (some {
          files := files
          sealer := Sealer.new ⟨row.key, id, layout⟩ (done / row.chunk)
          durable := done
          sha256 := info.sha256
          fates := [] }, files)
      else (none, files)

/-- The cache between two downloads of the file, or in one. -/
inductive World
  | idle (files : Files)
  | loading (info : FileInfo) (loop : Loop EncryptingSink)

inductive Action
  | openSink (info : FileInfo) (meanwhile : List Change) (listed opens : Bool)
  /-- Once round the loop of the download. -/
  | round (round : Round) (fates : List Fate)
  | change (change : Change)
  /-- The process dies, or the task of the download is dropped. -/
  | crash

namespace World

/-- What is done when a download returns: a file that is gone is dropped. -/
def settle (result : Except Error Unit) (sink : EncryptingSink) : World :=
  match result with
  | .ok _ => .idle sink.files
  | .error (.api "file.gone" _) => .idle (sink.abort.files.change .drop)
  | .error _ => .idle sink.abort.files

variable (cipher : Cipher Key) (id : Id)

def step : World → Action → Option World
  | .idle files, .openSink info meanwhile listed opens =>
      match files.openSink id info meanwhile listed opens with
      | (some sink, _) => some (.loading info ⟨0, false, sink⟩)
      | (none, files) => some (.idle files)
  | .idle files, .change change => some (.idle (files.change change))
  | .idle files, .crash => some (.idle files)
  | .loading info loop, .round round fates =>
      match Downloader.round (encrypting cipher) info.sha256 info.size
        { loop with sink.fates := fates } round with
      | .running loop => some (.loading info loop)
      | .returned result sink => some (settle result sink)
  | .loading info loop, .change change =>
      some (.loading info { loop with sink.files := loop.sink.files.change change })
  | .loading _ loop, .crash => some (.idle loop.sink.files)
  | _, _ => none

def files : World → Files
  | .idle files => files
  | .loading _ loop => loop.sink.files

end World

end Brook.Transfer
