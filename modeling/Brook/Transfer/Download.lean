import Brook.Aead.Sealed
import Mathlib.Algebra.Group.Nat.Defs
import Mathlib.Data.List.DropRight

namespace Brook.Transfer

open Aead (Bytes)

universe u

/-! The download core: ask for what the sink does not hold yet, and go round until the file is in
or an answer ends it. -/

def maxAttempts : Nat := 8

/-- Seconds to wait after an attempt. -/
def backoff (attempt : Nat) : Nat := min (1 <<< min attempt 5) 30

inductive Error
  | http (why : String)
  | notAuthenticated
  | api (code message : String)
deriving DecidableEq

/-- What stops a transfer: the user's cancel, or a pause. -/
inductive Stop
  | cancel
  | pause

def Stop.error : Stop → Error
  | .cancel => .api "transfer.cancelled" "the transfer was cancelled"
  | .pause => .api "transfer.paused" "the transfer was paused"

/-- The kind of an `io::Error`. -/
abbrev Kind := String

def ioError (kind : Kind) : Error :=
  .api "transfer.io" ("local storage failed (" ++ kind ++ ")")

def integrityError : Error :=
  .api "transfer.integrity" "the file's contents don't match its checksum"

def goneError : Error := .api "file.gone" "the file was deleted"

def encodedError : Error := .api "transfer.encoded" "the server kept compressing the file"

def networkError : Error := .api "transfer.network" "the download kept failing"

/-- `api` -/
def apiError (status : Nat) (code : Option String) : Error :=
  let code := code.getD ("http_" ++ toString status)
  .api code ("the server refused the transfer (" ++ code ++ ")")

inductive SinkError
  | io (kind : Kind)
  | mismatch

def SinkError.error : SinkError → Error
  | .io kind => ioError kind
  | .mismatch => integrityError

/-- Where a download's bytes go. -/
structure DownloadSink (σ : Type u) where
  resumeOffset : σ → Nat
  restart : σ → Except Kind Unit × σ
  writeChunk : Bytes → σ → Except Kind Unit × σ
  finish : (sha256 : String) → σ → Except SinkError Unit × σ

/-- What the stream of a body comes to next. -/
inductive Next
  | chunk (bytes : Bytes)
  | broken
  | stopped (stop : Stop)

/-- An answer.  The value of a header is there when it is text. -/
structure Response where
  status : Nat
  etag : Option String := none
  contentEncoding : List (Option String) := []
  contentRange : Option String := none
  body : List Next := []
  /-- The code in the error envelope. -/
  code : Option String := none

/-- `str::parse::<u64>` -/
def parseU64 (digits : List Char) : Option Nat :=
  let digits := if digits.head? = some '+' then digits.tail else digits
  if digits ≠ [] ∧ digits.all Char.isDigit then
    let value := digits.foldl (fun value digit => value * 10 + (digit.toNat - '0'.toNat)) 0
    if value < 2 ^ 64 then some value else none
  else none

/-- `str::trim` -/
def trim (text : List Char) : List Char :=
  (text.dropWhile Char.isWhitespace).rdropWhile Char.isWhitespace

namespace Response

variable (resp : Response)

/-- `has_content_coding` -/
def hasContentCoding : Bool :=
  resp.contentEncoding.any fun value =>
    (trim (value.getD "x").toList).map Char.toLower ≠ "identity".toList

/-- `content_range_starts_at` -/
def contentRangeStartsAt (offset : Nat) : Bool :=
  ((resp.contentRange.bind fun value =>
    "bytes ".toList.isPrefixOf? value.toList).bind fun range =>
      parseU64 (range.takeWhile (· ≠ '-'))) = some offset

/-- The tag promises nothing about bytes. -/
def isWeak : Bool := resp.etag.any fun etag => etag.startsWith "W/"

/-- The body is the file, or a range of it. -/
def isContent : Bool := resp.status = 200 || resp.status = 206

end Response

/-- What follows an answer. -/
inductive Then
  | again (wait : Nat)
  | stream
  | stop (err : Error)
deriving DecidableEq

/-- What an answer is taken for: whether what the sink holds is dropped first, and whether a range
is asked for from then on. -/
structure Verdict where
  restart : Bool
  noRange : Bool
  next : Then

namespace Response

variable (resp : Response) (validator : String) (attempt offset : Nat) (noRange : Bool)

/-- Over again, without a range. -/
def fromScratch : Verdict := ⟨true, true, .again 0⟩

/-- The answer carries bytes as they are. -/
def content : Verdict :=
  if resp.isWeak && (resp.status = 206 || 0 < offset) then fromScratch
  else if !resp.isWeak && resp.etag.any (· ≠ validator) then ⟨false, noRange, .stop integrityError⟩
  else if resp.status = 206 ∧ 0 < offset ∧ resp.etag ≠ some validator then fromScratch
  else if resp.status = 206 ∧ resp.contentRangeStartsAt offset = false then fromScratch
  else ⟨resp.status = 200 && 0 < offset, noRange, .stream⟩

def verdict : Verdict :=
  if resp.isContent && resp.hasContentCoding then
    ⟨true, true,
      if maxAttempts ≤ attempt then .stop encodedError
      else .again (if noRange then backoff attempt else 0)⟩
  else if resp.isContent then resp.content validator offset noRange
  else if resp.status = 401 then ⟨false, noRange, .stop .notAuthenticated⟩
  else if resp.status = 404 then ⟨false, noRange, .stop goneError⟩
  else if resp.status = 416 then ⟨true, noRange, .again 0⟩
  else if 500 ≤ resp.status ∧ resp.status < 600 ∧ attempt < maxAttempts then
    ⟨false, noRange, .again (backoff attempt)⟩
  else ⟨false, noRange, .stop (apiError resp.status resp.code)⟩

end Response

/-- What a round of the loop meets: a flag that stops it, the token, the answer, and a flag that
ends the wait after it. -/
structure Round where
  stopped : Option Stop := none
  token : Except Error Unit := .ok ()
  answer : Except String Response
  waiting : Option Stop := none

/-- How the stream of a body ends. -/
inductive Streamed
  | done
  | stopped (stop : Stop)
  | network
  | sink (kind : Kind)
  | tooLong

structure Loop (σ : Type u) where
  attempt : Nat
  noRange : Bool
  sink : σ

/-- Whether the loop goes round again. -/
inductive Status (σ : Type u)
  | running (loop : Loop σ)
  | returned (result : Except Error Unit) (sink : σ)

def Status.sink {σ : Type u} : Status σ → σ
  | .running loop => loop.sink
  | .returned _ sink => sink

namespace Downloader

variable {σ : Type u} (sink : DownloadSink σ) (sha256 : String) (size : Nat)

def validator : String := "\"" ++ sha256 ++ "\""

def streamInto (size : Nat) : List Next → σ → Streamed × σ
  | [], held => (.done, held)
  | .stopped stop :: _, held => (.stopped stop, held)
  | .broken :: _, held => (.network, held)
  | .chunk bytes :: rest, held =>
      if size < sink.resumeOffset held + bytes.length then (.tooLong, held)
      else
        match sink.writeChunk bytes held with
        | (.error kind, held) => (.sink kind, held)
        | (.ok _, held) => streamInto size rest held

def finish (held : σ) : Status σ :=
  match sink.finish sha256 held with
  | (.error err, held) => .returned (.error err.error) held
  | (.ok _, held) => .returned (.ok ()) held

/-- Wait, unless a flag ends it. -/
def wait (seconds : Nat) (waiting : Option Stop) (loop : Loop σ) : Status σ :=
  match waiting with
  | some stop => if 0 < seconds then .returned (.error stop.error) loop.sink else .running loop
  | none => .running loop

/-- Stream a body; a broken one is resumed from what the sink holds. -/
def stream (round : Round) (body : List Next) (loop : Loop σ) : Status σ :=
  match streamInto sink size body loop.sink with
  | (.done, held) => finish sink sha256 held
  | (.stopped stop, held) => .returned (.error stop.error) held
  | (.sink kind, held) => .returned (.error (ioError kind)) held
  | (.tooLong, held) => .returned (.error integrityError) held
  | (.network, held) =>
      if loop.attempt < maxAttempts then
        wait (backoff loop.attempt) round.waiting { loop with sink := held }
      else .returned (.error networkError) held

/-- Do what an answer is taken for. -/
def follow (round : Round) (resp : Response) (verdict : Verdict) (loop : Loop σ) : Status σ :=
  match if verdict.restart then sink.restart loop.sink else (.ok (), loop.sink) with
  | (.error kind, held) => .returned (.error (ioError kind)) held
  | (.ok _, held) =>
      let loop := { loop with noRange := verdict.noRange, sink := held }
      match verdict.next with
      | .again seconds => wait seconds round.waiting loop
      | .stop err => .returned (.error err) held
      | .stream => stream sink sha256 size round resp.body loop

/-- Send a request and take its answer. -/
def request (round : Round) (loop : Loop σ) : Status σ :=
  match round.answer with
  | .error why =>
      if maxAttempts ≤ loop.attempt then .returned (.error (.http why)) loop.sink
      else wait (backoff loop.attempt) round.waiting loop
  | .ok resp =>
      follow sink sha256 size round resp
        (resp.verdict (validator sha256) loop.attempt (sink.resumeOffset loop.sink) loop.noRange)
        loop

/-- Whether everything is held already. -/
def isHeld (held : σ) : Prop := size ≤ sink.resumeOffset held ∧ 0 < size

instance (held : σ) : Decidable (isHeld sink size held) :=
  inferInstanceAs (Decidable (_ ∧ _))

/-- Once round the loop. -/
def round (loop : Loop σ) (round : Round) : Status σ :=
  match round.stopped with
  | some stop => .returned (.error stop.error) loop.sink
  | none =>
      let loop := { loop with attempt := loop.attempt + 1 }
      if isHeld sink size loop.sink then finish sink sha256 loop.sink
      else
        match round.token with
        | .error err => .returned (.error err) loop.sink
        | .ok _ => request sink sha256 size round loop

/-- What became of a download after some rounds; a round sends one request at most. -/
def download (held : σ) (rounds : Nat → Round) : Nat → Status σ
  | 0 => .running ⟨0, false, held⟩
  | n + 1 =>
      match download held rounds n with
      | .running loop => round sink sha256 size loop (rounds n)
      | .returned result held => .returned result held

/-! ### What a round keeps of the sink -/

section Keeps

variable {sink sha256 size} {good : σ → Prop} {loop : Loop σ}

theorem finish_keeps (finishes : ∀ held, good held → good (sink.finish sha256 held).2)
    {held : σ} (start : good held) : good (finish sink sha256 held).sink := by
  have kept := finishes held start
  rw [finish]
  split
  case h_1 finished =>
    rw [finished] at kept
    exact kept
  case h_2 finished =>
    rw [finished] at kept
    exact kept

theorem wait_sink (seconds : Nat) (waiting : Option Stop) :
    (wait seconds waiting loop).sink = loop.sink := by
  unfold wait
  split
  · split
    · rfl
    · rfl
  · rfl

theorem stream_keeps {round : Round} {body : List Next}
    (finishes : ∀ held, good held → good (sink.finish sha256 held).2)
    (streams : good (streamInto sink size body loop.sink).2) :
    good (stream sink sha256 size round body loop).sink := by
  rw [stream]
  split
  case h_1 streamed =>
    rw [streamed] at streams
    exact finish_keeps finishes streams
  case h_2 streamed =>
    rw [streamed] at streams
    exact streams
  case h_3 streamed =>
    rw [streamed] at streams
    exact streams
  case h_4 streamed =>
    rw [streamed] at streams
    exact streams
  case h_5 streamed =>
    rw [streamed] at streams
    split
    · rw [wait_sink]
      exact streams
    · exact streams

theorem follow_keeps {round : Round} {resp : Response} {verdict : Verdict}
    (finishes : ∀ held, good held → good (sink.finish sha256 held).2)
    (kept : good loop.sink)
    (restarts : good (sink.restart loop.sink).2)
    (streams : verdict.next = .stream →
      ((sink.restart loop.sink).1 = .ok () → verdict.restart = true →
        good (streamInto sink size resp.body (sink.restart loop.sink).2).2) ∧
      (verdict.restart = false → good (streamInto sink size resp.body loop.sink).2)) :
    good (follow sink sha256 size round resp verdict loop).sink := by
  rw [follow]
  cases again : verdict.restart with
  | true =>
      simp only [if_true]
      cases restarted : sink.restart loop.sink with
      | mk result held =>
          rw [restarted] at restarts streams
          cases result with
          | error kind => exact restarts
          | ok _ =>
              cases next : verdict.next with
              | again seconds =>
                  rw [wait_sink]
                  exact restarts
              | stop err => exact restarts
              | stream => exact stream_keeps finishes ((streams next).1 rfl again)
  | false =>
      cases next : verdict.next with
      | again seconds =>
          simp only [Bool.false_eq_true, if_false]
          rw [wait_sink]
          exact kept
      | stop err => exact kept
      | stream => exact stream_keeps finishes ((streams next).2 again)

/-- What the operations of the sink and the body of the answer keep, the round keeps. -/
theorem round_keeps {r : Round}
    (finishes : ∀ held, good held → good (sink.finish sha256 held).2)
    (kept : good loop.sink)
    (restarts : good (sink.restart loop.sink).2)
    (streams : ∀ resp, r.answer = .ok resp → ∀ verdict,
      resp.verdict (validator sha256) (loop.attempt + 1) (sink.resumeOffset loop.sink)
        loop.noRange = verdict →
      verdict.next = .stream →
      ((sink.restart loop.sink).1 = .ok () → verdict.restart = true →
        good (streamInto sink size resp.body (sink.restart loop.sink).2).2) ∧
      (verdict.restart = false → good (streamInto sink size resp.body loop.sink).2)) :
    good (round sink sha256 size loop r).sink := by
  rw [round]
  split
  case h_1 => exact kept
  case h_2 =>
    dsimp only
    split
    case isTrue => exact finish_keeps finishes kept
    case isFalse =>
      split
      case h_1 => exact kept
      case h_2 =>
        rw [request]
        cases answer : r.answer with
        | error why =>
            dsimp only
            split
            · exact kept
            · rw [wait_sink]
              exact kept
        | ok resp => exact follow_keeps finishes kept restarts (streams resp answer _ rfl)

end Keeps

end Downloader

/-- The file the user chose; it is open until the download is over. -/
structure FileSink where
  file : Bytes
  written : Nat
  /-- What the hash has taken. -/
  hashed : Bytes

namespace FileSink

def create : FileSink := ⟨[], 0, []⟩

/-- `hash` is the SHA-256 in hexadecimal digits. -/
def sink (hash : Bytes → String) : DownloadSink FileSink where
  resumeOffset held := held.written
  restart _ := (.ok (), ⟨[], 0, []⟩)
  writeChunk bytes held :=
    (.ok (), ⟨held.file ++ bytes, held.written + bytes.length, held.hashed ++ bytes⟩)
  finish sha256 held :=
    if (hash held.hashed).toList.map Char.toLower = sha256.toList.map Char.toLower then
      (.ok (), held)
    else (.error .mismatch, held)

end FileSink

end Brook.Transfer
