import Brook.Transfer.Download

namespace Brook.Transfer

open Aead (Bytes)

universe u

/-! How long a download goes round: the attempt counter stops everything but the restarts that do
not look at it. -/

namespace Response

variable (resp : Response) (validator : String) (attempt offset : Nat) (noRange : Bool)

/-- What the loop takes for an answer that does not fit what is held: it starts over, and the
attempts are not counted. -/
def StartsOver : Prop :=
  resp.status = 416 ∨
    resp.isContent = true ∧ resp.hasContentCoding = false ∧
      (resp.isWeak = true ∧ (resp.status = 206 ∨ 0 < offset) ∨
        resp.isWeak = false ∧ resp.status = 206 ∧
          (resp.etag = none ∧ 0 < offset ∨
            (resp.etag = none ∨ resp.etag = some validator) ∧
              resp.contentRangeStartsAt offset = false))

instance : Decidable (resp.StartsOver validator offset) :=
  inferInstanceAs (Decidable (_ ∨ _))

variable {resp validator attempt offset noRange}

theorem content_again_iff :
    (∃ wait, (resp.content validator offset noRange).next = .again wait) ↔
      resp.isWeak = true ∧ (resp.status = 206 ∨ 0 < offset) ∨
        resp.isWeak = false ∧ resp.status = 206 ∧
          (resp.etag = none ∧ 0 < offset ∨
            (resp.etag = none ∨ resp.etag = some validator) ∧
              resp.contentRangeStartsAt offset = false) := by
  rw [content]
  cases weak : resp.isWeak with
  | true =>
      by_cases ranged : resp.status = 206 ∨ 0 < offset
      · simp [ranged, fromScratch]
      · obtain ⟨whole, nothing⟩ := not_or.mp ranged
        simp [whole, nothing]
  | false =>
      cases tag : resp.etag with
      | none =>
          by_cases ranged : resp.status = 206 <;> by_cases held : 0 < offset <;>
            cases starts : resp.contentRangeStartsAt offset <;>
            simp [ranged, held, fromScratch]
      | some etag =>
          by_cases own : etag = validator
          · subst own
            by_cases ranged : resp.status = 206 <;>
              cases starts : resp.contentRangeStartsAt offset <;>
              simp [ranged, fromScratch]
          · simp [own]

/-- Past the last attempt, only what starts over goes round. -/
theorem verdict_again_iff (spent : maxAttempts ≤ attempt) :
    (∃ wait, (resp.verdict validator attempt offset noRange).next = .again wait) ↔
      resp.StartsOver validator offset := by
  rw [verdict, StartsOver]
  cases content : resp.isContent with
  | true =>
      have other : resp.status ≠ 416 := by
        intro same
        simp [isContent, same] at content
      cases coded : resp.hasContentCoding with
      | true => simp [other, spent]
      | false => simpa [other] using content_again_iff
  | false =>
      by_cases refused : resp.status = 416
      · simp [refused]
      · have late : ¬ (500 ≤ resp.status ∧ resp.status < 600 ∧ attempt < maxAttempts) := by
          omega
        simp only [Bool.false_and, Bool.false_eq_true, if_false, refused, late, false_and,
          or_false, iff_false, not_exists]
        intro wait
        split
        · nofun
        split
        · nofun
        · nofun

end Response

/-- Nothing but the answers decides how the rounds go. -/
structure Round.Quiet (round : Round) : Prop where
  unstopped : round.stopped = none
  token : round.token = .ok ()
  waiting : round.waiting = none
  whole : ∀ resp, round.answer = .ok resp → ∀ stop, .stopped stop ∉ resp.body

/-- The operations of a sink succeed. -/
structure DownloadSink.Reliable {σ : Type u} (sink : DownloadSink σ) : Prop where
  restart : ∀ held, (sink.restart held).1 = .ok ()
  writeChunk : ∀ bytes held, (sink.writeChunk bytes held).1 = .ok ()

namespace Status

variable {σ : Type u}

def isRunning : Status σ → Bool
  | .running _ => true
  | .returned _ _ => false

end Status

namespace Downloader

variable {σ : Type u} {sink : DownloadSink σ} {sha256 : String} {size : Nat}
variable {loop : Loop σ}

/-- An answer that goes round without a look at the attempts. -/
def GoesRound (sink : DownloadSink σ) (sha256 : String) (size : Nat) (loop : Loop σ)
    (round : Round) : Prop :=
  ¬ isHeld sink size loop.sink ∧
    ∃ resp, round.answer = .ok resp ∧
      resp.StartsOver (validator sha256) (sink.resumeOffset loop.sink)

theorem finish_isRunning (held : σ) : (finish sink sha256 held).isRunning = false := by
  rw [finish]
  split
  · rfl
  · rfl

/-- A body that is cut short is not resumed after the last attempt. -/
theorem stream_isRunning {round : Round} {body : List Next} (spent : maxAttempts ≤ loop.attempt) :
    (stream sink sha256 size round body loop).isRunning = false := by
  rw [stream]
  split
  · exact finish_isRunning _
  · rfl
  · rfl
  · rfl
  · rw [if_neg (Nat.not_lt.mpr spent)]
    rfl

theorem wait_none (seconds : Nat) : wait seconds none loop = .running loop := rfl

theorem follow_isRunning {round : Round} {resp : Response} {verdict : Verdict}
    (reliable : sink.Reliable) (quiet : round.Quiet) (spent : maxAttempts ≤ loop.attempt) :
    (follow sink sha256 size round resp verdict loop).isRunning = true ↔
      ∃ wait, verdict.next = .again wait := by
  rw [follow]
  have restarted : ∃ held, (if verdict.restart then sink.restart loop.sink
      else (.ok (), loop.sink)) = (Except.ok (), held) := by
    split
    · exact ⟨_, Prod.ext (reliable.restart _) rfl⟩
    · exact ⟨_, rfl⟩
  obtain ⟨held, restarted⟩ := restarted
  simp only [restarted]
  cases next : verdict.next with
  | again seconds => simp [quiet.waiting, wait_none, Status.isRunning]
  | stop err => simp [Status.isRunning]
  | stream =>
      simp only [reduceCtorEq, exists_false, iff_false, Bool.not_eq_true]
      exact stream_isRunning spent

/-- From the last attempt on, a round goes on exactly when its answer starts over. -/
theorem round_isRunning_iff {r : Round} (reliable : sink.Reliable) (quiet : r.Quiet)
    (spent : maxAttempts ≤ loop.attempt + 1) :
    (round sink sha256 size loop r).isRunning = true ↔ GoesRound sink sha256 size loop r := by
  rw [round, quiet.unstopped, GoesRound]
  by_cases held : isHeld sink size loop.sink
  · simp [held, finish_isRunning]
  · simp only [held, if_false, quiet.token, not_false_eq_true, true_and]
    rw [request]
    cases answer : r.answer with
    | error why => simp [spent, Status.isRunning]
    | ok resp =>
        simp only [Except.ok.injEq, exists_eq_left']
        rw [follow_isRunning reliable quiet spent, Response.verdict_again_iff spent]

/-! ### Every round counts as an attempt -/

/-- A round that goes on has not touched the counter. -/
def KeepsAttempt (loop : Loop σ) (status : Status σ) : Prop :=
  ∀ later, status = .running later → later.attempt = loop.attempt

theorem KeepsAttempt.returned {result : Except Error Unit} {held : σ} :
    KeepsAttempt loop (.returned result held) := nofun

theorem KeepsAttempt.finish (held : σ) : KeepsAttempt loop (finish sink sha256 held) := by
  rw [Downloader.finish]
  split
  · exact returned
  · exact returned

theorem KeepsAttempt.wait {other : Loop σ} (same : other.attempt = loop.attempt)
    (seconds : Nat) (waiting : Option Stop) :
    KeepsAttempt loop (wait seconds waiting other) := by
  unfold Downloader.wait
  split
  · split
    · exact returned
    · rintro _ ⟨⟩
      exact same
  · rintro _ ⟨⟩
    exact same

theorem KeepsAttempt.stream (round : Round) (body : List Next) {other : Loop σ}
    (same : other.attempt = loop.attempt) :
    KeepsAttempt loop (stream sink sha256 size round body other) := by
  rw [Downloader.stream]
  split
  · exact finish _
  · exact returned
  · exact returned
  · exact returned
  · split
    · apply wait
      exact same
    · exact returned

theorem KeepsAttempt.follow (round : Round) (resp : Response) (verdict : Verdict) :
    KeepsAttempt loop (follow sink sha256 size round resp verdict loop) := by
  rw [Downloader.follow]
  split
  · exact returned
  · dsimp only
    split
    · exact wait rfl _ _
    · exact returned
    · exact stream _ _ rfl

theorem KeepsAttempt.request (round : Round) :
    KeepsAttempt loop (request sink sha256 size round loop) := by
  rw [Downloader.request]
  split
  · split
    · exact returned
    · exact wait rfl _ _
  · exact follow _ _ _

theorem round_attempt {r : Round} {later : Loop σ}
    (running : round sink sha256 size loop r = .running later) :
    later.attempt = loop.attempt + 1 := by
  have keeps : KeepsAttempt { loop with attempt := loop.attempt + 1 }
      (round sink sha256 size loop r) := by
    rw [round]
    split
    · exact .returned
    · dsimp only
      split
      · exact .finish _
      · split
        · exact .returned
        · exact .request _
  exact keeps later running

variable {held : σ} {rounds : Nat → Round} {n : Nat}

theorem download_attempt (running : download sink sha256 size held rounds n = .running loop) :
    loop.attempt = n := by
  induction n generalizing loop with
  | zero =>
      cases running
      rfl
  | succ n ih =>
      rw [download] at running
      split at running
      case h_1 before reached =>
        rw [round_attempt running, ih reached]
      case h_2 => cases running

theorem download_succ_isRunning :
    (download sink sha256 size held rounds (n + 1)).isRunning = true ↔
      ∃ loop, download sink sha256 size held rounds n = .running loop ∧
        (round sink sha256 size loop (rounds n)).isRunning = true := by
  rw [download]
  cases reached : download sink sha256 size held rounds n with
  | running loop => simp
  | returned result held => simp [Status.isRunning]

theorem download_isRunning_of_le {m : Nat} (le : m ≤ n)
    (running : (download sink sha256 size held rounds n).isRunning = true) :
    (download sink sha256 size held rounds m).isRunning = true := by
  induction le with
  | refl => exact running
  | step le ih =>
      obtain ⟨loop, reached, -⟩ := download_succ_isRunning.mp running
      apply ih
      rw [reached]
      rfl

/-- The download is over after as many requests as the attempts allow, or any larger number,
unless all its answers from the last attempt on make it start over. -/
theorem download_ends_iff (reliable : sink.Reliable) (quiet : ∀ i, (rounds i).Quiet)
    (spent : maxAttempts ≤ n) :
    (download sink sha256 size held rounds n).isRunning = false ↔
      ¬ ∀ i < n, maxAttempts ≤ i + 1 → ∃ loop,
        download sink sha256 size held rounds i = .running loop ∧
          GoesRound sink sha256 size loop (rounds i) := by
  rw [← Bool.not_eq_true, not_iff_not]
  constructor
  · intro running i before last
    obtain ⟨loop, reached, goes⟩ :=
      download_succ_isRunning.mp (download_isRunning_of_le before running)
    have counted : maxAttempts ≤ loop.attempt + 1 := by
      rw [download_attempt reached]
      exact last
    exact ⟨loop, reached, (round_isRunning_iff reliable (quiet i) counted).mp goes⟩
  · intro starts
    have positive : 0 < n := Nat.lt_of_lt_of_le (by decide) spent
    obtain ⟨loop, reached, goes⟩ := starts (n - 1) (by omega) (by omega)
    have counted : maxAttempts ≤ loop.attempt + 1 := by
      rw [download_attempt reached]
      omega
    obtain ⟨n, rfl⟩ := Nat.exists_eq_add_one.mpr positive
    exact download_succ_isRunning.mpr
      ⟨loop, reached, (round_isRunning_iff reliable (quiet n) counted).mpr goes⟩

/-! ### A saved file -/

theorem saving_reliable (hash : Bytes → String) : (FileSink.sink hash).Reliable where
  restart _ := rfl
  writeChunk _ _ := rfl

/-- A server that never gives the file out. -/
def unsatisfiable : Round where
  answer := .ok { status := 416 }

theorem unsatisfiable_quiet : unsatisfiable.Quiet where
  unstopped := rfl
  token := rfl
  waiting := rfl
  whole := by
    rintro _ ⟨⟩ stop
    exact List.not_mem_nil

/-- Bytes that come in two answers, and a pause in between. -/
def interrupted : Nat → Round
  | 0 => { answer := .ok { status := 200, body := [.chunk [1], .broken] } }
  | _ => {
      answer := .ok {
        status := 206
        etag := some "\"ab\""
        contentRange := some "bytes 1-1/2"
        body := [.chunk [2]] } }

theorem interrupted_quiet (i : Nat) : (interrupted i).Quiet := by
  cases i with
  | zero =>
      refine ⟨rfl, rfl, rfl, ?_⟩
      rintro _ ⟨⟩ stop
      simp
  | succ i =>
      refine ⟨rfl, rfl, rfl, ?_⟩
      rintro _ ⟨⟩ stop
      simp

theorem interrupted_ends :
    (download (FileSink.sink fun _ => "ab") "ab" 2 FileSink.create interrupted
      maxAttempts).isRunning = false := by
  refine (download_ends_iff (saving_reliable _) interrupted_quiet (Nat.le_refl _)).mpr ?_
  intro starts
  obtain ⟨loop, reached, -⟩ := starts 7 (by decide) (by decide)
  have ended : (download (FileSink.sink fun _ => "ab") "ab" 2 FileSink.create interrupted
      7).isRunning = false := by decide +kernel
  rw [reached] at ended
  cases ended

theorem unsatisfiable_runs (hash : Bytes → String) (n : Nat) :
    download (FileSink.sink hash) "ab" 2 FileSink.create (fun _ => unsatisfiable) n =
      .running ⟨n, false, FileSink.create⟩ := by
  induction n with
  | zero => rfl
  | succ n ih =>
      rw [download, ih]
      rfl

theorem unsatisfiable_never_ends : ¬ ∃ bound : Nat → Nat,
    (download (FileSink.sink fun _ => "ab") "ab" 2 FileSink.create (fun _ => unsatisfiable)
      (bound maxAttempts)).isRunning = false := by
  rintro ⟨bound, ended⟩
  rw [unsatisfiable_runs] at ended
  cases ended

end Downloader

end Brook.Transfer
