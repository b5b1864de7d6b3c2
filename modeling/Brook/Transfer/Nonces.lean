import Brook.Transfer.Encrypting
import Brook.Transition.Run

namespace Brook.Transfer

open Aead (Bytes Cipher)
open Snapshot (Id Layout Setting Sealer)
open Transition (run Along run_invariant)

/-! No key seals two plaintexts under one nonce, as long as what a kept key has sealed ahead are
the file's own bytes. -/

/-- No chunk was sealed in two ways. -/
def OnceSealed (seals : List Chunk) : Prop :=
  ∀ c ∈ seals, ∀ d ∈ seals, c.key = d.key → c.index = d.index → c.plain = d.plain

instance (seals : List Chunk) : Decidable (OnceSealed seals) :=
  inferInstanceAs (Decidable (∀ c ∈ seals, _))

/-- The bytes that a body brings. -/
def delivered : List Next → Bytes
  | .chunk bytes :: rest => bytes ++ delivered rest
  | _ => []

/-- The body brings the file's own bytes from there on, as far as the file goes. -/
def Brings (file : Bytes) (start : Nat) (body : List Next) : Prop :=
  (delivered body).take (file.length - start) <+: file.drop start

instance (file : Bytes) (start : Nat) (body : List Next) : Decidable (Brings file start body) :=
  inferInstanceAs (Decidable (_ <+: _))

namespace EncryptingSink

def key (sink : EncryptingSink) : Key := sink.sealer.setting.key

/-- The chunks that the key has sealed from the next one on, before the sink was opened. -/
def ahead (sink : EncryptingSink) : List Chunk :=
  sink.files.seals.filter fun c => c.key = sink.key ∧ sink.sealer.index ≤ c.index

/-- They are pieces of the file. -/
def AheadOwn (file : Bytes) (sink : EncryptingSink) : Prop :=
  ∀ c ∈ sink.ahead, c.plain = sink.sealer.setting.piece file c.index

instance (file : Bytes) (sink : EncryptingSink) : Decidable (sink.AheadOwn file) :=
  inferInstanceAs (Decidable (∀ c ∈ sink.ahead, _))

end EncryptingSink

/-- An answer, and the download it comes to. -/
structure Answered where
  info : FileInfo
  loop : Loop EncryptingSink
  resp : Response

namespace Answered

variable (a : Answered)

/-- It carries the file's own validator. -/
def isOwn : Bool :=
  a.resp.status = 206 && a.resp.etag = some (Downloader.validator a.info.sha256)

/-- Where the bytes start that the request asked for. -/
def asked : Nat :=
  if 0 < a.loop.sink.resumeOffset ∧ a.loop.noRange = false then a.loop.sink.resumeOffset else 0

def verdict : Verdict :=
  a.resp.verdict (Downloader.validator a.info.sha256) (a.loop.attempt + 1)
    a.loop.sink.resumeOffset a.loop.noRange

/-- Its body is streamed into what the sink holds. -/
def Continues : Prop := a.verdict.restart = false ∧ a.verdict.next = .stream

instance : Decidable a.Continues := inferInstanceAs (Decidable (_ ∧ _))

end Answered

def World.answered : World → Action → Option Answered
  | .loading info loop, .round round _ => round.answer.toOption.map (⟨info, loop, ·⟩)
  | _, _ => none

section

variable (content : FileInfo → Bytes) (world : World) (action : Action)

/-- A 206 with the file's own validator brings the file's own bytes from where it was asked. -/
def Honest : Prop :=
  ∀ a ∈ world.answered action, a.isOwn = true → Brings (content a.info) a.asked a.resp.body

/-- Where a kept key has sealed chunks from the next one on, they are the file's own, and so is
what any other answer brings. -/
def Sound : Prop :=
  ∀ a ∈ world.answered action, a.Continues →
    a.loop.sink.AheadOwn (content a.info) ∧
      (a.loop.sink.ahead ≠ [] → ¬ (a.isOwn = true ∧ a.asked = a.loop.sink.resumeOffset) →
        Brings (content a.info) a.loop.sink.resumeOffset a.resp.body)

instance : Decidable (Honest content world action) :=
  inferInstanceAs (Decidable (∀ a ∈ world.answered action, _))

instance : Decidable (Sound content world action) :=
  inferInstanceAs (Decidable (∀ a ∈ world.answered action, _))

end

/-! ### The row and the keys -/

namespace Files

structure Safe (files : Files) : Prop where
  once : OnceSealed files.seals
  sealed : ∀ c ∈ files.seals, c.key < files.drawn
  row : ∀ row, files.row = some row → row.key < files.drawn

theorem safe_empty : empty.Safe :=
  ⟨fun _ mem => (nomatch mem), fun _ mem => (nomatch mem), fun _ at_row => (nomatch at_row)⟩

/-- What others do and new keys leave what was sealed. -/
structure Follows (files later : Files) : Prop where
  safe : later.Safe
  seals : later.seals = files.seals
  drawn : files.drawn ≤ later.drawn

variable {files : Files}

theorem Follows.refl (safe : files.Safe) : files.Follows files := ⟨safe, rfl, Nat.le_refl _⟩

theorem Follows.trans {later last : Files} (first : files.Follows later)
    (second : later.Follows last) : files.Follows last :=
  ⟨second.safe, second.seals.trans first.seals, Nat.le_trans first.drawn second.drawn⟩

theorem Safe.newKey (safe : files.Safe) : files.Follows files.newKey.2 where
  safe :=
    { once := safe.once
      sealed := fun c mem => Nat.lt_succ_of_lt (safe.sealed c mem)
      row := fun row at_row => Nat.lt_succ_of_lt (safe.row row at_row) }
  seals := rfl
  drawn := Nat.le_succ _

/-- Another row follows, if its key was drawn. -/
theorem Safe.withRow (safe : files.Safe) {row : Option Row}
    (drawn : ∀ r, row = some r → r.key < files.drawn) :
    files.Follows { files with row := row } :=
  ⟨⟨safe.once, safe.sealed, drawn⟩, rfl, Nat.le_refl _⟩

theorem Safe.change (safe : files.Safe) (change : Change) :
    files.Follows (files.change change) := by
  cases change with
  | pin info listed =>
      have drawn := safe.newKey
      rw [Files.change]
      dsimp only
      split
      · exact drawn
      · split
        · refine drawn.trans (drawn.safe.withRow ?_)
          rintro row ⟨⟩
          exact Nat.lt_succ_self _
        · exact drawn
  | drop => exact safe.withRow nofun
  | startOver =>
      have drawn := safe.newKey
      refine drawn.trans (drawn.safe.withRow ?_)
      intro row at_row
      obtain ⟨old, -, rfl⟩ := Option.map_eq_some_iff.mp at_row
      exact Nat.lt_succ_self _

theorem Safe.changes (safe : files.Safe) (changes : List Change) :
    files.Follows (changes.foldl Files.change files) := by
  induction changes generalizing files with
  | nil => exact .refl safe
  | cons change rest ih =>
      have changed := safe.change change
      exact changed.trans (ih changed.safe)

end Files

/-! ### The sink -/

/-- The bytes that a body's next chunk brings, and what comes after them. -/
theorem Brings.chunk {file bytes : Bytes} {start : Nat} {rest : List Next}
    (brings : Brings file start (.chunk bytes :: rest))
    (fits : start + bytes.length ≤ file.length) :
    bytes <+: file.drop start ∧ Brings file (start + bytes.length) rest := by
  rw [Brings, delivered, List.take_append, List.take_of_length_le (by omega)] at brings
  have own : bytes <+: file.drop start := (List.prefix_append _ _).trans brings
  refine ⟨own, ?_⟩
  obtain ⟨after, split⟩ := own
  rw [← split] at brings
  have later := (List.prefix_append_right_inj bytes).mp brings
  have dropped : file.drop (start + bytes.length) = after := by
    rw [← List.drop_drop, ← split, List.drop_left]
  rw [Brings, dropped, Nat.sub_add_eq]
  exact later

namespace EncryptingSink

/-- A sink in which nothing was sealed twice, and that goes on with the file's own bytes where its
key has sealed chunks ahead. -/
structure Safe (file : Bytes) (sink : EncryptingSink) : Prop where
  files : sink.files.Safe
  drawn : sink.key < sink.files.drawn
  size : sink.layout.size = file.length
  own : sink.ahead ≠ [] → sink.sealer.index ≤ sink.layout.chunks →
    sink.sealer.Holds (file.take sink.resumeOffset)

variable {file : Bytes} {sink : EncryptingSink}

theorem same_place {later : EncryptingSink} (files : sink.files.Follows later.files)
    (same : later.sealer = sink.sealer) :
    later.key = sink.key ∧ later.layout = sink.layout ∧
      later.resumeOffset = sink.resumeOffset ∧ later.ahead = sink.ahead := by
  have keys : later.key = sink.key := congrArg (·.setting.key) same
  have layouts : later.layout = sink.layout := congrArg (·.setting.layout) same
  refine ⟨keys, layouts, ?_, ?_⟩
  · rw [resumeOffset, resumeOffset, same, layouts]
  · rw [ahead, ahead, files.seals, keys, same]

/-- The sink stays where it is; only the row and the keys may change. -/
theorem Safe.follows {later : EncryptingSink} (safe : sink.Safe file)
    (files : sink.files.Follows later.files) (same : later.sealer = sink.sealer) :
    later.Safe file := by
  obtain ⟨keys, layouts, offsets, aheads⟩ := same_place files same
  constructor
  · exact files.safe
  · rw [keys]
    exact Nat.lt_of_lt_of_le safe.drawn files.drawn
  · rw [layouts]
    exact safe.size
  · rw [aheads, layouts, offsets, same]
    exact safe.own

theorem turn_sealer (sink : EncryptingSink) : sink.turn.2.sealer = sink.sealer := by
  rw [turn]
  split
  · rfl
  · rfl

theorem turn_follows (safe : sink.files.Safe) : sink.files.Follows sink.turn.2.files := by
  rw [turn]
  split
  · exact .refl safe
  · exact safe.changes _

theorem record_sealer (sink : EncryptingSink) (fate : Fate) :
    (sink.record fate).2.sealer = sink.sealer := by
  rw [record]
  split
  · rfl
  · rfl

theorem record_follows (safe : sink.files.Safe) (fate : Fate) :
    sink.files.Follows (sink.record fate).2.files := by
  rw [record]
  split
  · exact .refl safe
  · refine safe.withRow ?_
    intro row at_row
    obtain ⟨old, at_old, rfl⟩ := Option.map_eq_some_iff.mp at_row
    have drawn := safe.row old at_old
    split
    · exact drawn
    · exact drawn

theorem Safe.turn (safe : sink.Safe file) : sink.turn.2.Safe file :=
  safe.follows (turn_follows safe.files) sink.turn_sealer

theorem Safe.record (safe : sink.Safe file) (fate : Fate) : (sink.record fate).2.Safe file :=
  safe.follows (record_follows safe.files fate) (sink.record_sealer fate)

/-- A key that was just drawn has sealed nothing. -/
theorem ahead_new (unused : ∀ c ∈ sink.files.seals, c.key < sink.key) : sink.ahead = [] := by
  rw [ahead, List.filter_eq_nil_iff]
  intro c mem
  simp [Nat.ne_of_lt (unused c mem)]

theorem Safe.restart (safe : sink.Safe file) : sink.restart.2.Safe file ∧
    (sink.restart.1 = .ok () → sink.restart.2.ahead = []) := by
  have turned := safe.turn
  have drawn := turned.files.newKey
  rw [EncryptingSink.restart]
  dsimp only
  split
  · exact ⟨turned.follows drawn rfl, nofun⟩
  · split
    · exact ⟨turned.follows drawn rfl, nofun⟩
    · have replaced := fun row (key : Row.key row = sink.turn.2.files.drawn) =>
        drawn.trans (@Files.Safe.withRow _ drawn.safe (some row) (fun r at_row => by
          obtain rfl := Option.some.inj at_row
          rw [key]
          exact Nat.lt_succ_self _))
      split
      · exact ⟨turned.follows (replaced _ rfl) rfl, nofun⟩
      · refine ⟨⟨(replaced _ rfl).safe, Nat.lt_succ_self _, turned.size, ?_⟩, ?_⟩
        · intro some_ahead
          exact absurd (ahead_new turned.files.sealed) some_ahead
        · intro _
          exact ahead_new turned.files.sealed

theorem Safe.finish (safe : sink.Safe file) (sha256 : String) :
    (sink.finish sha256).2.Safe file := by
  have turned := safe.turn
  rw [EncryptingSink.finish]
  dsimp only
  split
  · exact turned
  split
  · exact turned
  split
  · exact turned.restart.1
  split
  · exact turned
  split
  · exact turned
  case h_2 row at_row =>
    refine turned.follows (turned.files.withRow ?_) rfl
    rintro _ ⟨⟩
    exact turned.files.row row at_row

theorem Safe.abort (safe : sink.Safe file) : sink.abort.Safe file :=
  safe.turn.record _

/-! ### Bytes -/

variable {cipher : Cipher Key} {bytes : Bytes}

/-- What the sink streams next: where its key has sealed chunks ahead, they are pieces of the file
and so is what comes. -/
structure Streaming (file : Bytes) (sink : EncryptingSink) (body : List Next) : Prop where
  safe : sink.Safe file
  ahead : sink.AheadOwn file
  brings : sink.ahead ≠ [] → Brings file sink.resumeOffset body

/-- Where a byte still fits, a chunk is open. -/
theorem open_chunk (fits : sink.resumeOffset + bytes.length ≤ sink.layout.size)
    (some_byte : bytes ≠ []) : sink.sealer.index < sink.layout.chunks := by
  have := List.length_pos_iff.mpr some_byte
  rw [resumeOffset] at fits
  rw [Layout.lt_chunks]
  omega

theorem push_nil (cipher : Cipher Key) (sink : EncryptingSink) : sink.push cipher [] = sink := by
  rw [push, Sealer.completed, Sealer.push]
  simp

theorem ahead_push (cipher : Cipher Key) (sink : EncryptingSink) (bytes : Bytes) :
    ∀ c ∈ (sink.push cipher bytes).ahead, c ∈ sink.ahead := by
  obtain ⟨grown, inside, -⟩ := Sealer.completed_bounds cipher sink.sealer bytes
  intro c mem
  obtain ⟨mem, at_key⟩ := List.mem_filter.mp mem
  simp only [push, key, Sealer.push_setting, decide_eq_true_eq] at mem at_key
  rcases List.mem_append.mp mem with mem | mem
  · refine List.mem_filter.mpr ⟨mem, ?_⟩
    rw [decide_eq_true_eq]
    exact ⟨at_key.1, Nat.le_trans grown at_key.2⟩
  · obtain ⟨chunk, completed, rfl⟩ := List.mem_map.mp mem
    exact absurd at_key.2 (Nat.not_le_of_lt (inside chunk completed).2)

theorem eq_of_index {chunks : List (Nat × Bytes)} (ordered : chunks.Pairwise (·.1 < ·.1))
    {chunk other : Nat × Bytes} (mem : chunk ∈ chunks) (other_mem : other ∈ chunks)
    (indices : chunk.1 = other.1) : chunk = other := by
  have apart : chunks.Pairwise fun a b => a.1 = b.1 → a = b :=
    ordered.imp fun before same => absurd same (Nat.ne_of_lt before)
  have apart' : chunks.Pairwise (flip fun a b => a.1 = b.1 → a = b) :=
    ordered.imp fun before same => absurd same (Nat.ne_of_gt before)
  exact List.Pairwise.forall_of_forall_of_flip (fun _ _ _ => rfl) apart apart' mem other_mem
    indices

/-- A push seals no chunk in another way than before. -/
theorem Streaming.push {rest : List Next} (streaming : sink.Streaming file (.chunk bytes :: rest))
    (fits : sink.resumeOffset + bytes.length ≤ sink.layout.size) :
    (sink.push cipher bytes).Streaming file rest := by
  by_cases some_byte : bytes = []
  · subst some_byte
    rw [push_nil]
    exact ⟨streaming.safe, streaming.ahead, streaming.brings⟩
  have safe := streaming.safe
  have there := open_chunk fits some_byte
  have whole : file.length = sink.sealer.setting.layout.size := safe.size.symm
  obtain ⟨grown, inside, ordered⟩ := Sealer.completed_bounds cipher sink.sealer bytes
  have same := Sealer.push_setting cipher sink.sealer bytes
  have own : sink.ahead ≠ [] →
      (∀ chunk ∈ sink.sealer.completed bytes,
        chunk.2 = sink.sealer.setting.piece file chunk.1) ∧
      (sink.sealer.push cipher bytes).2.Holds (file.take (sink.resumeOffset + bytes.length)) ∧
      Brings file (sink.resumeOffset + bytes.length) rest := by
    intro some_ahead
    obtain ⟨mine, later⟩ := (streaming.brings some_ahead).chunk (by rw [whole]; exact fits)
    obtain ⟨pieces, holds⟩ := Sealer.completed_own cipher whole
      (safe.own some_ahead (Nat.le_of_lt there)) mine fits
    exact ⟨pieces, holds, later⟩
  have before : (sink.push cipher bytes).ahead ≠ [] → sink.ahead ≠ [] := by
    intro some_ahead nothing
    obtain ⟨c, mem⟩ := List.exists_mem_of_ne_nil _ some_ahead
    have := ahead_push cipher sink bytes c mem
    rw [nothing] at this
    cases this
  have offset : sink.ahead ≠ [] →
      (sink.push cipher bytes).resumeOffset = sink.resumeOffset + bytes.length := by
    intro some_ahead
    have resumed := (own some_ahead).2.1.resume
    rw [List.length_take, whole] at resumed
    exact resumed.trans (Nat.min_eq_left fits)
  have kept : ∀ c ∈ (sink.push cipher bytes).files.seals, c ∈ sink.files.seals ∨
      ∃ chunk ∈ sink.sealer.completed bytes, c = ⟨sink.key, chunk.1, chunk.2⟩ := by
    intro c mem
    rcases List.mem_append.mp mem with old | new
    · exact .inl old
    · obtain ⟨chunk, completed, rfl⟩ := List.mem_map.mp new
      exact .inr ⟨chunk, completed, rfl⟩
  -- a chunk that is sealed again is a piece of the file both times
  have again : ∀ c ∈ sink.files.seals, ∀ chunk ∈ sink.sealer.completed bytes,
      c.key = sink.key → c.index = chunk.1 → c.plain = chunk.2 := by
    intro c mem chunk completed at_key at_index
    have here : c ∈ sink.ahead := by
      refine List.mem_filter.mpr ⟨mem, ?_⟩
      rw [decide_eq_true_eq, at_index]
      exact ⟨at_key, (inside chunk completed).1⟩
    rw [streaming.ahead c here, (own (List.ne_nil_of_mem here)).1 chunk completed, at_index]
  constructor
  · constructor
    · constructor
      · intro c c_mem d d_mem keys indices
        rcases kept c c_mem with c_old | ⟨chunk, completed, rfl⟩
        · rcases kept d d_mem with d_old | ⟨chunk, completed, rfl⟩
          · exact safe.files.once c c_old d d_old keys indices
          · exact again c c_old chunk completed keys indices
        · rcases kept d d_mem with d_old | ⟨other, completed', rfl⟩
          · exact (again d d_old chunk completed keys.symm indices.symm).symm
          · have same_chunk : chunk = other :=
              eq_of_index ordered completed completed' indices
            rw [same_chunk]
      · intro c mem
        rcases kept c mem with old | ⟨chunk, completed, rfl⟩
        · exact safe.files.sealed c old
        · exact safe.drawn
      · exact safe.files.row
    · rw [key, EncryptingSink.push, same]
      exact safe.drawn
    · rw [layout, EncryptingSink.push, same]
      exact safe.size
    · intro some_ahead _
      rw [offset (before some_ahead)]
      exact (own (before some_ahead)).2.1
  · intro c mem
    have setting : (sink.push cipher bytes).sealer.setting = sink.sealer.setting := same
    rw [setting]
    exact streaming.ahead c (ahead_push cipher sink bytes c mem)
  · intro some_ahead
    rw [offset (before some_ahead)]
    exact (own (before some_ahead)).2.2

theorem Streaming.follows {later : EncryptingSink} {body : List Next}
    (streaming : sink.Streaming file body) (files : sink.files.Follows later.files)
    (same : later.sealer = sink.sealer) : later.Streaming file body := by
  obtain ⟨keys, layouts, offsets, aheads⟩ := same_place files same
  refine ⟨streaming.safe.follows files same, ?_, ?_⟩
  · intro c mem
    rw [aheads] at mem
    rw [same]
    exact streaming.ahead c mem
  · rw [aheads, offsets]
    exact streaming.brings

theorem resumeOffset_turn (sink : EncryptingSink) :
    sink.turn.2.resumeOffset = sink.resumeOffset ∧ sink.turn.2.layout = sink.layout := by
  rw [resumeOffset, resumeOffset, layout, layout, turn_sealer]
  exact ⟨rfl, rfl⟩

theorem Streaming.writeChunk {rest : List Next}
    (streaming : sink.Streaming file (.chunk bytes :: rest))
    (fits : sink.resumeOffset + bytes.length ≤ sink.layout.size) :
    (sink.writeChunk cipher bytes).2.Streaming file rest := by
  obtain ⟨offset, layouts⟩ := sink.resumeOffset_turn
  have turned := streaming.follows (turn_follows streaming.safe.files) sink.turn_sealer
  have pushed : (sink.turn.2.push cipher bytes).Streaming file rest :=
    turned.push (by rw [offset, layouts]; exact fits)
  rw [EncryptingSink.writeChunk]
  dsimp only
  split
  · exact pushed
  split
  · exact pushed
  split
  · exact pushed.follows (record_follows pushed.safe.files _) (record_sealer _ _)
  · exact pushed

/-- A body is streamed without sealing a chunk in another way than before. -/
theorem Streaming.streamInto {body : List Next} (streaming : sink.Streaming file body) :
    (Downloader.streamInto (encrypting cipher) file.length body sink).2.Safe file := by
  induction body generalizing sink with
  | nil => exact streaming.safe
  | cons next rest ih =>
      cases next with
      | stopped stop => exact streaming.safe
      | broken => exact streaming.safe
      | chunk bytes =>
          rw [Downloader.streamInto]
          split
          case isTrue => exact streaming.safe
          case isFalse fits =>
            have written : (sink.writeChunk cipher bytes).2.Streaming file rest :=
              streaming.writeChunk (by
                rw [streaming.safe.size]
                exact Nat.le_of_not_lt fits)
            split
            case h_1 wrote =>
              rw [show sink.writeChunk cipher bytes = _ from wrote] at written
              exact written.safe
            case h_2 wrote =>
              rw [show sink.writeChunk cipher bytes = _ from wrote] at written
              exact ih written

end EncryptingSink

/-! ### Runs -/

namespace World

variable {content : FileInfo → Bytes} {cipher : Cipher Key} {id : Id}

def Safe (content : FileInfo → Bytes) : World → Prop
  | .idle files => files.Safe
  | .loading info loop => loop.sink.Safe (content info)

theorem Safe.once {world : World} (safe : world.Safe content) : OnceSealed world.files.seals := by
  cases world with
  | idle files => exact Files.Safe.once safe
  | loading info loop => exact (EncryptingSink.Safe.files safe).once

theorem safe_settle {file : Bytes} {sink : EncryptingSink} (safe : sink.Safe file)
    (result : Except Error Unit) : (settle result sink).Safe content := by
  unfold settle
  split
  · exact safe.files
  · exact (safe.abort.files.change .drop).safe
  · exact safe.abort.files

/-- A round whose answer is sound keeps the sink safe. -/
theorem safe_round (cipher : Cipher Key) {info : FileInfo} (loop : Loop EncryptingSink) {r : Round}
    (sized : ∀ info, (content info).length = info.size)
    (safe : loop.sink.Safe (content info))
    (streams : ∀ resp, r.answer = .ok resp → (⟨info, loop, resp⟩ : Answered).Continues →
      loop.sink.Streaming (content info) resp.body) :
    (Downloader.round (encrypting cipher) info.sha256 info.size loop r).sink.Safe
      (content info) := by
  refine Downloader.round_keeps (fun held good => good.finish _) safe safe.restart.1 ?_
  rintro resp answer _ rfl next
  rw [← sized info]
  refine ⟨fun restarted _ => ?_, fun kept => ?_⟩
  · -- under a new key nothing is ahead
    have nothing : ((encrypting cipher).restart loop.sink).2.ahead = [] :=
      safe.restart.2 restarted
    refine EncryptingSink.Streaming.streamInto ⟨safe.restart.1, ?_, ?_⟩
    · intro c mem
      rw [nothing] at mem
      cases mem
    · intro some_ahead
      exact absurd nothing some_ahead
  · exact (streams resp answer ⟨kept, next⟩).streamInto

theorem safe_claim {files : Files} (safe : files.Safe) (info : FileInfo)
    (meanwhile : List Change) (listed : Bool) :
    (files.claim info meanwhile listed).2.Safe ∧
      ∀ row, (files.claim info meanwhile listed).1 = some row →
        row.key < (files.claim info meanwhile listed).2.drawn := by
  rw [Files.claim]
  split
  case h_1 row at_row =>
    refine ⟨safe, ?_⟩
    rintro _ ⟨⟩
    exact safe.row row (Option.filter_eq_some_iff.mp at_row).1
  case h_2 =>
    have drawn := (safe.changes meanwhile).safe.newKey
    dsimp only
    split
    · refine ⟨(drawn.safe.withRow ?_).safe, ?_⟩
      · rintro _ ⟨⟩
        exact Nat.lt_succ_self _
      · rintro _ ⟨⟩
        exact Nat.lt_succ_self _
    · exact ⟨drawn.safe, nofun⟩

theorem safe_openSink (id : Id) {files : Files} (sized : ∀ info, (content info).length = info.size)
    (safe : files.Safe) (info : FileInfo) (meanwhile : List Change) (listed opens : Bool) :
    (files.openSink id info meanwhile listed opens).2.Safe ∧
      ∀ sink, (files.openSink id info meanwhile listed opens).1 = some sink →
        sink.Safe (content info) := by
  obtain ⟨claimed, drawn⟩ := safe_claim safe info meanwhile listed
  rw [Files.openSink]
  split
  case h_1 at_claim =>
    rw [at_claim] at claimed
    exact ⟨claimed, nofun⟩
  case h_2 row later at_claim =>
    rw [at_claim] at claimed drawn
    dsimp only
    split
    case isTrue =>
      refine ⟨claimed, ?_⟩
      rintro _ ⟨⟩
      refine ⟨claimed, drawn row rfl, (sized info).symm, ?_⟩
      intro _ inside
      refine Sealer.Holds.new inside ?_ ?_
      · rw [List.length_take, sized]
        exact Nat.min_le_right _ _
      · rw [List.length_take, sized]
        exact Nat.min_eq_left (Nat.min_le_right _ _)
    case isFalse => exact ⟨claimed, nofun⟩

theorem Safe.step {world next : World} {action : Action}
    (sized : ∀ info, (content info).length = info.size) (safe : world.Safe content)
    (guarded : Honest content world action ∧ Sound content world action)
    (stepped : world.step cipher id action = some next) : next.Safe content := by
  obtain ⟨honest, sound⟩ := guarded
  cases world with
  | idle files =>
      cases action with
      | openSink info meanwhile listed opens =>
          obtain ⟨kept, opened⟩ := safe_openSink id sized safe info meanwhile listed opens
          rw [World.step] at stepped
          split at stepped
          case h_1 at_open =>
            cases stepped
            exact opened _ (congrArg Prod.fst at_open)
          case h_2 at_open =>
            cases stepped
            rw [at_open] at kept
            exact kept
      | round round fates => cases stepped
      | change change =>
          cases stepped
          exact (Files.Safe.change safe change).safe
      | crash =>
          cases stepped
          exact safe
  | loading info loop =>
      cases action with
      | openSink info meanwhile listed opens => cases stepped
      | round round fates =>
          have fated : ({ loop.sink with fates := fates }).Safe (content info) :=
            EncryptingSink.Safe.follows safe (.refl (EncryptingSink.Safe.files safe)) rfl
          have rounded := safe_round cipher { loop with sink.fates := fates } (r := round) sized
            fated (by
              intro resp answer continues
              have here : (⟨info, loop, resp⟩ : Answered) ∈
                  World.answered (.loading info loop) (.round round fates) := by
                rw [World.answered, answer]
                rfl
              obtain ⟨ahead, brings⟩ := sound _ here continues
              refine ⟨fated, ahead, ?_⟩
              intro some_ahead
              by_cases own : (⟨info, loop, resp⟩ : Answered).isOwn = true ∧
                  (⟨info, loop, resp⟩ : Answered).asked = loop.sink.resumeOffset
              · have brought := honest _ here own.1
                rw [own.2] at brought
                exact brought
              · exact brings some_ahead own)
          rw [World.step] at stepped
          split at stepped
          case h_1 running =>
            cases stepped
            rw [running] at rounded
            exact rounded
          case h_2 returned =>
            cases stepped
            rw [returned] at rounded
            exact safe_settle rounded _
      | change change =>
          cases stepped
          exact EncryptingSink.Safe.follows safe
            ((EncryptingSink.Safe.files safe).change change) rfl
      | crash =>
          cases stepped
          exact EncryptingSink.Safe.files safe

/-- No chunk is sealed in two ways while what a kept key has sealed ahead, and what comes there
again, are the file's own bytes. -/
theorem nonces_used_once (sized : ∀ info, (content info).length = info.size) {world : World}
    {actions : List Action}
    (along : Along (step cipher id)
      (fun world action => Honest content world action ∧ Sound content world action)
      (.idle .empty) actions)
    (reached : run (step cipher id) (.idle .empty) actions = some world) :
    OnceSealed world.files.seals :=
  (@run_invariant _ _ (step cipher id) _ (fun world => world.Safe content)
    (fun safe guarded stepped => safe.step sized guarded stepped)
    _ _ _ (show (World.idle .empty).Safe content from Files.safe_empty) along reached).once

/-! A file of one byte. -/

def plainCipher : Cipher Key where
  encrypt _ _ _ data := data ++ List.replicate 16 0
  length_encrypt := by simp [Aead.tagBytes]

def oneByte : FileInfo := ⟨1, "ab"⟩

def fileId : Id := ⟨List.replicate 16 0, rfl⟩

def brought (byte : UInt8) : Action :=
  .round { answer := .ok { status := 200, body := [.chunk [byte], .broken] } } []

/-- A download that is cut off before its chunk is recorded, and another one. -/
def cutOff (first second : UInt8) : List Action :=
  [.openSink oneByte [] true true, brought first, .crash,
    .openSink oneByte [] true true, brought second]

/-- Files that hold nothing but one byte. -/
def ones (info : FileInfo) : Bytes := List.replicate info.size 1

theorem cut_off_sealed_once : ∃ world,
    run (step plainCipher fileId) (.idle .empty) (cutOff 1 1) = some world ∧
      OnceSealed world.files.seals := by
  have reached : (run (step plainCipher fileId) (.idle .empty) (cutOff 1 1)).isSome = true := by
    decide +kernel
  obtain ⟨world, reached⟩ := Option.isSome_iff_exists.mp reached
  exact ⟨world, reached, @nonces_used_once ones plainCipher fileId
    (fun _ => List.length_replicate) _ _ (by decide +kernel) reached⟩

theorem other_byte_sealed_again : ¬ ∀ (content : FileInfo → Bytes),
    (∀ info, (content info).length = info.size) → ∀ (actions : List Action) (world : World),
    Along (step plainCipher fileId) (Honest content) (.idle .empty) actions →
    run (step plainCipher fileId) (.idle .empty) actions = some world →
    OnceSealed world.files.seals := by
  intro claim
  have twice : (run (step plainCipher fileId) (.idle .empty) (cutOff 1 2)).map
      (fun world => decide (OnceSealed world.files.seals)) = some false := by
    decide +kernel
  obtain ⟨world, reached, again⟩ := Option.map_eq_some_iff.mp twice
  exact of_decide_eq_false again (claim ones (fun _ => List.length_replicate) (cutOff 1 2) world
    (by decide +kernel) reached)

end World

end Brook.Transfer
