import Brook.Snapshot.Decrypting

namespace Brook.Snapshot

open Aead Readers

universe u

variable {Key : Type u} {cipher : Cipher Key} {f : File Key}

/-! Every writer and every reader of the sealed format means the same bytes. -/

/-- From any chunk on, a sealer completes the file that was begun. -/
theorem pushes_complete (cipher : Cipher Key) (f : File Key) {i : Nat}
    (inside : i ≤ f.layout.chunks) {parts : List Bytes}
    (remaining : parts.flatten = f.data.drop (i * f.chunk)) :
    ∃ out, (Sealer.pushes cipher (Sealer.new f.setting i) parts).1 = .ok out ∧
      (Sealer.pushes cipher (Sealer.new f.setting i) parts).2.isComplete ∧
      f.setting.sealedTo cipher f.data i ++ out = f.sealedBytes cipher := by
  have whole : f.data.take (i * f.chunk) ++ parts.flatten = f.data := by
    rw [remaining, List.take_append_drop]
  have length : (f.data.take (i * f.chunk)).length =
      min (i * f.setting.layout.chunk) f.setting.layout.size := List.length_take
  have begun : (Sealer.new f.setting i).Holds (f.data.take (i * f.chunk)) :=
    Sealer.Holds.new inside (by rw [length]; exact Nat.min_le_right _ _) length
  have fits : (f.data.take (i * f.chunk)).length + parts.flatten.length ≤
      (Sealer.new f.setting i).setting.layout.size := by
    rw [← List.length_append, whole]
    exact Nat.le_refl _
  obtain ⟨out, pushed, same, holds, sealed⟩ :=
    Sealer.pushes_holds cipher (Sealer.new f.setting i) parts begun fits
  rw [whole] at holds sealed
  have complete := holds.complete_iff.mpr (by rw [same]; rfl)
  refine ⟨out, pushed, complete, ?_⟩
  rw [Sealer.isComplete, decide_eq_true_eq, same] at complete
  rw [complete] at sealed
  have before : f.setting.sealedTo cipher (f.data.take (i * f.chunk)) i =
      f.setting.sealedTo cipher f.data i := by
    rcases Nat.lt_or_ge f.data.length (i * f.chunk) with past | started
    · rw [List.take_of_length_le (Nat.le_of_lt past)]
    · have kept : f.setting.sealedTo cipher
          (f.data.take (i * f.chunk) ++ f.data.drop (i * f.chunk)) i =
            f.setting.sealedTo cipher (f.data.take (i * f.chunk)) i := by
        apply Setting.sealedTo_append
        rw [List.length_take]
        exact Nat.le_min.mpr ⟨Nat.le_refl _, started⟩
      rw [← kept, List.take_append_drop]
  rw [show (Sealer.new f.setting i).setting = f.setting from rfl,
    show (Sealer.new f.setting i).index = i from rfl, before] at sealed
  exact sealed

/-- What lies before a chunk is what a resumed download keeps. -/
theorem take_sealedOffset {i : Nat} (inside : i ≤ f.layout.chunks) :
    (f.sealedBytes cipher).take (f.layout.sealedOffset i) =
      f.setting.sealedTo cipher f.data i := by
  rcases Nat.lt_or_eq_of_le inside with there | rfl
  · obtain ⟨after, split⟩ : f.setting.sealedTo cipher f.data i <+: f.sealedBytes cipher :=
      Setting.sealedTo_prefix inside
    have length : (f.setting.sealedTo cipher f.data i).length = f.layout.sealedOffset i :=
      Setting.length_sealedTo rfl there
    rw [← split, ← length, List.take_left]
  · apply List.take_of_length_le
    have length : (f.sealedBytes cipher).length = f.layout.fileLen :=
      Setting.length_sealedTo_all rfl
    have covers := f.layout.chunks_covers
    rw [length, Layout.fileLen, Layout.sealedOffset, Nat.mul_add]
    omega

/-- A chunk starts at its offset. -/
theorem chunk_at {i : Nat} (there : i < f.layout.chunks) :
    ((f.sealedBytes cipher).drop (f.layout.sealedOffset i)).take (f.layout.sealedLen i) =
      cipher.seal (f.setting.sealing f.data i) := by
  have start : f.sealedBytes cipher = f.setting.sealedTo cipher f.data i ++
      (f.sealedBytes cipher).drop (f.layout.sealedOffset i) := by
    rw [← take_sealedOffset (Nat.le_of_lt there), List.take_append_drop]
  obtain ⟨after, split⟩ := File.next_chunk there start.symm
  rw [split, ← File.length_seal, List.take_left]

section Readers

variable [DecidableEq Key] {log : Sealed cipher}

/-- All reads up to one. -/
theorem reads_cases (genuine : Genuine log f) {bytes : Bytes} (rooms : List Nat)
    {out : Bytes} {d : Decrypting Key} {r : Reader}
    (here : Decrypts f cipher bytes out d r) :
    (∀ done, reads log out d r rooms = .ended done →
      done = f.data ∧ bytes = f.sealedBytes cipher) ∧
    (∀ done, reads log out d r rooms = .failed done →
      done <+: f.data ∧ bytes ≠ f.sealedBytes cipher) ∧
    ∀ done d' r', reads log out d r rooms = .reading done d' r' →
      done <+: f.data ∧ ((∀ room ∈ rooms, 0 < room) →
        rooms.length + out.length + r.waits ≤ done.length + r'.waits) := by
  have given : ∀ {out : Bytes} {d : Decrypting Key} {r : Reader},
      Decrypts f cipher bytes out d r → out <+: f.data := by
    intro out d r here
    exact (List.prefix_append _ _).trans (here.out ▸ List.take_prefix _ _)
  induction rooms generalizing out d r with
  | nil =>
      refine ⟨fun done ended => (by cases ended), fun done failed => (by cases failed), ?_⟩
      intro done d' r' same
      cases same
      refine ⟨given here, fun _ => Nat.le_of_eq ?_⟩
      rw [List.length_nil, Nat.zero_add]
  | cons room rest ih =>
      rw [reads]
      have polls : PollsTo f cipher bytes out room r (d.pollRead log r room) :=
        here.pollRead genuine
      cases polled : d.pollRead log r room with
      | mk polled_as after =>
          obtain ⟨d', r'⟩ := after
          rw [polled] at polls
          cases polls with
          | pending next waits =>
              obtain ⟨ended, failed, reading⟩ := ih next
              refine ⟨ended, failed, fun done d' r' same => ?_⟩
              obtain ⟨before, progress⟩ := reading done d' r' same
              refine ⟨before, fun roomy => ?_⟩
              have := progress (fun n mem => roomy n (List.mem_cons_of_mem _ mem))
              rw [List.length_cons]
              omega
          | ready next waits complete =>
              dsimp only
              split
              case isTrue over_now =>
                obtain ⟨all, whole⟩ := complete over_now.1 over_now.2
                refine ⟨?_, fun done failed => (by cases failed),
                  fun done d' r' same => (by cases same)⟩
                intro done ended
                cases ended
                exact ⟨all, whole⟩
              case isFalse going =>
                obtain ⟨ended, failed, reading⟩ := ih next
                refine ⟨ended, failed, fun done d' r' same => ?_⟩
                obtain ⟨before, progress⟩ := reading done d' r' same
                refine ⟨before, fun roomy => ?_⟩
                have := progress (fun n mem => roomy n (List.mem_cons_of_mem _ mem))
                have some_room := roomy room List.mem_cons_self
                rw [not_and'] at going
                have some_byte := List.length_pos_iff.mpr (going some_room)
                rw [List.length_append] at this
                rw [List.length_cons]
                omega
          | failed other =>
              refine ⟨fun done ended => (by cases ended), ?_,
                fun done d' r' same => (by cases same)⟩
              intro done failed
              cases failed
              exact ⟨given here, other⟩

/-- The sealed format: `write` and every sealer, begun at any chunk, make the same
bytes; these are laid out as computed, pass the check and are read back; and no
other bytes pass the check or are read to a clean end. -/
theorem sealed_format (sha256 : Bytes → Bytes) (log : Sealed cipher) (f : File Key)
    (genuine : Genuine log f) :
    (∀ (o : CopyOptions Key) (grants : Nat → Nat),
      o.key = f.key → o.id = f.id → o.chunk = f.chunk →
      (∀ written bytes, write cipher sha256 o (Reader.fresh f.data grants) =
          .ok (written, bytes) →
        bytes = f.sealedBytes cipher ∧ written.key = f.key ∧
          written.size = f.data.length ∧ written.sha256 = hex (sha256 f.data)) ∧
      ((∀ i, o.fails i = none) → f.data.length ≤ o.max →
        (∀ done total, o.progress done total = true) →
        ∃ written bytes, write cipher sha256 o (Reader.fresh f.data grants) =
          .ok (written, bytes))) ∧
    (∀ i ≤ f.layout.chunks, ∀ parts : List Bytes,
      parts.flatten = f.data.drop (i * f.chunk) →
      ∃ out, (Sealer.pushes cipher (Sealer.new f.setting i) parts).1 = .ok out ∧
        (Sealer.pushes cipher (Sealer.new f.setting i) parts).2.isComplete ∧
        (f.sealedBytes cipher).take (f.layout.sealedOffset i) ++ out =
          f.sealedBytes cipher) ∧
    ((f.sealedBytes cipher).length = f.layout.fileLen ∧
      ∀ i < f.layout.chunks,
        ((f.sealedBytes cipher).drop (f.layout.sealedOffset i)).take
          (f.layout.sealedLen i) = cipher.seal (f.setting.sealing f.data i)) ∧
    (∀ (bytes : Bytes) (grants : Nat → Nat),
      verify log sha256 f.setting bytes grants (hex (sha256 f.data)) = .ok () ↔
        bytes = f.sealedBytes cipher) ∧
    ∀ (bytes : Bytes) (grants : Nat → Nat) (rooms : List Nat),
      (∀ done, reads log [] (Decrypting.new f.setting) (Reader.fresh bytes grants) rooms =
          .ended done → done = f.data ∧ bytes = f.sealedBytes cipher) ∧
      (∀ done, reads log [] (Decrypting.new f.setting) (Reader.fresh bytes grants) rooms =
          .failed done → done <+: f.data ∧ bytes ≠ f.sealedBytes cipher) ∧
      ∀ done d r, reads log [] (Decrypting.new f.setting) (Reader.fresh bytes grants) rooms =
          .reading done d r →
        done <+: f.data ∧
          ((∀ room ∈ rooms, 0 < room) → rooms.length ≤ done.length + r.waits) := by
  refine ⟨?_, ?_, ⟨Setting.length_sealedTo_all rfl, fun i there => chunk_at there⟩,
    genuine.verify_iff sha256, ?_⟩
  · intro o grants key id chunk
    exact write_file sha256 f o key id chunk grants
  · intro i inside parts remaining
    rw [take_sealedOffset inside]
    exact pushes_complete cipher f inside remaining
  · intro bytes grants rooms
    have cases := reads_cases genuine rooms (Decrypts.new f cipher bytes grants)
    rw [List.length_nil, Nat.add_zero, show (Reader.fresh bytes grants).waits = 0 from rfl,
      Nat.add_zero] at cases
    exact cases

end Readers

/-- The sealings of one file. -/
def File.ownLog (f : File Key) (cipher : Cipher Key) : Sealed cipher where
  sealings := (List.range f.layout.chunks).map (f.setting.sealing f.data)
  unique := by
    intro s s_mem t t_mem nonces _
    obtain ⟨i, i_mem, rfl⟩ := List.mem_map.mp s_mem
    obtain ⟨j, j_mem, rfl⟩ := List.mem_map.mp t_mem
    have i_small := File.index_small (List.mem_range.mp i_mem)
    have j_small := File.index_small (List.mem_range.mp j_mem)
    have width : (2 : Nat) ^ 64 = 256 ^ 8 := by decide
    have same := beBytes_inj (width ▸ i_small) (width ▸ j_small)
      (List.append_cancel_left nonces)
    rw [same]

theorem File.genuine_ownLog (f : File Key) : Genuine (f.ownLog cipher) f where
  sealed := fun i there => List.mem_map_of_mem (List.mem_range.mpr there)
  only := by
    intro s mem _ _ _ _
    obtain ⟨i, inside, rfl⟩ := List.mem_map.mp mem
    exact ⟨i, List.mem_range.mp inside, rfl⟩

/-- A cipher that hides nothing and adds a tag of the right length. -/
def tagging : Cipher Nat where
  encrypt := fun _ _ _ data => data ++ List.replicate tagBytes 7
  length_encrypt := fun _ _ _ _ => by rw [List.length_append, List.length_replicate]

/-- Five bytes in chunks of two. -/
def fiveBytes : File Nat where
  key := 1
  id := ⟨List.replicate 16 3, rfl⟩
  chunk := 2
  data := [10, 11, 12, 13, 14]
  positive := by decide
  nonempty := by decide
  fits := by decide

/-- The sealed bytes of a file pass the check, and without the last one they do
not. -/
theorem five_bytes_checked :
    let whole := fiveBytes.sealedBytes tagging
    verify (fiveBytes.ownLog tagging) id fiveBytes.setting whole (fun _ => 1)
        (hex fiveBytes.data) = .ok () ∧
      verify (fiveBytes.ownLog tagging) id fiveBytes.setting whole.dropLast (fun _ => 1)
        (hex fiveBytes.data) ≠ .ok () := by
  obtain ⟨-, -, ⟨length, -⟩, checked, -⟩ :=
    sealed_format id (fiveBytes.ownLog tagging) fiveBytes fiveBytes.genuine_ownLog
  refine ⟨(checked _ _).mpr rfl, fun passed => ?_⟩
  have same := congrArg List.length ((checked _ _).mp passed)
  rw [List.length_dropLast, length] at same
  revert same
  decide

end Brook.Snapshot
