import Brook.Snapshot.Verify

namespace Brook.Snapshot

open Aead Readers

universe u

variable {Key : Type u} {cipher : Cipher Key}

/-! The plaintext of a sealed file, opened chunk by chunk as it is read. -/

structure Decrypting (Key : Type u) where
  setting : Setting Key
  index : Nat
  /-- What was read of the chunk that is being read. -/
  sealed : Bytes
  plain : Bytes
  pos : Nat
  broken : Bool
  inside : index ≤ setting.layout.chunks

inductive Filled
  | full
  | pending
  | ended

/-- The inner loop, which reads the rest of a chunk. -/
def fillChunk (want : Nat) (sealed : Bytes) (r : Reader) : Filled × Bytes × Reader :=
  if want ≤ sealed.length then (.full, sealed, r)
  else
    match (r.poll (want - sealed.length)).1 with
    | none => (.pending, sealed, (r.poll (want - sealed.length)).2)
    | some got =>
        if got = [] then (.ended, sealed, (r.poll (want - sealed.length)).2)
        else fillChunk want (sealed ++ got) (r.poll (want - sealed.length)).2
termination_by want - sealed.length
decreasing_by
  have := List.length_pos_iff.mpr ‹got ≠ []›
  rw [List.length_append]
  omega

inductive Polled
  | pending
  | ready (bytes : Bytes)
  | failed

namespace Decrypting

/-- What `reader` makes of a snapshot. -/
def new (set : Setting Key) : Decrypting Key :=
  ⟨set, 0, [], [], 0, false, Nat.zero_le _⟩

/-- `poll_read` -/
def pollRead [DecidableEq Key] (log : Sealed cipher) (d : Decrypting Key) (r : Reader)
    (room : Nat) : Polled × Decrypting Key × Reader :=
  if d.pos < d.plain.length then
    let n := min (d.plain.length - d.pos) room
    (.ready ((d.plain.drop d.pos).take n), { d with pos := d.pos + n }, r)
  else if past : d.index = d.setting.layout.chunks then
    match (r.poll 1).1 with
    | none => (.pending, d, (r.poll 1).2)
    | some probe =>
        if probe = [] then (.ready [], d, (r.poll 1).2)
        else (.failed, { d with broken := true }, (r.poll 1).2)
  else
    match fillChunk (d.setting.layout.sealedLen d.index) d.sealed r with
    | (.pending, sealed, r') => (.pending, { d with sealed }, r')
    | (.ended, sealed, r') => (.failed, { d with sealed, broken := true }, r')
    | (.full, sealed, r') =>
        match openChunk log d.setting.key d.setting.id d.index
            (d.index + 1 = d.setting.layout.chunks) sealed with
        | .error _ => (.failed, { d with sealed, broken := true }, r')
        | .ok plain =>
            pollRead log
              ⟨d.setting, d.index + 1, [], plain, 0, d.broken,
                Nat.lt_of_le_of_ne d.inside past⟩
              r' room
termination_by d.setting.layout.chunks - d.index
decreasing_by
  have := Nat.lt_of_le_of_ne d.inside past
  show d.setting.layout.chunks - (d.index + 1) < d.setting.layout.chunks - d.index
  omega

end Decrypting

/-- How far a reader has come with its reads. -/
inductive Outcome (Key : Type u)
  | reading (out : Bytes) (d : Decrypting Key) (r : Reader)
  | ended (out : Bytes)
  | failed (out : Bytes)

/-- One read after another, each into a buffer with so much room; a read that gives
nothing though there is room is the end of the file. -/
def reads [DecidableEq Key] (log : Sealed cipher) (out : Bytes) (d : Decrypting Key)
    (r : Reader) : List Nat → Outcome Key
  | [] => .reading out d r
  | room :: rest =>
      match d.pollRead log r room with
      | (.pending, d', r') => reads log out d' r' rest
      | (.failed, _, _) => .failed out
      | (.ready got, d', r') =>
          if got = [] ∧ 0 < room then .ended out
          else reads log (out ++ got) d' r' rest

/-- Filling a chunk takes the bytes in order; it is pending where the file was, and
ends only with the file. -/
theorem fillChunk_takes (want : Nat) (sealed : Bytes) (r : Reader)
    (within : sealed.length ≤ want) :
    ∃ taken, (fillChunk want sealed r).2.1 = sealed ++ taken ∧
      r.rest = taken ++ (fillChunk want sealed r).2.2.rest ∧
      (sealed ++ taken).length ≤ want ∧
      ((fillChunk want sealed r).1 = .full → (sealed ++ taken).length = want ∧
        (fillChunk want sealed r).2.2.waits = r.waits) ∧
      ((fillChunk want sealed r).1 = .pending →
        (fillChunk want sealed r).2.2.waits = r.waits + 1) ∧
      ((fillChunk want sealed r).1 = .ended →
        (sealed ++ taken).length < want ∧ (fillChunk want sealed r).2.2.rest = []) := by
  fun_induction fillChunk want sealed r with
  | case1 sealed r full =>
      refine ⟨[], by simp, rfl, by simpa using within, ?_, fun other => Filled.noConfusion other,
        fun other => Filled.noConfusion other⟩
      intro _
      rw [List.append_nil]
      exact ⟨Nat.le_antisymm within full, rfl⟩
  | case2 sealed r short waiting =>
      rcases r.poll_cases (Nat.sub_pos_of_lt (Nat.lt_of_not_le short)) with
        ⟨-, rest, waits⟩ | ⟨got, answered, -⟩
      · exact ⟨[], by simp, rest.symm, by simpa using within,
          fun other => Filled.noConfusion other, fun _ => waits,
          fun other => Filled.noConfusion other⟩
      · rw [waiting] at answered
        cases answered
  | case3 sealed r short answered =>
      rcases r.poll_cases (Nat.sub_pos_of_lt (Nat.lt_of_not_le short)) with
        ⟨waiting, -⟩ | ⟨got, same, rest, -, -, ended⟩
      · rw [answered] at waiting
        cases waiting
      · rw [answered] at same
        cases same
        refine ⟨[], by simp, rest, by simpa using within,
          fun other => Filled.noConfusion other,
          fun other => Filled.noConfusion other, fun _ => ⟨?_, ?_⟩⟩
        · rw [List.append_nil]
          exact Nat.lt_of_not_le short
        · rw [ended rfl] at rest
          exact rest.symm
  | case4 sealed r short got answered going ih =>
      rcases r.poll_cases (Nat.sub_pos_of_lt (Nat.lt_of_not_le short)) with
        ⟨waiting, -⟩ | ⟨got', same, rest, waits, small, -⟩
      · rw [answered] at waiting
        cases waiting
      · rw [answered] at same
        cases same
        obtain ⟨taken, sealedMore, restMore, withinMore, full, pending, ended⟩ :=
          ih (by rw [List.length_append]; omega)
        rw [waits] at full pending
        rw [List.append_assoc] at sealedMore withinMore full ended
        exact ⟨got ++ taken, sealedMore, by rw [List.append_assoc, ← restMore, ← rest],
          withinMore, full, pending, ended⟩

/-- A reader has given the plaintext of the chunks that it opened. -/
structure Decrypts (f : File Key) (cipher : Cipher Key) (bytes out : Bytes)
    (d : Decrypting Key) (r : Reader) : Prop where
  setting : d.setting = f.setting
  start : bytes = f.setting.sealedTo cipher f.data d.index ++ (d.sealed ++ r.rest)
  room : d.index < f.layout.chunks → d.sealed.length ≤ f.layout.sealedLen d.index
  past : d.index = f.layout.chunks → d.sealed = []
  out : out ++ d.plain.drop d.pos = f.data.take (d.index * f.chunk)

/-- What a read can come to. -/
inductive PollsTo (f : File Key) (cipher : Cipher Key) (bytes out : Bytes) (room : Nat)
    (r : Reader) : Polled × Decrypting Key × Reader → Prop
  | pending {d' : Decrypting Key} {r' : Reader} (here : Decrypts f cipher bytes out d' r')
      (waits : r'.waits = r.waits + 1) : PollsTo f cipher bytes out room r (.pending, d', r')
  | ready {got : Bytes} {d' : Decrypting Key} {r' : Reader}
      (here : Decrypts f cipher bytes (out ++ got) d' r') (waits : r'.waits = r.waits)
      (ended : got = [] → 0 < room → out = f.data ∧ bytes = f.sealedBytes cipher) :
      PollsTo f cipher bytes out room r (.ready got, d', r')
  | failed {d' : Decrypting Key} {r' : Reader} (other : bytes ≠ f.sealedBytes cipher) :
      PollsTo f cipher bytes out room r (.failed, d', r')

theorem PollsTo.of_waits {f : File Key} {bytes out : Bytes} {room : Nat} {r r' : Reader}
    {result : Polled × Decrypting Key × Reader} (same : r'.waits = r.waits)
    (polls : PollsTo f cipher bytes out room r' result) :
    PollsTo f cipher bytes out room r result := by
  cases polls with
  | pending here waits => exact .pending here (same ▸ waits)
  | ready here waits ended => exact .ready here (same ▸ waits) ended
  | failed other => exact .failed other

namespace Decrypts

variable {f : File Key} {bytes out : Bytes} {d : Decrypting Key}
  {r : Reader} {room : Nat}

theorem new (f : File Key) (cipher : Cipher Key) (bytes : Bytes) (grants : Nat → Nat) :
    Decrypts f cipher bytes [] (Decrypting.new f.setting) (Reader.fresh bytes grants) where
  setting := rfl
  start := rfl
  room := fun _ => Nat.zero_le _
  past := fun _ => rfl
  out := by rw [show (Decrypting.new f.setting).index = 0 from rfl, Nat.zero_mul]; rfl

theorem inside (here : Decrypts f cipher bytes out d r)
    (more : d.index ≠ d.setting.layout.chunks) : d.index < f.layout.chunks := by
  have := d.inside
  rw [here.setting] at this more
  exact Nat.lt_of_le_of_ne this more

/-- After the last chunk, what is left of the bytes does not belong to the file. -/
theorem start_past (here : Decrypts f cipher bytes out d r)
    (past : d.index = d.setting.layout.chunks) :
    bytes = f.sealedBytes cipher ++ r.rest := by
  rw [here.setting] at past
  have start := here.start
  rw [here.past past, past, List.nil_append] at start
  exact start

theorem out_past (here : Decrypts f cipher bytes out d r)
    (past : d.index = d.setting.layout.chunks) (given : ¬ d.pos < d.plain.length) :
    out = f.data := by
  rw [here.setting] at past
  have out := here.out
  rw [List.drop_eq_nil_of_le (Nat.le_of_not_lt given), List.append_nil, past] at out
  exact out.trans File.take_chunks

/-- What the inner loop leaves: bytes in order, and no more than the chunk has. -/
theorem filled (here : Decrypts f cipher bytes out d r)
    (more : d.index ≠ d.setting.layout.chunks) {filled : Filled} {sealed : Bytes}
    {r' : Reader}
    (run : fillChunk (d.setting.layout.sealedLen d.index) d.sealed r =
      (filled, sealed, r')) :
    bytes = f.setting.sealedTo cipher f.data d.index ++ (sealed ++ r'.rest) ∧
      sealed.length ≤ f.layout.sealedLen d.index ∧
      (filled = .full → sealed.length = f.layout.sealedLen d.index ∧
        r'.waits = r.waits) ∧
      (filled = .pending → r'.waits = r.waits + 1) ∧
      (filled = .ended → sealed.length < f.layout.sealedLen d.index ∧ r'.rest = []) := by
  have start := here.start
  have within := here.room (here.inside more)
  rw [here.setting, show f.setting.layout = f.layout from rfl] at run
  obtain ⟨taken, sealedMore, restMore, small, full, pending, ended⟩ :=
    fillChunk_takes (f.layout.sealedLen d.index) d.sealed r within
  rw [run] at sealedMore restMore full pending ended
  dsimp only at sealedMore restMore full pending ended
  rw [← sealedMore] at small full ended
  refine ⟨?_, small, full, pending, ended⟩
  rw [start, restMore, sealedMore, List.append_assoc]

/-- In the sealed file, a full chunk is the one that was sealed for its place. -/
theorem full_chunk {sealed rest : Bytes} (there : d.index < f.layout.chunks)
    (start : bytes = f.setting.sealedTo cipher f.data d.index ++ (sealed ++ rest))
    (full : sealed.length = f.layout.sealedLen d.index)
    (whole : bytes = f.sealedBytes cipher) :
    sealed = cipher.seal (f.setting.sealing f.data d.index) := by
  obtain ⟨after, split⟩ := File.next_chunk there (start.symm.trans whole)
  exact (List.append_inj split (full.trans File.length_seal.symm)).1

variable [DecidableEq Key] {log : Sealed cipher}

/-- One read. -/
theorem pollRead (genuine : Genuine log f) (here : Decrypts f cipher bytes out d r) :
    PollsTo f cipher bytes out room r (d.pollRead log r room) := by
  fun_induction Decrypting.pollRead log d r room with
  | case1 d r given n =>
      refine .ready ?_ rfl ?_
      · refine ⟨here.setting, here.start, here.room, here.past, ?_⟩
        have split : (d.plain.drop d.pos).take n ++ d.plain.drop (d.pos + n) =
            d.plain.drop d.pos := by
          rw [← List.drop_drop, List.take_append_drop]
        rw [List.append_assoc, split]
        exact here.out
      · intro nothing some_room
        rcases List.take_eq_nil_iff.mp nothing with none_taken | empty
        · omega
        · rw [List.drop_eq_nil_iff] at empty
          omega
  | case2 d r given past waiting =>
      rcases r.poll_cases Nat.one_pos with ⟨-, rest, waits⟩ | ⟨got, answered, -⟩
      · exact .pending ⟨here.setting, rest ▸ here.start, here.room, here.past, here.out⟩
          waits
      · rw [waiting] at answered
        cases answered
  | case3 d r given past answered =>
      rcases r.poll_cases Nat.one_pos with ⟨waiting, -⟩ | ⟨got, same, rest, waits, -, ended⟩
      · rw [answered] at waiting
        cases waiting
      · rw [answered] at same
        cases same
        have rest' : (r.poll 1).2.rest = r.rest := rest.symm
        refine .ready ⟨here.setting, rest' ▸ here.start, here.room, here.past, ?_⟩ waits
          (fun _ _ => ⟨here.out_past past given, ?_⟩)
        · rw [List.append_nil]
          exact here.out
        · rw [here.start_past past, ended rfl, List.append_nil]
  | case4 d r given past probe answered more =>
      rcases r.poll_cases Nat.one_pos with ⟨waiting, -⟩ | ⟨got, same, rest, -⟩
      · rw [answered] at waiting
        cases waiting
      · rw [answered] at same
        cases same
        refine .failed fun whole => more ?_
        have longer := here.start_past past
        rw [whole, rest, List.self_eq_append_right, List.append_eq_nil_iff] at longer
        exact longer.1
  | case5 d r given more sealed r' run =>
      obtain ⟨start, small, -, pending, -⟩ := here.filled more run
      exact .pending ⟨here.setting, start, fun _ => small,
        fun past => absurd past (Nat.ne_of_lt (here.inside more)), here.out⟩ (pending rfl)
  | case6 d r given more sealed r' run =>
      obtain ⟨start, -, -, -, ended⟩ := here.filled more run
      refine .failed fun whole => ?_
      obtain ⟨after, split⟩ :=
        File.next_chunk (here.inside more) (start.symm.trans whole)
      have lengths := congrArg List.length split
      rw [(ended rfl).2, List.append_nil, List.length_append, File.length_seal] at lengths
      have := (ended rfl).1
      omega
  | case7 d r given more sealed r' run damaged opened =>
      obtain ⟨start, -, full, -⟩ := here.filled more run
      refine .failed fun whole => ?_
      have sealedIs := full_chunk (here.inside more) start (full rfl).1 whole
      rw [here.setting, sealedIs] at opened
      have both := opened.symm.trans (genuine.openChunk_sealed (here.inside more))
      cases both
  | case8 d r given more sealed r' run plain opened ih =>
      obtain ⟨start, -, full, -⟩ := here.filled more run
      have there := here.inside more
      rw [here.setting] at opened
      obtain ⟨chunk, piece⟩ := genuine.openChunk_ok there opened
      have before := here.out
      rw [List.drop_eq_nil_of_le (Nat.le_of_not_lt given), List.append_nil] at before
      refine PollsTo.of_waits (full rfl).2 (ih ⟨here.setting, ?_, fun _ => Nat.zero_le _,
        fun _ => rfl, ?_⟩)
      · rw [Setting.sealedTo_succ, ← chunk, List.nil_append, List.append_assoc]
        exact start
      · rw [List.drop_zero, piece, before]
        exact File.take_piece

end Decrypts

end Brook.Snapshot
