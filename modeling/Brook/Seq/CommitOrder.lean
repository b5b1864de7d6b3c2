import Brook.Seq.Session

namespace Brook.Seq

open Transition

/-! ### The walk of `_forget_on_rollback` -/

theorem takenUnder_iff {takenIn previous : SubTx} :
    takenUnder takenIn previous = true ↔
      previous ≠ [] ∧ previous <:+ takenIn := by
  induction takenIn with
  | nil =>
      simp only [takenUnder, Bool.false_eq_true, List.suffix_nil, false_iff]
      rintro ⟨some, none⟩
      exact some none
  | cons id parents ih =>
      simp only [takenUnder, Bool.or_eq_true, decide_eq_true_eq, ih,
        List.suffix_cons_iff]
      constructor
      · rintro (rfl | ⟨some, suffix⟩)
        · exact ⟨by simp, Or.inl rfl⟩
        · exact ⟨some, Or.inr suffix⟩
      · rintro ⟨some, same | suffix⟩
        · exact Or.inl same.symm
        · exact Or.inr ⟨some, suffix⟩

theorem framesUnder_some {id : Nat} {stack below : List Frame}
    (found : framesUnder id stack = some below) :
    ∃ popped frame, stack = popped ++ frame :: below ∧ frame.id = id := by
  induction stack with
  | nil => cases found
  | cons frame rest ih =>
      simp only [framesUnder] at found
      split at found
      · rename_i same
        cases found
        exact ⟨[], frame, rfl, same⟩
      · obtain ⟨popped, rolledBack, rfl, same⟩ := ih found
        exact ⟨frame :: popped, rolledBack, rfl, same⟩

/-! ### What a session knows of the number it took -/

/-- The number was taken in the frame `owner`, or in one released into it. -/
structure Placed (nextId : Nat) (session : Session) (seq : Nat)
    (takenIn : SubTx) (above : List Frame) (owner : Frame)
    (below : List Frame) (closed : List Nat) : Prop where
  stack : session.stack = above ++ owner :: below
  path : takenIn = closed ++ owner.id :: below.map Frame.id
  apart : ∀ frame ∈ above, frame.id ∉ closed
  closedIds : ∀ id ∈ closed, id < nextId
  aboveFree : ∀ frame ∈ above, frame.bump = none
  belowFree : ∀ frame ∈ below, frame.bump = none ∧ frame.rows = []
  bumped : owner.bump = some seq ∨
    session.broken = true ∧ above = [] ∧ owner.bump = none ∧ owner.rows = []
  stamps : ∀ frame ∈ session.stack, ∀ stamp ∈ frame.rows,
    stamp.seq = seq ∧ stamp.held = some seq

/-- The frames have written nothing that was stamped. -/
def Unstamped (stack : List Frame) : Prop :=
  ∀ frame ∈ stack, frame.bump = none ∧ frame.rows = []

structure Session.Sound (counter nextId : Nat) (session : Session) : Prop where
  ids : ∀ frame ∈ session.stack, frame.id < nextId
  held : ∀ value, heldValue session.stack = some value → value = counter + 1
  info : match session.info with
    | none => Unstamped session.stack
    | some (seq, takenIn) => ∃ above owner below closed,
        Placed nextId session seq takenIn above owner below closed

section

variable {counter nextId seq : Nat} {session : Session} {takenIn : SubTx}
variable {above below : List Frame} {owner : Frame} {closed : List Nat}

theorem heldValue_append (above : List Frame)
    (unbumped : ∀ frame ∈ above, frame.bump = none) (rest : List Frame) :
    heldValue (above ++ rest) = heldValue rest := by
  induction above with
  | nil => rfl
  | cons frame above ih =>
      have none := unbumped frame List.mem_cons_self
      have others := fun other mem => unbumped other (List.mem_cons_of_mem _ mem)
      simpa [heldValue, none] using ih others

theorem Unstamped.heldValue {stack : List Frame} (unstamped : Unstamped stack) :
    heldValue stack = none := by
  simpa [Seq.heldValue] using fun frame mem => (unstamped frame mem).1

theorem Unstamped.rows {stack : List Frame} (unstamped : Unstamped stack) :
    stack.flatMap Frame.rows = [] := by
  simpa using fun frame mem => (unstamped frame mem).2

theorem Placed.heldValue
    (placed : Placed nextId session seq takenIn above owner below closed)
    (sane : session.broken = false) :
    Seq.heldValue session.stack = some seq := by
  have bump : owner.bump = some seq :=
    placed.bumped.resolve_right (by simp [sane])
  rw [placed.stack, heldValue_append above placed.aboveFree]
  simp [Seq.heldValue, bump]

/-- The frames above the bumped one become others, released or written to. -/
theorem Placed.replaceTop
    (placed : Placed nextId session seq takenIn above owner below closed)
    {changed : Session} {top : Frame} {rest : List Frame}
    (stack : changed.stack = top :: (rest ++ owner :: below))
    (sub : ∀ frame ∈ rest, frame ∈ above) (apart : top.id ∉ closed)
    (free : top.bump = none) (bumped : owner.bump = some seq)
    (stamps : ∀ frame ∈ changed.stack, ∀ stamp ∈ frame.rows,
      stamp.seq = seq ∧ stamp.held = some seq) :
    Placed nextId changed seq takenIn (top :: rest) owner below closed where
  stack := stack
  path := placed.path
  apart := List.forall_mem_cons.mpr
    ⟨apart, fun frame mem => placed.apart frame (sub frame mem)⟩
  closedIds := placed.closedIds
  aboveFree := List.forall_mem_cons.mpr
    ⟨free, fun frame mem => placed.aboveFree frame (sub frame mem)⟩
  belowFree := placed.belowFree
  bumped := Or.inl bumped
  stamps := stamps

theorem idle_sound : Session.idle.Sound counter nextId := by
  constructor
  · simp [Session.idle]
  · simp [Session.idle, heldValue]
  · simp [Session.idle, Unstamped]

/-- The counter and the ids move on under a session that holds nothing. -/
theorem Session.Sound.transfer (sound : session.Sound counter nextId)
    {counter' nextId' : Nat}
    (held : counter' = counter ∨ Seq.heldValue session.stack = none)
    (later : nextId ≤ nextId') : session.Sound counter' nextId' := by
  refine ⟨fun frame mem => Nat.lt_of_lt_of_le (sound.ids frame mem) later,
    ?_, ?_⟩
  · intro value same
    rcases held with rfl | free
    · exact sound.held value same
    · simp [free] at same
  · have info := sound.info
    revert info
    cases session.info with
    | none => exact id
    | some taken =>
        rintro ⟨above, owner, below, closed, placed⟩
        exact ⟨above, owner, below, closed, { placed with
          closedIds := fun id mem =>
            Nat.lt_of_lt_of_le (placed.closedIds id mem) later }⟩

theorem open_sound (sound : session.Sound counter nextId)
    (sane : session.broken = false ∨ session.stack = []) :
    Session.Sound counter (nextId + 1)
      { session with stack := ⟨nextId, [], none⟩ :: session.stack } := by
  constructor
  · intro frame mem
    rcases List.mem_cons.mp mem with rfl | old
    · exact Nat.lt_succ_self _
    · exact Nat.lt_succ_of_lt (sound.ids frame old)
  · intro value same
    exact sound.held value (by simpa [heldValue] using same)
  · have info := sound.info
    dsimp only
    revert info
    cases session.info with
    | none =>
        intro unstamped frame mem
        rcases List.mem_cons.mp mem with rfl | old
        · exact ⟨rfl, rfl⟩
        · exact unstamped frame old
    | some taken =>
        rintro ⟨above, owner, below, closed, placed⟩
        refine ⟨⟨nextId, [], none⟩ :: above, owner, below, closed, ?_⟩
        constructor
        · simp [placed.stack]
        · exact placed.path
        · have unused : nextId ∉ closed := fun stored =>
            Nat.lt_irrefl _ (placed.closedIds nextId stored)
          exact List.forall_mem_cons.mpr ⟨unused, placed.apart⟩
        · exact fun id mem => Nat.lt_succ_of_lt (placed.closedIds id mem)
        · exact List.forall_mem_cons.mpr ⟨rfl, placed.aboveFree⟩
        · exact placed.belowFree
        · apply Or.inl
          rcases sane with unbroken | empty
          · exact placed.bumped.resolve_right (by simp [unbroken])
          · simp [placed.stack] at empty
        · intro frame mem
          rcases List.mem_cons.mp mem with rfl | old
          · simp
          · exact placed.stamps frame old

theorem take_sound (sound : session.Sound counter nextId)
    (fresh : session.info = none) {frame : Frame} {below : List Frame}
    (stack : session.stack = frame :: below) :
    Session.Sound counter nextId
      { session with
        stack := { frame with bump := some (counter + 1) } :: below
        info := some (counter + 1, session.transaction) } := by
  have unstamped : Unstamped session.stack := by
    simpa [fresh] using sound.info
  rw [stack] at unstamped
  have ids := sound.ids
  rw [stack] at ids
  have belowFree := fun other mem =>
    unstamped other (List.mem_cons_of_mem frame mem)
  have noRows := (unstamped frame List.mem_cons_self).2
  constructor
  · exact List.forall_mem_cons.mpr (List.forall_mem_cons.mp ids)
  · intro value same
    simpa [heldValue, eq_comm] using same
  · refine ⟨[], { frame with bump := some (counter + 1) }, below, [], ?_⟩
    constructor
    · rfl
    · simp [Session.transaction, stack]
    · simp
    · simp
    · simp
    · exact belowFree
    · exact Or.inl rfl
    · intro other mem
      rcases List.mem_cons.mp mem with rfl | old
      · simp [noRows]
      · simp [(belowFree other old).2]

theorem stamp_sound (sound : session.Sound counter nextId)
    (sane : session.broken = false) (taken : session.info = some (seq, takenIn))
    {frame : Frame} {below : List Frame}
    (stack : session.stack = frame :: below) (row : RowId) :
    Session.Sound counter nextId
      { session with
        stack := { frame with
          rows := ⟨row, seq, heldValue session.stack⟩ :: frame.rows } ::
            below } := by
  have info := sound.info
  simp only [taken] at info
  obtain ⟨above, owner, under, closed, placed⟩ := info
  have held := placed.heldValue sane
  have ids := sound.ids
  rw [stack] at ids
  have newStamps : ∀ other ∈
      { frame with
        rows := ⟨row, seq, heldValue session.stack⟩ :: frame.rows } :: below,
      ∀ stamp ∈ other.rows, stamp.seq = seq ∧ stamp.held = some seq := by
    intro other mem stamp memRows
    rcases List.mem_cons.mp mem with rfl | old
    · rcases List.mem_cons.mp memRows with rfl | before
      · exact ⟨rfl, held⟩
      · exact placed.stamps frame (by simp [stack]) stamp before
    · exact placed.stamps other (by simp [stack, old]) stamp memRows
  have sameHeld : heldValue
      ({ frame with
        rows := ⟨row, seq, heldValue session.stack⟩ :: frame.rows } :: below) =
      heldValue session.stack := by
    rw [stack]
    rfl
  constructor
  · exact List.forall_mem_cons.mpr (List.forall_mem_cons.mp ids)
  · intro value same
    rw [sameHeld] at same
    exact sound.held value same
  · simp only [taken]
    cases above with
    | nil =>
        -- the frame written to is the one that was bumped
        obtain ⟨rfl, rfl⟩ : frame = owner ∧ below = under := by
          simpa [stack] using placed.stack
        refine ⟨[], _, below, closed, rfl, placed.path, by simp,
          placed.closedIds, by simp, placed.belowFree, ?_, newStamps⟩
        exact Or.inl (placed.bumped.resolve_right (by simp [sane]))
    | cons head rest =>
        obtain ⟨rfl, rfl⟩ : frame = head ∧ below = rest ++ owner :: under := by
          simpa [stack] using placed.stack
        exact ⟨_ :: rest, owner, under, closed, placed.replaceTop rfl
          (fun _ => List.mem_cons_of_mem frame)
          (placed.apart frame List.mem_cons_self)
          (placed.aboveFree frame List.mem_cons_self)
          (placed.bumped.resolve_right (by simp [sane])) newStamps⟩

theorem flushFails_sound (sound : session.Sound counter nextId)
    (sane : session.broken = false) {frame : Frame} {below : List Frame}
    (stack : session.stack = frame :: below) :
    Session.Sound counter nextId
      { session with
        stack := { frame with rows := [], bump := none } :: below
        broken := true } := by
  have ids := sound.ids
  rw [stack] at ids
  have info := sound.info
  constructor
  · exact List.forall_mem_cons.mpr (List.forall_mem_cons.mp ids)
  · intro value same
    have sameBelow : heldValue below = some value := by
      simpa [heldValue] using same
    cases taken : session.info with
    | none =>
        simp only [taken, stack] at info
        have free : Unstamped below := fun other mem =>
          info other (List.mem_cons_of_mem _ mem)
        simp [free.heldValue] at sameBelow
    | some pair =>
        simp only [taken] at info
        obtain ⟨above, owner, under, closed, placed⟩ := info
        apply sound.held value
        rw [placed.heldValue sane]
        cases above with
        | nil =>
            obtain ⟨rfl, rfl⟩ : frame = owner ∧ below = under := by
              simpa [stack] using placed.stack
            simp [Unstamped.heldValue placed.belowFree] at sameBelow
        | cons head rest =>
            obtain ⟨rfl, rfl⟩ :
                frame = head ∧ below = rest ++ owner :: under := by
              simpa [stack] using placed.stack
            have free := fun other mem =>
              placed.aboveFree other (List.mem_cons_of_mem frame mem)
            have bump : owner.bump = some pair.1 :=
              placed.bumped.resolve_right (by simp [sane])
            rw [heldValue_append rest free] at sameBelow
            simpa [heldValue, bump] using sameBelow
  · revert info
    dsimp only
    cases session.info with
    | none =>
        intro unstamped other mem
        rcases List.mem_cons.mp mem with rfl | old
        · exact ⟨rfl, rfl⟩
        · exact unstamped other (by simp [stack, old])
    | some pair =>
        rintro ⟨above, owner, under, closed, placed⟩
        have newStamps : ∀ other ∈
            ({ frame with rows := [], bump := none } : Frame) :: below,
            ∀ stamp ∈ other.rows,
              stamp.seq = pair.1 ∧ stamp.held = some pair.1 := by
          intro other mem
          rcases List.mem_cons.mp mem with rfl | old
          · simp
          · exact placed.stamps other (by simp [stack, old])
        cases above with
        | nil =>
            obtain ⟨rfl, rfl⟩ : frame = owner ∧ below = under := by
              simpa [stack] using placed.stack
            exact ⟨[], _, below, closed, rfl, placed.path, by simp,
              placed.closedIds, by simp, placed.belowFree,
              Or.inr ⟨rfl, rfl, rfl, rfl⟩, newStamps⟩
        | cons head rest =>
            obtain ⟨rfl, rfl⟩ :
                frame = head ∧ below = rest ++ owner :: under := by
              simpa [stack] using placed.stack
            exact ⟨_ :: rest, owner, under, closed, placed.replaceTop rfl
              (fun _ => List.mem_cons_of_mem frame)
              (placed.apart frame List.mem_cons_self) rfl
              (placed.bumped.resolve_right (by simp [sane])) newStamps⟩

theorem release_sound (sound : session.Sound counter nextId)
    (sane : session.broken = false) {frame parent : Frame}
    {below : List Frame} (stack : session.stack = frame :: parent :: below) :
    Session.Sound counter nextId
      { session with
        stack := { parent with
          rows := frame.rows ++ parent.rows
          bump := frame.bump.or parent.bump } :: below } := by
  have ids := sound.ids
  rw [stack] at ids
  have info := sound.info
  constructor
  · intro other mem
    rcases List.mem_cons.mp mem with rfl | old
    · exact ids parent (by simp)
    · exact ids other (by simp [old])
  · intro value same
    apply sound.held value
    rw [stack]
    revert same
    cases bump : frame.bump <;> simp [heldValue, bump, List.findSome?_cons]
  · revert info
    dsimp only
    cases session.info with
    | none =>
        intro unstamped
        rw [stack] at unstamped
        intro other mem
        rcases List.mem_cons.mp mem with rfl | old
        · obtain ⟨frameBump, frameRows⟩ := unstamped frame (by simp)
          obtain ⟨parentBump, parentRows⟩ := unstamped parent (by simp)
          simp [frameBump, frameRows, parentBump, parentRows]
        · exact unstamped other (by simp [old])
    | some pair =>
        rintro ⟨above, owner, under, closed, placed⟩
        have stamps := placed.stamps
        rw [stack] at stamps
        have newStamps : ∀ other ∈
            { parent with
              rows := frame.rows ++ parent.rows
              bump := frame.bump.or parent.bump } :: below,
            ∀ stamp ∈ other.rows,
              stamp.seq = pair.1 ∧ stamp.held = some pair.1 := by
          intro other mem stamp memRows
          rcases List.mem_cons.mp mem with rfl | old
          · rcases List.mem_append.mp memRows with mine | its
            · exact stamps frame (by simp) stamp mine
            · exact stamps parent (by simp) stamp its
          · exact stamps other (by simp [old]) stamp memRows
        have bumped : owner.bump = some pair.1 :=
          placed.bumped.resolve_right (by simp [sane])
        have parts := placed.stack
        rw [stack] at parts
        match above, parts, placed with
        | [], parts, placed =>
            -- the number was taken in the savepoint that is released
            obtain ⟨rfl, rfl⟩ : frame = owner ∧ parent :: below = under := by
              simpa using parts
            refine ⟨[], _, below, closed ++ [frame.id], rfl, ?_, by simp, ?_,
              by simp, ?_, ?_, newStamps⟩
            · simpa using placed.path
            · intro id mem
              rcases List.mem_append.mp mem with old | new
              · exact placed.closedIds id old
              · obtain rfl := List.mem_singleton.mp new
                exact ids frame (by simp)
            · exact fun other mem =>
                placed.belowFree other (List.mem_cons_of_mem _ mem)
            · simp [bumped]
        | [head], parts, placed =>
            -- in the parent
            obtain ⟨rfl, rfl, rfl⟩ :
                frame = head ∧ parent = owner ∧ below = under := by
              simpa using parts
            have free := placed.aboveFree frame (by simp)
            exact ⟨[], _, below, closed, rfl, placed.path, by simp,
              placed.closedIds, by simp, placed.belowFree,
              Or.inl (by simp [free, bumped]), newStamps⟩
        | head :: second :: rest, parts, placed =>
            -- further down
            obtain ⟨rfl, rfl, rfl⟩ : frame = head ∧ parent = second ∧
                below = rest ++ owner :: under := by
              simpa using parts
            have free := placed.aboveFree frame (by simp)
            have parentFree := placed.aboveFree parent (by simp)
            have below_above : ∀ other ∈ rest, other ∈ frame :: parent :: rest := by
              intro other mem
              exact List.mem_cons_of_mem _ (List.mem_cons_of_mem _ mem)
            have merged : (frame.bump.or parent.bump) = none := by
              rw [free, parentFree]
              rfl
            exact ⟨_ :: rest, owner, under, closed, placed.replaceTop rfl
              below_above (placed.apart parent (by simp)) merged bumped newStamps⟩

/-- Where a rollback ends relative to the frame that was bumped: in or under it,
the walk finds the transaction and the number is forgotten with the bump; above
it, the walk does not, and the bump is kept. -/
theorem Placed.rollback
    (placed : Placed nextId session seq takenIn above owner below closed)
    {popped under : List Frame} {frame : Frame}
    (stack : session.stack = popped ++ frame :: under) :
    takenUnder takenIn (frame.id :: under.map Frame.id) = true ∧
        Unstamped under ∨
      takenUnder takenIn (frame.id :: under.map Frame.id) = false ∧
        ∃ rest, (∀ other ∈ rest, other ∈ above) ∧ above ≠ [] ∧
          under = rest ++ owner :: below := by
  have parts : popped ++ frame :: under = above ++ owner :: below :=
    stack.symm.trans placed.stack
  rcases List.append_eq_append_iff.mp parts with
    ⟨rest, aboveParts, frameParts⟩ | ⟨rest, poppedParts, ownerParts⟩
  · cases rest with
    | nil =>
        -- the bumped frame itself
        obtain ⟨rfl, rfl⟩ : frame = owner ∧ under = below := by
          simpa using frameParts
        refine Or.inl ⟨takenUnder_iff.mpr ⟨by simp, ?_⟩, placed.belowFree⟩
        rw [placed.path]
        exact List.suffix_append _ _
    | cons head rest =>
        -- a savepoint inside it
        obtain ⟨rfl, rfl⟩ : frame = head ∧ under = rest ++ owner :: below := by
          simpa using frameParts
        refine Or.inr ⟨?_, rest, ?_, by simp [aboveParts], rfl⟩
        · by_contra walked
          rw [Bool.not_eq_false, takenUnder_iff, placed.path, List.map_append,
            List.map_cons, ← List.cons_append,
            List.suffix_append_inj_of_length_eq rfl] at walked
          obtain ⟨-, suffix⟩ := walked
          have stored := suffix.1.subset List.mem_cons_self
          exact placed.apart frame (by simp [aboveParts]) stored
        · intro other mem
          simp [aboveParts, mem]
  · -- under it
    refine Or.inl ?_
    cases rest with
    | nil =>
        obtain ⟨rfl, rfl⟩ : owner = frame ∧ below = under := by
          simpa using ownerParts
        refine ⟨takenUnder_iff.mpr ⟨by simp, ?_⟩, placed.belowFree⟩
        rw [placed.path]
        exact List.suffix_append _ _
    | cons head rest =>
        obtain ⟨rfl, belowParts⟩ :
            owner = head ∧ below = rest ++ frame :: under := by
          simpa using ownerParts
        refine ⟨takenUnder_iff.mpr ⟨by simp, ?_⟩, ?_⟩
        · rw [placed.path, belowParts]
          refine ⟨closed ++ owner.id :: rest.map Frame.id, ?_⟩
          simp
        · exact fun other mem => placed.belowFree other (by simp [belowParts, mem])

theorem rollback_sound (sound : session.Sound counter nextId)
    {rolledBack : Nat} {under : List Frame}
    (found : framesUnder rolledBack session.stack = some under) :
    Session.Sound counter nextId
      { stack := under
        broken := false
        info :=
          if under.isEmpty || (match session.info with
            | none => true
            | some (_, takenIn) =>
                takenUnder takenIn (rolledBack :: under.map Frame.id))
          then none else session.info } := by
  obtain ⟨popped, frame, stack, rfl⟩ := framesUnder_some found
  have info := sound.info
  have ids : ∀ other ∈ under, other.id < nextId :=
    fun other mem => sound.ids other (by simp [stack, mem])
  have unstampedCase : Unstamped under → Session.Sound counter nextId
      { stack := under, broken := false, info := none } := by
    intro unstamped
    exact ⟨ids, by simp [unstamped.heldValue], unstamped⟩
  cases taken : session.info with
  | none =>
      simp only [taken, stack] at info
      simpa [taken] using unstampedCase fun other mem => info other (by simp [mem])
  | some pair =>
      obtain ⟨seq, takenIn⟩ := pair
      simp only [taken] at info
      obtain ⟨above, owner, below, closed, placed⟩ := info
      rcases placed.rollback stack with
        ⟨walked, unstamped⟩ | ⟨notWalked, rest, sub, inside, rfl⟩
      · simpa [walked] using unstampedCase unstamped
      · have bumped : owner.bump = some seq :=
          placed.bumped.resolve_right (by simp [inside])
        have kept : Placed nextId
            { stack := rest ++ owner :: below
              broken := false
              info := some (seq, takenIn) } seq takenIn rest owner below closed :=
          ⟨rfl, placed.path, fun other mem => placed.apart other (sub other mem),
            placed.closedIds, fun other mem => placed.aboveFree other (sub other mem),
            placed.belowFree, Or.inl bumped,
            fun other mem => placed.stamps other (by simp [stack, mem])⟩
        have nonempty : (rest ++ owner :: below).isEmpty = false := by simp
        simp only [nonempty, notWalked, Bool.or_self, Bool.false_eq_true, if_false]
        refine ⟨ids, ?_, rest, owner, below, closed, kept⟩
        intro value same
        apply sound.held value
        rw [kept.heldValue rfl] at same
        rw [placed.stack, heldValue_append above placed.aboveFree]
        simpa [heldValue, bumped] using same

end

/-! ### All sessions -/

structure Store.Sound (store : Store) : Prop where
  sessions : ∀ id session, store.sessions.get? id = some session →
    session.Sound store.counter store.nextId
  exclusive : ∀ {id other session otherSession},
    store.sessions.get? id = some session →
    store.sessions.get? other = some otherSession →
    heldValue session.stack ≠ none → heldValue otherSession.stack ≠ none →
    id = other
  committed : ∀ rows ∈ store.log, ∀ stamp ∈ rows,
    stamp.held = some stamp.seq ∧ stamp.seq ≤ store.counter
  together : ∀ rows ∈ store.log, ∀ one ∈ rows, ∀ other ∈ rows,
    one.seq = other.seq
  ordered : store.log.Pairwise fun later earlier =>
    ∀ one ∈ later, ∀ other ∈ earlier, other.seq < one.seq

theorem Store.sound_start (counter : Nat) : (Store.start counter).Sound := by
  constructor <;> simp [Store.start]

section

variable {store next : Store} {id : SessionId} {session : Session}

theorem Store.Sound.ofSession (sound : store.Sound) (id : SessionId) :
    (store.session id).Sound store.counter store.nextId := by
  unfold Store.session
  cases stored : store.sessions.get? id with
  | none => exact idle_sound
  | some session => exact sound.sessions id session stored

theorem heldValue_ne_none {stack : List Frame} :
    heldValue stack ≠ none ↔ ∃ frame ∈ stack, frame.bump ≠ none := by
  simp [heldValue]

/-- Nobody else holds the counter row. -/
def Store.HeldAlone (store : Store) (id : SessionId) : Prop :=
  ∀ other session, other ≠ id → store.sessions.get? other = some session →
    heldValue session.stack = none

theorem Store.Sound.heldAlone (sound : store.Sound)
    (holds : heldValue (store.session id).stack ≠ none) :
    store.HeldAlone id := by
  intro other session different stored
  by_contra alsoHolds
  unfold Store.session at holds
  cases mine : store.sessions.get? id with
  | none => simp [mine, Session.idle, heldValue] at holds
  | some own =>
      rw [mine] at holds
      exact different (sound.exclusive stored mine alsoHolds holds)

theorem heldAlone_of_unlocked (unlocked : store.lockedElsewhere id = false) :
    store.HeldAlone id := by
  intro other session different stored
  have free := List.any_eq_false.mp unlocked _ (Table.mem_rows.mpr stored)
  simpa [different] using free

/-- A step of one session that commits nothing. -/
theorem Store.Sound.setSession (sound : store.Sound) {nextId : Nat}
    (later : store.nextId ≤ nextId)
    (new : session.Sound store.counter nextId)
    (lock : heldValue session.stack ≠ none → store.HeldAlone id) :
    Store.Sound { store.setSession id session with nextId } where
  sessions := by
    intro other found stored
    simp only [Store.setSession, Table.get?_put] at stored
    split at stored
    · cases stored
      exact new
    · exact (sound.sessions other found stored).transfer (Or.inl rfl) later
  exclusive := by
    intro first second one other storedFirst storedSecond holds alsoHolds
    simp only [Store.setSession, Table.get?_put] at storedFirst storedSecond
    split at storedFirst <;> split at storedSecond
    · simp_all
    · cases storedFirst
      rename_i different
      exact absurd (lock holds second other different storedSecond) alsoHolds
    · cases storedSecond
      rename_i different _
      exact absurd (lock alsoHolds first one different storedFirst) holds
    · exact sound.exclusive storedFirst storedSecond holds alsoHolds
  committed := sound.committed
  together := sound.together
  ordered := sound.ordered

/-- The same for a step that takes no lock. -/
theorem Store.Sound.setSession_of_held (sound : store.Sound) {nextId : Nat}
    (later : store.nextId ≤ nextId)
    (new : session.Sound store.counter nextId)
    (sub : heldValue session.stack ≠ none →
      heldValue (store.session id).stack ≠ none) :
    Store.Sound { store.setSession id session with nextId } :=
  sound.setSession later new fun holds => sound.heldAlone (sub holds)

theorem commitStep_sound (sound : store.Sound)
    (sane : (store.session id).broken = false) :
    (commitStep store id (store.session id)).Sound ∧
      store.counter ≤ (commitStep store id (store.session id)).counter ∧
      ∀ stamp ∈ (store.session id).stack.flatMap Frame.rows,
        stamp.seq = store.counter + 1 := by
  have mine := sound.ofSession id
  have info := mine.info
  cases taken : (store.session id).info with
  | none =>
      simp only [taken] at info
      have same : commitStep store id (store.session id) =
          { store.setSession id .idle with log := [] :: store.log } := by
        simp [commitStep, info.heldValue, info.rows]
      rw [same]
      have base : (store.setSession id .idle).Sound :=
        sound.setSession_of_held (Nat.le_refl _) idle_sound
          (by simp [Session.idle, heldValue])
      refine ⟨?_, Nat.le_refl _, by simp [info.rows]⟩
      exact ⟨base.sessions, base.exclusive, by simpa using sound.committed,
        by simpa using sound.together, by simpa using sound.ordered⟩
  | some pair =>
      simp only [taken] at info
      obtain ⟨above, owner, below, closed, placed⟩ := info
      have held := placed.heldValue sane
      have isNext := mine.held _ held
      have alone : store.HeldAlone id := sound.heldAlone (by simp [held])
      have stamps : ∀ stamp ∈ (store.session id).stack.flatMap Frame.rows,
          stamp.seq = pair.1 ∧ stamp.held = some pair.1 := by
        intro stamp mem
        obtain ⟨frame, memFrame, memRows⟩ := List.mem_flatMap.mp mem
        exact placed.stamps frame memFrame stamp memRows
      have counter : (commitStep store id (store.session id)).counter =
          pair.1 := by
        simp [commitStep, held]
      refine ⟨?_, by omega, fun stamp mem => (stamps stamp mem).1.trans isNext⟩
      constructor
      · intro other found stored
        rw [counter]
        simp only [commitStep, Store.setSession, Table.get?_put] at stored
        split at stored
        · cases stored
          exact idle_sound
        · rename_i different
          exact (sound.sessions other found stored).transfer
            (Or.inr (alone other found different stored)) (Nat.le_refl _)
      · intro first second one other storedFirst storedSecond holds alsoHolds
        simp only [commitStep, Store.setSession, Table.get?_put]
          at storedFirst storedSecond
        split at storedFirst
        · cases storedFirst
          simp [Session.idle, heldValue] at holds
        · split at storedSecond
          · cases storedSecond
            simp [Session.idle, heldValue] at alsoHolds
          · exact sound.exclusive storedFirst storedSecond holds alsoHolds
      · intro rows mem stamp memRows
        rw [counter]
        rcases List.mem_cons.mp mem with rfl | old
        · obtain ⟨seq, heldThen⟩ := stamps stamp memRows
          exact ⟨seq ▸ heldThen, Nat.le_of_eq seq⟩
        · obtain ⟨heldThen, before⟩ := sound.committed rows old stamp memRows
          exact ⟨heldThen, by omega⟩
      · intro rows mem one memOne other memOther
        rcases List.mem_cons.mp mem with rfl | old
        · rw [(stamps one memOne).1, (stamps other memOther).1]
        · exact sound.together rows old one memOne other memOther
      · refine List.pairwise_cons.mpr ⟨?_, sound.ordered⟩
        intro rows old one memOne other memOther
        have before := (sound.committed rows old other memOther).2
        have seq := (stamps one memOne).1
        omega

/-- One step of any session: either nothing is committed, or a transaction with
the next number. -/
theorem seqStep_sound {action : SessionAction} (sound : store.Sound)
    (taken : seqStep store action = some next) :
    next.Sound ∧ store.counter ≤ next.counter ∧
      (next.log = store.log ∨ ∃ rows, next.log = rows :: store.log ∧
        ∀ stamp ∈ rows, stamp.seq = store.counter + 1) := by
  cases action with
  | begin id =>
      simp only [seqStep] at taken
      split at taken
      · rename_i empty
        cases taken
        refine ⟨?_, Nat.le_refl _, Or.inl rfl⟩
        exact sound.setSession_of_held (Nat.le_succ _)
          (open_sound (sound.ofSession id) (Or.inr empty))
          (by simp [heldValue])
      · cases taken
  | savepoint id =>
      simp only [seqStep] at taken
      split at taken
      · cases taken
      · rename_i sane
        cases taken
        refine ⟨?_, Nat.le_refl _, Or.inl rfl⟩
        exact sound.setSession_of_held (Nat.le_succ _)
          (open_sound (sound.ofSession id)
            (Or.inl (by simpa using (not_or.mp sane).2)))
          (by simp [heldValue])
  | takeSeq id =>
      simp only [seqStep] at taken
      split at taken
      · cases taken
      · unfold takeSeqStep at taken
        split at taken
        · cases taken
          exact ⟨sound, Nat.le_refl _, Or.inl rfl⟩
        · cases taken
        · rename_i frame below fresh stack
          split at taken
          · cases taken
          · rename_i unlocked
            cases taken
            refine ⟨?_, Nat.le_refl _, Or.inl rfl⟩
            exact sound.setSession (Nat.le_refl _)
              (take_sound (sound.ofSession id) fresh stack)
              fun _ => heldAlone_of_unlocked (by simpa using unlocked)
  | stamp id row =>
      simp only [seqStep] at taken
      split at taken
      · cases taken
      · rename_i sane
        unfold stampStep at taken
        split at taken
        · rename_i seq takenIn frame below info stack
          cases taken
          refine ⟨?_, Nat.le_refl _, Or.inl rfl⟩
          apply sound.setSession_of_held (Nat.le_refl _)
            (stamp_sound (sound.ofSession id) (by simpa using sane) info stack row)
          rw [stack]
          exact fun holds => holds
        · cases taken
  | flushFails id =>
      simp only [seqStep] at taken
      split at taken
      · cases taken
      · rename_i sane
        unfold flushFailsStep at taken
        split at taken
        · cases taken
        · rename_i frame below stack
          cases taken
          refine ⟨?_, Nat.le_refl _, Or.inl rfl⟩
          apply sound.setSession_of_held (Nat.le_refl _)
            (flushFails_sound (sound.ofSession id) (by simpa using sane) stack)
          rw [stack, heldValue_ne_none, heldValue_ne_none]
          rintro ⟨other, mem, bump⟩
          rcases List.mem_cons.mp mem with rfl | old
          · exact absurd rfl bump
          · exact ⟨other, List.mem_cons_of_mem _ old, bump⟩
  | release id =>
      simp only [seqStep] at taken
      split at taken
      · cases taken
      · rename_i sane
        unfold releaseStep at taken
        split at taken
        · rename_i frame parent below stack
          cases taken
          refine ⟨?_, Nat.le_refl _, Or.inl rfl⟩
          apply sound.setSession_of_held (Nat.le_refl _)
            (release_sound (sound.ofSession id) (by simpa using sane) stack)
          rw [stack, heldValue_ne_none, heldValue_ne_none]
          rintro ⟨other, mem, bump⟩
          rcases List.mem_cons.mp mem with rfl | old
          · cases mine : frame.bump with
            | none => exact ⟨parent, by simp, by simpa [mine] using bump⟩
            | some value => exact ⟨frame, by simp, by simp [mine]⟩
          · exact ⟨other, by simp [old], bump⟩
        · cases taken
  | rollback id rolledBack =>
      simp only [seqStep, rollbackStep] at taken
      split at taken
      · cases taken
      · rename_i under found
        cases taken
        refine ⟨?_, Nat.le_refl _, Or.inl rfl⟩
        apply sound.setSession_of_held (Nat.le_refl _)
          (rollback_sound (sound.ofSession id) found)
        obtain ⟨popped, frame, stack, -⟩ := framesUnder_some found
        rw [stack, heldValue_ne_none, heldValue_ne_none]
        rintro ⟨other, mem, bump⟩
        exact ⟨other, by simp [mem], bump⟩
  | commit id =>
      simp only [seqStep] at taken
      split at taken
      · cases taken
      · rename_i sane
        cases taken
        obtain ⟨committed, grows, stamps⟩ :=
          commitStep_sound sound (by simpa using (not_or.mp sane).2)
        exact ⟨committed, grows, Or.inr ⟨_, rfl, stamps⟩⟩

end

/-- What a later state is to an earlier one. -/
structure Store.Follows (store after : Store) : Prop where
  sound : after.Sound
  counter : store.counter ≤ after.counter
  commits : ∃ new, after.log = new ++ store.log ∧
    ∀ rows ∈ new, ∀ stamp ∈ rows, store.counter < stamp.seq

theorem Store.Follows.step {store after next : Store} {action : SessionAction}
    (follows : store.Follows after)
    (taken : seqStep after action = some next) : store.Follows next := by
  obtain ⟨new, log, past⟩ := follows.commits
  have counted := follows.counter
  obtain ⟨nextSound, grows, same | ⟨rows, logged, stamps⟩⟩ :=
    seqStep_sound follows.sound taken
  · exact ⟨nextSound, Nat.le_trans counted grows, new, same.trans log, past⟩
  · refine ⟨nextSound, Nat.le_trans counted grows, rows :: new, ?_, ?_⟩
    · rw [logged, log, List.cons_append]
    · intro other mem stamp memStamp
      rcases List.mem_cons.mp mem with rfl | old
      · have seq := stamps stamp memStamp
        omega
      · exact past other old stamp memStamp

/-- Every committed row was numbered under the lock of its number, the commits
that number rows carry distinct numbers in their order, and whatever is
committed after the counter was read is numbered past it. -/
theorem change_numbers_follow_commit_order {counter : Nat}
    {actions : List SessionAction} {store : Store}
    (reached : run seqStep (Store.start counter) actions = some store) :
    (∀ rows ∈ store.log, ∀ stamp ∈ rows, stamp.held = some stamp.seq) ∧
    (∀ rows ∈ store.log, ∀ one ∈ rows, ∀ other ∈ rows, one.seq = other.seq) ∧
    (store.log.Pairwise fun later earlier =>
      ∀ one ∈ later, ∀ other ∈ earlier, other.seq < one.seq) ∧
    ∀ later after, run seqStep store later = some after →
      ∃ new, after.log = new ++ store.log ∧
        ∀ rows ∈ new, ∀ stamp ∈ rows, store.counter < stamp.seq := by
  have sound : store.Sound :=
    run_invariant_of_step (fun sound taken => (seqStep_sound sound taken).1)
      (Store.sound_start counter) reached
  refine ⟨fun rows mem stamp memRows =>
      (sound.committed rows mem stamp memRows).1,
    sound.together, sound.ordered, ?_⟩
  intro later after continued
  have follows : store.Follows after :=
    run_invariant_of_step Store.Follows.step
      ⟨sound, Nat.le_refl _, [], rfl, by simp⟩ continued
  exact follows.commits

/-- A send whose insert fails takes its number back: the row stamped after the
rollback of the savepoint has a number taken under the lock again. -/
theorem change_numbers_after_failed_send :
    ∃ store : Store,
      store.log = [[⟨8, 6, some 6⟩], [⟨9, 5, some 5⟩]] ∧
      ∀ rows ∈ store.log, ∀ stamp ∈ rows, stamp.held = some stamp.seq := by
  obtain ⟨store, reached, log⟩ : ∃ store : Store,
      run seqStep (Store.start 4)
        [.begin 1, .savepoint 1, .takeSeq 1, .stamp 1 7, .flushFails 1,
          .begin 2, .takeSeq 2, .stamp 2 9, .commit 2, .rollback 1 1,
          .takeSeq 1, .stamp 1 8, .commit 1] = some store ∧
        store.log = [[⟨8, 6, some 6⟩], [⟨9, 5, some 5⟩]] := by
    refine ⟨_, rfl, ?_⟩
    decide +kernel
  exact ⟨store, log, (change_numbers_follow_commit_order reached).1⟩

end Brook.Seq
