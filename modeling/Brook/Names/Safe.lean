import Brook.Names.Clean

namespace Brook.Names

/-! Every name that `safe_filename` gives is safe, and stays what it is. -/

variable {name front back : Name}

/-! ### Bytes -/

theorem utf8EncodeChar_ascii {c : Char} (ascii : c.toNat < 128) :
    String.utf8EncodeChar c = [c.val.toUInt8] := by
  have small : c.toNat ≤ 127 := Nat.le_of_lt_succ ascii
  simp only [String.utf8EncodeChar, Char.toNat_val, small, ↓reduceIte]
  rfl

theorem encode_ascii (ascii : Ascii name) :
    encode name = name.map fun c => c.val.toUInt8 := by
  induction name with
  | nil => rfl
  | cons c rest ih =>
      rw [encode, List.flatMap_cons,
        utf8EncodeChar_ascii (ascii c List.mem_cons_self)]
      have later := ih fun d mem => ascii d (List.mem_cons_of_mem _ mem)
      rw [encode] at later
      rw [later]
      rfl

theorem length_encode (ascii : Ascii name) :
    (encode name).length = name.length := by
  rw [encode_ascii ascii, List.length_map]

theorem decode_take_encode (ascii : Ascii name) (room : Nat) :
    decodeAscii ((encode name).take room) = name.take room := by
  rw [encode_ascii ascii, ← List.map_take, decodeAscii]
  have byte : ∀ c ∈ name.take room, c.val.toUInt8.toNat = c.toNat := by
    intro c mem
    have := ascii c (List.mem_of_mem_take mem)
    simp only [UInt32.toNat_toUInt8]
    exact Nat.mod_eq_of_lt (by change c.toNat < _; omega)
  rw [List.filter_eq_self.mpr]
  · rw [List.map_map]
    conv_rhs => rw [← List.map_id (name.take room)]
    apply List.map_congr_left
    intro c mem
    simp only [Function.comp_apply, id_eq, byte c mem, Char.ofNat_toNat]
  · intro code mem
    obtain ⟨c, inside, rfl⟩ := List.mem_map.mp mem
    rw [byte c inside]
    exact decide_eq_true (ascii c (List.mem_of_mem_take inside))

/-! ### The edges -/

def Trimmed (name : Name) : Prop :=
  (∀ c ∈ name.head?, c ≠ ' ' ∧ c ≠ '.') ∧
    ∀ c ∈ name.getLast?, c ≠ ' ' ∧ c ≠ '.'

theorem isEdge_eq_false {c : Char} :
    isEdge c = false ↔ c ≠ ' ' ∧ c ≠ '.' := by
  simp [isEdge]

theorem strip_infix (chars : Char → Bool) (name : Name) :
    strip chars name <:+: name :=
  (List.rdropWhile_prefix _ _).isInfix.trans
    (List.dropWhile_suffix _).isInfix

theorem last_rdropWhile {c : Char}
    (last : (name.rdropWhile isEdge).getLast? = some c) :
    c ≠ ' ' ∧ c ≠ '.' := by
  rw [← isEdge_eq_false, ← Bool.not_eq_true]
  rw [List.getLast?_eq_some_getLast (by rintro empty; simp [empty] at last),
    Option.some.injEq] at last
  rw [← last]
  exact List.rdropWhile_last_not _ _ _

theorem head?_of_prefix {c : Char} (part : front <+: name)
    (head : front.head? = some c) : name.head? = some c := by
  obtain ⟨rest, rfl⟩ := part
  rw [List.head?_append, head]
  rfl

theorem trimmed_strip (name : Name) : Trimmed (strip isEdge name) := by
  constructor
  · intro c head
    have first : (name.dropWhile isEdge).head? = some c :=
      head?_of_prefix (List.rdropWhile_prefix _ _) head
    have stays := List.head?_dropWhile_not isEdge name
    rw [first] at stays
    exact isEdge_eq_false.mp (by simpa using stays)
  · intro c last
    exact last_rdropWhile last

theorem strip_eq_self (chars : Char → Bool)
    (first : ∀ c ∈ name.head?, chars c = false)
    (last : ∀ c ∈ name.getLast?, chars c = false) :
    strip chars name = name := by
  have start : name.dropWhile chars = name := by
    cases name with
    | nil => rfl
    | cons c rest =>
        rw [List.dropWhile_cons, if_neg]
        simp [first c rfl]
  rw [strip, start]
  apply List.rdropWhile_eq_self_iff.mpr
  intro nonempty
  rw [last _ (List.getLast?_eq_some_getLast nonempty)]
  simp

/-! ### Device names -/

theorem deviceNames_spec {device : Name} (mem : device ∈ deviceNames) :
    (device.length = 3 ∨ device.length = 4) ∧
      (∀ c ∈ device, c.isAlphanum = true) ∧
      ∀ c ∈ device.head?, c ∈ ['c', 'p', 'a', 'n', 'l'] := by
  have all : deviceNames.all (fun device => decide (device.length = 3 ∨ device.length = 4) &&
      device.all Char.isAlphanum &&
      device.head?.all (['c', 'p', 'a', 'n', 'l'].contains ·)) = true := by decide
  have spec := List.all_eq_true.mp all device mem
  simp only [Bool.and_eq_true, decide_eq_true_eq, List.all_eq_true, Option.all_eq_true,
    List.contains_iff_mem] at spec
  exact ⟨spec.1.1, spec.1.2, spec.2⟩

theorem toLower_cases (c : Char) :
    c.toLower = c ∨ c.toNat ≤ 90 ∧ c.toLower.toNat = c.toNat + 32 ∧
      65 ≤ c.toNat := by
  unfold Char.toLower
  split
  case isTrue letter =>
    right
    have low : 65 ≤ c.val.toNat := UInt32.le_iff_toNat_le.mp letter.1
    have high : c.val.toNat ≤ 90 := UInt32.le_iff_toNat_le.mp letter.2
    have gap : ('a'.val - 'A'.val).toNat = 32 := rfl
    refine ⟨high, ?_, low⟩
    change (c.val + ('a'.val - 'A'.val)).toNat = c.val.toNat + 32
    rw [UInt32.toNat_add, gap]
    omega
  case isFalse => exact Or.inl rfl

/-- Lowering a character gives one that is no small letter only if it was that
character before. -/
theorem toLower_eq {c d : Char} (other : d.toNat < 97) (same : c.toLower = d) :
    c = d := by
  rcases toLower_cases c with kept | ⟨-, raised, low⟩
  · exact kept ▸ same
  · rw [same] at raised
    omega

theorem isSpace_toLower {c : Char} (ascii : c.toNat < 128)
    (other : isSpace c = false) : isSpace c.toLower = false := by
  rcases toLower_cases c with kept | ⟨high, raised, low⟩
  · rw [kept]
    exact other
  · simp only [isSpace, raised, Bool.or_eq_false_iff, Bool.and_eq_false_iff,
      decide_eq_false_iff_not]
    omega

def lower (name : Name) : Name := name.map Char.toLower

/-- What may follow a device name. -/
theorem deviceTail_iff (clean : Clean name) :
    deviceTail (lower name) = true ↔
      ∃ spaces rest, lower name = List.replicate spaces ' ' ++ rest ∧
        (rest = [] ∨ rest.head? = some '.') := by
  induction name with
  | nil => exact ⟨fun _ => ⟨0, [], rfl, Or.inl rfl⟩, fun _ => rfl⟩
  | cons c rest ih =>
      have clean_rest := clean.of_infix (List.suffix_cons c rest).isInfix
      by_cases blank : c = ' '
      · subst blank
        have onward : deviceTail (lower (' ' :: rest)) =
            deviceTail (lower rest) := rfl
        rw [onward, ih clean_rest]
        constructor
        · rintro ⟨spaces, more, split, tail⟩
          refine ⟨spaces + 1, more, ?_, tail⟩
          rw [List.replicate_succ, List.cons_append, ← split]
          rfl
        · rintro ⟨spaces, more, split, tail⟩
          cases spaces with
          | zero =>
              rw [List.replicate_zero, List.nil_append] at split
              rw [← split] at tail
              rcases tail with empty | dot
              · cases empty
              · cases dot
          | succ spaces =>
              rw [List.replicate_succ, List.cons_append] at split
              exact ⟨spaces, more, (List.cons.inj split).2, tail⟩
      · have other : isSpace c.toLower = false := by
          apply isSpace_toLower (clean.ascii c List.mem_cons_self)
          rw [← Bool.not_eq_true, clean.isSpace_iff List.mem_cons_self]
          exact blank
        have noNewline : (lower rest).dropLast.contains '\n' = false := by
          rw [← Bool.not_eq_true, List.contains_iff_mem]
          intro mem
          obtain ⟨d, inside, newline⟩ :=
            List.mem_map.mp (List.dropLast_subset _ mem)
          have plain := clean_rest.control d inside
          rw [toLower_eq (by decide) newline] at plain
          cases plain
        have run : (lower (c :: rest)).dropWhile isSpace =
            c.toLower :: lower rest := by
          rw [lower, List.map_cons, List.dropWhile_cons,
            if_neg (by simp [other])]
          rfl
        have stops : deviceTail (lower (c :: rest)) =
            decide (c.toLower = '.') := by
          rw [deviceTail, run]
          simp only [noNewline]
          simp
        rw [stops, decide_eq_true_eq]
        constructor
        · intro dot
          refine ⟨0, lower (c :: rest), rfl, Or.inr ?_⟩
          rw [← dot]
          rfl
        · rintro ⟨spaces, more, split, tail⟩
          cases spaces with
          | zero =>
              rw [List.replicate_zero, List.nil_append] at split
              rw [← split] at tail
              rcases tail with empty | dot
              · cases empty
              · exact Option.some.inj dot
          | succ spaces =>
              rw [List.replicate_succ, List.cons_append] at split
              exact absurd (toLower_eq (by decide) (List.cons.inj split).1) blank

theorem isDevice_iff (clean : Clean name) :
    isDevice name = true ↔ DeviceName name := by
  have tails : ∀ device : Name, deviceTail ((lower name).drop device.length) =
      true ↔ ∃ spaces rest, (lower name).drop device.length =
        List.replicate spaces ' ' ++ rest ∧
          (rest = [] ∨ rest.head? = some '.') := by
    intro device
    rw [lower, ← List.map_drop]
    exact deviceTail_iff
      (clean.of_infix (List.drop_suffix device.length name).isInfix)
  simp only [isDevice, List.any_eq_true, Bool.and_eq_true,
    List.isPrefixOf_iff_prefix]
  constructor
  · rintro ⟨device, mem, ⟨after, begins⟩, tail⟩
    obtain ⟨spaces, rest, split, ends⟩ := (tails device).mp tail
    refine ⟨device, mem, spaces, rest, ?_, ends⟩
    rw [← begins, List.append_assoc, List.append_cancel_left_eq, ← split, lower,
      ← begins, List.drop_left]
  · rintro ⟨device, mem, spaces, rest, split, ends⟩
    rw [List.append_assoc] at split
    refine ⟨device, mem, ⟨_, split.symm⟩, (tails device).mpr ?_⟩
    exact ⟨spaces, rest, by rw [lower, split, List.drop_left], ends⟩

/-- Nothing that begins with another character is a device name. -/
theorem not_deviceName_of_head {c : Char}
    (other : c.toLower ∉ ['c', 'p', 'a', 'n', 'l']) :
    ¬ DeviceName (c :: name) := by
  rintro ⟨device, mem, spaces, rest, split, -⟩
  obtain ⟨length, -, first⟩ := deviceNames_spec mem
  cases device with
  | nil => simp at length
  | cons d device =>
      rw [List.map_cons, List.append_assoc, List.cons_append] at split
      rw [(List.cons.inj split).1] at other
      exact other (first d rfl)

/-! ### The cap -/

theorem dotted_length (ext : List Name) (few : ext.length ≤ 3)
    (short : ∀ part ∈ ext, part.length ≤ 8) : (dotted ext).length ≤ 27 := by
  have bound : ∀ parts : List Name, (∀ part ∈ parts, part.length ≤ 8) →
      (dotted parts).length ≤ 9 * parts.length := by
    intro parts each
    induction parts with
    | nil => exact Nat.le_refl _
    | cons part rest ih =>
        have := ih fun other mem => each other (List.mem_cons_of_mem _ mem)
        have := each part List.mem_cons_self
        simp only [dotted, List.flatMap_cons, List.length_append,
          List.length_cons] at *
        omega
  have := bound ext short
  omega

theorem intercalate_concat (parts : List Name) (last : Name)
    (some_part : parts ≠ []) :
    ['.'].intercalate (parts ++ [last]) =
      ['.'].intercalate parts ++ '.' :: last := by
  induction parts with
  | nil => exact absurd rfl some_part
  | cons part rest ih =>
      cases rest with
      | nil => simp [List.intercalate_cons_cons]
      | cons next rest =>
          have later := ih (by simp)
          rw [List.cons_append, List.cons_append] at *
          rw [List.intercalate_cons_cons, later, List.intercalate_cons_cons]
          simp

/-- The loop moves parts over, and only short ones. -/
theorem popParts_spec (parts ext : List Name) (few : ext.length ≤ 3)
    (short : ∀ part ∈ ext, isShort part = true) :
    let popped := popParts parts ext
    ['.'].intercalate popped.1.reverse ++ dotted popped.2 =
        ['.'].intercalate parts.reverse ++ dotted ext ∧
      popped.2.length ≤ 3 ∧ ∀ part ∈ popped.2, isShort part = true := by
  fun_induction popParts parts ext with
  | case1 last before rest ext room ih =>
      obtain ⟨same, bounded, each⟩ := ih (by simp only [List.length_cons]; omega)
        (by
          intro part mem
          rcases List.mem_cons.mp mem with rfl | old
          · exact room.2
          · exact short part old)
      refine ⟨?_, bounded, each⟩
      have joined : ['.'].intercalate (last :: before :: rest).reverse =
          ['.'].intercalate (before :: rest).reverse ++ '.' :: last := by
        rw [List.reverse_cons]
        exact intercalate_concat _ _ (by simp)
      rw [same, joined]
      simp [dotted]
  | case2 => exact ⟨rfl, few, short⟩
  | case3 => exact ⟨rfl, few, short⟩

theorem isShort_spec {part : Name} (short : isShort part = true) :
    part ≠ [] ∧ part.length ≤ 8 ∧ ∀ c ∈ part, c.isAlphanum = true := by
  simp only [isShort, Bool.and_eq_true, decide_eq_true_eq,
    List.all_eq_true] at short
  obtain ⟨⟨some_char, few⟩, each⟩ := short
  exact ⟨List.ne_nil_of_length_pos some_char, few, each⟩

theorem head?_dotted {ext : List Name} {c : Char}
    (head : (dotted ext).head? = some c) : c = '.' := by
  cases ext with
  | nil => cases head
  | cons part rest => exact (Option.some.inj head).symm

theorem getLast?_dotted {ext : List Name}
    (short : ∀ part ∈ ext, isShort part = true) {c : Char}
    (last : (dotted ext).getLast? = some c) : c ≠ ' ' ∧ c ≠ '.' := by
  induction ext with
  | nil => cases last
  | cons part rest ih =>
      obtain ⟨some_char, -, each⟩ := isShort_spec (short part List.mem_cons_self)
      have ih := ih fun other mem => short other (List.mem_cons_of_mem _ mem)
      rw [dotted, List.flatMap_cons, List.getLast?_append] at last
      cases later : (dotted rest).getLast? with
      | some d =>
          rw [dotted] at later
          rw [later, Option.some_or, Option.some.injEq] at last
          subst last
          exact ih later
      | none =>
          rw [dotted] at later
          rw [later, Option.none_or, List.getLast?_cons_of_ne_nil some_char] at last
          have alphanum := each c (List.mem_of_getLast? last)
          exact ⟨alphanum_ne alphanum rfl, alphanum_ne alphanum rfl⟩

theorem rdropWhile_append_rtakeWhile (name : Name) :
    name.rdropWhile isEdge ++ name.rtakeWhile isEdge = name := by
  rw [List.rdropWhile, List.rtakeWhile, ← List.reverse_append,
    List.takeWhile_append_dropWhile, List.reverse_reverse]

/-- What `_cap` keeps of a long name: the stem gives way, never its first
character. -/
structure Shortens (stem suffix kept : Name) : Prop where
  part : kept <+: stem
  some_char : kept ≠ []
  ends : ∀ c ∈ kept.getLast?, c ≠ ' ' ∧ c ≠ '.'
  fits : kept.length + suffix.length ≤ maxBytes
  /-- Behind what is kept, edges were cut off, or nothing that is short. -/
  cut : ∃ trail rest, stem = kept ++ trail ++ rest ∧
    (∀ c ∈ trail, isEdge c = true) ∧ 228 ≤ kept.length + trail.length

theorem shortens {stem suffix : Name} (first : ∀ c ∈ (stem ++ suffix).head?,
      c ≠ ' ' ∧ c ≠ '.')
    (long : maxBytes < (stem ++ suffix).length) (few : suffix.length ≤ 27) :
    Shortens stem suffix
      ((stem.take (maxBytes - suffix.length)).rdropWhile isEdge) := by
  have limit : maxBytes = 255 := rfl
  rw [List.length_append] at long
  have taken : (stem.take (maxBytes - suffix.length)).length =
      maxBytes - suffix.length := by
    rw [List.length_take]
    omega
  have part := List.rdropWhile_prefix isEdge
    (stem.take (maxBytes - suffix.length))
  have split := rdropWhile_append_rtakeWhile
    (stem.take (maxBytes - suffix.length))
  refine ⟨part.trans (List.take_prefix _ _), ?_, ?_, ?_, ?_⟩
  · intro empty
    rw [List.rdropWhile_eq_nil_iff] at empty
    cases stem with
    | nil =>
        simp only [List.length_nil] at long
        omega
    | cons c rest =>
        have edge := empty c (by
          cases room : maxBytes - suffix.length with
          | zero => omega
          | succ room => exact List.mem_cons_self)
        have := isEdge_eq_false.mpr (first c rfl)
        rw [edge] at this
        cases this
  · intro c last
    exact last_rdropWhile last
  · have := part.length_le
    omega
  · refine ⟨(stem.take (maxBytes - suffix.length)).rtakeWhile isEdge,
      stem.drop (maxBytes - suffix.length), ?_, ?_, ?_⟩
    · rw [split, List.take_append_drop]
    · intro c mem
      exact List.mem_rtakeWhile_imp mem
    · have := congrArg List.length split
      rw [List.length_append, taken] at this
      omega

/-- A shortened name is no device name where the whole was none. -/
theorem Shortens.not_deviceName {stem suffix kept : Name}
    (shorter : Shortens stem suffix kept) (clean : Clean stem)
    (begins : ∀ c ∈ suffix.head?, c = '.')
    (free : ¬ DeviceName (stem ++ suffix)) : ¬ DeviceName (kept ++ suffix) := by
  obtain ⟨trail, rest, split, edges, long⟩ := shorter.cut
  rintro ⟨device, mem, spaces, tail, named, ends⟩
  obtain ⟨size, alphanum, -⟩ := deviceNames_spec mem
  -- With the name, its spaces and a dot all within what is kept, the whole
  -- name was a device name already.
  have whole : ∀ more, lower kept = device ++ List.replicate spaces ' ' ++ more →
      more.head? ≠ some '.' := by
    intro more inside dot
    refine free ⟨device, mem, spaces, more ++ lower (trail ++ rest ++ suffix), ?_, ?_⟩
    · rw [split, List.append_assoc, List.append_assoc, List.map_append]
      rw [show kept.map Char.toLower = lower kept from rfl, inside]
      simp [lower]
    · right
      rw [List.head?_append, dot]
      rfl
  -- So exactly the name and its spaces are kept.
  have exactly : lower kept = device ++ List.replicate spaces ' ' := by
    rw [List.map_append] at named
    rcases List.append_eq_append_iff.mp named with
      ⟨beyond, more, follows⟩ | ⟨inside, more, follows⟩
    · cases beyond with
      | nil => simpa [lower] using more.symm
      | cons c beyond =>
          exfalso
          cases suffix with
          | nil => cases follows
          | cons first suffix =>
              have dot : first = '.' := begins first rfl
              have same : c = '.' := by
                have := (List.cons.inj follows).1
                rw [dot] at this
                exact this.symm
              have within : c ∈ device ++ List.replicate spaces ' ' := by
                rw [more]
                exact List.mem_append_right _ List.mem_cons_self
              rcases List.mem_append.mp within with letter | blank
              · exact alphanum_ne (alphanum c letter) rfl same
              · rw [List.eq_of_mem_replicate blank] at same
                cases same
    · cases inside with
      | nil => simpa [lower] using more
      | cons c inside =>
          exfalso
          apply whole (c :: inside) more
          rcases ends with empty | dot
          · rw [empty] at follows
            cases follows
          · rw [follows] at dot
            exact dot
  have none_left : spaces = 0 := by
    cases spaces with
    | zero => rfl
    | succ spaces =>
        exfalso
        have last : (lower kept).getLast? = some ' ' := by
          rw [exactly, List.replicate_succ', ← List.append_assoc,
            List.getLast?_concat]
        rw [lower, List.getLast?_map, Option.map_eq_some_iff] at last
        obtain ⟨c, ending, blank⟩ := last
        exact (shorter.ends c ending).1 (toLower_eq (by decide) blank)
  subst none_left
  rw [List.replicate_zero, List.append_nil] at exactly
  have length : kept.length = device.length := by
    rw [← exactly, lower, List.length_map]
  -- What was cut off behind it begins with a dot, or with one space and a dot.
  cases trail with
  | nil =>
      simp only [List.length_nil] at long
      omega
  | cons c trail =>
      cases trail with
      | nil =>
          simp only [List.length_cons, List.length_nil] at long
          omega
      | cons d trail =>
          have edge_c := edges c List.mem_cons_self
          have edge_d := edges d (List.mem_cons_of_mem _ List.mem_cons_self)
          have pair : ¬ (c = ' ' ∧ d = ' ') := by
            have part : [c, d] <:+: stem := by
              refine ⟨kept, trail ++ rest, ?_⟩
              rw [split]
              simp
            have chain := clean.single.infix part
            exact (List.isChain_cons_cons.mp chain).1
          simp only [isEdge, Bool.or_eq_true, decide_eq_true_eq] at edge_c edge_d
          apply free
          rw [split]
          rcases edge_c with space | dot
          · have dot : d = '.' := edge_d.resolve_left fun other =>
              pair ⟨space, other⟩
            refine ⟨device, mem, 1, '.' :: lower (trail ++ rest ++ suffix), ?_,
              Or.inr rfl⟩
            rw [space, dot, ← exactly]
            simp [lower]
          · refine ⟨device, mem, 0, '.' :: lower (d :: trail ++ rest ++ suffix),
              ?_, Or.inr rfl⟩
            rw [dot, ← exactly]
            simp [lower]

/-- What `_cap` is given and what it gives. -/
structure Ready (name : Name) : Prop where
  clean : Clean name
  trimmed : Trimmed name
  some_char : name ≠ []
  device : ¬ DeviceName name

theorem cap_spec (ready : Ready name) :
    Ready (cap name) ∧ (cap name).length ≤ maxBytes := by
  unfold cap
  split
  case isTrue fits =>
    rw [length_encode ready.clean.ascii] at fits
    exact ⟨ready, fits⟩
  case isFalse long =>
    rw [length_encode ready.clean.ascii, Nat.not_le] at long
    obtain ⟨joined, few, short⟩ := popParts_spec (name.splitOn '.').reverse []
      (Nat.zero_le _) (by simp)
    dsimp only
    have no_ext : dotted [] = [] := rfl
    rw [List.reverse_reverse, List.intercalate_splitOn, no_ext,
      List.append_nil] at joined
    revert joined few short
    generalize ['.'].intercalate
      (popParts (name.splitOn '.').reverse []).1.reverse = stem
    generalize (popParts (name.splitOn '.').reverse []).2 = ext
    intro joined few short
    subst joined
    have clean_stem := ready.clean.of_infix (List.prefix_append stem _).isInfix
    have clean_suffix :=
      ready.clean.of_infix (List.suffix_append stem (dotted ext)).isInfix
    have small := dotted_length ext few fun part mem =>
      (isShort_spec (short part mem)).2.1
    rw [length_encode clean_suffix.ascii, decode_take_encode clean_stem.ascii]
    have shorter := shortens ready.trimmed.1 long small
    rw [if_neg shorter.some_char]
    generalize (stem.take (maxBytes - (dotted ext).length)).rdropWhile isEdge =
      kept at shorter ⊢
    refine ⟨⟨?_, ⟨?_, ?_⟩, ?_, ?_⟩, ?_⟩
    · apply (clean_stem.of_infix shorter.part.isInfix).append clean_suffix
      intro c head
      rw [head?_dotted head]
      decide
    · intro c head
      rw [List.head?_append_of_ne_nil _ shorter.some_char] at head
      apply ready.trimmed.1 c
      exact head?_of_prefix (shorter.part.trans (List.prefix_append _ _)) head
    · intro c last
      rw [List.getLast?_append] at last
      cases tail : (dotted ext).getLast? with
      | none =>
          rw [tail, Option.none_or] at last
          exact shorter.ends c last
      | some d =>
          rw [tail, Option.some_or] at last
          cases last
          exact getLast?_dotted short tail
    · simp [shorter.some_char]
    · exact shorter.not_deviceName clean_stem (fun c head => head?_dotted head)
        ready.device
    · rw [List.length_append]
      exact shorter.fits

theorem safe_of_ready (ready : Ready name) (fits : name.length ≤ maxBytes) :
    Safe name where
  nonempty := ready.some_char
  ascii := ready.clean.ascii
  bytes := by rwa [length_encode ready.clean.ascii]
  control := ready.clean.control
  separator := ready.clean.separator
  unreserved := ready.clean.unreserved
  first := ready.trimmed.1
  last := ready.trimmed.2
  device := ready.device

/-! ### Settling -/

theorem onlyExt_spec {ext : Name} (found : onlyExt name = some ext) :
    ext ≠ [] ∧ ext.length ≤ 16 ∧ ∀ c ∈ ext, c.isAlphanum = true := by
  simp only [onlyExt] at found
  split at found
  case isTrue held =>
    cases found
    exact ⟨List.ne_nil_of_length_pos held.2.1, held.2.2.1,
      List.all_eq_true.mp held.2.2.2⟩
  case isFalse => cases found

theorem ready_fallback : Ready fallback where
  clean := Clean.of_alphanum (List.all_eq_true.mp (by decide : fallback.all Char.isAlphanum = true))
  trimmed := ⟨fun c head => by cases head; decide,
    fun c last => by cases last; decide⟩
  some_char := by decide
  device := not_deviceName_of_head (by decide)

theorem ready_extension {ext : Name} (some_char : ext ≠ [])
    (alphanum : ∀ c ∈ ext, c.isAlphanum = true) :
    Ready (fallback ++ '.' :: ext) where
  clean := by
    have clean := Clean.of_alphanum alphanum
    have dot := Clean.of_char '.' (by decide) rfl (by decide) (by decide)
    apply ready_fallback.clean.append
    · apply dot.append clean
      rintro c head rfl
      exact absurd (alphanum ' ' (List.mem_of_mem_head? head)) (by decide)
    · intro c head
      cases head
      decide
  trimmed := by
    refine ⟨by rintro c head; cases head; decide, ?_⟩
    intro c last
    rw [List.getLast?_append, List.getLast?_cons_of_ne_nil some_char] at last
    cases ending : ext.getLast? with
    | none => exact absurd (List.getLast?_eq_none_iff.mp ending) some_char
    | some d =>
        rw [ending, Option.some_or] at last
        cases last
        have letter := alphanum c (List.mem_of_getLast? ending)
        exact ⟨alphanum_ne letter rfl, alphanum_ne letter rfl⟩
  some_char := by simp [fallback]
  device := not_deviceName_of_head (by decide)

theorem settle_spec (clean : Clean name) :
    Ready (settle name) ∧ (settle name).length ≤ maxBytes := by
  unfold settle
  split
  case h_1 ext found =>
    obtain ⟨some_char, few, alphanum⟩ := onlyExt_spec found
    refine ⟨ready_extension some_char alphanum, ?_⟩
    simp only [List.length_append, List.length_cons, fallback,
      List.length_nil, maxBytes]
    omega
  case h_2 =>
    dsimp only
    have stripped := clean.of_infix ( strip_infix isEdge name)
    split
    case isTrue => exact ⟨ready_fallback, by decide⟩
    case isFalse some_char =>
      apply cap_spec
      split
      case isTrue =>
        refine ⟨?_, ⟨?_, ?_⟩, List.cons_ne_nil _ _,
          not_deviceName_of_head (by decide)⟩
        · have underscore :=
            Clean.of_char '_' (by decide) rfl (by decide) (by decide)
          exact underscore.append stripped fun c head =>
            ((trimmed_strip name).1 c head).1
        · intro c head
          cases head
          decide
        · intro c last
          rw [List.getLast?_cons_of_ne_nil some_char] at last
          exact (trimmed_strip name).2 c last
      case isFalse free =>
        exact ⟨stripped, trimmed_strip name, some_char,
          fun device => free ((isDevice_iff stripped).mpr device)⟩

theorem settle_eq_self (ready : Ready name) (fits : name.length ≤ maxBytes) :
    settle name = name := by
  have edges : ∀ chars : Char → Bool, (∀ c, chars c = true → isEdge c = true) →
      strip chars name = name := by
    intro chars within
    have outside : ∀ c, c ≠ ' ' ∧ c ≠ '.' → chars c = false := by
      intro c plain
      rw [← Bool.not_eq_true]
      intro held
      have := isEdge_eq_false.mpr plain
      rw [within c held] at this
      cases this
    exact strip_eq_self chars (fun c head => outside c (ready.trimmed.1 c head))
      fun c last => outside c (ready.trimmed.2 c last)
  have spaces : strip (· = ' ') name = name :=
    edges _ fun c held => by simp [isEdge, of_decide_eq_true held]
  have noExt : onlyExt name = none := by
    unfold onlyExt
    have start : name.dropWhile (· = '.') = name := by
      cases whole : name with
      | nil => rfl
      | cons c rest =>
          rw [List.dropWhile_cons, if_neg]
          simp [(ready.trimmed.1 c (by rw [whole]; rfl)).2]
    rw [start]
    simp
  have free : ¬ isDevice name = true := fun device =>
    ready.device ((isDevice_iff ready.clean).mp device)
  rw [settle, spaces, noExt]
  dsimp only
  rw [edges isEdge fun _ held => held, if_neg ready.some_char, if_neg free, cap,
    if_pos (by rwa [length_encode ready.clean.ascii])]

/-- Whatever the name was, the one that clients save under is safe on every
system; and it is kept as it is where it comes in again, since NFC and anyascii
leave ASCII text alone. -/
theorem safe_filename_safe (nfc : List Nat → List Nat)
    (anyascii : List Nat → Name) (ascii : ∀ text, Ascii (anyascii text))
    (raw : List Nat) :
    Safe (safeFilename nfc anyascii raw) ∧
      ((∀ name, Ascii name →
          nfc (name.map Char.toNat) = name.map Char.toNat ∧
            anyascii (name.map Char.toNat) = name) →
        safeFilename nfc anyascii
            ((safeFilename nfc anyascii raw).map Char.toNat) =
          safeFilename nfc anyascii raw) := by
  have clean : Clean (tidy nfc anyascii raw) := clean_tidy ascii raw
  obtain ⟨ready, fits⟩ := settle_spec clean
  refine ⟨safe_of_ready ready fits, ?_⟩
  intro leaves
  obtain ⟨normal, same⟩ := leaves _ ready.clean.ascii
  unfold safeFilename
  rw [ready.clean.tidy_eq_self normal same]
  exact settle_eq_self ready fits

/-- A device name behind a path, where NFC and anyascii see ASCII text only. -/
theorem device_behind_a_path_is_safe :
    ∃ anyascii : List Nat → Name,
      safeFilename id anyascii ("../con .txt".toList.map Char.toNat) =
          "_con .txt".toList ∧
        Safe (safeFilename id anyascii ("../con .txt".toList.map Char.toNat)) ∧
        safeFilename id anyascii ((safeFilename id anyascii
            ("../con .txt".toList.map Char.toNat)).map Char.toNat) =
          safeFilename id anyascii ("../con .txt".toList.map Char.toNat) := by
  refine ⟨fun text => (text.map Char.ofNat).filter (·.toNat < 128), ?_, ?_⟩
  · decide +kernel
  · have saved := safe_filename_safe id
      (fun text => (text.map Char.ofNat).filter (·.toNat < 128))
      (fun text c mem => of_decide_eq_true (List.mem_filter.mp mem).2)
      ("../con .txt".toList.map Char.toNat)
    refine ⟨saved.1, saved.2 fun name ascii => ⟨rfl, ?_⟩⟩
    have chars : (name.map Char.toNat).map Char.ofNat = name := by
      simp [Function.comp_def]
    rw [chars]
    exact List.filter_eq_self.mpr fun c mem => decide_eq_true (ascii c mem)

end Brook.Names
