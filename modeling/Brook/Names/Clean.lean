import Brook.Names.Filename
import Mathlib.Data.List.Chain
import Mathlib.Data.List.TakeWhile

namespace Brook.Names

/-! What the first passes give: printable ASCII without separators or reserved
characters, and without two spaces in a row. -/

structure Clean (name : Name) : Prop where
  ascii : Ascii name
  control : ∀ c ∈ name, isControl c.toNat = false
  separator : ∀ c ∈ name, c ≠ '/' ∧ c ≠ '\\'
  unreserved : ∀ c ∈ name, c ∉ reserved
  single : name.IsChain fun c next => ¬ (c = ' ' ∧ next = ' ')

section Characters

variable {c : Char}

theorem eq_of_toNat {d : Char} (same : c.toNat = d.toNat) : c = d :=
  Char.toNat_inj.mp same

/-- The only white space among the printable ASCII characters. -/
theorem eq_space_of_isSpace (ascii : c.toNat < 128)
    (plain : isControl c.toNat = false) (space : isSpace c = true) :
    c = ' ' := by
  apply eq_of_toNat
  have blank : (' ').toNat = 32 := rfl
  simp only [isControl, Bool.or_eq_false_iff, Bool.and_eq_false_iff,
    decide_eq_false_iff_not] at plain
  simp only [isSpace, Bool.or_eq_true, Bool.and_eq_true,
    decide_eq_true_eq] at space
  rw [blank]
  omega

theorem isInvisible_of_ascii (ascii : c.toNat < 128) :
    isInvisible c.toNat = false := by
  simp only [isInvisible, Bool.or_eq_false_iff, Bool.and_eq_false_iff,
    decide_eq_false_iff_not]
  omega

theorem alphanum_bounds (alphanum : c.isAlphanum = true) :
    (48 ≤ c.toNat ∧ c.toNat ≤ 57) ∨ (65 ≤ c.toNat ∧ c.toNat ≤ 90) ∨
      (97 ≤ c.toNat ∧ c.toNat ≤ 122) := by
  have ranges : (decide (65 ≤ c.val ∧ c.val ≤ 90) || 97 ≤ c.val && c.val ≤ 122 ||
      48 ≤ c.val && c.val ≤ 57) = true := alphanum
  have number : c.val.toNat = c.toNat := rfl
  simp only [Bool.or_eq_true, Bool.and_eq_true, decide_eq_true_eq,
    UInt32.le_iff_toNat_le, number] at ranges
  simp at ranges
  omega

/-- No letter or digit is one of these. -/
theorem alphanum_ne {d : Char} (alphanum : c.isAlphanum = true)
    (other : d.isAlphanum = false) : c ≠ d := by
  rintro rfl
  rw [alphanum] at other
  cases other

theorem alphanum_control (alphanum : c.isAlphanum = true) :
    isControl c.toNat = false := by
  have := alphanum_bounds alphanum
  simp only [isControl, Bool.or_eq_false_iff, Bool.and_eq_false_iff,
    decide_eq_false_iff_not]
  omega

theorem alphanum_unreserved (alphanum : c.isAlphanum = true) :
    c ∉ reserved := by
  intro mem
  simp only [reserved, List.mem_cons, List.not_mem_nil, or_false] at mem
  rcases mem with rfl | rfl | rfl | rfl | rfl | rfl | rfl
  all_goals exact absurd alphanum (by decide)

end Characters

namespace Clean

variable {name front back : Name}

theorem of_alphanum (alphanum : ∀ c ∈ name, c.isAlphanum = true) :
    Clean name where
  ascii := by
    intro c mem
    have := alphanum_bounds (alphanum c mem)
    omega
  control := fun c mem => alphanum_control (alphanum c mem)
  separator := fun c mem =>
    ⟨alphanum_ne (alphanum c mem) rfl, alphanum_ne (alphanum c mem) rfl⟩
  unreserved := fun c mem => alphanum_unreserved (alphanum c mem)
  single := by
    induction name with
    | nil => exact List.isChain_nil
    | cons c rest ih =>
        apply List.isChain_cons.mpr
        refine ⟨?_, ih fun d mem => alphanum d (List.mem_cons_of_mem _ mem)⟩
        rintro next - ⟨rfl, -⟩
        exact absurd (alphanum ' ' List.mem_cons_self) (by decide)

theorem of_char (c : Char) (ascii : c.toNat < 128)
    (plain : isControl c.toNat = false) (noPath : c ≠ '/' ∧ c ≠ '\\')
    (free : c ∉ reserved) : Clean [c] where
  ascii := by simpa [Ascii] using ascii
  control := by simpa using plain
  separator := by simpa using noPath
  unreserved := by simpa using free
  single := List.isChain_singleton c

theorem of_infix (clean : Clean name) (part : front <:+: name) :
    Clean front where
  ascii := fun c mem => clean.ascii c (part.mem mem)
  control := fun c mem => clean.control c (part.mem mem)
  separator := fun c mem => clean.separator c (part.mem mem)
  unreserved := fun c mem => clean.unreserved c (part.mem mem)
  single := clean.single.infix part

theorem append (first : Clean front) (second : Clean back)
    (apart : ∀ c ∈ back.head?, c ≠ ' ') : Clean (front ++ back) where
  ascii := by
    intro c mem
    exact (List.mem_append.mp mem).elim (first.ascii c) (second.ascii c)
  control := by
    intro c mem
    exact (List.mem_append.mp mem).elim (first.control c) (second.control c)
  separator := by
    intro c mem
    exact (List.mem_append.mp mem).elim (first.separator c) (second.separator c)
  unreserved := by
    intro c mem
    exact (List.mem_append.mp mem).elim (first.unreserved c)
      (second.unreserved c)
  single := by
    apply List.isChain_append.mpr
    refine ⟨first.single, second.single, ?_⟩
    intro c _ next head both
    exact apart next head both.2

theorem isSpace_iff (clean : Clean name) {c : Char} (mem : c ∈ name) :
    isSpace c = true ↔ c = ' ' := by
  constructor
  · exact eq_space_of_isSpace (clean.ascii c mem) (clean.control c mem)
  · rintro rfl
    rfl

end Clean

/-! ### The passes -/

section Passes

variable {name : Name}

theorem mem_stripInvisible {α : Type} {code : α → Nat} {text : List α} {c : α} :
    c ∈ stripInvisible code text ↔
      c ∈ text ∧ isControl (code c) = false ∧ isInvisible (code c) = false := by
  simp [stripInvisible, and_comm]

theorem stripInvisible_eq_self {α : Type} {code : α → Nat} {text : List α}
    (plain : ∀ c ∈ text, isControl (code c) = false)
    (shown : ∀ c ∈ text, isInvisible (code c) = false) :
    stripInvisible code text = text := by
  rw [stripInvisible, List.filter_filter]
  apply List.filter_eq_self.mpr
  intro c mem
  simp [plain c mem, shown c mem]

theorem mem_splitOnP {p : Char → Bool} {part : Name}
    (split : part ∈ name.splitOnP p) {c : Char} (mem : c ∈ part) :
    c ∈ name ∧ p c = false := by
  induction name generalizing part with
  | nil =>
      rw [List.splitOnP_nil, List.mem_singleton] at split
      subst split
      cases mem
  | cons first rest ih =>
      rw [List.splitOnP_cons_eq_if_modifyHead] at split
      split at split
      case isTrue =>
        rcases List.mem_cons.mp split with rfl | later
        · cases mem
        · exact ⟨List.mem_cons_of_mem _ (ih later mem).1, (ih later mem).2⟩
      case isFalse kept =>
        cases parts : rest.splitOnP p with
        | nil => exact absurd parts (List.splitOnP_ne_nil p rest)
        | cons head tail =>
            rw [parts, List.modifyHead_cons] at split
            rcases List.mem_cons.mp split with rfl | later
            · rcases List.mem_cons.mp mem with rfl | inside
              · exact ⟨List.mem_cons_self, by simpa using kept⟩
              · have := ih (by rw [parts]; exact List.mem_cons_self)
                  inside
                exact ⟨List.mem_cons_of_mem _ this.1, this.2⟩
            · have := ih
                (by rw [parts]; exact List.mem_cons_of_mem _ later) mem
              exact ⟨List.mem_cons_of_mem _ this.1, this.2⟩

theorem mem_lastSegment {c : Char} (mem : c ∈ lastSegment name) :
    c ∈ name ∧ c ≠ '/' ∧ c ≠ '\\' := by
  unfold lastSegment at mem
  cases last : (name.splitOnP fun c => c = '\\' || c = '/').getLast? with
  | none =>
      rw [last] at mem
      cases mem
  | some part =>
      rw [last] at mem
      have := mem_splitOnP (List.mem_of_getLast? last) mem
      simpa [and_comm] using this

theorem lastSegment_eq_self (free : ∀ c ∈ name, c ≠ '/' ∧ c ≠ '\\') :
    lastSegment name = name := by
  rw [lastSegment, List.splitOnP_eq_singleton]
  · rfl
  · intro c mem
    simp [free c mem]

theorem mem_collapse {after : Bool} {c : Char} (mem : c ∈ collapse after name) :
    c = ' ' ∨ c ∈ name ∧ isSpace c = false := by
  induction name generalizing after with
  | nil => cases mem
  | cons first rest ih =>
      rw [collapse] at mem
      have onward : ∀ {after : Bool}, c ∈ collapse after rest →
          c = ' ' ∨ c ∈ first :: rest ∧ isSpace c = false := by
        intro after later
        exact (ih later).imp_right fun old =>
          ⟨List.mem_cons_of_mem _ old.1, old.2⟩
      split at mem
      case isTrue =>
        split at mem
        case isTrue => exact onward mem
        case isFalse =>
          rcases List.mem_cons.mp mem with blank | later
          · exact Or.inl blank
          · exact onward later
      case isFalse other =>
        rcases List.mem_cons.mp mem with rfl | later
        · exact Or.inr ⟨List.mem_cons_self, by simpa using other⟩
        · exact onward later

/-- After a run of spaces, the rest does not begin with a space. -/
theorem head?_collapse {c : Char} (head : (collapse true name).head? = some c) :
    c ≠ ' ' := by
  induction name with
  | nil => cases head
  | cons first rest ih =>
      rw [collapse] at head
      split at head
      case isTrue => exact ih (by simpa using head)
      case isFalse other =>
        cases head
        rintro rfl
        exact other rfl

theorem collapse_single (after : Bool) :
    (collapse after name).IsChain fun c next => ¬ (c = ' ' ∧ next = ' ') := by
  induction name generalizing after with
  | nil => exact List.isChain_nil
  | cons first rest ih =>
      rw [collapse]
      split
      case isTrue =>
        split
        case isTrue => exact ih true
        case isFalse =>
          refine List.isChain_cons.mpr ⟨?_, ih true⟩
          intro next head both
          exact head?_collapse head both.2
      case isFalse other =>
        refine List.isChain_cons.mpr ⟨?_, ih false⟩
        rintro next - ⟨rfl, -⟩
        exact other rfl

theorem Clean.collapse_eq_self (clean : Clean name) :
    collapse false name = name ∧
      ((∀ c ∈ name.head?, c ≠ ' ') → collapse true name = name) := by
  induction name with
  | nil => exact ⟨rfl, fun _ => rfl⟩
  | cons first rest ih =>
      have ih := ih (clean.of_infix (List.suffix_cons first rest).isInfix)
      have chain := List.isChain_cons.mp clean.single
      have blank := clean.isSpace_iff List.mem_cons_self
      by_cases space : first = ' '
      · constructor
        · rw [collapse, if_pos (blank.mpr space), if_neg (by simp), ih.2, space]
          intro next head same
          exact chain.1 next head ⟨space, same⟩
        · intro apart
          exact absurd space (apart first rfl)
      · have other : ¬ isSpace first = true := fun held => space (blank.mp held)
        exact ⟨by rw [collapse, if_neg other, ih.1],
          fun _ => by rw [collapse, if_neg other, ih.1]⟩

end Passes

section Tidy

variable {nfc : List Nat → List Nat} {anyascii : List Nat → Name}

theorem clean_tidy (ascii : ∀ text, Ascii (anyascii text)) (raw : List Nat) :
    Clean (tidy nfc anyascii raw) := by
  have came : ∀ c ∈ tidy nfc anyascii raw, c = ' ' ∨ c = '_' ∨
      c ∉ reserved ∧ c.toNat < 128 ∧ isControl c.toNat = false ∧
        c ≠ '/' ∧ c ≠ '\\' := by
    intro c mem
    rcases mem_collapse mem with blank | ⟨kept, -⟩
    · exact Or.inl blank
    right
    obtain ⟨old, inside, rfl⟩ := List.mem_map.mp kept
    split
    case isTrue => exact Or.inl rfl
    case isFalse free =>
      obtain ⟨within, noPath⟩ := mem_lastSegment inside
      obtain ⟨printed, plain, -⟩ := mem_stripInvisible.mp within
      exact Or.inr ⟨free, ascii _ old printed, plain, noPath⟩
  refine ⟨?_, ?_, ?_, ?_, collapse_single false⟩
  · intro c mem
    rcases came c mem with rfl | rfl | ⟨-, small, -⟩
    · decide
    · decide
    · exact small
  · intro c mem
    rcases came c mem with rfl | rfl | ⟨-, -, plain, -⟩
    · rfl
    · rfl
    · exact plain
  · intro c mem
    rcases came c mem with rfl | rfl | ⟨-, -, -, noPath⟩
    · decide
    · decide
    · exact noPath
  · intro c mem
    rcases came c mem with rfl | rfl | ⟨free, -⟩
    · decide
    · decide
    · exact free

/-- A clean name goes through the passes as it is, where NFC and anyascii leave
ASCII text alone. -/
theorem Clean.tidy_eq_self {name : Name} (clean : Clean name)
    (normal : nfc (name.map Char.toNat) = name.map Char.toNat)
    (same : anyascii (name.map Char.toNat) = name) :
    tidy nfc anyascii (name.map Char.toNat) = name := by
  have codes : stripInvisible id (name.map Char.toNat) = name.map Char.toNat := by
    apply stripInvisible_eq_self
    all_goals
      intro code mem
      obtain ⟨c, inside, rfl⟩ := List.mem_map.mp mem
    · exact clean.control c inside
    · exact isInvisible_of_ascii (clean.ascii c inside)
  have chars : stripInvisible Char.toNat name = name :=
    stripInvisible_eq_self clean.control
      fun c mem => isInvisible_of_ascii (clean.ascii c mem)
  have unchanged : (name.map fun c => if c ∈ reserved then '_' else c) = name := by
    conv_rhs => rw [← List.map_id name]
    apply List.map_congr_left
    intro c mem
    exact if_neg (clean.unreserved c mem)
  simp only [tidy]
  rw [normal, codes, same, chars, lastSegment_eq_self clean.separator, unchanged]
  exact clean.collapse_eq_self.1

end Tidy

end Brook.Names
