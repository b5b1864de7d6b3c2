import Brook.Preview.Markers

namespace Brook.Preview

/-! The size gate reads what the format's grammar gives. -/

/-- The sides of an image of this kind. -/
def GrammarSides (b : List UInt8) : ImageKind → Nat × Nat → Prop
  | .png => Png.Sides b
  | .gif => Gif.Sides b
  | .jpeg => Jpeg.Sides b
  | .webp => Webp.Sides b

/-- What the gate answers is what the grammar gives. -/
def ReadsGrammar (word : Nat) (b : List UInt8) : Prop :=
  ∀ kind sides, sniff b = .answer (some kind) → dimensions word b kind = .answer sides →
    GrammarSides b kind sides

/-- On the way to the frame header there is nothing that the format has not there. -/
def Plain (b : List UInt8) : Prop :=
  ∀ passed stop sides, Path b 2 passed stop sides → Proper b passed stop

section

variable {word : Nat} {b : List UInt8}

theorem slice_eq {start n : Nat} (inside : start + n ≤ b.length) :
    slice b start (start + n) = .answer ((b.drop start).take n) := by
  rw [slice, if_pos ⟨Nat.le_add_right start n, inside⟩, Nat.add_sub_cancel_left]

theorem isWebp_sound (b : List UInt8) : (isWebp b).Sound := by
  rw [isWebp]
  split
  case isTrue long =>
    have front : 0 + 4 ≤ b.length := by omega
    have tag : 8 + 4 ≤ b.length := by omega
    rw [slice_eq front, Scan.answer_bind, slice_eq tag]
    split
    · exact fun _ faulted => nomatch faulted
    · exact fun _ faulted => nomatch faulted
  case isFalse => exact fun _ faulted => nomatch faulted

theorem sniff_sound (b : List UInt8) : (sniff b).Sound := by
  rw [sniff]
  split
  · exact fun _ faulted => nomatch faulted
  · split
    · exact fun _ faulted => nomatch faulted
    · split
      · exact fun _ faulted => nomatch faulted
      · have sound := isWebp_sound b
        cases outcome : isWebp b with
        | answer webp => cases webp <;> exact fun _ faulted => nomatch faulted
        | refused => exact fun _ faulted => nomatch faulted
        | fault why => exact (sound why outcome).elim

/-- A JPEG by its first bytes starts with SOI. -/
theorem sniff_jpeg (sniffed : sniff b = .answer (some .jpeg)) : Jpeg.CodeAt b 0 2 0xd8 := by
  rw [sniff] at sniffed
  split at sniffed
  · cases sniffed
  · split at sniffed
    case isTrue starts =>
      obtain ⟨rest, rfl⟩ := List.isPrefixOf_iff_prefix.mp starts
      exact .code rfl rfl (by decide)
    case isFalse =>
      split at sniffed
      · cases sniffed
      · cases outcome : isWebp b with
        | answer webp =>
            rw [outcome] at sniffed
            cases webp <;> cases sniffed
        | refused =>
            rw [outcome] at sniffed
            cases sniffed
        | fault why =>
            rw [outcome] at sniffed
            cases sniffed

theorem jpegDimensions_walks (room : b.length + 2 ^ 17 ≤ word) :
    Walks b 2 (jpegDimensions word b) := jpegMarkers_walks room _ (by omega)

theorem dimensions_sound (room : b.length + 2 ^ 17 ≤ word) (kind : ImageKind) :
    (dimensions word b kind).Sound := by
  cases kind with
  | png => exact (pngDimensions_yields (by omega)).sound
  | jpeg => exact (jpegDimensions_walks room).sound
  | gif => exact (gifDimensions_yields (by omega)).sound
  | webp => exact (webpDimensions_yields (by omega)).sound

/-- The walk's answer is the grammar's exactly where the path to it is proper. -/
theorem jpeg_sides_iff (room : b.length + 2 ^ 17 ≤ word) (start : Jpeg.CodeAt b 0 2 0xd8) :
    (∀ sides, jpegDimensions word b = .answer sides → Jpeg.Sides b sides) ↔ Plain b := by
  have walks := jpegDimensions_walks room
  constructor
  · intro reads passed stop sides path
    have grammar := (reads sides (walks.answers.mpr ⟨passed, stop, path⟩)).2
    obtain ⟨others, end_at, also, proper⟩ := frame_iff.mp grammar
    obtain ⟨rfl, rfl, _⟩ := path.unique also
    exact proper
  · intro plain sides answered
    obtain ⟨passed, stop, path⟩ := walks.answers.mp answered
    exact ⟨start, frame_iff.mpr ⟨passed, stop, path, plain passed stop sides path⟩⟩

/-- The gate ends without a fault, and it answers what the grammar gives exactly where it is
not led past the end of a JPEG, a stuffed byte or a frame header's length. -/
theorem readsGrammar_iff (small : b.length ≤ previewMaxBytes) (wide : 2 ^ 32 ≤ word) :
    (sniff b).Sound ∧ (∀ kind, (dimensions word b kind).Sound) ∧
      (ReadsGrammar word b ↔ (sniff b = .answer (some .jpeg) → Plain b)) := by
  have room : b.length + 2 ^ 17 ≤ word := by
    rw [previewMaxBytes] at small
    omega
  refine ⟨sniff_sound b, dimensions_sound room, ?_⟩
  constructor
  · intro reads sniffed
    exact (jpeg_sides_iff room (sniff_jpeg sniffed)).mp fun sides answered =>
      reads .jpeg sides sniffed answered
  · intro plain kind sides sniffed answered
    cases kind with
    | png => exact (pngDimensions_yields (by omega)).answers answered
    | gif => exact (gifDimensions_yields (by omega)).answers answered
    | webp => exact (webpDimensions_yields (by omega)).answers answered
    | jpeg =>
        exact (jpeg_sides_iff room (sniff_jpeg sniffed)).mpr (plain sniffed) sides answered

end

/-- A frame header after the end of the image. -/
def frameAfterEnd : List UInt8 :=
  [0xff, 0xd8, 0xff, 0xd9, 0xff, 0xc0, 0x00, 0x0b, 0x08, 0x00, 0x02, 0x00, 0x03, 0x01]

theorem frameAfterEnd_path : Path frameAfterEnd 2 [0xd9] 6 (3, 2) :=
  .alone (.code rfl rfl (by decide)) rfl
    (.header (.code rfl rfl (by decide)) rfl rfl ⟨by decide, rfl⟩)

theorem readsGrammar_iff_frameAfterEnd :
    (sniff frameAfterEnd).Sound ∧ (∀ kind, (dimensions (2 ^ 64) frameAfterEnd kind).Sound) ∧
      (ReadsGrammar (2 ^ 64) frameAfterEnd ↔
        (sniff frameAfterEnd = .answer (some .jpeg) → Plain frameAfterEnd)) :=
  readsGrammar_iff (by decide) (by omega)

theorem frame_read_after_end : ¬ ReadsGrammar (2 ^ 64) frameAfterEnd := by
  intro reads
  have grammar := (reads .jpeg (3, 2) rfl rfl).2
  obtain ⟨passed, stop, path, proper⟩ := frame_iff.mp grammar
  obtain ⟨rfl, rfl, _⟩ := frameAfterEnd_path.unique path
  exact (proper.markers 0xd9 List.mem_cons_self).1 rfl

end Brook.Preview
