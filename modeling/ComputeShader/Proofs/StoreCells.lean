import ComputeShader.Store.Access

/-! # Stores as memories

Seen from a running invocation, buffers and images are one memory: a cell for each element and each
texel, and a frame around the cells that no invocation changes. A store is determined by its frame
and its cells as long as it is well formed, which says that every element holds the patterns of a
value and every texel the bytes of its format.
-/

namespace ComputeShader

/-- Whether patterns are those of the components of a value of this type. -/
def ValueType.Holds (ty : ValueType) (bits : List UInt32) : Prop :=
  bits.length = ty.components ∧ ∀ w ∈ bits, (Scalar.ofBits ty.kind w).toBits = w

namespace Value

theorem holds_bits (v : Value) : v.ty.Holds v.bits :=
  ⟨v.length_bits, fun w member => v.written_words w (List.mem_of_mem_take member)⟩

/-- Patterns that a type holds are read back as they are. -/
theorem bits_ofBits {ty : ValueType} {bits : List UInt32} (holds : ty.Holds bits) :
    (ofBits ty bits).bits = bits := by
  obtain ⟨length, written⟩ := holds
  have enough : bits.length ≤ ty.wordCount := length ▸ ty.components_le_wordCount
  have same : bits.map (fun w => (Scalar.ofBits ty.kind w).toBits) = bits :=
    (List.map_congr_left written).trans bits.map_id
  simp only [Value.bits, ofBits, List.take_of_length_le enough, same, List.rightpad]
  rw [← length, List.take_left]

end Value

theorem TexelFormat.texelSize_mod_four (f : TexelFormat) : f.texelSize % 4 = 0 := by
  cases f <;> rfl

namespace Buffer

/-- A buffer without what its elements hold. -/
def frame (b : Buffer) : Buffer := { b with elements := Array.replicate b.length [] }

/-- Every element holds a value of the element type. -/
def Proper (b : Buffer) : Prop := ∀ i, i < b.length → b.element.Holds (b.bits i)

@[simp] theorem length_frame (b : Buffer) : b.frame.length = b.length := by
  simp [frame, length]

theorem element_of_frame {a b : Buffer} (same : a.frame = b.frame) : a.element = b.element := by
  simpa [frame] using congrArg Buffer.element same

theorem length_of_frame {a b : Buffer} (same : a.frame = b.frame) : a.length = b.length := by
  rw [← length_frame a, same, length_frame]

theorem name_of_frame {a b : Buffer} (same : a.frame = b.frame) : a.name = b.name := by
  simpa [frame] using congrArg Buffer.name same

theorem label_of_frame {a b : Buffer} (same : a.frame = b.frame) (binding : Binding) :
    a.label binding = b.label binding := by
  rw [label, label, name_of_frame same]

@[simp] theorem frame_set (b : Buffer) (i : Nat) (bits : List UInt32) :
    (b.set i bits).frame = b.frame := by
  simp [frame, set, length]

theorem bits_set (b : Buffer) (i j : Nat) (bits : List UInt32) :
    (b.set i bits).bits j = if j = i ∧ i < b.length then bits else b.bits j := by
  simp only [Buffer.bits, set, length, Array.getD_eq_getD_getElem?, Array.getElem?_setIfInBounds]
  grind

theorem bits_eq_nil {b : Buffer} {i : Nat} (outside : b.length ≤ i) : b.bits i = [] := by
  simp [Buffer.bits, Array.getD_eq_getD_getElem?, Array.getElem?_eq_none outside]

theorem proper_zeros (name : String) (element : ValueType) (length : Nat) :
    (zeros name element length).Proper := by
  intro i inside
  have bound : i < length := by simpa [zeros, Buffer.length] using inside
  have held : (zeros name element length).bits i = List.replicate element.components 0 := by
    simp [Buffer.bits, zeros, Array.getD_eq_getD_getElem?, bound]
  rw [held]
  refine ⟨List.length_replicate, fun w member => ?_⟩
  rw [List.eq_of_mem_replicate member]
  show (Scalar.ofBits element.kind 0).toBits = 0
  cases element.kind <;> rfl

theorem eq_of_bits {a b : Buffer} (frame : a.frame = b.frame) (same : ∀ i, a.bits i = b.bits i) :
    a = b := by
  obtain ⟨name, element, elements⟩ := a
  obtain ⟨name', element', elements'⟩ := b
  simp only [Buffer.frame, mk.injEq] at frame
  obtain ⟨rfl, rfl, sizes⟩ := frame
  have size : elements.size = elements'.size := by simpa [length] using congrArg Array.size sizes
  congr 1
  refine Array.ext size fun i bound bound' => ?_
  have found := same i
  simp only [Buffer.bits, Array.getD_eq_getD_getElem?, Array.getElem?_eq_getElem bound,
    Array.getElem?_eq_getElem bound', Option.getD_some] at found
  exact found

end Buffer

namespace Image

/-- An image without what its texels hold. -/
def frame (i : Image) : Image := { i with texels := Array.replicate i.texels.size [] }

/-- There is a texel for every position, and it has the bytes of its format. -/
def Proper (i : Image) : Prop :=
  i.texels.size = i.width.toNat * i.height.toNat ∧
    ∀ t, t < i.texels.size → (i.bytes t).length = i.format.texelSize

theorem format_of_frame {a b : Image} (same : a.frame = b.frame) : a.format = b.format := by
  simpa [frame] using congrArg Image.format same

theorem width_of_frame {a b : Image} (same : a.frame = b.frame) : a.width = b.width := by
  simpa [frame] using congrArg Image.width same

theorem height_of_frame {a b : Image} (same : a.frame = b.frame) : a.height = b.height := by
  simpa [frame] using congrArg Image.height same

theorem size_of_frame {a b : Image} (same : a.frame = b.frame) : a.texels.size = b.texels.size := by
  simpa [frame] using congrArg (fun i => i.texels.size) same

theorem name_of_frame {a b : Image} (same : a.frame = b.frame) : a.name = b.name := by
  simpa [frame] using congrArg Image.name same

theorem label_of_frame {a b : Image} (same : a.frame = b.frame) (binding : Binding) :
    a.label binding = b.label binding := by
  rw [label, label, name_of_frame same]

@[simp] theorem frame_set (i : Image) (t : Nat) (bytes : List UInt8) :
    (i.set t bytes).frame = i.frame := by
  simp [frame, set]

theorem bytes_set (i : Image) (t u : Nat) (bytes : List UInt8) :
    (i.set t bytes).bytes u = if u = t ∧ t < i.texels.size then bytes else i.bytes u := by
  simp only [Image.bytes, set, Array.getD_eq_getD_getElem?, Array.getElem?_setIfInBounds]
  grind

theorem bytes_eq_nil {i : Image} {t : Nat} (outside : i.texels.size ≤ t) : i.bytes t = [] := by
  simp [Image.bytes, Array.getD_eq_getD_getElem?, Array.getElem?_eq_none outside]

theorem proper_zeros (name : String) (format : TexelFormat) (width height : UInt32) :
    (zeros name format width height).Proper := by
  refine ⟨Array.size_replicate, fun t inside => ?_⟩
  have bound : t < width.toNat * height.toNat := by simpa [zeros] using inside
  have held : (zeros name format width height).bytes t = format.zeroTexel := by
    simp [Image.bytes, zeros, Array.getD_eq_getD_getElem?, bound]
  rw [held]
  exact List.length_replicate

theorem Proper.flatMap_words {i : Image} (proper : i.Proper) (t : Nat) :
    (LittleEndian.words (i.bytes t)).flatMap LittleEndian.bytes = i.bytes t := by
  refine LittleEndian.flatMap_bytes_words ?_
  rcases Nat.lt_or_ge t i.texels.size with inside | outside
  · rw [proper.2 t inside, i.format.texelSize_mod_four]
  · simp [bytes_eq_nil outside]

theorem eq_of_bytes {a b : Image} (frame : a.frame = b.frame) (same : ∀ t, a.bytes t = b.bytes t) : a = b := by
  obtain ⟨name, format, width, height, texels⟩ := a
  obtain ⟨name', format', width', height', texels'⟩ := b
  simp only [Image.frame, mk.injEq] at frame
  obtain ⟨rfl, rfl, rfl, rfl, sizes⟩ := frame
  have size : texels.size = texels'.size := by simpa using congrArg Array.size sizes
  congr 1
  refine Array.ext size fun t bound bound' => ?_
  have found := same t
  simp only [Image.bytes, Array.getD_eq_getD_getElem?, Array.getElem?_eq_getElem bound,
    Array.getElem?_eq_getElem bound', Option.getD_some] at found
  exact found

theorem eq_of_words {a b : Image} (frame : a.frame = b.frame) (proper : a.Proper)
    (proper' : b.Proper)
    (same : ∀ t, LittleEndian.words (a.bytes t) = LittleEndian.words (b.bytes t)) : a = b := by
  refine eq_of_bytes frame fun t => ?_
  rw [← proper.flatMap_words t, same, proper'.flatMap_words t]

end Image

namespace Store

/-- The pattern at a place; a place that no resource has holds nothing. -/
def cell (s : Store) : Location → List UInt32
  | ⟨.buffer binding, i⟩ => ((s.buffers.get? binding).map (Buffer.bits · i)).getD []
  | ⟨.image binding, t⟩ =>
    ((s.images.get? binding).map fun i => LittleEndian.words (i.bytes t)).getD []

/-- The store with another pattern at a place. -/
def setCell (s : Store) (bits : List UInt32) : Location → Store
  | ⟨.buffer binding, i⟩ => { s with buffers := s.buffers.modify binding fun b => b.set i bits }
  | ⟨.image binding, t⟩ =>
    { s with images := s.images.modify binding fun i => i.set t (bits.flatMap LittleEndian.bytes) }

/-- What no invocation changes: everything but the contents of buffers and images, the log, the
conflicts and the diagnostics. -/
def frame (s : Store) : Store :=
  { s with
    buffers := s.buffers.mapValues fun _ b => b.frame
    images := s.images.mapValues fun _ i => i.frame
    log := {}
    conflicts := []
    diagnostics := [] }

/-- Whether a word is a pattern that values of the element type at a place have. -/
def Admits (s : Store) (w : UInt32) : Location → Prop
  | ⟨.buffer binding, _⟩ =>
    ∀ b, s.buffers.get? binding = some b → (Scalar.ofBits b.element.kind w).toBits = w
  | ⟨.image _, _⟩ => True

/-- All buffers and images hold what their types and formats say. -/
structure WellFormed (s : Store) : Prop where
  buffers : ∀ binding b, s.buffers.get? binding = some b → b.Proper
  images : ∀ binding i, s.images.get? binding = some i → i.Proper

/-- A value of the element type is as long as what an element holds. -/
theorem WellFormed.length_bits_eq {s : Store} (proper : s.WellFormed) {binding : Binding} {b : Buffer}
    {i : Nat} (found : s.buffers.get? binding = some b) {v : Value} (typed : v.ty = b.element)
    (inside : i < b.length) : v.bits.length = (s.cell ⟨.buffer binding, i⟩).length := by
  rw [cell, found, v.length_bits, typed]
  exact (proper.buffers binding b found i inside).1.symm

/-- The bytes of a format are as many as a texel holds. -/
theorem WellFormed.length_words_eq {s : Store} (proper : s.WellFormed) {binding : Binding} {i : Image}
    {t : Nat} (found : s.images.get? binding = some i) {bytes : List UInt8}
    (sized : bytes.length = i.format.texelSize) (inside : t < i.width.toNat * i.height.toNat) :
    (LittleEndian.words bytes).length = (s.cell ⟨.image binding, t⟩).length := by
  obtain ⟨size, texels⟩ := proper.images binding i found
  rw [cell, found, LittleEndian.length_words, sized, ← texels t (size ▸ inside),
    ← LittleEndian.length_words]
  rfl

variable {s t : Store} {p q : Location} {bits : List UInt32}

@[simp] theorem log_setCell : (s.setCell bits p).log = s.log := by
  obtain ⟨_ | _, _⟩ := p <;> rfl

@[simp] theorem conflicts_setCell : (s.setCell bits p).conflicts = s.conflicts := by
  obtain ⟨_ | _, _⟩ := p <;> rfl

@[simp] theorem diagnostics_setCell : (s.setCell bits p).diagnostics = s.diagnostics := by
  obtain ⟨_ | _, _⟩ := p <;> rfl

@[simp] theorem frame_setCell : (s.setCell bits p).frame = s.frame := by
  obtain ⟨binding | binding, i⟩ := p
  · have erased : (s.buffers.modify binding fun b => b.set i bits).mapValues (fun _ b => b.frame) =
        s.buffers.mapValues fun _ b => b.frame := by
      refine Bindings.ext_get? fun key => ?_
      rw [Bindings.get?_mapValues, Bindings.get?_mapValues, Bindings.get?_modify]
      split <;> simp [Option.map_map, Function.comp_def]
    simp only [setCell, frame, erased]
  · have erased : (s.images.modify binding fun image =>
        image.set i (bits.flatMap LittleEndian.bytes)).mapValues (fun _ i => i.frame) =
        s.images.mapValues fun _ i => i.frame := by
      refine Bindings.ext_get? fun key => ?_
      rw [Bindings.get?_mapValues, Bindings.get?_mapValues, Bindings.get?_modify]
      split <;> simp [Option.map_map, Function.comp_def]
    simp only [setCell, frame, erased]

/-- Storing a pattern of the same length changes one cell. -/
theorem cell_setCell (fits : bits.length = (s.cell p).length) :
    (s.setCell bits p).cell q = if q = p then bits else s.cell q := by
  obtain ⟨binding | binding, i⟩ := p <;> obtain ⟨other | other, j⟩ := q
  · by_cases here : other = binding
    · subst here
      cases found : s.buffers.get? other with
      | none =>
        have empty : bits = [] := by simpa [cell, found] using fits
        simp [cell, setCell, Bindings.get?_modify, found, empty]
      | some b =>
        have empty : b.length ≤ i → bits = [] := fun outside => by
          simpa [cell, found, Buffer.bits_eq_nil outside] using fits
        have nothing := fun outside : b.length ≤ i => Buffer.bits_eq_nil outside
        simp only [cell, setCell, Bindings.get?_modify, found, if_true, Option.map_some,
          Option.getD_some, Buffer.bits_set, Location.mk.injEq, true_and]
        grind
    · simp [cell, setCell, Bindings.get?_modify, here]
  · simp [cell, setCell]
  · simp [cell, setCell]
  · by_cases here : other = binding
    · subst here
      cases found : s.images.get? other with
      | none =>
        have empty : bits = [] := by simpa [cell, found] using fits
        simp [cell, setCell, Bindings.get?_modify, found, empty]
      | some image =>
        have empty : image.texels.size ≤ i → bits = [] := fun outside => by
          simpa [cell, found, Image.bytes_eq_nil outside, LittleEndian.words] using fits
        have nothing := fun outside : image.texels.size ≤ i => Image.bytes_eq_nil outside
        have words : LittleEndian.words [] = [] := rfl
        simp only [cell, setCell, Bindings.get?_modify, found, if_true, Option.map_some,
          Option.getD_some, Image.bytes_set, Location.mk.injEq, true_and]
        grind [LittleEndian.words_flatMap_bytes]
    · simp [cell, setCell, Bindings.get?_modify, here]

theorem get?_buffers_frame (binding : Binding) :
    s.frame.buffers.get? binding = (s.buffers.get? binding).map Buffer.frame :=
  Bindings.get?_mapValues ..

theorem get?_images_frame (binding : Binding) :
    s.frame.images.get? binding = (s.images.get? binding).map Image.frame :=
  Bindings.get?_mapValues ..

theorem admits_frame {w : UInt32} : s.frame.Admits w p ↔ s.Admits w p := by
  obtain ⟨_ | _, _⟩ := p
  · simp [Admits, get?_buffers_frame, Buffer.frame]
  · simp [Admits]

theorem WellFormed.setCell (proper : s.WellFormed) (fits : bits.length = (s.cell p).length)
    (admitted : ∀ w ∈ bits, s.Admits w p) : (s.setCell bits p).WellFormed := by
  obtain ⟨binding | binding, i⟩ := p
  · refine ⟨fun other b found => ?_, proper.images⟩
    simp only [Store.setCell, Bindings.get?_modify] at found
    split at found
    · next here =>
      subst here
      obtain ⟨old, held, rfl⟩ := Option.map_eq_some_iff.1 found
      intro j bound
      have inside : j < old.length := by simpa [Buffer.set, Buffer.length] using bound
      rw [Buffer.bits_set]
      split
      · next here =>
        obtain ⟨rfl, _⟩ := here
        refine ⟨?_, fun w member => admitted w member old held⟩
        rw [fits, cell, held]
        exact (proper.buffers other old held j inside).1
      · exact proper.buffers other old held j inside
    · exact proper.buffers other b found
  · refine ⟨proper.buffers, fun other image found => ?_⟩
    simp only [Store.setCell, Bindings.get?_modify] at found
    split at found
    · next here =>
      subst here
      obtain ⟨old, held, rfl⟩ := Option.map_eq_some_iff.1 found
      have before := proper.images other old held
      refine ⟨by simpa [Image.set] using before.1, fun t bound => ?_⟩
      have inside : t < old.texels.size := by simpa [Image.set] using bound
      rw [Image.bytes_set]
      split
      · next here =>
        obtain ⟨rfl, _⟩ := here
        have whole := old.format.texelSize_mod_four
        have size := before.2 t inside
        have words : bits.length = (old.bytes t).length / 4 := by
          rw [fits, cell, held]
          exact LittleEndian.length_words _
        have total := LittleEndian.length_flatMap_bytes bits
        show (bits.flatMap LittleEndian.bytes).length = old.format.texelSize
        omega
      · exact before.2 t inside
    · exact proper.images other image found

/-- Well-formed stores with the same frame and the same cells have the same contents. -/
theorem contents_eq (proper : s.WellFormed) (proper' : t.WellFormed) (frame : s.frame = t.frame)
    (same : ∀ p, s.cell p = t.cell p) : s.buffers = t.buffers ∧ s.images = t.images := by
  constructor
  · refine Bindings.ext_get? fun binding => ?_
    have frames : (s.buffers.get? binding).map Buffer.frame =
        (t.buffers.get? binding).map Buffer.frame := by
      rw [← get?_buffers_frame, ← get?_buffers_frame, frame]
    have cells (i : Nat) := same ⟨.buffer binding, i⟩
    simp only [cell] at cells
    cases found : s.buffers.get? binding with
    | none =>
      rw [found, Option.map_none, eq_comm, Option.map_eq_none_iff] at frames
      exact frames.symm
    | some b =>
      rw [found, Option.map_some, eq_comm, Option.map_eq_some_iff] at frames
      obtain ⟨b', found', alike⟩ := frames
      rw [found']
      rw [found, found'] at cells
      exact congrArg some (Buffer.eq_of_bits alike.symm cells)
  · refine Bindings.ext_get? fun binding => ?_
    have frames : (s.images.get? binding).map Image.frame =
        (t.images.get? binding).map Image.frame := by
      rw [← get?_images_frame, ← get?_images_frame, frame]
    have cells (i : Nat) := same ⟨.image binding, i⟩
    simp only [cell] at cells
    cases found : s.images.get? binding with
    | none =>
      rw [found, Option.map_none, eq_comm, Option.map_eq_none_iff] at frames
      exact frames.symm
    | some i =>
      rw [found, Option.map_some, eq_comm, Option.map_eq_some_iff] at frames
      obtain ⟨i', found', alike⟩ := frames
      rw [found']
      rw [found, found'] at cells
      exact congrArg some (Image.eq_of_words alike.symm (proper.images binding i found)
        (proper'.images binding i' found') cells)

end Store

end ComputeShader
