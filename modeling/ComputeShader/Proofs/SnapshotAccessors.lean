import ComputeShader.Proofs.SlicedAccesses

/-! # Elements and texels of snapshots

A snapshot that is read may have any extent beside any number of lanes and bytes. An element answers
just where all its lanes are there. A texel is found through an offset in bytes of 64 bits, so that only
so many texels have offsets of their own: one beyond them answers as the texel whose offset it shares,
and every other one just where all its bytes are there.
-/

namespace ComputeShader

/-- The components of a value made of as many patterns are those that the patterns write. -/
theorem Value.components_ofBits {ty : ValueType} {bits : List UInt32} (length : bits.length = ty.components) :
    (ofBits ty bits).components = bits.map (Scalar.ofBits ty.kind) := by
  have short : bits.length ≤ ty.wordCount := length ▸ ty.components_le_wordCount
  have shown : (ofBits ty bits).bits = bits.map fun w => (Scalar.ofBits ty.kind w).toBits := by
    change List.take ty.components (List.rightpad _ _ _) = _
    rw [List.rightpad, List.take_of_length_le short, ← length]
    exact List.take_left' (List.length_map _)
  rw [components, shown, List.map_map]
  refine List.map_congr_left fun w _ => ?_
  have same := Scalar.ofBits_toBits (Scalar.ofBits ty.kind w)
  rwa [Scalar.kind_ofBits] at same

section Slices

variable {α β : Type} {run : List α} {size : Nat}

/-- What is left of a run behind an offset begins with a whole slice just if the run goes so far. -/
theorem length_take_drop_eq_iff {start : Nat} (positive : 0 < size) :
    ((run.drop start).take size).length = size ↔ start + size ≤ run.length := by
  rw [List.length_take, List.length_drop]
  omega

theorem map_slice?_eq_some_iff {i : Nat} {f : List α → β} {b : β} :
    (slice? run size i).map f = some b ↔
      (i + 1) * size ≤ run.length ∧ b = f ((run.drop (i * size)).take size) := by
  rw [slice?]
  split
  · next enough => simp only [Option.map_some, Option.some.injEq, enough, true_and, eq_comm]
  · next short => simp only [Option.map_none, reduceCtorEq, short, false_and]

end Slices

/-! ## Elements -/

namespace BufferSnapshot

variable {b : BufferSnapshot} {index : Nat} {v : Value}

/-- Whether all lanes of an element are there, and its value is theirs. -/
def Holds (b : BufferSnapshot) (index : Nat) (v : Value) : Prop :=
  (index + 1) * b.element.components ≤ b.lanes.length ∧
    v = Value.ofBits b.element
      ((b.lanes.drop (index * b.element.components)).take b.element.components)

/-- An element is the value of its slice of the lanes. -/
theorem element?_eq_slice? (b : BufferSnapshot) (index : Nat) :
    b.element? index = (slice? b.lanes b.element.components index).map (Value.ofBits b.element) := by
  rw [element?, slice?, Nat.succ_mul]
  simp only [length_take_drop_eq_iff b.element.components_pos]
  split
  · rfl
  · rfl

theorem element?_eq_some_iff : b.element? index = some v ↔ b.Holds index v := by
  rw [element?_eq_slice?]
  exact map_slice?_eq_some_iff

/-- The components of an element are its lanes one by one. -/
theorem Holds.components (holds : b.Holds index v) :
    v.components = ((b.lanes.drop (index * b.element.components)).take b.element.components).map
      (Scalar.ofBits b.element.kind) := by
  obtain ⟨enough, rfl⟩ := holds
  rw [Nat.succ_mul] at enough
  exact Value.components_ofBits ((length_take_drop_eq_iff b.element.components_pos).2 enough)

end BufferSnapshot

/-! ## Texels -/

namespace ImageSnapshot

variable {i : ImageSnapshot} {x y : UInt32} {v : Value}

/-- The number of texels in front of a texel, row by row. -/
def position (i : ImageSnapshot) (x y : UInt32) : Nat := y.toNat * i.width.toNat + x.toNat

/-- The number of texels that have offsets of their own. -/
def reach (i : ImageSnapshot) : Nat := offsetLimit / i.format.texelSize

/-- Whether the bytes at a position among the texels are there, and a value is what they decode to. -/
def HoldsAt (i : ImageSnapshot) (position : Nat) (v : Value) : Prop :=
  (position + 1) * i.format.texelSize ≤ i.texels.length ∧
    v = i.format.decode ((i.texels.drop (position * i.format.texelSize)).take i.format.texelSize)

/-- Whether a texel is inside the extent and shares its offset with one in front of it, whose bytes are
there. -/
def Wraps (i : ImageSnapshot) (x y : UInt32) : Prop :=
  x < i.width ∧ y < i.height ∧ i.reach ≤ i.position x y ∧
    (i.position x y % i.reach + 1) * i.format.texelSize ≤ i.texels.length

theorem reach_mul (i : ImageSnapshot) : i.reach * i.format.texelSize = offsetLimit := by
  unfold reach
  cases i.format <;> rfl

/-- The offset of a texel is that of the texel within reach. -/
theorem offset_eq (i : ImageSnapshot) (x y : UInt32) :
    i.offset x y = i.position x y % i.reach * i.format.texelSize := by
  rw [offset, ← reach_mul i, Nat.mul_mod_mul_right]
  rfl

/-- A texel inside the extent is decoded from a slice of the bytes. -/
theorem texel?_eq_slice? (stored : i.texels.length < offsetLimit) (left : x < i.width)
    (above : y < i.height) :
    i.texel? x y =
      (slice? i.texels i.format.texelSize (i.position x y % i.reach)).map i.format.decode := by
  -- Where the end of the bytes wraps around, the bytes do not go so far anyway.
  have ends {start size : Nat} : (start ≤ (start + size) % offsetLimit ∧ start + size ≤ i.texels.length) ↔
      start + size ≤ i.texels.length := by
    refine and_iff_right_of_imp fun inside => ?_
    rw [Nat.mod_eq_of_lt (Nat.lt_of_le_of_lt inside stored)]
    exact Nat.le_add_right ..
  rw [texel?, texelBytes?, if_pos ⟨left, above⟩, offset_eq, slice?, Nat.succ_mul]
  dsimp only
  simp only [length_take_drop_eq_iff i.format.texelSize_pos, ends]

theorem texel?_eq_some_iff (stored : i.texels.length < offsetLimit) :
    i.texel? x y = some v ↔
      x < i.width ∧ y < i.height ∧ i.HoldsAt (i.position x y % i.reach) v := by
  by_cases inside : x < i.width ∧ y < i.height
  · rw [texel?_eq_slice? stored inside.1 inside.2, ← and_assoc, and_iff_right inside]
    exact map_slice?_eq_some_iff
  · rw [texel?, texelBytes?, if_neg inside, ← and_assoc]
    exact iff_of_false (by rintro ⟨⟩) fun found => inside found.1

/-- A position whose bytes are there is within reach. -/
theorem HoldsAt.lt_reach {position : Nat} (holds : i.HoldsAt position v)
    (stored : i.texels.length < offsetLimit) : position < i.reach := by
  refine Nat.lt_of_mul_lt_mul_right (a := i.format.texelSize) ?_
  have enough := holds.1
  rw [Nat.succ_mul] at enough
  rw [reach_mul]
  omega

/-- A texel answers just if it is there, unless it shares its offset with one that is. -/
theorem exact_iff (stored : i.texels.length < offsetLimit) :
    (∀ v, i.texel? x y = some v ↔ x < i.width ∧ y < i.height ∧ i.HoldsAt (i.position x y) v) ↔
      ¬i.Wraps x y := by
  simp only [texel?_eq_some_iff stored]
  by_cases within : i.position x y < i.reach
  · rw [Nat.mod_eq_of_lt within]
    exact iff_of_true (fun v => Iff.rfl) fun wraps => Nat.not_lt_of_le wraps.2.2.1 within
  · have beyond := Nat.le_of_not_lt within
    constructor
    · rintro exact ⟨left, above, -, enough⟩
      exact within (((exact _).1 ⟨left, above, enough, rfl⟩).2.2.lt_reach stored)
    · intro unwrapped v
      refine iff_of_false ?_ fun found => within (found.2.2.lt_reach stored)
      exact fun found => unwrapped ⟨found.1, found.2.1, beyond, found.2.2.1⟩

end ImageSnapshot

/-- What the accessors of a snapshot answer, however its extents and its contents fit together. An element
answers just if all its lanes are there, with the value of these lanes. A texel answers just if it is inside
the extent and the bytes are there of the texel whose offset it has, with what they decode to: its own bytes,
but for one that shares its offset with a texel in front of it. -/
theorem Snapshot.accessors_exact (b : BufferSnapshot) (i : ImageSnapshot) (index : Nat) (x y : UInt32)
    (stored : i.texels.length < ImageSnapshot.offsetLimit) :
    (∀ v, b.element? index = some v ↔ b.Holds index v) ∧
      (∀ v, b.element? index = some v → v.ty = b.element ∧
        v.components = ((b.lanes.drop (index * b.element.components)).take b.element.components).map
          (Scalar.ofBits b.element.kind)) ∧
      (∀ v, i.texel? x y = some v ↔
        x < i.width ∧ y < i.height ∧ i.HoldsAt (i.position x y % i.reach) v) ∧
      ((∀ v, i.texel? x y = some v ↔ x < i.width ∧ y < i.height ∧ i.HoldsAt (i.position x y) v) ↔
        ¬i.Wraps x y) := by
  refine ⟨fun v => BufferSnapshot.element?_eq_some_iff, fun v found => ?_,
    fun v => ImageSnapshot.texel?_eq_some_iff stored, ImageSnapshot.exact_iff stored⟩
  have holds := BufferSnapshot.element?_eq_some_iff.1 found
  exact ⟨congrArg Value.ty holds.2, holds.components⟩

/-- A second texel of which two bytes are missing, beside a matrix with a lane too many. -/
theorem Snapshot.accessors_exact_short :
    let b : BufferSnapshot := ⟨"m", .mat3, [1, 2, 3, 4, 5, 6, 7, 8, 9, 10]⟩
    let i : ImageSnapshot := ⟨"t", .rgba8, 2, 1, [255, 0, 0, 255, 0, 255]⟩
    i.texels.length < ImageSnapshot.offsetLimit ∧
      (∃ v, b.element? 0 = some v ∧ v.components.length = 9) ∧ b.element? 1 = none ∧
      (∃ v, i.texel? 0 0 = some v) ∧ i.texel? 1 0 = none := by
  intro b i
  have stored : i.texels.length < ImageSnapshot.offsetLimit := by decide
  have first := accessors_exact b i 0 0 0 stored
  have second := accessors_exact b i 1 1 0 stored
  refine ⟨stored, ?_, ?_, ?_, ?_⟩
  · have found := (first.1 _).2 ⟨by decide, rfl⟩
    refine ⟨_, found, ?_⟩
    rw [(first.2.1 _ found).2]
    rfl
  · refine Option.eq_none_iff_forall_ne_some.2 fun v found => ?_
    exact absurd ((second.1 v).1 found).1 (by decide)
  · exact ⟨_, (first.2.2.1 _).2 ⟨by decide, by decide, by decide, rfl⟩⟩
  · refine Option.eq_none_iff_forall_ne_some.2 fun v found => ?_
    exact absurd ((second.2.2.1 v).1 found).2.2.1 (by decide)

/-- A texel inside a huge extent answers with the bytes of the first one, though its own are far from there. -/
theorem ImageSnapshot.texel?_wraps :
    let i : ImageSnapshot := ⟨"t", .r32ui, 2147483648, 2147483649, [7, 0, 0, 0]⟩
    ¬(i.position 0 2147483648 + 1) * i.format.texelSize ≤ i.texels.length ∧
      i.texel? 0 2147483648 = some (Value.ofBits (.vector .uint .four) [7, 0, 0, 1]) := by
  decide

end ComputeShader
