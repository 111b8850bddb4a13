import ComputeShader.Proofs.SeedLayers

/-! # Filling resources

To fill a resource is to seed each of its places in turn: the elements of a buffer by their indices, the texels
of an image row by row. The loop leaves everything else of the store as it is, and so it is a fold over the
resource, which is put back at its binding.
-/

namespace ComputeShader

theorem Bindings.modify_self {α : Type} {m : Bindings α} {key : Binding} {a : α} (found : m.get? key = some a) :
    (m.modify key fun _ => a) = m := by
  refine ext_get? fun other => ?_
  rw [get?_modify]
  split
  · next here => rw [here, found, Option.map_some]
  · rfl

section Cells

variable {α : Type} {cells : Array α} {cell : α} {positions : List Nat}

theorem getElem?_foldl_set (cells : Array α) (cell : α) (positions : List Nat) (j : Nat) :
    (positions.foldl (fun cells i => cells.setIfInBounds i cell) cells)[j]? =
      if j ∈ positions ∧ j < cells.size then some cell else cells[j]? := by
  induction positions generalizing cells with
  | nil => rw [List.foldl_nil, if_neg fun held => List.not_mem_nil held.1]
  | cons i rest ih =>
    rw [List.foldl_cons, ih, Array.size_setIfInBounds, Array.getElem?_setIfInBounds]
    simp only [List.mem_cons]
    grind

/-- To set the cells at all positions is to fill the array. -/
theorem foldl_set_eq_replicate (all : ∀ i, i < cells.size → i ∈ positions) :
    positions.foldl (fun cells i => cells.setIfInBounds i cell) cells = Array.replicate cells.size cell := by
  refine Array.ext_getElem? fun j => ?_
  rw [getElem?_foldl_set, Array.getElem?_replicate]
  by_cases inside : j < cells.size
  · rw [if_pos ⟨all j inside, inside⟩, if_pos inside]
  · rw [if_neg fun held => inside held.2, if_neg inside, Array.getElem?_eq_none (Nat.not_lt.1 inside)]

end Cells

namespace Buffer

theorem foldl_set (b : Buffer) (bits : List UInt32) (indices : List Nat) :
    indices.foldl (fun b i => b.set i bits) b =
      { b with elements := indices.foldl (fun elements i => elements.setIfInBounds i bits) b.elements } := by
  induction indices generalizing b with
  | nil => rfl
  | cons i rest ih => exact ih (b.set i bits)

/-- All elements are set, one after the other. -/
theorem foldl_set_range (b : Buffer) (bits : List UInt32) :
    (List.range b.length).foldl (fun b i => b.set i bits) b =
      { b with elements := Array.replicate b.length bits } := by
  have all : ∀ i, i < b.elements.size → i ∈ List.range b.length := fun _ inside => List.mem_range.2 inside
  rw [foldl_set, foldl_set_eq_replicate all]
  rfl

end Buffer

namespace Image

theorem foldl_set (i : Image) (bytes : List UInt8) (positions : List Nat) :
    positions.foldl (fun i t => i.set t bytes) i =
      { i with texels := positions.foldl (fun texels t => texels.setIfInBounds t bytes) i.texels } := by
  induction positions generalizing i with
  | nil => rfl
  | cons t rest ih => exact ih (i.set t bytes)

/-- The coordinates of the texels, row by row. -/
def coordinates (i : Image) : List (UInt32 × UInt32) :=
  (List.range i.height.toNat).flatMap fun y => (List.range i.width.toNat).map fun x => (.ofNat x, .ofNat y)

/-- The position of the texel at a pair of coordinates. -/
def positionAt (i : Image) (c : UInt32 × UInt32) : Nat := i.position c.1.toNat c.2.toNat

theorem inside_of_mem_coordinates {i : Image} {c : UInt32 × UInt32} (member : c ∈ i.coordinates) :
    c.1 < i.width ∧ c.2 < i.height := by
  obtain ⟨y, row, held⟩ := List.mem_flatMap.1 member
  obtain ⟨x, column, rfl⟩ := List.mem_map.1 held
  have left := List.mem_range.1 column
  have above := List.mem_range.1 row
  constructor
  · rw [UInt32.lt_iff_toNat_lt, UInt32.toNat_ofNat_of_lt' (left.trans i.width.toNat_lt)]
    exact left
  · rw [UInt32.lt_iff_toNat_lt, UInt32.toNat_ofNat_of_lt' (above.trans i.height.toNat_lt)]
    exact above

/-- Every texel is at some coordinates. -/
theorem mem_positions {i : Image} {t : Nat} (inside : t < i.width.toNat * i.height.toNat) :
    t ∈ i.coordinates.map i.positionAt := by
  have some : 0 < i.width.toNat := Nat.pos_of_mul_pos_right (Nat.zero_lt_of_lt inside)
  have left : t % i.width.toNat < i.width.toNat := Nat.mod_lt t some
  have above : t / i.width.toNat < i.height.toNat := Nat.div_lt_of_lt_mul inside
  refine List.mem_map.2 ⟨(.ofNat (t % i.width.toNat), .ofNat (t / i.width.toNat)), ?_, ?_⟩
  · exact List.mem_flatMap.2 ⟨_, List.mem_range.2 above, List.mem_map.2 ⟨_, List.mem_range.2 left, rfl⟩⟩
  · rw [positionAt, position, UInt32.toNat_ofNat_of_lt' (left.trans i.width.toNat_lt),
      UInt32.toNat_ofNat_of_lt' (above.trans i.height.toNat_lt), Nat.mul_comm]
    exact Nat.div_add_mod t _

/-- All texels are set, one after the other. -/
theorem foldl_set_coordinates (i : Image) (proper : i.Proper) (bytes : List UInt8) :
    i.coordinates.foldl (fun i' c => i'.set (i.positionAt c) bytes) i =
      { i with texels := Array.replicate i.texels.size bytes } := by
  have byPosition : i.coordinates.foldl (fun i' c => i'.set (i.positionAt c) bytes) i =
      (i.coordinates.map i.positionAt).foldl (fun i' t => i'.set t bytes) i := by
    rw [List.foldl_map]
  have all : ∀ t, t < i.texels.size → t ∈ i.coordinates.map i.positionAt :=
    fun _ inside => mem_positions (proper.1 ▸ inside)
  rw [byPosition, foldl_set, foldl_set_eq_replicate all]

end Image

namespace Store

variable {s : Store} {binding : Binding} {α β : Type}

/-- Operations in turn, each of which changes only what stands at one place of a store. -/
theorem forM_eq_foldl {place : β → Store} {f : α → StoreM Unit} {step : β → α → β} (Kept : β → Prop)
    {as : List α} {b : β} (kept : Kept b)
    (each : ∀ a ∈ as, ∀ b, Kept b → f a (place b) = .ok () (place (step b a)) ∧ Kept (step b a)) :
    as.forM f (place b) = .ok () (place (as.foldl step b)) := by
  induction as generalizing b with
  | nil => rfl
  | cons a rest ih =>
    obtain ⟨ran, kept'⟩ := each a List.mem_cons_self b kept
    exact (bind_eq ran).trans (ih kept' fun a' member => each a' (List.mem_cons_of_mem a member))

/-! ## Buffers -/

/-- The store with another buffer at a binding. -/
def putBuffer (s : Store) (binding : Binding) (b : Buffer) : Store :=
  { s with buffers := s.buffers.modify binding fun _ => b }

section

variable {b b' : Buffer} {v : Value}

theorem get?_putBuffer (found : s.buffers.get? binding = some b) :
    (s.putBuffer binding b').buffers.get? binding = some b' := by
  rw [putBuffer, Bindings.get?_modify, if_pos rfl, found]
  rfl

theorem putBuffer_self (found : s.buffers.get? binding = some b) : s.putBuffer binding b = s := by
  rw [putBuffer, Bindings.modify_self found]

theorem putBuffer_putBuffer : (s.putBuffer binding b).putBuffer binding b' = s.putBuffer binding b' := by
  simp only [putBuffer, Bindings.modify_modify]
  rfl

theorem modifyBuffer_eq_put (found : s.buffers.get? binding = some b) (f : Buffer → Buffer) :
    modifyBuffer binding f s = .ok () (s.putBuffer binding (f b)) := by
  have same : s.buffers.modify binding f = s.buffers.modify binding fun _ => f b :=
    Bindings.modify_congr found rfl
  rw [putBuffer, ← same]
  rfl

theorem seedElement_eq_put {index : Nat} (found : s.buffers.get? binding = some b) (typed : v.ty = b.element)
    (inside : index < b.length) :
    seedElement binding index v s = .ok () (s.putBuffer binding (b.set index v.bits)) := by
  have begun : seedElement binding index v s = _ := bind_eq (seedBufferAt_eq found)
  have checked := begun.trans (congrFun (if_neg (not_not_intro typed)) s)
  have reached := checked.trans (congrFun (if_neg (Nat.not_le.2 inside)) s)
  exact reached.trans (modifyBuffer_eq_put found _)

/-- To fill a buffer is to seed its elements, from the first to the last one. -/
theorem fillBuffer_eq_forM (found : s.buffers.get? binding = some b) (typed : v.ty = b.element) :
    fillBuffer binding v s = (List.range b.length).forM (fun i => seedElement binding i v) s := by
  have seeds : ∀ i ∈ List.range b.length, ∀ b', b'.frame = b.frame →
      seedElement binding i v (s.putBuffer binding b') = .ok () (s.putBuffer binding (b'.set i v.bits)) ∧
        (b'.set i v.bits).frame = b.frame := by
    intro i member b' framed
    have element := Buffer.element_of_frame framed
    have inside : i < b'.length := Buffer.length_of_frame framed ▸ List.mem_range.1 member
    refine ⟨?_, (Buffer.frame_set ..).trans framed⟩
    rw [seedElement_eq_put (get?_putBuffer found) (typed.trans element.symm) inside, putBuffer_putBuffer]
  have folded := forM_eq_foldl (fun b' : Buffer => b'.frame = b.frame) rfl seeds
  rw [putBuffer_self found, Buffer.foldl_set_range] at folded
  exact (modifyBuffer_eq_put found _).trans folded.symm

end

/-! ## Images -/

/-- The store with another image at a binding. -/
def putImage (s : Store) (binding : Binding) (i : Image) : Store :=
  { s with images := s.images.modify binding fun _ => i }

section

variable {i i' : Image} {bytes : List UInt8}

theorem get?_putImage (found : s.images.get? binding = some i) :
    (s.putImage binding i').images.get? binding = some i' := by
  rw [putImage, Bindings.get?_modify, if_pos rfl, found]
  rfl

theorem putImage_self (found : s.images.get? binding = some i) : s.putImage binding i = s := by
  rw [putImage, Bindings.modify_self found]

theorem putImage_putImage : (s.putImage binding i).putImage binding i' = s.putImage binding i' := by
  simp only [putImage, Bindings.modify_modify]
  rfl

theorem modifyImage_eq_put (found : s.images.get? binding = some i) (f : Image → Image) :
    modifyImage binding f s = .ok () (s.putImage binding (f i)) := by
  have same : s.images.modify binding f = s.images.modify binding fun _ => f i :=
    Bindings.modify_congr found rfl
  rw [putImage, ← same]
  rfl

theorem seedTexel_eq_put {x y : UInt32} (found : s.images.get? binding = some i)
    (sized : bytes.length = i.format.texelSize) (left : x < i.width) (above : y < i.height) :
    seedTexel binding x y bytes s =
      .ok () (s.putImage binding (i.set (i.position x.toNat y.toNat) bytes)) := by
  have within : ¬ (i.width ≤ x ∨ i.height ≤ y) := not_or.2 ⟨UInt32.not_le.2 left, UInt32.not_le.2 above⟩
  have begun : seedTexel binding x y bytes s = _ := bind_eq (seedImageAt_eq found)
  have reached := begun.trans (congrFun (if_neg within) s)
  have checked := reached.trans (congrFun (if_neg (not_not_intro sized)) s)
  exact checked.trans (modifyImage_eq_put found _)

/-- To fill an image is to seed its texels, row by row. -/
theorem fillImage_eq_forM (found : s.images.get? binding = some i) (proper : i.Proper)
    (sized : bytes.length = i.format.texelSize) :
    fillImage binding bytes s = i.coordinates.forM (fun c => seedTexel binding c.1 c.2 bytes) s := by
  have seeds : ∀ c ∈ i.coordinates, ∀ i', i'.frame = i.frame →
      seedTexel binding c.1 c.2 bytes (s.putImage binding i') =
          .ok () (s.putImage binding (i'.set (i.positionAt c) bytes)) ∧
        (i'.set (i.positionAt c) bytes).frame = i.frame := by
    intro c member i' framed
    have format := Image.format_of_frame framed
    have width := Image.width_of_frame framed
    have height := Image.height_of_frame framed
    have position : i'.position c.1.toNat c.2.toNat = i.positionAt c := by
      rw [Image.position, Image.positionAt, Image.position, width]
    obtain ⟨left, above⟩ := Image.inside_of_mem_coordinates member
    refine ⟨?_, (Image.frame_set ..).trans framed⟩
    rw [seedTexel_eq_put (get?_putImage found) (format ▸ sized) (width ▸ left) (height ▸ above),
      putImage_putImage, position]
  have folded := forM_eq_foldl (fun i' : Image => i'.frame = i.frame) rfl seeds
  rw [putImage_self found, i.foldl_set_coordinates proper] at folded
  exact (modifyImage_eq_put found _).trans folded.symm

end

end Store

end ComputeShader
