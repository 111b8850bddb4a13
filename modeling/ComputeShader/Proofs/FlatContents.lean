import ComputeShader.Proofs.ResourceFills
import ComputeShader.Proofs.StoreRepresentation

/-! # Flat contents

A store keeps a buffer element by element and an image texel by texel. Laid out flat, as they are frozen, they
are one run of lanes and one run of bytes, and the place `i` begins `i` sizes into the run. An operation on the
store is one on these runs: it loads a slice, replaces a run as a whole, or puts one slice in the place of
another one of the same length, at the offset of the place that it takes. All else of the run stays as it is.
-/

namespace ComputeShader

/-! ## Slices in runs -/

/-- A run with another slice from `i * size` to `(i + 1) * size`. -/
def splice {α : Type} (run : List α) (size i : Nat) (slice : List α) : List α :=
  run.take (i * size) ++ (slice ++ run.drop ((i + 1) * size))

section Pieces

variable {α : Type} {pieces : Array (List α)} {piece : List α} {size i : Nat}

/-- To set one of the pieces is to set its slice in the run that they make. -/
theorem flatten_setIfInBounds (each : ∀ i, i < pieces.size → (pieces.getD i []).length = size)
    (inside : i < pieces.size) :
    (pieces.setIfInBounds i piece).toList.flatten = splice pieces.toList.flatten size i piece := by
  have sizes : ∀ piece ∈ pieces.toList, piece.length = size := fun _ => Snapshot.length_of_mem_toList each
  have inside : i < pieces.toList.length := inside
  rw [Array.toList_setIfInBounds, List.set_eq_take_append_cons_drop, if_pos inside, List.flatten_append,
    List.flatten_cons, splice, take_flatten sizes, drop_flatten sizes]

end Pieces

/-! ## Lanes and bytes -/

namespace Buffer

variable {b b' : Buffer} {i : Nat}

theorem lanes_zeros (name : String) (element : ValueType) (length : Nat) :
    (Store.freezeBuffer (zeros name element length)).lanes =
      List.replicate (length * element.components) 0 := by
  rw [Store.freezeBuffer, zeros, Array.toList_replicate, List.flatten_replicate_replicate]

/-- A buffer that differs from another one in one element differs from it in one slice of its lanes. -/
theorem Proper.lanes_of_bits (proper : b.Proper) (frame : b'.frame = b.frame) (inside : i < b.length)
    (same : ∀ j, j ≠ i → b'.bits j = b.bits j) :
    (Store.freezeBuffer b').lanes =
      splice (Store.freezeBuffer b).lanes b.element.components i (b'.bits i) := by
  have set : b' = b.set i (b'.bits i) := by
    refine eq_of_bits (frame.trans (b.frame_set i _).symm) fun j => ?_
    rw [bits_set]
    by_cases here : j = i
    · rw [if_pos ⟨here, inside⟩, here]
    · rw [if_neg fun held => here held.1, same j here]
  rw [set, bits_set, if_pos ⟨rfl, inside⟩]
  exact flatten_setIfInBounds (fun j bound => (proper j bound).1) inside

end Buffer

namespace Image

variable {i i' : Image} {t : Nat}

theorem texels_zeros (name : String) (format : TexelFormat) (width height : UInt32) :
    (Store.freezeImage (zeros name format width height)).texels =
      List.replicate (width.toNat * height.toNat * format.texelSize) 0 := by
  rw [Store.freezeImage, zeros, Array.toList_replicate, TexelFormat.zeroTexel, List.flatten_replicate_replicate]

/-- An image that differs from another one in one texel differs from it in one slice of its bytes. -/
theorem Proper.texels_of_bytes (proper : i.Proper) (frame : i'.frame = i.frame) (inside : t < i.texels.size)
    (same : ∀ u, u ≠ t → i'.bytes u = i.bytes u) :
    (Store.freezeImage i').texels =
      splice (Store.freezeImage i).texels i.format.texelSize t (i'.bytes t) := by
  have set : i' = i.set t (i'.bytes t) := by
    refine eq_of_bytes (frame.trans (i.frame_set t _).symm) fun u => ?_
    rw [bytes_set]
    by_cases here : u = t
    · rw [if_pos ⟨here, inside⟩, here]
    · rw [if_neg fun held => here held.1, same u here]
  rw [set, bytes_set, if_pos ⟨rfl, inside⟩]
  exact flatten_setIfInBounds proper.2 inside

end Image

/-! ## Loads -/

namespace Store

variable {s t : Store} {allocated? : Option Resource} {binding : Binding} {me : InvocationId} {i : Nat}

/-- What a read answers is made of one slice of the lanes. -/
theorem answer_read_slice (proper : s.WellFormed) {b : Buffer} (found : s.buffers.get? binding = some b)
    {index : Int} (stands : s.elementAt? binding index = some ⟨.buffer binding, i⟩) :
    ∃ slice, ComputeShader.slice? (freezeBuffer b).lanes b.element.components i = some slice ∧
      answer (read binding index me s) = .ok (.ofBits b.element slice) := by
  rw [elementAt?_eq found] at stands
  obtain ⟨_, inside, same⟩ := Option.map_eq_some_iff.1 stands
  obtain rfl := congrArg Location.index same
  refine ⟨_, (proper.buffers binding b found).slice?_lanes (Resolution.index_lt inside), ?_⟩
  rw [read_eq found, answer_touching, Store.found, Resolution.index?_eq_some.1 inside]
  rfl

/-- What an image load answers is decoded from one slice of the bytes. -/
theorem answer_imageLoad_slice (proper : s.WellFormed) {image : Image}
    (found : s.images.get? binding = some image) {x y : Int}
    (stands : s.texelAt? binding x y = some ⟨.image binding, i⟩) :
    ∃ slice, ComputeShader.slice? (freezeImage image).texels image.format.texelSize i = some slice ∧
      answer (imageLoad binding x y me s) = .ok (image.format.decode slice) := by
  rw [texelAt?_eq found] at stands
  obtain ⟨_, inside, same⟩ := Option.map_eq_some_iff.1 stands
  obtain rfl := congrArg Location.index same
  have whole := proper.images binding image found
  refine ⟨_, whole.slice?_texels (whole.1 ▸ Resolution.texel_lt inside), ?_⟩
  rw [imageLoad_eq found, answer_touching, Store.found, Resolution.index?_eq_some.1 inside]
  rfl

/-! ## Operations -/

/-- A buffer that is not allocated anew keeps its frame. -/
theorem Changes.buffer_framed (changes : s.Changes allocated? t) {b : Buffer}
    (found : s.buffers.get? binding = some b) (other : allocated? ≠ some (.buffer binding)) :
    ∃ b', t.buffers.get? binding = some b' ∧ b'.frame = b.frame := by
  cases changes with
  | contents frame proper => exact buffer_of_frame frame found
  | buffer length found' allocated =>
    have differ : binding ≠ _ := fun same => other (allocated.trans (by rw [same]))
    exact ⟨b, (Bindings.get?_modify_of_ne differ).trans found, rfl⟩
  | image | texture | uniform => exact ⟨b, found, rfl⟩

/-- An image that is not allocated anew keeps its frame. -/
theorem Changes.image_framed (changes : s.Changes allocated? t) {i : Image}
    (found : s.images.get? binding = some i) (other : allocated? ≠ some (.image binding)) :
    ∃ i', t.images.get? binding = some i' ∧ i'.frame = i.frame := by
  cases changes with
  | contents frame proper => exact image_of_frame frame found
  | image width height found' allocated =>
    have differ : binding ≠ _ := fun same => other (allocated.trans (by rw [same]))
    exact ⟨i, (Bindings.get?_modify_of_ne differ).trans found, rfl⟩
  | buffer | texture | uniform => exact ⟨i, found, rfl⟩

end Store

namespace Operation

variable {s : Store} {op : Operation} {p q : Location} {r : Resource} {binding : Binding}

/-- An operation takes one slice at most. -/
theorem Takes.unique (takes : op.Takes s p) (other : op.Takes s q) : p = q := by
  cases takes with
  | element ran =>
    cases other
    rfl
  | texel found ran =>
    cases other with
    | texel found' ran' =>
      obtain rfl := Option.some.inj (found.symm.trans found')
      rfl
  | access stands =>
    cases other with
    | access stands' => exact Option.some.inj (stands.symm.trans stands')

theorem renews?_of_allocates? (allocates : op.allocates? = some r) : op.renews? = some r := by
  cases op with
  | seed call =>
    cases call with
    | allocateBuffer | allocateImage => exact allocates
    | element | texel | texture | uniform => cases allocates
  | _ => cases allocates

/-- On the lanes of a buffer that it does not replace as a whole, an operation puts one slice in the place of
another one, or it does nothing. -/
theorem lanes_perform (proper : s.WellFormed) (allowed : op.Allowed s) {b : Buffer}
    (found : s.buffers.get? binding = some b) (kept : op.renews? ≠ some (.buffer binding)) :
    ∃ b', (op.perform s).buffers.get? binding = some b' ∧ b'.frame = b.frame ∧
      ((∃ i, op.Takes s ⟨.buffer binding, i⟩ ∧ i < b.length ∧ (b'.bits i).length = b.element.components ∧
          (Store.freezeBuffer b').lanes =
            splice (Store.freezeBuffer b).lanes b.element.components i (b'.bits i)) ∨
        (∀ i, ¬ op.Takes s ⟨.buffer binding, i⟩) ∧ b' = b) := by
  have changes := Store.changes proper op allowed
  obtain ⟨b', found', frame⟩ := changes.buffer_framed found fun allocates => kept (renews?_of_allocates? allocates)
  have untaken {i : Nat} (elsewhere : ¬ op.Takes s ⟨.buffer binding, i⟩) : b'.bits i = b.bits i := by
    have cell := cell_perform proper elsewhere kept
    rwa [Store.cell, Store.cell, found, found'] at cell
  refine ⟨b', found', frame, ?_⟩
  by_cases taken : ∃ i, op.Takes s ⟨.buffer binding, i⟩
  · obtain ⟨i, takes⟩ := taken
    obtain ⟨_, held, inside⟩ := takes.has
    obtain rfl := Option.some.inj (found.symm.trans held)
    have holds := (changes.wellFormed proper).buffers binding b' found' i
      (Buffer.length_of_frame frame ▸ inside)
    refine .inl ⟨i, takes, inside, Buffer.element_of_frame frame ▸ holds.1, ?_⟩
    refine (proper.buffers binding b found).lanes_of_bits frame inside fun j differ => untaken fun also => ?_
    exact differ (congrArg Location.index (also.unique takes))
  · have nowhere := not_exists.1 taken
    exact .inr ⟨nowhere, Buffer.eq_of_bits frame fun i => untaken (nowhere i)⟩

/-- The lanes of a buffer that an operation replaces as a whole are zeros, or one value over and over. -/
theorem lanes_renewed {b : Buffer} (found : s.buffers.get? binding = some b)
    (renews : op.renews? = some (.buffer binding)) :
    ∃ b', (op.perform s).buffers.get? binding = some b' ∧
      ((∃ length, op = .seed (.allocateBuffer binding length) ∧
          (Store.freezeBuffer b').lanes = List.replicate (length * b.element.components) 0) ∨
        ∃ v, op = .fillBuffer binding v ∧
          (Store.freezeBuffer b').lanes = (List.replicate b.length v.bits).flatten) := by
  cases op with
  | seed call =>
    cases call with
    | allocateBuffer other length =>
      cases renews
      have ran : Store.allocateBuffer binding length s =
          .ok () (s.putBuffer binding (.zeros b.name b.element length)) :=
        Store.bind_eq (Store.seedBufferAt_eq found)
      refine ⟨_, ?_, .inl ⟨length, rfl, Buffer.lanes_zeros b.name b.element length⟩⟩
      rw [perform, Seeding.run, ran]
      exact Store.get?_putBuffer found
    | _ => cases renews
  | fillBuffer other v =>
    cases renews
    refine ⟨{ b with elements := Array.replicate b.length v.bits }, ?_, .inr ⟨v, rfl, ?_⟩⟩
    · rw [perform, Store.fillBuffer, Store.modifyBuffer_eq_put found]
      exact Store.get?_putBuffer found
    · rw [Store.freezeBuffer, Array.toList_replicate]
  | _ => cases renews

/-- On the bytes of an image that it does not replace as a whole, an operation puts one slice in the place of
another one, or it does nothing. -/
theorem texels_perform (proper : s.WellFormed) (allowed : op.Allowed s) {i : Image}
    (found : s.images.get? binding = some i) (kept : op.renews? ≠ some (.image binding)) :
    ∃ i', (op.perform s).images.get? binding = some i' ∧ i'.frame = i.frame ∧
      ((∃ t, op.Takes s ⟨.image binding, t⟩ ∧ t < i.texels.size ∧
          (i'.bytes t).length = i.format.texelSize ∧
          (Store.freezeImage i').texels =
            splice (Store.freezeImage i).texels i.format.texelSize t (i'.bytes t)) ∨
        (∀ t, ¬ op.Takes s ⟨.image binding, t⟩) ∧ i' = i) := by
  have changes := Store.changes proper op allowed
  obtain ⟨i', found', frame⟩ := changes.image_framed found fun allocates => kept (renews?_of_allocates? allocates)
  have was := proper.images binding i found
  have is := (changes.wellFormed proper).images binding i' found'
  have untaken {t : Nat} (elsewhere : ¬ op.Takes s ⟨.image binding, t⟩) : i'.bytes t = i.bytes t := by
    have cell := cell_perform proper elsewhere kept
    rw [Store.cell, Store.cell, found, found', Option.map_some, Option.map_some, Option.getD_some,
      Option.getD_some] at cell
    rw [← is.flatMap_words t, cell, was.flatMap_words t]
  refine ⟨i', found', frame, ?_⟩
  by_cases taken : ∃ t, op.Takes s ⟨.image binding, t⟩
  · obtain ⟨t, takes⟩ := taken
    obtain ⟨_, held, inside⟩ := takes.has
    obtain rfl := Option.some.inj (found.symm.trans held)
    have bound : t < i.texels.size := was.1 ▸ inside
    have sized := is.2 t (Image.size_of_frame frame ▸ bound)
    refine .inl ⟨t, takes, bound, Image.format_of_frame frame ▸ sized, ?_⟩
    refine was.texels_of_bytes frame bound fun u differ => untaken fun also => ?_
    exact differ (congrArg Location.index (also.unique takes))
  · have nowhere := not_exists.1 taken
    exact .inr ⟨nowhere, Image.eq_of_bytes frame fun t => untaken (nowhere t)⟩

/-- The bytes of an image that an operation replaces as a whole are zeros, or those of one texel over and
over. -/
theorem texels_renewed {i : Image} (found : s.images.get? binding = some i)
    (renews : op.renews? = some (.image binding)) :
    ∃ i', (op.perform s).images.get? binding = some i' ∧
      ((∃ width height, op = .seed (.allocateImage binding width height) ∧
          (Store.freezeImage i').texels =
            List.replicate (width.toNat * height.toNat * i.format.texelSize) 0) ∨
        ∃ bytes, op = .fillImage binding bytes ∧
          (Store.freezeImage i').texels = (List.replicate i.texels.size bytes).flatten) := by
  cases op with
  | seed call =>
    cases call with
    | allocateImage other width height =>
      cases renews
      have ran : Store.allocateImage binding width height s =
          .ok () (s.putImage binding (.zeros i.name i.format width height)) :=
        Store.bind_eq (Store.seedImageAt_eq found)
      refine ⟨_, ?_, .inl ⟨width, height, rfl, Image.texels_zeros i.name i.format width height⟩⟩
      rw [perform, Seeding.run, ran]
      exact Store.get?_putImage found
    | _ => cases renews
  | fillImage other bytes =>
    cases renews
    refine ⟨{ i with texels := Array.replicate i.texels.size bytes }, ?_, .inr ⟨bytes, rfl, ?_⟩⟩
    · rw [perform, Store.fillImage, Store.modifyImage_eq_put found]
      exact Store.get?_putImage found
    · rw [Store.freezeImage, Array.toList_replicate]
  | _ => cases renews

end Operation

end ComputeShader
