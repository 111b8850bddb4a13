import ComputeShader.Proofs.Permissions

/-! # What operations make of a store

A store is created, set up, accessed by invocations and told of faults and races, in any order. Whatever
the operation, the store that it leaves has the frame of the one before, unless it allocates a buffer or
an image anew, replaces a texture or sets the values of a uniform. `Changes` says this once for all
operations.
-/

namespace ComputeShader

/-- An operation of a store: what sets it up, what invocations ask of it and what a dispatch notes there. -/
inductive Operation where
  | seed (call : Seeding)
  | fillBuffer (binding : Binding) (v : Value)
  | fillImage (binding : Binding) (bytes : List UInt8)
  | access (call : StoreCall) (me : InvocationId)
  | resolve (label : String) (index : Int) (extent : Nat) (me : InvocationId)
  | uniform (slot : Nat) (element : Option Int) (me : InvocationId)
  | length (binding : Binding)
  | imageSize (binding : Binding)
  | sample (sampler : Sampler) (binding : Binding) (r : SampleRequest)
  | recordFault (e : EngineError) (me : InvocationId)
  | reportRace (c : Conflict)
  | takeConflicts

namespace Operation

/-- The store that an operation leaves, whether or not it fails. -/
def perform (s : Store) : Operation → Store
  | seed call => Store.left (call.run s)
  | fillBuffer binding v => Store.left (Store.fillBuffer binding v s)
  | fillImage binding bytes => Store.left (Store.fillImage binding bytes s)
  | access call me => Store.left (call.run me s)
  | resolve label index extent me => Store.left (Store.resolve label index extent me s)
  | uniform slot element me => Store.left (Store.uniform slot element me s)
  | length binding => Store.left (Store.length binding s)
  | imageSize binding => Store.left (Store.imageSize binding s)
  | sample sampler binding r => Store.left (Store.sample sampler binding r s)
  | recordFault e me => s.recordFault e me
  | reportRace c => s.reportRace c
  | takeConflicts => { s with conflicts := [] }

/-- What fills a resource has been checked to fit its elements; all other operations check for
themselves. -/
def Allowed (s : Store) : Operation → Prop
  | fillBuffer binding v => ∀ b, s.buffers.get? binding = some b → v.ty = b.element
  | fillImage binding bytes =>
    ∀ i, s.images.get? binding = some i → bytes.length = i.format.texelSize
  | _ => True

/-- The resource that an operation allocates anew. -/
def allocates? : Operation → Option Resource
  | seed (.allocateBuffer binding _) => some (.buffer binding)
  | seed (.allocateImage binding _ _) => some (.image binding)
  | _ => none

end Operation

/-- The stores that operations make of a created one. -/
inductive Operated (shader : Shader) (config : EngineConfig) : Store → Prop
  | created : Operated shader config (.create shader config)
  | performed {s : Store} (op : Operation) (before : Operated shader config s) (allowed : op.Allowed s) :
      Operated shader config (op.perform s)

theorem Seeded.operated {shader : Shader} {s : Store} (seeded : Seeded shader s) :
    ∃ config, Operated shader config s := by
  induction seeded with
  | created config => exact ⟨config, .created⟩
  | seeded call _ ran ih =>
    obtain ⟨config, before⟩ := ih
    have after := before.performed (.seed call) trivial
    rw [Operation.perform, ran] at after
    exact ⟨config, after⟩
  | filledBuffer binding v _ typed ran ih =>
    obtain ⟨config, before⟩ := ih
    have after := before.performed (.fillBuffer binding v) typed
    rw [Operation.perform, ran] at after
    exact ⟨config, after⟩
  | filledImage binding bytes _ sized ran ih =>
    obtain ⟨config, before⟩ := ih
    have after := before.performed (.fillImage binding bytes) sized
    rw [Operation.perform, ran] at after
    exact ⟨config, after⟩

/-- Only what a function makes of the value at a key matters. -/
theorem Bindings.modify_congr {α : Type} {b : Bindings α} {key : Binding} {value : α} {f g : α → α}
    (found : b.get? key = some value) (same : f value = g value) : b.modify key f = b.modify key g := by
  refine ext_get? fun other => ?_
  rw [get?_modify, get?_modify]
  split
  · next here => rw [here, found, Option.map_some, Option.map_some, same]
  · rfl

theorem Buffer.frame_fill (b : Buffer) (bits : List UInt32) :
    Buffer.frame { b with elements := Array.replicate b.length bits } = b.frame := by
  simp [frame, length]

theorem Image.frame_fill (i : Image) (bytes : List UInt8) :
    Image.frame { i with texels := Array.replicate i.texels.size bytes } = i.frame := by
  simp [frame]

theorem Image.position_lt_mul {i : Image} {x y : Nat} (left : x < i.width.toNat)
    (above : y < i.height.toNat) : i.position x y < i.width.toNat * i.height.toNat :=
  calc i.position x y < (y + 1) * i.width.toNat := by
        rw [position, Nat.succ_mul]
        exact Nat.add_lt_add_left left _
    _ ≤ i.height.toNat * i.width.toNat := Nat.mul_le_mul_right _ above
    _ = i.width.toNat * i.height.toNat := Nat.mul_comm ..

theorem Image.position_lt {i : Image} {x y : UInt32} (left : x < i.width) (above : y < i.height) :
    i.position x.toNat y.toNat < i.width.toNat * i.height.toNat :=
  position_lt_mul (UInt32.lt_iff_toNat_lt.1 left) (UInt32.lt_iff_toNat_lt.1 above)

namespace Store

variable {s s' : Store} {binding : Binding}

/-! ## Seeding -/

theorem seedBufferAt_eq {b : Buffer} (found : s.buffers.get? binding = some b) :
    seedBufferAt binding s = .ok b s := by
  rw [seedBufferAt, get_bind, found]
  rfl

theorem seedBufferAt_eq_error (missing : s.buffers.get? binding = none) :
    seedBufferAt binding s = .error (.invalidSeed (bufferTarget binding) .noBuffer) s := by
  rw [seedBufferAt, get_bind, missing]
  rfl

theorem seedImageAt_eq {i : Image} (found : s.images.get? binding = some i) :
    seedImageAt binding s = .ok i s := by
  rw [seedImageAt, get_bind, found]
  rfl

theorem seedImageAt_eq_error (missing : s.images.get? binding = none) :
    seedImageAt binding s = .error (.invalidSeed (imageTarget binding) .noImage) s := by
  rw [seedImageAt, get_bind, missing]
  rfl

theorem left_ok {α : Type} (a : α) (s : Store) : left (.ok a s : EStateM.Result EngineError Store α) = s :=
  rfl

/-- Whether an operation fails and leaves the store as it was. -/
def Refuses {α : Type} (s : Store) (x : StoreM α) : Prop := ∃ e, x s = .error e s

theorem Refuses.left_eq {α : Type} {x : StoreM α} (refuses : s.Refuses x) : left (x s) = s := by
  obtain ⟨e, failed⟩ := refuses
  rw [failed]
  rfl

theorem allocateBuffer_cases (s : Store) (binding : Binding) (length : Nat) :
    s.Refuses (allocateBuffer binding length) ∨ ∃ b, s.buffers.get? binding = some b ∧
      allocateBuffer binding length s =
        .ok () { s with buffers := s.buffers.modify binding fun _ => .zeros b.name b.element length } := by
  cases found : s.buffers.get? binding with
  | none => exact .inl ⟨_, bind_eq_error (seedBufferAt_eq_error found)⟩
  | some b => exact .inr ⟨b, rfl, bind_eq (seedBufferAt_eq found)⟩

theorem allocateImage_cases (s : Store) (binding : Binding) (width height : UInt32) :
    s.Refuses (allocateImage binding width height) ∨ ∃ i, s.images.get? binding = some i ∧
      allocateImage binding width height s = .ok ()
        { s with images := s.images.modify binding fun _ => .zeros i.name i.format width height } := by
  cases found : s.images.get? binding with
  | none => exact .inl ⟨_, bind_eq_error (seedImageAt_eq_error found)⟩
  | some i => exact .inr ⟨i, rfl, bind_eq (seedImageAt_eq found)⟩

/-- Seeding an element is refused, or stores a value of the element type inside the buffer. -/
theorem seedElement_cases (s : Store) (binding : Binding) (index : Nat) (v : Value) :
    s.Refuses (seedElement binding index v) ∨ ∃ b, s.buffers.get? binding = some b ∧
      v.ty = b.element ∧ index < b.length ∧
      seedElement binding index v s = .ok () (s.setCell v.bits ⟨.buffer binding, index⟩) := by
  cases found : s.buffers.get? binding with
  | none => exact .inl ⟨_, bind_eq_error (seedBufferAt_eq_error found)⟩
  | some b =>
    have begun : seedElement binding index v s = _ := bind_eq (seedBufferAt_eq found)
    by_cases typed : v.ty = b.element
    · have checked := begun.trans (congrFun (if_neg (not_not_intro typed)) s)
      by_cases outside : b.length ≤ index
      · exact .inl ⟨_, checked.trans (congrFun (if_pos outside) s)⟩
      · exact .inr ⟨b, rfl, typed, Nat.not_le.1 outside,
          checked.trans (congrFun (if_neg outside) s)⟩
    · exact .inl ⟨_, begun.trans (congrFun (if_pos typed) s)⟩

/-- Seeding a texel is refused, or stores the bytes of the format inside the image. -/
theorem seedTexel_cases (s : Store) (binding : Binding) (x y : UInt32) (bytes : List UInt8) :
    s.Refuses (seedTexel binding x y bytes) ∨ ∃ i, s.images.get? binding = some i ∧
      x < i.width ∧ y < i.height ∧ bytes.length = i.format.texelSize ∧
      seedTexel binding x y bytes s = .ok ()
        (s.setCell (LittleEndian.words bytes) ⟨.image binding, i.position x.toNat y.toNat⟩) := by
  cases found : s.images.get? binding with
  | none => exact .inl ⟨_, bind_eq_error (seedImageAt_eq_error found)⟩
  | some i =>
    have begun : seedTexel binding x y bytes s = _ := bind_eq (seedImageAt_eq found)
    by_cases outside : i.width ≤ x ∨ i.height ≤ y
    · exact .inl ⟨_, begun.trans (congrFun (if_pos outside) s)⟩
    · have checked := begun.trans (congrFun (if_neg outside) s)
      by_cases sized : bytes.length = i.format.texelSize
      · obtain ⟨left, above⟩ := not_or.1 outside
        refine .inr ⟨i, rfl, UInt32.not_le.1 left, UInt32.not_le.1 above, sized, ?_⟩
        rw [checked, if_neg (not_not_intro sized), setCell,
          LittleEndian.flatMap_bytes_words (sized ▸ i.format.texelSize_mod_four)]
        have same := Bindings.modify_congr (f := fun i => i.set (i.position x.toNat y.toNat) bytes)
          (g := (·.set (i.position x.toNat y.toNat) bytes)) found rfl
        exact congrArg (fun images => EStateM.Result.ok () { s with images }) same
      · exact .inl ⟨_, checked.trans (congrFun (if_pos sized) s)⟩

theorem seedTexture_cases (s : Store) (binding : Binding) (t : Texture) :
    s.Refuses (seedTexture binding t) ∨ seedTexture binding t s =
      .ok () { s with textures := s.textures.modify binding fun _ => t } := by
  rw [Refuses, seedTexture, get_bind]
  cases s.textures.get? binding with
  | none => exact .inl ⟨_, rfl⟩
  | some old => exact .inr rfl

/-- Seeding a uniform is refused, or sets as many values of its type as it had. -/
theorem seedUniform_cases (s : Store) (slot : Nat) (values : List Value) :
    s.Refuses (seedUniform slot values) ∨ ∃ u, s.uniforms[slot]? = some u ∧
      values.length = u.values.length ∧ (∀ v ∈ values, v.ty = u.ty) ∧
      seedUniform slot values s =
        .ok () { s with uniforms := s.uniforms.set slot { u with values } } := by
  rw [Refuses, seedUniform, get_bind]
  cases held : s.uniforms[slot]? with
  | none => exact .inl ⟨_, rfl⟩
  | some u =>
    dsimp only
    by_cases unfit : values.length ≠ u.values.length ∨ values.any (fun v => v.ty ≠ u.ty)
    · rw [if_pos unfit]
      exact .inl ⟨_, rfl⟩
    · obtain ⟨count, typed⟩ := not_or.1 unfit
      refine .inr ⟨u, rfl, Decidable.not_not.1 count, fun v member => ?_, by rw [if_neg unfit]; rfl⟩
      by_contra other
      exact typed (List.any_eq_true.2 ⟨v, member, decide_eq_true other⟩)

/-! ## What can change -/

/-- What an operation can change: contents within the frame, a resource that it allocates, a texture or
the values of a uniform. -/
inductive Changes (s : Store) (allocated? : Option Resource) : Store → Prop
  | contents {t : Store} (frame : t.frame = s.frame) (proper : t.WellFormed) : Changes s allocated? t
  | buffer {binding : Binding} {b : Buffer} (length : Nat) (found : s.buffers.get? binding = some b)
      (allocated : allocated? = some (.buffer binding)) : Changes s allocated?
        { s with buffers := s.buffers.modify binding fun _ => .zeros b.name b.element length }
  | image {binding : Binding} {i : Image} (width height : UInt32)
      (found : s.images.get? binding = some i) (allocated : allocated? = some (.image binding)) :
      Changes s allocated?
        { s with images := s.images.modify binding fun _ => .zeros i.name i.format width height }
  | texture (binding : Binding) (t : Texture) :
      Changes s allocated? { s with textures := s.textures.modify binding fun _ => t }
  | uniform {slot : Nat} {u : Uniform} {values : List Value} (held : s.uniforms[slot]? = some u)
      (count : values.length = u.values.length) (typed : ∀ v ∈ values, v.ty = u.ty) :
      Changes s allocated? { s with uniforms := s.uniforms.set slot { u with values } }

variable {allocated? : Option Resource}

/-- Changing buffers within their frames keeps the frame of the store. -/
theorem frame_modify_buffers {f : Buffer → Buffer} (same : ∀ b, (f b).frame = b.frame) :
    frame { s with buffers := s.buffers.modify binding f } = s.frame := by
  have erased : (s.buffers.modify binding f).mapValues (fun _ b => b.frame) =
      s.buffers.mapValues fun _ b => b.frame := by
    refine Bindings.ext_get? fun key => ?_
    rw [Bindings.get?_mapValues, Bindings.get?_mapValues, Bindings.get?_modify]
    split <;> simp [Option.map_map, Function.comp_def, same]
  simp only [frame, erased]

theorem frame_modify_images {f : Image → Image} (same : ∀ i, (f i).frame = i.frame) :
    frame { s with images := s.images.modify binding f } = s.frame := by
  have erased : (s.images.modify binding f).mapValues (fun _ i => i.frame) =
      s.images.mapValues fun _ i => i.frame := by
    refine Bindings.ext_get? fun key => ?_
    rw [Bindings.get?_mapValues, Bindings.get?_mapValues, Bindings.get?_modify]
    split <;> simp [Option.map_map, Function.comp_def, same]
  simp only [frame, erased]

theorem changes_refused {α : Type} {x : StoreM α} (proper : s.WellFormed) (refuses : s.Refuses x) :
    s.Changes allocated? (left (x s)) := by
  rw [refuses.left_eq]
  exact .contents rfl proper

theorem changes_notes (proper : s.WellFormed) (me : InvocationId) (r : Resolution) :
    s.Changes allocated? (s.performAll me r.notes) := by
  obtain ⟨buffers, images, -⟩ := @performAll_notes s me r
  exact .contents frame_performAll ⟨buffers ▸ proper.buffers, images ▸ proper.images⟩

/-- An operation that accesses no element does no more than note something. -/
theorem changes_aside {α : Type} {c : RunContext} {x : StoreM α} (proper : s.WellFormed)
    (operation : c.Aside x) : s.Changes allocated? (left (x s)) := by
  obtain ⟨r, answer, ran⟩ := operation.eq s
  rw [ran s rfl, left_outcome]
  exact changes_notes proper c.me r

theorem WellFormed.seedElement (proper : s.WellFormed) {b : Buffer} {v : Value} {index : Nat}
    (found : s.buffers.get? binding = some b) (typed : v.ty = b.element) (inside : index < b.length) :
    (s.setCell v.bits ⟨.buffer binding, index⟩).WellFormed := by
  refine proper.setCell (proper.length_bits_eq found typed inside) fun w member b' found' => ?_
  obtain rfl : b = b' := Option.some.inj (found.symm.trans found')
  exact typed ▸ v.holds_bits.2 w member

theorem WellFormed.seedTexel (proper : s.WellFormed) {i : Image} {bytes : List UInt8} {t : Nat}
    (found : s.images.get? binding = some i) (sized : bytes.length = i.format.texelSize)
    (inside : t < i.width.toNat * i.height.toNat) :
    (s.setCell (LittleEndian.words bytes) ⟨.image binding, t⟩).WellFormed :=
  proper.setCell (proper.length_words_eq found sized inside) fun _ _ => trivial

/-- Whether it sets something up or is refused, a seed changes what `Changes` says. -/
theorem changes_seed (proper : s.WellFormed) (call : Seeding) :
    s.Changes (Operation.seed call).allocates? (left (call.run s)) := by
  cases call with
  | allocateBuffer binding length =>
    rcases allocateBuffer_cases s binding length with refused | ⟨b, found, ran⟩
    · exact changes_refused proper refused
    · rw [Seeding.run, ran, left_ok]
      exact .buffer length found rfl
  | element binding index v =>
    rcases seedElement_cases s binding index v with refused | ⟨b, found, typed, inside, ran⟩
    · exact changes_refused proper refused
    · rw [Seeding.run, ran, left_ok]
      exact .contents frame_setCell (proper.seedElement found typed inside)
  | allocateImage binding width height =>
    rcases allocateImage_cases s binding width height with refused | ⟨i, found, ran⟩
    · exact changes_refused proper refused
    · rw [Seeding.run, ran, left_ok]
      exact .image width height found rfl
  | texel binding x y bytes =>
    rcases seedTexel_cases s binding x y bytes with refused | ⟨i, found, left, above, sized, ran⟩
    · exact changes_refused proper refused
    · rw [Seeding.run, ran, left_ok]
      exact .contents frame_setCell (proper.seedTexel found sized (Image.position_lt left above))
  | texture binding t =>
    rcases seedTexture_cases s binding t with refused | ran
    · exact changes_refused proper refused
    · rw [Seeding.run, ran, left_ok]
      exact .texture binding t
  | uniform slot values =>
    rcases seedUniform_cases s slot values with refused | ⟨u, held, count, typed, ran⟩
    · exact changes_refused proper refused
    · rw [Seeding.run, ran, left_ok]
      exact .uniform held count typed

/-- What every operation can do to a well-formed store. -/
theorem changes (proper : s.WellFormed) (op : Operation) (allowed : op.Allowed s) :
    s.Changes op.allocates? (op.perform s) := by
  cases op with
  | seed call => exact changes_seed proper call
  | fillBuffer binding v =>
    refine .contents (frame_modify_buffers fun b => b.frame_fill v.bits) ?_
    exact proper.modify_buffers fun b found _ => Buffer.proper_fill (allowed b found)
  | fillImage binding bytes =>
    refine .contents (frame_modify_images fun i => i.frame_fill bytes) ?_
    exact proper.modify_images fun i found texels => texels.fill (allowed i found)
  | access call me =>
    obtain ⟨frame, kept, -⟩ := call.perform_keeps proper me
    rw [Operation.perform, StoreCall.left_run]
    exact .contents frame kept
  | resolve label index extent me =>
    exact changes_aside (c := { (default : RunContext) with me }) proper (.resolve label index extent)
  | uniform slot element me =>
    exact changes_aside (c := { (default : RunContext) with me }) proper (.uniform slot element)
  | length binding => exact changes_aside (c := default) proper (.length binding)
  | imageSize binding => exact changes_aside (c := default) proper (.imageSize binding)
  | sample sampler binding r =>
    exact changes_aside (c := { (default : RunContext) with sampler }) proper (.sample binding r)
  | recordFault | reportRace | takeConflicts => exact .contents rfl ⟨proper.buffers, proper.images⟩

/-- Whatever changes, every element goes on to hold what its type asks for. -/
theorem Changes.wellFormed (changes : s.Changes allocated? s') (proper : s.WellFormed) :
    s'.WellFormed := by
  cases changes with
  | contents frame proper' => exact proper'
  | buffer length found allocated => exact proper.modify_buffers fun _ _ _ => Buffer.proper_zeros _ _ _
  | image width height found allocated =>
    exact proper.modify_images fun _ _ _ => Image.proper_zeros _ _ _ _
  | texture | uniform => exact ⟨proper.buffers, proper.images⟩

end Store

end ComputeShader
