import ComputeShader.Store.Seeding
import ComputeShader.Proofs.StoreCalls

/-! # Seeded stores

A store is created for a shader and set up by seeding operations. `SetUp` says once what one operation
can do; what holds of created stores and is kept by it holds of every seeded store. So every element holds
what its type asks for, and nothing is logged yet.
-/

namespace ComputeShader

/-- One operation that sets up a store. -/
inductive Seeding where
  | allocateBuffer (binding : Binding) (length : Nat)
  | element (binding : Binding) (index : Nat) (v : Value)
  | allocateImage (binding : Binding) (width height : UInt32)
  | texel (binding : Binding) (x y : UInt32) (bytes : List UInt8)
  | texture (binding : Binding) (t : Texture)
  | uniform (slot : Nat) (values : List Value)

def Seeding.run : Seeding → StoreM Unit
  | allocateBuffer binding length => Store.allocateBuffer binding length
  | element binding index v => Store.seedElement binding index v
  | allocateImage binding width height => Store.allocateImage binding width height
  | texel binding x y bytes => Store.seedTexel binding x y bytes
  | texture binding t => Store.seedTexture binding t
  | uniform slot values => Store.seedUniform slot values

/-- The stores of a shader before a dispatch. Filling a resource stands for seeding each of its
elements. -/
inductive Seeded (shader : Shader) : Store → Prop where
  | created (config : EngineConfig) : Seeded shader (.create shader config)
  | seeded {s s' : Store} (call : Seeding) (before : Seeded shader s) (ran : call.run s = .ok () s') :
    Seeded shader s'
  | filledBuffer {s s' : Store} (binding : Binding) (v : Value) (before : Seeded shader s)
    (typed : ∀ b, s.buffers.get? binding = some b → v.ty = b.element)
    (ran : Store.fillBuffer binding v s = .ok () s') : Seeded shader s'
  | filledImage {s s' : Store} (binding : Binding) (bytes : List UInt8) (before : Seeded shader s)
    (sized : ∀ i, s.images.get? binding = some i → bytes.length = i.format.texelSize)
    (ran : Store.fillImage binding bytes s = .ok () s') : Seeded shader s'

/-- What a seeding operation makes of a store, if it succeeds. -/
def Seeding.after? (call : Seeding) (s : Store) : Option Store :=
  match call.run s with
  | .ok _ s' => some s'
  | .error .. => none

theorem Seeded.of_after? {shader : Shader} {s : Store} {call : Seeding} {p : Store → Bool}
    (before : Seeded shader s) (holds : (call.after? s).any p) :
    ∃ s', call.run s = .ok () s' ∧ Seeded shader s' ∧ p s' := by
  unfold Seeding.after? at holds
  split at holds
  · next s' ran => exact ⟨s', ran, .seeded call before ran, holds⟩
  · cases holds

theorem Buffer.Proper.set {b : Buffer} (proper : b.Proper) {v : Value} (typed : v.ty = b.element)
    (i : Nat) : (b.set i v.bits).Proper := by
  intro j inside
  have within : j < b.length := by simpa [Buffer.set, Buffer.length] using inside
  show b.element.Holds _
  rw [Buffer.bits_set]
  split
  · exact typed ▸ v.holds_bits
  · exact proper j within

theorem Buffer.proper_fill {b : Buffer} {v : Value} (typed : v.ty = b.element) :
    Buffer.Proper { b with elements := Array.replicate b.length v.bits } := by
  intro i inside
  have bound : i < b.length := by simpa [Buffer.length] using inside
  have held : Buffer.bits { b with elements := Array.replicate b.length v.bits } i = v.bits := by
    simp [Buffer.bits, Array.getD_eq_getD_getElem?, bound]
  rw [held]
  exact typed ▸ v.holds_bits

theorem Image.Proper.set {i : Image} (proper : i.Proper) {bytes : List UInt8}
    (sized : bytes.length = i.format.texelSize) (t : Nat) : (i.set t bytes).Proper := by
  refine ⟨by simpa [Image.set] using proper.1, fun u inside => ?_⟩
  have within : u < i.texels.size := by simpa [Image.set] using inside
  show _ = i.format.texelSize
  rw [Image.bytes_set]
  split
  · exact sized
  · exact proper.2 u within

theorem Image.Proper.fill {i : Image} (proper : i.Proper) {bytes : List UInt8}
    (sized : bytes.length = i.format.texelSize) :
    Image.Proper { i with texels := Array.replicate i.texels.size bytes } := by
  refine ⟨Array.size_replicate.trans proper.1, fun t inside => ?_⟩
  have bound : t < i.texels.size := by simpa using inside
  have held : Image.bytes { i with texels := Array.replicate i.texels.size bytes } t = bytes := by
    simp [Image.bytes, Array.getD_eq_getD_getElem?, bound]
  rw [held]
  exact sized

namespace Store

/-- Whether a store is well formed and nothing has happened to it. -/
structure Fresh (s : Store) : Prop where
  wellFormed : s.WellFormed
  log : s.log = {}
  conflicts : s.conflicts = []
  diagnostics : s.diagnostics = []

variable {s s' : Store} {binding : Binding}

theorem fresh_create (shader : Shader) (config : EngineConfig) : (create shader config).Fresh where
  wellFormed := by
    constructor
    · intro binding b found
      obtain ⟨decl, -, same⟩ := List.mem_map.1 (Bindings.mem_of_get?_ofList found)
      obtain ⟨-, rfl⟩ := Prod.mk.inj same
      exact Buffer.proper_zeros _ _ _
    · intro binding i found
      obtain ⟨decl, -, same⟩ := List.mem_map.1 (Bindings.mem_of_get?_ofList found)
      obtain ⟨-, rfl⟩ := Prod.mk.inj same
      exact Image.proper_zeros _ _ _ _
  log := rfl
  conflicts := rfl
  diagnostics := rfl

theorem of_seedBufferAt {α : Type} {k : Buffer → StoreM α} {a : α}
    (ran : (seedBufferAt binding >>= k) s = .ok a s') :
    ∃ b, s.buffers.get? binding = some b ∧ k b s = .ok a s' := by
  rw [seedBufferAt, bind_assoc, get_bind] at ran
  split at ran
  · next b found => exact ⟨b, found, ran⟩
  · cases ran

theorem of_seedImageAt {α : Type} {k : Image → StoreM α} {a : α}
    (ran : (seedImageAt binding >>= k) s = .ok a s') :
    ∃ i, s.images.get? binding = some i ∧ k i s = .ok a s' := by
  rw [seedImageAt, bind_assoc, get_bind] at ran
  split at ran
  · next i found => exact ⟨i, found, ran⟩
  · cases ran

/-- What setting up a store changes: the elements of a buffer or the texels of an image, which stay
proper, a texture or the values of a uniform. -/
inductive SetUp : Store → Store → Prop where
  | buffer {s : Store} (binding : Binding) (f : Buffer → Buffer)
      (typed : ∀ b, s.buffers.get? binding = some b → (f b).element = b.element)
      (keeps : ∀ b, s.buffers.get? binding = some b → b.Proper → (f b).Proper) :
      SetUp s { s with buffers := s.buffers.modify binding f }
  | image {s : Store} (binding : Binding) (f : Image → Image)
      (typed : ∀ i, s.images.get? binding = some i → (f i).format = i.format)
      (keeps : ∀ i, s.images.get? binding = some i → i.Proper → (f i).Proper) :
      SetUp s { s with images := s.images.modify binding f }
  | texture {s : Store} (binding : Binding) (t : Texture) :
      SetUp s { s with textures := s.textures.modify binding fun _ => t }
  | uniform {s : Store} (slot : Nat) (u : Uniform) (values : List Value)
      (held : s.uniforms[slot]? = some u) :
      SetUp s { s with uniforms := s.uniforms.set slot { u with values } }

/-- Every seeding operation that succeeds sets up the store. -/
theorem setUp_of_seeding (call : Seeding) (ran : call.run s = .ok () s') : s.SetUp s' := by
  cases call with
  | allocateBuffer binding length =>
    obtain ⟨b, found, ⟨⟩⟩ := of_seedBufferAt ran
    refine .buffer binding _ (fun b' found' => ?_) fun _ _ _ => Buffer.proper_zeros _ _ _
    obtain rfl : b = b' := Option.some.inj (found.symm.trans found')
    rfl
  | element binding index v =>
    obtain ⟨b, found, ran⟩ := of_seedBufferAt ran
    split at ran
    · cases ran
    · next typed =>
      split at ran
      · cases ran
      · cases ran
        refine .buffer binding _ (fun _ _ => rfl) fun b' found' proper => ?_
        obtain rfl : b = b' := Option.some.inj (found.symm.trans found')
        exact proper.set (Decidable.not_not.1 typed) index
  | allocateImage binding width height =>
    obtain ⟨i, found, ⟨⟩⟩ := of_seedImageAt ran
    refine .image binding _ (fun i' found' => ?_) fun _ _ _ => Image.proper_zeros _ _ _ _
    obtain rfl : i = i' := Option.some.inj (found.symm.trans found')
    rfl
  | texel binding x y bytes =>
    obtain ⟨i, found, ran⟩ := of_seedImageAt ran
    split at ran
    · cases ran
    · split at ran
      · cases ran
      · next sized =>
        cases ran
        refine .image binding _ (fun _ _ => rfl) fun i' found' proper => ?_
        obtain rfl : i = i' := Option.some.inj (found.symm.trans found')
        exact proper.set (Decidable.not_not.1 sized) _
  | texture binding t =>
    rw [Seeding.run, seedTexture, get_bind] at ran
    cases found : s.textures.get? binding with
    | none =>
      rw [found] at ran
      cases ran
    | some old =>
      rw [found] at ran
      cases ran
      exact .texture binding t
  | uniform slot values =>
    rw [Seeding.run, seedUniform, get_bind] at ran
    cases held : s.uniforms[slot]? with
    | none =>
      rw [held] at ran
      cases ran
    | some u =>
      rw [held] at ran
      dsimp only at ran
      split at ran
      · cases ran
      · cases ran
        exact .uniform slot u values held

theorem setUp_fillBuffer {v : Value} (typed : ∀ b, s.buffers.get? binding = some b → v.ty = b.element)
    (ran : fillBuffer binding v s = .ok () s') : s.SetUp s' := by
  cases ran
  exact .buffer binding _ (fun _ _ => rfl) fun b found _ => Buffer.proper_fill (typed b found)

theorem setUp_fillImage {bytes : List UInt8}
    (sized : ∀ i, s.images.get? binding = some i → bytes.length = i.format.texelSize)
    (ran : fillImage binding bytes s = .ok () s') : s.SetUp s' := by
  cases ran
  exact .image binding _ (fun _ _ => rfl) fun i found proper => proper.fill (sized i found)

theorem WellFormed.modify_buffers (proper : s.WellFormed) {f : Buffer → Buffer}
    (keeps : ∀ b, s.buffers.get? binding = some b → b.Proper → (f b).Proper) :
    WellFormed { s with buffers := s.buffers.modify binding f } := by
  refine ⟨fun other b found => ?_, proper.images⟩
  rw [Bindings.get?_modify] at found
  split at found
  · next same =>
    subst same
    obtain ⟨b, held, rfl⟩ := Option.map_eq_some_iff.1 found
    exact keeps b held (proper.buffers _ b held)
  · exact proper.buffers other b found

theorem WellFormed.modify_images (proper : s.WellFormed) {f : Image → Image}
    (keeps : ∀ i, s.images.get? binding = some i → i.Proper → (f i).Proper) :
    WellFormed { s with images := s.images.modify binding f } := by
  refine ⟨proper.buffers, fun other i found => ?_⟩
  rw [Bindings.get?_modify] at found
  split at found
  · next same =>
    subst same
    obtain ⟨i, held, rfl⟩ := Option.map_eq_some_iff.1 found
    exact keeps i held (proper.images _ i held)
  · exact proper.images other i found

/-- Setting up a fresh store leaves no more than the new contents. -/
theorem Fresh.setUp (fresh : s.Fresh) (step : s.SetUp s') : s'.Fresh := by
  refine ⟨?_, ?_, ?_, ?_⟩
  · cases step with
    | buffer binding f typed keeps => exact fresh.wellFormed.modify_buffers keeps
    | image binding f typed keeps => exact fresh.wellFormed.modify_images keeps
    | texture binding t => exact ⟨fresh.wellFormed.buffers, fresh.wellFormed.images⟩
    | uniform slot u values held => exact ⟨fresh.wellFormed.buffers, fresh.wellFormed.images⟩
  · cases step <;> exact fresh.log
  · cases step <;> exact fresh.conflicts
  · cases step <;> exact fresh.diagnostics

end Store

/-- What holds of created stores and is kept by setting up holds of every seeded store. -/
theorem Seeded.invariant {shader : Shader} {P : Store → Prop}
    (created : ∀ config, P (.create shader config)) (kept : ∀ s s' : Store, s.SetUp s' → P s → P s')
    {s : Store} (seeded : Seeded shader s) : P s := by
  induction seeded with
  | created config => exact created config
  | seeded call _ ran ih => exact kept _ _ (Store.setUp_of_seeding call ran) ih
  | filledBuffer binding v _ typed ran ih => exact kept _ _ (Store.setUp_fillBuffer typed ran) ih
  | filledImage binding bytes _ sized ran ih => exact kept _ _ (Store.setUp_fillImage sized ran) ih

/-- A seeded store is fresh. -/
theorem Seeded.fresh {shader : Shader} {s : Store} (seeded : Seeded shader s) : s.Fresh :=
  seeded.invariant (Store.fresh_create shader) fun _ _ step fresh => fresh.setUp step

end ComputeShader
