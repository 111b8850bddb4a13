import ComputeShader.Proofs.SlicedAccesses

/-! # What a store represents

Whatever operations have made of a created store, it has the bindings, names, types and formats that its
shader declares, and every buffer, image and uniform is as large as its extent says. An operation changes
extents by an allocation alone, and it takes no slice out of range.
-/

namespace ComputeShader

/-! ## Declarations and extents -/

/-- The bindings of a store, with the names, types and formats of what is bound there. -/
structure Declarations where
  shader : String
  buffers : Bindings (String × ValueType)
  images : Bindings (String × TexelFormat)
  textures : Bindings Unit

def Shader.declarations (s : Shader) : Declarations where
  shader := s.name
  buffers := .ofList (s.buffers.map fun b => (b.binding, b.displayName, b.element))
  images := .ofList (s.images.map fun i => (i.binding, i.name, i.format))
  textures := .ofList (s.samplers.map fun t => (t.binding, ()))

/-- Whether a uniform has the name, the type and the number of values of a declaration. -/
structure UniformDecl.Describes (d : UniformDecl) (u : Uniform) : Prop where
  name : u.name = d.name
  ty : u.ty = d.ty
  isArray : u.isArray = d.arrayLength.isSome
  count : u.values.length = d.width
  typed : ∀ v ∈ u.values, v.ty = d.ty

namespace Bindings

variable {α β γ : Type}

theorem mapValues_ofList (items : List (Binding × α)) (f : Binding → α → β) :
    (ofList items).mapValues f = ofList (items.map fun (key, value) => (key, f key value)) := by
  have grown (b : Bindings α) : (items.foldl (fun b (key, value) => b.insert key value) b).mapValues f =
      (items.map fun (key, value) => (key, f key value)).foldl
        (fun b (key, value) => b.insert key value) (b.mapValues f) := by
    induction items generalizing b with
    | nil => rfl
    | cons head rest ih =>
      have inserted : (b.insert head.1 head.2).mapValues f =
          (b.mapValues f).insert head.1 (f head.1 head.2) := by
        refine ext_get? fun other => ?_
        rw [get?_mapValues, get?_insert, get?_insert, get?_mapValues]
        split
        · next same => rw [same, Option.map_some]
        · rfl
      rw [List.foldl_cons, ih, inserted]
      rfl
  exact grown empty

theorem mapValues_mapValues (b : Bindings α) (f : Binding → α → β) (g : Binding → β → γ) :
    (b.mapValues f).mapValues g = b.mapValues fun key value => g key (f key value) := by
  refine ext_get? fun key => ?_
  rw [get?_mapValues, get?_mapValues, get?_mapValues, Option.map_map]
  rfl

theorem get?_modify_of_ne {b : Bindings α} {key other : Binding} {f : α → α} (differ : other ≠ key) :
    (b.modify key f).get? other = b.get? other := by
  rw [get?_modify, if_neg differ]

/-- What a change of one value leaves alike, it leaves alike in the whole map. -/
theorem mapValues_modify {b : Bindings α} {key : Binding} {f : α → α} {g : Binding → α → β}
    (same : ∀ value, b.get? key = some value → g key (f value) = g key value) :
    (b.modify key f).mapValues g = b.mapValues g := by
  refine ext_get? fun other => ?_
  rw [get?_mapValues, get?_mapValues, get?_modify]
  split
  · next here =>
    subst here
    cases found : b.get? other with
    | none => rfl
    | some value => exact congrArg some (same value found)
  · rfl

end Bindings

namespace Store

variable {s t : Store} {allocated? : Option Resource} {r : Resource} {place : Location}

def declarations (s : Store) : Declarations where
  shader := s.shader
  buffers := s.buffers.mapValues fun _ b => (b.name, b.element)
  images := s.images.mapValues fun _ i => (i.name, i.format)
  textures := s.textures.mapValues fun _ _ => ()

/-- The length of a buffer, or the width and the height of an image. -/
def extent? (s : Store) : Resource → Option (List Nat)
  | .buffer binding => (s.buffers.get? binding).map fun b => [b.length]
  | .image binding => (s.images.get? binding).map fun i => [i.width.toNat, i.height.toNat]

theorem declarations_create (shader : Shader) (config : EngineConfig) :
    (create shader config).declarations = shader.declarations := by
  simp only [declarations, create, Bindings.mapValues_ofList, List.map_map]
  rfl

theorem declarations_of_frame (frame : t.frame = s.frame) : t.declarations = s.declarations := by
  have erased (s : Store) : s.frame.declarations = s.declarations := by
    simp only [declarations, Store.frame, Bindings.mapValues_mapValues]
    rfl
  rw [← erased, frame, erased]

theorem extent?_of_frame (frame : t.frame = s.frame) : t.extent? r = s.extent? r := by
  have erased (s : Store) : s.frame.extent? r = s.extent? r := by
    cases r with
    | buffer binding =>
      rw [extent?, extent?, get?_buffers_frame, Option.map_map]
      simp only [Function.comp_def, Buffer.length_frame]
    | image binding =>
      rw [extent?, extent?, get?_images_frame, Option.map_map]
      rfl
  rw [← erased, frame, erased]

/-! ## What no operation changes -/

theorem Changes.declarations (changes : s.Changes allocated? t) : t.declarations = s.declarations := by
  cases changes with
  | contents frame proper => exact declarations_of_frame frame
  | @buffer binding b length found allocated =>
    have same : (s.buffers.modify binding fun _ => .zeros b.name b.element length).mapValues
        (fun _ b => (b.name, b.element)) = s.buffers.mapValues fun _ b => (b.name, b.element) := by
      refine Bindings.mapValues_modify fun b' found' => ?_
      obtain rfl : b = b' := Option.some.inj (found.symm.trans found')
      rfl
    rw [Store.declarations, Store.declarations, same]
  | @image binding i width height found allocated =>
    have same : (s.images.modify binding fun _ => .zeros i.name i.format width height).mapValues
        (fun _ i => (i.name, i.format)) = s.images.mapValues fun _ i => (i.name, i.format) := by
      refine Bindings.mapValues_modify fun i' found' => ?_
      obtain rfl : i = i' := Option.some.inj (found.symm.trans found')
      rfl
    rw [Store.declarations, Store.declarations, same]
  | texture binding texture =>
    have same : (s.textures.modify binding fun _ => texture).mapValues (fun _ _ => ()) =
        s.textures.mapValues fun _ _ => () := Bindings.mapValues_modify fun _ _ => rfl
    rw [Store.declarations, Store.declarations, same]
  | uniform => rfl

/-- Extents are changed by allocations alone. -/
theorem Changes.extent? (changes : s.Changes allocated? t) (other : allocated? ≠ some r) :
    t.extent? r = s.extent? r := by
  cases changes with
  | contents frame proper => exact extent?_of_frame frame
  | buffer length found allocated =>
    cases r with
    | image => rfl
    | buffer binding =>
      have differ : binding ≠ _ := fun same => other (allocated.trans (by rw [same]))
      rw [Store.extent?, Store.extent?, Bindings.get?_modify_of_ne differ]
  | image width height found allocated =>
    cases r with
    | buffer => rfl
    | image binding =>
      have differ : binding ≠ _ := fun same => other (allocated.trans (by rw [same]))
      rw [Store.extent?, Store.extent?, Bindings.get?_modify_of_ne differ]
  | texture | uniform => cases r <;> rfl

theorem cell_modify_buffers {binding : Binding} {f : Buffer → Buffer}
    (other : some (.buffer binding) ≠ some place.resource) :
    cell { s with buffers := s.buffers.modify binding f } place = s.cell place := by
  obtain ⟨here | here, i⟩ := place
  · have differ : here ≠ binding := fun same => other (by rw [same])
    rw [cell, cell, Bindings.get?_modify_of_ne differ]
  · rfl

theorem cell_modify_images {binding : Binding} {f : Image → Image}
    (other : some (.image binding) ≠ some place.resource) :
    cell { s with images := s.images.modify binding f } place = s.cell place := by
  obtain ⟨here | here, t⟩ := place
  · rfl
  · have differ : here ≠ binding := fun same => other (by rw [same])
    rw [cell, cell, Bindings.get?_modify_of_ne differ]

theorem cell_eq_of_resources (buffers : t.buffers = s.buffers) (images : t.images = s.images) :
    t.cell = s.cell := by
  funext ⟨resource, i⟩
  cases resource <;> simp [cell, buffers, images]

/-- What an element or a texel holds keeps its length, unless it is allocated anew. -/
theorem Changes.length_cell (changes : s.Changes allocated? t) (proper : s.WellFormed)
    (other : allocated? ≠ some place.resource) : (t.cell place).length = (s.cell place).length := by
  cases changes with
  | contents frame proper' => exact length_cell_of_frame proper proper' frame place
  | buffer length found allocated => rw [cell_modify_buffers (allocated ▸ other)]
  | image width height found allocated => rw [cell_modify_images (allocated ▸ other)]
  | texture | uniform => exact congrArg List.length (congrFun (cell_eq_of_resources rfl rfl) place)

/-- Uniforms go on to have what their declarations say. -/
theorem Changes.uniforms (changes : s.Changes allocated? t) {declared : List UniformDecl}
    (described : List.Forall₂ UniformDecl.Describes declared s.uniforms) :
    List.Forall₂ UniformDecl.Describes declared t.uniforms := by
  cases changes with
  | contents frame proper =>
    have same : t.frame.uniforms = s.frame.uniforms := by rw [frame]
    exact (show t.uniforms = s.uniforms from same) ▸ described
  | buffer | image | texture => exact described
  | @uniform slot u values held count typed =>
    have set {declared : List UniformDecl} {uniforms : List Uniform} {slot : Nat}
        (described : List.Forall₂ UniformDecl.Describes declared uniforms)
        (held : uniforms[slot]? = some u) :
        List.Forall₂ UniformDecl.Describes declared (uniforms.set slot { u with values }) := by
      induction described generalizing slot with
      | nil => cases held
      | @cons d first declared rest describes later ih =>
        cases slot with
        | zero =>
          obtain rfl : first = u := Option.some.inj held
          refine .cons ⟨describes.name, describes.ty, describes.isArray, ?_, fun v member => ?_⟩ later
          · exact count.trans describes.count
          · exact (typed v member).trans describes.ty
        | succ slot => exact .cons describes (ih held)
    exact set described held

theorem uniforms_create (shader : Shader) (config : EngineConfig) :
    List.Forall₂ UniformDecl.Describes shader.uniforms (create shader config).uniforms := by
  rw [create, List.forall₂_map_right_iff, List.forall₂_same]
  intro d _
  refine ⟨rfl, rfl, rfl, List.length_replicate, fun v member => ?_⟩
  rw [List.eq_of_mem_replicate member]
  rfl

/-- What operations uphold: elements and texels hold what their types ask for, and everything is as the
shader declares it. -/
structure Upholds (shader : Shader) (s : Store) : Prop where
  wellFormed : s.WellFormed
  declarations : s.declarations = shader.declarations
  uniforms : List.Forall₂ UniformDecl.Describes shader.uniforms s.uniforms

end Store

theorem Operated.upholds {shader : Shader} {config : EngineConfig} {s : Store}
    (operated : Operated shader config s) : s.Upholds shader := by
  induction operated with
  | created =>
    exact ⟨(Store.fresh_create shader config).wellFormed, Store.declarations_create shader config,
      Store.uniforms_create shader config⟩
  | performed op before allowed ih =>
    have changes := Store.changes ih.wellFormed op allowed
    exact ⟨changes.wellFormed ih.wellFormed, changes.declarations.trans ih.declarations,
      changes.uniforms ih.uniforms⟩

/-! ## Flat contents -/

/-- A lane of a Boolean element is 0 or 1. -/
theorem ValueType.Holds.zero_or_one {ty : ValueType} {bits : List UInt32} (holds : ty.Holds bits)
    (boolean : ty.kind = .bool) : ∀ w ∈ bits, w = 0 ∨ w = 1 := by
  intro w member
  have written := holds.2 w member
  rw [boolean, Scalar.ofBits, Scalar.toBits] at written
  split at written
  · exact .inr written.symm
  · exact .inl written.symm

namespace Store

/-- Whether a store is laid out as a shader declares: whole elements and Booleans that are 0 or 1 in
buffers, texels that fill the extent in images, as many values as declared in uniforms. -/
structure Represents (shader : Shader) (s : Store) : Prop where
  declarations : s.declarations = shader.declarations
  lanes : ∀ binding b, s.buffers.get? binding = some b →
    (freezeBuffer b).lanes.length = b.length * b.element.components
  booleans : ∀ binding b, s.buffers.get? binding = some b → b.element.kind = .bool →
    ∀ w ∈ (freezeBuffer b).lanes, w = 0 ∨ w = 1
  texels : ∀ binding i, s.images.get? binding = some i →
    (freezeImage i).texels.length = i.width.toNat * i.height.toNat * i.format.texelSize
  uniforms : List.Forall₂ UniformDecl.Describes shader.uniforms s.uniforms

theorem Upholds.represents {shader : Shader} {s : Store} (upholds : s.Upholds shader) :
    s.Represents shader where
  declarations := upholds.declarations
  lanes binding b found := Snapshot.length_flatten_toList fun i inside =>
    (upholds.wellFormed.buffers binding b found i inside).1
  booleans binding b found boolean w member := by
    obtain ⟨bits, held, member⟩ := List.mem_flatten.1 member
    obtain ⟨i, inside, rfl⟩ := Array.mem_iff_getElem.1 (Array.mem_toList_iff.1 held)
    have holds := upholds.wellFormed.buffers binding b found i inside
    have here : b.bits i = b.elements[i] := by simp [Buffer.bits, inside]
    exact holds.zero_or_one boolean w (here ▸ member)
  texels binding i found := by
    obtain ⟨size, texels⟩ := upholds.wellFormed.images binding i found
    exact (Snapshot.length_flatten_toList texels).trans (congrArg (· * _) size)
  uniforms := upholds.uniforms

end Store

/-! ## Slices -/

namespace Operation

/-- Whether an operation takes the slice at a place: a seed that is not refused, or an access whose index
stands for the place. -/
inductive Takes (s : Store) : Operation → Location → Prop
  | element {binding : Binding} {index : Nat} {v : Value} {t : Store}
      (ran : Store.seedElement binding index v s = .ok () t) :
      Takes s (.seed (.element binding index v)) ⟨.buffer binding, index⟩
  | texel {binding : Binding} {x y : UInt32} {bytes : List UInt8} {i : Image} {t : Store}
      (found : s.images.get? binding = some i)
      (ran : Store.seedTexel binding x y bytes s = .ok () t) :
      Takes s (.seed (.texel binding x y bytes)) ⟨.image binding, i.position x.toNat y.toNat⟩
  | access {call : StoreCall} {me : InvocationId} {place : Location}
      (stands : call.place? s = some place) : Takes s (.access call me) place

/-- The resource whose contents an operation replaces as a whole. -/
def renews? : Operation → Option Resource
  | seed (.allocateBuffer binding _) | fillBuffer binding _ => some (.buffer binding)
  | seed (.allocateImage binding _ _) | fillImage binding _ => some (.image binding)
  | _ => none

variable {s : Store} {place : Location}

theorem Takes.has {op : Operation} (takes : op.Takes s place) : s.Has place := by
  cases takes with
  | @element binding index v t ran =>
    rcases Store.seedElement_cases s binding index v with ⟨e, refused⟩ | ⟨b, found, -, inside, -⟩
    · rw [refused] at ran
      cases ran
    · exact ⟨b, found, inside⟩
  | @texel binding x y bytes i t found ran =>
    rcases Store.seedTexel_cases s binding x y bytes with
      ⟨e, refused⟩ | ⟨i', found', left, above, -, -⟩
    · rw [refused] at ran
      cases ran
    · obtain rfl : i = i' := Option.some.inj (found.symm.trans found')
      exact ⟨i, found, Image.position_lt left above⟩
  | access stands => exact Store.has_of_place? stands

theorem cell_seed (proper : s.WellFormed) {call : Seeding} (elsewhere : ¬ (seed call).Takes s place)
    (kept : (seed call).renews? ≠ some place.resource) :
    ((seed call).perform s).cell place = s.cell place := by
  rw [perform]
  cases call with
  | allocateBuffer binding length =>
    rcases Store.allocateBuffer_cases s binding length with refused | ⟨b, found, ran⟩
    · rw [Seeding.run, refused.left_eq]
    · rw [Seeding.run, ran]
      exact Store.cell_modify_buffers kept
  | element binding index v =>
    rcases Store.seedElement_cases s binding index v with refused | ⟨b, found, typed, inside, ran⟩
    · rw [Seeding.run, refused.left_eq]
    · have fits := proper.length_bits_eq found typed inside
      rw [Seeding.run, ran, Store.left_ok, Store.cell_setCell fits, if_neg]
      rintro rfl
      exact elsewhere (.element ran)
  | allocateImage binding width height =>
    rcases Store.allocateImage_cases s binding width height with refused | ⟨i, found, ran⟩
    · rw [Seeding.run, refused.left_eq]
    · rw [Seeding.run, ran]
      exact Store.cell_modify_images kept
  | texel binding x y bytes =>
    rcases Store.seedTexel_cases s binding x y bytes with
      refused | ⟨i, found, left, above, sized, ran⟩
    · rw [Seeding.run, refused.left_eq]
    · have fits := proper.length_words_eq found sized (Image.position_lt left above)
      rw [Seeding.run, ran, Store.left_ok, Store.cell_setCell fits, if_neg]
      rintro rfl
      exact elsewhere (.texel found ran)
  | texture binding t =>
    rcases Store.seedTexture_cases s binding t with refused | ran
    · rw [Seeding.run, refused.left_eq]
    · rw [Seeding.run, ran]
      exact congrFun (Store.cell_eq_of_resources rfl rfl) place
  | uniform slot values =>
    rcases Store.seedUniform_cases s slot values with refused | ⟨u, held, count, typed, ran⟩
    · rw [Seeding.run, refused.left_eq]
    · rw [Seeding.run, ran]
      exact congrFun (Store.cell_eq_of_resources rfl rfl) place

theorem cell_aside {α : Type} {c : RunContext} {x : StoreM α} (operation : c.Aside x) :
    (Store.left (x s)).cell = s.cell := by
  obtain ⟨r, answer, ran⟩ := operation.eq s
  rw [ran s rfl, Store.left_outcome, Store.cell_performAll_notes]

/-- Contents that an operation neither takes a slice of nor replaces as a whole, it leaves alone. -/
theorem cell_perform (proper : s.WellFormed) {op : Operation} (elsewhere : ¬ op.Takes s place)
    (kept : op.renews? ≠ some place.resource) : (op.perform s).cell place = s.cell place := by
  cases op with
  | seed call => exact cell_seed proper elsewhere kept
  | fillBuffer binding v => exact Store.cell_modify_buffers kept
  | fillImage binding bytes => exact Store.cell_modify_images kept
  | access call me =>
    rw [perform, StoreCall.left_run]
    exact (call.perform_keeps proper me).2.2 place fun _ stands => elsewhere (.access stands)
  | resolve label index extent me =>
    exact congrFun (cell_aside (c := { (default : RunContext) with me }) (.resolve label index extent)) place
  | uniform slot element me =>
    exact congrFun (cell_aside (c := { (default : RunContext) with me }) (.uniform slot element)) place
  | length binding => exact congrFun (cell_aside (c := default) (.length binding)) place
  | imageSize binding => exact congrFun (cell_aside (c := default) (.imageSize binding)) place
  | sample sampler binding r =>
    exact congrFun (cell_aside (c := { (default : RunContext) with sampler }) (.sample binding r)) place
  | recordFault | reportRace | takeConflicts => exact congrFun (Store.cell_eq_of_resources rfl rfl) place

end Operation

/-- The position among the values of a uniform that a use of it or of an element stands for. -/
def Uniform.position? (u : Uniform) (policy : OobPolicy) : Option Int → Option Nat
  | none => if u.isArray then none else some 0
  | some index =>
    (Resolution.ofIndex policy ("uniform `" ++ u.name ++ "`") index u.values.length).index?

/-- The value at the position that a use of a uniform stands for is there, and it is the answer. -/
theorem UniformDecl.Describes.answers {d : UniformDecl} {u : Uniform} (describes : d.Describes u)
    {s : Store} {slot i : Nat} (held : s.uniforms[slot]? = some u) {element : Option Int}
    (stands : u.position? s.oobPolicy element = some i) (me : InvocationId) :
    ∃ v t, u.values[i]? = some v ∧ Store.uniform slot element me s = .ok v t := by
  cases element with
  | none =>
    by_cases array : u.isArray
    · rw [Uniform.position?, if_pos array] at stands
      cases stands
    · rw [Uniform.position?, if_neg array] at stands
      obtain rfl := Option.some.inj stands
      have single : u.values.length = 1 := by
        have lone : d.arrayLength = none := by
          rw [describes.isArray] at array
          exact Option.not_isSome_iff_eq_none.1 array
        rw [describes.count, UniformDecl.width, lone, Option.getD_none]
      obtain ⟨v, values⟩ := List.length_eq_one_iff.1 single
      refine ⟨v, s, by rw [values]; rfl, ?_⟩
      rw [Store.uniform, Store.get_bind, held]
      exact (congrFun (if_neg array) s).trans (by rw [values]; rfl)
  | some index =>
    let r := Resolution.ofIndex s.oobPolicy ("uniform `" ++ u.name ++ "`") index u.values.length
    have answered : r.answer = .ok (some i) := Resolution.index?_eq_some.1 stands
    have inside : i < u.values.length := Resolution.index_lt stands
    refine ⟨u.values[i], s.performAll me r.notes, List.getElem?_eq_getElem inside, ?_⟩
    rw [Store.uniform, Store.get_bind, held]
    have resolved := (Store.resolve_eq _ index _).trans
      (congrArg (Store.outcome (s.performAll me r.notes)) answered)
    have value : u.values.getD i (Value.zero u.ty) = u.values[i] := List.getD_eq_getElem _ _ inside
    exact (Store.bind_eq resolved).trans (congrArg (EStateM.Result.ok · _) value)

/-- Whether an operation keeps the extents that it does not allocate and stays within the contents: what
it uses of them are slices in range, and the values of a uniform that are there. -/
structure Operation.StaysInRange (op : Operation) (s : Store) : Prop where
  extents : ∀ r, op.allocates? ≠ some r → (op.perform s).extent? r = s.extent? r
  lengths : ∀ place : Location, op.allocates? ≠ some place.resource →
    ((op.perform s).cell place).length = (s.cell place).length
  slices : ∀ place, op.Takes s place → s.slice? place = some (s.cell place)
  elsewhere : ∀ place : Location, ¬ op.Takes s place → op.renews? ≠ some place.resource →
    (op.perform s).cell place = s.cell place
  answers : ∀ (call : StoreCall) (me : InvocationId), op = .access call me → ∀ t : Store, t.WellFormed →
    t.frame = s.frame → (∀ place, op.Takes s place → t.cell place = s.cell place) →
    Store.answer (call.run me t) = Store.answer (call.run me s)
  uniforms : ∀ slot element me, op = .uniform slot element me → ∀ (u : Uniform) (i : Nat),
    s.uniforms[slot]? = some u → u.position? s.oobPolicy element = some i →
    ∃ v t, u.values[i]? = some v ∧ Store.uniform slot element me s = .ok v t

theorem Store.Upholds.staysInRange {shader : Shader} {s : Store} (upholds : s.Upholds shader)
    {op : Operation} (allowed : op.Allowed s) : op.StaysInRange s where
  extents _ other := (Store.changes upholds.wellFormed op allowed).extent? other
  lengths _ other := (Store.changes upholds.wellFormed op allowed).length_cell upholds.wellFormed other
  slices _ takes := Store.slice?_of_has upholds.wellFormed takes.has
  elsewhere _ elsewhere kept := Operation.cell_perform upholds.wellFormed elsewhere kept
  answers call me same t proper frame agree := by
    subst same
    exact call.answer_of_slice upholds.wellFormed proper frame me fun place stands =>
      agree place (.access stands)
  uniforms slot element me _ u i held stands := by
    obtain ⟨bound, rfl⟩ := List.getElem?_eq_some_iff.1 held
    have describes := upholds.uniforms.get (upholds.uniforms.length_eq ▸ bound) bound
    exact describes.answers held stands me

/-- Every store that operations make of a created one is laid out as its shader declares and freezes to a
well-formed snapshot; and whatever the next operation, its index and the policy, only an allocation
changes an extent, and no slice is out of range. -/
theorem Operated.representation_kept {shader : Shader} {config : EngineConfig} {s : Store}
    (operated : Operated shader config s) :
    s.Represents shader ∧ s.freeze.WellFormed ∧
      ∀ op : Operation, op.Allowed s → op.StaysInRange s :=
  ⟨operated.upholds.represents, Snapshot.wellFormed_freeze operated.upholds.wellFormed,
    fun _ allowed => operated.upholds.staysInRange allowed⟩

/-- Pairs of Booleans, an image of words and an array of two weights. -/
def marking : Shader where
  name := "marking"
  version := 310
  extensions := []
  localSize := ⟨1, 1, 1⟩
  buffers := [⟨0, "Flags", none, "flags", .vector .bool .two, .readWrite⟩]
  images := [⟨1, "marks", .r32ui, .readWrite⟩]
  samplers := []
  uniforms := [⟨0, "weights", .scalar .float, some 2⟩]
  locals := []
  body := []

/-- A store far past the end of a buffer that was made shorter goes to its last element, and an atomic at
coordinates outside an image to a texel at its edge. -/
theorem Operated.representation_kept_marking :
    let config : EngineConfig := { bufferLength := 4, imageWidth := 2, imageHeight := 2 }
    let short := Operation.perform (.create marking config) (.seed (.allocateBuffer 0 3))
    let s := Operation.perform short (.access (.write 0 9 (.ofBits (.vector .bool .two) [1, 0])) 0)
    let add : Operation := .access (.imageAtomicAdd 1 (-1) 7 (.uint 5)) 1
    let edge : Location := ⟨.image 1, 2⟩
    Operated marking config s ∧ s.freeze.WellFormed ∧
      s.buffers.get? 0 = some ⟨"flags", .vector .bool .two, #[[0, 0], [0, 0], [1, 0]]⟩ ∧
      add.Takes s edge ∧ s.slice? edge = some [0] ∧ (add.perform s).cell edge = [5] ∧
      (add.perform s).extent? (.buffer 0) = some [3] := by
  intro config short s add edge
  have operated : Operated marking config s := .performed _ (.performed _ .created trivial) trivial
  obtain ⟨-, frozen, next⟩ := operated.representation_kept
  have inRange : add.StaysInRange s := next add trivial
  have takes : add.Takes s edge := .access (by decide +kernel)
  refine ⟨operated, frozen, by decide +kernel, takes, ?_, by decide +kernel, ?_⟩
  · exact (inRange.slices edge takes).trans (by decide +kernel)
  · exact (inRange.extents (.buffer 0) (by decide)).trans (by decide +kernel)

end ComputeShader
