import Mathlib.Data.List.Induction
import ComputeShader.Proofs.SeedLayers

/-! # What a case describes

A store that was set up from a case holds what the case says: the buffers and images have the contents of
the last seed for them, or zeros at their default size, the uniforms the values of the last seed that
names them, or zeros. As long as seeds are still to come, the same holds of the part of the case so far,
and each seed extends it.
-/

namespace ComputeShader

/-! ## Uniforms -/

/-- Whether these are the values of a seed for a uniform, which is an array if it has a length. -/
def UniformSeed.Gives (seed : UniformSeed) (ty : ValueType) (length? : Option Nat) (values : List Value) :
    Prop :=
  match length? with
  | none => ∃ v, seed.value.toValue ty = .ok v ∧ values = [v]
  | some length => ∃ items, seed.value = .list items ∧ items.length = length ∧
      List.Forall₂ (fun l v => l.toValue ty = .ok v) items values

section Uniforms

variable {s s' : Store} {target : String} {ty : ValueType}

theorem of_seedValue {l : Literal} {v : Value} (ran : seedValue target ty l s = .ok v s') :
    l.toValue ty = .ok v ∧ s' = s := by
  rw [seedValue] at ran
  cases converted : l.toValue ty with
  | error fault =>
    rw [converted] at ran
    cases ran
  | ok v' =>
    rw [converted] at ran
    cases ran
    exact ⟨rfl, rfl⟩

theorem of_seedValues {items : List Literal} {values : List Value}
    (ran : items.mapM (seedValue target ty) s = .ok values s') :
    List.Forall₂ (fun l v => l.toValue ty = .ok v) items values ∧ s' = s := by
  induction items generalizing s values with
  | nil =>
    cases ran
    exact ⟨.nil, rfl⟩
  | cons l rest ih =>
    rw [List.mapM_cons] at ran
    obtain ⟨v, t, first, ran⟩ := exists_of_ran_bind ran
    obtain ⟨vs, t', later, ran⟩ := exists_of_ran_bind ran
    cases ran
    obtain ⟨converted, rfl⟩ := of_seedValue first
    obtain ⟨all, same⟩ := ih later
    exact ⟨.cons converted all, same⟩

theorem UniformSeed.of_values {seed : UniformSeed} {length? : Option Nat} {values : List Value}
    (ran : seed.values ty length? s = .ok values s') :
    s' = s ∧ ((∀ n, length? = some n → values.length = n) → seed.Gives ty length? values) := by
  cases length? with
  | none =>
    have ran : (seedValue seed.name ty seed.value >>= fun v => pure [v]) s = .ok values s' := ran
    obtain ⟨v, t, first, last⟩ := exists_of_ran_bind ran
    cases last
    obtain ⟨converted, same⟩ := of_seedValue first
    exact ⟨same, fun _ => ⟨v, converted, rfl⟩⟩
  | some n =>
    unfold UniformSeed.values at ran
    cases given : seed.value with
    | list items =>
      simp only [given] at ran
      obtain ⟨all, same⟩ := of_seedValues ran
      exact ⟨same, fun sized => ⟨items, given, all.length_eq.trans (sized n rfl), all⟩⟩
    | bool | int | float =>
      simp only [given] at ran
      cases ran

/-- The slot of a name is that of the first uniform which has it. -/
theorem Store.of_uniformSlot? {name : String} {slot : Nat} {length? : Option Nat}
    (found : s.uniformSlot? name = some (slot, ty, length?)) :
    ∃ u, s.uniforms.findIdx? (·.name = name) = some slot ∧ s.uniforms[slot]? = some u ∧ u.ty = ty ∧
      length? = if u.isArray then some u.values.length else none := by
  obtain ⟨e, first, same⟩ := Option.map_eq_some_iff.1 found
  obtain ⟨u, slot'⟩ := e
  cases same
  obtain ⟨named, i, inside, held, earlier⟩ := List.find?_eq_some_iff_getElem.1 first
  rw [List.getElem_zipIdx, Nat.zero_add, Prod.mk.injEq] at held
  obtain ⟨rfl, rfl⟩ := held
  have bound : i < s.uniforms.length := by simpa using inside
  refine ⟨_, List.findIdx?_eq_some_iff_getElem.2 ⟨bound, named, fun j before => ?_⟩,
    List.getElem?_eq_getElem bound, rfl, rfl⟩
  have other := earlier j before
  rw [List.getElem_zipIdx] at other
  simpa using other

/-- What a seed makes of a uniform, and that it does nothing else. -/
theorem UniformSeed.apply_sets {seed : UniformSeed} (ran : seed.apply s = .ok () s') :
    ∃ slot u values, s.uniforms.findIdx? (·.name = seed.name) = some slot ∧
      s.uniforms[slot]? = some u ∧
      s' = { s with uniforms := s.uniforms.set slot { u with values } } ∧
      seed.Gives u.ty (if u.isArray then some u.values.length else none) values := by
  rw [apply, Store.get_bind] at ran
  cases named : s.uniformSlot? seed.name with
  | none =>
    rw [named] at ran
    cases ran
  | some found =>
    obtain ⟨slot, ty, length?⟩ := found
    rw [named] at ran
    obtain ⟨values, t, valued, sets⟩ := exists_of_ran_bind ran
    obtain ⟨u, first, held, rfl, rfl⟩ := Store.of_uniformSlot? named
    obtain ⟨rfl, gives⟩ := UniformSeed.of_values valued
    rcases t.seedUniform_cases slot values with ⟨e, refused⟩ | ⟨u', held', sized, -, stores⟩
    · cases refused.symm.trans sets
    · cases stores.symm.trans sets
      cases held.symm.trans held'
      refine ⟨slot, u, values, first, held, rfl, gives fun n length => ?_⟩
      split at length
      · exact sized.trans (Option.some.inj length)
      · cases length

end Uniforms

/-! ## Declared resources -/

namespace Bindings

variable {α δ σ : Type} {key : σ → Binding} {binding : Binding}

/-- Of items at the same binding a map holds the last one. -/
theorem get?_ofList_map (f : σ → α) (items : List σ) :
    (ofList (items.map fun e => (key e, f e))).get? binding =
      (items.reverse.find? (key · = binding)).map f := by
  induction items using List.reverseRecOn with
  | nil => rfl
  | append_singleton rest e ih =>
    have last : ofList ((rest ++ [e]).map fun e => (key e, f e)) =
        (ofList (rest.map fun e => (key e, f e))).insert (key e) (f e) := by
      rw [List.map_append, ofList, List.foldl_append]
      rfl
    rw [last, get?_insert, ih, List.reverse_append, List.reverse_singleton, List.singleton_append,
      List.find?_cons]
    by_cases here : key e = binding
    · simp [here]
    · simp [here, Ne.symm here]

variable {R : List σ → δ → α → Prop} {declared : Binding → Option δ} {m : Bindings α}

theorem rel_ofList {items : List δ} {key : δ → Binding} {f : δ → α} (each : ∀ d, R [] d (f d)) :
    Option.Rel (R []) (items.reverse.find? (key · = binding))
      ((ofList (items.map fun d => (key d, f d))).get? binding) := by
  rw [get?_ofList_map]
  cases items.reverse.find? (key · = binding) with
  | none => exact .none
  | some d => exact .some (each d)

/-- A value that a seed is applied to at its binding. -/
theorem rel_snoc {seeds : List σ} {seed : σ} {base a : α}
    (before : ∀ binding,
      Option.Rel (R (seeds.filter (key · = binding))) (declared binding) (m.get? binding))
    (found : m.get? (key seed) = some base)
    (next : ∀ earlier d, R earlier d base → R (earlier ++ [seed]) d a) (binding : Binding) :
    Option.Rel (R ((seeds ++ [seed]).filter (key · = binding))) (declared binding)
      ((m.modify (key seed) fun _ => a).get? binding) := by
  have held := before binding
  rw [List.filter_append, get?_modify]
  by_cases here : key seed = binding
  · subst here
    rw [found] at held ⊢
    generalize declared (key seed) = d? at held ⊢
    cases held with
    | some holds =>
      rw [if_pos rfl, List.filter_singleton, decide_eq_true rfl]
      exact .some (next _ _ holds)
  · rw [if_neg (Ne.symm here), List.filter_singleton, decide_eq_false here, cond_false, List.append_nil]
    exact held

end Bindings

/-- Whether a buffer is what seeds make of a declared one: its length is that of the last seed which has
one or else leading data, and its elements hold the literals of the last seed, or zeros. -/
structure BufferDecl.SeededBy (initial : Nat) (seeds : List BufferSeed) (d : BufferDecl) (b : Buffer) :
    Prop where
  name : b.name = d.displayName
  element : b.element = d.element
  length : b.length = seeds.foldl
    (fun length seed => seed.length.getD (if seed.data = [] then length else seed.data.length)) initial
  elements : ∀ i < b.length, Gives (·.toBits d.element) (List.replicate d.element.components 0)
    (seeds.getLast?.bind (·.literal? i)) (b.bits i)

theorem BufferSeed.lengthFrom_eq (seed : BufferSeed) (length : Nat) :
    seed.lengthFrom length =
      seed.length.getD (if seed.data = [] then length else seed.data.length) := by
  rw [lengthFrom]
  cases seed.length with
  | none => simp only [List.isEmpty_iff, Option.getD_none]
  | some given => rfl

theorem BufferDecl.seededBy_zeros (d : BufferDecl) (length : Nat) :
    d.SeededBy length [] (.zeros d.displayName d.element length) where
  name := rfl
  element := rfl
  length := Array.size_replicate
  elements _ inside := covered_zeros.gives [] inside

theorem BufferDecl.SeededBy.snoc {d : BufferDecl} {seeds : List BufferSeed} {initial : Nat}
    {base b : Buffer} {seed : BufferSeed} (before : d.SeededBy initial seeds base)
    (covered : base.CoveredAs (seed.lengthFrom base.length) seed.literal? b) :
    d.SeededBy initial (seeds ++ [seed]) b where
  name := covered.name.trans before.name
  element := covered.element.trans before.element
  length := by
    rw [covered.length, seed.lengthFrom_eq, before.length, List.foldl_append]
    rfl
  elements i inside := by
    have held := covered.elements.gives [] inside
    rw [before.element] at held
    rw [List.getLast?_concat]
    exact held

/-- Whether an image is what seeds make of a declared one: its extent is that of the last seed, and its
texels hold the literals of this seed, or zero bytes. -/
structure ImageDecl.SeededBy (columns rows : UInt32) (seeds : List ImageSeed) (d : ImageDecl)
    (i : Image) : Prop where
  name : i.name = d.name
  format : i.format = d.format
  width : i.width = (seeds.getLast?.map ImageSeed.width).getD columns
  height : i.height = (seeds.getLast?.map ImageSeed.height).getD rows
  size : i.texels.size = i.width.toNat * i.height.toNat
  texels : ∀ x y : UInt32, x < i.width → y < i.height →
    Gives (·.toTexel d.format) d.format.zeroTexel (seeds.getLast?.bind (·.literal? x y))
      (i.bytes (i.position x.toNat y.toNat))

theorem ImageDecl.seededBy_zeros (d : ImageDecl) (columns rows : UInt32) :
    d.SeededBy columns rows [] (.zeros d.name d.format columns rows) where
  name := rfl
  format := rfl
  width := rfl
  height := rfl
  size := Array.size_replicate
  texels x y left above := by
    have inside := Image.position_lt left above
    exact covered_zeros.gives [] (inside.trans_eq Array.size_replicate.symm)

theorem ImageDecl.SeededBy.snoc {d : ImageDecl} {seeds : List ImageSeed} {columns rows : UInt32}
    {base i : Image} {seed : ImageSeed} (before : d.SeededBy columns rows seeds base)
    (coveredBy : base.CoveredBy seed i) : d.SeededBy columns rows (seeds ++ [seed]) i := by
  obtain ⟨laid, covered, gives⟩ := coveredBy
  have size : i.texels.size = i.width.toNat * i.height.toNat := by
    rw [covered.size, covered.width, covered.height]
  refine ⟨covered.name.trans before.name, covered.format.trans before.format, ?_, ?_, size,
    fun x y left above => ?_⟩
  · rw [List.getLast?_concat]
    exact covered.width
  · rw [List.getLast?_concat]
    exact covered.height
  · have held := covered.texels.gives [] (size ▸ Image.position_lt left above)
    rw [before.format, Image.position, covered.width, gives x y (covered.width ▸ left)] at held
    rw [List.getLast?_concat, Image.position, covered.width]
    exact held

/-- Whether a texture is what seeds make of a declared one: that of the last seed, or one of zeros. -/
def SamplerDecl.SeededBy (columns rows : UInt32) (seeds : List SamplerSeed) (_ : SamplerDecl)
    (t : Texture) : Prop :=
  t = (seeds.getLast?.map SamplerSeed.texture).getD ⟨columns, rows, .zero⟩

theorem SamplerDecl.seededBy_snoc (d : SamplerDecl) (columns rows : UInt32) (seeds : List SamplerSeed)
    (seed : SamplerSeed) : d.SeededBy columns rows (seeds ++ [seed]) seed.texture := by
  rw [SeededBy, List.getLast?_concat]
  rfl

/-- Whether a uniform is what seeds make of a declared one: it holds the values of the last seed, or as many
zeros as it has elements. -/
structure UniformDecl.SeededBy (seeds : List UniformSeed) (d : UniformDecl) (u : Uniform) : Prop where
  name : u.name = d.name
  ty : u.ty = d.ty
  isArray : u.isArray = d.arrayLength.isSome
  values : match seeds.getLast? with
    | none => u.values = List.replicate (d.arrayLength.getD 1) (Value.zero d.ty)
    | some seed => seed.Gives d.ty d.arrayLength u.values

theorem UniformSeed.Gives.length {seed : UniformSeed} {ty : ValueType} {length? : Option Nat}
    {values : List Value} (gives : seed.Gives ty length? values) : values.length = length?.getD 1 := by
  cases length? with
  | none =>
    obtain ⟨v, -, rfl⟩ := gives
    rfl
  | some n =>
    obtain ⟨items, -, sized, all⟩ := gives
    exact all.length_eq.symm.trans sized

section Uniform

variable {d : UniformDecl} {seeds : List UniformSeed} {seed : UniformSeed} {u : Uniform}
  {values : List Value}

theorem UniformDecl.SeededBy.length? (seeded : d.SeededBy seeds u) :
    (if u.isArray then some u.values.length else none) = d.arrayLength := by
  have length : u.values.length = d.arrayLength.getD 1 := by
    have values := seeded.values
    cases last : seeds.getLast? with
    | none =>
      simp only [last] at values
      rw [values, List.length_replicate]
    | some seed =>
      simp only [last] at values
      exact values.length
  rw [seeded.isArray, length]
  cases d.arrayLength <;> rfl

theorem UniformDecl.SeededBy.snoc (before : d.SeededBy seeds u)
    (gives : seed.Gives u.ty (if u.isArray then some u.values.length else none) values) :
    d.SeededBy (seeds ++ [seed]) { u with values } where
  name := before.name
  ty := before.ty
  isArray := before.isArray
  values := by
    rw [before.length?, before.ty] at gives
    rw [List.getLast?_concat]
    exact gives

end Uniform

/-! ## Cases -/

/-- The seeds of a case for the uniform in a slot. A name is that of the first uniform which has it. -/
def Case.seedsOfSlot (c : Case) (shader : Shader) (slot : Nat) : List UniformSeed :=
  c.uniforms.filter fun seed => shader.uniforms.findIdx? (·.name = seed.name) = some slot

/-- A store without its resources. -/
def Store.bare (s : Store) : Store :=
  { s with buffers := .empty, images := .empty, textures := .empty, uniforms := [] }

/-- Whether a store holds what a case says about a shader's resources, and nothing else. Of declarations at
the same binding the last one counts. -/
structure Case.Describes (c : Case) (shader : Shader) (s : Store) : Prop where
  buffers (binding : Binding) : Option.Rel
    (BufferDecl.SeededBy c.engine.bufferLength (c.buffers.filter (·.binding = binding)))
    (shader.buffers.reverse.find? (·.binding = binding)) (s.buffers.get? binding)
  images (binding : Binding) : Option.Rel
    (ImageDecl.SeededBy c.engine.imageWidth c.engine.imageHeight (c.images.filter (·.binding = binding)))
    (shader.images.reverse.find? (·.binding = binding)) (s.images.get? binding)
  textures (binding : Binding) : Option.Rel
    (SamplerDecl.SeededBy c.engine.imageWidth c.engine.imageHeight
      (c.samplers.filter (·.binding = binding)))
    (shader.samplers.reverse.find? (·.binding = binding)) (s.textures.get? binding)
  uniforms (slot : Nat) : Option.Rel (UniformDecl.SeededBy (c.seedsOfSlot shader slot))
    shader.uniforms[slot]? s.uniforms[slot]?
  rest : s.bare = (Store.create shader c.engine).bare

namespace Case

variable {c : Case} {shader : Shader} {s s' : Store}

/-- The case without its seeds. -/
def unseeded (c : Case) : Case := { c with buffers := [], images := [], samplers := [], uniforms := [] }

theorem describes_create : c.unseeded.Describes shader (Store.create shader c.engine) where
  buffers _ := Bindings.rel_ofList fun d => d.seededBy_zeros _
  images _ := Bindings.rel_ofList fun d => d.seededBy_zeros _ _
  textures _ := Bindings.rel_ofList fun _ => rfl
  uniforms slot := by
    have held : (Store.create shader c.engine).uniforms[slot]? = _ := List.getElem?_map
    rw [held]
    cases shader.uniforms[slot]? with
    | none => exact .none
    | some d => exact .some ⟨rfl, rfl, rfl, rfl⟩
  rest := rfl

theorem Describes.findIdx? (before : c.Describes shader s) (name : String) :
    s.uniforms.findIdx? (·.name = name) = shader.uniforms.findIdx? (·.name = name) := by
  have names : s.uniforms.map Uniform.name = shader.uniforms.map UniformDecl.name := by
    refine List.ext_getElem? fun slot => ?_
    rw [List.getElem?_map, List.getElem?_map]
    have held := before.uniforms slot
    generalize s.uniforms[slot]? = u?, shader.uniforms[slot]? = d? at held ⊢
    cases held with
    | none => rfl
    | some seeded => exact congrArg some seeded.name
  have found := congrArg (List.findIdx? fun other => decide (other = name)) names
  rwa [List.findIdx?_map, List.findIdx?_map] at found

/-! ### One seed more -/

theorem Describes.buffer {seed : BufferSeed} (before : c.Describes shader s)
    (ran : seed.apply s = .ok () s') :
    Describes { c with buffers := c.buffers ++ [seed] } shader s' := by
  obtain ⟨base, found, b, rfl, covered⟩ := seed.apply_covers ran
  refine { before with buffers := ?_ }
  exact Bindings.rel_snoc before.buffers found fun _ _ holds => holds.snoc covered

theorem Describes.image {seed : ImageSeed} (before : c.Describes shader s)
    (ran : seed.apply s = .ok () s') :
    Describes { c with images := c.images ++ [seed] } shader s' := by
  obtain ⟨base, found, i, rfl, covered⟩ := seed.apply_covers ran
  refine { before with images := ?_ }
  exact Bindings.rel_snoc before.images found fun _ _ holds => holds.snoc covered

theorem Describes.texture {seed : SamplerSeed} (before : c.Describes shader s)
    (ran : Store.seedTexture seed.binding seed.texture s = .ok () s') :
    Describes { c with samplers := c.samplers ++ [seed] } shader s' := by
  rw [Store.seedTexture, Store.get_bind] at ran
  cases found : s.textures.get? seed.binding with
  | none =>
    rw [found] at ran
    cases ran
  | some base =>
    rw [found] at ran
    cases ran
    refine { before with textures := ?_ }
    exact Bindings.rel_snoc before.textures found fun earlier d _ => d.seededBy_snoc _ _ earlier seed

theorem seedsOfSlot_snoc (seed : UniformSeed) (slot : Nat) :
    seedsOfSlot { c with uniforms := c.uniforms ++ [seed] } shader slot = c.seedsOfSlot shader slot ++
      if shader.uniforms.findIdx? (·.name = seed.name) = some slot then [seed] else [] := by
  rw [seedsOfSlot, List.filter_append, List.filter_singleton, seedsOfSlot]
  split
  · next here => rw [decide_eq_true here, cond_true]
  · next here => rw [decide_eq_false here, cond_false]

theorem Describes.uniform {seed : UniformSeed} (before : c.Describes shader s)
    (ran : seed.apply s = .ok () s') :
    Describes { c with uniforms := c.uniforms ++ [seed] } shader s' := by
  obtain ⟨slot, u, values, named, held, rfl, gives⟩ := UniformSeed.apply_sets ran
  rw [before.findIdx?] at named
  refine { before with uniforms := fun other => ?_ }
  have holds := before.uniforms other
  rw [seedsOfSlot_snoc, named, List.getElem?_set]
  by_cases here : slot = other
  · subst here
    rw [held] at holds
    rw [if_pos rfl, if_pos rfl, if_pos (List.getElem?_eq_some_iff.1 held).1]
    generalize shader.uniforms[slot]? = d? at holds ⊢
    cases holds with
    | some seeded => exact .some (seeded.snoc gives)
  · rw [if_neg here, if_neg fun same => here (Option.some.inj same), List.append_nil]
    exact holds

/-! ### All seeds -/

/-- What a case describes after more seeds of a kind, if each one leads on to what it describes after one. -/
theorem leads_seeds {σ : Type} {f : σ → StoreM Unit} (extended : List σ → Case) (seeds : List σ)
    (each : ∀ done seed s s', (extended done).Describes shader s → f seed s = .ok () s' →
      (extended (done ++ [seed])).Describes shader s') :
    Leads ((extended []).Describes shader) (seeds.forM f) fun _ => (extended seeds).Describes shader :=
  @leads_forM_from _ (fun done => (extended done).Describes shader) f [] seeds
    fun done seed s _ s' before ran => each done seed s s' before ran

/-- The seeds of a case lead from what it describes without them to what it describes. -/
theorem leads_applySeeds (c : Case) :
    Leads (c.unseeded.Describes shader) c.applySeeds fun _ => c.Describes shader := by
  have buffers := @leads_seeds shader _ BufferSeed.apply
    (fun done => { c.unseeded with buffers := done }) c.buffers
    fun _ _ _ _ before ran => before.buffer ran
  have images := @leads_seeds shader _ ImageSeed.apply
    (fun done => { c with images := done, samplers := [], uniforms := [] }) c.images
    fun _ _ _ _ before ran => before.image ran
  have textures := @leads_seeds shader _ (fun seed => Store.seedTexture seed.binding seed.texture)
    (fun done => { c with samplers := done, uniforms := [] }) c.samplers
    fun _ _ _ _ before ran => before.texture ran
  have uniforms := @leads_seeds shader _ UniformSeed.apply
    (fun done => { c with uniforms := done }) c.uniforms
    fun _ _ _ _ before ran => before.uniform ran
  exact buffers.bind fun _ => images.bind fun _ => textures.bind fun _ => uniforms

/-- Of a uniform with a name of its own, the seeds are those of this name. -/
theorem seedsOfSlot_eq_filter {slot : Nat} {d : UniformDecl} (declared : shader.uniforms[slot]? = some d)
    (first : d.name ∉ (shader.uniforms.take slot).map UniformDecl.name) :
    c.seedsOfSlot shader slot = c.uniforms.filter (·.name = d.name) := by
  obtain ⟨inside, rfl⟩ := List.getElem?_eq_some_iff.1 declared
  refine List.filter_congr fun seed _ => decide_eq_decide.2 ?_
  rw [List.findIdx?_eq_some_iff_getElem]
  constructor
  · rintro ⟨_, named, -⟩
    exact (of_decide_eq_true named).symm
  · intro named
    refine ⟨inside, decide_eq_true named.symm, fun j before same => first ?_⟩
    have member : shader.uniforms[j] ∈ shader.uniforms.take slot :=
      List.mem_take_iff_getElem.2 ⟨j, by omega, rfl⟩
    exact List.mem_map.2 ⟨_, member, (of_decide_eq_true same).trans named⟩

/-- A store that was set up from a case holds what the case describes. Leading data of an image lie at their
own positions as long as these are words, and seeds of a uniform are found by its name. -/
theorem seeded_contents (seeded : c.seededStore shader = .ok s) :
    c.Describes shader s ∧
      (∀ seed ∈ c.images, seed.data.length ≤ 4294967296 →
        ∀ position, seed.dataAt? position = seed.data[position]?) ∧
      ∀ slot d, shader.uniforms[slot]? = some d →
        d.name ∉ (shader.uniforms.take slot).map UniformDecl.name →
        c.seedsOfSlot shader slot = c.uniforms.filter (·.name = d.name) := by
  refine ⟨?_, fun seed _ short => seed.dataAt?_eq short,
    fun slot d declared first => seedsOfSlot_eq_filter declared first⟩
  rw [seededStore] at seeded
  cases ran : c.applySeeds (Store.create shader c.engine) with
  | error e t =>
    rw [ran] at seeded
    cases seeded
  | ok a t =>
    rw [ran] at seeded
    cases seeded
    exact c.leads_applySeeds _ a _ describes_create ran

/-- Two buffers, an image of words and two uniforms, one of them an array. -/
def layered : Shader where
  name := "layered"
  version := 310
  extensions := []
  localSize := ⟨1, 1, 1⟩
  buffers := [⟨0, "In", none, "a", .scalar .uint, .readOnly⟩,
    ⟨3, "Out", none, "b", .vector .bool .two, .readWrite⟩]
  images := [⟨1, "dots", .r32ui, .readWrite⟩]
  samplers := []
  uniforms := [⟨0, "weights", .scalar .int, some 2⟩, ⟨2, "bias", .scalar .uint, none⟩]
  locals := []
  body := []

/-- Seeds that lie over each other. -/
def layers : Case where
  source := "layered"
  engine := { bufferLength := 2 }
  buffers := [
    { binding := 0, length := some 4, fill := some (.int 7) },
    { binding := 0, fill := some (.int 3), set := [(2, .int 5), (0, .int 1), (2, .int 9)] }]
  images := [
    { binding := 1, width := 2, height := 2, fill := some (.int 1),
      data := [.int 2, .int 3, .int 4], texels := [⟨0, 1, .int 8⟩] }]
  uniforms := [⟨"bias", .int 6⟩, ⟨"weights", .list [.int (-1), .int 2]⟩, ⟨"bias", .int 4⟩]

/-- The later seed of a buffer keeps the length of the earlier one, and of two entries for an element or a
texel the last one counts; what has no seed is zero. -/
theorem seeded_contents_layered : ∃ s, layers.seededStore layered = .ok s ∧
    s.buffers.get? 0 = some ⟨"a", .scalar .uint, #[[1], [3], [9], [3]]⟩ ∧
    s.buffers.get? 3 = some ⟨"b", .vector .bool .two, #[[0, 0], [0, 0]]⟩ ∧
    (s.images.get? 1).map Image.texels =
      some #[[2, 0, 0, 0], [3, 0, 0, 0], [8, 0, 0, 0], [1, 0, 0, 0]] ∧
    s.uniforms.map Uniform.values = [[.ofBits (.scalar .int) [0xFFFFFFFF], .ofBits (.scalar .int) [2]],
      [.ofBits (.scalar .uint) [4]]] ∧
    layers.Describes layered s := by
  obtain ⟨s, seeded⟩ : ∃ s, layers.seededStore layered = .ok s := ⟨_, rfl⟩
  refine ⟨s, seeded, ?_, ?_, ?_, ?_, (seeded_contents seeded).1⟩
  all_goals
    cases seeded
    decide +kernel

end Case

end ComputeShader
