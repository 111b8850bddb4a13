import ComputeShader.Proofs.AccessIsolation
import ComputeShader.Proofs.DeterminedCalls
import ComputeShader.Proofs.DispatchRuns
import ComputeShader.Proofs.RunComposition

/-! # The effects of a run

Every elementary part of a run is determined by the contents of the store, and so is the run: its effects,
its answer and the errors that it can end with. These are faults and type errors; if the body is closed
and the store has what is declared, no type error dangles.
-/

namespace ComputeShader

namespace Store

variable {s t : Store}

/-! ## Declarations and stores -/

/-- Whether a store has what a shader declares, as it is declared. -/
structure Provides (s : Store) (shader : Shader) : Prop where
  buffers : ∀ binding decl, shader.buffer? binding = some decl →
    ∃ b, s.buffers.get? binding = some b ∧ b.element = decl.element
  images : ∀ binding decl, shader.image? binding = some decl →
    ∃ i, s.images.get? binding = some i ∧ i.format = decl.format
  samplers : ∀ decl ∈ shader.samplers, ∃ t, s.textures.get? decl.binding = some t
  uniforms : ∀ (slot : Nat) decl, shader.uniforms[slot]? = some decl →
    ∃ u, s.uniforms[slot]? = some u ∧ u.isArray = decl.arrayLength.isSome

theorem Provides.of_frame {shader : Shader} (provides : s.Provides shader)
    (frame : t.frame = s.frame) : t.Provides shader := by
  constructor
  · intro binding decl declared
    obtain ⟨b, found, element⟩ := provides.buffers binding decl declared
    obtain ⟨b', found', alike⟩ := buffer_of_frame frame found
    exact ⟨b', found', (Buffer.element_of_frame alike).trans element⟩
  · intro binding decl declared
    obtain ⟨i, found, format⟩ := provides.images binding decl declared
    obtain ⟨i', found', alike⟩ := image_of_frame frame found
    exact ⟨i', found', (Image.format_of_frame alike).trans format⟩
  · intro decl declared
    have textures : t.frame.textures = s.frame.textures := by rw [frame]
    rw [show t.textures = s.textures from textures]
    exact provides.samplers decl declared
  · intro slot decl declared
    have uniforms : t.frame.uniforms = s.frame.uniforms := by rw [frame]
    rw [show t.uniforms = s.uniforms from uniforms]
    exact provides.uniforms slot decl declared

end Store

namespace RunContext

variable {c : RunContext} {F s : Store} {α : Type}

/-- The errors that a run can end with: faults and type errors, which do not dangle if the body is
closed and the store has what is declared. -/
def Expected (c : RunContext) (F : Store) (e : EngineError) : Prop :=
  e.Stops ∧ (c.shader.Closed → F.Provides c.shader → ¬ e.Dangling)

theorem expected_fault {e : EngineError} (fault : e.isInvocationFault) : c.Expected F e :=
  ⟨.inl fault, fun _ _ => EngineError.not_dangling_of_fault fault⟩

theorem expected_mismatch {site : AccessSite} {e : TypeError}
    (ordinary : c.shader.Closed → F.Provides c.shader → ¬ (EngineError.typeMismatch site e).Dangling) :
    c.Expected F (.typeMismatch site e) :=
  ⟨.inr ⟨site, e, rfl⟩, ordinary⟩

/-! ## Operations of the store -/

/-- An operation that begins by looking up a buffer. -/
theorem determined_bufferAt {binding : Binding} {k : Buffer → StoreM α}
    (declared : c.shader.Closed → c.shader.DeclaresBuffer binding)
    (held : ∀ s : Store, s.frame = F.frame → s.WellFormed → ∀ b,
      s.buffers.get? binding = some b →
        Store.DeterminedAt (c.Expected F) c.me s (Store.bufferAt binding >>= k)) :
    Store.Determined (c.Expected F) F c.me (Store.bufferAt binding >>= k) := by
  intro s frame proper
  cases found : s.buffers.get? binding with
  | some b => exact held s frame proper b found
  | none =>
    have expected : c.Expected F (Store.undeclaredBuffer binding) := by
      refine expected_mismatch fun closed provides => ?_
      obtain ⟨decl, is_declared⟩ := declared closed
      obtain ⟨b, provided, -⟩ := (provides.of_frame frame).buffers binding decl is_declared
      rw [found] at provided
      cases provided
    refine (Store.determinedAt_throw expected).congr fun t same => ?_
    refine Store.bind_eq_error (Store.bufferAt_eq_error ?_)
    rw [Store.buffers_of_contents same, found]

/-- An operation that begins by looking up an image. -/
theorem determined_imageAt {binding : Binding} {k : Image → StoreM α}
    (declared : c.shader.Closed → c.shader.DeclaresImage binding)
    (held : ∀ s : Store, s.frame = F.frame → s.WellFormed → ∀ i,
      s.images.get? binding = some i →
        Store.DeterminedAt (c.Expected F) c.me s (Store.imageAt binding >>= k)) :
    Store.Determined (c.Expected F) F c.me (Store.imageAt binding >>= k) := by
  intro s frame proper
  cases found : s.images.get? binding with
  | some i => exact held s frame proper i found
  | none =>
    have expected : c.Expected F (Store.undeclaredImage binding) := by
      refine expected_mismatch fun closed provides => ?_
      obtain ⟨decl, is_declared⟩ := declared closed
      obtain ⟨i, provided, -⟩ := (provides.of_frame frame).images binding decl is_declared
      rw [found] at provided
      cases provided
    refine (Store.determinedAt_throw expected).congr fun t same => ?_
    refine Store.bind_eq_error (Store.imageAt_eq_error ?_)
    rw [Store.images_of_contents same, found]

theorem determined_resolve (label : String) (index : Int) (extent : Nat) :
    Store.Determined (c.Expected F) F c.me (Store.resolve label index extent c.me) :=
  fun _ _ _ => Store.determinedAt_resolve label index extent fun _ fault => expected_fault fault

/-- An operation that touches an element. -/
theorem determinedAt_of_element {x : StoreM α} {label : String} {index : Int} {extent : Nat}
    {dropped : α} {access : Nat → Except EngineError (Effect × α)}
    (acts : ∀ i, (∃ e a, access i = .ok (e, a) ∧ e.Admitted s ∧ e.noted? = none) ∨
      ∃ e, access i = .error e ∧ c.Expected F e)
    (ran : ∀ t : Store, t.contents = s.contents →
      x t = t.touching c.me (.ofIndex t.oobPolicy label index extent) dropped access) :
    Store.DeterminedAt (c.Expected F) c.me s x :=
  Store.determinedAt_of_touching (fun policy => .ofIndex policy label index extent)
    (Resolution.steady_ofIndex label index extent)
    (fun _ failed => expected_fault (Resolution.fault_ofIndex failed)) (fun i _ => acts i) ran

/-- An operation that touches a texel. -/
theorem determinedAt_of_texel {x : StoreM α} {image : Image} {binding : Binding} {i j : Int}
    {dropped : α} {effect : Nat → Effect} {answer : Nat → α}
    (admitted : ∀ t, (effect t).Admitted s ∧ (effect t).noted? = none)
    (ran : ∀ t : Store, t.contents = s.contents →
      x t = t.touching c.me (.ofTexel t.oobPolicy image binding i j) dropped
        fun texel => .ok (effect texel, answer texel)) :
    Store.DeterminedAt (c.Expected F) c.me s x :=
  Store.determinedAt_of_touching (fun policy => .ofTexel policy image binding i j)
    (Resolution.steady_ofTexel image binding i j)
    (fun _ failed => expected_fault (Resolution.fault_ofTexel failed))
    (fun t _ => .inl ⟨effect t, answer t, rfl, admitted t⟩) ran

theorem determined_read {binding : Binding} (index : Int)
    (declared : c.shader.Closed → c.shader.DeclaresBuffer binding) :
    Store.Determined (c.Expected F) F c.me (Store.read binding index c.me) := by
  refine determined_bufferAt declared fun s frame proper b found => ?_
  refine determinedAt_of_element (fun i => ?_) fun t same =>
    Store.read_eq (Store.buffer_of_contents same found) c.me index
  exact .inl ⟨.load ⟨.buffer binding, i⟩, b.value i, rfl, trivial, rfl⟩

theorem determined_write {binding : Binding} (index : Int) (v : Value)
    (declared : c.shader.Closed → c.shader.DeclaresBuffer binding) :
    Store.Determined (c.Expected F) F c.me (Store.write binding index v c.me) := by
  refine determined_bufferAt declared fun s frame proper b found => ?_
  have ran {t : Store} (same : t.contents = s.contents) :=
    Store.write_eq (proper.of_contents same) (Store.buffer_of_contents same found) c.me index v
  by_cases typed : v.ty = b.element
  · refine determinedAt_of_element (fun i => ?_) fun t same => (ran same).trans (if_pos typed)
    exact .inl ⟨_, (), rfl, Store.admitted_whole found typed, rfl⟩
  · have expected : c.Expected F (.typeMismatch (.store (b.label binding))
        ⟨b.element.name, v.ty.name⟩) := expected_mismatch fun _ _ => nofun
    exact (Store.determinedAt_throw expected).congr fun t same => (ran same).trans (if_neg typed)

theorem determined_update {binding : Binding} (index : Int) (line : Nat) (path : List Step)
    (v : Value) (declared : c.shader.Closed → c.shader.DeclaresBuffer binding) :
    Store.Determined (c.Expected F) F c.me (Store.update binding index c.me fun old =>
      (setPath old path v).mapError (.typeMismatch (.atLine "store" line))) := by
  refine determined_bufferAt declared fun s frame proper b found => ?_
  have ran {t : Store} (same : t.contents = s.contents) :=
    Store.update_eq (proper.of_contents same) (Store.buffer_of_contents same found) c.me index
      fun old => (setPath old path v).mapError (.typeMismatch (.atLine "store" line))
  refine determinedAt_of_element (fun i => ?_) fun t same => ran same
  rw [Store.updated]
  cases changed : setPath (b.value i) path v with
  | error e =>
    refine .inr ⟨_, rfl, expected_mismatch fun _ _ => ?_⟩
    exact EngineError.not_dangling_place (Value.failsWith_setPath _ path v e changed)
  | ok new =>
    by_cases typed : new.ty = b.element
    · exact .inl ⟨_, (), if_pos typed, Store.admitted_whole found typed, rfl⟩
    · refine .inr ⟨_, if_neg typed, expected_mismatch fun _ _ => ?_⟩
      rintro ⟨⟩

theorem determined_length {binding : Binding}
    (declared : c.shader.Closed → c.shader.DeclaresBuffer binding) :
    Store.Determined (c.Expected F) F c.me (Store.length binding) := by
  refine determined_bufferAt declared fun s frame proper b found => ?_
  refine (Store.determinedAt_pure b.length).congr fun t same => ?_
  exact Store.bind_eq (Store.bufferAt_eq (Store.buffer_of_contents same found))

/-- An atomic on integers with the operands it takes fails only for the type of an operand. -/
theorem not_dangling_atomic {element : ValueType} {op : AtomicOp} {operands : Nat} {label : String}
    {e : TypeError} (reason : Store.AtomicError element op operands e)
    (integer : element = .scalar .int ∨ element = .scalar .uint) (count : operands = op.operandCount) :
    ¬ (EngineError.typeMismatch (.atomic label) e).Dangling := by
  cases reason with
  | element not_int not_uint => exact (integer.elim not_int not_uint).elim
  | count differ => exact (differ count).elim
  | kind kind found =>
    have word : kind.name ≠ "2 operands" ∧ kind.name ≠ "1 operand" ∧ kind.name ≠ "int or uint" := by
      cases kind <;> decide
    generalize kind.name = name at word ⊢
    intro dangling
    cases dangling with
    | operands _ _ op' =>
      by_cases swap : op' = .compSwap
      · exact word.1 (if_pos swap)
      · exact word.2.1 (if_neg swap)
    | atomicElement => exact word.2.2 rfl

theorem determined_atomic (op : AtomicOp) {binding : Binding} (index : Int) {operands : List Value}
    (declared : c.shader.Closed →
      operands.length = op.operandCount ∧ c.shader.DeclaresIntegers binding) :
    Store.Determined (c.Expected F) F c.me (Store.atomic op binding index operands c.me) := by
  have buffer (closed : c.shader.Closed) : c.shader.DeclaresBuffer binding := by
    obtain ⟨-, decl, found, -⟩ := declared closed
    exact ⟨decl, found⟩
  refine determined_bufferAt buffer fun s frame proper b found => ?_
  rcases Store.atomic_eq binding b op index operands c.me with
    ⟨e, reason, fails⟩ | ⟨change, integer, runs⟩
  · have expected : c.Expected F (.typeMismatch (.atomic (b.label binding)) e) := by
      refine expected_mismatch fun closed provides => ?_
      obtain ⟨count, decl, is_declared, integer⟩ := declared closed
      obtain ⟨b', provided, element⟩ := (provides.of_frame frame).buffers binding decl is_declared
      obtain rfl : b = b' := Option.some.inj (found.symm.trans provided)
      exact not_dangling_atomic reason (element ▸ integer) count
    exact (Store.determinedAt_throw expected).congr fun t same =>
      fails t (Store.buffer_of_contents same found)
  · refine determinedAt_of_element (fun i => ?_) fun t same =>
      runs t (proper.of_contents same) (Store.buffer_of_contents same found)
    exact .inl ⟨.atomic ⟨.buffer binding, i⟩ change, b.value i, rfl,
      Store.admitted_atomic found integer, rfl⟩

theorem determined_imageLoad {binding : Binding} (x y : Int)
    (declared : c.shader.Closed → c.shader.DeclaresImage binding) :
    Store.Determined (c.Expected F) F c.me (Store.imageLoad binding x y c.me) := by
  refine determined_imageAt declared fun s frame proper i found => ?_
  refine determinedAt_of_texel (fun t => ?_) fun t same =>
    Store.imageLoad_eq (Store.image_of_contents same found) c.me x y
  exact ⟨trivial, rfl⟩

theorem determined_imageStore {binding : Binding} (x y : Int) (v : Value)
    (declared : c.shader.Closed → c.shader.DeclaresImage binding) :
    Store.Determined (c.Expected F) F c.me (Store.imageStore binding x y v c.me) := by
  refine determined_imageAt declared fun s frame proper i found => ?_
  have ran {t : Store} (same : t.contents = s.contents) :=
    Store.imageStore_eq (proper.of_contents same) (Store.image_of_contents same found) c.me x y v
  cases encoded : i.format.encode v with
  | error e =>
    have expected : c.Expected F (.typeMismatch (.imageStore binding) e) :=
      expected_mismatch fun _ _ => nofun
    refine (Store.determinedAt_throw expected).congr fun t same => (ran same).trans ?_
    rw [encoded]
    rfl
  | ok bytes =>
    refine determinedAt_of_texel (fun t => ?_) fun t same => (ran same).trans (by rw [encoded])
    exact ⟨fun _ _ _ => trivial, rfl⟩

theorem determined_imageAtomicAdd {binding : Binding} (x y : Int) (v : Value)
    (declared : c.shader.Closed → c.shader.DeclaresIntegerImage binding) :
    Store.Determined (c.Expected F) F c.me (Store.imageAtomicAdd binding x y v c.me) := by
  have image (closed : c.shader.Closed) : c.shader.DeclaresImage binding := by
    obtain ⟨decl, found, -⟩ := declared closed
    exact ⟨decl, found⟩
  refine determined_imageAt image fun s frame proper i found => ?_
  have ran {t : Store} (same : t.contents = s.contents) :=
    Store.imageAtomicAdd_eq (proper.of_contents same) (Store.image_of_contents same found) c.me x y v
  by_cases unsupported : !i.format.supportsAtomics
  · have expected : c.Expected F (.typeMismatch (.imageAtomic binding)
        ⟨"an r32i or r32ui image", i.format.name⟩) := by
      refine expected_mismatch fun closed provides => ?_
      obtain ⟨decl, is_declared, integer⟩ := declared closed
      obtain ⟨i', provided, format⟩ := (provides.of_frame frame).images binding decl is_declared
      obtain rfl : i = i' := Option.some.inj (found.symm.trans provided)
      rcases integer with same | same <;> rw [format, same] at unsupported <;> cases unsupported
    exact (Store.determinedAt_throw expected).congr fun t same =>
      (ran same).trans (if_pos unsupported)
  by_cases other : v.ty ≠ .scalar i.format.kind
  · have expected : c.Expected F (.typeMismatch (.imageAtomic binding)
        ⟨i.format.kind.name, v.ty.name⟩) := by
      refine expected_mismatch fun _ _ => ?_
      have word : i.format.kind.name ≠ "an r32i or r32ui image" := by
        cases i.format.kind <;> decide
      generalize i.format.kind.name = name at word ⊢
      intro dangling
      cases dangling
      exact word rfl
    refine (Store.determinedAt_throw expected).congr fun t same => (ran same).trans ?_
    rw [if_neg unsupported, if_pos other]
    rfl
  · refine determinedAt_of_texel (fun t => ?_) fun t same =>
      (ran same).trans ((if_neg unsupported).trans (if_neg other))
    exact ⟨fun _ => trivial, rfl⟩

theorem determined_imageSize {binding : Binding}
    (declared : c.shader.Closed → c.shader.DeclaresImage binding) :
    Store.Determined (c.Expected F) F c.me (Store.imageSize binding) := by
  refine determined_imageAt declared fun s frame proper i found => ?_
  refine (Store.determinedAt_pure (i.width, i.height)).congr fun t same => ?_
  exact Store.bind_eq (Store.imageAt_eq (Store.image_of_contents same found))

theorem determined_uniform (slot : Nat) (element : Option Int)
    (declared : c.shader.Closed → c.shader.DeclaresUniform slot element.isSome) :
    Store.Determined (c.Expected F) F c.me (Store.uniform slot element c.me) := by
  intro s frame proper
  have is_array (closed : c.shader.Closed) (provides : F.Provides c.shader) :
      ∃ u, s.uniforms[slot]? = some u ∧ u.isArray = element.isSome := by
    obtain ⟨decl, found, array⟩ := declared closed
    obtain ⟨u, provided, same⟩ := (provides.of_frame frame).uniforms slot decl found
    exact ⟨u, provided, same.trans array⟩
  -- What is looked up is the same on all stores with these contents.
  have looked {t : Store} (same : t.contents = s.contents) : t.uniforms = s.uniforms := by
    simpa [Store.contents] using congrArg Store.uniforms same
  cases found : s.uniforms[slot]? with
  | none =>
    have expected : c.Expected F (.typeMismatch (.undeclared "uniform" (slot % 4294967296))
        ⟨"a declared uniform", "nothing"⟩) := by
      refine expected_mismatch fun closed provides => ?_
      obtain ⟨u, provided, -⟩ := is_array closed provides
      rw [found] at provided
      cases provided
    refine (Store.determinedAt_throw expected).congr fun t same => ?_
    rw [Store.uniform, Store.get_bind, looked same, found]
  | some u =>
    cases element with
    | none =>
      by_cases array : u.isArray
      · have expected : c.Expected F (.typeMismatch (.uniform u.name)
            ⟨"an indexed element", u.ty.name ++ "[" ++ toString u.values.length ++ "]"⟩) := by
          refine expected_mismatch fun closed provides => ?_
          obtain ⟨u', provided, single⟩ := is_array closed provides
          obtain rfl : u = u' := Option.some.inj (found.symm.trans provided)
          rw [array] at single
          cases single
        refine (Store.determinedAt_throw expected).congr fun t same => ?_
        rw [Store.uniform, Store.get_bind, looked same, found]
        exact congrFun (if_pos array) t
      · refine (Store.determinedAt_pure (u.values.headD (Value.zero u.ty))).congr fun t same => ?_
        rw [Store.uniform, Store.get_bind, looked same, found]
        exact congrFun (if_neg array) t
    | some index =>
      have lookup : Store.Determined (c.Expected F) F c.me
          (Store.resolve ("uniform `" ++ u.name ++ "`") index u.values.length c.me >>= fun i? =>
            i?.elim (pure (Value.zero u.ty)) fun i => pure (u.values.getD i (Value.zero u.ty))) := by
        refine (determined_resolve _ _ _).bind fun i? => ?_
        cases i? with
        | none => exact Store.determined_pure _
        | some i => exact Store.determined_pure _
      refine (lookup s frame proper).congr fun t same => ?_
      rewrite [Store.uniform, Store.get_bind, looked same, found]
      refine congrFun (congrArg (Store.resolve _ _ _ _ >>= ·) (funext fun i? => ?_)) t
      cases i? with
      | none | some => rfl

theorem determined_sample {binding : Binding} (r : SampleRequest)
    (declared : c.shader.Closed → c.shader.DeclaresSampler binding) :
    Store.Determined (c.Expected F) F c.me (Store.sample c.sampler binding r) := by
  intro s frame proper
  have looked {t : Store} (same : t.contents = s.contents) : t.textures = s.textures := by
    simpa [Store.contents] using congrArg Store.textures same
  cases found : s.textures.get? binding with
  | none =>
    have expected : c.Expected F (.typeMismatch (.undeclared "sampler" binding.toNat)
        ⟨"a declared sampler", "nothing"⟩) := by
      refine expected_mismatch fun closed provides => ?_
      obtain ⟨decl, member, rfl⟩ := declared closed
      obtain ⟨texture, provided⟩ := (provides.of_frame frame).samplers decl member
      rw [found] at provided
      cases provided
    refine (Store.determinedAt_throw expected).congr fun t same => ?_
    rw [Store.sample, Store.get_bind, looked same, found]
  | some texture =>
    cases sampled : c.sampler.sample texture r with
    | ok lanes =>
      refine (Store.determinedAt_pure lanes).congr fun t same => ?_
      rw [Store.sample, Store.get_bind, looked same, found]
      simp only [sampled]
    | error reason =>
      have expected : c.Expected F (.samplerUnavailable binding reason) := expected_fault rfl
      refine (Store.determinedAt_throw expected).congr fun t same => ?_
      rw [Store.sample, Store.get_bind, looked same, found]
      simp only [sampled]

/-- Every operation of a run is determined. -/
theorem determined_access {x : StoreM α} (operation : c.Access x) :
    Store.Determined (c.Expected F) F c.me x := by
  cases operation with
  | resolve label index extent => exact determined_resolve label index extent
  | uniform slot element declared => exact determined_uniform slot element declared
  | read binding index declared _ => exact determined_read index declared
  | write binding index v declared _ => exact determined_write index v declared
  | update binding index line path v declared _ _ => exact determined_update index line path v declared
  | length binding declared => exact determined_length declared
  | atomic op binding index operands declared _ => exact determined_atomic op index declared
  | imageLoad binding x y declared _ => exact determined_imageLoad x y declared
  | imageStore binding x y v declared _ => exact determined_imageStore x y v declared
  | imageAtomicAdd binding x y v declared _ => exact determined_imageAtomicAdd x y v declared
  | imageSize binding declared => exact determined_imageSize declared
  | sample binding r declared => exact determined_sample r declared

/-! ## Runs -/

/-- Whether a part of a run is determined, whatever the local variables and the steps taken. -/
def Determined (c : RunContext) (F : Store) (x : RunM α) : Prop :=
  ∀ locals steps, Store.Determined (c.Expected F) F c.me (onStores x locals steps)

theorem determined_step : Determined c F c.step := by
  intro locals steps
  have stepped : onStores c.step locals steps =
      if c.stepBudget < steps + 1 then throw (.stepBudgetExceeded c.me c.stepBudget)
      else pure ((), locals, steps + 1) := by
    funext store
    by_cases spent : c.stepBudget < steps + 1
    · simp only [onStores, step_eq, if_pos spent]
      rfl
    · simp only [onStores, step_eq, if_neg spent]
      rfl
  rw [stepped]
  split
  · exact Store.determined_throw (expected_fault rfl)
  · exact Store.determined_pure _

/-- What the elementary parts of a run are, its composition is. -/
theorem Composed.determined {x : RunM α} (composed : c.Composed x) : Determined c F x := by
  induction composed with
  | pure a => exact fun locals steps => Store.determined_pure (a, locals, steps)
  | bind_of first gives next ih ih' =>
    intro locals steps
    rw [onStores_bind]
    refine (ih locals steps).bind_of (Q := fun r => _) ?_ fun r given => ih' r.1 given r.2.1 r.2.2
    intro store r store' ran
    rw [onStores] at ran
    split at ran
    · next a s ran' =>
      cases ran
      exact gives _ _ _ ran'
    · cases ran
  | step => exact determined_step
  | mismatch site e ordinary =>
    exact fun _ _ => Store.determined_throw (expected_mismatch fun closed _ => ordinary closed)
  | @loadLocal α slot k declared next ih =>
    intro locals steps
    have looked : onStores (get >>= fun s => k (s.locals.getD slot default)) locals steps =
        onStores (k (locals.getD slot default)) locals steps := rfl
    rw [looked]
    exact ih _ locals steps
  | storeLocal slot v declared =>
    exact fun locals steps => Store.determined_pure ((), locals.set slot v, steps)
  | access operation =>
    intro locals steps
    rw [onStores_onStore]
    exact (determined_access operation).bind fun a => Store.determined_pure (a, locals, steps)

/-- What is known of an invocation once its effects and the error that ends the dispatch, if any, are:
these are the same on all stores with the contents of one. -/
structure FinishesBy (c : RunContext) (s : Store) (effects : List Effect)
    (answer : Option EngineError) : Prop where
  admitted : ∀ e ∈ effects, e.Admitted s
  unraced : ∀ e ∈ effects, e.noted? ≠ some .raceDetected
  mismatch : ∀ e ∈ answer, ∃ site found, e = .typeMismatch site found
  expected : ∀ e ∈ answer, c.Expected s e
  finish : ∀ t : Store, t.contents = s.contents →
    (t.oobPolicy = s.oobPolicy ∨ ∀ e ∈ effects, e.noted? ≠ some .outOfBounds) →
      c.finish t = (answer, t.performAll c.me effects)

theorem exists_finishesBy (c : RunContext) (proper : s.WellFormed) :
    ∃ effects answer, c.FinishesBy s effects answer := by
  obtain ⟨effects, answer, allowed, fails, ran⟩ := (composed_body c).determined (F := s)
    (c.shader.locals.map fun l => Value.zero l.ty) 0 s rfl proper
  have admitted : ∀ e ∈ effects, e.Admitted s := fun e member => (allowed e member).1
  have unraced : ∀ e ∈ effects, e.noted? ≠ some .raceDetected := by
    intro e member noted
    cases (allowed e member).2 _ noted
  have silent (inside : ∀ e ∈ effects, e.noted? ≠ some .outOfBounds) :
      ∀ e ∈ effects, e.noted? = none := by
    intro e member
    refine Option.eq_none_iff_forall_ne_some.2 fun kind noted => ?_
    obtain rfl := (allowed e member).2 kind noted
    exact inside e member noted
  cases answer with
  | ok r =>
    refine ⟨effects, none, admitted, unraced, by rintro _ ⟨⟩, by rintro _ ⟨⟩, fun t same policy => ?_⟩
    have ended := ran t same
      (policy.imp_right fun inside => ⟨silent inside, by rintro _ _ _ ⟨⟩⟩)
    rw [finish, run_eq, ended]
    rfl
  | error e =>
    have expected : c.Expected s e := fails e rfl
    by_cases fault : e.isInvocationFault
    · refine ⟨effects ++ [.note e.kind (e.message s.shader)], none, fun e' member => ?_,
        fun e' member => ?_, by rintro _ ⟨⟩, by rintro _ ⟨⟩, fun t same policy => ?_⟩
      · rcases List.mem_append.1 member with earlier | last
        · exact admitted e' earlier
        · obtain rfl := List.mem_singleton.1 last
          trivial
      · rcases List.mem_append.1 member with earlier | last
        · exact unraced e' earlier
        · obtain rfl := List.mem_singleton.1 last
          exact fun noted => kind_of_isInvocationFault fault (Option.some.inj noted)
      · have ended := ran t same (policy.imp_right fun inside => by
          constructor
          · exact silent fun e' member => inside e' (List.mem_append_left _ member)
          · rintro label index extent ⟨⟩
            exact inside _ (List.mem_append_right _ (List.mem_singleton.2 rfl)) rfl)
        have name : (t.performAll c.me effects).shader = s.shader :=
          (Store.shader_of_frame Store.frame_performAll).trans (Store.shader_of_contents same)
        rw [finish, run_eq, ended, Store.performAll_concat]
        simp only [Store.outcome, if_pos fault, Store.recordFault, name]
        rfl
    · obtain ⟨site, found, rfl⟩ := expected.1.resolve_left fault
      refine ⟨effects, some (.typeMismatch site found), admitted, unraced, ?_, ?_,
        fun t same policy => ?_⟩
      · rintro _ ⟨⟩
        exact ⟨site, found, rfl⟩
      · rintro _ ⟨⟩
        exact expected
      · have ended := ran t same
          (policy.imp_right fun inside => ⟨silent inside, by rintro _ _ _ ⟨⟩⟩)
        rw [finish, run_eq, ended]
        simp only [Store.outcome, if_neg fault]

end RunContext

end ComputeShader
