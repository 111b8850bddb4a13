import ComputeShader.Proofs.CaseSeeds
import ComputeShader.Proofs.RunValues
import ComputeShader.Proofs.StoreScripts

/-! # Equality in a run

Two values that invocations evaluate are equal if their components are and, where registers have
padding, the first components that the values were made with. As long as nothing is stored into parts
of local variables, these are the first components that the values have, and equality is that of the
components.
-/

namespace ComputeShader

/-! ## Before a run -/

theorem keeps_forM {ε σ β : Type} {I : σ → Prop} {f : β → EStateM ε σ PUnit} {bs : List β}
    (each : ∀ b, Keeps I (f b) fun _ => True) : Keeps I (bs.forM f) fun _ => True := by
  induction bs with
  | nil => exact keeps_pure trivial
  | cons b rest ih => exact (each b).bind fun _ _ => ih

theorem keeps_mapM {ε σ α β : Type} {I : σ → Prop} {Q : α → Prop} {f : β → EStateM ε σ α}
    {bs : List β} (each : ∀ b, Keeps I (f b) Q) : Keeps I (bs.mapM f) fun as => ∀ a ∈ as, Q a := by
  induction bs with
  | nil => exact keeps_pure (by simp)
  | cons b rest ih =>
    rw [List.mapM_cons]
    exact (each b).bind fun a here => ih.bind fun as later =>
      keeps_pure (List.forall_mem_cons.2 ⟨here, later⟩)

namespace Store

/-- Whether uniforms hold whole values. -/
def WholeUniforms (s : Store) : Prop := ∀ u ∈ s.uniforms, ∀ v ∈ u.values, v.Intact

variable {α : Type} {Q : α → Prop} {binding : Binding}

theorem keeps_invalidSeed (target : String) (fault : SeedFault) :
    Keeps WholeUniforms (invalidSeed target fault) Q := keeps_throw _

theorem keeps_seedBufferAt : Keeps WholeUniforms (seedBufferAt binding) fun _ => True := by
  refine keeps_get fun s _ => ?_
  split
  · exact keeps_pure trivial
  · exact keeps_invalidSeed _ _

theorem keeps_seedImageAt : Keeps WholeUniforms (seedImageAt binding) fun _ => True := by
  refine keeps_get fun s _ => ?_
  split
  · exact keeps_pure trivial
  · exact keeps_invalidSeed _ _

theorem keeps_modifyBuffer (f : Buffer → Buffer) :
    Keeps WholeUniforms (modifyBuffer binding f) fun _ => True := keeps_modify fun _ whole => whole

theorem keeps_modifyImage (f : Image → Image) :
    Keeps WholeUniforms (modifyImage binding f) fun _ => True := keeps_modify fun _ whole => whole

theorem keeps_seedElement (index : Nat) (v : Value) :
    Keeps WholeUniforms (seedElement binding index v) fun _ => True := by
  refine keeps_seedBufferAt.bind fun b _ => ?_
  dsimp only
  split
  · exact keeps_invalidSeed _ _
  split
  · exact keeps_invalidSeed _ _
  · exact keeps_modifyBuffer _

theorem keeps_seedTexel (x y : UInt32) (bytes : List UInt8) :
    Keeps WholeUniforms (seedTexel binding x y bytes) fun _ => True := by
  refine keeps_seedImageAt.bind fun i _ => ?_
  dsimp only
  split
  · exact keeps_invalidSeed _ _
  split
  · exact keeps_invalidSeed _ _
  · exact keeps_modifyImage _

theorem keeps_seedTexture (t : Texture) :
    Keeps WholeUniforms (seedTexture binding t) fun _ => True := by
  refine keeps_get fun s _ => ?_
  split
  · exact keeps_modify fun _ whole => whole
  · exact keeps_invalidSeed _ _

theorem keeps_seedUniform (slot : Nat) {values : List Value} (made : ∀ v ∈ values, v.Intact) :
    Keeps WholeUniforms (seedUniform slot values) fun _ => True := by
  refine keeps_get fun s _ => ?_
  split
  · exact keeps_invalidSeed _ _
  split
  · exact keeps_invalidSeed _ _
  · refine keeps_modify fun s whole u member => ?_
    rcases List.mem_or_eq_of_mem_set member with before | rfl
    · exact whole u before
    · exact made

end Store

open Store

theorem keeps_seedValue (target : String) (ty : ValueType) (l : Literal) :
    Keeps WholeUniforms (seedValue target ty l) Value.Intact := by
  unfold seedValue
  split
  · next v read =>
    refine keeps_pure ?_
    obtain ⟨components, -, read⟩ := exists_of_bind_eq_ok read
    split at read <;> cases read
    next count => exact Value.intact_ofComponents (Nat.le_of_eq count)
  · exact keeps_invalidSeed _ _

theorem keeps_seedBytes (target : String) (f : TexelFormat) (l : Literal) :
    Keeps WholeUniforms (seedBytes target f l) fun _ => True := by
  unfold seedBytes
  split
  · exact keeps_pure trivial
  · exact keeps_invalidSeed _ _

theorem BufferSeed.keeps_apply (seed : BufferSeed) :
    Keeps WholeUniforms seed.apply fun _ => True := by
  refine keeps_seedBufferAt.bind fun b _ => ?_
  have element (index : Nat) (l : Literal) : Keeps WholeUniforms (do
      seedElement seed.binding index
        (← seedValue (bufferTarget seed.binding) b.element l)) fun _ => True :=
    (keeps_seedValue _ _ l).bind fun v _ => keeps_seedElement index v
  have elements : Keeps WholeUniforms (do
      seed.data.zipIdx.forM fun x => do
        seedElement seed.binding x.2 (← seedValue (bufferTarget seed.binding) b.element x.1)
      seed.set.forM fun x => do
        seedElement seed.binding x.1 (← seedValue (bufferTarget seed.binding) b.element x.2))
      fun _ => True :=
    (keeps_forM fun _ => element _ _).bind fun _ _ => keeps_forM fun _ => element _ _
  have allocated : Keeps WholeUniforms (allocateBuffer seed.binding (seed.lengthFrom b.length))
      fun _ => True := keeps_seedBufferAt.bind fun _ _ => keeps_modifyBuffer _
  dsimp only
  split
  · exact (keeps_invalidSeed (Q := fun _ => False) _ _).bind fun _ impossible => impossible.elim
  · refine allocated.bind fun _ _ => ?_
    cases seed.fill with
    | none => exact elements
    | some l =>
      exact (keeps_seedValue _ _ l).bind fun v _ => (keeps_modifyBuffer _).bind fun _ _ => elements

theorem ImageSeed.keeps_apply (seed : ImageSeed) :
    Keeps WholeUniforms seed.apply fun _ => True := by
  refine keeps_seedImageAt.bind fun i _ => ?_
  have texel (x y : UInt32) (l : Literal) : Keeps WholeUniforms (do
      seedTexel seed.binding x y (← seedBytes (imageTarget seed.binding) i.format l))
      fun _ => True :=
    (keeps_seedBytes _ _ l).bind fun bytes _ => keeps_seedTexel x y bytes
  have texels : Keeps WholeUniforms (do
      seed.data.zipIdx.forM fun x => do
        let position := UInt32.ofNat x.2
        seedTexel seed.binding (position % seed.width) (position / seed.width)
          (← seedBytes (imageTarget seed.binding) i.format x.1)
      seed.texels.forM fun t => do
        seedTexel seed.binding t.x t.y (← seedBytes (imageTarget seed.binding) i.format t.value))
      fun _ => True :=
    (keeps_forM fun _ => texel _ _ _).bind fun _ _ => keeps_forM fun _ => texel _ _ _
  have allocated : Keeps WholeUniforms (allocateImage seed.binding seed.width seed.height)
      fun _ => True := keeps_seedImageAt.bind fun _ _ => keeps_modifyImage _
  dsimp only
  split
  · exact (keeps_invalidSeed (Q := fun _ => False) _ _).bind fun _ impossible => impossible.elim
  · refine allocated.bind fun _ _ => ?_
    cases seed.fill with
    | none => exact texels
    | some l =>
      exact (keeps_seedBytes _ _ l).bind fun v _ => (keeps_modifyImage _).bind fun _ _ => texels

theorem UniformSeed.keeps_apply (seed : UniformSeed) :
    Keeps WholeUniforms seed.apply fun _ => True := by
  refine keeps_get fun s _ => ?_
  split
  · exact keeps_invalidSeed _ _
  · next slot ty length _ =>
    have values : Keeps WholeUniforms (seed.values ty length) fun vs => ∀ v ∈ vs, v.Intact := by
      unfold values
      split
      · refine (keeps_seedValue _ _ _).bind fun v made => keeps_pure ?_
        exact List.forall_mem_singleton.2 made
      · exact keeps_mapM fun l => keeps_seedValue _ _ l
      · exact keeps_invalidSeed _ _
    exact values.bind fun vs made => keeps_seedUniform slot made

theorem Case.keeps_applySeeds (c : Case) : Keeps WholeUniforms c.applySeeds fun _ => True := by
  unfold applySeeds
  refine (keeps_forM fun seed => seed.keeps_apply).bind fun _ _ => ?_
  refine (keeps_forM fun seed => seed.keeps_apply).bind fun _ _ => ?_
  refine (keeps_forM fun seed : SamplerSeed => keeps_seedTexture seed.texture).bind fun _ _ => ?_
  exact keeps_forM fun seed => seed.keeps_apply

theorem Store.whole_create (shader : Shader) (config : EngineConfig) :
    (Store.create shader config).Whole := by
  refine ⟨(fresh_create shader config).wellFormed, fun u member v held => ?_⟩
  obtain ⟨decl, -, rfl⟩ := List.mem_map.1 member
  rw [List.eq_of_mem_replicate held]
  exact Value.intact_zero

/-- The store of a case holds whole values. -/
theorem Case.whole_of_seededStore {c : Case} {shader : Shader} {s : Store}
    (succeeds : c.seededStore shader = .ok s) : s.Whole := by
  refine ⟨(Case.seeded_of_seededStore succeeds).fresh.wellFormed, ?_⟩
  rw [seededStore] at succeeds
  split at succeeds <;> cases succeeds
  next ran => exact ((c.keeps_applySeeds _ (whole_create shader c.engine).uniforms).1 _ _ ran).1

/-! ## Read back from a buffer -/

/-- Stored to an element of its type, the first value is read back from there as the second one. -/
def Value.ReadsBack (v w : Value) : Prop :=
  ∀ ⦃s : Store⦄ ⦃binding : Binding⦄ ⦃b : Buffer⦄ ⦃i : Nat⦄ (me me' : InvocationId), s.WellFormed →
    s.buffers.get? binding = some b → v.ty = b.element → i < b.length →
    ∃ s' s'', Store.write binding i v me s = .ok () s' ∧ Store.read binding i me' s' = .ok w s''

theorem Store.readsBack_reloaded (v : Value) : v.ReadsBack v.reloaded := by
  intro s binding b i me me' proper found typed inside
  have resolves (policy : OobPolicy) (label : String) :
      Resolution.ofIndex policy label (i : Int) b.length = ⟨.ok (some i), []⟩ := by
    rw [Resolution.ofIndex, if_pos ⟨Int.natCast_nonneg i, Int.ofNat_lt.2 inside⟩]
    rfl
  let place : Location := ⟨.buffer binding, i⟩
  let s' := s.perform me (.store place (.whole v.bits))
  have wrote : write binding i v me s = .ok () s' := by
    rw [write_eq proper found, if_pos typed, resolves]
    rfl
  have frame : s'.frame = s.frame := frame_perform
  obtain ⟨b', found', alike⟩ := buffer_of_frame frame found
  have held : b'.value i = v.reloaded := by
    have bits : b'.bits i = v.bits := by
      have stored : s'.cell place = v.bits := by
        rw [cell_perform, Effect.apply, Function.update_self, apply_whole proper found typed inside]
      rwa [cell, found'] at stored
    rw [Buffer.value, bits, Value.reloaded, typed, Buffer.element_of_frame alike]
  refine ⟨s', s'.performAll me' [.load place], wrote, ?_⟩
  rw [read_eq found', Buffer.length_of_frame alike, resolves, touching]
  exact congrArg (EStateM.Result.ok · _) held

/-! ## In a run -/

namespace RunContext

/-- The states that an invocation comes to: it starts with zeros in its local variables, evaluates
expressions and executes statements. Whether they may store into parts of local variables is `parts`. -/
inductive Reached (c : RunContext) (parts : Bool) : RunState → Prop
  | start {s : Store} : s.Whole → Reached c parts (c.start s)
  | eval {e : Expr} {v : Value} {s s' : RunState} : Reached c parts s → WholeLiterals e.nodes →
      c.eval e s = .ok v s' → Reached c parts s'
  | exec {stmt : Stmt} {flow : Flow} {s s' : RunState} : Reached c parts s →
      WholeLiterals stmt.nodes → (∀ x ∈ stmt.targets, x.1.isLocalPart → parts = true) →
      c.exec stmt s = .ok flow s' → Reached c parts s'

variable {c c' : RunContext} {parts : Bool} {s s' t t' : RunState} {e e' : Expr} {a b : Value}

theorem Reached.holds {P : Value → Prop} (reached : c.Reached parts s)
    (whole : ∀ v : Value, v.Intact → P v) (kept : parts = true → KeptInParts P) : s.Holds P := by
  induction reached with
  | start stored =>
    refine ⟨stored, fun v member => ?_⟩
    obtain ⟨decl, -, rfl⟩ := List.mem_map.1 member
    exact whole _ Value.intact_zero
  | eval _ literals ran ih => exact ((c.keeps_eval whole _ literals _ ih).1 _ _ ran).1
  | exec _ literals targets ran ih =>
    have kept := fun x member part => kept (targets x member part)
    exact ((c.keeps_exec whole _ literals kept _ ih).1 _ _ ran).1

/-- Every value of a run was made as a whole, with some first component. -/
theorem Reached.made (reached : c.Reached parts s) (literals : WholeLiterals e.nodes)
    (ran : c.eval e s = .ok a s') : ∃ first, a.Made first := by
  have whole (v : Value) (intact : v.Intact) : ∃ first, v.Made first := ⟨_, .whole intact rfl⟩
  have kept : KeptInParts fun v => ∃ first, v.Made first :=
    fun _ _ _ _ ⟨first, made⟩ stored => ⟨first, made.part stored⟩
  exact ((c.keeps_eval whole e literals s (reached.holds whole fun _ => kept)).1 a s' ran).2

theorem Reached.intact (reached : c.Reached false s) (literals : WholeLiterals e.nodes)
    (ran : c.eval e s = .ok a s') : a.Intact := by
  have whole (v : Value) (intact : v.Intact) : v.Intact := intact
  exact ((c.keeps_eval whole e literals s (reached.holds whole nofun)).1 a s' ran).2

/-- Equality of two values of a run, and of the first one read back from a buffer. -/
theorem equality_of_evaluated (reached : c.Reached parts s) (reached' : c'.Reached parts t)
    (literals : WholeLiterals e.nodes) (literals' : WholeLiterals e'.nodes)
    (ran : c.eval e s = .ok a s') (ran' : c'.eval e' t = .ok b t') (same : a.ty = b.ty) :
    ∃ first first' equal equal', a.Made first ∧ b.Made first' ∧ a.ReadsBack a.reloaded ∧
      Value.binary .eq a b = .ok (.bool equal) ∧ Value.binary .ne a b = .ok (.bool !equal) ∧
      Value.binary .eq a.reloaded b = .ok (.bool equal') ∧
      (equal = true ↔ a.ComponentsEqual b ∧ (a.ty.Padded → first.eq first' = true)) ∧
      (equal' = true ↔ a.ComponentsEqual b ∧ (a.ty.Padded → (a.lane 0).eq first' = true)) ∧
      (parts = false → (equal = true ↔ a.ComponentsEqual b) ∧ equal' = equal) := by
  obtain ⟨first, made⟩ := reached.made literals ran
  obtain ⟨first', made'⟩ := reached'.made literals' ran'
  have equal := made.eq_iff made' same
  have equal' := a.made_reloaded.eq_iff made' same
  rw [Value.componentsEqual_reloaded] at equal'
  refine ⟨first, first', a.eq b, a.reloaded.eq b, made, made', Store.readsBack_reloaded a, if_pos same,
    if_pos same, if_pos same, equal, equal', ?_⟩
  rintro rfl
  have intact := reached.intact literals ran
  have intact' := reached'.intact literals' ran'
  have components := Value.eq_iff_of_intact intact intact' same
  refine ⟨components, Bool.eq_iff_iff.2 ?_⟩
  rw [Value.eq_iff_of_intact Value.intact_reloaded intact' same, components]
  exact Value.componentsEqual_reloaded

/-- Whether a part of a run gives an answer with a property. -/
def answers {α : Type} (x : RunM α) (s : RunState) (p : α → RunState → Bool) : Bool :=
  match x s with
  | .ok a s' => p a s'
  | .error _ _ => false

theorem exists_of_answers {α : Type} {x : RunM α} {p : α → RunState → Bool}
    (given : answers x s p = true) : ∃ a s', x s = .ok a s' ∧ p a s' = true := by
  rw [answers] at given
  split at given
  · next a s' ran => exact ⟨a, s', ran, given⟩
  · cases given

theorem ok_of_toOption {ε α : Type} {x : Except ε α} {a : α} (same : x.toOption = some a) :
    x = .ok a := by
  cases x with
  | error e => cases same
  | ok b => exact congrArg Except.ok (Option.some.inj same)

/-- `uvec2(x, y)` -/
def pair (x y : UInt32) : Expr :=
  .construct ⟨1, 1⟩ (.vector .uint .two) [.literal ⟨1, 1⟩ (.uint x), .literal ⟨1, 1⟩ (.uint y)]

/-- `uvec2 v = uvec2(1u, 2u); v.x = 3u;` -/
def replacing : Stmt := .block 1
  [.declare 1 0 (some (pair 1 2)),
    .assign 1 [⟨.localVar 0, [.swizzle [0]]⟩] (.literal ⟨1, 1⟩ (.uint 3))]

/-- An invocation with one local variable. -/
def replacingContext : RunContext :=
  { (default : RunContext) with
    shader := { (default : Shader) with locals := [⟨"v", .vector .uint .two⟩], body := [replacing] }
    stepBudget := 100 }

theorem wholeLiterals_replacing :
    WholeLiterals replacing.nodes ∧ ∀ x y, WholeLiterals (pair x y).nodes := by
  have whole (x y : UInt32) : WholeLiterals (pair x y).nodes := by
    intro pos v member
    simp only [pair, Expr.nodes, Expr.nodesOf, List.append_nil, List.cons_append, List.nil_append,
      List.mem_cons, List.not_mem_nil, reduceCtorEq, false_or, or_false] at member
    rcases member with same | same <;> cases same <;> exact Value.intact_ofScalar _
  refine ⟨?_, whole⟩
  have none : WholeLiterals [] := fun _ _ member => (List.not_mem_nil member).elim
  refine wholeLiterals_append.2 ⟨whole 1 2, wholeLiterals_append.2 ⟨?_, none⟩⟩
  intro pos v member
  cases List.mem_singleton.1 member
  exact Value.intact_ofScalar _

/-- The state after the two statements, in the store of a case that seeds nothing. -/
theorem exists_replaced {p : RunState → Bool}
    (holds : answers (replacingContext.exec replacing)
      (replacingContext.start (Store.create replacingContext.shader {})) fun _ s => p s) :
    ∃ s, replacingContext.Reached true s ∧ p s = true := by
  have seeded : (default : Case).seededStore replacingContext.shader =
      .ok (Store.create replacingContext.shader {}) := rfl
  obtain ⟨flow, s, ran, holds⟩ := exists_of_answers holds
  refine ⟨s, .exec (.start ?_) wholeLiterals_replacing.1 (fun _ _ _ => rfl) ran, holds⟩
  exact Case.whole_of_seededStore seeded

theorem equality_of_replaced : ∃ s a b s' t',
    replacingContext.Reached true s ∧ replacingContext.eval (.localVar ⟨2, 1⟩ 0) s = .ok a s' ∧
      replacingContext.eval (pair 3 2) s = .ok b t' ∧ a.ty = b.ty ∧
      ∃ first first' equal equal', a.Made first ∧ b.Made first' ∧
        Value.binary .eq a b = .ok (.bool equal) ∧ Value.binary .ne a b = .ok (.bool !equal) ∧
        Value.binary .eq a.reloaded b = .ok (.bool equal') ∧
        (equal = true ↔ a.ComponentsEqual b ∧ (a.ty.Padded → first.eq first' = true)) ∧
        (equal' = true ↔ a.ComponentsEqual b ∧ (a.ty.Padded → (a.lane 0).eq first' = true)) := by
  obtain ⟨s, reached, evaluates⟩ := exists_replaced
    (p := fun s => answers (replacingContext.eval (.localVar ⟨2, 1⟩ 0)) s fun a _ =>
      answers (replacingContext.eval (pair 3 2)) s fun b _ => a.ty = b.ty) (by decide +kernel)
  obtain ⟨a, s', ran, evaluates⟩ := exists_of_answers evaluates
  obtain ⟨b, t', ran', same⟩ := exists_of_answers evaluates
  have same := of_decide_eq_true same
  have literals : WholeLiterals (Expr.localVar ⟨2, 1⟩ 0).nodes := by simp [WholeLiterals, Expr.nodes]
  obtain ⟨first, first', equal, equal', made, made', -, eq, ne, eq', iff, iff', -⟩ :=
    equality_of_evaluated reached reached literals (wholeLiterals_replacing.2 3 2) ran ran' same
  exact ⟨s, a, b, s', t', reached, ran, ran', same, first, first', equal, equal', made, made', eq, ne,
    eq', iff, iff'⟩

/-- A vector whose first component was replaced differs from a vector of the same components, until it
is read back from a buffer. -/
theorem replaced_unequal : ∃ s a b s' t',
    replacingContext.Reached true s ∧ replacingContext.eval (.localVar ⟨2, 1⟩ 0) s = .ok a s' ∧
      replacingContext.eval (pair 3 2) s = .ok b t' ∧ a.ty = b.ty ∧ a.ComponentsEqual b ∧
      Value.binary .eq a b = .ok (.bool false) ∧ Value.binary .eq a.reloaded b = .ok (.bool true) := by
  obtain ⟨s, reached, evaluates⟩ := exists_replaced
    (p := fun s => answers (replacingContext.eval (.localVar ⟨2, 1⟩ 0)) s fun a _ =>
      answers (replacingContext.eval (pair 3 2)) s fun b _ => a.ty = b.ty ∧ a.ComponentsEqual b ∧
        (Value.binary .eq a b).toOption = some (.bool false) ∧
        (Value.binary .eq a.reloaded b).toOption = some (.bool true)) (by decide +kernel)
  obtain ⟨a, s', ran, evaluates⟩ := exists_of_answers evaluates
  obtain ⟨b, t', ran', holds⟩ := exists_of_answers evaluates
  obtain ⟨same, equal, unequal, reloaded⟩ := of_decide_eq_true holds
  exact ⟨s, a, b, s', t', reached, ran, ran', same, equal, ok_of_toOption unequal,
    ok_of_toOption reloaded⟩

end RunContext

end ComputeShader
