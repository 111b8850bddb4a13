import ComputeShader.Proofs.CaseSeeds
import ComputeShader.Proofs.ErasedPositions
import ComputeShader.Proofs.StepTraces

/-! # Evaluating again

Two runs mirror each other if they differ in nothing but the labels and the places that they give in
diagnostics and type errors. A run without atomics that only evaluates changes nothing but the log, the
conflicts, the diagnostics and the number of steps, and none of these decides what it gives. So an
expression can be evaluated again, or at another place, with the same value.
-/

namespace ComputeShader

namespace Store

/-- A store without the log, the conflicts and the diagnostics. -/
def visible (s : Store) : Store := { s with log := {}, conflicts := [], diagnostics := [] }

section Visible

variable {s t : Store}

theorem oobPolicy_of_visible (same : t.visible = s.visible) : t.oobPolicy = s.oobPolicy := by
  simpa [visible] using congrArg Store.oobPolicy same

theorem buffers_of_visible (same : t.visible = s.visible) : t.buffers = s.buffers := by
  simpa [visible] using congrArg Store.buffers same

theorem images_of_visible (same : t.visible = s.visible) : t.images = s.images := by
  simpa [visible] using congrArg Store.images same

theorem textures_of_visible (same : t.visible = s.visible) : t.textures = s.textures := by
  simpa [visible] using congrArg Store.textures same

theorem uniforms_of_visible (same : t.visible = s.visible) : t.uniforms = s.uniforms := by
  simpa [visible] using congrArg Store.uniforms same

end Visible

section Tracks

variable {α β : Type} {x y : StoreM α}

/-- Whether one operation does as another one on stores that are visibly the same: it gives the same answer
and leaves visibly the same. -/
def Tracks (x y : StoreM α) : Prop :=
  ∀ s a s', x s = .ok a s' → ∀ t : Store, t.visible = s.visible →
    ∃ t', y t = .ok a t' ∧ t'.visible = s'.visible

theorem tracks_pure (a : α) : Tracks (pure a) (pure a) := by
  intro s a' s' ran t same
  cases ran
  exact ⟨t, rfl, same⟩

theorem tracks_throw (e : EngineError) (y : StoreM α) : Tracks (throw e) y := by
  rintro s a s' ⟨⟩

theorem Tracks.bind {k l : α → StoreM β} (first : Tracks x y) (next : ∀ a, Tracks (k a) (l a)) :
    Tracks (x >>= k) (y >>= l) := by
  intro s b s' ran t same
  obtain ⟨a, s₁, ran₁, ran⟩ := exists_of_ran_bind ran
  obtain ⟨t₁, done₁, same₁⟩ := first s a s₁ ran₁ t same
  obtain ⟨t', done, same'⟩ := next a s₁ b s' ran t₁ same₁
  exact ⟨t', (bind_eq done₁).trans done, same'⟩

theorem tracks_get {k l : Store → StoreM α}
    (next : ∀ s t : Store, t.visible = s.visible → Tracks (k s) (l t)) :
    Tracks (get >>= k) (get >>= l) :=
  fun s a s' ran t same => next s t same s a s' ran t same

theorem tracks_modify {f g : Store → Store}
    (alike : ∀ s t : Store, t.visible = s.visible → (g t).visible = (f s).visible) :
    Tracks (modify f) (modify g) := by
  intro s a s' ran t same
  cases ran
  exact ⟨g t, rfl, alike s t same⟩

/-- Whether an operation also leaves visibly what it found. -/
structure Looks (x y : StoreM α) : Prop where
  tracks : Tracks x y
  unchanged : ∀ s a s', x s = .ok a s' → s'.visible = s.visible

theorem looks_pure (a : α) : Looks (pure a) (pure a) := by
  refine ⟨tracks_pure a, fun s a' s' ran => ?_⟩
  cases ran
  rfl

theorem looks_throw (e e' : EngineError) : Looks (throw e : StoreM α) (throw e') :=
  ⟨tracks_throw e _, by rintro s a s' ⟨⟩⟩

theorem Looks.bind {k l : α → StoreM β} (first : Looks x y) (next : ∀ a, Looks (k a) (l a)) :
    Looks (x >>= k) (y >>= l) := by
  refine ⟨first.tracks.bind fun a => (next a).tracks, fun s b s' ran => ?_⟩
  obtain ⟨a, s₁, ran₁, ran⟩ := exists_of_ran_bind ran
  exact ((next a).unchanged s₁ b s' ran).trans (first.unchanged s a s₁ ran₁)

theorem looks_get {k l : Store → StoreM α}
    (next : ∀ s t : Store, t.visible = s.visible → Looks (k s) (l t)) : Looks (get >>= k) (get >>= l) :=
  ⟨tracks_get fun s t same => (next s t same).tracks,
    fun s a s' ran => (next s s rfl).unchanged s a s' ran⟩

theorem looks_modify {f g : Store → Store} (hidden : ∀ s, (f s).visible = s.visible)
    (hidden' : ∀ s, (g s).visible = s.visible) : Looks (modify f) (modify g) := by
  refine ⟨tracks_modify fun s t same => by rw [hidden, hidden', same], fun s a s' ran => ?_⟩
  cases ran
  exact hidden s

end Tracks

/-! ## Operations that only look -/

section Looks

variable {me : InvocationId} {binding : Binding}

theorem visible_record (s : Store) (kind : ErrorKind) (message : String) :
    (s.record kind message me).visible = s.visible :=
  rfl

/-- What an index stands for does not depend on how messages call the resource. -/
theorem looks_resolve (label label' : String) (index : Int) (extent : Nat) :
    Looks (resolve label index extent me) (resolve label' index extent me) := by
  have note (message message' : String) {answer : Option Nat} :
      Looks (do modify fun s => s.record .outOfBounds message me; return answer)
        (do modify fun s => s.record .outOfBounds message' me; return answer) :=
    (looks_modify (fun s => s.visible_record _ _) fun s => s.visible_record _ _).bind
      fun _ => looks_pure answer
  unfold resolve
  split
  · exact looks_pure _
  split
  · exact note _ _
  refine looks_get fun s t same => ?_
  rw [oobPolicy_of_visible same]
  cases s.oobPolicy with
  | clampAndReport => exact note _ _
  | discardAndReport => exact note _ _
  | fault => exact looks_throw _ _

theorem looks_bufferAt : Looks (bufferAt binding) (bufferAt binding) := by
  refine looks_get fun s t same => ?_
  rw [buffers_of_visible same]
  cases s.buffers.get? binding with
  | none => exact looks_throw _ _
  | some b => exact looks_pure b

theorem looks_imageAt : Looks (imageAt binding) (imageAt binding) := by
  refine looks_get fun s t same => ?_
  rw [images_of_visible same]
  cases s.images.get? binding with
  | none => exact looks_throw _ _
  | some i => exact looks_pure i

theorem looks_observe (resource : Resource) (i : Nat) (current : List UInt32) (touch : Touch) :
    Looks (observe resource i current touch me) (observe resource i current touch me) :=
  looks_modify (fun _ => rfl) fun _ => rfl

theorem looks_read (index : Int) : Looks (read binding index me) (read binding index me) := by
  refine looks_bufferAt.bind fun b => ?_
  refine (looks_resolve _ _ _ _).bind fun resolved => ?_
  cases resolved with
  | none => exact looks_pure _
  | some i => exact (looks_observe _ _ _ _).bind fun _ => looks_pure _

theorem looks_length : Looks (length binding) (length binding) :=
  looks_bufferAt.bind fun _ => looks_pure _

theorem looks_texelPosition (i : Image) (x y : Int) :
    Looks (texelPosition i binding x y me) (texelPosition i binding x y me) := by
  refine (looks_resolve _ _ _ _).bind fun column => ?_
  cases column with
  | none => exact looks_pure _
  | some x =>
    refine (looks_resolve _ _ _ _).bind fun row => ?_
    cases row with
    | none => exact looks_pure _
    | some y => exact looks_pure _

theorem looks_imageLoad (x y : Int) : Looks (imageLoad binding x y me) (imageLoad binding x y me) := by
  refine looks_imageAt.bind fun i => ?_
  refine (looks_texelPosition i x y).bind fun resolved => ?_
  cases resolved with
  | none => exact looks_pure _
  | some t => exact (looks_observe _ _ _ _).bind fun _ => looks_pure _

theorem looks_imageSize : Looks (imageSize binding) (imageSize binding) :=
  looks_imageAt.bind fun _ => looks_pure _

theorem looks_uniform (slot : Nat) (element : Option Int) :
    Looks (uniform slot element me) (uniform slot element me) := by
  refine looks_get fun s t same => ?_
  rw [uniforms_of_visible same]
  cases s.uniforms[slot]? with
  | none => exact looks_throw _ _
  | some u =>
    cases element with
    | none =>
      dsimp only
      split
      · exact looks_throw _ _
      · exact looks_pure _
    | some index =>
      refine (looks_resolve _ _ _ _).bind fun resolved => ?_
      cases resolved with
      | none => exact looks_pure _
      | some i => exact looks_pure _

theorem looks_sample (sampler : Sampler) (r : SampleRequest) :
    Looks (sample sampler binding r) (sample sampler binding r) := by
  refine looks_get fun s t same => ?_
  rw [textures_of_visible same]
  cases s.textures.get? binding with
  | none => exact looks_throw _ _
  | some held =>
    dsimp only
    cases sampler.sample held r with
    | error reason => exact looks_throw _ _
    | ok lanes => exact looks_pure lanes

end Looks

/-! ## Stores that are visibly the same -/

section Stores

variable {me : InvocationId} {binding : Binding}

theorem tracks_setBuffer (i : Nat) (bits : List UInt32) :
    Tracks (setBuffer binding i bits) (setBuffer binding i bits) :=
  tracks_modify fun _ _ same =>
    congrArg (fun r : Store => { r with buffers := r.buffers.modify binding fun b => b.set i bits }) same

theorem looks_checkElement (b : Buffer) (v : Value) :
    Looks (checkElement b binding v) (checkElement b binding v) := by
  unfold checkElement
  split
  · exact looks_pure _
  · exact looks_throw _ _

theorem tracks_write (index : Int) (v : Value) :
    Tracks (write binding index v me) (write binding index v me) := by
  refine looks_bufferAt.tracks.bind fun b => ?_
  refine (looks_checkElement b v).tracks.bind fun _ => ?_
  refine (looks_resolve _ _ _ _).tracks.bind fun resolved => ?_
  cases resolved with
  | none => exact tracks_pure _
  | some i => exact (looks_observe _ _ _ _).tracks.bind fun _ => tracks_setBuffer i _

/-- Changes that give the same elements make the same of a store, whatever errors they have for others. -/
theorem tracks_update (index : Int) {change change' : Value → Except EngineError Value}
    (same : ∀ old new, change old = .ok new → change' old = .ok new) :
    Tracks (update binding index me change) (update binding index me change') := by
  refine looks_bufferAt.tracks.bind fun b => ?_
  refine (looks_resolve _ _ _ _).tracks.bind fun resolved => ?_
  cases resolved with
  | none => exact tracks_pure _
  | some i =>
    dsimp only
    cases changed : change (b.value i) with
    | error e => exact tracks_throw e _
    | ok v =>
      rw [same _ v changed]
      refine (looks_checkElement b v).tracks.bind fun _ => ?_
      exact (looks_observe _ _ _ _).tracks.bind fun _ => tracks_setBuffer i _

end Stores

end Store

/-! ## Runs that mirror each other -/

/-- What an invocation reads and stores: the visible part of the store and the local variables. -/
def RunState.view (s : RunState) : Store × List Value := (s.store.visible, s.locals)

theorem RunState.store_of_view {s t : RunState} (same : t.view = s.view) :
    t.store.visible = s.store.visible :=
  (Prod.mk.inj same).1

theorem RunState.locals_of_view {s t : RunState} (same : t.view = s.view) : t.locals = s.locals :=
  (Prod.mk.inj same).2

namespace RunContext

variable {c : RunContext} {atomics : Prop} {α β : Type}

/-- The operations by which a run evaluates expressions, up to labels; atomics among them if they are
allowed. -/
inductive Asks (c : RunContext) (atomics : Prop) : {α : Type} → StoreM α → StoreM α → Prop where
  | resolve (label label' : String) (index : Int) (extent : Nat) :
      Asks c atomics (Store.resolve label index extent c.me) (Store.resolve label' index extent c.me)
  | uniform (slot : Nat) (element : Option Int) :
      Asks c atomics (Store.uniform slot element c.me) (Store.uniform slot element c.me)
  | read (binding : Binding) (index : Int) :
      Asks c atomics (Store.read binding index c.me) (Store.read binding index c.me)
  | length (binding : Binding) : Asks c atomics (Store.length binding) (Store.length binding)
  | atomic (op : AtomicOp) (binding : Binding) (index : Int) (operands : List Value)
      (allowed : atomics) : Asks c atomics (Store.atomic op binding index operands c.me)
        (Store.atomic op binding index operands c.me)
  | imageLoad (binding : Binding) (x y : Int) :
      Asks c atomics (Store.imageLoad binding x y c.me) (Store.imageLoad binding x y c.me)
  | imageAtomicAdd (binding : Binding) (x y : Int) (v : Value) (allowed : atomics) :
      Asks c atomics (Store.imageAtomicAdd binding x y v c.me)
        (Store.imageAtomicAdd binding x y v c.me)
  | imageSize (binding : Binding) :
      Asks c atomics (Store.imageSize binding) (Store.imageSize binding)
  | sample (binding : Binding) (r : SampleRequest) :
      Asks c atomics (Store.sample c.sampler binding r) (Store.sample c.sampler binding r)

theorem Asks.symm {x y : StoreM α} (asks : c.Asks atomics x y) : c.Asks atomics y x := by
  cases asks with
  | resolve label label' index extent => exact .resolve label' label index extent
  | uniform slot element => exact .uniform slot element
  | read binding index => exact .read binding index
  | length binding => exact .length binding
  | atomic op binding index operands allowed => exact .atomic op binding index operands allowed
  | imageLoad binding x y => exact .imageLoad binding x y
  | imageAtomicAdd binding x y v allowed => exact .imageAtomicAdd binding x y v allowed
  | imageSize binding => exact .imageSize binding
  | sample binding r => exact .sample binding r

/-- Without atomics, a run only looks at the store when it evaluates an expression. -/
theorem Asks.looks {x y : StoreM α} (asks : c.Asks False x y) : Store.Looks x y := by
  cases asks with
  | resolve label label' index extent => exact Store.looks_resolve label label' index extent
  | uniform slot element => exact Store.looks_uniform slot element
  | read binding index => exact Store.looks_read index
  | length binding => exact Store.looks_length
  | atomic op binding index operands allowed => exact allowed.elim
  | imageLoad binding x y => exact Store.looks_imageLoad x y
  | imageAtomicAdd binding x y v allowed => exact allowed.elim
  | imageSize binding => exact Store.looks_imageSize
  | sample binding r => exact Store.looks_sample c.sampler r

/-- Evaluations that go the same way, part by part, up to labels and the places of type errors. -/
inductive Mirrors (c : RunContext) (atomics : Prop) : {α : Type} → RunM α → RunM α → Prop where
  | pure {α : Type} (a : α) : Mirrors c atomics (Pure.pure a : RunM α) (Pure.pure a)
  | bind {α β : Type} {x y : RunM α} {k l : α → RunM β} (first : Mirrors c atomics x y)
      (next : ∀ a, Mirrors c atomics (k a) (l a)) : Mirrors c atomics (x >>= k) (y >>= l)
  | step : Mirrors c atomics c.step c.step
  | mismatch {α : Type} (site site' : AccessSite) (e e' : TypeError) :
      Mirrors c atomics (throw (.typeMismatch site e) : RunM α) (throw (.typeMismatch site' e'))
  | loadLocal {α : Type} (slot : Nat) {k l : Value → RunM α}
      (next : ∀ v, Mirrors c atomics (k v) (l v)) :
      Mirrors c atomics (get >>= fun s => k (s.locals.getD slot default))
        (get >>= fun s => l (s.locals.getD slot default))
  | ask {α : Type} {x y : StoreM α} (asks : c.Asks atomics x y) :
      Mirrors c atomics (onStore x) (onStore y)

namespace Mirrors

theorem symm {x y : RunM α} (mirrors : c.Mirrors atomics x y) : c.Mirrors atomics y x := by
  induction mirrors with
  | pure a => exact .pure a
  | bind _ _ first next => exact .bind first next
  | step => exact .step
  | mismatch site site' e e' => exact .mismatch site' site e' e
  | loadLocal slot _ next => exact .loadLocal slot next
  | ask asks => exact .ask asks.symm

theorem typed {site site' : AccessSite} (answer : Except TypeError α) :
    c.Mirrors atomics (RunContext.typed site answer) (RunContext.typed site' answer) := by
  cases answer with
  | ok a => exact .pure a
  | error e => exact .mismatch site site' e e

theorem asCondition (e e' : Expr) (v : Value) :
    c.Mirrors atomics (RunContext.asCondition e v) (RunContext.asCondition e' v) := by
  unfold RunContext.asCondition
  cases v.asBool? with
  | none => exact .mismatch _ _ _ _
  | some b => exact .pure b

theorem asIndex (e e' : Expr) (v : Value) :
    c.Mirrors atomics (RunContext.asIndex e v) (RunContext.asIndex e' v) := by
  unfold RunContext.asIndex
  cases v.asIndex? with
  | none => exact .mismatch _ _ _ _
  | some i => exact .pure i

theorem asCoord (e e' : Expr) (v : Value) :
    c.Mirrors atomics (RunContext.asCoord e v) (RunContext.asCoord e' v) := by
  unfold RunContext.asCoord
  split
  · exact .pure _
  · exact .mismatch _ _ _ _

theorem asTextureCoord (pos pos' : Position) (v : Value) :
    c.Mirrors atomics (RunContext.asTextureCoord pos v) (RunContext.asTextureCoord pos' v) := by
  unfold RunContext.asTextureCoord
  split
  · exact .pure _
  · exact .mismatch _ _ _ _

theorem asBias (e e' : Expr) (v : Value) :
    c.Mirrors atomics (RunContext.asBias e v) (RunContext.asBias e' v) := by
  unfold RunContext.asBias
  cases v.asFloat? with
  | none => exact .mismatch _ _ _ _
  | some x => exact .pure x

theorem subscript (pos pos' : Position) (v : Value) (i : Int) :
    c.Mirrors atomics (c.subscript pos v i) (c.subscript pos' v i) := by
  unfold RunContext.subscript
  cases v.ty.element? with
  | none => exact .mismatch _ _ _ _
  | some element =>
    refine (Mirrors.ask (.resolve _ _ _ _)).bind fun resolved => ?_
    cases resolved with
    | none => exact .pure _
    | some i => exact .typed _

theorem lookupTexture (binding : Binding) (coord : Single × Single) (bias : Option Single) :
    c.Mirrors atomics (c.lookupTexture binding coord bias) (c.lookupTexture binding coord bias) :=
  (Mirrors.ask (.sample binding _)).bind fun _ => .pure _

end Mirrors

/-! ## Expressions -/

/-- Whether all nodes that are atomics are allowed. -/
def Allows (atomics : Prop) (nodes : List Expr) : Prop := ∀ n ∈ nodes, n.isAtomic → atomics

theorem allows_append {nodes nodes' : List Expr} :
    Allows atomics (nodes ++ nodes') ↔ Allows atomics nodes ∧ Allows atomics nodes' := by
  simp only [Allows, List.mem_append]
  grind

theorem Allows.head {e : Expr} {nodes : List Expr} (allows : Allows atomics (e :: nodes))
    (isAtomic : e.isAtomic) : atomics :=
  allows e List.mem_cons_self isAtomic

theorem Allows.tail {e : Expr} {nodes : List Expr} (allows : Allows atomics (e :: nodes)) :
    Allows atomics nodes :=
  fun n member => allows n (List.mem_cons_of_mem e member)

mutual

/-- An expression is evaluated in the same way wherever it is written. -/
theorem mirrors_eval (c : RunContext) (e : Expr) (allows : Allows atomics e.nodes) :
    c.Mirrors atomics (c.eval e) (c.eval e.unplaced) := by
  rw [eval.eq_def c e, eval.eq_def c e.unplaced]
  refine Mirrors.step.bind fun _ => ?_
  cases e with
  | literal pos v => exact .pure v
  | localVar pos slot => exact .loadLocal slot fun v => .pure v
  | builtin pos b => exact .pure _
  | uniform pos slot => exact .ask (.uniform slot none)
  | uniformElement pos slot index =>
    refine (c.mirrors_eval index allows.tail).bind fun v => ?_
    exact (Mirrors.asIndex _ _ v).bind fun i => .ask (.uniform slot (some i))
  | bufferElement pos binding index =>
    refine (c.mirrors_eval index allows.tail).bind fun v => ?_
    exact (Mirrors.asIndex _ _ v).bind fun i => .ask (.read binding i)
  | bufferLength pos binding => exact (Mirrors.ask (.length binding)).bind fun _ => .pure _
  | subscript pos base index =>
    obtain ⟨on_base, on_index⟩ := allows_append.1 allows.tail
    refine (c.mirrors_eval base on_base).bind fun v => ?_
    refine (c.mirrors_eval index on_index).bind fun w => ?_
    exact (Mirrors.asIndex _ _ w).bind fun i => .subscript _ _ v i
  | swizzle pos base selection => exact (c.mirrors_eval base allows.tail).bind fun v => .typed _
  | construct pos ty args => exact (c.mirrors_evalAll args allows.tail).bind fun vs => .typed _
  | unary pos op operand => exact (c.mirrors_eval operand allows.tail).bind fun v => .typed _
  | binary pos op left right =>
    obtain ⟨on_left, on_right⟩ := allows_append.1 allows.tail
    refine (c.mirrors_eval left on_left).bind fun a => ?_
    exact (c.mirrors_eval right on_right).bind fun b => .typed _
  | logical pos op left right =>
    obtain ⟨on_left, on_right⟩ := allows_append.1 allows.tail
    refine (c.mirrors_eval left on_left).bind fun v => ?_
    refine (Mirrors.asCondition _ _ v).bind fun a => ?_
    have rest : c.Mirrors atomics
        (do return Value.bool (← asCondition right (← c.eval right)))
        (do return Value.bool (← asCondition right.unplaced (← c.eval right.unplaced))) := by
      refine (c.mirrors_eval right on_right).bind fun w => ?_
      exact (Mirrors.asCondition _ _ w).bind fun b => .pure _
    cases op <;> cases a <;> first | exact rest | exact .pure _
  | ternary pos condition accepted rejected =>
    obtain ⟨on_condition, on_rest⟩ := allows_append.1 allows.tail
    obtain ⟨on_accepted, on_rejected⟩ := allows_append.1 on_rest
    refine (c.mirrors_eval condition on_condition).bind fun v => ?_
    refine (Mirrors.asCondition _ _ v).bind fun a => ?_
    cases a with
    | true => exact c.mirrors_eval accepted on_accepted
    | false => exact c.mirrors_eval rejected on_rejected
  | atomic pos op binding index args =>
    obtain ⟨on_index, on_args⟩ := allows_append.1 allows.tail
    refine (c.mirrors_eval index on_index).bind fun v => ?_
    refine (Mirrors.asIndex _ _ v).bind fun i => ?_
    refine (c.mirrors_evalAll args on_args).bind fun operands => ?_
    exact .ask (.atomic op binding i operands (allows.head rfl))
  | imageLoad pos binding coord =>
    refine (c.mirrors_eval coord allows.tail).bind fun v => ?_
    exact (Mirrors.asCoord _ _ v).bind fun xy => .ask (.imageLoad binding xy.1 xy.2)
  | imageAtomicAdd pos binding coord value =>
    obtain ⟨on_coord, on_value⟩ := allows_append.1 allows.tail
    refine (c.mirrors_eval coord on_coord).bind fun v => ?_
    refine (Mirrors.asCoord _ _ v).bind fun xy => ?_
    refine (c.mirrors_eval value on_value).bind fun w => ?_
    exact .ask (.imageAtomicAdd binding xy.1 xy.2 w (allows.head rfl))
  | imageSize pos binding => exact (Mirrors.ask (.imageSize binding)).bind fun _ => .pure _
  | texture pos binding coord =>
    refine (c.mirrors_eval coord allows.tail).bind fun v => ?_
    exact (Mirrors.asTextureCoord _ _ v).bind fun place => .lookupTexture binding place none
  | textureBiased pos binding coord bias =>
    obtain ⟨on_coord, on_bias⟩ := allows_append.1 allows.tail
    refine (c.mirrors_eval coord on_coord).bind fun v => ?_
    refine (Mirrors.asTextureCoord _ _ v).bind fun place => ?_
    refine (c.mirrors_eval bias on_bias).bind fun w => ?_
    exact (Mirrors.asBias _ _ w).bind fun b => .lookupTexture binding place (some b)
  | math pos f args => exact (c.mirrors_evalAll args allows.tail).bind fun vs => .typed _

theorem mirrors_evalAll (c : RunContext) (es : List Expr) (allows : Allows atomics (Expr.nodesOf es)) :
    c.Mirrors atomics (c.evalAll es) (c.evalAll (Expr.unplacedAll es)) := by
  cases es with
  | nil => exact .pure []
  | cons e rest =>
    obtain ⟨here, later⟩ := allows_append.1 allows
    refine (c.mirrors_eval e here).bind fun v => ?_
    exact (c.mirrors_evalAll rest later).bind fun vs => .pure _

end

/-! ## Targets -/

theorem mirrors_resolvePath (c : RunContext) (line line' : Nat) (ty : ValueType)
    (path : List Projection) (allows : Allows atomics (path.flatMap Projection.nodes)) :
    c.Mirrors atomics (c.resolvePath line ty path)
      (c.resolvePath line' ty (path.map Projection.unplaced)) := by
  induction path generalizing ty with
  | nil => exact .pure _
  | cons step rest ih =>
    obtain ⟨here, later⟩ := allows_append.1 allows
    cases step with
    | subscript e =>
      rw [List.map_cons, Projection.unplaced, resolvePath, resolvePath]
      refine (c.mirrors_eval e here).bind fun v => ?_
      refine (Mirrors.asIndex _ _ v).bind fun i => ?_
      cases ty.element? with
      | none => exact .mismatch _ _ _ _
      | some element =>
        refine (Mirrors.ask (.resolve _ _ _ _)).bind fun resolved => ?_
        cases resolved with
        | none => exact .pure _
        | some i => exact (ih _ later).bind fun steps => .pure _
    | swizzle selection =>
      rw [List.map_cons, Projection.unplaced]
      unfold resolvePath
      cases ty with
      | scalar | mat3 => exact .mismatch _ _ _ _
      | vector kind size =>
        dsimp only
        split
        · cases ValueType.ofCount? kind selection.length with
          | none => exact .mismatch _ _ _ _
          | some part => exact (ih _ later).bind fun steps => .pure _
        · exact .mismatch _ _ _ _

theorem mirrors_resolveTarget (c : RunContext) (line line' : Nat) (t : Target)
    (allows : Allows atomics t.nodes) :
    c.Mirrors atomics (c.resolveTarget line t) (c.resolveTarget line' t.unplaced) := by
  obtain ⟨place, path⟩ := t
  cases place with
  | localVar slot =>
    exact (c.mirrors_resolvePath line line' _ path allows).bind fun steps => .pure _
  | bufferElement binding index =>
    obtain ⟨on_index, on_path⟩ := allows_append.1 allows
    refine (c.mirrors_eval index on_index).bind fun v => ?_
    refine (Mirrors.asIndex _ _ v).bind fun i => ?_
    cases c.shader.buffer? binding with
    | none => exact .mismatch _ _ _ _
    | some b => exact (c.mirrors_resolvePath line line' _ path on_path).bind fun steps => .pure _

theorem mirrors_load (c : RunContext) (line line' : Nat) (r : ResolvedTarget) :
    c.Mirrors atomics (c.load line r) (c.load line' r) := by
  cases r with
  | localVar slot path =>
    exact .loadLocal slot (k := fun v => typed (.atLine "load" line) (getPath v path))
      (l := fun v => typed (.atLine "load" line') (getPath v path)) fun v => .typed _
  | buffer binding index path => exact (Mirrors.ask (.read binding index)).bind fun v => .typed _

/-! ## The same again -/

/-- Whether a run changes nothing that an invocation reads, and another one gives the same from wherever
that is the same, in no more steps. -/
def Follows (x y : RunM α) : Prop :=
  ∀ s a s', x s = .ok a s' → s'.view = s.view ∧ s.steps ≤ s'.steps ∧
    ∀ t : RunState, t.view = s.view → t.steps ≤ s.steps →
      ∃ t', y t = .ok a t' ∧ t'.view = s.view ∧ t'.steps ≤ s'.steps

theorem follows_pure (a : α) : Follows (pure a : RunM α) (pure a) := by
  intro s a' s' ran
  cases ran
  exact ⟨rfl, Nat.le_refl _, fun t same fewer => ⟨t, rfl, same, fewer⟩⟩

theorem follows_throw (e : EngineError) (y : RunM α) : Follows (throw e) y := by
  rintro s a s' ⟨⟩

theorem Follows.bind {x y : RunM α} {k l : α → RunM β} (first : Follows x y)
    (next : ∀ a, Follows (k a) (l a)) : Follows (x >>= k) (y >>= l) := by
  intro s b s' ran
  obtain ⟨a, s₁, ran₁, ran⟩ := exists_of_ran_bind ran
  obtain ⟨same₁, grown₁, again₁⟩ := first s a s₁ ran₁
  obtain ⟨same₂, grown₂, again₂⟩ := next a s₁ b s' ran
  refine ⟨same₂.trans same₁, Nat.le_trans grown₁ grown₂, fun t same fewer => ?_⟩
  obtain ⟨t₁, done₁, same_t₁, fewer₁⟩ := again₁ t same fewer
  obtain ⟨t', done, same_t', fewer'⟩ := again₂ t₁ (same_t₁.trans same₁.symm) fewer₁
  exact ⟨t', (bind_eq_of_ok done₁).trans done, same_t'.trans same₁, fewer'⟩

theorem follows_step (c : RunContext) : Follows c.step c.step := by
  intro s a s' ran
  rw [step_eq] at ran
  split at ran
  · cases ran
  · next room =>
    cases ran
    refine ⟨rfl, Nat.le_succ _, fun t same fewer => ?_⟩
    refine ⟨{ t with steps := t.steps + 1 }, ?_, same, Nat.succ_le_succ fewer⟩
    rw [step_eq, if_neg fun spent => room (Nat.lt_of_lt_of_le spent (Nat.succ_le_succ fewer))]

theorem follows_loadLocal (slot : Nat) {k l : Value → RunM α} (next : ∀ v, Follows (k v) (l v)) :
    Follows (get >>= fun s => k (s.locals.getD slot default))
      (get >>= fun s => l (s.locals.getD slot default)) := by
  intro s a s' ran
  obtain ⟨same, grown, again⟩ := next _ s a s' ran
  refine ⟨same, grown, fun t same_t fewer => ?_⟩
  obtain ⟨t', done, rest⟩ := again t same_t fewer
  rw [← RunState.locals_of_view same_t] at done
  exact ⟨t', done, rest⟩

theorem exists_of_onStore {x : StoreM α} {s s' : RunState} {a : α} (ran : onStore x s = .ok a s') :
    ∃ store, x s.store = .ok a store ∧ s' = { s with store } := by
  rw [onStore_eq] at ran
  cases asked : x s.store with
  | error e store =>
    rw [asked] at ran
    cases ran
  | ok answer store =>
    rw [asked] at ran
    cases ran
    exact ⟨store, rfl, rfl⟩

/-- An operation that tracks another one does as much for an invocation that sees the same. -/
theorem exists_onStore_of_tracks {x y : StoreM α} (tracks : Store.Tracks x y) {s s' t : RunState} {a : α}
    (ran : onStore x s = .ok a s') (same : t.view = s.view) :
    ∃ t', onStore y t = .ok a t' ∧ t'.view = s'.view ∧ t'.steps = t.steps := by
  obtain ⟨store, asked, rfl⟩ := exists_of_onStore ran
  obtain ⟨store', done, same'⟩ := tracks _ _ _ asked t.store (RunState.store_of_view same)
  refine ⟨{ t with store := store' }, ?_, ?_, rfl⟩
  · rw [onStore_eq, done]
  · exact congrArg₂ Prod.mk same' (RunState.locals_of_view (s := s) (t := t) same)

theorem view_onStore {x y : StoreM α} (looks : Store.Looks x y) {s s' : RunState} {a : α}
    (ran : onStore x s = .ok a s') : s'.view = s.view := by
  obtain ⟨store, asked, rfl⟩ := exists_of_onStore ran
  exact congrArg (·, s.locals) (looks.unchanged _ _ _ asked)

theorem follows_onStore {x y : StoreM α} (looks : Store.Looks x y) :
    Follows (onStore x) (onStore y) := by
  intro s a s' ran
  have kept := view_onStore looks ran
  have counted : s'.steps = s.steps := by
    obtain ⟨store, -, rfl⟩ := exists_of_onStore ran
    rfl
  refine ⟨kept, Nat.le_of_eq counted.symm, fun t same fewer => ?_⟩
  obtain ⟨t', done, same', counted'⟩ := exists_onStore_of_tracks looks.tracks ran same
  exact ⟨t', done, same'.trans kept, by rw [counted, counted']; exact fewer⟩

theorem Mirrors.follows {x y : RunM α} (mirrors : c.Mirrors False x y) : Follows x y := by
  induction mirrors with
  | pure a => exact follows_pure a
  | bind _ _ first next => exact first.bind next
  | step => exact follows_step c
  | mismatch site site' e e' => exact follows_throw _ _
  | loadLocal slot _ next => exact follows_loadLocal slot next
  | ask asks => exact follows_onStore asks.looks

theorem Follows.trans {x y z : RunM α} (first : Follows x y) (next : Follows y z) : Follows x z := by
  intro s a s' ran
  obtain ⟨same, grown, again⟩ := first s a s' ran
  obtain ⟨s₁, done, -, fewer₁⟩ := again s rfl (Nat.le_refl _)
  obtain ⟨-, -, again₁⟩ := next s a s₁ done
  refine ⟨same, grown, fun t same_t fewer => ?_⟩
  obtain ⟨t', done', same_t', fewer'⟩ := again₁ t same_t fewer
  exact ⟨t', done', same_t', Nat.le_trans fewer' fewer₁⟩

/-- Runs that follow each other give the same from states that are the same to an invocation. -/
theorem Follows.agree {x y : RunM α} (there : Follows x y) (back : Follows y x) {s s' t t' : RunState}
    {a b : α} (same : t.view = s.view) (ran : x s = .ok a s') (ran' : y t = .ok b t') : a = b := by
  rcases Nat.le_total t.steps s.steps with fewer | fewer
  · obtain ⟨-, -, again⟩ := there s a s' ran
    obtain ⟨_, done, -⟩ := again t same fewer
    cases done.symm.trans ran'
    rfl
  · obtain ⟨-, -, again⟩ := back t b t' ran'
    obtain ⟨_, done, -⟩ := again s same.symm fewer
    cases done.symm.trans ran
    rfl

theorem allows_of_atomicFree {nodes : List Expr} (free : ∀ n ∈ nodes, n.isAtomic = false) :
    Allows False nodes :=
  fun n member isAtomic => Bool.false_ne_true ((free n member).symm.trans isAtomic)

theorem follows_eval (c : RunContext) {e e' : Expr} (free : e.AtomicFree)
    (same : e'.unplaced = e.unplaced) : Follows (c.eval e) (c.eval e') := by
  have there := (c.mirrors_eval e (allows_of_atomicFree free)).follows
  have back := (c.mirrors_eval e' (allows_of_atomicFree (free.of_same same))).symm.follows
  exact there.trans (same ▸ back)

end RunContext

end ComputeShader
