import ComputeShader.Dispatch.Execution
import ComputeShader.Shader.Nodes
import ComputeShader.Proofs.StoreScripts

/-! # Invocations as processes

A part of a run is scripted if, whatever the local variables and the steps taken, what it does to a
store is a process. Every part of the body of a shader without atomics is: by induction over its
syntax, each node being the parts below it one after another and one operation of the store.
-/

namespace ComputeShader

namespace RunContext

variable {α β : Type} {F : Store} {fp : Footprint} {me : InvocationId} {x : RunM α}

/-- A part of a run as an operation on the store alone. -/
def onStores (x : RunM α) (locals : List Value) (steps : Nat) :
    StoreM (α × List Value × Nat) := fun store =>
  match x ⟨store, locals, steps⟩ with
  | .ok a s => .ok (a, s.locals, s.steps) s.store
  | .error e s => .error e s.store

/-- Whether a part of a run is a process within a footprint on all stores of a frame. -/
def Scripted (F : Store) (fp : Footprint) (me : InvocationId) (x : RunM α) : Prop :=
  ∀ locals steps, Store.Scripted F fp me (onStores x locals steps)

/-! ## Combinations -/

theorem scripted_pure (a : α) : Scripted F fp me (pure a) :=
  fun locals steps => Store.scripted_pure (a, locals, steps)

theorem scripted_throw (e : EngineError) : Scripted F fp me (throw e : RunM α) :=
  fun _ _ => Store.scripted_throw e

theorem onStores_bind {k : α → RunM β} (locals : List Value) (steps : Nat) :
    onStores (x >>= k) locals steps =
      onStores x locals steps >>= fun r => onStores (k r.1) r.2.1 r.2.2 := by
  funext store
  simp only [onStores, bind, EStateM.bind]
  cases x ⟨store, locals, steps⟩ <;> rfl

/-- Whether a part of a run gives only answers with a property. -/
def Gives (x : RunM α) (Q : α → Prop) : Prop := ∀ s a s', x s = .ok a s' → Q a

theorem gives_bind {k : α → RunM β} {Q : β → Prop} (next : ∀ a, Gives (k a) Q) :
    Gives (x >>= k) Q := by
  intro s b s'' ran
  simp only [bind, EStateM.bind] at ran
  cases first : x s with
  | ok a s' =>
    rw [first] at ran
    exact next a s' b s'' ran
  | error e s' =>
    rw [first] at ran
    cases ran

theorem gives_throw {Q : α → Prop} (e : EngineError) : Gives (throw e : RunM α) Q :=
  fun _ _ _ ran => nomatch ran

theorem Scripted.bind_of {k : α → RunM β} {Q : α → Prop} (first : Scripted F fp me x)
    (gives : Gives x Q) (next : ∀ a, Q a → Scripted F fp me (k a)) :
    Scripted F fp me (x >>= k) := by
  intro locals steps
  rw [onStores_bind]
  refine Store.scripted_bind_of (Q := fun r => Q r.1) (first locals steps) ?_
    fun r given => next r.1 given r.2.1 r.2.2
  intro store r store' ran
  rw [onStores] at ran
  split at ran
  · next a s ran' =>
    cases ran
    exact gives _ _ _ ran'
  · cases ran

theorem Scripted.bind {k : α → RunM β} (first : Scripted F fp me x)
    (next : ∀ a, Scripted F fp me (k a)) : Scripted F fp me (x >>= k) :=
  first.bind_of (fun _ _ _ _ => trivial) fun a _ => next a

theorem onStores_onStore (action : StoreM α) (locals : List Value) (steps : Nat) :
    onStores (onStore action) locals steps = action >>= fun a => pure (a, locals, steps) := by
  funext store
  simp only [onStores, onStore, bind, EStateM.bind]
  cases action store <;> rfl

theorem scripted_onStore {action : StoreM α} (scripted : Store.Scripted F fp me action) :
    Scripted F fp me (onStore action) := by
  intro locals steps
  rw [onStores_onStore]
  exact Store.scripted_bind scripted fun _ => Store.scripted_pure _

/-- A part of a run that begins by looking at the local variables and the steps taken. -/
theorem scripted_get {k : RunState → RunM α}
    (same : ∀ store store' locals steps, k ⟨store, locals, steps⟩ = k ⟨store', locals, steps⟩)
    (rest : ∀ s, Scripted F fp me (k s)) : Scripted F fp me (get >>= k) := by
  intro locals steps
  have looked : onStores (get >>= k) locals steps =
      onStores (k ⟨F, locals, steps⟩) locals steps := by
    funext store
    rw [← same store F]
    rfl
  rw [looked]
  exact rest _ locals steps

/-- A change of the local variables and the steps taken. -/
theorem scripted_modify {f : RunState → RunState} (locals' : List Value → List Value)
    (steps' : Nat → Nat) (acts : ∀ s, f s = ⟨s.store, locals' s.locals, steps' s.steps⟩) :
    Scripted F fp me (modify f) := by
  intro locals steps
  have changed : onStores (modify f) locals steps = pure ((), locals' locals, steps' steps) := by
    funext store
    have moved : (modify f : RunM Unit) ⟨store, locals, steps⟩ =
        .ok () (f ⟨store, locals, steps⟩) := rfl
    simp only [onStores, moved, acts]
    rfl
  rw [changed]
  exact Store.scripted_pure _

theorem scripted_step (c : RunContext) : Scripted F fp me c.step := by
  refine scripted_get (fun _ _ _ _ => rfl) fun s => ?_
  refine (scripted_modify id (fun _ => s.steps + 1) fun _ => rfl).bind fun _ => ?_
  split
  · exact scripted_throw _
  · exact scripted_pure _

theorem scripted_typed (site : AccessSite) (answer : Except TypeError α) :
    Scripted F fp me (typed site answer) := by
  cases answer with
  | ok a => exact scripted_pure a
  | error e => exact scripted_throw _

theorem scripted_asCondition (e : Expr) (v : Value) : Scripted F fp me (asCondition e v) := by
  unfold asCondition
  split
  · exact scripted_pure _
  · exact scripted_throw _

theorem scripted_asIndex (e : Expr) (v : Value) : Scripted F fp me (asIndex e v) := by
  unfold asIndex
  split
  · exact scripted_pure _
  · exact scripted_throw _

theorem scripted_asCoord (e : Expr) (v : Value) : Scripted F fp me (asCoord e v) := by
  unfold asCoord
  split
  · exact scripted_pure _
  · exact scripted_throw _

theorem scripted_asTextureCoord (pos : Position) (v : Value) :
    Scripted F fp me (asTextureCoord pos v) := by
  unfold asTextureCoord
  split
  · exact scripted_pure _
  · exact scripted_throw _

theorem scripted_asBias (e : Expr) (v : Value) : Scripted F fp me (asBias e v) := by
  unfold asBias
  split
  · exact scripted_pure _
  · exact scripted_throw _

theorem scripted_subscript (c : RunContext) (pos : Position) (v : Value) (i : Int) :
    Scripted F fp c.me (c.subscript pos v i) := by
  unfold subscript
  split
  · exact scripted_throw _
  · refine (scripted_onStore (Store.scripted_resolve _ _ _)).bind fun resolved => ?_
    split
    · exact scripted_typed _ _
    · exact scripted_pure _

theorem scripted_lookupTexture (c : RunContext) (binding : Binding) (coord : Single × Single)
    (bias : Option Single) : Scripted F fp me (c.lookupTexture binding coord bias) :=
  (scripted_onStore (Store.scripted_sample _ _ _)).bind fun _ => scripted_pure _

end RunContext

/-! ## Expressions -/

/-- Whether the values of nodes stay within a footprint. -/
def Footprint.Evals (fp : Footprint) (nodes : List Expr) : Prop :=
  ∀ e ∈ nodes, e.isAtomic = false ∧ ∀ binding, e.isElementOf binding → fp.loads binding

namespace Footprint

variable {fp : Footprint} {e : Expr} {nodes nodes' : List Expr}

theorem evals_cons : fp.Evals (e :: nodes) ↔
    (e.isAtomic = false ∧ ∀ binding, e.isElementOf binding → fp.loads binding) ∧ fp.Evals nodes :=
  List.forall_mem_cons

theorem evals_append : fp.Evals (nodes ++ nodes') ↔ fp.Evals nodes ∧ fp.Evals nodes' :=
  List.forall_mem_append

end Footprint

namespace RunContext

variable {F : Store} {fp : Footprint}

mutual

/-- The value of an expression without atomics. -/
theorem scripted_eval (c : RunContext) (e : Expr) (within : fp.Evals e.nodes) :
    Scripted F fp c.me (c.eval e) := by
  rw [eval.eq_def]
  refine (scripted_step c).bind fun _ => ?_
  cases e with
  | literal pos v => exact scripted_pure v
  | localVar pos slot => exact scripted_get (fun _ _ _ _ => rfl) fun _ => scripted_pure _
  | builtin pos b => exact scripted_pure _
  | uniform pos slot => exact scripted_onStore (Store.scripted_uniform _ _)
  | uniformElement pos slot index =>
    refine (c.scripted_eval index (Footprint.evals_cons.1 within).2).bind fun v => ?_
    refine (scripted_asIndex index v).bind fun i => ?_
    exact scripted_onStore (Store.scripted_uniform _ _)
  | bufferElement pos binding index =>
    obtain ⟨⟨-, loads⟩, below⟩ := Footprint.evals_cons.1 within
    refine (c.scripted_eval index below).bind fun v => ?_
    refine (scripted_asIndex index v).bind fun i => ?_
    exact scripted_onStore (Store.scripted_read i (loads binding (beq_self_eq_true binding)))
  | bufferLength pos binding =>
    exact (scripted_onStore (Store.scripted_length binding)).bind fun _ => scripted_pure _
  | subscript pos base index =>
    obtain ⟨on_base, on_index⟩ := Footprint.evals_append.1 (Footprint.evals_cons.1 within).2
    refine (c.scripted_eval base on_base).bind fun v => ?_
    refine (c.scripted_eval index on_index).bind fun w => ?_
    exact (scripted_asIndex index w).bind fun i => c.scripted_subscript pos v i
  | swizzle pos base selection =>
    refine (c.scripted_eval base (Footprint.evals_cons.1 within).2).bind fun v => ?_
    exact scripted_typed _ _
  | construct pos ty args =>
    refine (c.scripted_evalAll args (Footprint.evals_cons.1 within).2).bind fun vs => ?_
    exact scripted_typed _ _
  | unary pos op operand =>
    refine (c.scripted_eval operand (Footprint.evals_cons.1 within).2).bind fun v => ?_
    exact scripted_typed _ _
  | binary pos op left right =>
    obtain ⟨on_left, on_right⟩ := Footprint.evals_append.1 (Footprint.evals_cons.1 within).2
    refine (c.scripted_eval left on_left).bind fun a => ?_
    exact (c.scripted_eval right on_right).bind fun b => scripted_typed _ _
  | logical pos op left right =>
    obtain ⟨on_left, on_right⟩ := Footprint.evals_append.1 (Footprint.evals_cons.1 within).2
    refine (c.scripted_eval left on_left).bind fun v => ?_
    refine (scripted_asCondition left v).bind fun a => ?_
    split
    · exact scripted_pure _
    · exact scripted_pure _
    · refine (c.scripted_eval right on_right).bind fun w => ?_
      exact (scripted_asCondition right w).bind fun b => scripted_pure _
  | ternary pos condition accepted rejected =>
    obtain ⟨on_condition, on_rest⟩ := Footprint.evals_append.1 (Footprint.evals_cons.1 within).2
    obtain ⟨on_accepted, on_rejected⟩ := Footprint.evals_append.1 on_rest
    refine (c.scripted_eval condition on_condition).bind fun v => ?_
    refine (scripted_asCondition condition v).bind fun a => ?_
    split
    · exact c.scripted_eval accepted on_accepted
    · exact c.scripted_eval rejected on_rejected
  | atomic pos op binding index args =>
    cases (Footprint.evals_cons.1 within).1.1
  | imageLoad pos binding coord =>
    refine (c.scripted_eval coord (Footprint.evals_cons.1 within).2).bind fun v => ?_
    refine (scripted_asCoord coord v).bind fun xy => ?_
    exact scripted_onStore (Store.scripted_imageLoad binding xy.1 xy.2)
  | imageAtomicAdd pos binding coord value =>
    cases (Footprint.evals_cons.1 within).1.1
  | imageSize pos binding =>
    exact (scripted_onStore (Store.scripted_imageSize binding)).bind fun _ => scripted_pure _
  | texture pos binding coord =>
    refine (c.scripted_eval coord (Footprint.evals_cons.1 within).2).bind fun v => ?_
    refine (scripted_asTextureCoord pos v).bind fun place => ?_
    exact c.scripted_lookupTexture binding place none
  | textureBiased pos binding coord bias =>
    obtain ⟨on_coord, on_bias⟩ := Footprint.evals_append.1 (Footprint.evals_cons.1 within).2
    refine (c.scripted_eval coord on_coord).bind fun v => ?_
    refine (scripted_asTextureCoord pos v).bind fun place => ?_
    refine (c.scripted_eval bias on_bias).bind fun w => ?_
    exact (scripted_asBias bias w).bind fun b => c.scripted_lookupTexture binding place (some b)
  | math pos f args =>
    refine (c.scripted_evalAll args (Footprint.evals_cons.1 within).2).bind fun vs => ?_
    exact scripted_typed _ _

theorem scripted_evalAll (c : RunContext) (es : List Expr) (within : fp.Evals (Expr.nodesOf es)) :
    Scripted F fp c.me (c.evalAll es) := by
  cases es with
  | nil => exact scripted_pure []
  | cons e rest =>
    obtain ⟨here, later⟩ := Footprint.evals_append.1 within
    refine (c.scripted_eval e here).bind fun v => ?_
    exact (c.scripted_evalAll rest later).bind fun vs => scripted_pure _

end

/-! ## Targets -/

theorem scripted_resolvePath (c : RunContext) (line : Nat) (ty : ValueType)
    (path : List Projection) (within : fp.Evals (path.flatMap Projection.nodes)) :
    Scripted F fp c.me (c.resolvePath line ty path) := by
  induction path generalizing ty with
  | nil => exact scripted_pure _
  | cons step rest ih =>
    obtain ⟨here, later⟩ := Footprint.evals_append.1 within
    cases step with
    | subscript e =>
      rw [resolvePath]
      refine (c.scripted_eval e here).bind fun v => ?_
      refine (scripted_asIndex e v).bind fun i => ?_
      split
      · exact scripted_throw _
      · refine (scripted_onStore (Store.scripted_resolve _ _ _)).bind fun resolved => ?_
        split
        · exact scripted_pure _
        · exact (ih _ later).bind fun steps => scripted_pure _
    | swizzle selection =>
      unfold resolvePath
      split
      · split
        · split
          · exact (ih _ later).bind fun steps => scripted_pure _
          · exact scripted_throw _
        · exact scripted_throw _
      · exact scripted_throw _

end RunContext

/-- Whether a resolved target is an instance of a target. -/
def ResolvedTarget.Of (t : Target) : ResolvedTarget → Prop
  | .localVar _ _ => True
  | .buffer binding _ path => t.isIn binding ∧ (path ≠ [] → t.isPart)

/-- Whether stores to a target stay within a footprint. -/
def Footprint.Stores (fp : Footprint) (t : Target) : Prop :=
  fp.Evals t.nodes ∧ ∀ binding, t.isIn binding → t.isPart → fp.parts binding

namespace RunContext

theorem scripted_resolveTarget (c : RunContext) (line : Nat) (t : Target)
    (within : fp.Evals t.nodes) : Scripted F fp c.me (c.resolveTarget line t) := by
  unfold resolveTarget
  rw [Target.nodes.eq_def] at within
  split
  · next slot place =>
    rw [place] at within
    exact (c.scripted_resolvePath line _ t.path within).bind fun steps => scripted_pure _
  · next binding index place =>
    rw [place] at within
    obtain ⟨on_index, on_path⟩ := Footprint.evals_append.1 within
    refine (c.scripted_eval index on_index).bind fun v => ?_
    refine (scripted_asIndex index v).bind fun i => ?_
    split
    · exact scripted_throw _
    · exact (c.scripted_resolvePath line _ t.path on_path).bind fun steps => scripted_pure _

theorem gives_pure {α : Type} {Q : α → Prop} {a : α} (holds : Q a) : Gives (pure a : RunM α) Q := by
  intro s b s' ran
  cases ran
  exact holds

/-- Only a target that is a part of an element resolves to one. -/
theorem resolveTarget_of (c : RunContext) (line : Nat) (t : Target) :
    Gives (c.resolveTarget line t) fun resolved => ∀ r ∈ resolved, r.Of t := by
  unfold resolveTarget
  split
  · refine gives_bind fun steps => gives_pure fun r member => ?_
    obtain ⟨path, -, rfl⟩ := Option.map_eq_some_iff.1 member
    trivial
  · next binding index place =>
    refine gives_bind fun v => gives_bind fun i => ?_
    have here : t.isIn binding := by simp [Target.isIn, place]
    split
    · exact gives_throw _
    · by_cases whole : t.path = []
      · rw [whole]
        exact gives_pure fun r member => by
          cases member
          exact ⟨here, fun part => (part rfl).elim⟩
      · have part : t.isPart := by simp [Target.isPart, place, whole]
        refine gives_bind fun steps => gives_pure fun r member => ?_
        obtain ⟨path, -, rfl⟩ := Option.map_eq_some_iff.1 member
        exact ⟨here, fun _ => part⟩

/-- A store to a local variable or to what a target resolves to. -/
theorem scripted_store (c : RunContext) (line : Nat) {t : Target} {r : ResolvedTarget} (v : Value)
    (of : r.Of t) (stores : fp.Stores t) : Scripted F fp c.me (c.store line r v) := by
  unfold store
  split
  · next slot path =>
    refine scripted_get (fun _ _ _ _ => rfl) fun s => ?_
    refine (scripted_typed _ _).bind fun new => ?_
    exact scripted_modify (·.set slot new) id fun _ => rfl
  · next binding index => exact scripted_onStore (Store.scripted_write index v)
  · next binding index path part =>
    have parts : fp.parts binding := stores.2 binding of.1 (of.2 part)
    refine scripted_onStore (Store.scripted_update index parts fun b _ => ?_)
    exact (patches_setPath b.element path v).mapError _

theorem scripted_load (c : RunContext) (line : Nat) {t : Target} {r : ResolvedTarget}
    (of : r.Of t) (loads : ∀ binding, t.isIn binding → fp.loads binding) :
    Scripted F fp c.me (c.load line r) := by
  cases r with
  | localVar slot path =>
    exact scripted_get (fun _ _ _ _ => rfl) fun s => scripted_typed _ _
  | buffer binding index path =>
    refine (scripted_onStore (Store.scripted_read index (loads binding of.1))).bind fun v => ?_
    exact scripted_typed _ _

theorem scripted_storeAll (c : RunContext) (line : Nat) (v : Value) (targets : List Target)
    (stores : ∀ t ∈ targets, fp.Stores t) : Scripted F fp c.me (c.storeAll line v targets) := by
  induction targets with
  | nil => exact scripted_pure _
  | cons t rest ih =>
    have here := stores t List.mem_cons_self
    refine (c.scripted_resolveTarget line t here.1).bind_of (c.resolveTarget_of line t)
      fun resolved of => ?_
    have later := ih fun t' member => stores t' (List.mem_cons_of_mem t member)
    cases resolved with
    | some target => exact (c.scripted_store line v (of target rfl) here).bind fun _ => later
    | none => exact later

theorem scripted_initial (c : RunContext) (line slot : Nat) (init : Option Expr)
    (within : ∀ e ∈ init, fp.Evals e.nodes) : Scripted F fp c.me (c.initial line slot init) := by
  cases init with
  | none => exact scripted_pure _
  | some e =>
    refine (c.scripted_eval e (within e rfl)).bind fun v => ?_
    split
    · exact scripted_pure _
    · exact scripted_throw _

theorem scripted_compound (c : RunContext) (line : Nat) (t : Target) (op : BinaryOp) (value : Expr)
    (within : fp.Evals value.nodes) (stores : fp.Stores t)
    (loads : ∀ binding, t.isIn binding → fp.loads binding) :
    Scripted F fp c.me (c.compound line t op value) := by
  refine (c.scripted_eval value within).bind fun v => ?_
  refine (c.scripted_resolveTarget line t stores.1).bind_of (c.resolveTarget_of line t)
    fun resolved of => ?_
  cases resolved with
  | none => exact scripted_pure _
  | some target =>
    refine (c.scripted_load line (of target rfl) loads).bind fun current => ?_
    refine (scripted_typed _ _).bind fun new => ?_
    exact c.scripted_store line new (of target rfl) stores

end RunContext

/-! ## Statements -/

/-- Whether the targets of statements stay within a footprint. -/
def Footprint.Targets (fp : Footprint) (targets : List (Target × Bool)) : Prop :=
  ∀ x ∈ targets, (∀ binding, x.1.isIn binding → x.1.isPart → fp.parts binding) ∧
    (x.2 → ∀ binding, x.1.isIn binding → fp.loads binding)

namespace Footprint

theorem targets_append {fp : Footprint} {targets targets' : List (Target × Bool)} :
    fp.Targets (targets ++ targets') ↔ fp.Targets targets ∧ fp.Targets targets' :=
  List.forall_mem_append

end Footprint

namespace RunContext

mutual

/-- A statement without atomics. -/
theorem scripted_exec (c : RunContext) (stmt : Stmt) (within : fp.Evals stmt.nodes)
    (targets : fp.Targets stmt.targets) : Scripted F fp c.me (c.exec stmt) := by
  rw [exec.eq_def]
  refine (scripted_step c).bind fun _ => ?_
  cases stmt with
  | declare line slot init =>
    have within : ∀ e ∈ init, fp.Evals e.nodes := by
      rintro e rfl
      exact within
    refine (c.scripted_initial line slot init within).bind fun v => ?_
    refine (scripted_modify (·.set slot v) id fun _ => rfl).bind fun _ => ?_
    exact scripted_pure _
  | assign line ts value =>
    obtain ⟨on_value, on_targets⟩ := Footprint.evals_append.1 within
    refine (c.scripted_eval value on_value).bind fun v => ?_
    refine (c.scripted_storeAll line v ts.reverse fun t member => ?_).bind fun _ => scripted_pure _
    have listed : t ∈ ts := List.mem_reverse.1 member
    refine ⟨fun e inside => on_targets e (List.mem_flatMap.2 ⟨t, listed, inside⟩), ?_⟩
    exact (targets (t, false) (List.mem_map.2 ⟨t, listed, rfl⟩)).1
  | compound line t op value =>
    obtain ⟨on_value, on_target⟩ := Footprint.evals_append.1 within
    obtain ⟨parts, loads⟩ := targets (t, true) List.mem_cons_self
    refine (c.scripted_compound line t op value on_value ⟨on_target, parts⟩ (loads rfl)).bind
      fun _ => scripted_pure _
  | imageStore line binding coord value =>
    obtain ⟨on_coord, on_value⟩ := Footprint.evals_append.1 within
    refine (c.scripted_eval coord on_coord).bind fun v => ?_
    refine (scripted_asCoord coord v).bind fun xy => ?_
    refine (c.scripted_eval value on_value).bind fun w => ?_
    refine (scripted_onStore (Store.scripted_imageStore binding xy.1 xy.2 w)).bind fun _ => ?_
    exact scripted_pure _
  | eval line e => exact (c.scripted_eval e within).bind fun _ => scripted_pure _
  | branch line condition accepted =>
    obtain ⟨on_condition, on_accepted⟩ := Footprint.evals_append.1 within
    refine (c.scripted_eval condition on_condition).bind fun v => ?_
    refine (scripted_asCondition condition v).bind fun a => ?_
    split
    · exact c.scripted_exec accepted on_accepted targets
    · exact scripted_pure _
  | branchElse line condition accepted rejected =>
    obtain ⟨on_condition, on_rest⟩ := Footprint.evals_append.1 within
    obtain ⟨on_accepted, on_rejected⟩ := Footprint.evals_append.1 on_rest
    obtain ⟨in_accepted, in_rejected⟩ := Footprint.targets_append.1 targets
    refine (c.scripted_eval condition on_condition).bind fun v => ?_
    refine (scripted_asCondition condition v).bind fun a => ?_
    split
    · exact c.scripted_exec accepted on_accepted in_accepted
    · exact c.scripted_exec rejected on_rejected in_rejected
  | block line body => exact c.scripted_execAll body within targets
  | leave line => exact scripted_pure _

theorem scripted_execAll (c : RunContext) (body : List Stmt)
    (within : fp.Evals (Stmt.nodesOf body)) (targets : fp.Targets (Stmt.targetsOf body)) :
    Scripted F fp c.me (c.execAll body) := by
  cases body with
  | nil => exact scripted_pure _
  | cons stmt rest =>
    obtain ⟨here, later⟩ := Footprint.evals_append.1 within
    obtain ⟨in_here, in_later⟩ := Footprint.targets_append.1 targets
    refine (c.scripted_exec stmt here in_here).bind fun flow => ?_
    cases flow with
    | leave => exact scripted_pure _
    | next => exact c.scripted_execAll rest later in_later

end

end RunContext

end ComputeShader
