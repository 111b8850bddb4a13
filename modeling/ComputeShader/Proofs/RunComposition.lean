import ComputeShader.Proofs.CheckedBodies
import ComputeShader.Proofs.InvocationScripts

/-! # What a run is composed of

A run of an invocation is a sequence of elementary parts: steps of the budget, type errors, accesses to
local variables and operations of the store. `Composed` says so together with what each part may rely on
if the body is closed or checked. A property of runs that holds of the elementary parts and of sequences of parts
holds of every run, by induction over `Composed`.
-/

namespace ComputeShader

namespace RunContext

/-! ## Elementary parts -/

/-- A step of the budget counts, also the one that is too much. -/
theorem step_eq (c : RunContext) (s : RunState) : c.step s =
    if c.stepBudget < s.steps + 1 then
      .error (.stepBudgetExceeded c.me c.stepBudget) { s with steps := s.steps + 1 }
    else .ok () { s with steps := s.steps + 1 } := by
  change (if c.stepBudget < s.steps + 1 then throw (.stepBudgetExceeded c.me c.stepBudget) else
    pure () : RunM Unit) { s with steps := s.steps + 1 } = _
  split
  · rfl
  · rfl

/-- The operations that a run performs on the store. If the body is closed, they find what they use; if it
is checked, they may use it as they do. Elements are stored to in parts where a target asks for it. -/
inductive Access (c : RunContext) : {α : Type} → StoreM α → Prop where
  | resolve (label : String) (index : Int) (extent : Nat) :
      Access c (Store.resolve label index extent c.me)
  | uniform (slot : Nat) (element : Option Int)
      (declared : c.shader.Closed → c.shader.DeclaresUniform slot element.isSome) :
      Access c (Store.uniform slot element c.me)
  | read (binding : Binding) (index : Int)
      (declared : c.shader.Closed → c.shader.DeclaresBuffer binding)
      (permitted : c.shader.Checked → c.shader.MayRead (.buffer binding)) :
      Access c (Store.read binding index c.me)
  | write (binding : Binding) (index : Int) (v : Value)
      (declared : c.shader.Closed → c.shader.DeclaresBuffer binding)
      (permitted : c.shader.Checked → c.shader.MayWrite (.buffer binding)) :
      Access c (Store.write binding index v c.me)
  | update (binding : Binding) (index : Int) (line : Nat) (path : List Step) (v : Value)
      (declared : c.shader.Closed → c.shader.DeclaresBuffer binding)
      (permitted : c.shader.Checked → c.shader.MayWrite (.buffer binding))
      (part : c.shader.storesParts binding) :
      Access c (Store.update binding index c.me fun old =>
        (setPath old path v).mapError (.typeMismatch (.atLine "store" line)))
  | length (binding : Binding) (declared : c.shader.Closed → c.shader.DeclaresBuffer binding) :
      Access c (Store.length binding)
  | atomic (op : AtomicOp) (binding : Binding) (index : Int) (operands : List Value)
      (declared : c.shader.Closed →
        operands.length = op.operandCount ∧ c.shader.DeclaresIntegers binding)
      (permitted : c.shader.Checked →
        c.shader.MayRead (.buffer binding) ∧ c.shader.MayWrite (.buffer binding)) :
      Access c (Store.atomic op binding index operands c.me)
  | imageLoad (binding : Binding) (x y : Int)
      (declared : c.shader.Closed → c.shader.DeclaresImage binding)
      (permitted : c.shader.Checked → c.shader.MayRead (.image binding)) :
      Access c (Store.imageLoad binding x y c.me)
  | imageStore (binding : Binding) (x y : Int) (v : Value)
      (declared : c.shader.Closed → c.shader.DeclaresImage binding)
      (permitted : c.shader.Checked → c.shader.MayWrite (.image binding)) :
      Access c (Store.imageStore binding x y v c.me)
  | imageAtomicAdd (binding : Binding) (x y : Int) (v : Value)
      (declared : c.shader.Closed → c.shader.DeclaresIntegerImage binding)
      (permitted : c.shader.Checked →
        c.shader.MayRead (.image binding) ∧ c.shader.MayWrite (.image binding)) :
      Access c (Store.imageAtomicAdd binding x y v c.me)
  | imageSize (binding : Binding) (declared : c.shader.Closed → c.shader.DeclaresImage binding) :
      Access c (Store.imageSize binding)
  | sample (binding : Binding) (r : SampleRequest)
      (declared : c.shader.Closed → c.shader.DeclaresSampler binding) :
      Access c (Store.sample c.sampler binding r)

/-- The parts of a run, composed of elementary ones. If the body is closed, no type error dangles and
every local variable exists. -/
inductive Composed (c : RunContext) : {α : Type} → RunM α → Prop where
  | pure {α : Type} (a : α) : Composed c (Pure.pure a : RunM α)
  | bind_of {α β : Type} {x : RunM α} {k : α → RunM β} {Q : α → Prop} (first : Composed c x)
      (gives : Gives x Q) (next : ∀ a, Q a → Composed c (k a)) : Composed c (x >>= k)
  | step : Composed c c.step
  | mismatch {α : Type} (site : AccessSite) (e : TypeError)
      (ordinary : c.shader.Closed → ¬ (EngineError.typeMismatch site e).Dangling) :
      Composed c (throw (.typeMismatch site e) : RunM α)
  | loadLocal {α : Type} (slot : Nat) {k : Value → RunM α}
      (declared : c.shader.Closed → c.shader.DeclaresLocal slot) (next : ∀ v, Composed c (k v)) :
      Composed c (get >>= fun s => k (s.locals.getD slot default))
  | storeLocal (slot : Nat) (v : Value)
      (declared : c.shader.Closed → c.shader.DeclaresLocal slot) :
      Composed c (modify fun s => { s with locals := s.locals.set slot v })
  | access {α : Type} {x : StoreM α} (operation : Access c x) : Composed c (onStore x)

namespace Composed

variable {c : RunContext} {α β : Type} {x : RunM α} {k : α → RunM β}

theorem bind (first : Composed c x) (next : ∀ a, Composed c (k a)) : Composed c (x >>= k) :=
  first.bind_of (fun _ _ _ _ => trivial) fun a _ => next a

theorem typed {site : AccessSite} {answer : Except TypeError α}
    (ordinary : c.shader.Closed →
      FailsWith (fun e => ¬ (EngineError.typeMismatch site e).Dangling) answer) :
    Composed c (RunContext.typed site answer) := by
  cases answer with
  | ok a => exact .pure a
  | error e => exact .mismatch site e fun closed => ordinary closed e rfl

/-- An operation at a node, but for constructors and built-in functions. -/
theorem operation {what : String} {pos : Position} {answer : Except TypeError α} {ending : Char}
    (last : EngineError.Ends what ending) (constructor : ending ≠ 'r') (function : ending ≠ 'l') :
    Composed c (RunContext.typed (.node what pos) answer) :=
  typed fun _ _ _ => EngineError.not_dangling_node last constructor function

theorem asCondition (e : Expr) (v : Value) : Composed c (RunContext.asCondition e v) := by
  unfold RunContext.asCondition
  split
  · exact .pure _
  · have last : EngineError.Ends "condition" 'n' := rfl
    exact .mismatch _ _ fun _ => EngineError.not_dangling_node last (by decide) (by decide)

theorem asIndex (e : Expr) (v : Value) : Composed c (RunContext.asIndex e v) := by
  unfold RunContext.asIndex
  split
  · exact .pure _
  · have last : EngineError.Ends "index" 'x' := rfl
    exact .mismatch _ _ fun _ => EngineError.not_dangling_node last (by decide) (by decide)

theorem asCoord (e : Expr) (v : Value) : Composed c (RunContext.asCoord e v) := by
  unfold RunContext.asCoord
  split
  · exact .pure _
  · have last : EngineError.Ends "image coordinate" 'e' := rfl
    exact .mismatch _ _ fun _ => EngineError.not_dangling_node last (by decide) (by decide)

theorem asTextureCoord (pos : Position) (v : Value) : Composed c (RunContext.asTextureCoord pos v) := by
  unfold RunContext.asTextureCoord
  split
  · exact .pure _
  · have last : EngineError.Ends "texture coordinate" 'e' := rfl
    exact .mismatch _ _ fun _ => EngineError.not_dangling_node last (by decide) (by decide)

theorem asBias (e : Expr) (v : Value) : Composed c (RunContext.asBias e v) := by
  unfold RunContext.asBias
  split
  · exact .pure _
  · have last : EngineError.Ends "texture bias" 's' := rfl
    exact .mismatch _ _ fun _ => EngineError.not_dangling_node last (by decide) (by decide)

theorem subscript (pos : Position) (v : Value) (i : Int) : Composed c (c.subscript pos v i) := by
  have last : EngineError.Ends "subscript" 't' := rfl
  unfold RunContext.subscript
  split
  · exact .mismatch _ _ fun _ => EngineError.not_dangling_node last (by decide) (by decide)
  · refine (access (.resolve _ _ _)).bind fun resolved => ?_
    split
    · exact operation last (by decide) (by decide)
    · exact .pure _

theorem lookupTexture {binding : Binding} (coord : Single × Single) (bias : Option Single)
    (declared : c.shader.Closed → c.shader.DeclaresSampler binding) :
    Composed c (c.lookupTexture binding coord bias) :=
  (access (.sample binding _ declared)).bind fun _ => .pure _

end Composed

/-! ## Expressions -/

variable {c : RunContext}

/-- As many values as expressions are evaluated. -/
theorem length_evalAll (c : RunContext) (es : List Expr) :
    Gives (c.evalAll es) fun vs => vs.length = es.length := by
  induction es with
  | nil => exact gives_pure rfl
  | cons e rest ih =>
    refine gives_bind fun v => ?_
    intro s vs s' ran
    simp only [bind, EStateM.bind] at ran
    cases later : c.evalAll rest s with
    | ok vs' s'' =>
      rw [later] at ran
      cases ran
      exact congrArg (· + 1) (ih s vs' _ later)
    | error e s'' =>
      rw [later] at ran
      cases ran

/-- Whether nodes occur in the body. -/
def Nodes (c : RunContext) (nodes : List Expr) : Prop := nodes ⊆ Stmt.nodesOf c.shader.body

theorem closed_head {e : Expr} {nodes : List Expr} (within : c.Nodes (e :: nodes)) :
    c.shader.Closed → e.ClosedIn c.shader :=
  fun closed => closed.nodes e (within List.mem_cons_self)

theorem checked_head {e : Expr} {nodes : List Expr} (within : c.Nodes (e :: nodes)) :
    c.shader.Checked → e.CheckedIn c.shader :=
  fun checked => checked.nodes e (within List.mem_cons_self)

theorem nodes_tail {e : Expr} {nodes : List Expr} (within : c.Nodes (e :: nodes)) : c.Nodes nodes :=
  (List.cons_subset.1 within).2

theorem nodes_append {nodes nodes' : List Expr} :
    c.Nodes (nodes ++ nodes') ↔ c.Nodes nodes ∧ c.Nodes nodes' :=
  List.append_subset

mutual

/-- The value of an expression of the body. -/
theorem composed_eval (c : RunContext) (e : Expr) (within : c.Nodes e.nodes) :
    Composed c (c.eval e) := by
  rw [eval.eq_def]
  refine Composed.step.bind fun _ => ?_
  cases e with
  | literal pos v => exact .pure v
  | localVar pos slot => exact .loadLocal slot (closed_head within) fun v => .pure v
  | builtin pos b => exact .pure _
  | uniform pos slot => exact .access (.uniform slot none (closed_head within))
  | uniformElement pos slot index =>
    refine (c.composed_eval index (nodes_tail within)).bind fun v => ?_
    refine (Composed.asIndex index v).bind fun i => ?_
    exact .access (.uniform slot (some i) (closed_head within))
  | bufferElement pos binding index =>
    refine (c.composed_eval index (nodes_tail within)).bind fun v => ?_
    refine (Composed.asIndex index v).bind fun i => ?_
    exact .access (.read binding i (closed_head within) (checked_head within))
  | bufferLength pos binding =>
    exact (Composed.access (.length binding (closed_head within))).bind fun _ => .pure _
  | subscript pos base index =>
    obtain ⟨on_base, on_index⟩ := nodes_append.1 (nodes_tail within)
    refine (c.composed_eval base on_base).bind fun v => ?_
    refine (c.composed_eval index on_index).bind fun w => ?_
    exact (Composed.asIndex index w).bind fun i => .subscript pos v i
  | swizzle pos base selection =>
    have last : EngineError.Ends "swizzle" 'e' := rfl
    refine (c.composed_eval base (nodes_tail within)).bind fun v => ?_
    exact .operation last (by decide) (by decide)
  | construct pos ty args =>
    refine (c.composed_evalAll args (nodes_tail within)).bind_of (c.length_evalAll args)
      fun vs length => ?_
    refine .typed fun closed => Value.failsWith_construct ty (fun empty => ?_) pos
    have none : args.length = 0 := by rw [← length, empty, List.length_nil]
    exact closed_head within closed (List.length_eq_zero_iff.1 none)
  | unary pos op operand =>
    have last : EngineError.Ends ("`" ++ op.symbol ++ "`") '`' := EngineError.Ends.append (by rfl) _
    refine (c.composed_eval operand (nodes_tail within)).bind fun v => ?_
    exact .operation last (by decide) (by decide)
  | binary pos op left right =>
    have last : EngineError.Ends ("`" ++ op.symbol ++ "`") '`' := EngineError.Ends.append (by rfl) _
    obtain ⟨on_left, on_right⟩ := nodes_append.1 (nodes_tail within)
    refine (c.composed_eval left on_left).bind fun a => ?_
    exact (c.composed_eval right on_right).bind fun b => .operation last (by decide) (by decide)
  | logical pos op left right =>
    obtain ⟨on_left, on_right⟩ := nodes_append.1 (nodes_tail within)
    refine (c.composed_eval left on_left).bind fun v => ?_
    refine (Composed.asCondition left v).bind fun a => ?_
    split
    · exact .pure _
    · exact .pure _
    · refine (c.composed_eval right on_right).bind fun w => ?_
      exact (Composed.asCondition right w).bind fun b => .pure _
  | ternary pos condition accepted rejected =>
    obtain ⟨on_condition, on_rest⟩ := nodes_append.1 (nodes_tail within)
    obtain ⟨on_accepted, on_rejected⟩ := nodes_append.1 on_rest
    refine (c.composed_eval condition on_condition).bind fun v => ?_
    refine (Composed.asCondition condition v).bind fun a => ?_
    split
    · exact c.composed_eval accepted on_accepted
    · exact c.composed_eval rejected on_rejected
  | atomic pos op binding index args =>
    obtain ⟨on_index, on_args⟩ := nodes_append.1 (nodes_tail within)
    refine (c.composed_eval index on_index).bind fun v => ?_
    refine (Composed.asIndex index v).bind fun i => ?_
    refine (c.composed_evalAll args on_args).bind_of (c.length_evalAll args) fun operands length => ?_
    refine .access (.atomic op binding i operands (fun closed => ?_) fun checked => ?_)
    · exact (closed_head within closed).imp_left length.trans
    · exact (checked_head within checked).2
  | imageLoad pos binding coord =>
    refine (c.composed_eval coord (nodes_tail within)).bind fun v => ?_
    refine (Composed.asCoord coord v).bind fun xy => ?_
    exact .access (.imageLoad binding xy.1 xy.2 (closed_head within) (checked_head within))
  | imageAtomicAdd pos binding coord value =>
    obtain ⟨on_coord, on_value⟩ := nodes_append.1 (nodes_tail within)
    refine (c.composed_eval coord on_coord).bind fun v => ?_
    refine (Composed.asCoord coord v).bind fun xy => ?_
    refine (c.composed_eval value on_value).bind fun w => ?_
    exact .access (.imageAtomicAdd binding xy.1 xy.2 w (closed_head within)
      fun checked => (checked_head within checked).2)
  | imageSize pos binding =>
    exact (Composed.access (.imageSize binding (closed_head within))).bind fun _ => .pure _
  | texture pos binding coord =>
    refine (c.composed_eval coord (nodes_tail within)).bind fun v => ?_
    refine (Composed.asTextureCoord pos v).bind fun place => ?_
    exact .lookupTexture place none (closed_head within)
  | textureBiased pos binding coord bias =>
    obtain ⟨on_coord, on_bias⟩ := nodes_append.1 (nodes_tail within)
    refine (c.composed_eval coord on_coord).bind fun v => ?_
    refine (Composed.asTextureCoord pos v).bind fun place => ?_
    refine (c.composed_eval bias on_bias).bind fun w => ?_
    exact (Composed.asBias bias w).bind fun b => .lookupTexture place (some b) (closed_head within)
  | math pos f args =>
    refine (c.composed_evalAll args (nodes_tail within)).bind_of (c.length_evalAll args)
      fun vs length => ?_
    exact .typed fun closed =>
      Value.failsWith_math f (length.trans (closed_head within closed)) pos

theorem composed_evalAll (c : RunContext) (es : List Expr) (within : c.Nodes (Expr.nodesOf es)) :
    Composed c (c.evalAll es) := by
  cases es with
  | nil => exact .pure []
  | cons e rest =>
    obtain ⟨here, later⟩ := nodes_append.1 within
    refine (c.composed_eval e here).bind fun v => ?_
    exact (c.composed_evalAll rest later).bind fun vs => .pure _

end

/-! ## Targets -/

theorem composed_resolvePath (c : RunContext) (line : Nat) (ty : ValueType) (path : List Projection)
    (within : c.Nodes (path.flatMap Projection.nodes)) :
    Composed c (c.resolvePath line ty path) := by
  induction path generalizing ty with
  | nil => exact .pure _
  | cons step rest ih =>
    obtain ⟨here, later⟩ := nodes_append.1 within
    cases step with
    | subscript e =>
      have last : EngineError.Ends "subscript" 't' := rfl
      rw [resolvePath]
      refine (c.composed_eval e here).bind fun v => ?_
      refine (Composed.asIndex e v).bind fun i => ?_
      split
      · exact .mismatch _ _ fun _ => EngineError.not_dangling_node last (by decide) (by decide)
      · refine (Composed.access (.resolve _ _ _)).bind fun resolved => ?_
        split
        · exact .pure _
        · exact (ih _ later).bind fun steps => .pure _
    | swizzle selection =>
      have mismatch (site : TypeError) : Composed c
          (throw (.typeMismatch (.atLine "swizzle" line) site) : RunM (Option (List Step))) :=
        .mismatch _ _ fun _ => EngineError.not_dangling_atLine (by decide)
      unfold resolvePath
      split
      · split
        · split
          · exact (ih _ later).bind fun steps => .pure _
          · exact mismatch _
        · exact mismatch _
      · exact mismatch _

end RunContext

/-- Whether the place of a resolved target is that of a target. -/
def ResolvedTarget.At (t : Target) : ResolvedTarget → Prop
  | .localVar slot _ => t.place = .localVar slot
  | .buffer binding _ _ => ∃ index, t.place = .bufferElement binding index

namespace RunContext

variable {c : RunContext}

theorem resolveTarget_at (c : RunContext) (line : Nat) (t : Target) :
    Gives (c.resolveTarget line t) fun resolved => ∀ r ∈ resolved, r.At t := by
  unfold resolveTarget
  split
  · next slot place =>
    refine gives_bind fun steps => gives_pure fun r member => ?_
    obtain ⟨path, -, rfl⟩ := Option.map_eq_some_iff.1 member
    exact place
  · next binding index place =>
    refine gives_bind fun v => gives_bind fun i => ?_
    split
    · exact gives_throw _
    · refine gives_bind fun steps => gives_pure fun r member => ?_
      obtain ⟨path, -, rfl⟩ := Option.map_eq_some_iff.1 member
      exact ⟨index, place⟩

/-- A resolved target has the place of its target, and is a part of an element only if that is one. -/
theorem resolveTarget_resolves (c : RunContext) (line : Nat) (t : Target) :
    Gives (c.resolveTarget line t) fun resolved => ∀ r ∈ resolved, r.At t ∧ r.Of t :=
  fun s resolved s' ran r member =>
    ⟨c.resolveTarget_at line t s resolved s' ran r member,
      c.resolveTarget_of line t s resolved s' ran r member⟩

/-- Whether a target occurs in the body. -/
def Stores (c : RunContext) (t : Target) : Prop :=
  ∃ compound, (t, compound) ∈ Stmt.targetsOf c.shader.body

theorem Stores.closedIn {t : Target} (occurs : c.Stores t) : c.shader.Closed → t.ClosedIn c.shader := by
  obtain ⟨compound, member⟩ := occurs
  exact fun closed => closed.targets _ member

theorem Stores.declaresLocal {t : Target} {slot : Nat} (occurs : c.Stores t)
    (place : t.place = .localVar slot) : c.shader.Closed → c.shader.DeclaresLocal slot := by
  intro closed
  have declared := occurs.closedIn closed
  rwa [Target.ClosedIn, place] at declared

theorem Stores.declaresBuffer {t : Target} {binding : Binding} {index : Expr} (occurs : c.Stores t)
    (place : t.place = .bufferElement binding index) :
    c.shader.Closed → c.shader.DeclaresBuffer binding := by
  intro closed
  have declared := occurs.closedIn closed
  rwa [Target.ClosedIn, place] at declared

theorem Stores.mayWrite {t : Target} {binding : Binding} {index : Expr} (occurs : c.Stores t)
    (place : t.place = .bufferElement binding index) :
    c.shader.Checked → c.shader.MayWrite (.buffer binding) := by
  obtain ⟨compound, member⟩ := occurs
  intro checked
  have held := checked.targets _ member
  rw [Target.CheckedIn, place] at held
  exact held.1

theorem composed_resolveTarget (line : Nat) {t : Target} (occurs : c.Stores t)
    (within : c.Nodes t.nodes) : Composed c (c.resolveTarget line t) := by
  unfold resolveTarget
  rw [Target.nodes.eq_def] at within
  split
  · next slot place =>
    rw [place] at within
    exact (c.composed_resolvePath line _ t.path within).bind fun steps => .pure _
  · next binding index place =>
    rw [place] at within
    obtain ⟨on_index, on_path⟩ := nodes_append.1 within
    refine (c.composed_eval index on_index).bind fun v => ?_
    refine (Composed.asIndex index v).bind fun i => ?_
    split
    · next missing =>
      refine .mismatch _ _ fun closed => ?_
      obtain ⟨b, found⟩ := occurs.declaresBuffer place closed
      rw [found] at missing
      cases missing
    · exact (c.composed_resolvePath line _ t.path on_path).bind fun steps => .pure _

theorem composed_store (line : Nat) {t : Target} {r : ResolvedTarget} (v : Value)
    (occurs : c.Stores t) (place : r.At t) (of : r.Of t) : Composed c (c.store line r v) := by
  unfold store
  split
  · next slot path =>
    have declared := occurs.declaresLocal place
    refine .loadLocal slot (k := fun old => do
      let new ← typed (.atLine "store" line) (setPath old path v)
      modify fun s => { s with locals := s.locals.set slot new }) declared fun old => ?_
    have stored : Composed c (typed (.atLine "store" line) (setPath old path v)) :=
      .typed fun _ e failed =>
        EngineError.not_dangling_place (Value.failsWith_setPath old path v e failed)
    exact stored.bind fun new => .storeLocal slot new declared
  · next binding index =>
    obtain ⟨_, place⟩ := place
    exact .access (.write binding index v (occurs.declaresBuffer place) (occurs.mayWrite place))
  · next binding index path nonempty =>
    obtain ⟨_, place⟩ := place
    have part : c.shader.storesParts binding := by
      obtain ⟨compound, member⟩ := occurs
      exact List.any_eq_true.2 ⟨_, member, Bool.and_eq_true_iff.2 ⟨of.1, of.2 nonempty⟩⟩
    exact .access (.update binding index line path v (occurs.declaresBuffer place) (occurs.mayWrite place)
      part)

theorem composed_load (line : Nat) {t : Target} {r : ResolvedTarget}
    (loaded : (t, true) ∈ Stmt.targetsOf c.shader.body) (place : r.At t) :
    Composed c (c.load line r) := by
  have occurs : c.Stores t := ⟨true, loaded⟩
  have part (v : Value) (path : List Step) :
      Composed c (typed (.atLine "load" line) (getPath v path)) :=
    .typed fun _ _ _ => EngineError.not_dangling_atLine (by decide)
  cases r with
  | localVar slot path => exact .loadLocal slot (occurs.declaresLocal place) fun v => part v path
  | buffer binding index path =>
    obtain ⟨_, place⟩ := place
    have permitted (checked : c.shader.Checked) : c.shader.MayRead (.buffer binding) := by
      have held := checked.targets _ loaded
      rw [Target.CheckedIn, place] at held
      exact held.2 rfl
    exact (Composed.access (.read binding index (occurs.declaresBuffer place) permitted)).bind
      fun v => part v path

theorem composed_storeAll (c : RunContext) (line : Nat) (v : Value) (targets : List Target)
    (occur : ∀ t ∈ targets, c.Stores t ∧ c.Nodes t.nodes) :
    Composed c (c.storeAll line v targets) := by
  induction targets with
  | nil => exact .pure _
  | cons t rest ih =>
    obtain ⟨occurs, within⟩ := occur t List.mem_cons_self
    refine (composed_resolveTarget line occurs within).bind_of (c.resolveTarget_resolves line t)
      fun resolved resolves => ?_
    have later := ih fun t' member => occur t' (List.mem_cons_of_mem t member)
    cases resolved with
    | some target =>
      obtain ⟨place, of⟩ := resolves target rfl
      exact (composed_store line v occurs place of).bind fun _ => later
    | none => exact later

theorem composed_initial (c : RunContext) (line slot : Nat) (init : Option Expr)
    (within : ∀ e ∈ init, c.Nodes e.nodes) : Composed c (c.initial line slot init) := by
  cases init with
  | none => exact .pure _
  | some e =>
    refine (c.composed_eval e (within e rfl)).bind fun v => ?_
    split
    · exact .pure _
    · exact .mismatch _ _ fun _ => EngineError.not_dangling_initializer

theorem composed_compound (c : RunContext) (line : Nat) {t : Target} (op : BinaryOp) (value : Expr)
    (in_value : c.Nodes value.nodes) (loaded : (t, true) ∈ Stmt.targetsOf c.shader.body)
    (in_target : c.Nodes t.nodes) : Composed c (c.compound line t op value) := by
  have last : EngineError.Ends ("`" ++ op.symbol ++ "=`") '`' := EngineError.Ends.append (by rfl) _
  refine (c.composed_eval value in_value).bind fun v => ?_
  refine (composed_resolveTarget line ⟨true, loaded⟩ in_target).bind_of (c.resolveTarget_resolves line t)
    fun resolved resolves => ?_
  cases resolved with
  | none => exact .pure _
  | some target =>
    obtain ⟨place, of⟩ := resolves target rfl
    refine (composed_load line loaded place).bind fun current => ?_
    refine (Composed.operation last (by decide) (by decide)).bind fun new => ?_
    exact composed_store line new ⟨true, loaded⟩ place of

/-! ## Statements -/

/-- Whether expressions, targets and statements occur in the body. -/
structure Occurs (c : RunContext) (nodes : List Expr) (targets : List (Target × Bool))
    (parts : List Stmt) : Prop where
  nodes : c.Nodes nodes
  targets : targets ⊆ Stmt.targetsOf c.shader.body
  parts : parts ⊆ Stmt.partsOf c.shader.body

theorem occurs_append {nodes nodes' : List Expr} {targets targets' : List (Target × Bool)}
    {parts parts' : List Stmt} : c.Occurs (nodes ++ nodes') (targets ++ targets') (parts ++ parts') ↔
      c.Occurs nodes targets parts ∧ c.Occurs nodes' targets' parts' := by
  constructor
  · rintro ⟨nodes, targets, parts⟩
    rw [List.append_subset] at targets parts
    obtain ⟨left, right⟩ := nodes_append.1 nodes
    exact ⟨⟨left, targets.1, parts.1⟩, ⟨right, targets.2, parts.2⟩⟩
  · rintro ⟨left, right⟩
    exact ⟨nodes_append.2 ⟨left.nodes, right.nodes⟩,
      List.append_subset.2 ⟨left.targets, right.targets⟩,
      List.append_subset.2 ⟨left.parts, right.parts⟩⟩

theorem Occurs.closedIn {nodes : List Expr} {targets : List (Target × Bool)} {parts : List Stmt}
    {stmt : Stmt} (occurs : c.Occurs nodes targets (stmt :: parts)) :
    c.shader.Closed → stmt.ClosedIn c.shader :=
  fun closed => closed.parts stmt (occurs.parts List.mem_cons_self)

theorem Occurs.checkedIn {nodes : List Expr} {targets : List (Target × Bool)} {parts : List Stmt}
    {stmt : Stmt} (occurs : c.Occurs nodes targets (stmt :: parts)) :
    c.shader.Checked → stmt.CheckedIn c.shader :=
  fun checked => checked.parts stmt (occurs.parts List.mem_cons_self)

mutual

/-- A statement of the body. -/
theorem composed_exec (c : RunContext) (stmt : Stmt)
    (occurs : c.Occurs stmt.nodes stmt.targets stmt.parts) : Composed c (c.exec stmt) := by
  rw [exec.eq_def]
  refine Composed.step.bind fun _ => ?_
  cases stmt with
  | declare line slot init =>
    have within : ∀ e ∈ init, c.Nodes e.nodes := by
      rintro e rfl
      exact occurs.nodes
    refine (c.composed_initial line slot init within).bind fun v => ?_
    exact (Composed.storeLocal slot v occurs.closedIn).bind fun _ => .pure _
  | assign line ts value =>
    obtain ⟨on_value, on_targets⟩ := nodes_append.1 occurs.nodes
    refine (c.composed_eval value on_value).bind fun v => ?_
    refine (c.composed_storeAll line v ts.reverse fun t member => ?_).bind fun _ => .pure _
    have listed : t ∈ ts := List.mem_reverse.1 member
    exact ⟨⟨false, occurs.targets (List.mem_map.2 ⟨t, listed, rfl⟩)⟩,
      fun e inside => on_targets (List.mem_flatMap.2 ⟨t, listed, inside⟩)⟩
  | compound line t op value =>
    obtain ⟨on_value, on_target⟩ := nodes_append.1 occurs.nodes
    exact (c.composed_compound line op value on_value
      (occurs.targets List.mem_cons_self) on_target).bind fun _ => .pure _
  | imageStore line binding coord value =>
    obtain ⟨on_coord, on_value⟩ := nodes_append.1 occurs.nodes
    refine (c.composed_eval coord on_coord).bind fun v => ?_
    refine (Composed.asCoord coord v).bind fun xy => ?_
    refine (c.composed_eval value on_value).bind fun w => ?_
    exact (Composed.access (.imageStore binding xy.1 xy.2 w occurs.closedIn occurs.checkedIn)).bind
      fun _ => .pure _
  | eval line e => exact (c.composed_eval e occurs.nodes).bind fun _ => .pure _
  | branch line condition accepted =>
    obtain ⟨on_condition, on_accepted⟩ := nodes_append.1 occurs.nodes
    refine (c.composed_eval condition on_condition).bind fun v => ?_
    refine (Composed.asCondition condition v).bind fun a => ?_
    split
    · exact c.composed_exec accepted
        ⟨on_accepted, occurs.targets, (List.cons_subset.1 occurs.parts).2⟩
    · exact .pure _
  | branchElse line condition accepted rejected =>
    obtain ⟨on_condition, on_rest⟩ := nodes_append.1 occurs.nodes
    obtain ⟨in_accepted, in_rejected⟩ :=
      occurs_append.1 ⟨on_rest, occurs.targets, (List.cons_subset.1 occurs.parts).2⟩
    refine (c.composed_eval condition on_condition).bind fun v => ?_
    refine (Composed.asCondition condition v).bind fun a => ?_
    split
    · exact c.composed_exec accepted in_accepted
    · exact c.composed_exec rejected in_rejected
  | block line body =>
    exact c.composed_execAll body
      ⟨occurs.nodes, occurs.targets, (List.cons_subset.1 occurs.parts).2⟩
  | leave line => exact .pure _

theorem composed_execAll (c : RunContext) (body : List Stmt)
    (occurs : c.Occurs (Stmt.nodesOf body) (Stmt.targetsOf body) (Stmt.partsOf body)) :
    Composed c (c.execAll body) := by
  cases body with
  | nil => exact .pure _
  | cons stmt rest =>
    obtain ⟨here, later⟩ := occurs_append.1 occurs
    refine (c.composed_exec stmt here).bind fun flow => ?_
    cases flow with
    | leave => exact .pure _
    | next => exact c.composed_execAll rest later

end

/-- A run of an invocation is composed of elementary parts. -/
theorem composed_body (c : RunContext) : Composed c (c.execAll c.shader.body) :=
  c.composed_execAll c.shader.body ⟨fun _ => id, fun _ => id, fun _ => id⟩

end RunContext

end ComputeShader
