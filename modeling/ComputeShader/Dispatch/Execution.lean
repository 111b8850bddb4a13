import ComputeShader.Dispatch.Grid
import ComputeShader.Store.Access
import ComputeShader.Value.Projection

/-! # Running one invocation

The body of a shader is run for one invocation against the store. Every statement and every
expression takes one step of the budget. The right-hand side of an assignment is evaluated before
its targets, and a chain stores into its targets from right to left. What an invocation stored
before an error stays in the store.
-/

namespace ComputeShader

/-- What stays the same while an invocation runs. -/
structure RunContext where
  shader : Shader
  sampler : Sampler
  stepBudget : Nat
  invocation : Invocation
  me : InvocationId
  deriving Repr, Inhabited

/-- What changes: the store, which all invocations share, the local variables and the number of
steps taken. -/
structure RunState where
  store : Store
  locals : List Value
  steps : Nat
  deriving Repr, Inhabited

/-- A part of a run; what it did before it failed remains. -/
abbrev RunM := EStateM EngineError RunState

/-- Where control goes after a statement. -/
inductive Flow where
  | next
  | leave
  deriving DecidableEq, Repr, Inhabited

/-- A target with its subscripts evaluated and in range. -/
inductive ResolvedTarget where
  | localVar (slot : Nat) (path : List Step)
  | buffer (binding : Binding) (index : Int) (path : List Step)
  deriving DecidableEq, Repr

namespace RunContext

/-- Perform an operation on the store. -/
def onStore {α : Type} (action : StoreM α) : RunM α := fun s =>
  match action s.store with
  | .ok a store => .ok a { s with store }
  | .error e store => .error e { s with store }

/-- Take one step of the budget. -/
def step (c : RunContext) : RunM Unit := do
  let steps := (← get).steps + 1
  modify fun s => { s with steps }
  if c.stepBudget < steps then throw (.stepBudgetExceeded c.me c.stepBudget)

/-- Fail with a type error at a site. -/
def typed {α : Type} (site : AccessSite) : Except TypeError α → RunM α
  | .ok a => pure a
  | .error e => throw (.typeMismatch site e)

/-! ## Values with a purpose -/

def asCondition (e : Expr) (v : Value) : RunM Bool :=
  match v.asBool? with
  | some b => pure b
  | none => throw (.typeMismatch (.node "condition" e.pos) ⟨"bool", v.ty.name⟩)

def asIndex (e : Expr) (v : Value) : RunM Int :=
  match v.asIndex? with
  | some i => pure i
  | none => throw (.typeMismatch (.node "index" e.pos) ⟨"int or uint", v.ty.name⟩)

def asCoord (e : Expr) (v : Value) : RunM (Int × Int) :=
  match v.ty, v.components with
  | .vector .int .two, [.int x, .int y] => pure (x.toInt, y.toInt)
  | ty, _ => throw (.typeMismatch (.node "image coordinate" e.pos) ⟨"ivec2", ty.name⟩)

def asTextureCoord (pos : Position) (v : Value) : RunM (Single × Single) :=
  match v.components with
  | [.float x, .float y] => pure (x, y)
  | _ => throw (.typeMismatch (.node "texture coordinate" pos) ⟨"vec2", v.ty.name⟩)

def asBias (e : Expr) (v : Value) : RunM Single :=
  match v.asFloat? with
  | some x => pure x
  | none => throw (.typeMismatch (.node "texture bias" e.pos) ⟨"float", v.ty.name⟩)

/-- A length as an `int`; what does not fit is the largest one. -/
def lengthScalar (n : Nat) : Scalar := .int (Int32.ofInt (min n 2147483647))

/-! ## Expressions -/

/-- `v[i]` in an expression, the index brought into range by the policy. -/
def subscript (c : RunContext) (pos : Position) (v : Value) (i : Int) : RunM Value := do
  match v.ty.element? with
  | none => throw (.typeMismatch (.node "subscript" pos) ⟨"a vector or matrix", v.ty.name⟩)
  | some (element, count) =>
    let label := v.ty.name ++ " subscript at " ++ toString pos.line ++ ":" ++ toString pos.column
    match ← onStore (Store.resolve label i count c.me) with
    | some i => typed (.node "subscript" pos) (v.element i)
    | none => return Value.zero element

/-- Look up a texture. -/
def lookupTexture (c : RunContext) (binding : Binding) (coord : Single × Single)
    (bias : Option Single) : RunM Value := do
  return Value.vec4 (← onStore (Store.sample c.sampler binding ⟨coord.1, coord.2, bias⟩))

mutual

def eval (c : RunContext) (e : Expr) : RunM Value := do
  c.step
  match e with
  | .literal _ v => return v
  | .localVar _ slot => return (← get).locals.getD slot default
  | .builtin _ b => return c.invocation.builtin b
  | .uniform _ slot => onStore (Store.uniform slot none c.me)
  | .uniformElement _ slot index =>
    let i ← asIndex index (← c.eval index)
    onStore (Store.uniform slot (some i) c.me)
  | .bufferElement _ binding index =>
    let i ← asIndex index (← c.eval index)
    onStore (Store.read binding i c.me)
  | .bufferLength _ binding =>
    return Value.ofScalar (lengthScalar (← onStore (Store.length binding)))
  | .subscript pos base index =>
    let v ← c.eval base
    let i ← asIndex index (← c.eval index)
    c.subscript pos v i
  | .swizzle pos base selection =>
    typed (.node "swizzle" pos) ((← c.eval base).swizzle selection)
  | .construct pos ty args =>
    typed (.node ("`" ++ ty.name ++ "` constructor") pos) (Value.construct ty (← c.evalAll args))
  | .unary pos op operand =>
    typed (.node ("`" ++ op.symbol ++ "`") pos) (Value.unary op (← c.eval operand))
  | .binary pos op left right =>
    let a ← c.eval left
    let b ← c.eval right
    typed (.node ("`" ++ op.symbol ++ "`") pos) (Value.binary op a b)
  | .logical _ op left right =>
    let a ← asCondition left (← c.eval left)
    match op, a with
    | .and, false => return Value.bool false
    | .or, true => return Value.bool true
    | _, _ => return Value.bool (← asCondition right (← c.eval right))
  | .ternary _ condition accepted rejected =>
    if ← asCondition condition (← c.eval condition) then c.eval accepted else c.eval rejected
  | .atomic _ op binding index args =>
    let i ← asIndex index (← c.eval index)
    let operands ← c.evalAll args
    onStore (Store.atomic op binding i operands c.me)
  | .imageLoad _ binding coord =>
    let (x, y) ← asCoord coord (← c.eval coord)
    onStore (Store.imageLoad binding x y c.me)
  | .imageAtomicAdd _ binding coord value =>
    let (x, y) ← asCoord coord (← c.eval coord)
    let v ← c.eval value
    onStore (Store.imageAtomicAdd binding x y v c.me)
  | .imageSize _ binding =>
    let (width, height) ← onStore (Store.imageSize binding)
    return Value.ofComponents (.vector .int .two)
      [lengthScalar width.toNat, lengthScalar height.toNat]
  | .texture pos binding coord =>
    let place ← asTextureCoord pos (← c.eval coord)
    c.lookupTexture binding place none
  | .textureBiased pos binding coord bias =>
    let place ← asTextureCoord pos (← c.eval coord)
    let b ← asBias bias (← c.eval bias)
    c.lookupTexture binding place (some b)
  | .math pos f args =>
    typed (.node "built-in call" pos) (Value.math f (← c.evalAll args))

/-- The values of expressions, from left to right. -/
def evalAll (c : RunContext) : List Expr → RunM (List Value)
  | [] => return []
  | e :: rest => do
    let v ← c.eval e
    return v :: (← c.evalAll rest)

end

/-! ## Assignment targets -/

/-- Evaluate the subscripts of a path into a value of type `ty`. No result means that the policy
drops the store. -/
def resolvePath (c : RunContext) (line : Nat) : ValueType → List Projection →
    RunM (Option (List Step))
  | _, [] => return some []
  | ty, .subscript e :: rest => do
    let i ← asIndex e (← c.eval e)
    match ty.element? with
    | none => throw (.typeMismatch (.node "subscript" e.pos) ⟨"a vector or matrix", ty.name⟩)
    | some (element, count) =>
      let label := ty.name ++ " subscript at line " ++ toString line
      match ← onStore (Store.resolve label i count c.me) with
      | none => return none
      | some i => return (← c.resolvePath line element rest).map (.index i :: ·)
  | ty, .swizzle selection :: rest => do
    let mismatch := EngineError.typeMismatch (.atLine "swizzle" line)
      ⟨"a vector with the selected components", ty.name⟩
    match ty with
    | .vector kind size =>
      if selection.all (· < size.toNat) then
        match ValueType.ofCount? kind selection.length with
        | some part => return (← c.resolvePath line part rest).map (.swizzle selection :: ·)
        | none => throw mismatch
      else throw mismatch
    | _ => throw mismatch

/-- Evaluate the subscripts of a target. -/
def resolveTarget (c : RunContext) (line : Nat) (t : Target) : RunM (Option ResolvedTarget) := do
  match t.place with
  | .localVar slot =>
    let ty := (c.shader.localType? slot).getD default
    return (← c.resolvePath line ty t.path).map (.localVar slot ·)
  | .bufferElement binding index =>
    let i ← asIndex index (← c.eval index)
    match c.shader.buffer? binding with
    | none =>
      throw (.typeMismatch (.atLine "store" line) ⟨"a declared buffer", "binding " ++ toString binding⟩)
    | some b => return (← c.resolvePath line b.element t.path).map (.buffer binding i ·)

/-- The current value of a target. -/
def load (c : RunContext) (line : Nat) : ResolvedTarget → RunM Value
  | .localVar slot path => do
    typed (.atLine "load" line) (getPath ((← get).locals.getD slot default) path)
  | .buffer binding index path => do
    let v ← onStore (Store.read binding index c.me)
    typed (.atLine "load" line) (getPath v path)

/-- Store a value into a target. -/
def store (c : RunContext) (line : Nat) (t : ResolvedTarget) (v : Value) : RunM Unit :=
  match t with
  | .localVar slot path => do
    let new ← typed (.atLine "store" line) (setPath ((← get).locals.getD slot default) path v)
    modify fun s => { s with locals := s.locals.set slot new }
  | .buffer binding index [] => onStore (Store.write binding index v c.me)
  | .buffer binding index path =>
    onStore (Store.update binding index c.me fun old =>
      (setPath old path v).mapError (.typeMismatch (.atLine "store" line)))

/-- Store one value into several targets, in the order given. -/
def storeAll (c : RunContext) (line : Nat) (v : Value) : List Target → RunM Unit
  | [] => return ()
  | t :: rest => do
    match ← c.resolveTarget line t with
    | some target => c.store line target v
    | none => pure ()
    c.storeAll line v rest

/-! ## Statements -/

/-- The initial value of a local variable. -/
def initial (c : RunContext) (line : Nat) (slot : Nat) (init : Option Expr) : RunM Value := do
  let decl := c.shader.locals.getD slot default
  match init with
  | none => return Value.zero decl.ty
  | some e =>
    let v ← c.eval e
    if v.ty = decl.ty then return v
    else throw (.typeMismatch (.initializer decl.name line) ⟨decl.ty.name, v.ty.name⟩)

/-- `target op= value`. -/
def compound (c : RunContext) (line : Nat) (t : Target) (op : BinaryOp) (value : Expr) :
    RunM Unit := do
  let v ← c.eval value
  match ← c.resolveTarget line t with
  | none => return ()
  | some target =>
    let current ← c.load line target
    let new ← typed (.node ("`" ++ op.symbol ++ "=`") value.pos) (Value.binary op current v)
    c.store line target new

mutual

def exec (c : RunContext) (stmt : Stmt) : RunM Flow := do
  c.step
  match stmt with
  | .declare line slot init =>
    let v ← c.initial line slot init
    modify fun s => { s with locals := s.locals.set slot v }
    return .next
  | .assign line targets value =>
    let v ← c.eval value
    c.storeAll line v targets.reverse
    return .next
  | .compound line target op value =>
    c.compound line target op value
    return .next
  | .imageStore _ binding coord value =>
    let (x, y) ← asCoord coord (← c.eval coord)
    let v ← c.eval value
    onStore (Store.imageStore binding x y v c.me)
    return .next
  | .eval _ e =>
    let _ ← c.eval e
    return .next
  | .branch _ condition accepted =>
    if ← asCondition condition (← c.eval condition) then c.exec accepted else return .next
  | .branchElse _ condition accepted rejected =>
    if ← asCondition condition (← c.eval condition) then c.exec accepted else c.exec rejected
  | .block _ body => c.execAll body
  | .leave _ => return .leave

/-- Statements in turn, until one leaves. -/
def execAll (c : RunContext) : List Stmt → RunM Flow
  | [] => return .next
  | stmt :: rest => do
    match ← c.exec stmt with
    | .leave => return .leave
    | .next => c.execAll rest

end

/-- The state in which an invocation starts. -/
def start (c : RunContext) (store : Store) : RunState :=
  ⟨store, c.shader.locals.map fun l => Value.zero l.ty, 0⟩

/-- Run the invocation to its end: the error that stopped it, if any, and the store it leaves. -/
def run (c : RunContext) (store : Store) : Option EngineError × Store :=
  match c.execAll c.shader.body (c.start store) with
  | .ok _ s => (none, s.store)
  | .error e s => (some e, s.store)

end RunContext

end ComputeShader
