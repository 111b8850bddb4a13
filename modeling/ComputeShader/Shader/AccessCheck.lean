import ComputeShader.Shader.Fault

/-! # Access qualifiers

Checks that a body uses its resources as they are declared: nothing writeonly is read, nothing
readonly is written, and atomics work on readable and writable integers only.
-/

namespace ComputeShader

namespace Shader

def bufferLabel (s : Shader) (binding : Binding) : String :=
  match s.buffer? binding with
  | some b => "buffer `" ++ b.displayName ++ "`"
  | none => "buffer binding " ++ toString binding

/-- Whether a buffer is declared and readable. -/
def canReadBuffer (s : Shader) (binding : Binding) : Bool :=
  (s.buffer? binding).any fun b => b.access.canRead

def canReadImage (s : Shader) (binding : Binding) : Bool :=
  (s.image? binding).any fun i => i.access.canRead

def canWriteImage (s : Shader) (binding : Binding) : Bool :=
  (s.image? binding).any fun i => i.access.canWrite

/-- An atomic needs a readable and writable buffer of single integers. -/
def checkAtomic (s : Shader) (pos : Position) (binding : Binding) : Except SourceError Unit :=
  match s.buffer? binding with
  | none => .error ⟨pos, .bufferMissing binding⟩
  | some b =>
    if b.access ≠ .readWrite then .error ⟨pos, .atomicAccess b.displayName⟩
    else match b.element with
      | .scalar .int | .scalar .uint => .ok ()
      | element => .error ⟨pos, .atomicElement b.displayName element⟩

/-- An image atomic needs a readable and writable image of single integers. -/
def checkImageAtomic (s : Shader) (pos : Position) (binding : Binding) :
    Except SourceError Unit :=
  match s.image? binding with
  | none => .error ⟨pos, .imageMissing binding⟩
  | some i =>
    if i.format.supportsAtomics ∧ i.access = .readWrite then .ok ()
    else .error ⟨pos, .imageAtomic i.name i.format⟩

mutual

def checkExpr (s : Shader) : Expr → Except SourceError Unit
  | .literal _ _ | .localVar _ _ | .builtin _ _ | .uniform _ _ | .bufferLength _ _
  | .imageSize _ _ => .ok ()
  | .uniformElement _ _ index => s.checkExpr index
  | .bufferElement pos binding index =>
    if s.canReadBuffer binding then s.checkExpr index
    else .error ⟨pos, .bufferWriteonly (s.bufferLabel binding)⟩
  | .subscript _ base index => do
    s.checkExpr base
    s.checkExpr index
  | .swizzle _ base _ => s.checkExpr base
  | .construct _ _ args => s.checkExprs args
  | .unary _ _ operand => s.checkExpr operand
  | .binary _ _ left right => do
    s.checkExpr left
    s.checkExpr right
  | .logical _ _ left right => do
    s.checkExpr left
    s.checkExpr right
  | .ternary _ condition accepted rejected => do
    s.checkExpr condition
    s.checkExpr accepted
    s.checkExpr rejected
  | .atomic pos _ binding index args => do
    s.checkAtomic pos binding
    s.checkExpr index
    s.checkExprs args
  | .imageLoad pos binding coord =>
    if s.canReadImage binding then s.checkExpr coord
    else .error ⟨pos, .imageWriteonly binding⟩
  | .imageAtomicAdd pos binding coord value => do
    s.checkImageAtomic pos binding
    s.checkExpr coord
    s.checkExpr value
  | .texture _ _ coord => s.checkExpr coord
  | .textureBiased _ _ coord bias => do
    s.checkExpr coord
    s.checkExpr bias
  | .math _ _ args => s.checkExprs args

def checkExprs (s : Shader) : List Expr → Except SourceError Unit
  | [] => .ok ()
  | e :: rest => do
    s.checkExpr e
    s.checkExprs rest

end

def checkPath (s : Shader) : List Projection → Except SourceError Unit
  | [] => .ok ()
  | .subscript index :: rest => do
    s.checkExpr index
    s.checkPath rest
  | .swizzle _ :: rest => s.checkPath rest

/-- A target must be writable, and readable as well if its old value is needed. -/
def checkTarget (s : Shader) (isCompound : Bool) (t : Target) : Except SourceError Unit := do
  s.checkPath t.path
  match t.place with
  | .localVar _ => .ok ()
  | .bufferElement binding index =>
    let access := ((s.buffer? binding).map BufferDecl.access).getD .readWrite
    if !access.canWrite then .error ⟨index.pos, .bufferReadonly (s.bufferLabel binding)⟩
    else if isCompound ∧ !access.canRead then
      .error ⟨index.pos, .bufferWriteonly (s.bufferLabel binding)⟩
    else s.checkExpr index

mutual

def checkStmt (s : Shader) : Stmt → Except SourceError Unit
  | .declare _ _ none => .ok ()
  | .declare _ _ (some init) => s.checkExpr init
  | .assign _ targets value => do
    targets.forM (s.checkTarget false)
    s.checkExpr value
  | .compound _ target _ value => do
    s.checkTarget true target
    s.checkExpr value
  | .imageStore _ binding coord value =>
    if s.canWriteImage binding then do
      s.checkExpr coord
      s.checkExpr value
    else .error ⟨coord.pos, .imageReadonly binding⟩
  | .eval _ e => s.checkExpr e
  | .branch _ condition accepted => do
    s.checkExpr condition
    s.checkStmt accepted
  | .branchElse _ condition accepted rejected => do
    s.checkExpr condition
    s.checkStmt accepted
    s.checkStmt rejected
  | .block _ body => s.checkStmts body
  | .leave _ => .ok ()

def checkStmts (s : Shader) : List Stmt → Except SourceError Unit
  | [] => .ok ()
  | stmt :: rest => do
    s.checkStmt stmt
    s.checkStmts rest

end

end Shader

end ComputeShader
