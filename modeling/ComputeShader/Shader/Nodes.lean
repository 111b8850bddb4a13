import ComputeShader.Shader.Model

/-! # Nodes of a body

Every expression and every assignment target of a body, however deep, and what they say about the
buffers that the body uses.
-/

namespace ComputeShader

namespace Expr

mutual

/-- An expression and every expression in it. -/
def nodes : Expr → List Expr
  | literal pos v => [literal pos v]
  | localVar pos slot => [localVar pos slot]
  | builtin pos b => [builtin pos b]
  | uniform pos slot => [uniform pos slot]
  | uniformElement pos slot index => uniformElement pos slot index :: index.nodes
  | bufferElement pos binding index => bufferElement pos binding index :: index.nodes
  | bufferLength pos binding => [bufferLength pos binding]
  | subscript pos base index => subscript pos base index :: (base.nodes ++ index.nodes)
  | swizzle pos base selection => swizzle pos base selection :: base.nodes
  | construct pos ty args => construct pos ty args :: nodesOf args
  | unary pos op operand => unary pos op operand :: operand.nodes
  | binary pos op left right => binary pos op left right :: (left.nodes ++ right.nodes)
  | logical pos op left right => logical pos op left right :: (left.nodes ++ right.nodes)
  | ternary pos condition accepted rejected =>
    ternary pos condition accepted rejected ::
      (condition.nodes ++ (accepted.nodes ++ rejected.nodes))
  | atomic pos op binding index args =>
    atomic pos op binding index args :: (index.nodes ++ nodesOf args)
  | imageLoad pos binding coord => imageLoad pos binding coord :: coord.nodes
  | imageAtomicAdd pos binding coord value =>
    imageAtomicAdd pos binding coord value :: (coord.nodes ++ value.nodes)
  | imageSize pos binding => [imageSize pos binding]
  | texture pos binding coord => texture pos binding coord :: coord.nodes
  | textureBiased pos binding coord bias =>
    textureBiased pos binding coord bias :: (coord.nodes ++ bias.nodes)
  | math pos f args => math pos f args :: nodesOf args

def nodesOf : List Expr → List Expr
  | [] => []
  | e :: rest => e.nodes ++ nodesOf rest

end

def isAtomic : Expr → Bool
  | atomic .. | imageAtomicAdd .. => true
  | _ => false

/-- Whether the value of this node is an element of a buffer. -/
def isElementOf (binding : Binding) : Expr → Bool
  | bufferElement _ b _ => b == binding
  | _ => false

end Expr

def Projection.nodes : Projection → List Expr
  | subscript index => index.nodes
  | swizzle _ => []

namespace Target

def nodes (t : Target) : List Expr :=
  match t.place with
  | .localVar _ => t.path.flatMap Projection.nodes
  | .bufferElement _ index => index.nodes ++ t.path.flatMap Projection.nodes

/-- Whether a target is an element of a buffer or a part of one. -/
def isIn (binding : Binding) (t : Target) : Bool :=
  match t.place with
  | .localVar _ => false
  | .bufferElement b _ => b == binding

/-- Whether a target is a part of an element of a buffer. -/
def isPart (t : Target) : Bool :=
  match t.place with
  | .localVar _ => false
  | .bufferElement .. => !t.path.isEmpty

end Target

namespace Stmt

mutual

/-- Every expression in a statement. -/
def nodes : Stmt → List Expr
  | declare _ _ none => []
  | declare _ _ (some init) => init.nodes
  | assign _ targets value => value.nodes ++ targets.flatMap Target.nodes
  | compound _ target _ value => value.nodes ++ target.nodes
  | imageStore _ _ coord value => coord.nodes ++ value.nodes
  | eval _ e => e.nodes
  | branch _ condition accepted => condition.nodes ++ accepted.nodes
  | branchElse _ condition accepted rejected =>
    condition.nodes ++ (accepted.nodes ++ rejected.nodes)
  | block _ body => nodesOf body
  | leave _ => []

def nodesOf : List Stmt → List Expr
  | [] => []
  | s :: rest => s.nodes ++ nodesOf rest

end

mutual

/-- Every target that a statement stores into; a compound assignment also loads from it. -/
def targets : Stmt → List (Target × Bool)
  | assign _ targets _ => targets.map (·, false)
  | compound _ target _ _ => [(target, true)]
  | branch _ _ accepted => accepted.targets
  | branchElse _ _ accepted rejected => accepted.targets ++ rejected.targets
  | block _ body => targetsOf body
  | declare .. | imageStore .. | eval .. | leave .. => []

def targetsOf : List Stmt → List (Target × Bool)
  | [] => []
  | s :: rest => s.targets ++ targetsOf rest

end

end Stmt

namespace Shader

/-- Whether the body calls no atomic function. -/
def atomicFree (s : Shader) : Bool := (Stmt.nodesOf s.body).all fun e => !e.isAtomic

/-- Whether the body loads elements of a buffer. -/
def loads (s : Shader) (binding : Binding) : Bool :=
  (Stmt.nodesOf s.body).any (Expr.isElementOf binding) ||
    (Stmt.targetsOf s.body).any fun (t, loaded) => loaded && t.isIn binding

/-- Whether the body stores to parts of elements of a buffer. -/
def storesParts (s : Shader) (binding : Binding) : Bool :=
  (Stmt.targetsOf s.body).any fun (t, _) => t.isIn binding && t.isPart

/-- Whether the body stores to elements of buffers as a whole only. -/
def storesWhole (s : Shader) : Bool := (Stmt.targetsOf s.body).all fun (t, _) => !t.isPart

end Shader

end ComputeShader
