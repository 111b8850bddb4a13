import ComputeShader.Shader.Model

/-! # Outlines of syntax trees

One line per statement: every node with its place, its name and its parts in order.
-/

namespace ComputeShader

namespace Builtin

/-- The name of a variable in an outline. -/
def outline : Builtin → String
  | localInvocationId => "LocalInvocationId"
  | globalInvocationId => "GlobalInvocationId"
  | localInvocationIndex => "LocalInvocationIndex"
  | workGroupId => "WorkGroupId"
  | numWorkGroups => "NumWorkGroups"
  | workGroupSize => "WorkGroupSize"

end Builtin

def LogicalOp.symbol : LogicalOp → String
  | and => "&&"
  | or => "||"

/-- The name of a component-wise function in an outline. -/
def MathFn.outline : MathFn → String
  | min => "Min"
  | max => "Max"
  | abs => "Abs"
  | clamp => "Clamp"

/-- `PLACE(PARTS)`. -/
def outlineNode (pos : Position) (parts : List String) : String :=
  toString pos.line ++ ":" ++ toString pos.column ++ "(" ++ " ".intercalate parts ++ ")"

/-- The lanes of a swizzle as digits. -/
def outlineSelection (selection : List Nat) : String :=
  String.join (selection.map toString)

namespace Expr

mutual

def outline : Expr → String
  | literal pos v => outlineNode pos ["lit", v.text]
  | localVar pos slot => outlineNode pos ["local", toString slot]
  | builtin pos b => outlineNode pos ["builtin", b.outline]
  | uniform pos slot => outlineNode pos ["uniform", toString slot]
  | uniformElement pos slot index => outlineNode pos ["uniform", toString slot, index.outline]
  | bufferElement pos binding index => outlineNode pos ["buffer", toString binding, index.outline]
  | bufferLength pos binding => outlineNode pos ["length", toString binding]
  | subscript pos base index => outlineNode pos ["index", base.outline, index.outline]
  | swizzle pos base selection => outlineNode pos ["swizzle", base.outline, outlineSelection selection]
  | construct pos ty args => outlineNode pos ("new" :: ty.name :: outlines args)
  | unary pos op operand => outlineNode pos [op.symbol, operand.outline]
  | binary pos op left right => outlineNode pos [op.symbol, left.outline, right.outline]
  | logical pos op left right => outlineNode pos [op.symbol, left.outline, right.outline]
  | ternary pos condition accepted rejected =>
    outlineNode pos ["?", condition.outline, accepted.outline, rejected.outline]
  | atomic pos op binding index args =>
    outlineNode pos (op.name :: toString binding :: index.outline :: outlines args)
  | imageLoad pos binding coord => outlineNode pos ["imageLoad", toString binding, coord.outline]
  | imageAtomicAdd pos binding coord value =>
    outlineNode pos ["imageAtomicAdd", toString binding, coord.outline, value.outline]
  | imageSize pos binding => outlineNode pos ["imageSize", toString binding]
  | texture pos binding coord => outlineNode pos ["texture", toString binding, coord.outline]
  | textureBiased pos binding coord bias =>
    outlineNode pos ["texture", toString binding, coord.outline, bias.outline]
  | math pos f args => outlineNode pos (f.outline :: outlines args)

def outlines : List Expr → List String
  | [] => []
  | e :: rest => e.outline :: outlines rest

end

end Expr

def Projection.outline : Projection → String
  | subscript index => "[" ++ index.outline ++ "]"
  | swizzle selection => "." ++ outlineSelection selection

def Target.outline (t : Target) : String :=
  let place := match t.place with
    | .localVar slot => ["local", toString slot]
    | .bufferElement binding index => ["buffer", toString binding, index.outline]
  "<" ++ " ".intercalate (place ++ t.path.map Projection.outline) ++ ">"

/-- `LINE{PARTS}`. -/
def outlineStmt (line : Nat) (parts : List String) : String :=
  toString line ++ "\x7b" ++ " ".intercalate parts ++ "\x7d"

namespace Stmt

mutual

def outline : Stmt → String
  | declare line slot init =>
    outlineStmt line ("declare" :: toString slot :: init.toList.map Expr.outline)
  | assign line targets value =>
    outlineStmt line ("=" :: targets.map Target.outline ++ [value.outline])
  | compound line target op value =>
    outlineStmt line [op.symbol ++ "=", target.outline, value.outline]
  | imageStore line binding coord value =>
    outlineStmt line ["imageStore", toString binding, coord.outline, value.outline]
  | eval line e => outlineStmt line ["expr", e.outline]
  | branch line condition accepted =>
    outlineStmt line ["if", condition.outline, accepted.outline]
  | branchElse line condition accepted rejected =>
    outlineStmt line ["if", condition.outline, accepted.outline, rejected.outline]
  | block line body => outlineStmt line ("block" :: outlines body)
  | leave line => outlineStmt line ["return"]

def outlines : List Stmt → List String
  | [] => []
  | s :: rest => s.outline :: outlines rest

end

end Stmt

end ComputeShader
