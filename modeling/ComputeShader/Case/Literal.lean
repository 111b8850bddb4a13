import ComputeShader.Image.Format
import ComputeShader.Numeric.Double

/-! # Literals

The values that a case writes for buffer elements, texels and uniforms, and what they are as values
of the shading language. A lone scalar stands for a whole vector; integers serve as floats.
-/

namespace ComputeShader

inductive Literal where
  | bool (b : Bool)
  | int (i : Int)
  | float (x : Double)
  | list (items : List Literal)
  deriving Repr, Inhabited

def Literal.description : Literal → String
  | bool b => if b then "`true`" else "`false`"
  | int i => "`" ++ toString i ++ "`"
  | float x => "`" ++ x.text ++ "`"
  | list items => "a list of " ++ toString items.length

def Literal.isList : Literal → Bool
  | list _ => true
  | _ => false

/-- Why a literal is no value of a type. -/
inductive LiteralFault where
  | outOfRange (found : String) (kind : ScalarKind)
  | wrongKind (expected found : String)
  | columnLength (found : Nat)
  | componentCount (ty : ValueType) (found : Nat)
  | texel (e : TypeError)
  deriving DecidableEq, Repr

def LiteralFault.message : LiteralFault → String
  | outOfRange found kind => found ++ " does not fit in " ++ kind.name
  | wrongKind expected found => "expected a " ++ expected ++ " literal, found " ++ found
  | columnLength found => "mat3 columns have 3 rows, found " ++ toString found
  | componentCount ty found =>
    ty.name ++ " has " ++ toString ty.components ++ " components, found " ++ toString found
  | texel e => e.message

namespace Literal

/-- A literal as one component. -/
def toScalar (l : Literal) (kind : ScalarKind) : Except LiteralFault Scalar :=
  match l, kind with
  | bool b, .bool => .ok (.bool b)
  | int i, .int =>
    if -2147483648 ≤ i ∧ i < 2147483648 then .ok (.int (Int32.ofInt i))
    else .error (.outOfRange l.description kind)
  | int i, .uint =>
    if 0 ≤ i ∧ i < 4294967296 then .ok (.uint (UInt32.ofNat i.toNat))
    else .error (.outOfRange l.description kind)
  | int i, .float => .ok (.float (Single.ofInt i))
  | float x, .float => .ok (.float (Single.ofDouble x))
  | l, kind => .error (.wrongKind kind.name l.description)

def toScalars (items : List Literal) (kind : ScalarKind) : Except LiteralFault (List Scalar) :=
  items.mapM fun item => item.toScalar kind

/-- The three components of a matrix column. -/
def toColumn (column : Literal) : Except LiteralFault (List Scalar) :=
  match column with
  | list items =>
    if items.length = 3 then toScalars items .float else .error (.columnLength items.length)
  | _ => .ok []

/-- The components that a literal gives to a value of type `ty`. A matrix is a list of three
columns or of nine components. -/
def toComponents (l : Literal) (ty : ValueType) : Except LiteralFault (List Scalar) :=
  match ty, l with
  | .scalar _, list _ => .error (.wrongKind ty.name l.description)
  | .scalar kind, l => (l.toScalar kind).map ([·])
  | .mat3, list items =>
    if items.length = 3 ∧ items.all isList then
      (items.mapM toColumn).map List.flatten
    else toScalars items .float
  | .mat3, l => .error (.wrongKind "mat3" l.description)
  | .vector kind _, list items => toScalars items kind
  | .vector kind size, l => (l.toScalar kind).map (List.replicate size.toNat)

/-- A literal as a value of type `ty`. -/
def toValue (l : Literal) (ty : ValueType) : Except LiteralFault Value := do
  let components ← l.toComponents ty
  if components.length = ty.components then .ok (Value.ofComponents ty components)
  else .error (.componentCount ty components.length)

/-- A literal as the bytes of a texel, a lone scalar filling every channel. -/
def toTexel (l : Literal) (format : TexelFormat) : Except LiteralFault (List UInt8) := do
  let channels ← match l with
    | list items => toScalars items format.kind
    | l => (l.toScalar format.kind).map (List.replicate format.channels)
  match format.encodeChannels channels with
  | .ok bytes => .ok bytes
  | .error e => .error (.texel e)

end Literal

end ComputeShader
