import ComputeShader.Value.Basic

/-! # Operators

The unary and binary operators, the constructors and the component-wise built-in functions of the
shading language. There are no implicit conversions: operands that do not agree are a `TypeError`.
Integer arithmetic wraps; dividing an integer by zero, or taking the remainder, gives zero.
-/

namespace ComputeShader

inductive UnaryOp where
  | neg
  | not
  | bitNot
  deriving DecidableEq, Repr, Inhabited

inductive BinaryOp where
  | add
  | sub
  | mul
  | div
  | mod
  | bitAnd
  | bitOr
  | bitXor
  | shl
  | shr
  | eq
  | ne
  | lt
  | le
  | gt
  | ge
  deriving DecidableEq, Repr, Inhabited

/-- The built-in functions that work component by component. -/
inductive MathFn where
  | min
  | max
  | abs
  | clamp
  deriving DecidableEq, Repr, Inhabited

def UnaryOp.symbol : UnaryOp → String
  | neg => "-"
  | not => "!"
  | bitNot => "~"

def UnaryOp.all : List UnaryOp := [neg, not, bitNot]

def BinaryOp.symbol : BinaryOp → String
  | add => "+"
  | sub => "-"
  | mul => "*"
  | div => "/"
  | mod => "%"
  | bitAnd => "&"
  | bitOr => "|"
  | bitXor => "^"
  | shl => "<<"
  | shr => ">>"
  | eq => "=="
  | ne => "!="
  | lt => "<"
  | le => "<="
  | gt => ">"
  | ge => ">="

def BinaryOp.all : List BinaryOp :=
  [add, sub, mul, div, mod, bitAnd, bitOr, bitXor, shl, shr, eq, ne, lt, le, gt, ge]

def MathFn.name : MathFn → String
  | min => "min"
  | max => "max"
  | abs => "abs"
  | clamp => "clamp"

def MathFn.all : List MathFn := [min, max, abs, clamp]

def MathFn.ofName? (name : String) : Option MathFn :=
  all.find? (fun f => f.name = name)

def MathFn.arity : MathFn → Nat
  | abs => 1
  | min | max => 2
  | clamp => 3

/-! ## One component -/

namespace Scalar

def negate? : Scalar → Option Scalar
  | int i => some (int (-i))
  | uint u => some (uint (0 - u))
  | float x => some (float x.neg)
  | bool _ => none

def complement? : Scalar → Option Scalar
  | int i => some (int (~~~i))
  | uint u => some (uint (~~~u))
  | bool _ | float _ => none

def abs? : Scalar → Option Scalar
  | int i => some (int (if i < 0 then -i else i))
  | float x => some (float x.abs)
  | bool _ | uint _ => none

/-- Arithmetic on two scalars of one kind, where the operator is defined on it. -/
def arith? (op : BinaryOp) : Scalar → Scalar → Option Scalar
  | int x, int y => int <$> match op with
    | .add => some (x + y)
    | .sub => some (x - y)
    | .mul => some (x * y)
    | .div => some (x / y)
    | .mod => some (if y = 0 then 0 else x % y)
    | .bitAnd => some (x &&& y)
    | .bitOr => some (x ||| y)
    | .bitXor => some (x ^^^ y)
    | _ => none
  | uint x, uint y => uint <$> match op with
    | .add => some (x + y)
    | .sub => some (x - y)
    | .mul => some (x * y)
    | .div => some (x / y)
    | .mod => some (if y = 0 then 0 else x % y)
    | .bitAnd => some (x &&& y)
    | .bitOr => some (x ||| y)
    | .bitXor => some (x ^^^ y)
    | _ => none
  | float x, float y => float <$> match op with
    | .add => some (x.add y)
    | .sub => some (x.sub y)
    | .mul => some (x.mul y)
    | .div => some (x.div y)
    | _ => none
  | _, _ => none

/-- A shift by the low five bits of `amount`; right shifts of `int` repeat the sign. -/
def shift (left : Bool) (amount : UInt32) : Scalar → Scalar
  | int x =>
    let n := (amount &&& 31).toInt32
    int (if left then x <<< n else x >>> n)
  | uint x => uint (if left then x <<< (amount &&& 31) else x >>> (amount &&& 31))
  | other => other

/-- The smaller of two scalars, the first one if neither is. -/
def min (a b : Scalar) : Scalar :=
  if a.compare? b = some .gt then b else a

/-- The larger of two scalars, the first one if neither is. -/
def max (a b : Scalar) : Scalar :=
  if a.compare? b = some .lt then b else a

end Scalar

namespace Value

private def typePair (a b : Value) : String :=
  a.ty.name ++ " and " ++ b.ty.name

/-- The component at a position, a scalar serving every position. -/
def pick (v : Value) (i : Nat) : Scalar :=
  if v.ty.components = 1 then v.lane 0 else v.lane i

/-! ## Constructors -/

/-- The matrix with `d` on the diagonal. -/
def diagonal (d : Single) : Value :=
  ofBits .mat3 [d.bits, 0, 0, 0, d.bits, 0, 0, 0, d.bits]

/-- Gather the components of all arguments. Vectors may leave components of the last argument
unused; no argument may be unused as a whole. -/
def gather (ty : ValueType) (args : List Value) : Except TypeError Value :=
  match args.getLast? with
  | none => .error ⟨"arguments for " ++ ty.name, "none"⟩
  | some last =>
    let components := args.flatMap Value.components
    let needed := ty.components
    let surplusAllowed : Bool := match ty with
      | .vector _ _ => true
      | _ => false
    if components.length < needed ∨ needed ≤ components.length - last.ty.components ∨
        (!surplusAllowed ∧ components.length ≠ needed) then
      .error ⟨toString needed ++ " components for " ++ ty.name,
        toString components.length ++ " components"⟩
    else .ok (ofComponents ty ((components.take needed).map (·.convert ty.kind)))

/-- Constructor syntax `T(args…)`. A lone scalar is repeated over a vector and put on the diagonal
of a matrix, a scalar is made from the first component of a lone argument. -/
def construct (ty : ValueType) (args : List Value) : Except TypeError Value :=
  match args with
  | [arg] =>
    match ty, arg.asScalar? with
    | .mat3, some s => .ok (diagonal ⟨(s.convert .float).toBits⟩)
    | .mat3, none => if arg.ty = .mat3 then .ok arg else gather ty args
    | .vector kind size, some s => .ok (ofComponents ty (List.replicate size.toNat (s.convert kind)))
    | .scalar kind, _ => .ok (ofScalar ((arg.lane 0).convert kind))
    | _, _ => gather ty args
  | _ => gather ty args

/-! ## Unary operators -/

/-- `-` and `~` work on every component; `!` takes a single Boolean. -/
def unary (op : UnaryOp) (v : Value) : Except TypeError Value :=
  let component (s : Scalar) : Option Scalar :=
    match op, s with
    | .neg, s => s.negate?
    | .bitNot, s => s.complement?
    | .not, .bool b => if v.ty.components = 1 then some (.bool !b) else none
    | .not, _ => none
  match v.components.mapM component with
  | some out => .ok (ofComponents v.ty out)
  | none => .error ⟨"an operand of `" ++ op.symbol ++ "`", v.ty.name⟩

/-! ## Binary operators -/

/-- The orders `<`, `<=`, `>` and `>=` on two scalars of one numeric kind. -/
def order (op : BinaryOp) (a b : Value) : Except TypeError Value :=
  let mismatch := TypeError.mk "two int, uint or float scalars" (typePair a b)
  match a.asScalar?, b.asScalar? with
  | some x, some y =>
    if x.kind = y.kind ∧ x.kind ≠ .bool then
      let holds := match x.compare? y with
        | none => false
        | some o => match op with
          | .lt => o.isLT
          | .le => o.isLE
          | .gt => o.isGT
          | _ => o.isGE
      .ok (bool holds)
    else .error mismatch
  | _, _ => .error mismatch

/-- The type of a component-wise result: that of both operands, or that of the larger one if the
other is a scalar of its kind. -/
def joinType? (a b : ValueType) : Option ValueType :=
  if a = b then some a
  else match a, b with
    | .scalar kind, other => if other.kind = kind then some other else none
    | other, .scalar kind => if other.kind = kind then some other else none
    | _, _ => none

/-- Apply an arithmetic operator component by component, a scalar operand serving all. -/
def componentwise (op : BinaryOp) (a b : Value) : Except TypeError Value :=
  match joinType? a.ty b.ty with
  | none => .error ⟨"matching operands of `" ++ op.symbol ++ "`", typePair a b⟩
  | some ty =>
    match (List.range ty.components).mapM fun i => Scalar.arith? op (a.pick i) (b.pick i) with
    | some out => .ok (ofComponents ty out)
    | none => .error ⟨"operands supported by `" ++ op.symbol ++ "`", typePair a b⟩

/-- Shift every component, by one amount or by the amount at its position. -/
def shift (op : BinaryOp) (a b : Value) : Except TypeError Value :=
  let shapesAgree := b.ty.components = 1 ∨ b.ty.components = a.ty.components
  if a.kind.isInteger ∧ b.kind.isInteger ∧ shapesAgree then
    .ok (ofComponents a.ty ((List.range a.ty.components).map fun i =>
      (a.lane i).shift (op = .shl) (b.pick i).toBits))
  else .error ⟨"integer operands of `" ++ op.symbol ++ "`", typePair a b⟩

/-- Row `r` of the product of a matrix and a column, summed from the left. -/
def rowTimes (m : Value) (column : Nat → Single) (r : Nat) : Single :=
  (((m.float r).mul (column 0)).add ((m.float (3 + r)).mul (column 1))).add
    ((m.float (6 + r)).mul (column 2))

def transpose (m : Value) : Value :=
  ofBits .mat3 ([0, 3, 6, 1, 4, 7, 2, 5, 8].map fun i => m.words.getD i 0)

def matrixTimesVector (m v : Value) : Value :=
  vec3 (rowTimes m v.float 0) (rowTimes m v.float 1) (rowTimes m v.float 2)

def matrixTimesMatrix (a b : Value) : Value :=
  ofBits .mat3 ((List.range 9).map fun i =>
    (rowTimes a (fun k => b.float (3 * (i / 3) + k)) (i % 3)).bits)

/-- `*`, which is the linear product where a matrix meets a matrix or a `vec3`; a vector on the
left is multiplied by the transpose. -/
def product (a b : Value) : Except TypeError Value :=
  if a.ty = .mat3 ∧ b.ty = .mat3 then .ok (matrixTimesMatrix a b)
  else if a.ty = .mat3 ∧ b.ty = .vector .float .three then .ok (matrixTimesVector a b)
  else if a.ty = .vector .float .three ∧ b.ty = .mat3 then .ok (matrixTimesVector (transpose b) a)
  else componentwise .mul a b

def binary (op : BinaryOp) (a b : Value) : Except TypeError Value :=
  match op with
  | .eq => if a.ty = b.ty then .ok (bool (a.eq b)) else .error ⟨a.ty.name, b.ty.name⟩
  | .ne => if a.ty = b.ty then .ok (bool !(a.eq b)) else .error ⟨a.ty.name, b.ty.name⟩
  | .lt | .le | .gt | .ge => order op a b
  | .shl | .shr => shift op a b
  | .mul => product a b
  | _ => componentwise op a b

/-! ## Built-in functions -/

/-- Choose between two values component by component; the second may be a scalar of the first
one's kind. -/
def extremum (choose : Scalar → Scalar → Scalar) (a b : Value) : Except TypeError Value :=
  if a.ty ≠ .mat3 ∧ a.kind ≠ .bool ∧ (b.ty = a.ty ∨ b.ty = .scalar a.kind) then
    .ok (ofComponents a.ty ((List.range a.ty.components).map fun i => choose (a.lane i) (b.pick i)))
  else .error ⟨"int, uint or float operands of matching shape", typePair a b⟩

/-- The absolute value of every component. -/
def abs (v : Value) : Except TypeError Value :=
  let mismatch := TypeError.mk "an int or float operand of `abs`" v.ty.name
  if v.ty = .mat3 then .error mismatch
  else match v.components.mapM Scalar.abs? with
    | some out => .ok (ofComponents v.ty out)
    | none => .error mismatch

def math (f : MathFn) (args : List Value) : Except TypeError Value :=
  match f, args with
  | .abs, [v] => v.abs
  | .min, [a, b] => extremum Scalar.min a b
  | .max, [a, b] => extremum Scalar.max a b
  | .clamp, [v, lo, hi] => do extremum Scalar.min (← extremum Scalar.max v lo) hi
  | _, _ => .error ⟨toString f.arity ++ " arguments", toString args.length ++ " arguments"⟩

end Value

end ComputeShader
