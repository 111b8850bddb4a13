import ComputeShader.Source.Token
import ComputeShader.Value.Operator

/-! # Syntax trees

The body of a shader with every name resolved: buffers, images and samplers are referred to by
binding, uniforms by their position among the declarations and local variables by slot. Expressions
carry the place of their first token, statements their line.
-/

namespace ComputeShader

/-- The variables that tell an invocation where it is in the grid. -/
inductive Builtin where
  | localInvocationId
  | globalInvocationId
  | localInvocationIndex
  | workGroupId
  | numWorkGroups
  | workGroupSize
  deriving DecidableEq, Repr, Inhabited

namespace Builtin

def name : Builtin → String
  | localInvocationId => "gl_LocalInvocationID"
  | globalInvocationId => "gl_GlobalInvocationID"
  | localInvocationIndex => "gl_LocalInvocationIndex"
  | workGroupId => "gl_WorkGroupID"
  | numWorkGroups => "gl_NumWorkGroups"
  | workGroupSize => "gl_WorkGroupSize"

def all : List Builtin :=
  [localInvocationId, globalInvocationId, localInvocationIndex, workGroupId, numWorkGroups,
    workGroupSize]

def ofName? (name : String) : Option Builtin :=
  all.find? (fun b => b.name = name)

end Builtin

/-- Short-circuit operators. -/
inductive LogicalOp where
  | and
  | or
  deriving DecidableEq, Repr, Inhabited

/-- Atomic memory functions. -/
inductive AtomicOp where
  | add
  | min
  | max
  | and
  | or
  | xor
  | exchange
  | compSwap
  deriving DecidableEq, Repr, Inhabited

namespace AtomicOp

def name : AtomicOp → String
  | add => "atomicAdd"
  | min => "atomicMin"
  | max => "atomicMax"
  | and => "atomicAnd"
  | or => "atomicOr"
  | xor => "atomicXor"
  | exchange => "atomicExchange"
  | compSwap => "atomicCompSwap"

def all : List AtomicOp := [add, min, max, and, or, xor, exchange, compSwap]

def ofName? (name : String) : Option AtomicOp :=
  all.find? (fun op => op.name = name)

/-- The number of operands after the memory argument. -/
def operandCount : AtomicOp → Nat
  | compSwap => 2
  | _ => 1

end AtomicOp

/-- A binding point of buffers, images or samplers. -/
abbrev Binding := UInt32

inductive Expr where
  | literal (pos : Position) (value : Value)
  | localVar (pos : Position) (slot : Nat)
  | builtin (pos : Position) (name : Builtin)
  | uniform (pos : Position) (slot : Nat)
  | uniformElement (pos : Position) (slot : Nat) (index : Expr)
  | bufferElement (pos : Position) (binding : Binding) (index : Expr)
  | bufferLength (pos : Position) (binding : Binding)
  | subscript (pos : Position) (base index : Expr)
  | swizzle (pos : Position) (base : Expr) (selection : List Nat)
  | construct (pos : Position) (ty : ValueType) (args : List Expr)
  | unary (pos : Position) (op : UnaryOp) (operand : Expr)
  | binary (pos : Position) (op : BinaryOp) (left right : Expr)
  | logical (pos : Position) (op : LogicalOp) (left right : Expr)
  | ternary (pos : Position) (condition accepted rejected : Expr)
  | atomic (pos : Position) (op : AtomicOp) (binding : Binding) (index : Expr) (args : List Expr)
  | imageLoad (pos : Position) (binding : Binding) (coord : Expr)
  | imageAtomicAdd (pos : Position) (binding : Binding) (coord value : Expr)
  | imageSize (pos : Position) (binding : Binding)
  | texture (pos : Position) (binding : Binding) (coord : Expr)
  | textureBiased (pos : Position) (binding : Binding) (coord bias : Expr)
  | math (pos : Position) (f : MathFn) (args : List Expr)
  deriving Repr, Inhabited

/-- The place of an expression's first token. -/
def Expr.pos : Expr → Position
  | literal pos _ | localVar pos _ | builtin pos _ | uniform pos _ | uniformElement pos _ _
  | bufferElement pos _ _ | bufferLength pos _ | subscript pos _ _ | swizzle pos _ _
  | construct pos _ _ | unary pos _ _ | binary pos _ _ _ | logical pos _ _ _ | ternary pos _ _ _
  | atomic pos _ _ _ _ | imageLoad pos _ _ | imageAtomicAdd pos _ _ _ | imageSize pos _
  | texture pos _ _ | textureBiased pos _ _ _ | math pos _ _ => pos

/-- What an assignment stores into, before any projection. -/
inductive Place where
  | localVar (slot : Nat)
  | bufferElement (binding : Binding) (index : Expr)
  deriving Repr, Inhabited

/-- One step that narrows an assignment to a part of its place. -/
inductive Projection where
  | subscript (index : Expr)
  | swizzle (selection : List Nat)
  deriving Repr, Inhabited

/-- An assignment target such as `Out[i].xy` or `m[1][2]`. -/
structure Target where
  place : Place
  path : List Projection
  deriving Repr, Inhabited

inductive Stmt where
  | declare (line : Nat) (slot : Nat) (init : Option Expr)
  /-- `targets[0] = targets[1] = … = value`. -/
  | assign (line : Nat) (targets : List Target) (value : Expr)
  /-- `target op= value`. -/
  | compound (line : Nat) (target : Target) (op : BinaryOp) (value : Expr)
  | imageStore (line : Nat) (binding : Binding) (coord value : Expr)
  | eval (line : Nat) (e : Expr)
  | branch (line : Nat) (condition : Expr) (accepted : Stmt)
  | branchElse (line : Nat) (condition : Expr) (accepted rejected : Stmt)
  | block (line : Nat) (body : List Stmt)
  | leave (line : Nat)
  deriving Repr, Inhabited

def Stmt.line : Stmt → Nat
  | declare line _ _ | assign line _ _ | compound line _ _ _ | imageStore line _ _ _ | eval line _
  | branch line _ _ | branchElse line _ _ _ | block line _ | leave line => line

end ComputeShader
