/-! # Value types

The closed set of types a shader value can have: the four scalar kinds, their vectors of two to
four components, and the 3×3 float matrix. `ValueType.ofName?` reads exactly the names that
`ValueType.name` writes, and `mat3x3` as a second spelling of `mat3`.
-/

namespace ComputeShader

/-- The kind of a single component. -/
inductive ScalarKind where
  | bool
  | int
  | uint
  | float
  deriving DecidableEq, Repr, Inhabited

namespace ScalarKind

def name : ScalarKind → String
  | bool => "bool"
  | int => "int"
  | uint => "uint"
  | float => "float"

/-- The letter in front of `vec`. -/
def vectorLetter : ScalarKind → String
  | bool => "b"
  | int => "i"
  | uint => "u"
  | float => ""

/-- Indices, shifts and atomics take integers. -/
def isInteger : ScalarKind → Bool
  | int | uint => true
  | bool | float => false

end ScalarKind

/-- The number of components of a vector. -/
inductive VectorSize where
  | two
  | three
  | four
  deriving DecidableEq, Repr, Inhabited

def VectorSize.toNat : VectorSize → Nat
  | two => 2
  | three => 3
  | four => 4

theorem VectorSize.toNat_le_four (size : VectorSize) : size.toNat ≤ 4 := by
  cases size <;> decide

/-- The type of a value. -/
inductive ValueType where
  | scalar (kind : ScalarKind)
  | vector (kind : ScalarKind) (size : VectorSize)
  | mat3
  deriving DecidableEq, Repr, Inhabited

namespace ValueType

/-- The name of a vector type with `count` components. -/
def vectorName (kind : ScalarKind) (count : Nat) : String :=
  kind.vectorLetter ++ "vec" ++ toString count

def name : ValueType → String
  | scalar kind => kind.name
  | vector kind size => vectorName kind size.toNat
  | mat3 => "mat3"

/-- The type of `count` components of one kind; a single one is a scalar. -/
def ofCount? (kind : ScalarKind) : Nat → Option ValueType
  | 1 => some (scalar kind)
  | 2 => some (vector kind .two)
  | 3 => some (vector kind .three)
  | 4 => some (vector kind .four)
  | _ => none

def kind : ValueType → ScalarKind
  | scalar kind => kind
  | vector kind _ => kind
  | mat3 => .float

/-- The number of scalar components; a matrix has nine, column by column. -/
def components : ValueType → Nat
  | scalar _ => 1
  | vector _ size => size.toNat
  | mat3 => 9

/-- The number of words a value occupies. Every vector fills a register of four. -/
def wordCount : ValueType → Nat
  | scalar _ => 1
  | vector _ _ => 4
  | mat3 => 9

/-- The type of `v[i]` and the number of valid `i`. Scalars have no elements. -/
def element? : ValueType → Option (ValueType × Nat)
  | scalar _ => none
  | vector kind size => some (scalar kind, size.toNat)
  | mat3 => some (vector .float .three, 3)

def kinds : List ScalarKind := [.bool, .int, .uint, .float]

/-- Every type. -/
def all : List ValueType :=
  kinds.map scalar ++ kinds.flatMap (fun k => [.two, .three, .four].map (vector k)) ++ [mat3]

/-- The type with a given name. -/
def ofName? (name : String) : Option ValueType :=
  if name = "mat3x3" then some mat3 else all.find? (fun ty => ty.name = name)

theorem components_le_wordCount (ty : ValueType) : ty.components ≤ ty.wordCount := by
  cases ty with
  | scalar => exact Nat.le_refl 1
  | vector _ size => exact VectorSize.toNat_le_four size
  | mat3 => exact Nat.le_refl 9

theorem components_pos (ty : ValueType) : 0 < ty.components := by
  cases ty with
  | scalar => exact Nat.one_pos
  | vector _ size => cases size <;> exact Nat.succ_pos _
  | mat3 => exact Nat.succ_pos _

end ValueType

end ComputeShader
