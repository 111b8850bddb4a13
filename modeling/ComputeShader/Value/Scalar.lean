import ComputeShader.Numeric.Single
import ComputeShader.Value.Type

/-! # Scalars

One component of a value. Every scalar has a 32-bit pattern (`toBits`); a Boolean reads any
non-zero pattern as true and writes true as one.
-/

namespace ComputeShader

/-- One component of a value. -/
inductive Scalar where
  | bool (b : Bool)
  | int (i : Int32)
  | uint (u : UInt32)
  | float (x : Single)
  deriving DecidableEq, Repr, Inhabited

namespace Scalar

def kind : Scalar → ScalarKind
  | bool _ => .bool
  | int _ => .int
  | uint _ => .uint
  | float _ => .float

def toBits : Scalar → UInt32
  | bool b => if b then 1 else 0
  | int i => i.toUInt32
  | uint u => u
  | float x => x.bits

def ofBits (kind : ScalarKind) (bits : UInt32) : Scalar :=
  match kind with
  | .bool => bool (bits != 0)
  | .int => int bits.toInt32
  | .uint => uint bits
  | .float => float ⟨bits⟩

/-- The scalar zero (or false) of a kind. -/
def zero (kind : ScalarKind) : Scalar := ofBits kind 0

/-- The scalar one (or true) of a kind. -/
def one : ScalarKind → Scalar
  | .bool => bool true
  | .int => int 1
  | .uint => uint 1
  | .float => float Single.one

@[simp] theorem kind_ofBits (kind : ScalarKind) (bits : UInt32) : (ofBits kind bits).kind = kind := by
  cases kind <;> rfl

@[simp] theorem ofBits_toBits (s : Scalar) : ofBits s.kind s.toBits = s := by
  cases s with
  | bool b => cases b <;> decide
  | int i => simp [kind, toBits, ofBits]
  | uint => rfl
  | float => rfl

/-- Reading what was written gives the pattern back. -/
theorem toBits_ofBits_toBits (kind : ScalarKind) (bits : UInt32) :
    (ofBits kind (ofBits kind bits).toBits).toBits = (ofBits kind bits).toBits := by
  have same := ofBits_toBits (ofBits kind bits)
  rw [kind_ofBits] at same
  rw [same]

/-- The conversion of constructor syntax (`int(x)`, `float(x)`, …). Integers change sign by
reinterpretation, floats are truncated towards zero and saturate, and a NaN converts to zero. -/
def convert (s : Scalar) (target : ScalarKind) : Scalar :=
  match s, target with
  | bool b, k => if b then one k else zero k
  | int i, .bool => bool (i != 0)
  | int i, .int => int i
  | int i, .uint => uint i.toUInt32
  | int i, .float => float (Single.ofInt i.toInt)
  | uint u, .bool => bool (u != 0)
  | uint u, .int => int u.toInt32
  | uint u, .uint => uint u
  | uint u, .float => float (Single.ofInt u.toNat)
  | float x, .bool => bool (!x.eq Single.zero)
  | float x, .int => int (Int32.ofInt (x.toIntSaturating (-2147483648) 2147483647))
  | float x, .uint => uint (UInt32.ofNat (x.toIntSaturating 0 4294967295).toNat)
  | float x, .float => float x

/-- The value of an integer scalar used as an index. -/
def asIndex? : Scalar → Option Int
  | int i => some i.toInt
  | uint u => some u.toNat
  | bool _ | float _ => none

/-- Equality as the shading language compares: by number for floats, by pattern otherwise. -/
def eq : Scalar → Scalar → Bool
  | float x, float y => x.eq y
  | a, b => a == b

/-- The order of two numbers of one kind. Nothing is known of a NaN or of unlike kinds. -/
def compare? : Scalar → Scalar → Option Ordering
  | int x, int y => some (compare x.toInt y.toInt)
  | uint x, uint y => some (compare x.toNat y.toNat)
  | float x, float y =>
    if x.lt y then some .lt else if y.lt x then some .gt else if x.eq y then some .eq else none
  | _, _ => none

def text : Scalar → String
  | bool b => if b then "true" else "false"
  | int i => toString i.toInt
  | uint u => toString u.toNat ++ "u"
  | float x => x.text

end Scalar

end ComputeShader
