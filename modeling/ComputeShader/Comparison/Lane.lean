import ComputeShader.Numeric.Double
import ComputeShader.Value.Type

/-! # Comparing lanes

A lane is one 32-bit word of a buffer element or one channel of a texel. Lanes of equal patterns
agree. Floats also agree when they lie no further apart than a tolerance; nothing agrees with a NaN
of another pattern.
-/

namespace ComputeShader

/-- How the pattern of a lane is read. -/
inductive LaneKind where
  | float
  | unsigned
  | signed
  deriving DecidableEq, Repr, Inhabited

/-- The size of a difference, unless it is no number. -/
abbrev Magnitude := Option Double

namespace LaneKind

/-- The lanes of values of a kind; booleans are compared as numbers. -/
def ofScalarKind : ScalarKind → LaneKind
  | .float => float
  | .int => signed
  | .uint | .bool => unsigned

def name : LaneKind → String
  | float => "F32"
  | unsigned => "U32"
  | signed => "I32"

def isFloat : LaneKind → Bool
  | float => true
  | unsigned | signed => false

/-- The number that a lane holds. -/
def value (k : LaneKind) (w : UInt32) : Double :=
  match k with
  | float => Double.ofSingle ⟨w⟩
  | unsigned => Double.ofInt w.toNat
  | signed => Double.ofInt w.toInt32.toInt

/-- The number that a lane holds, floats with nine decimals. -/
def text (k : LaneKind) (w : UInt32) : String :=
  match k with
  | float => (Single.mk w).fixedText 9
  | unsigned => toString w
  | signed => toString w.toInt32.toInt

/-- The absolute difference of two lanes. -/
def distance (k : LaneKind) (a b : UInt32) : Double := ((k.value a).sub (k.value b)).abs

/-- Whether two lanes agree. Without a tolerance floats agree only if their difference is zero. -/
def agree (k : LaneKind) (epsilon : Option Single) (a b : UInt32) : Bool :=
  a == b ||
    (k.isFloat && (k.distance a b).le (Double.ofSingle (epsilon.getD Single.zero)))

end LaneKind

/-- Two lanes that do not agree. -/
structure LaneDiff where
  lane : Nat
  expected : UInt32
  observed : UInt32
  deriving DecidableEq, Repr, Inhabited

namespace LaneDiff

/-- The absolute difference. -/
def absolute (d : LaneDiff) (k : LaneKind) : Magnitude :=
  let x := k.distance d.expected d.observed
  if x.isNaN then none else some x

/-- Numbers up to this one are too small to relate a difference to. -/
def relativeFloor : Double := Double.ofNumeral false ⟨1, -10⟩

/-- The difference in relation to the larger of the two numbers. -/
def relative (d : LaneDiff) (k : LaneKind) : Magnitude :=
  let larger := (k.value d.expected).abs.max (k.value d.observed).abs
  match d.absolute k with
  | some x => if relativeFloor.lt larger then some (x.div larger) else none
  | none => none

end LaneDiff

/-- The lanes that do not agree, up to the end of the shorter list. -/
def diffLanes (k : LaneKind) (epsilon : Option Single) (expected observed : List UInt32) :
    List LaneDiff :=
  (expected.zip observed).zipIdx.filterMap fun ((e, o), lane) =>
    if k.agree epsilon e o then none else some ⟨lane, e, o⟩

end ComputeShader
