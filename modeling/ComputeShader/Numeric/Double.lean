import ComputeShader.Numeric.Single

/-! # Double precision

A `Double` is a 64-bit float held as its bit pattern. Descriptors hold their float literals and
comparisons their magnitudes in this type.
-/

namespace ComputeShader

/-- A double-precision float. -/
structure Double where
  bits : UInt64
  deriving DecidableEq, Repr, Inhabited

namespace Double

def datum (x : Double) : BinaryDatum :=
  BinaryFormat.double.decode x.bits.toNat

def ofDatum (d : BinaryDatum) : Double :=
  ⟨UInt64.ofNat (BinaryFormat.double.encode d)⟩

def zero : Double := ⟨0⟩

/-- The nearest double to an integer. -/
def ofInt (i : Int) : Double :=
  ⟨UInt64.ofNat (BinaryFormat.double.ofScaled (i < 0) i.natAbs 0)⟩

/-- The nearest double to a decimal numeral. -/
def ofNumeral (negative : Bool) (n : Numeral) : Double :=
  ⟨UInt64.ofNat (BinaryFormat.double.ofDecimal negative n.digits n.exponent)⟩

/-- Every single is a double; the special values keep their sign. -/
def ofSingle (x : Single) : Double := ofDatum x.datum

def magnitude (x : Double) : UInt64 := x.bits &&& 0x7fffffffffffffff

def isNegative (x : Double) : Bool := x.bits &&& 0x8000000000000000 != 0

def isNaN (x : Double) : Bool := 0x7ff0000000000000 < x.magnitude

def neg (x : Double) : Double := ⟨x.bits ^^^ 0x8000000000000000⟩

def abs (x : Double) : Double := ⟨x.magnitude⟩

/-- An integer whose order on numbers is their order. -/
def rank (x : Double) : Int :=
  if x.isNegative then -x.magnitude.toNat else x.magnitude.toNat

def lt (x y : Double) : Bool :=
  !x.isNaN && !y.isNaN && x.rank < y.rank

def le (x y : Double) : Bool :=
  !x.isNaN && !y.isNaN && x.rank ≤ y.rank

/-- Apply an operation of the float unit. -/
def lift₂ (op : Float → Float → Float) (x y : Double) : Double :=
  ⟨(op (Float.ofBits x.bits) (Float.ofBits y.bits)).toBits⟩

def sub (x y : Double) : Double := lift₂ (· - ·) x y

def mul (x y : Double) : Double := lift₂ (· * ·) x y

def div (x y : Double) : Double := lift₂ (· / ·) x y

/-- The larger of two doubles; a NaN gives way to a number. -/
def max (x y : Double) : Double :=
  if x.isNaN then y else if y.isNaN then x else if x.lt y then y else x

/-- The shortest text that reads back as the same double. -/
def text (x : Double) : String :=
  x.datum.text BinaryFormat.double Single.style

/-- The text with a fixed number of places. -/
def fixedText (places : Nat) (x : Double) : String :=
  x.datum.textWith (fixedPlaces places)

/-- The text in scientific notation with a fixed number of places. -/
def scientificText (places : Nat) (x : Double) : String :=
  x.datum.textWith (scientific places)

end Double

/-- The nearest single to a double. -/
def Single.ofDouble (x : Double) : Single := Single.ofDatum x.datum

end ComputeShader
