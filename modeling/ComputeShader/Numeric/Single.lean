import ComputeShader.Numeric.Decimal

/-! # Single precision

A `Single` is a 32-bit float held as its bit pattern, so that storing and loading one keeps signed
zeros and NaN payloads, and so do sign changes. Arithmetic rounds every result to single precision and
keeps no payloads: which NaN an operation of a float unit gives is left open, and here it is always
the pattern `0x7fc00000`. Ordering, sign changes and conversions are defined on the bits.
-/

namespace ComputeShader

/-- A single-precision float. -/
structure Single where
  bits : UInt32
  deriving DecidableEq, Repr, Inhabited

namespace Single

/-- What the bits stand for. -/
def datum (x : Single) : BinaryDatum :=
  BinaryFormat.single.decode x.bits.toNat

def ofDatum (d : BinaryDatum) : Single :=
  ⟨UInt32.ofNat (BinaryFormat.single.encode d)⟩

def zero : Single := ⟨0⟩

def one : Single := ⟨0x3f800000⟩

/-- The nearest float to an integer. -/
def ofInt (i : Int) : Single :=
  ⟨UInt32.ofNat (BinaryFormat.single.ofScaled (i < 0) i.natAbs 0)⟩

/-- The nearest float to a decimal numeral. -/
def ofNumeral (negative : Bool) (n : Numeral) : Single :=
  ⟨UInt32.ofNat (BinaryFormat.single.ofDecimal negative n.digits n.exponent)⟩

/-! ## Sign, order -/

/-- The bits without the sign; on numbers their order is that of the magnitudes. -/
def magnitude (x : Single) : UInt32 := x.bits &&& 0x7fffffff

def isNegative (x : Single) : Bool := x.bits &&& 0x80000000 != 0

def isNaN (x : Single) : Bool := 0x7f800000 < x.magnitude

def neg (x : Single) : Single := ⟨x.bits ^^^ 0x80000000⟩

def abs (x : Single) : Single := ⟨x.magnitude⟩

/-- An integer whose order on numbers is their order; both zeros have rank zero. -/
def rank (x : Single) : Int :=
  if x.isNegative then -x.magnitude.toNat else x.magnitude.toNat

/-- Equality of numbers: a NaN differs from everything, the two zeros are equal. -/
def eq (x y : Single) : Bool :=
  !x.isNaN && !y.isNaN && x.rank == y.rank

def lt (x y : Single) : Bool :=
  !x.isNaN && !y.isNaN && x.rank < y.rank

def le (x y : Single) : Bool :=
  !x.isNaN && !y.isNaN && x.rank ≤ y.rank

/-! ## Arithmetic -/

/-- Apply an operation of the float unit. If the result is a NaN, it is the quiet one without sign or
payload, whatever the operands were. -/
def lift₂ (op : Float32 → Float32 → Float32) (x y : Single) : Single :=
  ⟨(op (Float32.ofBits x.bits) (Float32.ofBits y.bits)).toBits⟩

def add (x y : Single) : Single := lift₂ (· + ·) x y

def sub (x y : Single) : Single := lift₂ (· - ·) x y

def mul (x y : Single) : Single := lift₂ (· * ·) x y

def div (x y : Single) : Single := lift₂ (· / ·) x y

/-- The value forced between two bounds; a NaN stays one. -/
def clamp (x lo hi : Single) : Single :=
  if x.lt lo then lo else if hi.lt x then hi else x

/-! ## Integers from floats -/

/-- The integer part: the fraction is cut off, towards zero. -/
def truncate (significand : Nat) : Int → Nat
  | .ofNat k => significand * twoPow k
  | .negSucc k => significand / twoPow (k + 1)

/-- Conversion towards zero into `lo ..= hi`: values outside are moved to the nearer end and a NaN
gives zero. -/
def toIntSaturating (lo hi : Int) (x : Single) : Int :=
  match x.datum with
  | .nan _ => 0
  | .infinite negative => if negative then lo else hi
  | .finite negative significand exponent =>
    let n : Int := truncate significand exponent
    max lo (min hi (if negative then -n else n))

/-- The nearest integer, a tie going away from zero; the special values give zero. -/
def roundAway (x : Single) : Int :=
  match x.datum with
  | .finite negative significand exponent =>
    let n : Int := match exponent with
      | .ofNat k => significand * twoPow k
      | .negSucc k => divNearestAway significand (twoPow (k + 1))
    if negative then -n else n
  | _ => 0

/-! ## Text -/

/-- Floats are written positionally from `0.0001` up to `10 ^ 16`. -/
def style : ShortestStyle := ⟨-4, 15⟩

end Single

/-- The text of a datum of format `f` with the shortest digits that read back. -/
def BinaryDatum.text (f : BinaryFormat) (style : ShortestStyle) : BinaryDatum → String
  | .nan _ => "NaN"
  | .infinite negative => if negative then "-inf" else "inf"
  | .finite negative significand exponent =>
    let magnitude := if significand = 0 then "0.0" else style.write (shortest f significand exponent)
    if negative then "-" ++ magnitude else magnitude

/-- The text of a datum through a function that writes a nonnegative ratio. -/
def BinaryDatum.textWith (write : Nat → Nat → String) : BinaryDatum → String
  | .nan _ => "NaN"
  | .infinite negative => if negative then "-inf" else "inf"
  | .finite negative significand exponent =>
    let magnitude := match exponent with
      | .ofNat k => write (significand * twoPow k) 1
      | .negSucc k => write significand (twoPow (k + 1))
    if negative then "-" ++ magnitude else magnitude

/-- The shortest text that reads back as the same float, always with a point or an exponent. -/
def Single.text (x : Single) : String :=
  x.datum.text BinaryFormat.single Single.style

/-- The text with a fixed number of places. -/
def Single.fixedText (places : Nat) (x : Single) : String :=
  x.datum.textWith (fixedPlaces places)

/-- The number that a text writes: a numeral or the name of an infinity or of NaN in letters of any
case, with an optional sign. -/
def Single.ofText? (text : String) : Option Single :=
  let (negative, body) := match text.toList with
    | '-' :: body => (true, body)
    | '+' :: body => (false, body)
    | body => (false, body)
  let name := String.ofList (body.map Char.toLower)
  if name = "inf" ∨ name = "infinity" then some (Single.ofDatum (.infinite negative))
  else if name = "nan" then some (Single.ofDatum (.nan negative))
  else (Numeral.parse? body).map fun n => Single.ofNumeral negative n

end ComputeShader
