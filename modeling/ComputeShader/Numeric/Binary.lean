/-! # Binary floating-point formats

A format is given by the widths of its fraction and exponent fields. `decode` reads a bit pattern
as an exact datum and `ofRatio` rounds an exact nonnegative ratio to the nearest bit pattern, a tie
going to the even significand. Both work on natural numbers, so every conversion of the library
rounds exactly once.
-/

namespace ComputeShader

/-- A power of two. -/
def twoPow (k : Nat) : Nat := Nat.pow 2 k

/-- A power of ten. -/
def tenPow (k : Nat) : Nat := Nat.pow 10 k

theorem twoPow_pos (k : Nat) : 0 < twoPow k := Nat.pow_pos Nat.two_pos

/-- The quotient rounded to the nearest integer, a tie going to the even neighbour. -/
def divNearestEven (num den : Nat) : Nat :=
  let quotient := num / den
  let rest := num % den
  if 2 * rest < den then quotient
  else if den < 2 * rest then quotient + 1
  else quotient + quotient % 2

/-- The quotient rounded to the nearest integer, a tie going away from zero. -/
def divNearestAway (num den : Nat) : Nat :=
  (2 * num + den) / (2 * den)

/-- A binary interchange format: a sign bit, an exponent field and a fraction field. -/
structure BinaryFormat where
  fractionBits : Nat
  exponentBits : Nat
  deriving DecidableEq, Repr

/-- What a bit pattern stands for; a finite number is `± significand * 2 ^ exponent`. -/
inductive BinaryDatum where
  | nan (negative : Bool)
  | infinite (negative : Bool)
  | finite (negative : Bool) (significand : Nat) (exponent : Int)
  deriving DecidableEq, Repr

namespace BinaryFormat

/-- The 32-bit format. -/
def single : BinaryFormat := ⟨23, 8⟩

/-- The 64-bit format. -/
def double : BinaryFormat := ⟨52, 11⟩

/-- The exponent of the least positive number: every finite number is a multiple of its power. -/
def leastExponent (f : BinaryFormat) : Int :=
  2 - twoPow (f.exponentBits - 1) - f.fractionBits

/-- The bit pattern of positive infinity. -/
def infinity (f : BinaryFormat) : Nat :=
  (twoPow f.exponentBits - 1) * twoPow f.fractionBits

/-- The bit pattern of the quiet NaN without sign or payload. -/
def quietNaN (f : BinaryFormat) : Nat :=
  f.infinity + twoPow (f.fractionBits - 1)

/-- The value of the sign bit. -/
def signBit (f : BinaryFormat) : Nat :=
  twoPow (f.fractionBits + f.exponentBits)

/-- Put the sign of a number in front of the bits of its magnitude. -/
def withSign (f : BinaryFormat) (negative : Bool) (magnitude : Nat) : Nat :=
  if negative then f.signBit + magnitude else magnitude

/-- Read a bit pattern. An exponent field of zero holds the subnormal numbers and zero. -/
def decode (f : BinaryFormat) (bits : Nat) : BinaryDatum :=
  let fraction := bits % twoPow f.fractionBits
  let field := bits / twoPow f.fractionBits % twoPow f.exponentBits
  let negative := bits / f.signBit % 2 == 1
  if field = twoPow f.exponentBits - 1 then
    if fraction = 0 then .infinite negative else .nan negative
  else if field = 0 then .finite negative fraction f.leastExponent
  else .finite negative (twoPow f.fractionBits + fraction) (f.leastExponent + (field - 1 : Nat))

/-- The integer `e` with `2 ^ e ≤ num / den < 2 ^ (e + 1)`, for positive arguments. -/
def ratioExponent (num den : Nat) : Int :=
  let guess : Int := (num.log2 : Int) - den.log2
  let reached : Bool := match guess with
    | .ofNat k => den * twoPow k ≤ num
    | .negSucc k => den ≤ num * twoPow (k + 1)
  if reached then guess else guess - 1

/-- The bit pattern nearest to `num / den`, a tie going to the even significand. Adding the
significand to the shifted exponent lets a carry move into the exponent field; a result at or past
the pattern of infinity has overflowed. -/
def ofRatio (f : BinaryFormat) (negative : Bool) (num den : Nat) : Nat :=
  if num = 0 then f.withSign negative 0
  else
    let quantum := max (ratioExponent num den - f.fractionBits) f.leastExponent
    let significand := match quantum with
      | .ofNat k => divNearestEven num (den * twoPow k)
      | .negSucc k => divNearestEven (num * twoPow (k + 1)) den
    let magnitude := (quantum - f.leastExponent).toNat * twoPow f.fractionBits + significand
    f.withSign negative (min magnitude f.infinity)

/-- The bit pattern nearest to `significand * 2 ^ exponent`. -/
def ofScaled (f : BinaryFormat) (negative : Bool) (significand : Nat) : Int → Nat
  | .ofNat k => f.ofRatio negative (significand * twoPow k) 1
  | .negSucc k => f.ofRatio negative significand (twoPow (k + 1))

/-- Round a datum of any format to this one. -/
def encode (f : BinaryFormat) : BinaryDatum → Nat
  | .nan negative => f.withSign negative f.quietNaN
  | .infinite negative => f.withSign negative f.infinity
  | .finite negative significand exponent => f.ofScaled negative significand exponent

/-- The number of decimal digits of a positive number. -/
def decimalLength (n : Nat) : Nat :=
  (Nat.toDigits 10 n).length

/-- The bit pattern nearest to `significand * 10 ^ exponent`. Magnitudes outside the decimal range
of either format are settled without computing the power. -/
def ofDecimal (f : BinaryFormat) (negative : Bool) (significand : Nat) (exponent : Int) : Nat :=
  let leading := exponent + decimalLength significand
  if significand = 0 ∨ leading < -400 then f.withSign negative 0
  else if 400 < leading then f.withSign negative f.infinity
  else match exponent with
    | .ofNat k => f.ofRatio negative (significand * tenPow k) 1
    | .negSucc k => f.ofRatio negative significand (tenPow (k + 1))

end BinaryFormat

end ComputeShader
