import ComputeShader.Numeric.Binary

/-! # Decimal numerals

Writing exact binary numbers in decimal: the fewest digits that read back (`shortest`), a fixed
number of places (`fixedPlaces`) and scientific notation with a fixed number of places
(`scientific`). Reading a numeral gives its digits and power of ten (`Numeral.parse?`), which
`BinaryFormat.ofDecimal` rounds once.
-/

namespace ComputeShader

/-- The number `digits * 10 ^ exponent`. -/
structure Numeral where
  digits : Nat
  exponent : Int
  deriving DecidableEq, Repr

/-- The text of a natural number in decimal. -/
def decimalText (n : Nat) : String :=
  String.ofList (Nat.toDigits 10 n)

/-- `text` with as many zeros in front as bring it to `width` characters. -/
def zeroPadded (width : Nat) (text : String) : String :=
  "".pushn '0' (width - text.length) ++ text

/-- The value of a run of digits. -/
def digitsValue (base : Nat) (digits : List Nat) : Nat :=
  digits.foldl (fun n d => n * base + d) 0

/-- The value of a decimal digit. -/
def decimalDigit? (c : Char) : Option Nat :=
  if c.isDigit then some (c.toNat - '0'.toNat) else none

/-- The value of a hexadecimal digit. -/
def hexDigit? (c : Char) : Option Nat :=
  if c.isDigit then some (c.toNat - '0'.toNat)
  else if 'a' ≤ c ∧ c ≤ 'f' then some (c.toNat - 'a'.toNat + 10)
  else if 'A' ≤ c ∧ c ≤ 'F' then some (c.toNat - 'A'.toNat + 10)
  else none

/-- The number that a text of digits writes, with an optional plus sign, if it is below `limit`. -/
def countOfText? (limit : Nat) (text : List Char) : Option Nat :=
  let digits := match text with
    | '+' :: rest => rest
    | text => text
  if digits.isEmpty then none
  else (digits.mapM decimalDigit?).bind fun digits =>
    let n := digitsValue 10 digits
    if n < limit then some n else none

namespace Numeral

/-- Split a text into its leading decimal digits and the rest. -/
def spanDigits (text : List Char) : List Nat × List Char :=
  ((text.takeWhile Char.isDigit).filterMap decimalDigit?, text.dropWhile Char.isDigit)

/-- The exponent part `e`, an optional sign and at least one digit; absent at the end. -/
def parseExponent? : List Char → Option Int
  | [] => some 0
  | mark :: rest =>
    if mark = 'e' ∨ mark = 'E' then
      let (negative, body) := match rest with
        | '-' :: body => (true, body)
        | '+' :: body => (false, body)
        | body => (false, body)
      match spanDigits body with
      | (d :: ds, []) =>
        let n : Int := digitsValue 10 (d :: ds)
        some (if negative then -n else n)
      | _ => none
    else none

/-- Digits with an optional point among them and an optional exponent; at least one digit. -/
def parse? (text : List Char) : Option Numeral :=
  let (whole, rest) := spanDigits text
  let (places, rest) := match rest with
    | '.' :: rest => spanDigits rest
    | rest => ([], rest)
  if whole.isEmpty && places.isEmpty then none
  else (parseExponent? rest).map fun exponent =>
    ⟨digitsValue 10 (whole ++ places), exponent - places.length⟩

end Numeral

/-! ## The fewest digits -/

/-- The numbers that round to `significand * 2 ^ exponent`, in quarters of its last place: from
`4 * significand - below` to `4 * significand + 2`, the ends included for an even significand. -/
structure RoundingInterval where
  significand : Nat
  exponent : Int
  below : Nat
  deriving DecidableEq, Repr

namespace RoundingInterval

/-- The interval of a finite positive number. Just above a power of two the neighbour below is
half as far away. -/
def of (f : BinaryFormat) (significand : Nat) (exponent : Int) : RoundingInterval :=
  let narrow := significand = twoPow f.fractionBits ∧ exponent ≠ f.leastExponent
  ⟨significand, exponent, if narrow then 1 else 2⟩

/-- The integers `(a, b)` such that `d * 10 ^ place` compares with `n` quarters as `d * b` does
with `n * a`. -/
def scales (i : RoundingInterval) (place : Int) : Nat × Nat :=
  let binary := i.exponent - 2
  (twoPow binary.toNat * tenPow (-place).toNat, twoPow (-binary).toNat * tenPow place.toNat)

/-- Whether `d * 10 ^ place` rounds to the number. -/
def holds (i : RoundingInterval) (place : Int) (d : Nat) : Bool :=
  let (a, b) := i.scales place
  let low := (4 * i.significand - i.below) * a
  let high := (4 * i.significand + 2) * a
  if i.significand % 2 = 0 then low ≤ d * b && d * b ≤ high
  else low < d * b && d * b < high

/-- The multiple of `10 ^ place` nearest to the number among those that round to it, if there is
one; of two equally near the larger. -/
def nearest? (i : RoundingInterval) (place : Int) : Option Nat :=
  let (a, b) := i.scales place
  let d := 4 * i.significand * a / b
  let rest := 4 * i.significand * a % b
  match i.holds place d, i.holds place (d + 1) with
  | true, true => some (if 2 * rest < b then d else d + 1)
  | true, false => some d
  | false, true => some (d + 1)
  | false, false => none

/-- Search the decimal places downwards from `place`. -/
def search (i : RoundingInterval) : Nat → Int → Numeral
  | 0, place => ⟨0, place⟩
  | fuel + 1, place =>
    match i.nearest? place with
    | some d => ⟨d, place⟩
    | none => search i fuel (place - 1)

/-- A decimal place whose power of ten lies above the interval. -/
def startPlace (i : RoundingInterval) : Int :=
  (i.exponent + i.significand.log2 + 2) * 30103 / 100000 + 1

end RoundingInterval

/-- The numeral with the fewest digits that reads back as the positive number
`significand * 2 ^ exponent`, the nearest of those. Twenty places below the leading digit every
double has a neighbour on the decimal grid. -/
def shortest (f : BinaryFormat) (significand : Nat) (exponent : Int) : Numeral :=
  let i := RoundingInterval.of f significand exponent
  i.search 24 i.startPlace

/-! ## Written forms -/

/-- How the shortest digits of a number are written: positionally for decimal exponents between
`leastPositional` and `greatestPositional`, otherwise in scientific notation. -/
structure ShortestStyle where
  leastPositional : Int
  greatestPositional : Int
  deriving DecidableEq, Repr

/-- Digits with a point after the first `lead` of them; a missing part is written as one zero. -/
def pointAfter (digits : String) (lead : Int) : String :=
  match lead with
  | .ofNat (k + 1) =>
    let whole := digits ++ "".pushn '0' (k + 1 - digits.length)
    let places := (whole.drop (k + 1)).toString
    (whole.take (k + 1)).toString ++ "." ++ (if places.isEmpty then "0" else places)
  | lead => "0." ++ "".pushn '0' (-lead).toNat ++ digits

/-- One digit, the others after a point, and the decimal exponent. -/
def scientificText (digits : String) (exponent : Int) : String :=
  let places := (digits.drop 1).toString
  (digits.take 1).toString ++ (if places.isEmpty then "" else "." ++ places) ++ "e" ++
    toString exponent

/-- Write a positive numeral in a style. -/
def ShortestStyle.write (style : ShortestStyle) (n : Numeral) : String :=
  let digits := decimalText n.digits
  let leading := n.exponent + digits.length - 1
  if style.leastPositional ≤ leading ∧ leading ≤ style.greatestPositional then
    pointAfter digits (leading + 1)
  else scientificText digits leading

/-- A number with exactly `places` digits after the point, a tie going to the even digit. -/
def fixedPlaces (places : Nat) (num den : Nat) : String :=
  let scaled := divNearestEven (num * tenPow places) den
  let digits := zeroPadded (places + 1) (decimalText scaled)
  let whole := digits.length - places
  (digits.take whole).toString ++ (if places = 0 then "" else "." ++ (digits.drop whole).toString)

/-- The integer `e` with `10 ^ e ≤ num / den < 10 ^ (e + 1)`, for positive arguments. -/
def ratioDecimalExponent (num den : Nat) : Int :=
  let guess : Int := (decimalText num).length - (decimalText den).length
  let reached : Bool := match guess with
    | .ofNat k => den * tenPow k ≤ num
    | .negSucc k => den ≤ num * tenPow (k + 1)
  if reached then guess else guess - 1

/-- A number in scientific notation with exactly `places` digits after the point, a tie going to
the even digit. Rounding up to the next power of ten moves the exponent. -/
def scientific (places : Nat) (num den : Nat) : String :=
  if num = 0 then scientificText ("".pushn '0' (places + 1)) 0
  else
    let exponent := ratioDecimalExponent num den
    let shift : Int := places - exponent
    let scaled := divNearestEven (num * tenPow shift.toNat) (den * tenPow (-shift).toNat)
    if scaled = tenPow (places + 1) then scientificText (decimalText (tenPow places)) (exponent + 1)
    else scientificText (decimalText scaled) exponent

end ComputeShader
