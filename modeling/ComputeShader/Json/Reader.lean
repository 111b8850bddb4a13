import ComputeShader.Json.Basic

/-! # Reading JSON

A strict reader: one value, blanks around it, and nothing else. An integer too large for 64 bits
is read as a double. Doubles are computed from the first nineteen digits or so, scaled by one power
of ten, which may be off by a few units in the last place. A number beyond all doubles is
unreadable, and so is a string with half of a surrogate pair and an object with such a key.
-/

namespace ComputeShader

namespace Json

def isBlank (c : Char) : Bool :=
  c == ' ' || c == '\n' || c == '\t' || c == '\r'

def skipBlanks (text : List Char) : List Char := text.dropWhile isBlank

/-- The text after a given word. -/
def afterWord? : List Char → List Char → Option (List Char)
  | [], text => some text
  | w :: word, c :: text => if w = c then afterWord? word text else none
  | _ :: _, [] => none

/-! ## Strings -/

/-- The number written by four hexadecimal digits, and the rest. -/
def hexQuad? : List Char → Option (Nat × List Char)
  | a :: b :: c :: d :: text => do
    let digits ← [a, b, c, d].mapM hexDigit?
    some (digitsValue 16 digits, text)
  | _ => none

/-- The character of a `\u` escape after its `u`; characters past the first plane are written as
two surrogates. Half of such a pair is no character. -/
def unicodeEscape? (text : List Char) : Option (Option Char × List Char) := do
  let (high, rest) ← hexQuad? text
  if 0xd800 ≤ high ∧ high < 0xdc00 then
    match rest with
    | '\\' :: 'u' :: more =>
      let (low, more) ← hexQuad? more
      if 0xdc00 ≤ low ∧ low < 0xe000 then
        some (Char.ofNat (0x10000 + (high - 0xd800) * 0x400 + (low - 0xdc00)), more)
      else some (none, rest)
    | _ => some (none, rest)
  else if 0xdc00 ≤ high ∧ high < 0xe000 then some (none, rest)
  else some (Char.ofNat high, rest)

def simpleEscape? : Char → Option Char
  | '"' => some '"'
  | '\\' => some '\\'
  | '/' => some '/'
  | 'b' => some '\x08'
  | 'f' => some '\x0c'
  | 'n' => some '\n'
  | 'r' => some '\r'
  | 't' => some '\t'
  | _ => none

/-- The characters of a string after its opening quote, and the text after the closing one. -/
def readString : Nat → List Char → Option (List (Option Char) × List Char)
  | 0, _ => none
  | fuel + 1, text =>
    match text with
    | [] => none
    | '"' :: text => some ([], text)
    | '\\' :: 'u' :: text => do
      let (c, text) ← unicodeEscape? text
      let (cs, text) ← readString fuel text
      some (c :: cs, text)
    | '\\' :: mark :: text => do
      let c ← simpleEscape? mark
      let (cs, text) ← readString fuel text
      some (some c :: cs, text)
    | c :: text =>
      if c.toNat < 0x20 ∨ c = '\\' then none
      else do
        let (cs, text) ← readString fuel text
        some (some c :: cs, text)

/-- The string of some characters, if each of them is one. -/
def joined? (cs : List (Option Char)) : Option String := (cs.mapM id).map String.ofList

/-! ## Numbers -/

/-- The largest number of a run of digits that is still accumulated exactly. -/
def significandLimit : Nat := 18446744073709551616

/-- Accumulate digits onto a number while it stays below the limit; the number of digits taken and
the digits left over come with it. -/
def accumulate (n : Nat) (taken : Nat) : List Nat → Nat × Nat × List Nat
  | [] => (n, taken, [])
  | d :: ds =>
    if n * 10 + d < significandLimit then accumulate (n * 10 + d) (taken + 1) ds
    else (n, taken, d :: ds)

/-- Scale by a power of ten with at most three roundings. -/
def scaleBy (x : Double) : Nat → Int → Double
  | 0, _ => x
  | fuel + 1, exponent =>
    if exponent.natAbs ≤ 308 then
      let power := Double.ofNumeral false ⟨1, exponent.natAbs⟩
      if 0 ≤ exponent then x.mul power else x.div power
    else if x.magnitude = 0 then x
    else if 0 ≤ exponent then ⟨UInt64.ofNat BinaryFormat.double.infinity⟩
    else scaleBy (x.div (Double.ofNumeral false ⟨1, 308⟩)) fuel (exponent + 308)

/-- The double of a number given by the digits before and after its point and its exponent. -/
def doubleOf (negative : Bool) (whole places : List Nat) (exponent : Int) : Double :=
  let (n, _, dropped) := accumulate 0 0 whole
  let (n, taken, _) := accumulate n 0 places
  let x := scaleBy (Double.ofInt n) 4 (exponent + dropped.length - taken)
  if negative then x.neg else x

/-- Digits with no superfluous zero in front. -/
def wholeDigits? (text : List Char) : Option (List Nat × List Char) :=
  match Numeral.spanDigits text with
  | ([], _) => none
  | (0 :: _ :: _, _) => none
  | found => some found

/-- The places after a point; a point without any is refused. -/
def places? : List Char → Option (Option (List Nat) × List Char)
  | '.' :: text =>
    match Numeral.spanDigits text with
    | ([], _) => none
    | (places, rest) => some (some places, rest)
  | text => some (none, text)

/-- The exponent after `e`; a mark without digits is refused. -/
def exponent? : List Char → Option (Option Int × List Char)
  | mark :: text =>
    if mark = 'e' ∨ mark = 'E' then
      let (negative, body) := match text with
        | '-' :: body => (true, body)
        | '+' :: body => (false, body)
        | body => (false, body)
      match Numeral.spanDigits body with
      | ([], _) => none
      | (digits, rest) =>
        let n : Int := digitsValue 10 digits
        some (some (if negative then -n else n), rest)
    else some (none, mark :: text)
  | [] => some (none, [])

/-- A number: an integer if it is written as one and fits 64 bits, otherwise a double. A negative
zero is a double. -/
def readNumber? (text : List Char) : Option (Json × List Char) := do
  let (negative, body) := match text with
    | '-' :: body => (true, body)
    | body => (false, body)
  let (whole, rest) ← wholeDigits? body
  let (places, rest) ← places? rest
  let (exponent, rest) ← exponent? rest
  let n := digitsValue 10 whole
  let isExact : Bool :=
    places.isNone && exponent.isNone &&
      (if negative then 0 < n && n ≤ 9223372036854775808 else n < significandLimit)
  if isExact then some (int (if negative then -n else n), rest)
  else
    let x := doubleOf negative whole (places.getD []) (exponent.getD 0)
    some (if x.magnitude.toNat = BinaryFormat.double.infinity then unreadable else float x, rest)

/-! ## Values -/

/-- An object, if its keys can be read. -/
def ofMembers (members : List (Option String × Json)) : Json :=
  match members.mapM fun (key, value) => key.map fun key => (key, value) with
  | some members => object members
  | none => unreadable

mutual

/-- A value, and the text after it. -/
def readValue : Nat → List Char → Option (Json × List Char)
  | 0, _ => none
  | fuel + 1, text =>
    match skipBlanks text with
    | 'n' :: text => (afterWord? ['u', 'l', 'l'] text).map fun rest => (null, rest)
    | 't' :: text => (afterWord? ['r', 'u', 'e'] text).map fun rest => (bool true, rest)
    | 'f' :: text => (afterWord? ['a', 'l', 's', 'e'] text).map fun rest => (bool false, rest)
    | '"' :: text => do
      let (cs, rest) ← readString (text.length + 1) text
      some ((joined? cs).elim unreadable string, rest)
    | '[' :: text =>
      match skipBlanks text with
      | ']' :: rest => some (array [], rest)
      | text => (readItems fuel text).map fun (items, rest) => (array items, rest)
    | '{' :: text =>
      match skipBlanks text with
      | '}' :: rest => some (object [], rest)
      | text => (readMembers fuel text).map fun (members, rest) => (ofMembers members, rest)
    | text => readNumber? text

/-- One or more items and the closing bracket. -/
def readItems : Nat → List Char → Option (List Json × List Char)
  | 0, _ => none
  | fuel + 1, text => do
    let (item, text) ← readValue fuel text
    match skipBlanks text with
    | ',' :: text =>
      let (items, rest) ← readItems fuel text
      some (item :: items, rest)
    | ']' :: rest => some ([item], rest)
    | _ => none

/-- One or more members and the closing brace. -/
def readMembers : Nat → List Char → Option (List (Option String × Json) × List Char)
  | 0, _ => none
  | fuel + 1, text =>
    match skipBlanks text with
    | '"' :: text => do
      let (key, text) ← readString (text.length + 1) text
      match skipBlanks text with
      | ':' :: text =>
        let (value, text) ← readValue fuel text
        let member := (joined? key, value)
        match skipBlanks text with
        | ',' :: text =>
          let (members, rest) ← readMembers fuel text
          some (member :: members, rest)
        | '}' :: rest => some ([member], rest)
        | _ => none
      | _ => none
    | _ => none

end

/-- The value that a text stands for. -/
def parse? (text : String) : Option Json :=
  let chars := text.toList
  match readValue (2 * chars.length + 2) chars with
  | some (j, rest) => if (skipBlanks rest).isEmpty then some j else none
  | none => none

end Json

end ComputeShader
