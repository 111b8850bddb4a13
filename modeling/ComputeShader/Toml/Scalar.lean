import ComputeShader.Json.Basic

/-! # TOML strings, numbers and dates

The parts of a TOML document that hold no other values. Each reader takes the text from the first
character of its part on, and gives back what follows.
-/

namespace ComputeShader

namespace Toml

/-- A reader gives a result and the text after it, unless the text has the wrong form. -/
abbrev Reader (α : Type) := List Char → Option (α × List Char)

/-! ## Characters -/

def isBlank (c : Char) : Bool := c == ' ' || c == '\t'

/-- Characters that may stand in comments: all but the controls, of which the tab is allowed. -/
def isCommentChar (c : Char) : Bool := c == '\t' || 0x20 ≤ c.toNat

/-- Characters that stand for themselves in literal strings. -/
def isLiteralChar (c : Char) : Bool := isCommentChar c && c != '\'' && c != '\x7f'

/-- Characters that stand for themselves in basic strings. -/
def isBasicChar (c : Char) : Bool :=
  isCommentChar c && c != '"' && c != '\\' && c != '\x7f'

/-- The text after a line break, if one comes next. -/
def afterBreak? : List Char → Option (List Char)
  | '\n' :: rest => some rest
  | '\r' :: '\n' :: rest => some rest
  | _ => none

/-- The text after a given word, if it comes next. -/
def after? : List Char → List Char → Option (List Char)
  | [], text => some text
  | w :: word, c :: text => if w = c then after? word text else none
  | _ :: _, [] => none

def skipBlanks (text : List Char) : List Char := text.dropWhile isBlank

/-- The text after blanks and line breaks. -/
def skipSpace : List Char → List Char
  | '\r' :: '\n' :: rest => skipSpace rest
  | c :: rest => if isBlank c || c == '\n' then skipSpace rest else c :: rest
  | [] => []

/-! ## Strings -/

/-- The character with a code given by exactly `count` hexadecimal digits. -/
def codePoint? (count : Nat) : Reader Char := fun text => do
  let digits ← (text.take count).mapM hexDigit?
  let n := digitsValue 16 digits
  if digits.length = count ∧ n.isValidChar then some (Char.ofNat n, text.drop count) else none

/-- The character of an escape after its backslash. -/
def escape? : Reader Char
  | 'b' :: rest => some ('\x08', rest)
  | 't' :: rest => some ('\t', rest)
  | 'n' :: rest => some ('\n', rest)
  | 'f' :: rest => some ('\x0c', rest)
  | 'r' :: rest => some ('\r', rest)
  | '"' :: rest => some ('"', rest)
  | '\\' :: rest => some ('\\', rest)
  | 'u' :: rest => codePoint? 4 rest
  | 'U' :: rest => codePoint? 8 rest
  | _ => none

/-- A basic string after its opening quote. -/
def basicString : Nat → Reader (List Char)
  | 0, _ => none
  | _ + 1, '"' :: rest => some ([], rest)
  | fuel + 1, '\\' :: rest => do
    let (c, rest) ← escape? rest
    let (cs, rest) ← basicString fuel rest
    some (c :: cs, rest)
  | fuel + 1, c :: rest =>
    if isBasicChar c then do
      let (cs, rest) ← basicString fuel rest
      some (c :: cs, rest)
    else none
  | _ + 1, [] => none

/-- A literal string after its opening quote. -/
def literalString : Reader (List Char)
  | '\'' :: rest => some ([], rest)
  | c :: rest =>
    if isLiteralChar c then do
      let (cs, rest) ← literalString rest
      some (c :: cs, rest)
    else none
  | [] => none

/-- The quotes at the beginning of a text, and whether they close a string of several lines: three
to five do, of which the last three are the delimiter. -/
def closingQuotes (quote : Char) (text : List Char) : Nat × Option (List Char) :=
  let run := (text.takeWhile (· == quote)).length
  if run < 3 then (run, none) else (min run 5 - 3, some (text.drop (min run 5)))

/-- A basic string of several lines after its opening quotes. A backslash at the end of a line joins
it to the next character that is no blank. -/
def basicLines : Nat → Reader (List Char)
  | 0, _ => none
  | fuel + 1, text =>
    match text with
    | '"' :: _ =>
      match closingQuotes '"' text with
      | (count, some rest) => some (List.replicate count '"', rest)
      | (count, none) => do
        let (cs, rest) ← basicLines fuel (text.drop count)
        some (List.replicate count '"' ++ cs, rest)
    | '\\' :: rest =>
      match afterBreak? (skipBlanks rest) with
      | some rest => basicLines fuel (skipSpace rest)
      | none => do
        let (c, rest) ← escape? rest
        let (cs, rest) ← basicLines fuel rest
        some (c :: cs, rest)
    | c :: rest =>
      match afterBreak? text with
      | some rest => do
        let (cs, rest) ← basicLines fuel rest
        some ('\n' :: cs, rest)
      | none =>
        if isBasicChar c then do
          let (cs, rest) ← basicLines fuel rest
          some (c :: cs, rest)
        else none
    | [] => none

/-- A literal string of several lines after its opening quotes. -/
def literalLines : Nat → Reader (List Char)
  | 0, _ => none
  | fuel + 1, text =>
    match text with
    | '\'' :: _ =>
      match closingQuotes '\'' text with
      | (count, some rest) => some (List.replicate count '\'', rest)
      | (count, none) => do
        let (cs, rest) ← literalLines fuel (text.drop count)
        some (List.replicate count '\'' ++ cs, rest)
    | c :: rest =>
      match afterBreak? text with
      | some rest => do
        let (cs, rest) ← literalLines fuel rest
        some ('\n' :: cs, rest)
      | none =>
        if isLiteralChar c then do
          let (cs, rest) ← literalLines fuel rest
          some (c :: cs, rest)
        else none
    | [] => none

/-- The text without a line break at its beginning. -/
def dropBreak (text : List Char) : List Char := (afterBreak? text).getD text

/-- A string of any of the four forms. -/
def stringValue (text : List Char) : Option (String × List Char) :=
  let found := match text with
    | '"' :: '"' :: '"' :: rest => basicLines (rest.length + 1) (dropBreak rest)
    | '"' :: rest => basicString (rest.length + 1) rest
    | '\'' :: '\'' :: '\'' :: rest => literalLines (rest.length + 1) (dropBreak rest)
    | '\'' :: rest => literalString rest
    | _ => none
  found.map fun (cs, rest) => (String.ofList cs, rest)

/-! ## Numbers -/

/-- A run of digits with single underscores between them. -/
def digitRun? (digit? : Char → Option Nat) : Reader (List Nat)
  | '_' :: _ => none
  | text =>
    let run := text.takeWhile fun c => (digit? c).isSome || c == '_'
    let digits := run.filterMap digit?
    let isDoubled := (run.zip (run.drop 1)).any fun pair => pair == ('_', '_')
    if digits.isEmpty ∨ isDoubled ∨ run.getLast? = some '_' then none
    else some (digits, text.drop run.length)

/-- The whole part of a number: no superfluous zero in front. -/
def wholePart? : Reader (List Nat)
  | '0' :: rest => some ([0], rest)
  | text => digitRun? decimalDigit? text

/-- The fraction after a point. -/
def fraction? : Reader (Option (List Nat))
  | '.' :: rest => (digitRun? decimalDigit? rest).map fun (places, rest) => (some places, rest)
  | text => some (none, text)

def signed? : List Char → Bool × List Char
  | '-' :: rest => (true, rest)
  | '+' :: rest => (false, rest)
  | text => (false, text)

/-- The exponent after its mark. -/
def exponent? : Reader (Option Int)
  | mark :: rest =>
    if mark = 'e' ∨ mark = 'E' then do
      let (negative, body) := signed? rest
      let (digits, rest) ← digitRun? decimalDigit? body
      let n : Int := digitsValue 10 digits
      some (some (if negative then -n else n), rest)
    else some (none, mark :: rest)
  | [] => some (none, [])

/-- A finite float. A positive one beyond all doubles is refused, a negative one infinite. -/
def ofFloat? (negative : Bool) (n : Numeral) : Option Json :=
  let x := Double.ofNumeral negative n
  if !negative ∧ x.magnitude.toNat = BinaryFormat.double.infinity then none else some (.float x)

/-- An integer, if it fits 64 bits with a sign. -/
def ofInteger? (negative : Bool) (digits : List Nat) : Option Json :=
  let n : Int := digitsValue 10 digits
  let i := if negative then -n else n
  if -9223372036854775808 ≤ i ∧ i < 9223372036854775808 then some (.int i) else none

/-- A number in decimal digits: a float if it has a fraction or an exponent. -/
def decimalNumber? (negative : Bool) : Reader Json := fun text => do
  let (whole, rest) ← wholePart? text
  let (places, rest) ← fraction? rest
  let (exponent, rest) ← exponent? rest
  let j ← if places.isNone ∧ exponent.isNone then ofInteger? negative whole
    else
      let places := places.getD []
      ofFloat? negative ⟨digitsValue 10 (whole ++ places), exponent.getD 0 - places.length⟩
  some (j, rest)

/-- A number with a base of its own. -/
def basedNumber? (base : Nat) : Reader Json := fun text => do
  let digit? := fun c => (hexDigit? c).filter (· < base)
  let (digits, rest) ← digitRun? digit? text
  let n := digitsValue base digits
  if n < 9223372036854775808 then some (.int n, rest) else none

def specialFloat (negative : Bool) (magnitude : Nat) : Json :=
  let x : Double := ⟨UInt64.ofNat magnitude⟩
  .float (if negative then x.neg else x)

/-- A number of any form. -/
def number? (text : List Char) : Option (Json × List Char) :=
  match text with
  | '0' :: 'x' :: rest => basedNumber? 16 rest
  | '0' :: 'o' :: rest => basedNumber? 8 rest
  | '0' :: 'b' :: rest => basedNumber? 2 rest
  | text =>
    let (negative, body) := signed? text
    match body with
    | 'i' :: 'n' :: 'f' :: rest => some (specialFloat negative BinaryFormat.double.infinity, rest)
    | 'n' :: 'a' :: 'n' :: rest => some (specialFloat negative BinaryFormat.double.quietNaN, rest)
    | body => decimalNumber? negative body

/-! ## Dates and times -/

/-- A number of exactly `count` digits between two bounds. -/
def field? (count low high : Nat) : Reader Nat := fun text => do
  let digits ← (text.take count).mapM decimalDigit?
  let n := digitsValue 10 digits
  if digits.length = count ∧ low ≤ n ∧ n ≤ high then some (n, text.drop count) else none

def mark? (c : Char) : List Char → Option (List Char)
  | d :: rest => if c = d then some rest else none
  | [] => none

/-- The number of days of a month. -/
def daysOf (year month : Nat) : Nat :=
  if month = 2 then
    if year % 4 = 0 ∧ (year % 100 ≠ 0 ∨ year % 400 = 0) then 29 else 28
  else if [4, 6, 9, 11].contains month then 30
  else 31

/-- The text after a date. -/
def afterDate? (text : List Char) : Option (List Char) := do
  let (year, text) ← field? 4 0 9999 text
  let (month, text) ← field? 2 1 12 (← mark? '-' text)
  let (_, text) ← field? 2 1 (daysOf year month) (← mark? '-' text)
  some text

/-- The text after a time of day, the fraction of its second included. -/
def afterTime? (text : List Char) : Option (List Char) := do
  let (_, text) ← field? 2 0 23 text
  let (_, text) ← field? 2 0 59 (← mark? ':' text)
  let (_, text) ← field? 2 0 60 (← mark? ':' text)
  match text with
  | '.' :: rest =>
    match rest.span Char.isDigit with
    | ([], _) => none
    | (_, rest) => some rest
  | text => some text

/-- The text after the offset of a time, which may be absent. -/
def afterOffset? : List Char → Option (List Char)
  | [] => some []
  | c :: rest =>
    if c = 'Z' ∨ c = 'z' then some rest
    else if c = '+' ∨ c = '-' then do
      let (_, rest) ← field? 2 0 23 rest
      let (_, rest) ← field? 2 0 59 (← mark? ':' rest)
      some rest
    else some (c :: rest)

/-- The text after a date, a time or both. -/
def afterDateTime? (text : List Char) : Option (List Char) :=
  match afterDate? text with
  | none => afterTime? text
  | some rest =>
    match rest with
    | delimiter :: more =>
      if ['T', 't', ' '].contains delimiter then
        match afterTime? more with
        | some more => afterOffset? more
        | none => some rest
      else some rest
    | [] => some []

end Toml

end ComputeShader
