import ComputeShader.Toml.Document
import ComputeShader.Toml.Scalar

/-! # Reading TOML

`Toml.parse?` reads a whole document as an object. Dates and times are valid but unreadable values.
Arrays and inline tables nest at most `nestingLimit` deep, and a dotted key has at most as many
parts.
-/

namespace ComputeShader

namespace Toml

def nestingLimit : Nat := 79

/-! ## Keys -/

def isBareKeyChar (c : Char) : Bool := c.isAlphanum || c == '-' || c == '_'

/-- One part of a key: bare or quoted. -/
def keyPart? (text : List Char) : Option (String × List Char) :=
  match text with
  | '"' :: rest => (basicString (rest.length + 1) rest).map fun (cs, rest) => (String.ofList cs, rest)
  | '\'' :: rest => (literalString rest).map fun (cs, rest) => (String.ofList cs, rest)
  | text =>
    match text.span isBareKeyChar with
    | ([], _) => none
    | (cs, rest) => some (String.ofList cs, rest)

/-- The parts of a key with points between them; blanks may stand around each part. -/
def keyParts : Nat → Reader (List String)
  | 0, _ => none
  | fuel + 1, text => do
    let (part, rest) ← keyPart? (skipBlanks text)
    match skipBlanks rest with
    | '.' :: rest =>
      let (parts, rest) ← keyParts fuel rest
      some (part :: parts, rest)
    | rest => some ([part], rest)

def key? : Reader (List String) := keyParts nestingLimit

/-- A key and the text after the equals sign that follows it. -/
def assigned? (text : List Char) : Option ((List String × String) × List Char) := do
  let (parts, rest) ← key? text
  match parts.getLast?, rest with
  | some last, '=' :: rest => some ((parts.dropLast, last), skipBlanks rest)
  | _, _ => none

/-! ## Values -/

/-- The text after blanks, line breaks and comments. -/
def skipFiller : Nat → List Char → List Char
  | 0, text => text
  | fuel + 1, text =>
    match skipSpace text with
    | '#' :: rest => skipFiller fuel (rest.dropWhile isCommentChar)
    | rest => rest

def filled (text : List Char) : List Char := skipFiller (text.length + 1) text

/-- A value that holds no others. -/
def atom? (text : List Char) : Option (Json × List Char) :=
  match text with
  | 't' :: rest => (after? ['r', 'u', 'e'] rest).map fun rest => (.bool true, rest)
  | 'f' :: rest => (after? ['a', 'l', 's', 'e'] rest).map fun rest => (.bool false, rest)
  | '"' :: _ | '\'' :: _ => (stringValue text).map fun (s, rest) => (.string s, rest)
  | text =>
    match afterDateTime? text with
    | some rest => some (.unreadable, rest)
    | none => number? text

mutual

/-- A value, and the text after it; containers nest at most `depth` deep. -/
def value? : Nat → Nat → Reader Json
  | 0, _, _ => none
  | fuel + 1, depth, text =>
    match text, depth with
    | '[' :: _, 0 | '\x7b' :: _, 0 => none
    | '[' :: rest, depth + 1 =>
      match filled rest with
      | ']' :: rest => some (.array [], rest)
      | rest => (items? fuel depth rest).map fun (items, rest) => (.array items, rest)
    | '\x7b' :: rest, depth + 1 => do
      let (statements, rest) ← match skipBlanks rest with
        | '\x7d' :: rest => some ([], rest)
        | rest => members? fuel depth rest
      some (← ofStatements? statements, rest)
    | text, _ => atom? text

/-- One or more items of an array, its closing bracket and the text after it. -/
def items? : Nat → Nat → Reader (List Json)
  | 0, _, _ => none
  | fuel + 1, depth, text => do
    let (item, rest) ← value? fuel depth text
    match filled rest with
    | ']' :: rest => some ([item], rest)
    | ',' :: rest =>
      match filled rest with
      | ']' :: rest => some ([item], rest)
      | rest =>
        let (items, rest) ← items? fuel depth rest
        some (item :: items, rest)
    | _ => none

/-- One or more assignments of an inline table, its closing brace and the text after it. -/
def members? : Nat → Nat → Reader (List Statement)
  | 0, _, _ => none
  | fuel + 1, depth, text => do
    let ((path, key), rest) ← assigned? text
    let (j, rest) ← value? fuel depth rest
    match skipBlanks rest with
    | '\x7d' :: rest => some ([.assign path key j], rest)
    | ',' :: rest =>
      let (statements, rest) ← members? fuel depth rest
      some (.assign path key j :: statements, rest)
    | _ => none

end

/-! ## Lines -/

/-- The text after the end of a line, on which only blanks and a comment may follow. -/
def afterLine? (text : List Char) : Option (List Char) :=
  let rest := match skipBlanks text with
    | '#' :: rest => rest.dropWhile isCommentChar
    | rest => rest
  if rest.isEmpty then some [] else afterBreak? rest

/-- The path of a header, closed by brackets. -/
def headerPath? (close : List Char) (text : List Char) : Option (List String × List Char) := do
  let (path, rest) ← key? text
  some (path, ← after? close rest)

/-- A line that starts with something other than a blank, a comment or its end. -/
def statement? (text : List Char) : Option (Statement × List Char) :=
  match text with
  | '[' :: '[' :: rest =>
    (headerPath? [']', ']'] rest).map fun (path, rest) => (.arrayHeader path, rest)
  | '[' :: rest => (headerPath? [']'] rest).map fun (path, rest) => (.header path, rest)
  | text => do
    let ((path, key), rest) ← assigned? text
    let (j, rest) ← value? (2 * rest.length + 2) nestingLimit rest
    some (.assign path key j, rest)

/-- The statements of the lines of a document. -/
def statements? : Nat → List Char → Option (List Statement)
  | 0, _ => none
  | fuel + 1, text =>
    match skipBlanks text with
    | [] => some []
    | c :: rest =>
      if c = '#' ∨ c = '\n' ∨ c = '\r' then do
        statements? fuel (← afterLine? (c :: rest))
      else do
        let (s, rest) ← statement? (c :: rest)
        let ss ← statements? fuel (← afterLine? rest)
        some (s :: ss)

/-- The document that a text holds. A byte order mark may stand in front of it. -/
def parse? (text : String) : Option Json := do
  let text := match text.toList with
    | '\ufeff' :: text => text
    | text => text
  ofStatements? (← statements? (text.length + 1) text)

end Toml

end ComputeShader
