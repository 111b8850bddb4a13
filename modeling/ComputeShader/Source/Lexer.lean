import ComputeShader.Source.Token

/-! # Splitting source text into tokens

At every place the longest text that any rule matches is taken: a token, or blanks and comments,
which are dropped. `munch` finds that text for a first character and what follows it, and says how
many of the following characters belong to it, so that every step consumes input.
-/

namespace ComputeShader

/-- Text that starts no token, or a comment that is never closed. -/
structure LexicalError where
  text : String
  pos : Position
  deriving DecidableEq, Repr

/-- What the longest match is. -/
inductive Match where
  | token (kind : TokenKind)
  | blank
  | invalid
  deriving DecidableEq, Repr

namespace Lexer

def isBlank (c : Char) : Bool :=
  c == ' ' || c == '\t' || c == '\r' || c == '\n' || c == '\x0c'

def isWordStart (c : Char) : Bool := c.isAlpha || c == '_'

def isWordPart (c : Char) : Bool := c.isAlphanum || c == '_'

def isHexDigit (c : Char) : Bool :=
  c.isDigit || ('a' ≤ c && c ≤ 'f') || ('A' ≤ c && c ≤ 'F')

/-- The number of leading characters of a class. -/
def span (p : Char → Bool) (text : List Char) : Nat :=
  (text.takeWhile p).length

/-- The length of an optional mark at the start. -/
def optional (p : Char → Bool) : List Char → Nat
  | c :: _ => if p c then 1 else 0
  | [] => 0

/-- The length of an exponent: `e`, an optional sign and at least one digit. -/
def exponentLength : List Char → Nat
  | mark :: rest =>
    let sign := optional (fun c => c == '+' || c == '-') rest
    let digits := span Char.isDigit (rest.drop sign)
    if (mark == 'e' || mark == 'E') && 0 < digits then 1 + sign + digits else 0
  | [] => 0

/-- An exponent, if there is one, and an optional float mark. -/
def floatTail (text : List Char) : Nat :=
  let exponent := exponentLength text
  exponent + optional (fun c => c == 'f' || c == 'F') (text.drop exponent)

def unsignedMark : List Char → Nat :=
  optional (fun c => c == 'u' || c == 'U')

/-- The digits of a hexadecimal literal after its leading zero, if there are any. -/
def hexTail : List Char → Nat
  | mark :: rest =>
    let digits := span isHexDigit rest
    if (mark == 'x' || mark == 'X') && 0 < digits then
      1 + digits + unsignedMark (rest.drop digits)
    else 0
  | [] => 0

/-- A literal that starts with a digit. -/
def munchNumber (first : Char) (text : List Char) : Match × Nat :=
  let hex := if first = '0' then hexTail text else 0
  if 0 < hex then (.token .intLiteral, hex)
  else
    let digits := span Char.isDigit text
    match text.drop digits with
    | '.' :: rest =>
      let places := span Char.isDigit rest
      (.token .floatLiteral, digits + 1 + places + floatTail (rest.drop places))
    | rest =>
      if 0 < exponentLength rest then (.token .floatLiteral, digits + floatTail rest)
      else (.token .intLiteral, digits + unsignedMark rest)

/-- The number of characters up to and including the first `*/`. -/
def commentLength? : List Char → Option Nat
  | '*' :: '/' :: _ => some 2
  | _ :: rest => (commentLength? rest).map (· + 1)
  | [] => none

/-- The longest symbol. -/
def munchSymbol (first : Char) (text : List Char) : Match × Nat :=
  let long := match text with
    | second :: _ => Symbol.ofChars? [first, second]
    | [] => none
  match long with
  | some s => (.token (.symbol s), 1)
  | none =>
    match Symbol.ofChars? [first] with
    | some s => (.token (.symbol s), 0)
    | none => (.invalid, 0)

/-- The longest match that starts with `first`, and how much of the text after it belongs to it. -/
def munch (first : Char) (text : List Char) : Match × Nat :=
  if isBlank first then (.blank, span isBlank text)
  else if first = '#' then (.token .directive, span (· != '\n') text)
  else if isWordStart first then
    let length := span isWordPart text
    match Keyword.ofText? (String.ofList (first :: text.take length)) with
    | some k => (.token (.keyword k), length)
    | none => (.token .identifier, length)
  else if first.isDigit then munchNumber first text
  else
    match first, text with
    | '.', second :: rest =>
      if second.isDigit then
        let places := span Char.isDigit (second :: rest)
        (.token .floatLiteral, places + floatTail ((second :: rest).drop places))
      else munchSymbol first text
    | '/', '/' :: rest => (.blank, 1 + span (· != '\n') rest)
    | '/', '*' :: rest =>
      match commentLength? rest with
      | some length => (.blank, 1 + length)
      | none => (.invalid, text.length)
    | _, _ => munchSymbol first text

/-- The tokens of a text, after the first `skip` characters, which belong to the match before. -/
def scan : Nat → Position → List Char → Except LexicalError (List Token)
  | _, _, [] => .ok []
  | skip + 1, pos, c :: text => scan skip (pos.advance c) text
  | 0, pos, c :: text =>
    let (found, length) := munch c text
    match found with
    | .blank => scan length (pos.advance c) text
    | .invalid => .error ⟨String.ofList (c :: text.take length), pos⟩
    | .token kind => do
      let rest ← scan length (pos.advance c) text
      .ok (⟨kind, String.ofList (c :: text.take length), pos⟩ :: rest)

end Lexer

/-- The tokens of a source text. -/
def tokenize (source : String) : Except LexicalError (List Token) :=
  Lexer.scan 0 Position.start source.toList

end ComputeShader
