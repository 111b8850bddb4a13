import ComputeShader.Shader.Fault

/-! # Reading tokens

The state of the parser is the place where it stands among the tokens and what the names read so far
stand for. The functions here are the only ones that move on. Most of them look at the token that they
move over; `skip` does not, and may be left to stand beyond the last token.
-/

namespace ComputeShader

/-- What a declared name stands for. -/
inductive NameEntry where
  | entity (e : Entity)
  | uniform (slot : Nat)
  | localVar (slot : Nat)
  deriving DecidableEq, Repr, Inhabited

/-- The tokens in front of the parser and, when none are left, how far beyond the last one it stands; the
place of the last token of the text; and the declarations. -/
structure ParserState where
  rest : List Token
  beyond : Nat
  lastPos : Position
  names : List (String × NameEntry)
  buffers : List BufferDecl
  locals : List LocalDecl
  deriving Repr, Inhabited

abbrev Parser := StateT ParserState (Except SourceError)

namespace Parser

def precisionQualifiers : List String := ["highp", "mediump", "lowp"]

/-- The place of the next token, or of the last one at the end of the text. -/
def ParserState.here (s : ParserState) : Position :=
  match s.rest with
  | t :: _ => t.pos
  | [] => s.lastPos

def failAt {α : Type} (pos : Position) (fault : SourceFault) : Parser α :=
  throw ⟨pos, fault⟩

/-- Fail at the next token because it is not what is wanted. -/
def failUnmet {α : Type} (want : Unmet) : Parser α := do
  let s ← get
  failAt (ParserState.here s) (.unmet want (s.rest.head?.map Token.lexeme))

/-! ## Looking ahead -/

def peek? : Parser (Option TokenKind) := do
  return (← get).rest.head?.map Token.kind

def here : Parser Position := do
  return ParserState.here (← get)

/-- The text of a token if it is an identifier. -/
def Token.identifier? (t : Token) : Option String :=
  if t.kind = .identifier then some t.lexeme else none

def peekIdentifier? : Parser (Option String) := do
  return (← get).rest.head?.bind Token.identifier?

def lookup? (name : String) : Parser (Option NameEntry) := do
  return (← get).names.lookup name

/-! ## Taking tokens -/

def next? : Parser (Option Token) := do
  let s ← get
  match s.rest with
  | [] => return none
  | t :: rest =>
    set { s with rest }
    return some t

/-- Move one place on, whether or not there is a token to move over. -/
def skip : Parser Unit :=
  modify fun s => match s.rest with
    | [] => { s with beyond := s.beyond + 1 }
    | _ :: rest => { s with rest }

/-- Move on over all tokens that satisfy a predicate. -/
def skipWhile (p : Token → Bool) : Parser Unit :=
  modify fun s => { s with rest := s.rest.dropWhile p }

/-- Take the next token if it is of a given kind. -/
def consume (kind : TokenKind) : Parser Bool := do
  if (← peek?) = some kind then
    skip
    return true
  else return false

def consumeSymbol (s : Symbol) : Parser Bool := consume (.symbol s)

/-- Take the next token, which must be of a given kind. -/
def expect (kind : TokenKind) (what : String) : Parser Token := do
  let s ← get
  match s.rest with
  | t :: rest =>
    if t.kind = kind then
      set { s with rest }
      return t
    else failUnmet (.expected what)
  | [] => failUnmet (.expected what)

def expectSymbol (s : Symbol) : Parser Unit := do
  let _ ← expect (.symbol s) ("`" ++ String.ofList s.chars ++ "`")

def expectKeyword (k : Keyword) : Parser Unit := do
  let _ ← expect (.keyword k) ("`" ++ k.text ++ "`")

def expectIdentifier (what : String) : Parser Token :=
  expect .identifier what

/-! ## Literals -/

/-- The digits and the base of an integer literal; a leading zero marks octal digits. -/
def integerDigits (digits : List Char) : Nat × List Char :=
  match digits with
  | '0' :: 'x' :: rest => (16, rest)
  | '0' :: 'X' :: rest => (16, rest)
  | '0' :: d :: rest => (8, d :: rest)
  | digits => (10, digits)

/-- The value of a digit in a base. -/
def digitIn? (base : Nat) (c : Char) : Option Nat :=
  let d? :=
    if c.isDigit then some (c.toNat - '0'.toNat)
    else if 'a' ≤ c ∧ c ≤ 'f' then some (c.toNat - 'a'.toNat + 10)
    else if 'A' ≤ c ∧ c ≤ 'F' then some (c.toNat - 'A'.toNat + 10)
    else none
  d?.filter (· < base)

/-- The value of an integer literal, which must fit in 32 bits; without `u` it is an `int` with the
same bits. -/
def integerValue? (text : String) : Option Scalar :=
  let chars := text.toList
  let isMark (c : Char) : Bool := c == 'u' || c == 'U'
  let isUnsigned := chars.getLast?.any isMark
  let (base, digits) := integerDigits (if isUnsigned then chars.dropLast else chars)
  ((digits.mapM (digitIn? base)).map fun ds => ds.foldl (fun n d => n * base + d) 0).bind fun n =>
    if n < 4294967296 then
      let bits := UInt32.ofNat n
      some (if isUnsigned then .uint bits else .int bits.toInt32)
    else none

def integerLiteral (t : Token) : Parser Scalar :=
  match integerValue? t.lexeme with
  | some s => pure s
  | none => failAt t.pos (.integerTooLarge t.lexeme)

/-- The value of a float literal, rounded once. -/
def floatLiteral (t : Token) : Parser Scalar :=
  let digits := (t.lexeme.toList.reverse.dropWhile fun c => c == 'f' || c == 'F').reverse
  match Numeral.parse? digits with
  | some n => pure (.float (Single.ofNumeral false n))
  | none => failAt t.pos (.invalidFloat t.lexeme)

/-- An integer literal that is not negative as an `int`. -/
def expectCount : Parser UInt32 := do
  let t ← expect .intLiteral "an integer"
  match ← integerLiteral t with
  | .uint u => return u
  | .int i => if i < 0 then failAt t.pos .negativeInteger else return i.toUInt32
  | _ => failAt t.pos .negativeInteger

end Parser

end ComputeShader
