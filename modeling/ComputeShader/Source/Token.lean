/-! # Tokens

The tokens of shader source text, with the exact text of every keyword and symbol.
-/

namespace ComputeShader

/-- A place in a source text: the line, and the column in bytes, both counted from one. -/
structure Position where
  line : Nat
  column : Nat
  deriving DecidableEq, Repr, Inhabited

namespace Position

def start : Position := ⟨1, 1⟩

/-- The place after a character. -/
def advance (p : Position) (c : Char) : Position :=
  if c = '\n' then ⟨p.line + 1, 1⟩ else ⟨p.line, p.column + c.utf8Size⟩

end Position

inductive Keyword where
  | layout
  | buffer
  | uniform
  | input
  | precision
  | void
  | branch
  | otherwise
  | leave
  | yes
  | no
  deriving DecidableEq, Repr, Inhabited

namespace Keyword

def text : Keyword → String
  | layout => "layout"
  | buffer => "buffer"
  | uniform => "uniform"
  | input => "in"
  | precision => "precision"
  | void => "void"
  | branch => "if"
  | otherwise => "else"
  | leave => "return"
  | yes => "true"
  | no => "false"

def all : List Keyword :=
  [layout, buffer, uniform, input, precision, void, branch, otherwise, leave, yes, no]

def ofText? (text : String) : Option Keyword :=
  all.find? (fun k => k.text = text)

end Keyword

inductive Symbol where
  | parenOpen
  | parenClose
  | braceOpen
  | braceClose
  | bracketOpen
  | bracketClose
  | semicolon
  | comma
  | dot
  | question
  | colon
  | assign
  | plusAssign
  | minusAssign
  | starAssign
  | plus
  | minus
  | star
  | slash
  | percent
  | amp
  | pipe
  | caret
  | tilde
  | bang
  | shiftLeft
  | shiftRight
  | less
  | greater
  | lessEqual
  | greaterEqual
  | equal
  | notEqual
  | andAnd
  | orOr
  deriving DecidableEq, Repr, Inhabited

namespace Symbol

def chars : Symbol → List Char
  | parenOpen => ['(']
  | parenClose => [')']
  | braceOpen => ['{']
  | braceClose => ['}']
  | bracketOpen => ['[']
  | bracketClose => [']']
  | semicolon => [';']
  | comma => [',']
  | dot => ['.']
  | question => ['?']
  | colon => [':']
  | assign => ['=']
  | plusAssign => ['+', '=']
  | minusAssign => ['-', '=']
  | starAssign => ['*', '=']
  | plus => ['+']
  | minus => ['-']
  | star => ['*']
  | slash => ['/']
  | percent => ['%']
  | amp => ['&']
  | pipe => ['|']
  | caret => ['^']
  | tilde => ['~']
  | bang => ['!']
  | shiftLeft => ['<', '<']
  | shiftRight => ['>', '>']
  | less => ['<']
  | greater => ['>']
  | lessEqual => ['<', '=']
  | greaterEqual => ['>', '=']
  | equal => ['=', '=']
  | notEqual => ['!', '=']
  | andAnd => ['&', '&']
  | orOr => ['|', '|']

def all : List Symbol :=
  [parenOpen, parenClose, braceOpen, braceClose, bracketOpen, bracketClose, semicolon, comma, dot,
    question, colon, assign, plusAssign, minusAssign, starAssign, plus, minus, star, slash, percent,
    amp, pipe, caret, tilde, bang, shiftLeft, shiftRight, less, greater, lessEqual, greaterEqual,
    equal, notEqual, andAnd, orOr]

def ofChars? (chars : List Char) : Option Symbol :=
  all.find? (fun s => s.chars = chars)

end Symbol

/-- What a token is; the text of the other kinds varies and is kept with the token. -/
inductive TokenKind where
  | directive
  | identifier
  | floatLiteral
  | intLiteral
  | keyword (k : Keyword)
  | symbol (s : Symbol)
  deriving DecidableEq, Repr, Inhabited

/-- A token with its text and where it starts. -/
structure Token where
  kind : TokenKind
  lexeme : String
  pos : Position
  deriving DecidableEq, Repr, Inhabited

end ComputeShader
