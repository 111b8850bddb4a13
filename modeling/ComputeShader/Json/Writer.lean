import ComputeShader.Json.Basic

/-! # Writing JSON

Two layouts: `compact` without any blanks, and `pretty` with one item or member per line, indented
by two spaces per level. Strings escape quotes, backslashes and control characters only.
-/

namespace ComputeShader

namespace Json

/-- A hexadecimal digit in lower case. -/
def hexChar (n : Nat) : Char :=
  if n < 10 then Char.ofNat ('0'.toNat + n) else Char.ofNat ('a'.toNat + n - 10)

/-- A character inside a string. -/
def escapeChar (c : Char) : List Char :=
  match c with
  | '"' => ['\\', '"']
  | '\\' => ['\\', '\\']
  | '\x08' => ['\\', 'b']
  | '\x0c' => ['\\', 'f']
  | '\n' => ['\\', 'n']
  | '\r' => ['\\', 'r']
  | '\t' => ['\\', 't']
  | c =>
    if c.toNat < 0x20 then
      ['\\', 'u', '0', '0', hexChar (c.toNat / 16), hexChar (c.toNat % 16)]
    else [c]

def quote (s : String) : List Char :=
  '"' :: s.toList.flatMap escapeChar ++ ['"']

/-- A number, a string or a constant. -/
def atom : Json → List Char
  | null => ['n', 'u', 'l', 'l']
  | bool true => ['t', 'r', 'u', 'e']
  | bool false => ['f', 'a', 'l', 's', 'e']
  | int i => (toString i).toList
  | float x => x.text.toList
  | string s => quote s
  | array _ | object _ | unreadable => []

/-- A line break and the indentation of a level. -/
def newLine (level : Nat) : List Char :=
  '\n' :: List.replicate (2 * level) ' '

mutual

/-- The text of a value; `level` is the depth of indentation, absent in the compact layout. -/
def write (level : Option Nat) : Json → List Char
  | array [] => ['[', ']']
  | array items =>
    '[' :: writeItems (level.map (· + 1)) true items ++ (level.map newLine).getD [] ++ [']']
  | object [] => ['{', '}']
  | object members =>
    '{' :: writeMembers (level.map (· + 1)) true members ++ (level.map newLine).getD [] ++ ['}']
  | j => atom j

def writeItems (level : Option Nat) (isFirst : Bool) : List Json → List Char
  | [] => []
  | j :: rest =>
    (if isFirst then [] else [',']) ++ (level.map newLine).getD [] ++ write level j ++
      writeItems level false rest

def writeMembers (level : Option Nat) (isFirst : Bool) : List (String × Json) → List Char
  | [] => []
  | (key, j) :: rest =>
    (if isFirst then [] else [',']) ++ (level.map newLine).getD [] ++ quote key ++
      (if level.isSome then [':', ' '] else [':']) ++ write level j ++ writeMembers level false rest

end

/-- The text without blanks. -/
def compact (j : Json) : String := String.ofList (write none j)

/-- The text with one item per line. -/
def pretty (j : Json) : String := String.ofList (write (some 0) j)

end Json

end ComputeShader
