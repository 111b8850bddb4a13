/-! # Paths

Paths are texts with slashes between their parts. Empty parts and single points mean nothing but at
the beginning.
-/

namespace ComputeShader.Path

/-- The parts between slashes. -/
def parts (path : String) : List String := path.splitOn "/"

def isIdle (part : String) : Bool := part == "" || part == "."

/-- Parts without idle ones at the end, of which the first part stays. -/
def dropIdle : List String → List String
  | [] => []
  | first :: rest => first :: (rest.reverse.dropWhile isIdle).reverse

/-- A path and a path below it; an absolute path is below nothing. -/
def join (base path : String) : String :=
  if base = "" ∨ path.startsWith "/" then path
  else if base.endsWith "/" then base ++ path
  else base ++ "/" ++ path

/-- The directory that holds what a path names, empty for a lone name. -/
def parent (path : String) : String :=
  match (dropIdle (parts path)).dropLast with
  | [""] => "/"
  | directory => "/".intercalate (dropIdle directory)

/-- The last part of a path, unless that leads upwards. -/
def fileName? (path : String) : Option String :=
  match (dropIdle (parts path)).getLast? with
  | some name => if isIdle name || name == ".." then none else some name
  | none => none

/-- A name without what follows its last point; a point in front does not count. -/
def stem (name : String) : String :=
  match (name.splitOn ".").dropLast with
  | [] | [""] => name
  | parts => ".".intercalate parts

/-- The last part of a path without its extension, or the whole path if it has none. -/
def fileStem (path : String) : String := ((fileName? path).map stem).getD path

/-- How a character is shown in a quoted path. -/
def quoteChar (c : Char) : List Char :=
  match c with
  | '\t' => ['\\', 't']
  | '\n' => ['\\', 'n']
  | '\r' => ['\\', 'r']
  | '"' => ['\\', '"']
  | '\'' => ['\\', '\'']
  | '\\' => ['\\', '\\']
  | '\x00' => ['\\', '0']
  | c =>
    if c.toNat < 0x20 ∨ (0x7f ≤ c.toNat ∧ c.toNat < 0xa0) then
      ['\\', 'u', '\x7b'] ++ Nat.toDigits 16 c.toNat ++ ['\x7d']
    else [c]

/-- A path in quotes. -/
def quoted (path : String) : String :=
  String.ofList ('"' :: path.toList.flatMap quoteChar ++ ['"'])

end ComputeShader.Path
