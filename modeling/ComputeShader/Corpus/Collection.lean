import ComputeShader.Files.Tree

/-! # Collecting cases

A corpus is a directory of cases: each directory below it that holds a file of the right name is
one. Directories for build products are left out, with all that is below them.
-/

namespace ComputeShader

/-- The file that makes a directory a case. -/
def caseFileName : String := "case.toml"

/-- The directory whose contents do not count. -/
def productDirectory : String := "target"

/-- The name of the case at a path relative to its corpus. -/
def caseName (path : String) : String :=
  "fixtures::" ++ String.join (path.toList.map fun c =>
    if c = '/' ∨ c = '\\' then "::" else c.toString)

namespace FileTree

def hasCaseFile (entries : List (String × FileTree)) : Bool :=
  match entries.lookup caseFileName with
  | some (file _) => true
  | _ => false

mutual

/-- The paths of the cases in a directory, itself at `path`, each before those below it. -/
def cases (path : List String) : FileTree → List (List String)
  | file _ => []
  | directory entries =>
    (if hasCaseFile entries then [path] else []) ++ casesIn path entries

def casesIn (path : List String) : List (String × FileTree) → List (List String)
  | [] => []
  | (name, t) :: rest =>
    (if name = productDirectory then [] else cases (path ++ [name]) t) ++ casesIn path rest

end

/-- The cases of the corpus at a path, in the order of their paths. -/
def collectCases (t : FileTree) (root : String) : Except FileError (List String) := do
  if Path.fileName? root = some productDirectory then return []
  match t.get? (← t.resolve root) with
  | some (directory entries) => return ((directory entries).cases []).map "/".intercalate
  | some (file _) => throw .notDirectory
  | none => throw .notFound

end FileTree

end ComputeShader
