import ComputeShader.Files.Access
import ComputeShader.Files.Path

/-! # File trees

A file system as a value: directories hold named files and directories in ascending order of their
names. Paths are resolved from the root of the tree, `..` going back to the directory above.
-/

namespace ComputeShader

inductive FileTree where
  | file (text : String)
  | directory (entries : List (String × FileTree))
  deriving Repr, Inhabited

namespace FileTree

def empty : FileTree := directory []

/-- Change what a name stands for in ascending entries. -/
def alterEntry (name : String) (f : Option FileTree → FileTree) :
    List (String × FileTree) → List (String × FileTree)
  | [] => [(name, f none)]
  | (n, t) :: rest =>
    if n = name then (n, f (some t)) :: rest
    else if name < n then (name, f none) :: (n, t) :: rest
    else (n, t) :: alterEntry name f rest

/-- Put a file at a place, given by names, with all directories on the way. -/
def insert (text : String) : List String → FileTree → FileTree
  | [], _ => file text
  | name :: names, t =>
    let entries := match t with
      | directory entries => entries
      | file _ => []
    directory (alterEntry name (fun old => insert text names (old.getD empty)) entries)

/-- The tree of files with given paths and texts. -/
def ofFiles (files : List (String × String)) : FileTree :=
  files.foldl (fun t (path, text) => t.insert text (Path.parts path)) empty

/-- What stands at a place. -/
def get? (t : FileTree) : List String → Option FileTree
  | [] => some t
  | name :: names =>
    match t with
    | directory entries => (entries.lookup name).bind fun t => t.get? names
    | file _ => none

/-- Follow one part of a path from a place. -/
def follow (t : FileTree) (place : List String) (part : String) :
    Except FileError (List String) :=
  match t.get? place with
  | some (directory entries) =>
    if Path.isIdle part then .ok place
    else if part = ".." then .ok place.dropLast
    else if (entries.lookup part).isSome then .ok (place ++ [part])
    else .error .notFound
  | some (file _) => .error .notDirectory
  | none => .error .notFound

/-- The place that a path leads to. -/
def resolve (t : FileTree) (path : String) : Except FileError (List String) :=
  if path = "" then .error .notFound else (Path.parts path).foldlM t.follow []

def read (t : FileTree) (path : String) : Except FileError String := do
  match t.get? (← t.resolve path) with
  | some (file text) => .ok text
  | some (directory _) => .error .isDirectory
  | none => .error .notFound

/-- The tree with a file written. Its directory must be there. -/
def write (t : FileTree) (path text : String) : Except FileError FileTree := do
  if path = "" then throw .notFound
  let parts := Path.parts path
  let place ← parts.dropLast.foldlM t.follow []
  let name := parts.getLastD ""
  match t.get? place with
  | some (directory entries) =>
    if Path.isIdle name || name == ".." then throw .isDirectory
    match entries.lookup name with
    | some (directory _) => throw .isDirectory
    | _ => return t.insert text (place ++ [name])
  | some (file _) => throw .notDirectory
  | none => throw .notFound

/-- Access to the files of a tree. -/
def access : FileAccess (StateM FileTree) where
  read path := do return (← MonadState.get).read path
  write path text := do
    match (← MonadState.get).write path text with
    | .ok t =>
      set t
      return .ok ()
    | .error e => return .error e

end FileTree

end ComputeShader
