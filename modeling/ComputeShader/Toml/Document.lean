import ComputeShader.Json.Basic

/-! # TOML tables

A document is a sequence of headers and assignments. `Table.ofStatements?` puts them together and
refuses what the format forbids: to assign a key twice, to open a table twice, to extend a value,
and to mix dotted keys with tables that have a header of their own.
-/

namespace ComputeShader

namespace Toml

/-- A line of a document that says something. -/
inductive Statement where
  /-- `[path]` -/
  | header (path : List String)
  /-- `[[path]]` -/
  | arrayHeader (path : List String)
  /-- `path.key = value` -/
  | assign (path : List String) (key : String) (value : Json)
  deriving Repr, Inhabited

/-- How a table came into being. -/
inductive Origin where
  /-- By a header of its own. -/
  | header
  /-- As a part of the path of another header. -/
  | path
  /-- By dotted keys. -/
  | dotted
  deriving DecidableEq, Repr, Inhabited

/-- What a key stands for. -/
inductive Node where
  | value (j : Json)
  | table (origin : Origin) (entries : List (String × Node))
  /-- The tables of an array, the last one first. -/
  | tables (items : List (List (String × Node)))
  deriving Repr, Inhabited

abbrev Entries := List (String × Node)

/-- Change what a key stands for. -/
def alter (key : String) (f : Option Node → Option Node) : Entries → Option Entries
  | [] => (f none).map fun node => [(key, node)]
  | (k, node) :: rest =>
    if k = key then (f (some node)).map fun node => (k, node) :: rest
    else (alter key f rest).map ((k, node) :: ·)

/-- Change the table at the end of the path of a header. Tables on the way come into being; of an
array of tables the last one is meant. -/
def atPath (f : Entries → Option Entries) : List String → Entries → Option Entries
  | [], entries => f entries
  | key :: path, entries =>
    alter key (fun
      | none => (atPath f path []).map (.table .path)
      | some (.table origin inner) => (atPath f path inner).map (.table origin)
      | some (.tables (last :: others)) =>
        (atPath f path last).map fun last => .tables (last :: others)
      | some (.tables []) | some (.value _) => none) entries

/-- Put a value at a key that stands for nothing yet. -/
def put (key : String) (value : Json) : Entries → Option Entries :=
  alter key fun
    | none => some (.value value)
    | some _ => none

/-- Assign to a dotted key. All tables on the way belong to dotted keys, or the last of them would
be one that a header made. -/
def assignAt (key : String) (value : Json) : List String → Entries → Option Entries
  | [], entries => put key value entries
  | step :: path, entries =>
    alter step (fun
      | none => (assignAt key value path []).map (.table .dotted)
      | some (.table .dotted inner) => (assignAt key value path inner).map (.table .dotted)
      | some (.table .path inner) =>
        if path.isEmpty then none else (assignAt key value path inner).map (.table .path)
      | some (.tables (last :: others)) =>
        if path.isEmpty then none
        else (assignAt key value path last).map fun last => .tables (last :: others)
      | some (.tables []) | some (.table .header _) | some (.value _) => none) entries

/-- Open a table, which may so far only have been part of the path of another one. -/
def openTable (key : String) : Entries → Option Entries :=
  alter key fun
    | none => some (.table .header [])
    | some (.table .path inner) => some (.table .header inner)
    | some _ => none

/-- Open the next table of an array. -/
def openNext (key : String) : Entries → Option Entries :=
  alter key fun
    | none => some (.tables [[]])
    | some (.tables items) => some (.tables ([] :: items))
    | some _ => none

/-- The path of the table in which assignments are made, and everything said so far. -/
structure Draft where
  current : List String := []
  entries : Entries := []
  deriving Repr, Inhabited

/-- Change the table at the end of a path by a function of the last key. -/
def atParent (f : String → Entries → Option Entries) (path : List String) (entries : Entries) :
    Option Entries :=
  match path.getLast? with
  | some key => atPath (f key) path.dropLast entries
  | none => none

def Draft.add (d : Draft) : Statement → Option Draft
  | .header path => (atParent openTable path d.entries).map (⟨path, ·⟩)
  | .arrayHeader path => (atParent openNext path d.entries).map (⟨path, ·⟩)
  | .assign path key value =>
    (atPath (assignAt key value path) d.current d.entries).map fun entries => { d with entries }

mutual

def Node.toJson : Node → Json
  | .value j => j
  | .table _ entries => .object (Entries.toMembers entries)
  | .tables items => .array (Entries.toItems items).reverse

def Entries.toMembers : List (String × Node) → List (String × Json)
  | [] => []
  | (key, node) :: rest => (key, node.toJson) :: Entries.toMembers rest

def Entries.toItems : List (List (String × Node)) → List Json
  | [] => []
  | entries :: rest => .object (Entries.toMembers entries) :: Entries.toItems rest

end

/-- The table that a sequence of statements describes. -/
def ofStatements? (statements : List Statement) : Option Json :=
  (statements.foldlM Draft.add {}).map fun d => .object (Entries.toMembers d.entries)

end Toml

end ComputeShader
