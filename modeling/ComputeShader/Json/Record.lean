import ComputeShader.Json.Basic

/-! # Decoding records

A record is written as an object with its fields by name, or as an array with its fields in order.
The fields come back in order, each absent or present, for the decoder of the record to read with
`required`, `optional` and `nullable`. Documents in different formats differ in two details, which
are a `Dialect`.
-/

namespace ComputeShader

/-- How a format of documents writes records and constants. -/
structure Dialect where
  /-- Whether items past the last one of a fixed-length array are ignored. -/
  ignoresSurplus : Bool
  /-- What stands beside a constant that is written as the key of an object. -/
  isUnit : Json → Bool

namespace Dialect

def json : Dialect where
  ignoresSurplus := false
  isUnit
    | .null => true
    | _ => false

/-- Tables have no `null`; an empty table or array takes its place. -/
def toml : Dialect where
  ignoresSurplus := true
  isUnit
    | .array items => items.isEmpty
    | .object members => members.isEmpty
    | _ => false

/-- The first `count` items, of an array that has them and no unwanted ones. -/
def take? (d : Dialect) (count : Nat) (items : List Json) : Option (List Json) :=
  if items.length < count ∨ (count < items.length ∧ !d.ignoresSurplus) then none
  else some (items.take count)

end Dialect

/-- Whether a record may have fields that nobody asked for. -/
inductive Surplus where
  | ignored
  | refused
  deriving DecidableEq, Repr, Inhabited

namespace Json

/-- The values of named fields among the members of an object, none of which may be repeated. -/
def fieldsByName? (surplus : Surplus) (names : List String) (members : List (String × Json)) :
    Option (List (Option Json)) :=
  let keys := members.map Prod.fst
  if names.any (fun name => 1 < keys.count name) then none
  else if surplus = .refused ∧ keys.any (fun key => !names.contains key) then none
  else some (names.map fun name => members.lookup name)

/-- The fields of a record in the order of `names`. -/
def fields? (d : Dialect) (surplus : Surplus) (names : List String) :
    Json → Option (List (Option Json))
  | object members => fieldsByName? surplus names members
  | array items =>
    if names.length < items.length ∧ !d.ignoresSurplus then none
    else some ((List.range names.length).map fun i => items[i]?)
  | _ => none

/-! ## Reading fields -/

/-- A field that must be there. -/
def required {α : Type} (read : Json → Option α) (field : Option Json) : Option α := field.bind read

/-- A field with a value that stands for it when it is absent. -/
def optional {α : Type} (absent : α) (read : Json → Option α) : Option Json → Option α
  | none => some absent
  | some j => read j

/-- A field that may also be `null`, which means absent. -/
def nullable {α : Type} (read : Json → Option α) : Option Json → Option (Option α)
  | none | some null => some none
  | some j => (read j).map some

/-- A list of values. -/
def listOf {α : Type} (read : Json → Option α) : Json → Option (List α)
  | array items => items.mapM read
  | _ => none

/-- One of several constants, written as its name or as the only key of an object. -/
def constant {α : Type} (d : Dialect) (all : List α) (name : α → String) : Json → Option α
  | string s => all.find? (fun a => name a = s)
  | object [(s, j)] => if d.isUnit j then all.find? (fun a => name a = s) else none
  | _ => none

/-- A list of `count` numbers below 2^32. -/
def counts (d : Dialect) (count : Nat) : Json → Option (List UInt32)
  | array items => (d.take? count items).bind fun items => items.mapM asUInt32?
  | _ => none

end Json

end ComputeShader
