import ComputeShader.Numeric.Double

/-! # JSON values

Numbers are integers or doubles, depending on how they are written. Objects keep their members in
order, a repeated key included; which of them counts is left to whoever reads the object. Text that
has the form of a value but stands for none, such as a number beyond all doubles, is `unreadable`:
it may stand where nobody looks.
-/

namespace ComputeShader

inductive Json where
  | null
  | bool (b : Bool)
  | int (i : Int)
  | float (x : Double)
  | string (s : String)
  | array (items : List Json)
  | object (members : List (String × Json))
  | unreadable
  deriving Repr, Inhabited

namespace Json

def nat (n : Nat) : Json := int n

/-- The string of a value, or `null`. -/
def ofText? (s : Option String) : Json := (s.map string).getD null

/-- A double; infinities and NaN have no text and become `null`. -/
def ofDouble (x : Double) : Json :=
  if x.magnitude.toNat < BinaryFormat.double.infinity then float x else null

def strings (items : List String) : Json := array (items.map string)

def nats (items : List Nat) : Json := array (items.map nat)

/-! ## Reading parts -/

def asString? : Json → Option String
  | string s => some s
  | _ => none

def asBool? : Json → Option Bool
  | bool b => some b
  | _ => none

def asInt? : Json → Option Int
  | int i => some i
  | _ => none

/-- A number below `limit`, written as an integer. -/
def asNatBelow? (limit : Nat) : Json → Option Nat
  | int (.ofNat n) => if n < limit then some n else none
  | _ => none

def asUInt32? (j : Json) : Option UInt32 := (j.asNatBelow? 4294967296).map UInt32.ofNat

def asUInt64? (j : Json) : Option Nat := j.asNatBelow? 18446744073709551616

def asArray? : Json → Option (List Json)
  | array items => some items
  | _ => none

def asObject? : Json → Option (List (String × Json))
  | object members => some members
  | _ => none

/-- A number, an integer being rounded. -/
def asDouble? : Json → Option Double
  | int i => some (Double.ofInt i)
  | float x => some x
  | _ => none

/-- The last member with a key. -/
def member? (key : String) : Json → Option Json
  | object members => members.reverse.lookup key
  | _ => none

/-- The last member with a key, a `null` counting as absent. -/
def field? (key : String) (j : Json) : Option Json :=
  match j.member? key with
  | some null => none
  | found => found

end Json

end ComputeShader
