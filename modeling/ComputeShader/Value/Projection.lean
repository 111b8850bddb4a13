import ComputeShader.Value.Basic

/-! # Projections

A path of subscripts and swizzles selects a part of a value. `get` reads the part and `set` writes
it, going down the path in the same steps.
-/

namespace ComputeShader

/-- One step of a path, its subscript already evaluated and in range. -/
inductive Step where
  | index (i : Nat)
  | swizzle (selection : List Nat)
  deriving DecidableEq, Repr, Inhabited

namespace Step

/-- The part of a value that a step selects. -/
def get (v : Value) : Step → Except TypeError Value
  | index i => v.element i
  | swizzle selection => v.swizzle selection

/-- A value with the part that a step selects replaced. -/
def set (v : Value) (step : Step) (new : Value) : Except TypeError Value :=
  match step with
  | index i => v.withElement i new
  | swizzle selection => v.withSwizzle selection new

end Step

/-- The part of a value at the end of a path. -/
def getPath (v : Value) : List Step → Except TypeError Value
  | [] => .ok v
  | step :: rest => do getPath (← step.get v) rest

/-- A value with the part at the end of a path replaced by a value of the same type. -/
def setPath (v : Value) (path : List Step) (new : Value) : Except TypeError Value :=
  match path with
  | [] => if new.ty = v.ty then .ok new else .error ⟨v.ty.name, new.ty.name⟩
  | step :: rest => do step.set v (← setPath (← step.get v) rest new)

end ComputeShader
