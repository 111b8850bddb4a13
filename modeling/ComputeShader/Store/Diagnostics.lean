import ComputeShader.Error

/-! # Diagnostics

What happened during a dispatch without ending it. Events of the same kind and message are counted
in one entry, which keeps the lowest invocation that produced one.
-/

namespace ComputeShader

structure Diagnostic where
  kind : ErrorKind
  message : String
  occurrences : Nat
  firstInvocation : InvocationId
  deriving DecidableEq, Repr, Inhabited

abbrev Diagnostics := List Diagnostic

namespace Diagnostic

/-- Whether two entries count the same event. -/
def sameEvent (a b : Diagnostic) : Bool :=
  a.kind == b.kind && a.message == b.message

/-- Count the occurrences of another entry of the same event. -/
def absorb (a b : Diagnostic) : Diagnostic :=
  { a with
    occurrences := a.occurrences + b.occurrences
    firstInvocation := min a.firstInvocation b.firstInvocation }

/-- The order of kinds, then that of messages. -/
def precedes (a b : Diagnostic) : Bool :=
  a.kind.rank < b.kind.rank || (a.kind == b.kind && a.message ≤ b.message)

end Diagnostic

namespace Diagnostics

/-- Count an entry in the one of the same event, or add it at the end. -/
def add (new : Diagnostic) : Diagnostics → Diagnostics
  | [] => [new]
  | d :: rest => if d.sameEvent new then d.absorb new :: rest else d :: add new rest

/-- Count one event. -/
def record (ds : Diagnostics) (kind : ErrorKind) (message : String) (me : InvocationId) :
    Diagnostics :=
  add ⟨kind, message, 1, me⟩ ds

def merge (ds others : Diagnostics) : Diagnostics :=
  others.foldl (fun ds d => add d ds) ds

/-- Sort by kind and message, so that the order of events does not show. -/
def normalize (ds : Diagnostics) : Diagnostics := ds.mergeSort Diagnostic.precedes

/-- The number of events of a kind. -/
def count (ds : Diagnostics) (kind : ErrorKind) : Nat :=
  ((ds.filter (fun d => d.kind = kind)).map Diagnostic.occurrences).foldr (· + ·) 0

end Diagnostics

end ComputeShader
