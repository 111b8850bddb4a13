import ComputeShader.Image.Texture

/-! # Configuration of a dispatch

The conventions that a dispatch fixes where drivers differ.
-/

namespace ComputeShader

/-- What an index outside a resource does: it moves to the nearest element, it drops the access, or
it stops the invocation. -/
inductive OobPolicy where
  | clampAndReport
  | discardAndReport
  | fault
  deriving DecidableEq, Repr, Inhabited

def OobPolicy.name : OobPolicy → String
  | clampAndReport => "clamp_and_report"
  | discardAndReport => "discard_and_report"
  | fault => "fault"

def OobPolicy.all : List OobPolicy := [clampAndReport, discardAndReport, fault]

/-- What a race does: it ends the dispatch, or it is noted in the diagnostics. -/
inductive RacePolicy where
  | reject
  | report
  deriving DecidableEq, Repr, Inhabited

def RacePolicy.name : RacePolicy → String
  | reject => "reject"
  | report => "report"

def RacePolicy.all : List RacePolicy := [reject, report]

/-- The order in which the invocations of a dispatch run. Parallel runs take the invocations in
sequential order. -/
inductive Schedule where
  | sequential
  | shuffled (seed : UInt64)
  | parallel
  deriving DecidableEq, Repr, Inhabited

namespace Schedule

/-- The word for the kind of schedule. -/
def kindName : Schedule → String
  | sequential => "sequential"
  | shuffled _ => "shuffled"
  | parallel => "parallel"

def text : Schedule → String
  | shuffled seed => "shuffled:" ++ toString seed
  | s => s.kindName

/-- The schedule that a text names. -/
def parse? (text : String) : Option Schedule :=
  if text = "sequential" then some sequential
  else if text = "parallel" then some parallel
  else match text.toList with
    | 's' :: 'h' :: 'u' :: 'f' :: 'f' :: 'l' :: 'e' :: 'd' :: ':' :: seed =>
      (countOfText? 18446744073709551616 seed).map fun n => shuffled (UInt64.ofNat n)
    | _ => none

/-- What to say about a text that names no schedule. -/
def parseMessage (text : String) : String :=
  "invalid schedule `" ++ text ++ "`, expected `sequential`, `parallel` or `shuffled:<seed>`"

end Schedule

/-- The conventions of one dispatch; lengths and extents are those of resources without a seed. -/
structure EngineConfig where
  stepBudget : Nat := 100000
  oobPolicy : OobPolicy := .clampAndReport
  racePolicy : RacePolicy := .reject
  schedule : Schedule := .sequential
  bufferLength : Nat := 256
  imageWidth : UInt32 := 200
  imageHeight : UInt32 := 200
  sampler : Sampler := .external
  deriving DecidableEq, Repr, Inhabited

end ComputeShader
