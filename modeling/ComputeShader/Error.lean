import ComputeShader.Case.Literal
import ComputeShader.Image.Texture
import ComputeShader.Shader.Fault

/-! # Errors

What can go wrong between reading a shader and freezing its results. Errors do not name the shader
they concern; `EngineError.message` puts its name in front.
-/

namespace ComputeShader

/-- The number of an invocation in its dispatch. -/
abbrev InvocationId := Nat

/-- The ways in which two invocations race on an element. -/
inductive RaceKind where
  | mixed
  | writeWrite
  | readWrite
  deriving DecidableEq, Repr, Inhabited

def RaceKind.message : RaceKind → String
  | mixed => "atomic and non-atomic access to one element"
  | writeWrite => "non-atomic stores of different values"
  | readWrite => "non-atomic load of a value another invocation changes"

/-- What an access that goes wrong was about. -/
inductive AccessSite where
  | undeclared (resource : String) (slot : Nat)
  | store (label : String)
  | atomic (label : String)
  | imageStore (binding : Binding)
  | imageAtomic (binding : Binding)
  | uniform (name : String)
  | initializer (name : String) (line : Nat)
  | node (what : String) (pos : Position)
  | atLine (what : String) (line : Nat)
  deriving DecidableEq, Repr

def AccessSite.message : AccessSite → String
  | undeclared resource slot => "access to " ++ resource ++ " binding " ++ toString slot
  | store label => "store to " ++ label
  | atomic label => "atomic on " ++ label
  | imageStore binding => "imageStore to image binding " ++ toString binding
  | imageAtomic binding => "imageAtomicAdd on image binding " ++ toString binding
  | uniform name => "use of uniform `" ++ name ++ "`"
  | initializer name line => "initializer of `" ++ name ++ "` at line " ++ toString line
  | node what pos => what ++ " at " ++ toString pos.line ++ ":" ++ toString pos.column
  | atLine what line => what ++ " at line " ++ toString line

/-- Why a case does not fit the declarations of its shader. -/
inductive SeedFault where
  | noBuffer
  | noImage
  | noSampler
  | noUniform
  | noUniformSlot
  | elementType (expected found : ValueType)
  | pastLength (length : Nat)
  | outsideImage (width height : UInt32)
  | texelBytes (format : TexelFormat) (found : Nat)
  | uniformValues (count : Nat) (ty : ValueType)
  | dataTooLong (count length : Nat)
  | tooManyTexels (count : Nat) (width height : UInt32)
  | arrayExpected (length : Nat) (ty : ValueType) (found : String)
  | literal (fault : LiteralFault)
  deriving DecidableEq, Repr

def SeedFault.message : SeedFault → String
  | noBuffer => "the fixture declares no buffer at this binding"
  | noImage => "the fixture declares no image at this binding"
  | noSampler => "the fixture declares no sampler at this binding"
  | noUniform => "the fixture declares no uniform with this name"
  | noUniformSlot => "no such uniform"
  | elementType expected found => "expected " ++ expected.name ++ ", found " ++ found.name
  | pastLength length => "index is past the buffer length " ++ toString length
  | outsideImage width height =>
    "texel is outside the " ++ toString width ++ "x" ++ toString height ++ " image"
  | texelBytes format found =>
    format.name ++ " texels are " ++ toString format.texelSize ++ " bytes, found " ++ toString found
  | uniformValues count ty => "expected " ++ toString count ++ " value(s) of type " ++ ty.name
  | dataTooLong count length =>
    toString count ++ " data elements do not fit in length " ++ toString length
  | tooManyTexels count width height =>
    toString count ++ " texels do not fit in " ++ toString width ++ "x" ++ toString height
  | arrayExpected length ty found =>
    "expected " ++ toString length ++ " elements of " ++ ty.name ++ ", found " ++ found
  | literal fault => fault.message

/-- The stages of a dispatcher, which runs once. -/
inductive DispatchStage where
  | initialized
  | completed
  deriving DecidableEq, Repr, Inhabited

def DispatchStage.name : DispatchStage → String
  | initialized => "initialized"
  | completed => "completed"

inductive EngineError where
  | source (e : SourceError)
  | typeMismatch (site : AccessSite) (e : TypeError)
  | outOfBounds (resource : String) (index : Int) (extent : Nat)
  | raceDetected (resource : String) (index : Nat) (first second : InvocationId) (kind : RaceKind)
  | stepBudgetExceeded (invocation : InvocationId) (budget : Nat)
  | samplerUnavailable (binding : Binding) (reason : SamplerFault)
  | invalidSeed (target : String) (fault : SeedFault)
  | invalidState (stage : DispatchStage)
  deriving DecidableEq, Repr

/-- The classes of errors, in the order in which diagnostics list them. -/
inductive ErrorKind where
  | malformedFixture
  | unsupportedBuiltin
  | typeMismatch
  | outOfBounds
  | raceDetected
  | stepBudgetExceeded
  | samplerUnavailable
  | invalidSeed
  | invalidState
  deriving DecidableEq, Repr, Inhabited

namespace ErrorKind

def all : List ErrorKind :=
  [malformedFixture, unsupportedBuiltin, typeMismatch, outOfBounds, raceDetected,
    stepBudgetExceeded, samplerUnavailable, invalidSeed, invalidState]

/-- The position in the order of kinds. -/
def rank (k : ErrorKind) : Nat := all.idxOf k

def title : ErrorKind → String
  | malformedFixture => "MalformedFixture"
  | unsupportedBuiltin => "UnsupportedBuiltin"
  | typeMismatch => "TypeMismatch"
  | outOfBounds => "OutOfBounds"
  | raceDetected => "RaceDetected"
  | stepBudgetExceeded => "StepBudgetExceeded"
  | samplerUnavailable => "SamplerUnavailable"
  | invalidSeed => "InvalidSeed"
  | invalidState => "InvalidState"

/-- The spelling in snapshots. -/
def name : ErrorKind → String
  | malformedFixture => "malformed_fixture"
  | unsupportedBuiltin => "unsupported_builtin"
  | typeMismatch => "type_mismatch"
  | outOfBounds => "out_of_bounds"
  | raceDetected => "race_detected"
  | stepBudgetExceeded => "step_budget_exceeded"
  | samplerUnavailable => "sampler_unavailable"
  | invalidSeed => "invalid_seed"
  | invalidState => "invalid_state"

def ofName? (name : String) : Option ErrorKind :=
  all.find? (fun k => k.name = name)

end ErrorKind

namespace EngineError

def kind : EngineError → ErrorKind
  | source e =>
    match e.fault with
    | .unsupportedBuiltin _ => .unsupportedBuiltin
    | _ => .malformedFixture
  | typeMismatch _ _ => .typeMismatch
  | outOfBounds _ _ _ => .outOfBounds
  | raceDetected _ _ _ _ _ => .raceDetected
  | stepBudgetExceeded _ _ => .stepBudgetExceeded
  | samplerUnavailable _ _ => .samplerUnavailable
  | invalidSeed _ _ => .invalidSeed
  | invalidState _ => .invalidState

/-- Faults stop one invocation without ending the dispatch. -/
def isInvocationFault : EngineError → Bool
  | outOfBounds _ _ _ | stepBudgetExceeded _ _ | samplerUnavailable _ _ => true
  | _ => false

/-- What went wrong, without the name of the shader. -/
def detail : EngineError → String
  | source e =>
    let intro := match e.fault with
      | .unsupportedBuiltin _ => ""
      | _ => "malformed fixture: "
    toString e.pos.line ++ ":" ++ toString e.pos.column ++ ": " ++ intro ++ e.fault.message
  | typeMismatch site e => " type mismatch in " ++ site.message ++ ": " ++ e.message
  | outOfBounds resource index extent =>
    " index " ++ toString index ++ " out of bounds for " ++ resource ++ " (extent " ++
      toString extent ++ ")"
  | raceDetected resource index first second kind =>
    " race on " ++ resource ++ "[" ++ toString index ++ "] between invocations " ++
      toString first ++ " and " ++ toString second ++ ": " ++ kind.message
  | stepBudgetExceeded invocation budget =>
    " invocation " ++ toString invocation ++ " exceeded the step budget of " ++ toString budget
  | samplerUnavailable binding reason =>
    " sampler at binding " ++ toString binding ++ " unavailable: " ++ reason.message
  | invalidSeed target fault => " invalid seed for " ++ target ++ ": " ++ fault.message
  | invalidState stage => " dispatcher is " ++ stage.name ++ ", expected initialized"

/-- The whole message about the shader called `name`. -/
def message (name : String) (e : EngineError) : String :=
  name ++ ":" ++ e.detail

end EngineError

end ComputeShader
