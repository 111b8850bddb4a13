import ComputeShader.Case.Decoding
import ComputeShader.Case.Seed
import ComputeShader.Comparison.Expectation
import ComputeShader.Dispatch.Basic
import ComputeShader.Files.Access
import ComputeShader.Files.Path
import ComputeShader.Report.Divergences
import ComputeShader.Report.Snapshot
import ComputeShader.Shader.Load
import ComputeShader.Snapshot.Encoding
import ComputeShader.Toml.Reader

/-! # Evaluating cases

From the file of a case to the snapshot of its dispatch: read the case, load the shader that it
names, seed a store and dispatch. Paths in a case are relative to the directory of its file.
-/

namespace ComputeShader

/-- What can go wrong with a case. Results that are not as they should be come with the snapshot
that shows it. -/
inductive CaseError where
  | io (e : FileError)
  /-- A file that is no case. -/
  | descriptor (path : String)
  /-- A file that is no snapshot. -/
  | snapshot (path : String)
  | engine (shader : String) (e : EngineError)
  /-- Results that depend on the order of invocations. -/
  | nondeterministic (own other : Schedule) (first second : Snapshot)
  | unmetExpectations (divergences : Comparison) (computed : Snapshot)
  /-- Results that differ from those observed elsewhere. -/
  | differingOutput (divergences : Comparison) (observedPath : String) (computed : Snapshot)
  deriving Repr

namespace CaseError

/-- How the results of two schedules differ; if only in their diagnostics, both are shown. -/
def scheduleDetails (own other : Schedule) (first second : Snapshot) : String :=
  let report := (compareSnapshots none first second).report own.text other.text
  let diagnostics (s : Snapshot) := (s.diagnosticsTable?.map Table.text).getD "no diagnostics"
  if report.isEmpty then
    "diagnostics differ\n" ++ diagnostics first ++ "\n" ++ diagnostics second ++ "\n"
  else report

def message : CaseError → String
  | io e => "I/O error: " ++ e.message
  | descriptor path => "TOML parse error in descriptor at " ++ Path.quoted path
  | snapshot path => "JSON error in snapshot at " ++ Path.quoted path
  | engine shader e => e.message shader
  | nondeterministic own other first second =>
    "Snapshot under schedule `" ++ other.text ++ "` differs from the case schedule:\n\n" ++
      scheduleDetails own other first second
  | unmetExpectations divergences _ =>
    "Expectations not met:\n\n" ++ divergences.report "expected" "csref"
  | differingOutput divergences observedPath _ =>
    "Outputs differ:\n\n" ++ divergences.report "csref" "observed" ++ "│ observed: " ++
      observedPath ++ "\n"

/-- The snapshot to keep for inspection. -/
def kept? : CaseError → Option Snapshot
  | nondeterministic _ _ _ second => some second
  | unmetExpectations _ computed | differingOutput _ _ computed => some computed
  | _ => none

end CaseError

/-- The case that a text in TOML describes. -/
def Case.decode? (text : String) : Option Case := (Toml.parse? text).bind (Case.ofJson? .toml)

/-- A loaded shader with its case. -/
structure LoadedCase where
  shader : Shader
  case : Case
  deriving Repr, Inhabited

/-- The snapshot of a dispatch with a number of workgroups under a schedule. -/
def LoadedCase.evaluate (l : LoadedCase) (groups : Extent3) (schedule : Schedule) :
    Except CaseError Snapshot :=
  let result := do
    let store ← l.case.seededStore l.shader
    let d : Dispatcher := { shader := l.shader, config := { l.case.engine with schedule } }
    (d.dispatch store groups).1
  result.mapError (.engine l.shader.name)

section Reading

variable {m : Type → Type} [Monad m]

/-- The text of a file. -/
def readFile (fs : FileAccess m) (path : String) : ExceptT CaseError m String := do
  match ← fs.read path with
  | .ok text => return text
  | .error e => throw (.io e)

def readCase (fs : FileAccess m) (path : String) : ExceptT CaseError m Case := do
  match Case.decode? (← readFile fs path) with
  | some c => return c
  | none => throw (.descriptor path)

/-- A snapshot from a file; bytes that are no text are no snapshot either. -/
def readSnapshot (fs : FileAccess m) (path : String) : ExceptT CaseError m Snapshot := do
  match ← fs.read path with
  | .ok text =>
    match Snapshot.decode? text with
    | some s => return s
    | none => throw (.snapshot path)
  | .error .notText => throw (.snapshot path)
  | .error e => throw (.io e)

/-- A path in the case at `casePath`. -/
def besideCase (casePath path : String) : String := Path.join (Path.parent casePath) path

/-- Load the shader of a case. It is named after its file. -/
def loadCase (fs : FileAccess m) (casePath : String) (c : Case) :
    ExceptT CaseError m LoadedCase := do
  let path := besideCase casePath c.source
  let source ← readFile fs path
  let name := Path.fileStem path
  match Shader.load name source with
  | .ok shader => return ⟨shader, c⟩
  | .error e => throw (.engine name (.source e))

end Reading

end ComputeShader
