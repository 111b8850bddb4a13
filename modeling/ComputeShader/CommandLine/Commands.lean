import ComputeShader.CommandLine.Arguments
import ComputeShader.Corpus.Evaluation
import ComputeShader.Shader.Manifest

/-! # Commands

What the program prints and how it ends. What it has printed before an error stays printed.
-/

namespace ComputeShader

/-- How a run of the program ends. -/
structure Outcome where
  exitCode : UInt32
  output : String
  errors : String
  deriving DecidableEq, Repr, Inhabited

/-- An error of the program, with what it was doing where a message alone would not say. -/
inductive Failure where
  | case (e : CaseError)
  | reading (path : String) (e : FileError)
  | writing (path : String) (e : FileError)
  deriving Repr

namespace Failure

/-- The message and the error that caused it, if that is not the message itself. -/
def parts : Failure → String × Option String
  | case (.io e) => ((CaseError.io e).message, some e.message)
  | case e => (e.message, none)
  | reading path e => ("read fixture " ++ path, some e.message)
  | writing path e => ("write snapshot " ++ path, some e.message)

def text (f : Failure) : String :=
  let (message, cause) := f.parts
  "Error: " ++ message ++ "\n" ++
    (cause.map fun c => "\nCaused by:\n    " ++ c ++ "\n").getD ""

end Failure

/-- A command at work: it prints, and it may fail. -/
abbrev Session (m : Type → Type) := ExceptT Failure (StateT String m)

namespace Session

variable {m : Type → Type} [Monad m]

/-- Print a text and end the line. -/
def say (text : String) : Session m Unit := modify fun output => output ++ text ++ "\n"

def onCase {α : Type} (action : ExceptT CaseError m α) : Session m α := do
  match ← (action.run : m (Except CaseError α)) with
  | .ok a => return a
  | .error e => throw (.case e)

/-- Print where results diverge, or `otherwise` if they do not. -/
def conclude (c : Comparison) (side₁ side₂ otherwise : String) : Session m UInt32 := do
  if c.isEmpty then
    say otherwise
    return 0
  else
    say (c.report side₁ side₂)
    return 1

end Session

open Session

namespace Command

variable {m : Type → Type} [Monad m]

/-- Evaluate a case, print a summary of its results and check them. -/
def performRun (fs : FileAccess m) (casePath : String) (groups : Option Extent3)
    (schedule : Option Schedule) (snapshotPath : Option String) : Session m UInt32 := do
  let c ← onCase (readCase fs casePath)
  let l ← onCase (loadCase fs casePath c)
  let s ← onCase (ExceptT.mk (pure
    (l.evaluate (groups.getD c.groups) (schedule.getD c.engine.schedule))))
  say s.summary.text
  match s.diagnosticsTable? with
  | some table => say table.text
  | none => pure ()
  match snapshotPath with
  | some path =>
    match ← (fs.write path s.encode : m (Except FileError Unit)) with
    | .ok () => pure ()
    | .error e => throw (.writing path e)
  | none => pure ()
  match checkExpectations c.compare.epsilon s c.expectations with
  | .ok comparison =>
    conclude comparison "expected" "csref" (toString c.expectations.length ++ " expectation(s) met")
  | .error e => throw (.case (.engine s.shader e))

/-- Load a shader and print its manifest. -/
def performCheck (fs : FileAccess m) (path : String) : Session m UInt32 := do
  match ← (fs.read path : m (Except FileError String)) with
  | .error e => throw (.reading path e)
  | .ok source =>
    let name := Path.fileStem path
    match Shader.load name source with
    | .ok shader =>
      say shader.manifest.pretty
      return 0
    | .error e => throw (.case (.engine name (.source e)))

/-- Compare two snapshots. -/
def performCompare (fs : FileAccess m) (expectedPath observedPath : String)
    (epsilon : Option Single) : Session m UInt32 := do
  let expected ← onCase (readSnapshot fs expectedPath)
  let observed ← onCase (readSnapshot fs observedPath)
  conclude (compareSnapshots epsilon expected observed) "expected" "observed" "snapshots match"

def perform (fs : FileAccess m) : Command → Session m UInt32
  | run casePath groups schedule snapshotPath =>
    performRun fs casePath groups schedule snapshotPath
  | check path => performCheck fs path
  | compare expectedPath observedPath epsilon => performCompare fs expectedPath observedPath epsilon

end Command

/-! ## The program -/

def versionText : String := "csref 0.3.0\n"

/-- How a command is called. -/
def Topic.usage : Topic → String
  | .program => "csref [OPTIONS] <COMMAND>"
  | .run => "csref run [OPTIONS] <DESCRIPTOR>"
  | .check => "csref check [OPTIONS] <FIXTURE>"
  | .compare => "csref compare [OPTIONS] <EXPECTED> <OBSERVED>"

/-- What a command does and which arguments it takes. -/
def Topic.help (t : Topic) : String :=
  let lines := match t with
    | .program => [
        "Reference execution engine for GLSL ES 3.10 compute fixtures", "",
        "Usage: " ++ t.usage, "",
        "Commands:",
        "  run      Run one case descriptor and check its expectations",
        "  check    Parse and validate a fixture, then print its resource manifest",
        "  compare  Diff two snapshots",
        "  help     Print this message or the help of the given subcommand(s)", "",
        "Options:",
        "      --json-logs  Emit logs as JSON lines",
        "  -h, --help       Print help",
        "  -V, --version    Print version"]
    | .run => [
        "Run one case descriptor and check its expectations", "",
        "Usage: " ++ t.usage, "",
        "Arguments:",
        "  <DESCRIPTOR>  Path to a `case.toml`", "",
        "Options:",
        "      --dispatch <X,Y,Z>     Workgroup count, overriding the descriptor",
        "      --json-logs            Emit logs as JSON lines",
        "      --schedule <SCHEDULE>  `sequential`, `parallel` or `shuffled:<seed>`, overriding the descriptor",
        "      --snapshot <PATH>      Write the computed snapshot to this path as JSON",
        "  -h, --help                 Print help"]
    | .check => [
        "Parse and validate a fixture, then print its resource manifest", "",
        "Usage: " ++ t.usage, "",
        "Arguments:",
        "  <FIXTURE>  ", "",
        "Options:",
        "      --json-logs  Emit logs as JSON lines",
        "  -h, --help       Print help"]
    | .compare => [
        "Diff two snapshots", "",
        "Usage: " ++ t.usage, "",
        "Arguments:",
        "  <EXPECTED>  ",
        "  <OBSERVED>  ", "",
        "Options:",
        "      --epsilon <EPSILON>  Allowed absolute difference for float lanes",
        "      --json-logs          Emit logs as JSON lines",
        "  -h, --help               Print help"]
  String.join (lines.map (· ++ "\n"))

/-- Run the program on its arguments. -/
def runProgram {m : Type → Type} [Monad m] (fs : FileAccess m) (args : List String) : m Outcome := do
  match Command.parse false args with
  | .error (.help topic) => return ⟨0, topic.help, ""⟩
  | .error .version => return ⟨0, versionText, ""⟩
  | .error .usage => return ⟨2, "", "error: invalid arguments\n\nUsage: " ++ Topic.program.usage ++ "\n"⟩
  | .ok command =>
    match ← (command.perform fs).run.run "" with
    | (.ok code, output) => return ⟨code, output, ""⟩
    | (.error failure, output) => return ⟨1, output, failure.text⟩

end ComputeShader
