import ComputeShader.Dispatch.Config
import ComputeShader.Shader.Model
import ComputeShader.Text.Whitespace

/-! # Command lines

The three commands of the program with their arguments. An option is written `--name value` or
`--name=value`, at most once; after `--` nothing is an option any more.
-/

namespace ComputeShader

/-- What the program is asked to do. -/
inductive Command where
  | run (casePath : String) (groups : Option Extent3) (schedule : Option Schedule)
    (snapshotPath : Option String)
  | check (shaderPath : String)
  | compare (expectedPath observedPath : String) (epsilon : Option Single)
  deriving DecidableEq, Repr

/-- Where help is asked for. -/
inductive Topic where
  | program
  | run
  | check
  | compare
  deriving DecidableEq, Repr, Inhabited

def Topic.ofName? : String → Option Topic
  | "run" => some .run
  | "check" => some .check
  | "compare" => some .compare
  | _ => none

/-- Why there is no command to perform. -/
inductive Refusal where
  | help (topic : Topic)
  | version
  | usage
  deriving DecidableEq, Repr, Inhabited

/-- The numbers of workgroups in a text, separated by commas. -/
def groupsOfText? (text : String) : Option Extent3 := do
  let counts ← (text.splitOn ",").mapM fun part => countOfText? 4294967296 (Text.trim part.toList)
  match counts with
  | [x, y, z] => some ⟨UInt32.ofNat x, UInt32.ofNat y, UInt32.ofNat z⟩
  | _ => none

/-- The arguments that a command takes: how many without a name, and which options with a test of
their values. -/
structure CommandForm where
  topic : Topic
  positionals : Nat
  options : List (String × (String → Bool))

namespace CommandForm

def ofTopic : Topic → CommandForm
  | .run => ⟨.run, 1, [("dispatch", fun s => (groupsOfText? s).isSome),
      ("schedule", fun s => (Schedule.parse? s).isSome), ("snapshot", fun s => s != "")]⟩
  | .compare => ⟨.compare, 2, [("epsilon", fun s => (Single.ofText? s).isSome)]⟩
  | .check => ⟨.check, 1, []⟩
  | .program => ⟨.program, 0, []⟩

end CommandForm

/-- The arguments found so far. -/
structure Arguments where
  positionals : List String := []
  options : List (String × String) := []
  hasJsonLogs : Bool := false
  deriving DecidableEq, Repr, Inhabited

namespace Arguments

/-- Whether an argument has the form of an option. -/
def isFlag (arg : String) : Bool := arg.startsWith "-" && arg != "-"

/-- Take an argument without a name. -/
def addPositional (a : Arguments) (form : CommandForm) (arg : String) :
    Except Refusal Arguments :=
  if arg = "" ∨ form.positionals ≤ a.positionals.length then .error .usage
  else .ok { a with positionals := a.positionals ++ [arg] }

/-- Take an option with its value. -/
def addOption (a : Arguments) (form : CommandForm) (name value : String) :
    Except Refusal Arguments :=
  match form.options.lookup name with
  | some isValid =>
    if isValid value ∧ (a.options.lookup name).isNone then
      .ok { a with options := a.options ++ [(name, value)] }
    else .error .usage
  | none => .error .usage

/-- Take the flag that asks for logs in another form. -/
def addJsonLogs (a : Arguments) : Except Refusal Arguments :=
  if a.hasJsonLogs then .error .usage else .ok { a with hasJsonLogs := true }

/-- The name of a long option and the value joined to it, if there is one. -/
def splitOption (arg : String) : String × Option String :=
  let body := arg.toList.drop 2
  match Text.splitOnce? '=' body with
  | some (name, value) => (String.ofList name, some (String.ofList value))
  | none => (String.ofList body, none)

/-- Take the arguments of a command one after another. -/
def scan (form : CommandForm) (a : Arguments) : List String → Except Refusal Arguments
  | [] => if a.positionals.length < form.positionals then .error .usage else .ok a
  | "--" :: rest => do
    let a ← rest.foldlM (fun a arg => a.addPositional form arg) a
    if a.positionals.length < form.positionals then throw .usage
    return a
  | arg :: rest =>
    if arg.startsWith "--" then
      match splitOption arg, rest with
      | ("help", none), _ => .error (.help form.topic)
      | ("json-logs", none), rest => do scan form (← a.addJsonLogs) rest
      | (name, some value), rest => do scan form (← a.addOption form name value) rest
      | (name, none), value :: rest =>
        if isFlag value then .error .usage
        else do scan form (← a.addOption form name value) rest
      | (_, none), [] => .error .usage
    else if isFlag arg then
      if arg.startsWith "-h" then .error (.help form.topic) else .error .usage
    else do scan form (← a.addPositional form arg) rest

/-- The command of a form with its arguments. -/
def toCommand? (a : Arguments) (topic : Topic) : Option Command :=
  match topic, a.positionals with
  | .run, [casePath] => some (.run casePath ((a.options.lookup "dispatch").bind groupsOfText?)
      ((a.options.lookup "schedule").bind Schedule.parse?) (a.options.lookup "snapshot"))
  | .check, [shaderPath] => some (.check shaderPath)
  | .compare, [expectedPath, observedPath] => some (.compare expectedPath observedPath
      ((a.options.lookup "epsilon").bind Single.ofText?))
  | _, _ => none

end Arguments

namespace Command

/-- The topic that help is asked for by the command `help`. -/
def helpTopic : List String → Refusal
  | [] => .help .program
  | [name] => ((Topic.ofName? name).map .help).getD (if name = "help" then .help .program else .usage)
  | _ => .usage

/-- The command that arguments write. The flag for logs may come before the name of a command. -/
def parse (hasJsonLogs : Bool) : List String → Except Refusal Command
  | [] => .error .usage
  | arg :: rest =>
    if arg = "--json-logs" then if hasJsonLogs then .error .usage else parse true rest
    else if arg = "--help" ∨ arg.startsWith "-h" then .error (.help .program)
    else if arg = "--version" ∨ arg.startsWith "-V" then .error .version
    else if arg = "help" then .error (helpTopic rest)
    else match Topic.ofName? arg with
      | some topic => do
        let a ← Arguments.scan (.ofTopic topic) {} rest
        match a.toCommand? topic with
        | some command => .ok command
        | none => .error .usage
      | none => .error .usage

end Command

end ComputeShader
