import ComputeShader.CommandLine.Commands

/-! # The program

Access to the real file system, and the entry point.
-/

namespace ComputeShader

/-- The reason of an error of the system. -/
def FileError.ofIO : IO.Error → FileError
  | .noFileOrDirectory _ _ _ => .notFound
  | .inappropriateType _ 21 _ | .inappropriateType (some _) _ _ => .isDirectory
  | e => .other (toString e)

/-- Access to the files of the system. -/
def systemFiles : FileAccess IO where
  read path := do
    try
      match String.fromUTF8? (← IO.FS.readBinFile path) with
      | some text => return .ok text
      | none => return .error .notText
    catch e => return .error (.ofIO e)
  write path text := do
    try
      IO.FS.writeFile path text
      return .ok ()
    catch e => return .error (.ofIO e)

end ComputeShader

open ComputeShader in
def main (args : List String) : IO UInt32 := do
  let outcome ← runProgram systemFiles args
  IO.print outcome.output
  IO.eprint outcome.errors
  return outcome.exitCode
