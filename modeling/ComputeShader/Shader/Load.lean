import ComputeShader.Shader.AccessCheck
import ComputeShader.Shader.Parser.Declaration

/-! # Loading shaders

Reading a source text and checking its body against the declared access qualifiers.
-/

namespace ComputeShader

/-- The shader that a source text defines. -/
def Shader.load (name source : String) : Except SourceError Shader := do
  let shader ← Shader.parse name source
  shader.checkStmts shader.body
  return shader

end ComputeShader
