import ComputeShader.Case.Literal
import ComputeShader.Dispatch.Config
import ComputeShader.Shader.Model

/-! # Cases

A case names a shader and supplies everything else that a dispatch needs: the number of workgroups,
the conventions, the contents of resources, and what the results should be.
-/

namespace ComputeShader

/-- The contents of a buffer: a fill value, leading elements, and single elements set last. -/
structure BufferSeed where
  binding : Binding
  length : Option Nat := none
  fill : Option Literal := none
  data : List Literal := []
  set : List (Nat × Literal) := []
  deriving Repr, Inhabited

/-- A texel set by its coordinates. -/
structure TexelSeed where
  x : UInt32
  y : UInt32
  value : Literal
  deriving Repr, Inhabited

/-- The contents of an image: a fill value, leading texels in rows, and single texels set last. -/
structure ImageSeed where
  binding : Binding
  width : UInt32
  height : UInt32
  fill : Option Literal := none
  data : List Literal := []
  texels : List TexelSeed := []
  deriving Repr, Inhabited

structure SamplerSeed where
  binding : Binding
  texture : Texture
  deriving Repr, Inhabited

structure UniformSeed where
  name : String
  value : Literal
  deriving Repr, Inhabited

/-- What an expectation is about. -/
inductive ExpectTarget where
  | buffer (binding : Binding) (index : Nat)
  | image (binding : Binding) (x y : UInt32)
  deriving DecidableEq, Repr, Inhabited

/-- A single value that the results must hold. -/
structure Expectation where
  target : ExpectTarget
  value : Literal
  deriving Repr, Inhabited

/-- How results are compared: how far floats may lie apart, and why the case is skipped, if so. -/
structure CompareOptions where
  epsilon : Option Single := none
  skipped : Option String := none
  deriving DecidableEq, Repr, Inhabited

/-- The number of workgroups of cases that do not say. -/
def defaultGroups : Extent3 := ⟨1, 2, 3⟩

structure Case where
  source : String
  groups : Extent3 := defaultGroups
  engine : EngineConfig := {}
  compare : CompareOptions := {}
  buffers : List BufferSeed := []
  images : List ImageSeed := []
  samplers : List SamplerSeed := []
  uniforms : List UniformSeed := []
  expectations : List Expectation := []
  observed : Option String := none
  deriving Repr, Inhabited

end ComputeShader
