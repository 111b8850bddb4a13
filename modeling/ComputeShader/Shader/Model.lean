import ComputeShader.Image.Format
import ComputeShader.Shader.Syntax

/-! # Shaders

A loaded shader: its declarations with every binding and location assigned, and its body.
-/

namespace ComputeShader

/-- How the body may use a buffer or an image. -/
inductive Access where
  | readWrite
  | readOnly
  | writeOnly
  deriving DecidableEq, Repr, Inhabited

namespace Access

def name : Access → String
  | readWrite => "read_write"
  | readOnly => "read_only"
  | writeOnly => "write_only"

def canRead (a : Access) : Bool := a != writeOnly

def canWrite (a : Access) : Bool := a != readOnly

end Access

/-- A count or an index along each axis of a grid. -/
structure Extent3 where
  x : UInt32
  y : UInt32
  z : UInt32
  deriving DecidableEq, Repr, Inhabited

def Extent3.toList (e : Extent3) : List UInt32 := [e.x, e.y, e.z]

/-- The number of cells of a grid with this extent. -/
def Extent3.volume (e : Extent3) : Nat := e.x.toNat * e.y.toNat * e.z.toNat

structure ExtensionDirective where
  name : String
  behavior : String
  deriving DecidableEq, Repr, Inhabited

/-- `buffer block { element member[]; } instance;` -/
structure BufferDecl where
  binding : Binding
  block : String
  blockInstance : Option String
  member : String
  element : ValueType
  access : Access
  deriving DecidableEq, Repr, Inhabited

/-- How the body spells the array of a buffer. -/
def BufferDecl.displayName (b : BufferDecl) : String :=
  match b.blockInstance with
  | some name => name ++ "." ++ b.member
  | none => b.member

structure ImageDecl where
  binding : Binding
  name : String
  format : TexelFormat
  access : Access
  deriving DecidableEq, Repr, Inhabited

structure SamplerDecl where
  binding : Binding
  name : String
  deriving DecidableEq, Repr, Inhabited

structure UniformDecl where
  location : UInt32
  name : String
  ty : ValueType
  arrayLength : Option Nat
  deriving DecidableEq, Repr, Inhabited

/-- The number of locations that a uniform takes. -/
def UniformDecl.width (u : UniformDecl) : Nat := u.arrayLength.getD 1

structure LocalDecl where
  name : String
  ty : ValueType
  deriving DecidableEq, Repr, Inhabited

/-- A loaded shader. -/
structure Shader where
  name : String
  version : Nat
  extensions : List ExtensionDirective
  localSize : Extent3
  buffers : List BufferDecl
  images : List ImageDecl
  samplers : List SamplerDecl
  uniforms : List UniformDecl
  locals : List LocalDecl
  body : List Stmt
  deriving Repr, Inhabited

namespace Shader

def buffer? (s : Shader) (binding : Binding) : Option BufferDecl :=
  s.buffers.find? (fun b => b.binding = binding)

def image? (s : Shader) (binding : Binding) : Option ImageDecl :=
  s.images.find? (fun i => i.binding = binding)

/-- The type of a local variable. -/
def localType? (s : Shader) (slot : Nat) : Option ValueType :=
  (s.locals[slot]?).map LocalDecl.ty

/-- The number of invocations in a workgroup, a 64-bit number. -/
def invocationsPerWorkgroup (s : Shader) : Nat := s.localSize.volume % 18446744073709551616

end Shader

end ComputeShader
