import ComputeShader.Json.Basic
import ComputeShader.Shader.Model

/-! # Manifests

The resources that a shader declares, as a document for whoever binds them.
-/

namespace ComputeShader

def ExtensionDirective.toJson (e : ExtensionDirective) : Json :=
  .object [("name", .string e.name), ("behavior", .string e.behavior)]

def BufferDecl.toJson (b : BufferDecl) : Json :=
  .object [("binding", .nat b.binding.toNat), ("block", .string b.block),
    ("instance", .ofText? b.blockInstance), ("member", .string b.member),
    ("element", .string b.element.name), ("access", .string b.access.name)]

def ImageDecl.toJson (i : ImageDecl) : Json :=
  .object [("binding", .nat i.binding.toNat), ("name", .string i.name),
    ("format", .string i.format.name), ("access", .string i.access.name)]

def SamplerDecl.toJson (s : SamplerDecl) : Json :=
  .object [("binding", .nat s.binding.toNat), ("name", .string s.name)]

def UniformDecl.toJson (u : UniformDecl) : Json :=
  .object [("location", .nat u.location.toNat), ("name", .string u.name),
    ("ty", .string u.ty.name), ("array_len", (u.arrayLength.map Json.nat).getD .null)]

/-- The declarations of a shader, each kind in the order of declaration. -/
def Shader.manifest (s : Shader) : Json :=
  .object [("fixture", .string s.name), ("version", .nat s.version),
    ("extensions", .array (s.extensions.map ExtensionDirective.toJson)),
    ("local_size", .nats (s.localSize.toList.map UInt32.toNat)),
    ("buffers", .array (s.buffers.map BufferDecl.toJson)),
    ("images", .array (s.images.map ImageDecl.toJson)),
    ("samplers", .array (s.samplers.map SamplerDecl.toJson)),
    ("uniforms", .array (s.uniforms.map UniformDecl.toJson))]

end ComputeShader
