import ComputeShader.Dispatch.Config
import ComputeShader.Snapshot.Basic
import ComputeShader.Store.Race

/-! # Stores

A store holds the contents of every buffer, image, texture and uniform of a dispatch, together with
the log of accesses and the diagnostics. Buffers and images are arrays of elements; an element of a
buffer is the list of its component patterns, a texel the list of its bytes.
-/

namespace ComputeShader

structure Buffer where
  name : String
  element : ValueType
  elements : Array (List UInt32)
  deriving DecidableEq, Repr, Inhabited

namespace Buffer

def length (b : Buffer) : Nat := b.elements.size

def label (b : Buffer) (binding : Binding) : String :=
  "buffer `" ++ b.name ++ "` (binding " ++ toString binding ++ ")"

/-- The patterns of an element. -/
def bits (b : Buffer) (i : Nat) : List UInt32 := b.elements.getD i []

def value (b : Buffer) (i : Nat) : Value := Value.ofBits b.element (b.bits i)

def set (b : Buffer) (i : Nat) (bits : List UInt32) : Buffer :=
  { b with elements := b.elements.setIfInBounds i bits }

/-- A buffer of `length` elements of zeros. -/
def zeros (name : String) (element : ValueType) (length : Nat) : Buffer :=
  ⟨name, element, Array.replicate length (List.replicate element.components 0)⟩

end Buffer

structure Image where
  name : String
  format : TexelFormat
  width : UInt32
  height : UInt32
  texels : Array (List UInt8)
  deriving DecidableEq, Repr, Inhabited

namespace Image

def label (i : Image) (binding : Binding) : String :=
  "image `" ++ i.name ++ "` (binding " ++ toString binding ++ ")"

/-- The bytes of a texel by its row-major position. -/
def bytes (i : Image) (t : Nat) : List UInt8 := i.texels.getD t []

def set (i : Image) (t : Nat) (bytes : List UInt8) : Image :=
  { i with texels := i.texels.setIfInBounds t bytes }

/-- The position of the texel at two coordinates. -/
def position (i : Image) (x y : Nat) : Nat := y * i.width.toNat + x

/-- An image of zero bytes. -/
def zeros (name : String) (format : TexelFormat) (width height : UInt32) : Image :=
  ⟨name, format, width, height, Array.replicate (width.toNat * height.toNat) format.zeroTexel⟩

end Image

/-- A uniform; an array holds several values, any other one. -/
structure Uniform where
  name : String
  ty : ValueType
  values : List Value
  isArray : Bool
  deriving DecidableEq, Repr, Inhabited

structure Store where
  shader : String
  oobPolicy : OobPolicy
  buffers : Bindings Buffer
  images : Bindings Image
  textures : Bindings Texture
  uniforms : List Uniform
  log : AccessLog := {}
  conflicts : List Conflict := []
  diagnostics : Diagnostics := []
  deriving Repr, Inhabited

/-- An operation on a store that may fail; what it did before it failed remains. -/
abbrev StoreM := EStateM EngineError Store

namespace Store

/-- A store with everything that a shader declares, all zeros. -/
def create (shader : Shader) (config : EngineConfig) : Store where
  shader := shader.name
  oobPolicy := config.oobPolicy
  buffers := .ofList (shader.buffers.map fun b =>
    (b.binding, .zeros b.displayName b.element config.bufferLength))
  images := .ofList (shader.images.map fun i =>
    (i.binding, .zeros i.name i.format config.imageWidth config.imageHeight))
  textures := .ofList (shader.samplers.map fun s =>
    (s.binding, ⟨config.imageWidth, config.imageHeight, .zero⟩))
  uniforms := shader.uniforms.map fun u =>
    ⟨u.name, u.ty, List.replicate (u.arrayLength.getD 1) (Value.zero u.ty), u.arrayLength.isSome⟩

/-- The position, type and array length of the uniform with a name. -/
def uniformSlot? (s : Store) (name : String) : Option (Nat × ValueType × Option Nat) :=
  (s.uniforms.zipIdx.find? fun (u, _) => u.name = name).map fun (u, slot) =>
    (slot, u.ty, if u.isArray then some u.values.length else none)

/-- How messages name a resource. -/
def resourceLabel (s : Store) (r : Resource) : String :=
  let label? := match r with
    | .buffer binding => (s.buffers.get? binding).map (Buffer.label · binding)
    | .image binding => (s.images.get? binding).map (Image.label · binding)
  label?.getD r.text

/-- The conflict as an error. -/
def raceError (s : Store) (c : Conflict) : EngineError :=
  .raceDetected (s.resourceLabel c.resource) c.index c.first c.second c.kind

def record (s : Store) (kind : ErrorKind) (message : String) (me : InvocationId) : Store :=
  { s with diagnostics := s.diagnostics.record kind message me }

/-- Note a fault of an invocation. -/
def recordFault (s : Store) (e : EngineError) (me : InvocationId) : Store :=
  s.record e.kind (e.message s.shader) me

/-- Note a conflict. The message leaves out who was involved, so that all races of one kind on an
element are counted together. -/
def reportRace (s : Store) (c : Conflict) : Store :=
  s.record .raceDetected
    ("race on " ++ s.resourceLabel c.resource ++ "[" ++ toString c.index ++ "]: " ++ c.kind.message)
    c.first

def freezeBuffer (b : Buffer) : BufferSnapshot :=
  ⟨b.name, b.element, b.elements.toList.flatten⟩

def freezeImage (i : Image) : ImageSnapshot :=
  ⟨i.name, i.format, i.width, i.height, i.texels.toList.flatten⟩

/-- The contents of buffers and images and the diagnostics, in a fixed order. -/
def freeze (s : Store) : Snapshot where
  shader := s.shader
  buffers := s.buffers.mapValues fun _ b => freezeBuffer b
  images := s.images.mapValues fun _ i => freezeImage i
  diagnostics := s.diagnostics.normalize

end Store

end ComputeShader
