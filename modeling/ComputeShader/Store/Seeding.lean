import ComputeShader.Store.Basic

/-! # Seeding

Setting up the contents of a store before a dispatch. What disagrees with the declarations is an
invalid seed. Whole resources are filled in one operation.
-/

namespace ComputeShader

namespace Store

def invalidSeed {α : Type} (target : String) (fault : SeedFault) : StoreM α :=
  throw (.invalidSeed target fault)

def bufferTarget (binding : Binding) : String := "buffer binding " ++ toString binding

def imageTarget (binding : Binding) : String := "image binding " ++ toString binding

def seedBufferAt (binding : Binding) : StoreM Buffer := do
  match (← get).buffers.get? binding with
  | some b => return b
  | none => invalidSeed (bufferTarget binding) .noBuffer

def seedImageAt (binding : Binding) : StoreM Image := do
  match (← get).images.get? binding with
  | some i => return i
  | none => invalidSeed (imageTarget binding) .noImage

def modifyBuffer (binding : Binding) (f : Buffer → Buffer) : StoreM Unit :=
  modify fun s => { s with buffers := s.buffers.modify binding f }

def modifyImage (binding : Binding) (f : Image → Image) : StoreM Unit :=
  modify fun s => { s with images := s.images.modify binding f }

/-- Give a buffer `length` elements of zeros. -/
def allocateBuffer (binding : Binding) (length : Nat) : StoreM Unit := do
  let b ← seedBufferAt binding
  modifyBuffer binding fun _ => .zeros b.name b.element length

/-- Set every element of a buffer. -/
def fillBuffer (binding : Binding) (v : Value) : StoreM Unit :=
  modifyBuffer binding fun b => { b with elements := Array.replicate b.length v.bits }

/-- Set one element of a buffer. -/
def seedElement (binding : Binding) (index : Nat) (v : Value) : StoreM Unit := do
  let b ← seedBufferAt binding
  let target := b.name ++ "[" ++ toString index ++ "]"
  if v.ty ≠ b.element then invalidSeed target (.elementType b.element v.ty)
  else if b.length ≤ index then invalidSeed target (.pastLength b.length)
  else modifyBuffer binding fun b => b.set index v.bits

/-- Give an image an extent and zero bytes. -/
def allocateImage (binding : Binding) (width height : UInt32) : StoreM Unit := do
  let i ← seedImageAt binding
  modifyImage binding fun _ => .zeros i.name i.format width height

/-- Set every texel of an image. -/
def fillImage (binding : Binding) (bytes : List UInt8) : StoreM Unit :=
  modifyImage binding fun i => { i with texels := Array.replicate i.texels.size bytes }

/-- Set one texel of an image. -/
def seedTexel (binding : Binding) (x y : UInt32) (bytes : List UInt8) : StoreM Unit := do
  let i ← seedImageAt binding
  let target := i.name ++ "[" ++ toString x ++ ", " ++ toString y ++ "]"
  if i.width ≤ x ∨ i.height ≤ y then invalidSeed target (.outsideImage i.width i.height)
  else if bytes.length ≠ i.format.texelSize then
    invalidSeed target (.texelBytes i.format bytes.length)
  else modifyImage binding fun i => i.set (i.position x.toNat y.toNat) bytes

/-- Replace a texture. -/
def seedTexture (binding : Binding) (t : Texture) : StoreM Unit := do
  match (← get).textures.get? binding with
  | some _ => modify fun s => { s with textures := s.textures.modify binding fun _ => t }
  | none => invalidSeed ("sampler binding " ++ toString binding) .noSampler

/-- Set all values of a uniform. -/
def seedUniform (slot : Nat) (values : List Value) : StoreM Unit := do
  match (← get).uniforms[slot]? with
  | none => invalidSeed ("uniform #" ++ toString slot) .noUniformSlot
  | some u =>
    if values.length ≠ u.values.length ∨ values.any (fun v => v.ty ≠ u.ty) then
      invalidSeed u.name (.uniformValues u.values.length u.ty)
    else modify fun s => { s with uniforms := s.uniforms.set slot { u with values } }

end Store

end ComputeShader
