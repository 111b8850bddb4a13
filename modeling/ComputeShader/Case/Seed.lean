import ComputeShader.Case.Basic
import ComputeShader.Store.Seeding

/-! # Seeding a store from a case

Buffers, images, textures and uniforms are set up in this order, each in the order of the case, so
that later seeds win.
-/

namespace ComputeShader

open Store

/-- A literal as a value, or an invalid seed of `target`. -/
def seedValue (target : String) (ty : ValueType) (l : Literal) : StoreM Value :=
  match l.toValue ty with
  | .ok v => pure v
  | .error fault => invalidSeed target (.literal fault)

/-- A literal as a texel, or an invalid seed of `target`. -/
def seedBytes (target : String) (format : TexelFormat) (l : Literal) : StoreM (List UInt8) :=
  match l.toTexel format with
  | .ok bytes => pure bytes
  | .error fault => invalidSeed target (.literal fault)

/-- The length that a seed gives to a buffer of length `current`. -/
def BufferSeed.lengthFrom (seed : BufferSeed) (current : Nat) : Nat :=
  match seed.length with
  | some length => length
  | none => if seed.data.isEmpty then current else seed.data.length

def BufferSeed.apply (seed : BufferSeed) : StoreM Unit := do
  let target := bufferTarget seed.binding
  let b ← seedBufferAt seed.binding
  let length := seed.lengthFrom b.length
  if length < seed.data.length ∧ seed.length.isSome then
    invalidSeed target (.dataTooLong seed.data.length length)
  allocateBuffer seed.binding length
  match seed.fill with
  | none => pure ()
  | some l => fillBuffer seed.binding (← seedValue target b.element l)
  seed.data.zipIdx.forM fun (l, index) => do
    seedElement seed.binding index (← seedValue target b.element l)
  seed.set.forM fun (index, l) => do
    seedElement seed.binding index (← seedValue target b.element l)

def ImageSeed.apply (seed : ImageSeed) : StoreM Unit := do
  let target := imageTarget seed.binding
  let i ← seedImageAt seed.binding
  if seed.width.toNat * seed.height.toNat < seed.data.length then
    invalidSeed target (.tooManyTexels seed.data.length seed.width seed.height)
  allocateImage seed.binding seed.width seed.height
  match seed.fill with
  | none => pure ()
  | some l => fillImage seed.binding (← seedBytes target i.format l)
  seed.data.zipIdx.forM fun (l, index) => do
    let bytes ← seedBytes target i.format l
    let position := UInt32.ofNat index
    seedTexel seed.binding (position % seed.width) (position / seed.width) bytes
  seed.texels.forM fun t => do
    seedTexel seed.binding t.x t.y (← seedBytes target i.format t.value)

/-- The values that a literal gives to a uniform; an array takes a list of them. -/
def UniformSeed.values (seed : UniformSeed) (ty : ValueType) (length : Option Nat) :
    StoreM (List Value) :=
  match length, seed.value with
  | none, l => do return [← seedValue seed.name ty l]
  | some _, .list items => items.mapM (seedValue seed.name ty)
  | some length, l => invalidSeed seed.name (.arrayExpected length ty l.description)

def UniformSeed.apply (seed : UniformSeed) : StoreM Unit := do
  match (← get).uniformSlot? seed.name with
  | none => invalidSeed seed.name .noUniform
  | some (slot, ty, length) => seedUniform slot (← seed.values ty length)

/-- Apply every seed of a case. -/
def Case.applySeeds (c : Case) : StoreM Unit := do
  c.buffers.forM BufferSeed.apply
  c.images.forM ImageSeed.apply
  c.samplers.forM fun s => seedTexture s.binding s.texture
  c.uniforms.forM UniformSeed.apply

/-- A store for a shader, seeded from a case. -/
def Case.seededStore (c : Case) (shader : Shader) : Except EngineError Store :=
  match c.applySeeds (Store.create shader c.engine) with
  | .ok _ store => .ok store
  | .error e _ => .error e

end ComputeShader
