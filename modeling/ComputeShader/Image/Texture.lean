import ComputeShader.Image.LittleEndian
import ComputeShader.Numeric.Single

/-! # Textures and samplers

A texture is an extent filled with a pattern of `rgba8` texels. A sampler answers a lookup with
four floats or says why it cannot; `nearest` reads single texels exactly.
-/

namespace ComputeShader

/-- What the texels of a texture hold. -/
inductive TexturePattern where
  | zero
  | index
  deriving DecidableEq, Repr, Inhabited

def TexturePattern.name : TexturePattern → String
  | zero => "zero"
  | index => "index"

def TexturePattern.all : List TexturePattern := [zero, index]

/-- A two-dimensional texture of one level. -/
structure Texture where
  width : UInt32
  height : UInt32
  pattern : TexturePattern
  deriving DecidableEq, Repr, Inhabited

/-- The four bytes of a texel; the index pattern stores the row-major position of the texel. -/
def Texture.texel (t : Texture) (x y : Nat) : List UInt8 :=
  match t.pattern with
  | .zero => [0, 0, 0, 0]
  | .index => LittleEndian.bytes (UInt32.ofNat (y * t.width.toNat + x))

/-- A texture lookup at normalized coordinates, with an optional level-of-detail bias. -/
structure SampleRequest where
  x : Single
  y : Single
  bias : Option Single
  deriving DecidableEq, Repr

/-- Why a sampler gives no answer. -/
inductive SamplerFault where
  | notAttached
  | noTexels
  | biasUnsupported
  deriving DecidableEq, Repr

def SamplerFault.message : SamplerFault → String
  | notAttached => "no external sampler oracle is attached"
  | noTexels => "texture has no texels"
  | biasUnsupported => "a level-of-detail bias needs mipmaps, which nearest sampling lacks"

/-- What answers texture lookups. -/
inductive Sampler where
  | external
  | nearest
  deriving DecidableEq, Repr, Inhabited

namespace Sampler

def name : Sampler → String
  | external => "external"
  | nearest => "nearest"

def all : List Sampler := [external, nearest]

/-- The texel row or column of a normalized coordinate: coordinates past an edge, and NaN, read
the texel at an edge. -/
def nearestIndex (c : Single) (extent : UInt32) : Nat :=
  ((c.mul (Single.ofInt extent.toNat)).toIntSaturating 0 (extent.toNat - 1)).toNat

/-- Answer a lookup. An external sampler is never attached. -/
def sample (s : Sampler) (t : Texture) (r : SampleRequest) : Except SamplerFault (List Single) :=
  match s with
  | external => .error .notAttached
  | nearest =>
    if t.width = 0 ∨ t.height = 0 then .error .noTexels
    else if r.bias.any (fun b => !b.eq Single.zero) then .error .biasUnsupported
    else
      let bytes := t.texel (nearestIndex r.x t.width) (nearestIndex r.y t.height)
      .ok (bytes.map fun b => (Single.ofInt b.toNat).div (Single.ofInt 255))

end Sampler

end ComputeShader
