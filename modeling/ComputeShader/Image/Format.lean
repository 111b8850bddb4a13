import ComputeShader.Image.LittleEndian
import ComputeShader.Value.Basic

/-! # Texel formats

How a texel's bytes become the four-component value of an image load (`decode`) and back
(`encode`). Normalized formats keep one byte per channel, all others a word per channel.
-/

namespace ComputeShader

/-- The texel format of an image. -/
inductive TexelFormat where
  | rgba8
  | rgba8Snorm
  | rgba32f
  | r32f
  | r32i
  | r32ui
  | rgba32i
  | rgba32ui
  deriving DecidableEq, Repr, Inhabited

namespace TexelFormat

def all : List TexelFormat :=
  [rgba8, rgba8Snorm, rgba32f, r32f, r32i, r32ui, rgba32i, rgba32ui]

/-- The spelling in a layout qualifier. -/
def name : TexelFormat → String
  | rgba8 => "rgba8"
  | rgba8Snorm => "rgba8_snorm"
  | rgba32f => "rgba32f"
  | r32f => "r32f"
  | r32i => "r32i"
  | r32ui => "r32ui"
  | rgba32i => "rgba32i"
  | rgba32ui => "rgba32ui"

def ofName? (name : String) : Option TexelFormat :=
  all.find? (fun f => f.name = name)

def channels : TexelFormat → Nat
  | r32f | r32i | r32ui => 1
  | rgba8 | rgba8Snorm | rgba32f | rgba32i | rgba32ui => 4

/-- Whether a channel is one byte that stands for a fraction. -/
def isNormalized : TexelFormat → Bool
  | rgba8 | rgba8Snorm => true
  | _ => false

/-- The number of bytes of a texel. -/
def texelSize (f : TexelFormat) : Nat :=
  if f.isNormalized then f.channels else 4 * f.channels

/-- The component kind of loaded values. -/
def kind : TexelFormat → ScalarKind
  | r32i | rgba32i => .int
  | r32ui | rgba32ui => .uint
  | rgba8 | rgba8Snorm | rgba32f | r32f => .float

/-- The image type that a declaration with this format uses. -/
def imageType (f : TexelFormat) : String :=
  match f.kind with
  | .int => "iimage2D"
  | .uint => "uimage2D"
  | _ => "image2D"

/-- The type of a loaded value. -/
def loadType (f : TexelFormat) : ValueType := .vector f.kind .four

def supportsAtomics : TexelFormat → Bool
  | r32i | r32ui => true
  | _ => false

/-! ## Normalized channels -/

/-- A byte as a fraction of 255. -/
def unormDecode (b : UInt8) : Single :=
  (Single.ofInt b.toNat).div (Single.ofInt 255)

/-- A byte as a signed fraction of 127; the least byte counts as -1. -/
def snormDecode (b : UInt8) : Single :=
  let x := (Single.ofInt b.toInt8.toInt).div (Single.ofInt 127)
  if x.lt (Single.ofInt (-1)) then Single.ofInt (-1) else x

/-- Clamp to `0 ..= 1` and round to the nearest byte. -/
def unormEncode (x : Single) : UInt8 :=
  UInt8.ofNat (((x.clamp Single.zero Single.one).mul (Single.ofInt 255)).roundAway).toNat

/-- Clamp to `-1 ..= 1` and round to the nearest signed byte. -/
def snormEncode (x : Single) : UInt8 :=
  (Int8.ofInt ((x.clamp (Single.ofInt (-1)) Single.one).mul (Single.ofInt 127)).roundAway).toUInt8

/-! ## Texels -/

/-- The patterns of the channels that a texel's bytes hold. -/
def channelBits (f : TexelFormat) (bytes : List UInt8) : List UInt32 :=
  match f with
  | rgba8 => bytes.map fun b => (unormDecode b).bits
  | rgba8Snorm => bytes.map fun b => (snormDecode b).bits
  | _ => LittleEndian.words bytes

/-- The value of a texel. Channels that the format lacks read as zero, the last one as one. -/
def decode (f : TexelFormat) (bytes : List UInt8) : Value :=
  let absent := [0, 0, 0, (Scalar.one f.kind).toBits]
  Value.ofBits f.loadType ((f.channelBits bytes).take f.channels ++ absent.drop f.channels)

/-- The bytes of the channels that the format has. -/
def encodeBits (f : TexelFormat) (bits : List UInt32) : List UInt8 :=
  (bits.take f.channels).flatMap fun w =>
    match f with
    | rgba8 => [unormEncode ⟨w⟩]
    | rgba8Snorm => [snormEncode ⟨w⟩]
    | _ => LittleEndian.bytes w

/-- The texel of a stored value, which must have the format's load type. -/
def encode (f : TexelFormat) (v : Value) : Except TypeError (List UInt8) :=
  if v.ty = f.loadType then .ok (f.encodeBits v.bits)
  else .error ⟨f.loadType.name ++ " for a " ++ f.name ++ " image", v.ty.name⟩

/-- The texel of a list of channels: all four, or exactly those that the format has. -/
def encodeChannels (f : TexelFormat) (channels : List Scalar) : Except TypeError (List UInt8) :=
  if channels.length = 4 ∨ channels.length = f.channels then
    .ok (f.encodeBits (channels.map Scalar.toBits))
  else .error ⟨toString f.channels ++ " channels for " ++ f.name,
    toString channels.length ++ " values"⟩

/-- The bytes of a fresh texel. -/
def zeroTexel (f : TexelFormat) : List UInt8 := List.replicate f.texelSize 0

end TexelFormat

end ComputeShader
