import ComputeShader.Store.Bindings
import ComputeShader.Store.Diagnostics

/-! # Snapshots

The contents of buffers and images as plain words and bytes. A snapshot may come from outside, so
nothing promises that the contents fit the element types and extents beside them; the accessors
answer with nothing where they do not.
-/

namespace ComputeShader

structure BufferSnapshot where
  name : String
  element : ValueType
  lanes : List UInt32
  deriving DecidableEq, Repr, Inhabited

namespace BufferSnapshot

/-- The number of whole elements. -/
def length (b : BufferSnapshot) : Nat := b.lanes.length / b.element.components

/-- The element at an index, if all its lanes are there. -/
def element? (b : BufferSnapshot) (index : Nat) : Option Value :=
  let width := b.element.components
  let bits := (b.lanes.drop (index * width)).take width
  if bits.length = width then some (Value.ofBits b.element bits) else none

end BufferSnapshot

structure ImageSnapshot where
  name : String
  format : TexelFormat
  width : UInt32
  height : UInt32
  texels : List UInt8
  deriving DecidableEq, Repr, Inhabited

namespace ImageSnapshot

/-- Offsets into the texels are 64-bit numbers. -/
def offsetLimit : Nat := 18446744073709551616

/-- The offset of the first byte of a texel. -/
def offset (i : ImageSnapshot) (x y : UInt32) : Nat :=
  (y.toNat * i.width.toNat + x.toNat) * i.format.texelSize % offsetLimit

/-- The bytes of a texel inside the extent, if all of them are there. -/
def texelBytes? (i : ImageSnapshot) (x y : UInt32) : Option (List UInt8) :=
  if x < i.width ∧ y < i.height then
    let size := i.format.texelSize
    let stop := (i.offset x y + size) % offsetLimit
    let bytes := (i.texels.drop (i.offset x y)).take size
    if i.offset x y ≤ stop ∧ bytes.length = size then some bytes else none
  else none

/-- The value that loading a texel gives. -/
def texel? (i : ImageSnapshot) (x y : UInt32) : Option Value :=
  (i.texelBytes? x y).map i.format.decode

end ImageSnapshot

/-- The frozen contents of a store. -/
structure Snapshot where
  shader : String
  buffers : Bindings BufferSnapshot
  images : Bindings ImageSnapshot
  diagnostics : Diagnostics
  deriving DecidableEq, Repr, Inhabited

namespace Snapshot

/-- The element of a buffer. -/
def bufferElement? (s : Snapshot) (binding : Binding) (index : Nat) : Option Value :=
  (s.buffers.get? binding).bind fun b => b.element? index

/-- The texel of an image. -/
def imageTexel? (s : Snapshot) (binding : Binding) (x y : UInt32) : Option Value :=
  (s.images.get? binding).bind fun i => i.texel? x y

end Snapshot

end ComputeShader
