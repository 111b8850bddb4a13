import ComputeShader.Shader.Model

/-! # The grid of a dispatch

An invocation is a cell of a workgroup in a grid of workgroups. Sequential order takes workgroup
after workgroup and within each the cells, `x` fastest.
-/

namespace ComputeShader

/-- Where one invocation is. -/
structure Invocation where
  workgroup : Extent3
  cell : Extent3
  groups : Extent3
  localSize : Extent3
  deriving DecidableEq, Repr, Inhabited

namespace Invocation

/-- The position in the whole grid of cells. -/
def globalId (i : Invocation) : Extent3 :=
  ⟨i.workgroup.x * i.localSize.x + i.cell.x, i.workgroup.y * i.localSize.y + i.cell.y,
    i.workgroup.z * i.localSize.z + i.cell.z⟩

/-- The position in sequential order within the workgroup. -/
def localIndex (i : Invocation) : UInt32 :=
  i.cell.z * i.localSize.x * i.localSize.y + i.cell.y * i.localSize.x + i.cell.x

/-- The position in sequential order, a 64-bit number. -/
def id (i : Invocation) : Nat :=
  let group := (i.workgroup.z.toNat * i.groups.y.toNat + i.workgroup.y.toNat) * i.groups.x.toNat +
    i.workgroup.x.toNat
  (group * i.localSize.volume + i.localIndex.toNat) % 18446744073709551616

private def triple (e : Extent3) : Value := Value.uvec3 e.x e.y e.z

/-- The value of a built-in variable. -/
def builtin (i : Invocation) : Builtin → Value
  | .localInvocationId => triple i.cell
  | .globalInvocationId => triple i.globalId
  | .localInvocationIndex => Value.uint i.localIndex
  | .workGroupId => triple i.workgroup
  | .numWorkGroups => triple i.groups
  | .workGroupSize => triple i.localSize

end Invocation

/-- The cells of a grid, `x` fastest. -/
def Extent3.cells (e : Extent3) : List Extent3 :=
  (List.range e.z.toNat).flatMap fun z =>
    (List.range e.y.toNat).flatMap fun y =>
      (List.range e.x.toNat).map fun x => ⟨UInt32.ofNat x, UInt32.ofNat y, UInt32.ofNat z⟩

/-- The invocations of a dispatch in sequential order. -/
def invocations (localSize groups : Extent3) : List Invocation :=
  groups.cells.flatMap fun workgroup =>
    localSize.cells.map fun cell => { workgroup, cell, groups, localSize }

end ComputeShader
