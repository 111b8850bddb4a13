import Mathlib.Data.List.Basic
import Mathlib.Tactic.Ring
import ComputeShader.Dispatch.Grid

/-! # The order of a grid

In sequential order the ids of the invocations count from zero, as long as they fit into their types:
a workgroup into 32 bits and the grid into 64.
-/

namespace ComputeShader

/-- Counting in two digits. -/
theorem range_flatMap_range (a b : Nat) :
    ((List.range a).flatMap fun i => (List.range b).map (i * b + ·)) = List.range (a * b) := by
  induction a with
  | zero => simp
  | succ a ih =>
    rw [List.range_succ, List.flatMap_append, ih, List.flatMap_singleton, Nat.succ_mul,
      List.range_add]

namespace Extent3

/-- The position of a cell, `x` fastest. -/
def position (e c : Extent3) : Nat :=
  (c.z.toNat * e.y.toNat + c.y.toNat) * e.x.toNat + c.x.toNat

/-- The cells of a grid are counted by their positions. -/
theorem map_position_cells (e : Extent3) : e.cells.map e.position = List.range e.volume := by
  have row (z y : Nat) (hz : z < e.z.toNat) (hy : y < e.y.toNat) :
      ((List.range e.x.toNat).map fun x =>
        e.position ⟨UInt32.ofNat x, UInt32.ofNat y, UInt32.ofNat z⟩) =
          (List.range e.x.toNat).map ((z * e.y.toNat + y) * e.x.toNat + ·) := by
    refine List.map_congr_left fun x member => ?_
    have hx := List.mem_range.1 member
    simp only [position, UInt32.toNat_ofNat_of_lt' (Nat.lt_trans hz e.z.toNat_lt),
      UInt32.toNat_ofNat_of_lt' (Nat.lt_trans hy e.y.toNat_lt),
      UInt32.toNat_ofNat_of_lt' (Nat.lt_trans hx e.x.toNat_lt)]
  calc e.cells.map e.position
      = (List.range e.z.toNat).flatMap fun z => (List.range e.y.toNat).flatMap fun y =>
          (List.range e.x.toNat).map ((z * e.y.toNat + y) * e.x.toNat + ·) := by
        simp only [cells, List.map_flatMap, List.map_map]
        refine List.flatMap_congr fun z hz => List.flatMap_congr fun y hy => ?_
        exact row z y (List.mem_range.1 hz) (List.mem_range.1 hy)
    _ = ((List.range e.z.toNat).flatMap fun z => (List.range e.y.toNat).map (z * e.y.toNat + ·)).flatMap
          fun i => (List.range e.x.toNat).map (i * e.x.toNat + ·) := by
        simp only [List.flatMap_assoc, List.flatMap_map]
    _ = List.range e.volume := by
        rw [range_flatMap_range, range_flatMap_range, volume,
          Nat.mul_comm (e.x.toNat * e.y.toNat), Nat.mul_comm e.x.toNat, Nat.mul_assoc]

theorem position_lt {e c : Extent3} (member : c ∈ e.cells) : e.position c < e.volume := by
  rw [← List.mem_range, ← map_position_cells]
  exact List.mem_map_of_mem member

end Extent3

namespace Invocation

/-- In a workgroup of fewer than 2^32 invocations the index does not wrap around. -/
theorem toNat_localIndex {i : Invocation} (small : i.localSize.volume < 4294967296)
    (member : i.cell ∈ i.localSize.cells) :
    i.localIndex.toNat = i.localSize.position i.cell := by
  have bound := Extent3.position_lt member
  have sum : i.localSize.position i.cell =
      i.cell.z.toNat * i.localSize.x.toNat * i.localSize.y.toNat +
        i.cell.y.toNat * i.localSize.x.toNat + i.cell.x.toNat := by
    rw [Extent3.position]
    ring
  rw [localIndex]
  simp only [UInt32.toNat_add, UInt32.toNat_mul, Nat.mod_add_mod, Nat.add_mod_mod, Nat.mod_mul_mod]
  rw [← sum]
  exact Nat.mod_eq_of_lt (by omega)

end Invocation

/-- The ids of the invocations of a grid are its positions, in order. -/
theorem map_id_invocations {localSize groups : Extent3} (small : localSize.volume < 4294967296)
    (few : groups.volume * localSize.volume < 18446744073709551616) :
    (invocations localSize groups).map Invocation.id =
      List.range (groups.volume * localSize.volume) := by
  have id_eq (workgroup cell : Extent3) (here : workgroup ∈ groups.cells)
      (inside : cell ∈ localSize.cells) :
      Invocation.id ⟨workgroup, cell, groups, localSize⟩ =
        groups.position workgroup * localSize.volume + localSize.position cell := by
    have index := @Invocation.toNat_localIndex ⟨workgroup, cell, groups, localSize⟩ small inside
    have below := Extent3.position_lt here
    have within := Extent3.position_lt inside
    have room : (groups.position workgroup + 1) * localSize.volume ≤
        groups.volume * localSize.volume := Nat.mul_le_mul_right _ below
    rw [Invocation.id, index]
    refine Nat.mod_eq_of_lt ?_
    show groups.position workgroup * localSize.volume + localSize.position cell < _
    rw [Nat.add_mul, Nat.one_mul] at room
    omega
  calc (invocations localSize groups).map Invocation.id
      = (groups.cells.map groups.position).flatMap fun g =>
          (localSize.cells.map localSize.position).map (g * localSize.volume + ·) := by
        simp only [invocations, List.map_flatMap, List.map_map, List.flatMap_map]
        refine List.flatMap_congr fun workgroup here => List.map_congr_left fun cell inside => ?_
        exact id_eq workgroup cell here inside
    _ = List.range (groups.volume * localSize.volume) := by
        rw [Extent3.map_position_cells, Extent3.map_position_cells, range_flatMap_range]

/-- No two invocations of a grid have the same id. -/
theorem nodup_id_invocations {localSize groups : Extent3} (small : localSize.volume < 4294967296)
    (few : groups.volume * localSize.volume < 18446744073709551616) :
    ((invocations localSize groups).map Invocation.id).Nodup :=
  map_id_invocations small few ▸ List.nodup_range

end ComputeShader
