import Mathlib.Data.List.Nodup
import ComputeShader.Dispatch.Basic
import ComputeShader.Proofs.GridOrder

/-! # What the invocations of a grid cover

Every cell of every workgroup is one invocation of the grid, and a workgroup's invocations stand together.
A cell is told by its index in the workgroup, and as long as no axis passes 2^32 the global ids of the
invocations are the cells of one large grid. A schedule only permutes the invocations, and a dispatch
that succeeds has run each of them once.
-/

namespace ComputeShader

/-- Whether a cell lies in a grid of an extent. -/
structure Extent3.Contains (e c : Extent3) : Prop where
  x : c.x < e.x
  y : c.y < e.y
  z : c.z < e.z

/-- Where a list is counted by a function, that function tells the place of an item. -/
theorem eq_of_map_eq_range {α : Type} {f : α → Nat} {items : List α} {n k : Nat} {a : α}
    (counted : items.map f = List.range n) (found : items[k]? = some a) : f a = k := by
  have held : (List.range n)[k]? = some (f a) := by rw [← counted, List.getElem?_map, found, Option.map_some]
  obtain ⟨bound, value⟩ := List.getElem?_eq_some_iff.1 held
  rwa [List.getElem_range, eq_comm] at value

namespace Extent3

theorem mem_cells {e c : Extent3} : c ∈ e.cells ↔ e.Contains c := by
  simp only [cells, List.mem_flatMap, List.mem_map, List.mem_range]
  constructor
  · rintro ⟨z, hz, y, hy, x, hx, rfl⟩
    constructor <;> rw [UInt32.lt_iff_toNat_lt]
    · rwa [UInt32.toNat_ofNat_of_lt' (Nat.lt_trans hx e.x.toNat_lt)]
    · rwa [UInt32.toNat_ofNat_of_lt' (Nat.lt_trans hy e.y.toNat_lt)]
    · rwa [UInt32.toNat_ofNat_of_lt' (Nat.lt_trans hz e.z.toNat_lt)]
  · intro inside
    refine ⟨c.z.toNat, UInt32.lt_iff_toNat_lt.1 inside.z, c.y.toNat, UInt32.lt_iff_toNat_lt.1 inside.y,
      c.x.toNat, UInt32.lt_iff_toNat_lt.1 inside.x, ?_⟩
    simp only [UInt32.ofNat_toNat]

theorem eq_of_axes {a b : Extent3} (x : a.x = b.x) (y : a.y = b.y) (z : a.z = b.z) : a = b := by
  cases a
  cases b
  simp_all

theorem length_cells (e : Extent3) : e.cells.length = e.volume := by
  have counted := congrArg List.length e.map_position_cells
  rwa [List.length_map, List.length_range] at counted

end Extent3

theorem mem_invocations {localSize groups : Extent3} {i : Invocation} :
    i ∈ invocations localSize groups ↔ i.groups = groups ∧ i.localSize = localSize ∧
      groups.Contains i.workgroup ∧ localSize.Contains i.cell := by
  simp only [invocations, List.mem_flatMap, List.mem_map, Extent3.mem_cells]
  constructor
  · rintro ⟨workgroup, here, cell, inside, rfl⟩
    exact ⟨rfl, rfl, here, inside⟩
  · obtain ⟨workgroup, cell, _, _⟩ := i
    rintro ⟨rfl, rfl, here, inside⟩
    exact ⟨workgroup, here, cell, inside, rfl⟩

/-- Lists of one length that stand one after another are found at the multiples of that length. -/
theorem take_drop_flatMap {α β : Type} {f : α → List β} {n k : Nat} {a : α} {items : List α}
    (length : ∀ a ∈ items, (f a).length = n) (found : items[k]? = some a) :
    ((items.flatMap f).drop (k * n)).take n = f a := by
  induction items generalizing k with
  | nil => cases found
  | cons b rest ih =>
    have first := length b List.mem_cons_self
    rw [List.flatMap_cons]
    cases k with
    | zero =>
      obtain rfl : b = a := Option.some.inj found
      rw [Nat.zero_mul, List.drop_zero]
      exact List.take_left' first
    | succ k =>
      have later : (k + 1) * n = (f b).length + k * n := by rw [first, Nat.succ_mul, Nat.add_comm]
      rw [later, List.drop_length_add_append]
      exact ih (fun c member => length c (List.mem_cons_of_mem b member)) found

namespace Invocation

variable {i : Invocation}

/-- The index in the workgroup tells the cell. -/
theorem cell_of_localIndex (small : i.localSize.volume < 4294967296)
    (inside : i.localSize.Contains i.cell) :
    i.localIndex.toNat < i.localSize.volume ∧
      i.cell.x.toNat = i.localIndex.toNat % i.localSize.x.toNat ∧
      i.cell.y.toNat = i.localIndex.toNat / i.localSize.x.toNat % i.localSize.y.toNat ∧
      i.cell.z.toNat = i.localIndex.toNat / (i.localSize.x.toNat * i.localSize.y.toNat) := by
  have member : i.cell ∈ i.localSize.cells := Extent3.mem_cells.2 inside
  have left := UInt32.lt_iff_toNat_lt.1 inside.x
  have above := UInt32.lt_iff_toNat_lt.1 inside.y
  have row : i.localSize.position i.cell / i.localSize.x.toNat =
      i.cell.z.toNat * i.localSize.y.toNat + i.cell.y.toNat := by
    rw [Extent3.position, Nat.mul_comm, Nat.mul_add_div (by omega), Nat.div_eq_of_lt left, Nat.add_zero]
  rw [toNat_localIndex small member]
  refine ⟨Extent3.position_lt member, ?_, ?_, ?_⟩
  · rw [Extent3.position, Nat.mul_comm, Nat.mul_add_mod, Nat.mod_eq_of_lt left]
  · rw [row, Nat.mul_comm, Nat.mul_add_mod, Nat.mod_eq_of_lt above]
  · rw [← Nat.div_div_eq_div_mul, row, Nat.mul_comm, Nat.mul_add_div (by omega),
      Nat.div_eq_of_lt above, Nat.add_zero]

end Invocation

/-! ## Global ids -/

/-- One axis of the global id. -/
theorem toNat_axis {w s c n : UInt32} (fits : n.toNat * s.toNat < 4294967296) (group : w < n)
    (cell : c < s) : (w * s + c).toNat = w.toNat * s.toNat + c.toNat := by
  have below := UInt32.lt_iff_toNat_lt.1 group
  have within := UInt32.lt_iff_toNat_lt.1 cell
  have room : (w.toNat + 1) * s.toNat ≤ n.toNat * s.toNat := Nat.mul_le_mul_right _ below
  rw [Nat.succ_mul] at room
  rw [UInt32.toNat_add, UInt32.toNat_mul, Nat.mod_add_mod]
  exact Nat.mod_eq_of_lt (by omega)

theorem axis_lt {w s c n : UInt32} (fits : n.toNat * s.toNat < 4294967296) (group : w < n)
    (cell : c < s) : (w * s + c).toNat < n.toNat * s.toNat := by
  have within := UInt32.lt_iff_toNat_lt.1 cell
  have room : (w.toNat + 1) * s.toNat ≤ n.toNat * s.toNat :=
    Nat.mul_le_mul_right _ (UInt32.lt_iff_toNat_lt.1 group)
  rw [Nat.succ_mul] at room
  rw [toNat_axis fits group cell]
  omega

/-- Each position on the large axis is one of one workgroup and one cell. -/
theorem axis_inj {w w' s c c' n : UInt32} (fits : n.toNat * s.toNat < 4294967296) (group : w < n)
    (cell : c < s) (group' : w' < n) (cell' : c' < s) (same : w * s + c = w' * s + c') :
    w = w' ∧ c = c' := by
  have numbers := congrArg UInt32.toNat same
  rw [toNat_axis fits group cell, toNat_axis fits group' cell'] at numbers
  have left := UInt32.lt_iff_toNat_lt.1 cell
  have right := UInt32.lt_iff_toNat_lt.1 cell'
  have quotient := congrArg (· / s.toNat) numbers
  have remainder := congrArg (· % s.toNat) numbers
  simp only [Nat.mul_comm _ s.toNat, Nat.mul_add_mod, Nat.mod_eq_of_lt left, Nat.mod_eq_of_lt right]
    at remainder
  simp only [Nat.mul_comm _ s.toNat, Nat.mul_add_div (Nat.zero_lt_of_lt left), Nat.div_eq_of_lt left,
    Nat.div_eq_of_lt right] at quotient
  exact ⟨UInt32.toNat_inj.1 quotient, UInt32.toNat_inj.1 remainder⟩

theorem exists_axis {s n c : UInt32} (inside : c.toNat < n.toNat * s.toNat) :
    ∃ w d : UInt32, w < n ∧ d < s ∧ w * s + d = c := by
  have positive : 0 < s.toNat := Nat.pos_of_lt_mul_left inside
  refine ⟨c / s, c % s, ?_, ?_, ?_⟩
  · rw [UInt32.lt_iff_toNat_lt, UInt32.toNat_div]
    exact Nat.div_lt_of_lt_mul (Nat.mul_comm .. ▸ inside)
  · rw [UInt32.lt_iff_toNat_lt, UInt32.toNat_mod]
    exact Nat.mod_lt _ positive
  · rw [← UInt32.toNat_inj, UInt32.toNat_add, UInt32.toNat_mul, UInt32.toNat_div, UInt32.toNat_mod,
      Nat.mod_add_mod, Nat.mul_comm, Nat.div_add_mod]
    exact Nat.mod_eq_of_lt c.toNat_lt

/-- Whether along each axis of a grid there are fewer than 2^32 cells. -/
structure Extent3.AxesFit (localSize groups : Extent3) : Prop where
  x : groups.x.toNat * localSize.x.toNat < 4294967296
  y : groups.y.toNat * localSize.y.toNat < 4294967296
  z : groups.z.toNat * localSize.z.toNat < 4294967296

namespace Invocation

variable {localSize groups : Extent3}

theorem globalId_inj (fits : localSize.AxesFit groups) {i j : Invocation}
    (member : i ∈ invocations localSize groups) (member' : j ∈ invocations localSize groups)
    (same : i.globalId = j.globalId) : i = j := by
  obtain ⟨w, c, g, l⟩ := i
  obtain ⟨w', c', g', l'⟩ := j
  obtain ⟨rfl, rfl, here, inside⟩ := mem_invocations.1 member
  obtain ⟨rfl, rfl, here', inside'⟩ := mem_invocations.1 member'
  simp only [globalId, Extent3.mk.injEq] at same
  obtain ⟨wx, cx⟩ := axis_inj fits.x here.x inside.x here'.x inside'.x same.1
  obtain ⟨wy, cy⟩ := axis_inj fits.y here.y inside.y here'.y inside'.y same.2.1
  obtain ⟨wz, cz⟩ := axis_inj fits.z here.z inside.z here'.z inside'.z same.2.2
  have workgroups : w = w' := Extent3.eq_of_axes wx wy wz
  have cells : c = c' := Extent3.eq_of_axes cx cy cz
  rw [workgroups, cells]

/-- The global ids are the cells of the grid in which all workgroups lie side by side. -/
theorem mem_globalId (fits : localSize.AxesFit groups) {c : Extent3} :
    c ∈ (invocations localSize groups).map globalId ↔
      c.x.toNat < groups.x.toNat * localSize.x.toNat ∧
        c.y.toNat < groups.y.toNat * localSize.y.toNat ∧
        c.z.toNat < groups.z.toNat * localSize.z.toNat := by
  constructor
  · intro member
    obtain ⟨⟨w, d, g, l⟩, listed, rfl⟩ := List.mem_map.1 member
    obtain ⟨rfl, rfl, here, inside⟩ := mem_invocations.1 listed
    exact ⟨axis_lt fits.x here.x inside.x, axis_lt fits.y here.y inside.y,
      axis_lt fits.z here.z inside.z⟩
  · rintro ⟨left, above, deep⟩
    obtain ⟨wx, dx, hereX, insideX, sameX⟩ := exists_axis left
    obtain ⟨wy, dy, hereY, insideY, sameY⟩ := exists_axis above
    obtain ⟨wz, dz, hereZ, insideZ, sameZ⟩ := exists_axis deep
    refine List.mem_map.2 ⟨⟨⟨wx, wy, wz⟩, ⟨dx, dy, dz⟩, groups, localSize⟩, ?_, ?_⟩
    · exact mem_invocations.2 ⟨rfl, rfl, ⟨hereX, hereY, hereZ⟩, ⟨insideX, insideY, insideZ⟩⟩
    · simp only [globalId, sameX, sameY, sameZ]

end Invocation

/-! ## Permutations -/

namespace Shuffle

theorem swapDown_perm {α : Type} (n : Nat) (s : Stream) (items : Array α) :
    (swapDown n s items).Perm items := by
  induction n generalizing s items with
  | zero => exact .refl items
  | succ n ih =>
    simp only [swapDown]
    refine (ih _ _).trans ?_
    unfold Array.swapIfInBounds
    split
    · split
      · exact Array.swap_perm ..
      · exact .refl items
    · exact .refl items

/-- Whatever the seed, shuffling permutes. -/
theorem shuffled_perm {α : Type} (seed : UInt64) (items : List α) : (shuffled seed items).Perm items :=
  (swapDown_perm _ _ items.toArray).toList

end Shuffle

theorem Schedule.order_perm (s : Schedule) (all : List Invocation) : (s.order all).Perm all := by
  cases s with
  | sequential | parallel => exact .refl all
  | shuffled seed => exact Shuffle.shuffled_perm seed all

/-! ## The list of invocations -/

/-- What is promised of the list of a shader's invocations: it has every cell of every workgroup once, in the
order of the ids and workgroup by workgroup; the index in the workgroup tells the cell, and the global ids
are the cells of one large grid if they do not wrap around. -/
structure Shader.Enumerates (s : Shader) (groups : Extent3) : Prop where
  nodup : (invocations s.localSize groups).Nodup
  covers : ∀ i : Invocation, i ∈ invocations s.localSize groups ↔ i.groups = groups ∧
    i.localSize = s.localSize ∧ groups.Contains i.workgroup ∧ s.localSize.Contains i.cell
  ids : ∀ (p : Nat) (i : Invocation), (invocations s.localSize groups)[p]? = some i → i.id = p
  workgroups : ∀ k < groups.volume, ∃ w, groups.Contains w ∧ groups.position w = k ∧
    ((invocations s.localSize groups).drop (k * s.invocationsPerWorkgroup)).take
        s.invocationsPerWorkgroup =
      s.localSize.cells.map fun cell => ⟨w, cell, groups, s.localSize⟩
  indices : ∀ i ∈ invocations s.localSize groups,
    i.localIndex.toNat < s.localSize.volume ∧
      i.cell.x.toNat = i.localIndex.toNat % s.localSize.x.toNat ∧
      i.cell.y.toNat = i.localIndex.toNat / s.localSize.x.toNat % s.localSize.y.toNat ∧
      i.cell.z.toNat = i.localIndex.toNat / (s.localSize.x.toNat * s.localSize.y.toNat)
  globals : s.localSize.AxesFit groups →
    ((invocations s.localSize groups).map Invocation.globalId).Nodup ∧
      ∀ c : Extent3, c ∈ (invocations s.localSize groups).map Invocation.globalId ↔
        c.x.toNat < groups.x.toNat * s.localSize.x.toNat ∧
          c.y.toNat < groups.y.toNat * s.localSize.y.toNat ∧
          c.z.toNat < groups.z.toNat * s.localSize.z.toNat

/-- Among the cells of a grid, each is at its position. -/
theorem Extent3.exists_at_position {e : Extent3} {k : Nat} (bound : k < e.volume) :
    ∃ c, e.Contains c ∧ e.position c = k ∧ e.cells[k]? = some c := by
  have inside : k < e.cells.length := by rwa [e.length_cells]
  have found : e.cells[k]? = some e.cells[k] := List.getElem?_eq_getElem inside
  exact ⟨e.cells[k], mem_cells.1 (List.getElem_mem inside),
    eq_of_map_eq_range e.map_position_cells found, found⟩

theorem Shader.invocationsPerWorkgroup_eq {s : Shader} (small : s.localSize.volume < 4294967296) :
    s.invocationsPerWorkgroup = s.localSize.volume :=
  Nat.mod_eq_of_lt (by omega)

theorem Shader.enumerates {s : Shader} {groups : Extent3} (small : s.localSize.volume < 4294967296)
    (few : groups.volume * s.localSize.volume < 18446744073709551616) : s.Enumerates groups where
  nodup := .of_map _ (nodup_id_invocations small few)
  covers _ := mem_invocations
  ids _ _ found := eq_of_map_eq_range (map_id_invocations small few) found
  workgroups k bound := by
    obtain ⟨w, inside, position, found⟩ := Extent3.exists_at_position bound
    rw [invocationsPerWorkgroup_eq small]
    refine ⟨w, inside, position, take_drop_flatMap (fun _ _ => ?_) found⟩
    rw [List.length_map, Extent3.length_cells]
  indices i member := by
    obtain ⟨-, same, -, inside⟩ := mem_invocations.1 member
    rw [← same] at small inside ⊢
    exact Invocation.cell_of_localIndex small inside
  globals fits := by
    have nodup : (invocations s.localSize groups).Nodup := .of_map _ (nodup_id_invocations small few)
    refine ⟨nodup.map_on fun i member j member' => ?_, fun _ => Invocation.mem_globalId fits⟩
    exact Invocation.globalId_inj fits member member'

end ComputeShader
