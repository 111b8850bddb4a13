import ComputeShader.Proofs.SinglesAsDoubles
import ComputeShader.Proofs.SnapshotMatching
import ComputeShader.Proofs.StoreCells

/-! # Comparing without a tolerance

Snapshots made of whole elements and texels match without a tolerance exactly if they have the same
contents, save that a float lane may be zero on both sides with different signs: the difference of two
floats is zero only if they are the same number, but the two zeros are the same number.
-/

namespace ComputeShader

/-! ## Lanes -/

namespace Double

theorem magnitude_abs (x : Double) : x.abs.magnitude = x.magnitude := by
  show x.bits &&& _ &&& _ = x.bits &&& _
  rw [UInt64.and_assoc]
  rfl

theorem isNegative_abs (x : Double) : x.abs.isNegative = false := by
  simp only [isNegative, abs, magnitude, UInt64.and_assoc]
  show (x.bits &&& 0 != 0) = false
  simp

theorem abs_le_zero_iff (x : Double) : x.abs.le (ofSingle Single.zero) ↔ x.magnitude = 0 := by
  have zero : ofSingle Single.zero = ⟨0⟩ := by decide
  have rank : x.abs.rank = x.magnitude.toNat := by
    rw [Double.rank, isNegative_abs, magnitude_abs]
    rfl
  rw [le, zero, rank, isNaN, magnitude_abs]
  constructor
  · intro below
    have none : x.magnitude.toNat ≤ 0 := Int.ofNat_le.1 (of_decide_eq_true (Bool.and_eq_true_iff.1 below).2)
    exact UInt64.toNat_inj.1 (Nat.le_zero.1 none)
  · intro none
    rw [none]
    decide

end Double

theorem Single.eq_zero_or_of_magnitude {w : UInt32} (zero : (Single.mk w).magnitude = 0) :
    w = 0 ∨ w = 0x80000000 := by
  have rest : w.toNat % 2 ^ 31 = 0 := (magnitude_eq_zero_iff _).1 zero
  have bound := w.toNat_lt
  rw [← UInt32.toNat_inj, ← UInt32.toNat_inj]
  show w.toNat = 0 ∨ w.toNat = 2 ^ 31
  omega

namespace LaneKind

/-- Two float lanes hold the zeros of either sign. -/
def OppositeZeros (k : LaneKind) (e o : UInt32) : Prop :=
  k = .float ∧ e ≠ o ∧ (Single.mk e).magnitude = 0 ∧ (Single.mk o).magnitude = 0

variable {k : LaneKind} {e o : UInt32} {expected observed : List UInt32}

/-- Lanes that agree without a tolerance have the same pattern, or are zeros of either sign. -/
theorem agree_none_iff : k.agree none e o ↔ e = o ∨ k.OppositeZeros e o := by
  rw [agree, Bool.or_eq_true, beq_iff_eq, Bool.and_eq_true]
  constructor
  · rintro (same | ⟨float, near⟩)
    · exact .inl same
    · obtain rfl : k = .float := by
        cases k with
        | float => rfl
        | unsigned | signed => cases float
      rcases Double.eq_of_ofSingle_sub ((Double.abs_le_zero_iff _).1 near) with ⟨zero, zero'⟩ | same
      · exact or_iff_not_imp_left.2 fun differ => ⟨rfl, differ, zero, zero'⟩
      · exact .inl (Single.mk.inj same)
  · rintro (same | ⟨rfl, -, zero, zero'⟩)
    · exact .inl same
    · refine .inr ⟨rfl, ?_⟩
      rcases Single.eq_zero_or_of_magnitude zero with rfl | rfl <;>
        rcases Single.eq_zero_or_of_magnitude zero' with rfl | rfl <;> decide

theorem agreeThroughout_none_iff : k.AgreeThroughout none expected observed ↔
    List.Forall₂ (fun e o => e = o ∨ k.OppositeZeros e o) expected observed := by
  simp only [AgreeThroughout, agree_none_iff]

/-- Lanes have the same patterns if they all agree without a tolerance and none are zeros of either
sign. -/
theorem eq_iff_agreeThroughout (k : LaneKind) (expected observed : List UInt32) :
    expected = observed ↔ k.AgreeThroughout none expected observed ∧
      ∀ lanes ∈ expected.zip observed, ¬ k.OppositeZeros lanes.1 lanes.2 := by
  rw [AgreeThroughout, List.forall₂_iff_zip, ← List.forall₂_eq_eq_eq, List.forall₂_iff_zip, and_assoc]
  refine and_congr_right fun _ => ⟨fun same => ⟨?_, ?_⟩, ?_⟩
  · exact fun held => agree_none_iff.2 (.inl (same held))
  · exact fun lanes held opposite => opposite.2.1 (same held)
  · rintro ⟨agree, distinct⟩
    exact fun held => (agree_none_iff.1 (agree held)).resolve_right (distinct _ held)

end LaneKind

/-! ## Resources -/

namespace BufferSnapshot

variable {epsilon : Option Single} {e o : BufferSnapshot}

/-- The lanes make whole elements. -/
def WellFormed (b : BufferSnapshot) : Prop := b.lanes.length % b.element.components = 0

/-- Two buffers are equal but for their names. -/
structure SameContents (e o : BufferSnapshot) : Prop where
  element : e.element = o.element
  lanes : e.lanes = o.lanes

/-- At some lane the buffers hold the zeros of either sign. -/
def OppositeZeros (e o : BufferSnapshot) : Prop :=
  ∃ lanes ∈ e.lanes.zip o.lanes,
    (LaneKind.ofScalarKind e.element.kind).OppositeZeros lanes.1 lanes.2

theorem Matches.matchesInPart (covered : e.Matches epsilon o) : e.MatchesInPart epsilon o := by
  obtain ⟨same, agree⟩ := LaneKind.agreeThroughout_iff.1 covered.lanes
  exact ⟨covered.element, by rw [length, length, same, covered.element], agree⟩

theorem matchesInPart_iff (proper : e.WellFormed) (proper' : o.WellFormed) :
    e.MatchesInPart epsilon o ↔ e.Matches epsilon o :=
  ⟨fun matched => matched.matches_iff.2 (proper.trans proper'.symm), Matches.matchesInPart⟩

theorem sameContents_iff : e.SameContents o ↔ e.Matches none o ∧ ¬ e.OppositeZeros o := by
  have lanes := LaneKind.eq_iff_agreeThroughout (.ofScalarKind e.element.kind) e.lanes o.lanes
  constructor
  · rintro ⟨element, same⟩
    obtain ⟨agree, distinct⟩ := lanes.1 same
    refine ⟨⟨element, agree⟩, ?_⟩
    rintro ⟨_, held, opposite⟩
    exact distinct _ held opposite
  · rintro ⟨⟨element, agree⟩, distinct⟩
    exact ⟨element, lanes.2 ⟨agree, fun _ held opposite => distinct ⟨_, held, opposite⟩⟩⟩

end BufferSnapshot

namespace ImageSnapshot

variable {epsilon : Option Single} {e o : ImageSnapshot}

/-- The texels fill the extent. -/
def WellFormed (i : ImageSnapshot) : Prop :=
  i.texels.length = i.width.toNat * i.height.toNat * i.format.texelSize

/-- Two images are equal but for their names. -/
structure SameContents (e o : ImageSnapshot) : Prop where
  format : e.format = o.format
  width : e.width = o.width
  height : e.height = o.height
  texels : e.texels = o.texels

/-- At some lane the images hold the zeros of either sign. -/
def OppositeZeros (e o : ImageSnapshot) : Prop :=
  ∃ lanes ∈ e.lanes.zip o.lanes, e.format.laneKind.OppositeZeros lanes.1 lanes.2

theorem matchesInPart_iff (proper : e.WellFormed) (proper' : o.WellFormed) :
    e.MatchesInPart epsilon o ↔ e.Matches epsilon o := by
  refine ⟨fun matched => matched.matches_iff.2 ?_, fun covered => ?_⟩
  · rw [proper, proper', matched.format, matched.width, matched.height]
  · exact ⟨covered.format, covered.width, covered.height,
      (LaneKind.agreeThroughout_iff.1 covered.lanes).2⟩

theorem WellFormed.inLanes (proper : e.WellFormed) : e.InLanes := by
  have lane : e.format.texelSize % e.format.laneSize = 0 := by
    cases e.format <;> rfl
  rw [inLanes_iff, proper, Nat.mul_mod, lane, Nat.mul_zero, Nat.zero_mod]

/-- Texels made of whole lanes are determined by them. -/
theorem texels_eq_of_lanes (format : e.format = o.format) (whole : e.InLanes) (whole' : o.InLanes)
    (same : e.lanes = o.lanes) : e.texels = o.texels := by
  rw [inLanes_iff, TexelFormat.laneSize] at whole whole'
  rw [lanes, lanes, ← format] at same
  rw [← format] at whole'
  split at same
  · exact List.map_injective_iff.2 (fun x y => UInt8.toUInt32_inj.1) same
  · next words =>
    rw [if_neg words] at whole whole'
    rw [← LittleEndian.flatMap_bytes_words whole, same, LittleEndian.flatMap_bytes_words whole']

theorem sameContents_iff (proper : e.WellFormed) (proper' : o.WellFormed) :
    e.SameContents o ↔ e.Matches none o ∧ ¬ e.OppositeZeros o := by
  have lanes := LaneKind.eq_iff_agreeThroughout e.format.laneKind e.lanes o.lanes
  constructor
  · rintro ⟨format, width, height, same⟩
    obtain ⟨agree, distinct⟩ := lanes.1 (by rw [ImageSnapshot.lanes, ImageSnapshot.lanes, format, same])
    refine ⟨⟨format, width, height, congrArg _ same, agree⟩, ?_⟩
    rintro ⟨_, held, opposite⟩
    exact distinct _ held opposite
  · rintro ⟨⟨format, width, height, -, agree⟩, distinct⟩
    have same := lanes.2 ⟨agree, fun _ held opposite => distinct ⟨_, held, opposite⟩⟩
    exact ⟨format, width, height, texels_eq_of_lanes format proper.inLanes proper'.inLanes same⟩

end ImageSnapshot

/-! ## Snapshots -/

namespace Snapshot

variable {epsilon : Option Single} {e o : Snapshot}

/-- Every buffer is made of whole elements, and the texels of every image fill its extent. -/
structure WellFormed (s : Snapshot) : Prop where
  buffers : ∀ key b, s.buffers.get? key = some b → b.WellFormed
  images : ∀ key i, s.images.get? key = some i → i.WellFormed

theorem length_of_mem_toList {α : Type} {pieces : Array (List α)} {size : Nat} {piece : List α}
    (each : ∀ i, i < pieces.size → (pieces.getD i []).length = size) (held : piece ∈ pieces.toList) :
    piece.length = size := by
  obtain ⟨i, inside, rfl⟩ := Array.mem_iff_getElem.1 (Array.mem_toList_iff.1 held)
  simpa [inside] using each i inside

theorem length_flatten_toList {α : Type} {pieces : Array (List α)} {size : Nat}
    (each : ∀ i, i < pieces.size → (pieces.getD i []).length = size) :
    pieces.toList.flatten.length = pieces.size * size := by
  have lengths : pieces.toList.map List.length = List.replicate pieces.size size := by
    refine List.eq_replicate_iff.2 ⟨by simp, fun n member => ?_⟩
    obtain ⟨piece, held, rfl⟩ := List.mem_map.1 member
    exact length_of_mem_toList each held
  rw [List.length_flatten, lengths, List.sum_replicate_nat]

/-- What a well-formed store is frozen to is well-formed. -/
theorem wellFormed_freeze {s : Store} (proper : s.WellFormed) : s.freeze.WellFormed where
  buffers key b found := by
    rw [Store.freeze, Bindings.get?_mapValues] at found
    obtain ⟨buffer, held, rfl⟩ := Option.map_eq_some_iff.1 found
    have lanes := length_flatten_toList fun i inside => (proper.buffers key buffer held i inside).1
    exact (congrArg (· % _) lanes).trans (Nat.mul_mod_left ..)
  images key i found := by
    rw [Store.freeze, Bindings.get?_mapValues] at found
    obtain ⟨image, held, rfl⟩ := Option.map_eq_some_iff.1 found
    obtain ⟨size, texels⟩ := proper.images key image held
    exact (length_flatten_toList texels).trans (congrArg (· * _) size)

/-- Two snapshots are equal but for names and diagnostics. -/
structure SameContents (e o : Snapshot) : Prop where
  buffers : e.buffers.Related BufferSnapshot.SameContents o.buffers
  images : e.images.Related ImageSnapshot.SameContents o.images

/-- At some lane of some resource the snapshots hold the zeros of either sign. -/
def OppositeZeros (e o : Snapshot) : Prop :=
  (∃ key a b, e.buffers.get? key = some a ∧ o.buffers.get? key = some b ∧ a.OppositeZeros b) ∨
    ∃ key a b, e.images.get? key = some a ∧ o.images.get? key = some b ∧ a.OppositeZeros b

/-- A match of well-formed snapshots covers every lane. -/
theorem compareSnapshots_wellFormed (proper : e.WellFormed) (proper' : o.WellFormed) :
    compareSnapshots epsilon e o = [] ↔
      e.buffers.Related (BufferSnapshot.Matches epsilon) o.buffers ∧
        e.images.Related (ImageSnapshot.Matches epsilon) o.images := by
  rw [compareSnapshots_eq_nil_iff]
  refine and_congr (Bindings.related_congr fun key a b found found' => ?_)
    (Bindings.related_congr fun key a b found found' => ?_)
  · exact BufferSnapshot.matchesInPart_iff (proper.buffers key a found) (proper'.buffers key b found')
  · exact ImageSnapshot.matchesInPart_iff (proper.images key a found) (proper'.images key b found')

/-- Well-formed snapshots with the same contents are those which match without a tolerance and nowhere
hold the zeros of either sign. -/
theorem sameContents_iff (proper : e.WellFormed) (proper' : o.WellFormed) :
    e.SameContents o ↔ compareSnapshots none e o = [] ∧ ¬ e.OppositeZeros o := by
  have buffers : e.buffers.Related BufferSnapshot.SameContents o.buffers ↔
      e.buffers.Related (BufferSnapshot.Matches none) o.buffers ∧ ∀ key a b,
        e.buffers.get? key = some a → o.buffers.get? key = some b → ¬ a.OppositeZeros b := by
    rw [← Bindings.related_and]
    exact Bindings.related_congr fun _ _ _ _ _ => BufferSnapshot.sameContents_iff
  have images : e.images.Related ImageSnapshot.SameContents o.images ↔
      e.images.Related (ImageSnapshot.Matches none) o.images ∧ ∀ key a b,
        e.images.get? key = some a → o.images.get? key = some b → ¬ a.OppositeZeros b := by
    rw [← Bindings.related_and]
    exact Bindings.related_congr fun key a b found found' =>
      ImageSnapshot.sameContents_iff (proper.images key a found) (proper'.images key b found')
  rw [compareSnapshots_wellFormed proper proper', OppositeZeros, not_or]
  simp only [not_exists, not_and]
  constructor
  · rintro ⟨left, right⟩
    obtain ⟨matches_left, distinct⟩ := buffers.1 left
    obtain ⟨matches_right, distinct'⟩ := images.1 right
    exact ⟨⟨matches_left, matches_right⟩, distinct, distinct'⟩
  · rintro ⟨⟨left, right⟩, distinct, distinct'⟩
    exact ⟨buffers.2 ⟨left, distinct⟩, images.2 ⟨right, distinct'⟩⟩

/-- Well-formed snapshots match without a tolerance exactly if they have the same bindings, types,
formats and extents and, lane by lane, the same patterns or the zeros of either sign. They have the
same contents exactly if the latter does not occur. -/
theorem exact_match_iff (proper : e.WellFormed) (proper' : o.WellFormed) :
    (compareSnapshots none e o = [] ↔
      e.buffers.Related (fun a b => a.element = b.element ∧ List.Forall₂ (fun x y => x = y ∨
        (LaneKind.ofScalarKind a.element.kind).OppositeZeros x y) a.lanes b.lanes) o.buffers ∧
      e.images.Related (fun a b => a.format = b.format ∧ a.width = b.width ∧ a.height = b.height ∧
        List.Forall₂ (fun x y => x = y ∨ a.format.laneKind.OppositeZeros x y) a.lanes b.lanes)
        o.images) ∧
    (e.SameContents o ↔ compareSnapshots none e o = [] ∧ ¬ e.OppositeZeros o) := by
  refine ⟨?_, sameContents_iff proper proper'⟩
  rw [compareSnapshots_wellFormed proper proper']
  simp only [← LaneKind.agreeThroughout_none_iff]
  refine and_congr (Bindings.related_congr fun key a b found found' => ?_)
    (Bindings.related_congr fun key a b found found' => ?_)
  · exact ⟨fun m => ⟨m.element, m.lanes⟩, fun ⟨element, lanes⟩ => ⟨element, lanes⟩⟩
  · refine ⟨fun m => ⟨m.format, m.width, m.height, m.lanes⟩, fun ⟨format, width, height, lanes⟩ => ?_⟩
    refine ⟨format, width, height, ?_, lanes⟩
    rw [proper.images key a found, proper'.images key b found', format, width, height]

theorem holding_wellFormed (lanes : List UInt32) {texels : List UInt8} (word : texels.length = 4) :
    (holding (.scalar .float) lanes .r32f texels).WellFormed where
  buffers key b found := by
    obtain ⟨rfl, rfl⟩ : key = 0 ∧ b = ⟨"b", .scalar .float, lanes⟩ := by
      simpa using Bindings.mem_of_get?_ofList found
    exact Nat.mod_one _
  images key i found := by
    obtain ⟨rfl, rfl⟩ : key = 0 ∧ i = ⟨"i", .r32f, 1, 1, texels⟩ := by
      simpa using Bindings.mem_of_get?_ofList found
    exact word

theorem exact_match_iff_zeros :
    let e := holding (.scalar .float) [5, 0] .r32f [0, 0, 0, 0]
    let o := holding (.scalar .float) [5, 2147483648] .r32f [0, 0, 0, 128]
    e.WellFormed ∧ o.WellFormed ∧ compareSnapshots none e o = [] ∧ ¬ e.SameContents o := by
  intro e o
  have proper : e.WellFormed := holding_wellFormed _ rfl
  have proper' : o.WellFormed := holding_wellFormed _ rfl
  have opposite : e.OppositeZeros o :=
    .inl ⟨0, _, _, rfl, rfl, (0, 2147483648), by decide, rfl, by decide, by decide, by decide⟩
  exact ⟨proper, proper', by decide, fun same => ((exact_match_iff proper proper').2.1 same).2 opposite⟩

/-- Well-formed snapshots read from texts match without a tolerance although a lane of theirs differs
in the sign of a zero. -/
theorem match_of_opposite_zeros : ∃ e o : Snapshot,
    Snapshot.decode? (holdingText "float" "[0]" "r32f" "[0,0,0,0]") = some e ∧
      Snapshot.decode? (holdingText "float" "[2147483648]" "r32f" "[0,0,0,0]") = some o ∧
      e.WellFormed ∧ o.WellFormed ∧ compareSnapshots none e o = [] ∧ ¬ e.SameContents o :=
  ⟨holding (.scalar .float) [0] .r32f [0, 0, 0, 0],
    holding (.scalar .float) [2147483648] .r32f [0, 0, 0, 0], by decide +kernel, by decide +kernel,
    holding_wellFormed _ rfl, holding_wellFormed _ rfl, by decide,
    fun same => absurd (same.buffers.at 0 rfl rfl).lanes (by decide)⟩

end Snapshot

end ComputeShader
