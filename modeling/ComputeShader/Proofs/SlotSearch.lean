import ComputeShader.Proofs.FirstFit

/-! # Searching for slots

A clash and a free start are both searched for: a given run is gone through slot by slot, and an implicit one
is tried at one start after the other, from slot zero on. The lowest clash and the lowest free start are what
these searches find. How many starts are tried depends on the widths of the runs that are taken, which a
declaration may choose freely, and is bounded by the number of slots only.
-/

namespace ComputeShader

namespace SlotRange

variable {a : SlotRange} {taken : List SlotRange} {width bound slot start : Nat}

/-! ## Slot by slot -/

/-- The slots of a range, from the lowest on. -/
def slots (r : SlotRange) : List Nat := List.range' r.start (r.stop - r.start)

theorem mem_slots : slot ∈ a.slots ↔ a.Holds slot := by
  rw [slots, List.mem_range'_1, Holds]
  omega

theorem length_slots_wrapped (start width : Nat) : (wrapped start width).slots.length ≤ slotLimit := by
  have below : (wrapped start width).stop ≤ slotLimit := Nat.le_of_lt_succ (Nat.mod_lt _ (Nat.succ_pos _))
  rw [slots, List.length_range']
  exact (Nat.sub_le _ _).trans below

/-- Whether a slot is in one of the ranges. -/
def isTaken (taken : List SlotRange) (slot : Nat) : Bool := taken.any fun t => t.Holds slot

theorem isTaken_iff : isTaken taken slot = true ↔ ∃ t ∈ taken, t.Holds slot := by
  simp only [isTaken, List.any_eq_true, decide_eq_true_eq]

/-- The lowest clash is the first slot of the range that is found to be taken. -/
theorem find?_isTaken_slots (a : SlotRange) (taken : List SlotRange) :
    a.slots.find? (isTaken taken) = a.lowestClash? taken := by
  cases clash : a.lowestClash? taken with
  | none =>
    have apart := lowestClash?_eq_none_iff.1 clash
    refine List.find?_eq_none.2 fun slot member held => ?_
    obtain ⟨t, inTaken, holds⟩ := isTaken_iff.1 held
    exact apart t inTaken slot (mem_slots.1 member) holds
  | some lowest =>
    obtain ⟨⟨held, shared⟩, least⟩ := lowestClash?_isLeast clash
    refine List.find?_range'_eq_some.2 ⟨isTaken_iff.2 shared, mem_slots.2 held, fun slot above below => ?_⟩
    rw [Bool.not_eq_true', Bool.eq_false_iff]
    intro taken
    have inRange : a.Holds slot := ⟨above, Nat.lt_trans below held.2⟩
    exact Nat.not_le.2 below (least ⟨inRange, isTaken_iff.1 taken⟩)

/-! ## Start by start -/

/-- Whether none of the slots is taken that a run is found to hold at a start. -/
def isFree (taken : List SlotRange) (width start : Nat) : Bool :=
  (wrapped start width).slots.all fun slot => !isTaken taken slot

theorem isFree_iff : isFree taken width start = true ↔ ∀ t ∈ taken, (wrapped start width).Disjoint t := by
  simp only [isFree, List.all_eq_true, Bool.not_eq_true', Bool.eq_false_iff, Ne, isTaken_iff, mem_slots]
  constructor
  · exact fun free t member slot held holds => free slot held ⟨t, member, holds⟩
  · rintro free slot held ⟨t, member, holds⟩
    exact free t member slot held holds

/-- The first free start, if it is among as many as are tried. -/
def tryStarts (taken : List SlotRange) (width tries : Nat) : Option Nat :=
  (List.range tries).find? (isFree taken width)

/-- All starts below the lowest free one are tried before it is found. -/
theorem tryStarts_eq (taken : List SlotRange) (fits : width ≤ slotLimit) (tries : Nat) :
    tryStarts taken width tries =
      if firstFree taken width < tries then some (firstFree taken width) else none := by
  have least := firstFree_isLeast_wrapped taken fits
  have unfree {start : Nat} (below : start < firstFree taken width) : isFree taken width start = false := by
    rw [Bool.eq_false_iff]
    exact fun free => Nat.not_le.2 below (least.2 (isFree_iff.1 free))
  split
  · next within =>
    refine List.find?_range_eq_some.2 ⟨isFree_iff.2 least.1, List.mem_range.2 within, fun start below => ?_⟩
    rw [unfree below]
    rfl
  · next beyond =>
    refine List.find?_eq_none.2 fun start member => ?_
    have tried := List.mem_range.1 member
    rw [unfree (Nat.lt_of_lt_of_le tried (Nat.not_lt.1 beyond))]
    exact Bool.false_ne_true

/-- A start is found among the slots there are. -/
theorem firstFree_le_slotLimit (taken : List SlotRange) (fits : width ≤ slotLimit) :
    firstFree taken width ≤ slotLimit := by
  rcases Nat.eq_zero_or_pos width with rfl | some
  · -- A run of no slots is free at slot zero.
    refine ((firstFree_isLeast_wrapped taken fits).2 ?_).trans (Nat.zero_le _)
    rintro t - slot ⟨-, below⟩
    exact absurd below (Nat.not_lt_zero _)
  · exact (firstFree_spec taken fits).1.trans (by omega)

/-- While runs fit behind everything that is taken, no start is tried at which a run would end beyond the
slots. -/
theorem firstFree_add_le (bounded : ∀ t ∈ taken, t.stop ≤ bound) (fits : bound + width ≤ slotLimit) :
    firstFree taken width + width ≤ slotLimit :=
  (Nat.add_le_add_right ((firstFree_isLeast bounded fits).2 (bound_mem_freeStarts bounded)) width).trans fits

end SlotRange

theorem SlotRequest.length_slots_claim {r : SlotRequest} {range : SlotRange} (claims : r.claim? = some range) :
    range.slots.length ≤ slotLimit := by
  obtain ⟨start, -, rfl⟩ := Option.map_eq_some_iff.1 claims
  rw [SlotRange.slots, List.length_range']
  exact (Nat.sub_le _ _).trans (Nat.min_le_right _ _)

end ComputeShader
