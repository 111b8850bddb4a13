import ComputeShader.Proofs.SlotAssignment

/-! # First fit

The other half of what an assignment of slots is: not only that runs are apart, but where they are put.
While the runs fit behind the highest given one, no end of a run wraps around, so what a run is found to
hold is the run itself. Only slot zero and the ends of taken ranges are tried, and that is enough: a free
run whose start is neither can be moved down by one slot.
-/

namespace ComputeShader

namespace SlotRange

variable {a : SlotRange} {taken taken' : List SlotRange} {width bound : Nat}

/-- The slots at which a run of `width` meets nothing that is taken. -/
def freeStarts (taken : List SlotRange) (width : Nat) : Set Nat :=
  {start | ∀ t ∈ taken, Disjoint ⟨start, start + width⟩ t}

theorem mem_freeStarts {start : Nat} :
    start ∈ freeStarts taken width ↔ ∀ t ∈ taken, Disjoint ⟨start, start + width⟩ t :=
  .rfl

theorem freeStarts_congr (same : ∀ t, t ∈ taken ↔ t ∈ taken') :
    freeStarts taken width = freeStarts taken' width := by
  ext start
  simp only [mem_freeStarts, same]

/-- A free run that starts neither at slot zero nor at the end of a taken range can be moved down. -/
theorem freeStarts_pred {start : Nat} (free : start + 1 ∈ freeStarts taken width)
    (inner : start + 1 ∉ taken.map stop) : start ∈ freeStarts taken width := by
  rintro t member slot ⟨above, below⟩ ⟨begun, unended⟩
  have other : start + 1 ≠ t.stop := fun same => inner (List.mem_map.2 ⟨t, member, same.symm⟩)
  dsimp only at above below
  rcases Nat.eq_or_lt_of_le above with rfl | beyond
  · -- The slot moved onto is taken, so the next one is: the taken range does not end there.
    exact free t member (start + 1) ⟨Nat.le_refl _, by dsimp only; omega⟩ ⟨by omega, by omega⟩
  · exact free t member slot ⟨beyond, by dsimp only; omega⟩ ⟨begun, unended⟩

/-- Below every free start there is one among slot zero and the ends of what is taken. -/
theorem exists_start_le {start : Nat} (free : start ∈ freeStarts taken width) :
    ∃ lower ∈ 0 :: taken.map stop, lower ≤ start ∧ lower ∈ freeStarts taken width := by
  induction start with
  | zero => exact ⟨0, List.mem_cons_self, Nat.le_refl 0, free⟩
  | succ start ih =>
    by_cases tried : start + 1 ∈ taken.map stop
    · exact ⟨start + 1, List.mem_cons_of_mem 0 tried, Nat.le_refl _, free⟩
    · obtain ⟨lower, candidate, below, lowerFree⟩ := ih (freeStarts_pred free tried)
      exact ⟨lower, candidate, Nat.le_succ_of_le below, lowerFree⟩

theorem wrapped_of_le {start : Nat} (fits : start + width ≤ slotLimit) :
    wrapped start width = ⟨start, start + width⟩ := by
  rw [wrapped, Nat.mod_eq_of_lt (Nat.lt_succ_of_le fits)]

/-- Behind everything that is taken, all is free. -/
theorem bound_mem_freeStarts (bounded : ∀ t ∈ taken, t.stop ≤ bound) :
    bound ∈ freeStarts taken width := by
  rintro t member slot ⟨above, -⟩ ⟨-, below⟩
  exact Nat.not_lt.2 (bounded t member) (Nat.lt_of_le_of_lt above below)

/-- The lowest free start is the least of all at which nothing is met. -/
theorem firstFree_isLeast_wrapped (taken : List SlotRange) (fits : width ≤ slotLimit) :
    IsLeast {start | ∀ t ∈ taken, (wrapped start width).Disjoint t} (firstFree taken width) := by
  have least := firstFree_isLeast_chosen taken fits
  refine ⟨least.1.2, fun start free => ?_⟩
  by_cases within : start + width ≤ slotLimit
  · -- The run does not wrap around, so that one of the starts to choose from is free at or below it.
    have runFree : start ∈ freeStarts taken width := by
      rw [mem_freeStarts, ← wrapped_of_le within]
      exact free
    obtain ⟨lower, candidate, below, lowerFree⟩ := exists_start_le runFree
    refine (least.2 ⟨?_, ?_⟩).trans below
    · rcases List.mem_cons.1 candidate with rfl | ended
      · exact List.mem_cons_self
      · exact List.mem_cons_of_mem _ (List.mem_cons_of_mem _ ended)
    · rw [wrapped_of_le (by omega)]
      exact lowerFree
  · exact (firstFree_spec taken fits).1.trans (by omega)

/-- Where a run fits behind everything that is taken, the lowest free start is the least there is. -/
theorem firstFree_isLeast (bounded : ∀ t ∈ taken, t.stop ≤ bound) (fits : bound + width ≤ slotLimit) :
    IsLeast (freeStarts taken width) (firstFree taken width) := by
  have least := firstFree_isLeast_wrapped taken (Nat.le_of_add_left_le fits)
  have runs {start : Nat} (within : start ≤ bound) :
      (∀ t ∈ taken, (wrapped start width).Disjoint t) ↔ start ∈ freeStarts taken width := by
    rw [wrapped_of_le (by omega), mem_freeStarts]
  have within : firstFree taken width ≤ bound := least.2 ((runs (Nat.le_refl _)).2 (bound_mem_freeStarts bounded))
  refine ⟨(runs within).1 least.1, fun start free => ?_⟩
  by_cases behind : start ≤ bound
  · exact least.2 ((runs behind).2 free)
  · exact within.trans (Nat.le_of_not_le behind)

/-- A clash is reported with the lowest slot that is shared. -/
theorem lowestClash?_isLeast {slot : Nat} (clash : a.lowestClash? taken = some slot) :
    IsLeast {slot | a.Holds slot ∧ ∃ t ∈ taken, t.Holds slot} slot := by
  obtain ⟨member, least⟩ := List.min?_eq_some_iff.1 clash
  constructor
  · obtain ⟨t, met, rfl⟩ := List.mem_map.1 member
    obtain ⟨held, meets⟩ := List.mem_filter.1 met
    have shared := of_decide_eq_true meets
    exact ⟨⟨by omega, by omega⟩, t, held, by omega, by omega⟩
  · rintro other ⟨⟨above, below⟩, t, held, above', below'⟩
    have meets : a.meets t = true := decide_eq_true (by omega)
    have reported := least _ (List.mem_map.2 ⟨t, List.mem_filter.2 ⟨held, meets⟩, rfl⟩)
    omega

end SlotRange

/-! ## Requests that fit -/

variable {owner : String} {requests : List SlotRequest} {taken : List SlotRange} {bound : Nat}

/-- The ranges of the requests that give a start. -/
def givenRanges (requests : List SlotRequest) : List SlotRange := requests.filterMap SlotRequest.claim?

/-- The highest end of a given range; zero if no start is given. -/
def highestEnd (requests : List SlotRequest) : Nat :=
  ((givenRanges requests).map SlotRange.stop).max?.getD 0

/-- The sum of the widths of all requests that give no start. -/
def implicitWidth (requests : List SlotRequest) : Nat :=
  ((requests.filter (·.explicit.isNone)).map SlotRequest.width).foldr (· + ·) 0

theorem implicitWidth_cons_given {r : SlotRequest} {start : UInt32} (given : r.explicit = some start) :
    implicitWidth (r :: requests) = implicitWidth requests := by
  rw [implicitWidth, List.filter_cons_of_neg (by simp [given]), implicitWidth]

theorem implicitWidth_cons_implicit {r : SlotRequest} (implicit : r.explicit = none) :
    implicitWidth (r :: requests) = r.width + implicitWidth requests := by
  rw [implicitWidth, List.filter_cons_of_pos (by simp [implicit]), List.map_cons, List.foldr_cons,
    implicitWidth]

theorem stop_le_highestEnd : ∀ t ∈ givenRanges requests, t.stop ≤ highestEnd requests :=
  fun _ member => List.le_max?_getD_of_mem (List.mem_map_of_mem member)

/-- The runs of the requests that gave no start, once they have one. -/
def placedRanges (placed : List (SlotRequest × UInt32)) : List SlotRange :=
  (placed.filter (·.1.explicit.isNone)).map fun p => p.1.held p.2

section

variable {p : SlotRequest × UInt32} {placed : List (SlotRequest × UInt32)} {start : UInt32}

theorem placedRanges_cons_given (given : p.1.explicit = some start) :
    placedRanges (p :: placed) = placedRanges placed := by
  rw [placedRanges, List.filter_cons_of_neg (by simp [given]), placedRanges]

theorem placedRanges_cons_implicit (implicit : p.1.explicit = none) :
    placedRanges (p :: placed) = p.1.held p.2 :: placedRanges placed := by
  rw [placedRanges, List.filter_cons_of_pos (by simp [implicit]), List.map_cons, placedRanges]

end

/-- Given starts are kept, and every other run has the least start at which it meets neither a given
range nor the run of an earlier request. -/
structure FirstFit (requests : List SlotRequest) (starts : List UInt32) : Prop where
  length : starts.length = requests.length
  given : ∀ p ∈ requests.zip starts, ∀ start, p.1.explicit = some start → p.2 = start
  least : ∀ earlier r start later, requests.zip starts = earlier ++ (r, start) :: later →
    r.explicit = none →
    IsLeast (SlotRange.freeStarts (givenRanges requests ++ placedRanges earlier) r.width) start.toNat

theorem placeImplicit_length : (placeImplicit taken requests).length = requests.length := by
  induction requests generalizing taken with
  | nil => rfl
  | cons r rest ih =>
    cases explicit : r.explicit with
    | some start => simp only [placeImplicit, explicit, List.length_cons, ih]
    | none => simp only [placeImplicit, explicit, List.length_cons, ih]

theorem placeImplicit_given :
    ∀ p ∈ requests.zip (placeImplicit taken requests), ∀ start, p.1.explicit = some start → p.2 = start := by
  induction requests generalizing taken with
  | nil => exact List.forall_mem_nil _
  | cons r rest ih =>
    cases explicit : r.explicit with
    | some start =>
      simp only [placeImplicit, explicit]
      exact List.forall_mem_cons.2 ⟨fun start' given => Option.some.inj (explicit.symm.trans given), ih⟩
    | none =>
      simp only [placeImplicit, explicit]
      refine List.forall_mem_cons.2 ⟨fun start' given => ?_, ih⟩
      cases explicit.symm.trans given

/-- The run of a request at the lowest free start is what it is found to hold, and it ends where the taken
ranges do, or its width behind that, at the latest. -/
theorem SlotRequest.firstFree_held (r : SlotRequest) (bounded : ∀ t ∈ taken, t.stop ≤ bound)
    (fits : bound + r.width ≤ slotLimit) :
    IsLeast (SlotRange.freeStarts taken r.width) (SlotRange.firstFree taken r.width) ∧
      (UInt32.ofNat (SlotRange.firstFree taken r.width)).toNat = SlotRange.firstFree taken r.width ∧
      SlotRange.wrapped (SlotRange.firstFree taken r.width) r.width =
        r.held (.ofNat (SlotRange.firstFree taken r.width)) ∧
      ∀ t ∈ r.held (.ofNat (SlotRange.firstFree taken r.width)) :: taken, t.stop ≤ bound + r.width := by
  have least := SlotRange.firstFree_isLeast bounded fits
  have within := least.2 (SlotRange.bound_mem_freeStarts bounded)
  have number :
      (UInt32.ofNat (SlotRange.firstFree taken r.width)).toNat = SlotRange.firstFree taken r.width :=
    UInt32.toNat_ofNat_of_lt' (by simp only [slotLimit, UInt32.size] at *; omega)
  have run : SlotRange.wrapped (SlotRange.firstFree taken r.width) r.width =
      r.held (.ofNat (SlotRange.firstFree taken r.width)) := by
    rw [SlotRange.wrapped_of_le (by omega), SlotRequest.held, SlotRange.run, number]
  refine ⟨least, number, run, List.forall_mem_cons.2 ⟨?_, fun t member => ?_⟩⟩
  · rw [SlotRequest.held, SlotRange.run, number]
    exact Nat.add_le_add_right within _
  · exact Nat.le_add_right_of_le (bounded t member)

/-- Every run is put at the least start left free by what was taken at first and the runs put before it. -/
theorem placeImplicit_least (bounded : ∀ t ∈ taken, t.stop ≤ bound)
    (room : bound + implicitWidth requests ≤ slotLimit) :
    ∀ earlier r start later, requests.zip (placeImplicit taken requests) = earlier ++ (r, start) :: later →
      r.explicit = none →
      IsLeast (SlotRange.freeStarts (taken ++ placedRanges earlier) r.width) start.toNat := by
  induction requests generalizing taken bound with
  | nil =>
    intro earlier r start later split
    exact absurd split.symm (List.append_ne_nil_of_right_ne_nil _ (List.cons_ne_nil _ _))
  | cons first rest ih =>
    intro earlier r start later split implicit
    cases explicit : first.explicit with
    | some given =>
      simp only [placeImplicit, explicit, List.zip_cons_cons] at split
      rw [implicitWidth_cons_given explicit] at room
      rcases earlier with _ | ⟨p, earlier⟩
      · cases split
        cases implicit.symm.trans explicit
      · obtain ⟨rfl, behind⟩ := List.cons.inj split
        rw [placedRanges_cons_given explicit]
        exact ih bounded room earlier r start later behind implicit
    | none =>
      simp only [placeImplicit, explicit, List.zip_cons_cons] at split
      rw [implicitWidth_cons_implicit explicit] at room
      obtain ⟨least, number, run, bounded'⟩ := first.firstFree_held bounded (by omega)
      rcases earlier with _ | ⟨p, earlier⟩
      · cases split
        rw [number, placedRanges, List.filter_nil, List.map_nil, List.append_nil]
        exact least
      · obtain ⟨rfl, behind⟩ := List.cons.inj split
        rw [run] at behind
        have least' := ih bounded' (by omega) earlier r start later behind implicit
        rw [placedRanges_cons_implicit explicit]
        rwa [SlotRange.freeStarts_congr fun t => List.perm_middle.mem_iff]

/-! ## Clashes -/

/-- The first request, in order, whose given range meets an earlier one is reported, with the lowest slot
it shares with an earlier one. -/
def FirstClash (owner : String) (requests : List SlotRequest) (e : SourceError) : Prop :=
  ∃ earlier r later range slot, requests = earlier ++ r :: later ∧ r.claim? = some range ∧
    (givenRanges earlier).Pairwise SlotRange.Disjoint ∧
    IsLeast {slot | range.Holds slot ∧ ∃ t ∈ givenRanges earlier, t.Holds slot} slot ∧
    e = ⟨r.pos, .slotTaken owner slot⟩

/-- A refused claim is the first that meets what was taken before it. -/
theorem foldlM_claim_error {e : SourceError} (refused : requests.foldlM (claim owner) taken = .error e) :
    ∃ earlier r later range slot, requests = earlier ++ r :: later ∧ r.claim? = some range ∧
      earlier.foldlM (claim owner) taken = .ok ((givenRanges earlier).reverse ++ taken) ∧
      range.lowestClash? ((givenRanges earlier).reverse ++ taken) = some slot ∧
      e = ⟨r.pos, .slotTaken owner slot⟩ := by
  induction requests generalizing taken with
  | nil => cases refused
  | cons first rest ih =>
    rw [List.foldlM_cons] at refused
    cases given : first.claim? with
    | none =>
      have kept : claim owner taken first = .ok taken := by rw [claim, given]
      rw [kept] at refused
      obtain ⟨earlier, r, later, range, slot, rfl, claims, claimed, clash, reported⟩ := ih refused
      refine ⟨first :: earlier, r, later, range, slot, rfl, claims, ?_⟩
      rw [List.foldlM_cons, kept, givenRanges, List.filterMap_cons_none given]
      exact ⟨claimed, clash, reported⟩
    | some range =>
      cases clash : range.lowestClash? taken with
      | some slot =>
        have clashed : claim owner taken first = .error ⟨first.pos, .slotTaken owner slot⟩ := by
          simp only [claim, given, clash]
        rw [clashed] at refused
        cases refused
        exact ⟨[], first, rest, range, slot, rfl, given, rfl, clash, rfl⟩
      | none =>
        have kept : claim owner taken first = .ok (range :: taken) := by simp only [claim, given, clash]
        rw [kept] at refused
        obtain ⟨earlier, r, later, range', slot, rfl, claims, claimed, clash, reported⟩ := ih refused
        refine ⟨first :: earlier, r, later, range', slot, rfl, claims, ?_⟩
        rw [List.foldlM_cons, kept, givenRanges, List.filterMap_cons_some given, List.reverse_cons,
          List.append_assoc]
        exact ⟨claimed, clash, reported⟩

theorem FirstClash.not_disjoint {e : SourceError} (clash : FirstClash owner requests e) :
    ¬ (givenRanges requests).Pairwise SlotRange.Disjoint := by
  obtain ⟨earlier, r, later, range, slot, rfl, claims, -, ⟨⟨held, t, member, shared⟩, -⟩, -⟩ := clash
  intro disjoint
  rw [givenRanges, List.filterMap_append, List.filterMap_cons_some claims] at disjoint
  exact (List.pairwise_append.1 disjoint).2.2 t member range List.mem_cons_self slot shared held

/-- While the runs that give no start fit behind the highest end of a given range, slots are assigned first fit,
unless two given ranges overlap; then the first clash is reported. -/
theorem assignSlots_first_fit (owner : String) (requests : List SlotRequest)
    (room : highestEnd requests + implicitWidth requests ≤ slotLimit) :
    ((givenRanges requests).Pairwise SlotRange.Disjoint →
        ∃ starts, assignSlots owner requests = .ok starts ∧ FirstFit requests starts) ∧
      (¬ (givenRanges requests).Pairwise SlotRange.Disjoint →
        ∃ e, assignSlots owner requests = .error e ∧ FirstClash owner requests e) := by
  cases claimed : claimExplicit owner requests with
  | ok taken =>
    obtain ⟨claims, disjoint⟩ := foldlM_claim claimed .nil
    rw [List.append_nil] at claims
    have same (t : SlotRange) : t ∈ taken ↔ t ∈ givenRanges requests := claims ▸ List.mem_reverse
    refine ⟨fun _ => ⟨placeImplicit taken requests, by rw [assignSlots, claimed]; rfl, ?_⟩, fun overlap => ?_⟩
    · refine ⟨placeImplicit_length, placeImplicit_given, fun earlier r start later split implicit => ?_⟩
      have bounded : ∀ t ∈ taken, t.stop ≤ highestEnd requests := fun t member =>
        stop_le_highestEnd t ((same t).1 member)
      have least := placeImplicit_least bounded room earlier r start later split implicit
      have members (t : SlotRange) :
          t ∈ taken ++ placedRanges earlier ↔ t ∈ givenRanges requests ++ placedRanges earlier := by
        rw [List.mem_append, List.mem_append, same]
      rwa [SlotRange.freeStarts_congr members] at least
    · rw [claims, List.pairwise_reverse] at disjoint
      exact absurd (disjoint.imp SlotRange.Disjoint.symm) overlap
  | error e =>
    obtain ⟨earlier, r, later, range, slot, split, claims, taken, clash, reported⟩ :=
      foldlM_claim_error claimed
    rw [List.append_nil] at taken clash
    have disjoint := (foldlM_claim taken .nil).2
    rw [List.pairwise_reverse] at disjoint
    have least := SlotRange.lowestClash?_isLeast clash
    simp only [List.mem_reverse] at least
    have first : FirstClash owner requests e :=
      ⟨earlier, r, later, range, slot, split, claims, disjoint.imp SlotRange.Disjoint.symm, least, reported⟩
    refine ⟨fun apart => absurd apart first.not_disjoint, fun _ => ⟨e, ?_, first⟩⟩
    rw [assignSlots, claimed]
    rfl

/-- A wide run waits for a gap that holds all of it, while a later and narrower one takes the gap. -/
theorem assignSlots_first_fit_gap :
    let requests : List SlotRequest :=
      [⟨none, 2, ⟨1, 1⟩⟩, ⟨some 1, 2, ⟨2, 1⟩⟩, ⟨none, 1, ⟨3, 1⟩⟩, ⟨some 4, 3, ⟨4, 1⟩⟩]
    highestEnd requests + implicitWidth requests ≤ slotLimit ∧
      assignSlots "uniform" requests = .ok [7, 1, 0, 4] ∧ FirstFit requests [7, 1, 0, 4] := by
  intro requests
  have room : highestEnd requests + implicitWidth requests ≤ slotLimit := by decide +kernel
  have assigned : assignSlots "uniform" requests = .ok [7, 1, 0, 4] := by decide +kernel
  have disjoint : (givenRanges requests).Pairwise SlotRange.Disjoint := by
    rw [List.Pairwise.iff (R := SlotRange.Disjoint) (S := fun a b => a.meets b = false)
      fun a b => SlotRange.meets_eq_false_iff.symm]
    decide +kernel
  obtain ⟨starts, ran, fit⟩ := (assignSlots_first_fit "uniform" requests room).1 disjoint
  cases assigned.symm.trans ran
  exact ⟨room, assigned, fit⟩

-- The third range shares slots four and five with the first; the second finds no overlap yet.
example : assignSlots "binding" [⟨some 4, 2, ⟨1, 1⟩⟩, ⟨some 0, 2, ⟨2, 1⟩⟩, ⟨some 2, 9, ⟨3, 1⟩⟩] =
    .error ⟨⟨3, 1⟩, .slotTaken "binding" 4⟩ := by
  decide +kernel

end ComputeShader
