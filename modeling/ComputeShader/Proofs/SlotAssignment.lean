import Mathlib.Order.Bounds.Basic
import ComputeShader.Shader.Model
import ComputeShader.Shader.Slots

/-! # Slots that declarations hold

Given starts are claimed one after the other, and a claim that meets an earlier one is refused; every
other run is put where it meets nothing that is taken. The one exception is the last slot: no claim and
no taken run is found to hold it, so ranges that reach it may share slots with others.
-/

namespace ComputeShader

namespace SlotRange

variable {a b : SlotRange} {taken : List SlotRange}

/-- The slots of a declaration that takes `width` of them. -/
def run (start : UInt32) (width : Nat) : SlotRange := ⟨start.toNat, start.toNat + width⟩

/-- Whether a slot is in a range. -/
def Holds (r : SlotRange) (slot : Nat) : Prop := r.start ≤ slot ∧ slot < r.stop

instance (r : SlotRange) (slot : Nat) : Decidable (r.Holds slot) := inferInstanceAs (Decidable (_ ∧ _))

/-- Whether two ranges share no slot. -/
def Disjoint (a b : SlotRange) : Prop := ∀ slot, a.Holds slot → ¬ b.Holds slot

/-- Whether two ranges share no slot or one of them reaches the last slot. -/
def Apart (a b : SlotRange) : Prop := a.Holds slotLimit ∨ b.Holds slotLimit ∨ a.Disjoint b

theorem Disjoint.symm (disjoint : a.Disjoint b) : b.Disjoint a := fun slot inB inA =>
  disjoint slot inA inB

theorem Apart.symm (apart : a.Apart b) : b.Apart a := by
  rcases apart with last | last | disjoint
  · exact .inr (.inl last)
  · exact .inl last
  · exact .inr (.inr disjoint.symm)

theorem meets_eq_false_iff : a.meets b = false ↔ a.Disjoint b := by
  rw [meets, decide_eq_false_iff_not, Nat.not_lt]
  constructor
  · rintro beyond slot ⟨_, _⟩ ⟨_, _⟩
    omega
  · intro disjoint
    refine Nat.not_lt.1 fun shared => ?_
    exact disjoint (max a.start b.start) ⟨by omega, by omega⟩ ⟨by omega, by omega⟩

theorem lowestClash?_eq_none_iff : a.lowestClash? taken = none ↔ ∀ t ∈ taken, a.Disjoint t := by
  rw [lowestClash?, List.min?_eq_none_iff, List.map_eq_nil_iff, List.filter_eq_nil_iff]
  refine forall₂_congr fun t _ => ?_
  rw [Bool.not_eq_true, meets_eq_false_iff]

/-! ## Free runs -/

section

variable {width : Nat}

theorem le_slotLimit_of_spares {start : UInt32} (spares : ¬ (run start width).Holds slotLimit) :
    width ≤ slotLimit := by
  have bound := start.toNat_lt
  simp only [run, Holds, slotLimit] at *
  omega

/-- A run that ends where the slots do is found to hold nothing. -/
theorem wrapped_last_disjoint (t : SlotRange) (fits : width ≤ slotLimit) :
    (wrapped (slotLimit + 1 - width) width).Disjoint t := by
  rintro slot ⟨above, below⟩ -
  simp only [wrapped, slotLimit] at *
  omega

/-- The lowest free start is the least of the starts it is chosen from at which nothing is met. -/
theorem firstFree_isLeast_chosen (taken : List SlotRange) (fits : width ≤ slotLimit) :
    IsLeast {start | start ∈ 0 :: (slotLimit + 1 - width) :: taken.map stop ∧
      ∀ t ∈ taken, (wrapped start width).Disjoint t} (firstFree taken width) := by
  let starts := 0 :: (slotLimit + 1 - width) :: taken.map stop
  let free := starts.filter fun s => !taken.any (wrapped s width).meets
  have mem_free (s : Nat) : s ∈ free ↔ s ∈ starts ∧ ∀ t ∈ taken, (wrapped s width).Disjoint t := by
    simp only [free, List.mem_filter, Bool.not_eq_true', List.any_eq_false, Bool.not_eq_true,
      meets_eq_false_iff]
  have last : slotLimit + 1 - width ∈ free :=
    (mem_free _).2 ⟨List.mem_cons_of_mem _ List.mem_cons_self, fun t _ => wrapped_last_disjoint t fits⟩
  obtain ⟨lowest, found⟩ := Option.isSome_iff_exists.1 (List.isSome_min?_of_mem last)
  have start : firstFree taken width = lowest := congrArg (·.getD 0) found
  obtain ⟨member, least⟩ := List.min?_eq_some_iff.1 found
  rw [start]
  exact ⟨(mem_free lowest).1 member, fun s chosen => least s ((mem_free s).2 chosen)⟩

/-- The lowest free run ends with the slots at the latest, and what it is found to hold is free. -/
theorem firstFree_spec (taken : List SlotRange) (fits : width ≤ slotLimit) :
    firstFree taken width ≤ slotLimit + 1 - width ∧
      ∀ t ∈ taken, (wrapped (firstFree taken width) width).Disjoint t := by
  have least := firstFree_isLeast_chosen taken fits
  refine ⟨least.2 ⟨?_, fun t _ => wrapped_last_disjoint t fits⟩, least.1.2⟩
  exact List.mem_cons_of_mem _ List.mem_cons_self

/-- A run at the lowest free start holds no more than it is found to hold, unless it reaches the last
slot. -/
theorem wrapped_of_run {slot : Nat}
    (spares : ¬ (run (.ofNat (firstFree taken width)) width).Holds slotLimit)
    (held : (run (.ofNat (firstFree taken width)) width).Holds slot) :
    (wrapped (firstFree taken width) width).Holds slot := by
  have bound := (firstFree_spec taken (le_slotLimit_of_spares spares)).1
  simp only [run, wrapped, Holds, slotLimit, UInt32.toNat_ofNat'] at *
  omega

end

end SlotRange

/-! ## Requests -/

variable {owner : String} {requests : List SlotRequest} {taken taken' : List SlotRange}

/-- What a request holds that has been given a start. -/
def SlotRequest.held (r : SlotRequest) (start : UInt32) : SlotRange := .run start r.width

/-- Whether all slots of a range are among those taken, unless it reaches the last slot. -/
def SlotRange.Noted (r : SlotRange) (taken : List SlotRange) : Prop :=
  r.Holds slotLimit ∨ ∀ slot, r.Holds slot → ∃ t ∈ taken, t.Holds slot

theorem SlotRange.Noted.mono {r : SlotRange} (noted : r.Noted taken)
    (more : ∀ t ∈ taken, t ∈ taken') : r.Noted taken' := by
  refine noted.imp_right fun each slot held => ?_
  obtain ⟨t, member, holds⟩ := each slot held
  exact ⟨t, more t member, holds⟩

/-- A run at the lowest free start is apart from everything noted. -/
theorem SlotRange.Noted.apart {r : SlotRange} (noted : r.Noted taken) (width : Nat) :
    r.Apart (.run (.ofNat (firstFree taken width)) width) := by
  by_cases last : (run (.ofNat (firstFree taken width)) width).Holds slotLimit
  · exact .inr (.inl last)
  refine noted.imp_right fun each => .inr fun slot held placed => ?_
  obtain ⟨t, member, holds⟩ := each slot held
  have free := (firstFree_spec taken (le_slotLimit_of_spares last)).2
  exact free t member slot (wrapped_of_run last placed) holds

theorem SlotRange.noted_wrapped (taken : List SlotRange) (width : Nat) :
    (run (.ofNat (firstFree taken width)) width).Noted (wrapped (firstFree taken width) width :: taken) := by
  by_cases last : (run (.ofNat (firstFree taken width)) width).Holds slotLimit
  · exact .inl last
  · exact .inr fun slot held => ⟨_, List.mem_cons_self, wrapped_of_run last held⟩

/-- A given run is claimed as it is, unless it reaches the last slot. -/
theorem SlotRequest.claim?_of_spares {r : SlotRequest} {start : UInt32} (given : r.explicit = some start)
    (spares : ¬ (r.held start).Holds slotLimit) : r.claim? = some (r.held start) := by
  have bound := start.toNat_lt
  have within : start.toNat + r.width ≤ slotLimit := by
    simp only [held, SlotRange.run, SlotRange.Holds, slotLimit] at *
    omega
  rw [claim?, given, Option.map_some, Nat.min_eq_left within]
  rfl

/-! ## Assignments -/

/-- Claims are kept, the newest first, and no two of them share a slot. -/
theorem foldlM_claim (claimed : requests.foldlM (claim owner) taken = .ok taken')
    (disjoint : taken.Pairwise SlotRange.Disjoint) :
    taken' = (requests.filterMap SlotRequest.claim?).reverse ++ taken ∧
      taken'.Pairwise SlotRange.Disjoint := by
  induction requests generalizing taken with
  | nil =>
    cases claimed
    exact ⟨rfl, disjoint⟩
  | cons r rest ih =>
    rw [List.foldlM_cons] at claimed
    unfold claim at claimed
    cases given : r.claim? with
    | none =>
      rw [given] at claimed
      rw [List.filterMap_cons_none given]
      exact ih claimed disjoint
    | some range =>
      rw [given] at claimed
      cases clash : range.lowestClash? taken with
      | some slot =>
        simp only [clash] at claimed
        cases claimed
      | none =>
        simp only [clash] at claimed
        rw [List.filterMap_cons_some given, List.reverse_cons, List.append_assoc]
        exact ih claimed (disjoint.cons (SlotRange.lowestClash?_eq_none_iff.1 clash))

/-- What is noted, and apart from the given runs, is apart from all runs. -/
theorem SlotRange.Noted.apart_placed {range : SlotRange} (noted : range.Noted taken)
    (given : ∀ r ∈ requests, ∀ start, r.explicit = some start → range.Apart (r.held start)) :
    ∀ p ∈ requests.zip (placeImplicit taken requests), range.Apart (p.1.held p.2) := by
  induction requests generalizing taken with
  | nil => exact List.forall_mem_nil _
  | cons r rest ih =>
    obtain ⟨first, later⟩ := List.forall_mem_cons.1 given
    cases explicit : r.explicit with
    | some start =>
      simp only [placeImplicit, explicit]
      exact List.forall_mem_cons.2 ⟨first start explicit, ih noted later⟩
    | none =>
      simp only [placeImplicit, explicit]
      have noted' := noted.mono fun t => List.mem_cons_of_mem (wrapped (firstFree taken r.width) r.width)
      exact List.forall_mem_cons.2 ⟨noted.apart _, ih noted' later⟩

/-- If the given runs are apart and noted, all runs are apart. -/
theorem placed_apart
    (noted : ∀ r ∈ requests, ∀ start, r.explicit = some start → (r.held start).Noted taken)
    (given : requests.Pairwise fun r r' => ∀ start start', r.explicit = some start →
      r'.explicit = some start' → (r.held start).Apart (r'.held start')) :
    (requests.zip (placeImplicit taken requests)).Pairwise fun p q =>
      (p.1.held p.2).Apart (q.1.held q.2) := by
  induction requests generalizing taken with
  | nil => exact .nil
  | cons r rest ih =>
    obtain ⟨firstNoted, laterNoted⟩ := List.forall_mem_cons.1 noted
    obtain ⟨first, later⟩ := List.pairwise_cons.1 given
    cases explicit : r.explicit with
    | some start =>
      simp only [placeImplicit, explicit]
      refine .cons ?_ (ih laterNoted later)
      exact (firstNoted start explicit).apart_placed fun r' member start' => first r' member _ _ explicit
    | none =>
      simp only [placeImplicit, explicit]
      have more (t : SlotRange) (held : t ∈ taken) :
          t ∈ SlotRange.wrapped (SlotRange.firstFree taken r.width) r.width :: taken :=
        List.mem_cons_of_mem _ held
      refine .cons ?_ (ih (fun r' member start' at' => (laterNoted r' member start' at').mono more) later)
      refine (SlotRange.noted_wrapped taken r.width).apart_placed fun r' member start' at' => ?_
      exact ((laterNoted r' member start' at').apart r.width).symm

/-- Where slots can be assigned, the declarations share at most slots with one that reaches the last. -/
theorem assignSlots_apart {starts : List UInt32} (assigned : assignSlots owner requests = .ok starts) :
    (requests.zip starts).Pairwise fun p q => (p.1.held p.2).Apart (q.1.held q.2) := by
  unfold assignSlots at assigned
  cases claimed : claimExplicit owner requests with
  | error e =>
    rw [claimed] at assigned
    cases assigned
  | ok taken =>
    rw [claimed] at assigned
    cases assigned
    obtain ⟨claims, disjoint⟩ := foldlM_claim claimed .nil
    rw [List.append_nil] at claims
    refine placed_apart (fun r member start given => ?_) ?_
    · by_cases last : (r.held start).Holds slotLimit
      · exact .inl last
      · have claim := SlotRequest.claim?_of_spares given last
        have held : r.held start ∈ taken :=
          claims ▸ List.mem_reverse.2 (List.mem_filterMap.2 ⟨r, member, claim⟩)
        exact .inr fun slot holds => ⟨_, held, holds⟩
    · rw [claims, List.pairwise_reverse, List.pairwise_filterMap] at disjoint
      refine disjoint.imp fun {r r'} disjoint start start' given given' => ?_
      by_cases last : (r.held start).Holds slotLimit
      · exact .inl last
      by_cases last' : (r'.held start').Holds slotLimit
      · exact .inr (.inl last')
      have claim := SlotRequest.claim?_of_spares given last
      have claim' := SlotRequest.claim?_of_spares given' last'
      exact .inr (.inr (disjoint _ claim _ claim').symm)

/-! ## Declared slots -/

def BufferDecl.slots (b : BufferDecl) : SlotRange := .run b.binding 1

def ImageDecl.slots (i : ImageDecl) : SlotRange := .run i.binding 1

def SamplerDecl.slots (s : SamplerDecl) : SlotRange := .run s.binding 1

def UniformDecl.slots (u : UniformDecl) : SlotRange := .run u.location u.width

/-- Whether no two declarations of a kind share slots, but for those that reach the last one. -/
structure Shader.SlotsApart (s : Shader) : Prop where
  buffers : s.buffers.Pairwise fun a b => a.slots.Apart b.slots
  images : s.images.Pairwise fun a b => a.slots.Apart b.slots
  samplers : s.samplers.Pairwise fun a b => a.slots.Apart b.slots
  uniforms : s.uniforms.Pairwise fun a b => a.slots.Apart b.slots

end ComputeShader
