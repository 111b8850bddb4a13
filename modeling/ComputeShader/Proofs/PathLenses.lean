import Mathlib.Data.List.GetD
import ComputeShader.Proofs.MistypedStores

/-! # Parts of values as lenses

A path selects components of a value, one for each component of the part at its end. As long as no swizzle
on it repeats a component, reading the part and storing into it are the two sides of a lens: a store
replaces exactly the selected components, in the order in which they are read. This holds of one step
because it does of the components, and of a path because it does of its steps.
-/

namespace ComputeShader

/-! ## Selected components -/

/-- The positions of the components that a step to a part of type `part` selects, in the order of the
part. -/
def Step.positions (part : ValueType) : Step → List Nat
  | index i => List.range' (part.components * i) part.components
  | swizzle selection => selection

/-- The positions of the components that a path selects in the values of a type, in the order of the part
at its end. -/
def ValueType.positions : ValueType → List Step → List Nat
  | ty, [] => List.range ty.components
  | ty, step :: rest =>
    match step.part? ty with
    | some part => (part.positions rest).map ((step.positions part).getD · 0)
    | none => []

/-- Whether a step selects no component twice. -/
def Step.Distinct : Step → Prop
  | index _ => True
  | swizzle selection => selection.Nodup

instance : DecidablePred Step.Distinct
  | .index _ => inferInstanceAs (Decidable True)
  | .swizzle selection => inferInstanceAs (Decidable selection.Nodup)

namespace Value

variable {v w v' w' : Value} {positions : List Nat} {new : List UInt32}

/-- The patterns of the components at some positions, in their order. -/
def bitsAt (v : Value) (positions : List Nat) : List UInt32 := positions.map (v.bits.getD · 0)

theorem bitEq_iff : v.bitEq w = true ↔ v.ty = w.ty ∧ v.bits = w.bits := by
  rw [bitEq, Bool.and_eq_true, beq_iff_eq, beq_iff_eq]

theorem getD_bits {j : Nat} (inside : j < v.ty.components) : v.bits[j]? = some (v.bits.getD j 0) := by
  have within : j < v.bits.length := v.length_bits ▸ inside
  rw [List.getElem?_eq_getElem within, List.getD_eq_getElem _ 0 within]

theorem bitsAt_range : v.bitsAt (List.range v.ty.components) = v.bits := by
  refine List.ext_getElem? fun j => ?_
  rw [bitsAt, List.getElem?_map]
  by_cases inside : j < v.ty.components
  · rw [getD_bits inside, List.getElem?_range inside, Option.map_some]
  · rw [getElem?_bits, if_neg inside, List.getElem?_eq_none, Option.map_none]
    exact List.length_range ▸ Nat.not_lt.1 inside

/-- Components of a value are patterns of every type of its kind. -/
theorem holds_bitsAt {part : ValueType} (kind : part.kind = v.ty.kind)
    (length : positions.length = part.components) (inside : ∀ p ∈ positions, p < v.ty.components) :
    part.Holds (v.bitsAt positions) := by
  refine ⟨(List.length_map _).trans length, fun w member => ?_⟩
  obtain ⟨p, selected, rfl⟩ := List.mem_map.1 member
  rw [kind]
  exact v.holds_bits.2 _ (List.mem_of_getElem? (getD_bits (inside p selected)))

/-- Whether a value is `v` with the components at some positions replaced in turn. -/
structure Replaced (v : Value) (positions : List Nat) (new : List UInt32) (v' : Value) : Prop where
  ty : v'.ty = v.ty
  selected : v'.bitsAt positions = new
  others : ∀ j ∉ positions, v'.bits[j]? = v.bits[j]?

theorem replaced_self : v.Replaced positions (v.bitsAt positions) v where
  ty := rfl
  selected := rfl
  others _ _ := rfl

/-- A patch of some components replaces them by what it has for them. -/
theorem replaced_of_patch {patch : Patch} (ty : v'.ty = v.ty) (bits : v'.bits = patch.apply v.bits)
    (inside : ∀ p ∈ positions, p < v.ty.components) (length : positions.length = new.length)
    (here : ∀ (k : Nat) (bound : k < positions.length), patch positions[k] = new[k]?)
    (nowhere : ∀ j ∉ positions, patch j = none) : v.Replaced positions new v' where
  ty := ty
  selected := by
    refine List.ext_getElem (by rw [bitsAt, List.length_map, length]) fun k bound bound' => ?_
    have within : k < positions.length := length ▸ bound'
    have patched : patch positions[k] = some new[k] :=
      (here k within).trans (List.getElem?_eq_getElem bound')
    have stored : v'.bits[positions[k]]? = some new[k] := by
      rw [bits, Patch.getElem?_apply, getD_bits (inside _ (List.getElem_mem within)), Option.map_some,
        patched, Option.getD_some]
    refine (List.getElem_map ..).trans ?_
    rw [List.getD_eq_getElem?_getD, stored, Option.getD_some]
  others j unselected := by
    rw [bits, Patch.getElem?_apply, nowhere j unselected]
    exact congrFun Option.map_id _

/-- Values that differ in no other components become the same. -/
theorem Replaced.bits_eq (replaced : v.Replaced positions new v') (replaced' : w.Replaced positions new w')
    (ty : v.ty = w.ty) (others : ∀ j ∉ positions, v.bits[j]? = w.bits[j]?) : v'.bits = w'.bits := by
  have types : v'.ty = w'.ty := replaced.ty.trans (ty.trans replaced'.ty.symm)
  refine List.ext_getElem? fun j => ?_
  by_cases selected : j ∈ positions
  · have same := replaced.selected.trans replaced'.selected.symm
    have here : v'.bits.getD j 0 = w'.bits.getD j 0 := List.map_inj_left.1 same j selected
    by_cases inside : j < v'.ty.components
    · rw [getD_bits inside, getD_bits (types ▸ inside), here]
    · rw [getElem?_bits, getElem?_bits, if_neg inside, if_neg (types ▸ inside)]
  · rw [replaced.others j selected, replaced'.others j selected, others j selected]

/-- Replacing components of selected components replaces components of the whole. -/
theorem Replaced.comp {sub sub' : Value} {inner : List Nat} (bits : sub.bits = v.bitsAt positions)
    (part : sub.Replaced inner new sub') (whole : v.Replaced positions sub'.bits v')
    (within : ∀ p ∈ inner, p < positions.length) (inside : ∀ p ∈ positions, p < v.ty.components) :
    v.Replaced (inner.map (positions.getD · 0)) new v' where
  ty := whole.ty
  selected := by
    rw [← part.selected, bitsAt, bitsAt, List.map_map, ← whole.selected]
    refine List.map_congr_left fun p member => ?_
    simp [bitsAt, within p member]
  others j unselected := by
    by_cases selected : j ∈ positions
    · obtain ⟨p, bound, rfl⟩ := List.mem_iff_getElem.1 selected
      have fresh : p ∉ inner := fun member =>
        unselected (List.mem_map.2 ⟨p, member, List.getD_eq_getElem _ 0 bound⟩)
      have kept := part.others p fresh
      rw [bits, ← whole.selected, bitsAt, bitsAt, List.getElem?_map, List.getElem?_map,
        List.getElem?_eq_getElem bound] at kept
      have bound' := inside _ selected
      rw [getD_bits bound', getD_bits (whole.ty ▸ bound')]
      exact kept
    · exact whole.others j selected

end Value

/-! ## Lenses -/

/-- Whether reading gives the components at some positions of the values of a type as values of type
`part`, and storing replaces them by those of any such value. -/
structure Focuses (ty part : ValueType) (positions : List Nat) (get : Value → Except TypeError Value)
    (set : Value → Value → Except TypeError Value) : Prop where
  length : positions.length = part.components
  inside : ∀ p ∈ positions, p < ty.components
  reads (v : Value) : v.ty = ty → ∃ x, get v = .ok x ∧ x.ty = part ∧ x.bits = v.bitsAt positions
  stores (v y : Value) : v.ty = ty → y.ty = part →
    ∃ v', set v y = .ok v' ∧ v.Replaced positions y.bits v'

namespace Focuses

variable {ty mid part : ValueType} {positions inner : List Nat}
  {get get' : Value → Except TypeError Value} {set set' : Value → Value → Except TypeError Value}
  {v x y v' : Value}

theorem whole (ty : ValueType) : Focuses ty ty (List.range ty.components) (getPath · []) (setPath · []) where
  length := List.length_range
  inside _ member := List.mem_range.1 member
  reads v typed := ⟨v, rfl, typed, typed ▸ Value.bitsAt_range.symm⟩
  stores v y typed typed' := by
    have same : y.ty = v.ty := typed'.trans typed.symm
    refine ⟨y, if_pos same, same, typed' ▸ Value.bitsAt_range, fun j unselected => ?_⟩
    have outside : ¬ j < ty.components := fun inside => unselected (List.mem_range.2 inside)
    rw [Value.getElem?_bits, Value.getElem?_bits, typed', typed, if_neg outside, if_neg outside]

/-- Lenses one after the other are a lens. -/
theorem comp (outer : Focuses ty mid positions get set) (deeper : Focuses mid part inner get' set') :
    Focuses ty part (inner.map (positions.getD · 0)) (fun v => get v >>= get')
      fun v y => get v >>= fun sub => set' sub y >>= set v where
  length := (List.length_map _).trans deeper.length
  inside p member := by
    obtain ⟨q, selected, rfl⟩ := List.mem_map.1 member
    have bound : q < positions.length := outer.length ▸ deeper.inside q selected
    rw [List.getD_eq_getElem _ 0 bound]
    exact outer.inside _ (List.getElem_mem bound)
  reads v typed := by
    obtain ⟨sub, got, typed, bits⟩ := outer.reads v typed
    obtain ⟨x, got', typed', bits'⟩ := deeper.reads sub typed
    refine ⟨x, by rw [got]; exact got', typed', ?_⟩
    rw [bits', Value.bitsAt, Value.bitsAt, List.map_map, bits]
    refine List.map_congr_left fun q selected => ?_
    have bound : q < positions.length := outer.length ▸ deeper.inside q selected
    simp [Value.bitsAt, bound]
  stores v y typed typed' := by
    obtain ⟨sub, got, part_typed, bits⟩ := outer.reads v typed
    obtain ⟨sub', set_inner, replaced⟩ := deeper.stores sub y part_typed typed'
    obtain ⟨v', set_outer, replaced'⟩ := outer.stores v sub' typed (replaced.ty.trans part_typed)
    refine ⟨v', ?_, replaced.comp bits replaced' (fun q selected => ?_) (typed ▸ outer.inside)⟩
    · rw [got]
      exact (congrArg (· >>= set v) set_inner).trans set_outer
    · exact outer.length ▸ deeper.inside q selected

end Focuses

/-! ## Steps -/

section Steps

variable {ty part : ValueType} {v : Value}

theorem Value.bitsAt_range' {start count : Nat} (fits : start + count ≤ v.ty.components) :
    v.bitsAt (List.range' start count) = (v.bits.drop start).take count := by
  refine List.ext_getElem? fun j => ?_
  rw [bitsAt, List.getElem?_map, List.getElem?_take, List.getElem?_drop]
  by_cases inside : j < count
  · rw [if_pos inside, getD_bits (by omega), List.getElem?_range' inside]
    simp
  · rw [if_neg inside, List.getElem?_eq_none, Option.map_none]
    exact (List.length_range' ..) ▸ Nat.not_lt.1 inside

/-- A subscript is a lens on a run of components. -/
theorem focuses_index {i : Nat} (selects : (Step.index i).part? ty = some part) :
    Focuses ty part ((Step.index i).positions part) (·.element i) (·.withElement i) := by
  obtain ⟨count, elements, inside⟩ := Step.part?_index.1 selects
  obtain ⟨kind, total⟩ := @Value.components_element (.zero ty) part count elements
  have fits : part.components * i + part.components ≤ ty.components := by
    have total : part.components * count = ty.components := total
    rw [← total, ← Nat.mul_succ]
    exact Nat.mul_le_mul_left _ inside
  have within : ∀ p ∈ (Step.index i).positions part, p < ty.components := by
    intro p member
    obtain ⟨_, below⟩ := List.mem_range'_1.1 member
    exact Nat.lt_of_lt_of_le below fits
  refine ⟨List.length_range' .., within, ?_, ?_⟩
  · rintro v rfl
    refine ⟨_, Value.element_eq elements inside, rfl, ?_⟩
    rw [← Value.bitsAt_range' fits]
    exact Value.bits_ofBits (Value.holds_bitsAt kind (List.length_range' ..) within)
  · rintro v y rfl rfl
    have run : (Patch.whole y.bits).apply ((v.bits.drop (y.ty.components * i)).take y.ty.components) =
        y.bits := by
      refine Patch.apply_whole ?_
      rw [y.length_bits, List.length_take, List.length_drop, v.length_bits]
      omega
    have written : (Patch.whole y.bits).Written v.kind :=
      (show y.ty.kind = v.kind from kind) ▸ Patch.written_whole
    have bits : (v.overwrite (y.ty.components * i) y.bits).bits =
        ((Patch.whole y.bits).shifted (y.ty.components * i) y.ty.components).apply v.bits := by
      rw [← Value.bits_overwrite written, run]
    refine ⟨_, Value.withElement_eq elements inside rfl, Value.replaced_of_patch rfl bits within ?_
      (fun k bound => ?_) fun j unselected => if_neg fun between => unselected (List.mem_range'_1.2 between)⟩
    · exact (List.length_range' ..).trans y.length_bits.symm
    · have below : k < y.ty.components := bound.trans_eq (List.length_range' ..)
      simp [Step.positions, Patch.shifted, Patch.whole, below]

theorem Patch.selected_of_not_mem {patch base : Patch} {selection : List Nat} {c k : Nat}
    (unselected : c ∉ selection) : patch.selected selection k base c = base c := by
  induction selection generalizing k base with
  | nil => rfl
  | cons first rest ih =>
    obtain ⟨other, later⟩ := not_or.1 (mt List.mem_cons.2 unselected)
    rw [selected, ih later, Function.update_of_ne other]

/-- Without repetitions every selected component gets the new pattern at its place. -/
theorem Patch.selected_of_mem {patch base : Patch} {selection : List Nat} (distinct : selection.Nodup)
    {k j : Nat} (bound : j < selection.length) :
    patch.selected selection k base selection[j] = patch (k + j) := by
  induction selection generalizing k j base with
  | nil => cases bound
  | cons c rest ih =>
    obtain ⟨fresh, distinct⟩ := List.nodup_cons.1 distinct
    cases j with
    | zero =>
      rw [List.getElem_cons_zero, selected, selected_of_not_mem fresh, Function.update_self, Nat.add_zero]
    | succ j =>
      rw [List.getElem_cons_succ, selected, ih distinct, Nat.add_assoc, Nat.add_comm 1]

/-- A swizzle without repetitions is a lens on its components. -/
theorem focuses_swizzle {selection : List Nat} (distinct : selection.Nodup)
    (selects : (Step.swizzle selection).part? ty = some part) :
    Focuses ty part selection (·.swizzle selection) (·.withSwizzle selection) := by
  obtain ⟨kind, size, rfl, inside, count⟩ := Step.part?_swizzle.1 selects
  obtain ⟨same, length⟩ := ValueType.ofCount?_eq_some count
  have words {v : Value} (typed : v.ty = .vector kind size) :
      selection.map (v.words.getD · 0) = v.bitsAt selection := by
    refine List.map_congr_left fun c selected => ?_
    have bound : c < v.bits.length := by
      rw [v.length_bits, typed]
      exact inside c selected
    rw [v.getD_words bound, List.getD_eq_getElem _ 0 bound]
  refine ⟨length.symm, inside, ?_, ?_⟩
  · intro v typed
    refine ⟨_, Value.swizzle_eq typed inside count, rfl, ?_⟩
    rw [words typed]
    refine Value.bits_ofBits (Value.holds_bitsAt ?_ length.symm (typed ▸ inside))
    rw [same, typed]
    rfl
  · rintro v y typed rfl
    have bits : y.bits = (Patch.whole y.bits).apply (selection.map (v.words.getD · 0)) := by
      refine (Patch.apply_whole ?_).symm
      rw [y.length_bits, List.length_map, length]
    obtain ⟨v', stored, typed', bits'⟩ :=
      Value.withSwizzle_eq typed inside count (same ▸ Patch.written_whole) bits
    refine ⟨v', stored, Value.replaced_of_patch typed' bits' (typed ▸ inside) ?_ (fun k bound => ?_)
      fun j unselected => Patch.selected_of_not_mem unselected⟩
    · exact length.symm.trans y.length_bits.symm
    · rw [Patch.selected_of_mem distinct bound, Nat.zero_add]
      rfl

theorem focuses_step {step : Step} (distinct : step.Distinct) (selects : step.part? ty = some part) :
    Focuses ty part (step.positions part) step.get (Step.set · step) := by
  cases step with
  | index i => exact focuses_index selects
  | swizzle selection => exact focuses_swizzle distinct selects

end Steps

/-! ## Paths -/

section Paths

variable {ty part : ValueType} {path : List Step} {v x : Value}

/-- A path to a part of a type is a lens on the components that it selects. -/
theorem focuses_path (distinct : ∀ step ∈ path, step.Distinct) (leads : ty.at? path = some part) :
    Focuses ty part (ty.positions path) (getPath · path) (setPath · path) := by
  induction path generalizing ty with
  | nil =>
    obtain rfl := Option.some.inj leads
    exact .whole ty
  | cons step rest ih =>
    obtain ⟨mid, selects, leads⟩ := Option.bind_eq_some_iff.1 leads
    have first := focuses_step (distinct step List.mem_cons_self) selects
    have later := ih (fun s member => distinct s (List.mem_cons_of_mem _ member)) leads
    rw [ValueType.positions, selects]
    exact first.comp later

theorem at?_of_getPath (read : getPath v path = .ok x) : v.ty.at? path = some x.ty := by
  induction path generalizing v with
  | nil =>
    cases read
    rfl
  | cons step rest ih =>
    obtain ⟨sub, got, read⟩ := exists_of_bind_eq_ok read
    exact Option.bind_eq_some_iff.2 ⟨sub.ty, Step.part?_of_get got, ih read⟩

/-- Whether two outcomes are the same error, or values of one type with the same components. -/
def BitEqual : Except TypeError Value → Except TypeError Value → Prop
  | .ok a, .ok b => a.bitEq b = true
  | .error e, .error e' => e = e'
  | _, _ => False

/-- Whether a path to the part `x` of a value is a lens there: values of the part's type are stored, they
are read back, nothing else changes, storing what is there changes nothing, and a later store makes an
earlier one undone. -/
structure LensAt (v : Value) (path : List Step) (x : Value) : Prop where
  part : x.bits = v.bitsAt (v.ty.positions path)
  accepts (y : Value) : (∃ v', setPath v path y = .ok v') ↔ y.ty = x.ty
  typed {y v' : Value} : setPath v path y = .ok v' → v'.ty = v.ty
  reads {y v' : Value} : setPath v path y = .ok v' → ∃ y', getPath v' path = .ok y' ∧ y'.bitEq y
  others {y v' : Value} : setPath v path y = .ok v' →
    ∀ j ∉ v.ty.positions path, v'.bits[j]? = v.bits[j]?
  restores : ∃ v', setPath v path x = .ok v' ∧ v'.bitEq v
  overwrites {y v' : Value} : setPath v path y = .ok v' →
    ∀ z, BitEqual (setPath v' path z) (setPath v path z)

/-- A store to a part either fails alike on all values of a type or succeeds on all of them. -/
theorem setPath_fails_alike {v w y : Value} {e : TypeError} (failed : setPath v path y = .error e)
    (same : w.ty = v.ty) : setPath w path y = .error e := by
  rcases patches_setPath v.ty path y with ⟨e', fails⟩ | ⟨_, _, replaces⟩
  · cases failed.symm.trans (fails v rfl)
    exact fails w same
  · obtain ⟨_, stored, _⟩ := replaces v rfl
    cases failed.symm.trans stored

/-- A path without repeated components in its swizzles is a lens wherever it leads to a part. -/
theorem setPath_lens (distinct : ∀ step ∈ path, step.Distinct) (read : getPath v path = .ok x) :
    LensAt v path x := by
  have leads := at?_of_getPath read
  have focuses := focuses_path distinct leads
  have stored {y v' : Value} (stored : setPath v path y = .ok v') :
      y.ty = x.ty ∧ v.Replaced (v.ty.positions path) y.bits v' := by
    have typed : y.ty = x.ty := Option.some.inj ((at?_of_setPath stored).symm.trans leads)
    obtain ⟨_, stored', replaced⟩ := focuses.stores v y rfl typed
    cases stored.symm.trans stored'
    exact ⟨typed, replaced⟩
  obtain ⟨_, read', -, part⟩ := focuses.reads v rfl
  cases read.symm.trans read'
  refine ⟨part, fun y => ⟨?_, fun typed => ?_⟩, fun set => (stored set).2.ty, fun {y v'} set => ?_,
    fun set => (stored set).2.others, ?_, fun {y v'} set z => ?_⟩
  · rintro ⟨v', set⟩
    exact (stored set).1
  · obtain ⟨v', set, -⟩ := focuses.stores v y rfl typed
    exact ⟨v', set⟩
  · obtain ⟨typed, replaced⟩ := stored set
    obtain ⟨y', read, typed', bits⟩ := focuses.reads v' replaced.ty
    exact ⟨y', read, Value.bitEq_iff.2 ⟨typed'.trans typed.symm, bits.trans replaced.selected⟩⟩
  · obtain ⟨v', set, replaced⟩ := focuses.stores v x rfl rfl
    rw [part] at replaced
    exact ⟨v', set, Value.bitEq_iff.2
      ⟨replaced.ty, replaced.bits_eq Value.replaced_self rfl fun _ _ => rfl⟩⟩
  · obtain ⟨-, replaced⟩ := stored set
    cases once : setPath v path z with
    | error e =>
      rw [setPath_fails_alike once replaced.ty]
      rfl
    | ok w =>
      obtain ⟨typed, direct⟩ := stored once
      obtain ⟨w', set', again⟩ := focuses.stores v' z replaced.ty typed
      rw [set']
      exact Value.bitEq_iff.2 ⟨again.ty.trans (replaced.ty.trans direct.ty.symm),
        again.bits_eq direct replaced.ty replaced.others⟩

/-- A matrix with the patterns of its components in ascending order. -/
def numbered : Value := .ofBits .mat3 [0, 1, 2, 3, 4, 5, 6, 7, 8]

/-- The last two components of the middle column, the last one first. -/
def middleBackwards : List Step := [.index 1, .swizzle [2, 1, 0], .swizzle [0, 1]]

/-- Exchanging two components of a matrix column through swizzles in swizzles. -/
theorem setPath_lens_column : (∀ step ∈ middleBackwards, step.Distinct) ∧
    getPath numbered middleBackwards = .ok (.ofBits (.vector .float .two) [5, 4]) ∧
    setPath numbered middleBackwards (.ofBits (.vector .float .two) [4, 5]) =
      .ok (.ofBits .mat3 [0, 1, 2, 3, 5, 4, 6, 7, 8]) ∧
    LensAt numbered middleBackwards (.ofBits (.vector .float .two) [5, 4]) := by
  have distinct : ∀ step ∈ middleBackwards, step.Distinct := by decide
  have read : getPath numbered middleBackwards = .ok (.ofBits (.vector .float .two) [5, 4]) := by
    decide +kernel
  exact ⟨distinct, read, by decide +kernel, setPath_lens distinct read⟩

end Paths

end ComputeShader
