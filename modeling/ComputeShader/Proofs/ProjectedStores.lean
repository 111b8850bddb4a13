import ComputeShader.Value.Projection
import ComputeShader.Proofs.Effects

/-! # Stores to parts of values

Whether a store through a path of subscripts and swizzles succeeds depends on types alone, and when it
does, which components it replaces and by what does not depend on what they were. So a store to a part
of an element is a patch.
-/

namespace ComputeShader

namespace Patch

/-- Whether a patch stores only patterns that scalars of a kind write. -/
def Written (patch : Patch) (kind : ScalarKind) : Prop :=
  ∀ i w, patch i = some w → (Scalar.ofBits kind w).toBits = w

/-- Replace no component. -/
def nothing : Patch := fun _ => none

/-- A patch of the components from a position on. -/
def shifted (patch : Patch) (start count : Nat) : Patch :=
  fun j => if start ≤ j ∧ j < start + count then patch (j - start) else none

/-- A patch of selected components, in turn, on top of another one. -/
def selected (patch : Patch) : List Nat → Nat → Patch → Patch
  | [], _, base => base
  | c :: rest, k, base => selected patch rest (k + 1) (Function.update base c (patch k))

variable {patch base : Patch} {kind : ScalarKind}

theorem written_whole {v : Value} : Written (whole v.bits) v.ty.kind :=
  fun _ w stored => v.holds_bits.2 w (List.mem_of_getElem? stored)

theorem written_nothing : nothing.Written kind := fun _ _ stored => nomatch stored

theorem apply_nothing {bits : List UInt32} : nothing.apply bits = bits :=
  List.ext_getElem? fun _ => getElem?_apply.trans (congrFun Option.map_id _)

theorem Written.shifted (written : patch.Written kind) (start count : Nat) :
    (patch.shifted start count).Written kind := by
  intro j w stored
  rw [Patch.shifted] at stored
  split at stored
  · exact written _ w stored
  · cases stored

theorem Written.selected (written : patch.Written kind) (below : base.Written kind)
    (selection : List Nat) (k : Nat) : (patch.selected selection k base).Written kind := by
  induction selection generalizing k base with
  | nil => exact below
  | cons c rest ih =>
    refine ih (fun j w stored => ?_) (k + 1)
    rw [Function.update_apply] at stored
    split at stored
    · exact written k w stored
    · exact below j w stored

theorem Written.apply (written : patch.Written kind) {bits : List UInt32}
    (before : ∀ w ∈ bits, (Scalar.ofBits kind w).toBits = w) :
    ∀ w ∈ patch.apply bits, (Scalar.ofBits kind w).toBits = w := by
  intro w member
  obtain ⟨i, bound, rfl⟩ := List.mem_mapIdx.1 member
  cases new : patch i with
  | none => exact before _ (List.getElem_mem bound)
  | some w => exact written i w new

end Patch

/-- Whether a change of values of a type fails on all of them alike, or replaces the same components
in all of them by patterns of the type. -/
def Patches {ε : Type} (ty : ValueType) (change : Value → Except ε Value) : Prop :=
  (∃ e, ∀ old, old.ty = ty → change old = .error e) ∨
    ∃ patch : Patch, patch.Written ty.kind ∧ ∀ old, old.ty = ty →
      ∃ new, change old = .ok new ∧ new.ty = ty ∧ new.bits = patch.apply old.bits

theorem Patches.mapError {ε ε' : Type} {ty : ValueType} {change : Value → Except ε Value}
    (patches : Patches ty change) (f : ε → ε') :
    Patches ty fun old => (change old).mapError f := by
  rcases patches with ⟨e, fails⟩ | ⟨patch, written, replaces⟩
  · exact .inl ⟨f e, fun old typed => congrArg (Except.mapError f) (fails old typed)⟩
  · refine .inr ⟨patch, written, fun old typed => ?_⟩
    obtain ⟨new, changed, same⟩ := replaces old typed
    exact ⟨new, congrArg (Except.mapError f) changed, same⟩

namespace Value

variable {v : Value} {start : Nat}

@[simp] theorem ty_overwrite {words : List UInt32} : (v.overwrite start words).ty = v.ty := rfl

theorem getElem?_bits (j : Nat) :
    v.bits[j]? = if j < v.ty.components then v.words[j]? else none := by
  rw [bits, List.getElem?_take]

theorem getD_words {i : Nat} (inside : i < v.bits.length) : v.words.getD i 0 = v.bits[i] := by
  have within : i < v.words.length := Nat.lt_of_lt_of_le inside (List.length_take_le' ..)
  simp [bits, List.getD_eq_getElem?_getD, within]

/-- Overwriting replaces the components that there are new patterns for. -/
theorem getElem?_bits_overwrite {words : List UInt32}
    (written : ∀ w ∈ words, (Scalar.ofBits v.kind w).toBits = w) (j : Nat) :
    (v.overwrite start words).bits[j]? = v.bits[j]?.map fun w =>
      if start ≤ j then words.getD (j - start) w else w := by
  rw [getElem?_bits, getElem?_bits, ty_overwrite]
  split
  · simp only [overwrite, List.getElem?_mapIdx]
    cases held : v.words[j]? with
    | none => rfl
    | some w =>
      simp only [Option.map_some, Option.some.injEq]
      split
      · rw [List.getD_eq_getElem?_getD]
        cases found : words[j - start]? with
        | none => exact v.written_words w (List.mem_of_getElem? held)
        | some x => exact written x (List.mem_of_getElem? found)
      · rfl
  · rfl

/-- Overwriting a run of components by a patched copy of them patches them in place. -/
theorem bits_overwrite {patch : Patch} {count : Nat} (written : patch.Written v.kind) :
    (v.overwrite start (patch.apply ((v.bits.drop start).take count))).bits =
      (patch.shifted start count).apply v.bits := by
  have parts : ∀ w ∈ (v.bits.drop start).take count, (Scalar.ofBits v.kind w).toBits = w :=
    fun w member => v.holds_bits.2 w (List.mem_of_mem_drop (List.mem_of_mem_take member))
  refine List.ext_getElem? fun j => ?_
  rw [getElem?_bits_overwrite (written.apply parts), Patch.getElem?_apply]
  cases held : v.bits[j]? with
  | none => rfl
  | some w =>
    simp only [Option.map_some, Option.some.injEq, Patch.shifted, List.getD_eq_getElem?_getD,
      Patch.getElem?_apply, List.getElem?_take, List.getElem?_drop]
    by_cases after : start ≤ j
    · rw [if_pos after, Nat.add_sub_cancel' after, held]
      by_cases inside : j - start < count
      · rw [if_pos inside, if_pos ⟨after, by omega⟩]
        rfl
      · rw [if_neg inside, if_neg (by omega)]
        rfl
    · rw [if_neg after, if_neg (by omega)]
      rfl

/-! ## Subscripts -/

variable {part : ValueType} {count i : Nat} {new : Value}

theorem components_element (elements : v.ty.element? = some (part, count)) :
    part.kind = v.ty.kind ∧ part.components * count = v.ty.components := by
  cases ty : v.ty with
  | scalar kind => simp [ty, ValueType.element?] at elements
  | vector kind size =>
    obtain ⟨rfl, rfl⟩ : _ ∧ _ := by simpa [ty, ValueType.element?] using elements
    exact ⟨rfl, Nat.one_mul _⟩
  | mat3 =>
    obtain ⟨rfl, rfl⟩ : _ ∧ _ := by simpa [ty, ValueType.element?] using elements
    exact ⟨rfl, rfl⟩

/-- An element is a run of components. -/
theorem element_eq (elements : v.ty.element? = some (part, count)) (inside : i < count) :
    v.element i =
      .ok (ofBits part ((v.bits.drop (part.components * i)).take part.components)) := by
  rw [element]
  split
  · next kind size ty =>
    obtain ⟨rfl, rfl⟩ : _ ∧ _ := by simpa [ty, ValueType.element?] using elements
    have within : i < v.bits.length := by
      rw [v.length_bits, ty]
      exact inside
    have component : (v.bits.drop (1 * i)).take 1 = [v.bits[i]] := by
      rw [Nat.one_mul, List.drop_eq_getElem_cons within, List.take_succ_cons, List.take_zero]
    have written : (Scalar.ofBits kind v.bits[i]).toBits = v.bits[i] := by
      simpa [ty, ValueType.kind] using v.holds_bits.2 _ (List.getElem_mem within)
    rw [if_pos inside, getD_words within, show (ValueType.scalar kind).components = 1 from rfl,
      component, ofScalar, ofComponents, Scalar.kind_ofBits, List.map_singleton, written]
  · next ty =>
    obtain ⟨rfl, rfl⟩ : _ ∧ _ := by simpa [ty, ValueType.element?] using elements
    have whole : v.bits = v.words := List.take_of_length_le (by rw [v.length_words, ty]; decide)
    rw [if_pos inside, whole]
    rfl
  · next kind ty => simp [ty, ValueType.element?] at elements

theorem withElement_eq (elements : v.ty.element? = some (part, count)) (inside : i < count)
    (typed : new.ty = part) :
    v.withElement i new = .ok (v.overwrite (part.components * i) new.bits) := by
  rw [withElement]
  split
  · next kind size ty =>
    obtain ⟨rfl, rfl⟩ : _ ∧ _ := by simpa [ty, ValueType.element?] using elements
    rw [if_pos ⟨typed, inside⟩]
    rw [show (ValueType.scalar kind).components = 1 from rfl, Nat.one_mul]
  · next ty =>
    obtain ⟨rfl, rfl⟩ : _ ∧ _ := by simpa [ty, ValueType.element?] using elements
    exact if_pos ⟨typed, inside⟩
  · next kind ty => simp [ty, ValueType.element?] at elements

/-- Beyond the elements there is nothing, whatever the value. -/
theorem element_error
    (outside : ∀ part count, v.ty.element? = some (part, count) → count ≤ i) :
    v.element i = .error ⟨"an indexable vector or matrix", v.ty.name⟩ := by
  rw [element]
  split
  · next kind size ty =>
    exact if_neg (Nat.not_lt.2 (outside _ _ (by rw [ty]; rfl)))
  · next ty => exact if_neg (Nat.not_lt.2 (outside _ _ (by rw [ty]; rfl)))
  · next kind ty => rfl

/-! ## Swizzles -/

end Value

theorem ValueType.ofCount?_eq_some {kind : ScalarKind} {n : Nat} {part : ValueType}
    (found : ValueType.ofCount? kind n = some part) : part.kind = kind ∧ part.components = n := by
  unfold ValueType.ofCount? at found
  split at found <;> cases found <;> exact ⟨rfl, rfl⟩

/-- Among numbers the first one that is too large decides how a guarded map fails. -/
theorem mapM_guarded (n : Nat) (selection : List Nat) :
    (∀ c ∈ selection, c < n) ∨ ∃ bad, ∀ {α ε : Type} (pick : Nat → α) (refuse : Nat → ε),
      selection.mapM (fun c => if c < n then (pure (pick c) : Except ε α) else throw (refuse c)) =
        .error (refuse bad) := by
  induction selection with
  | nil => exact .inl (by simp)
  | cons c rest ih =>
    by_cases small : c < n
    · rcases ih with all | ⟨bad, fails⟩
      · exact .inl (by simpa [small] using all)
      · refine .inr ⟨bad, fun pick refuse => ?_⟩
        rw [List.mapM_cons, if_pos small, fails]
        rfl
    · refine .inr ⟨c, fun pick refuse => ?_⟩
      rw [List.mapM_cons, if_neg small]
      rfl

theorem mapM_of_lt {n : Nat} {selection : List Nat} (all : ∀ c ∈ selection, c < n) {α ε : Type}
    (pick : Nat → α) (refuse : Nat → ε) :
    selection.mapM (fun c => if c < n then (pure (pick c) : Except ε α) else throw (refuse c)) =
      .ok (selection.map pick) := by
  induction selection with
  | nil => rfl
  | cons c rest ih =>
    rw [List.mapM_cons, if_pos (all c List.mem_cons_self),
      ih fun later member => all later (List.mem_cons_of_mem c member)]
    rfl

namespace Value

variable {kind : ScalarKind} {size : VectorSize} {selection : List Nat} {part : ValueType}

/-- Selected components are read in turn. -/
theorem swizzle_eq {v : Value} (ty : v.ty = .vector kind size)
    (inside : ∀ c ∈ selection, c < size.toNat)
    (count : ValueType.ofCount? kind selection.length = some part) :
    v.swizzle selection = .ok (ofBits part (selection.map (v.words.getD · 0))) := by
  rw [swizzle]
  split
  · next kind' size' ty' =>
    obtain ⟨rfl, rfl⟩ := ValueType.vector.inj (ty.symm.trans ty')
    rw [mapM_of_lt inside]
    dsimp only [bind, Except.bind]
    rw [count]
    rfl
  · next other => exact (other kind size ty).elim

/-- Overwriting one component of a patched value by the patched original patches one more. -/
theorem bits_overwrite_component {patch base : Patch} {v w : Value} {c k : Nat}
    (written : patch.Written v.kind) (inside : c < v.ty.components) (typed : w.ty = v.ty)
    (bits : w.bits = base.apply v.bits) :
    (w.overwrite c [(patch k).getD (v.words.getD c 0)]).bits =
      Patch.apply (Function.update base c (patch k)) v.bits := by
  have within : c < v.bits.length := v.length_bits ▸ inside
  have pattern : (Scalar.ofBits w.kind ((patch k).getD (v.words.getD c 0))).toBits =
      (patch k).getD (v.words.getD c 0) := by
    rw [kind, typed]
    cases new : patch k with
    | none => exact v.getD_words within ▸ v.holds_bits.2 _ (List.getElem_mem within)
    | some word => exact written k word new
  refine List.ext_getElem? fun j => ?_
  rw [getElem?_bits_overwrite (by simpa using pattern), bits, Patch.getElem?_apply,
    Patch.getElem?_apply, Function.update_apply, Option.map_map]
  rcases Nat.lt_trichotomy j c with below | rfl | above
  · rw [if_neg (Nat.ne_of_lt below)]
    simp [Function.comp_def, Nat.not_le.2 below]
  · rw [if_pos rfl, List.getElem?_eq_getElem within, v.getD_words within]
    simp
  · rw [if_neg (Nat.ne_of_gt above)]
    have beyond : j - c ≠ 0 := Nat.sub_ne_zero_of_lt above
    simp [Function.comp_def, Nat.le_of_lt above, beyond]

/-- Selected components are replaced in turn. -/
theorem overwrite_all {n : Nat} {patch base : Patch} {words : List UInt32} {v w : Value} {k : Nat}
    {ε : Type} (refuse : Value → Nat → ε) (written : patch.Written v.kind)
    (bound : n ≤ v.ty.components) (inside : ∀ c ∈ selection, c < n) (typed : w.ty = v.ty)
    (bits : w.bits = base.apply v.bits)
    (new : ∀ j, words[j]? = selection[j]?.map fun c => (patch (k + j)).getD (v.words.getD c 0)) :
    ∃ w', (selection.zip words).foldlM (fun v (c, word) =>
        if c < n then (.ok (v.overwrite c [word]) : Except ε Value) else .error (refuse v c)) w =
          .ok w' ∧ w'.ty = v.ty ∧ w'.bits = (patch.selected selection k base).apply v.bits := by
  induction selection generalizing words w k base with
  | nil => exact ⟨w, rfl, typed, bits⟩
  | cons c rest ih =>
    obtain ⟨word, later, rfl⟩ : ∃ word later, words = word :: later := by
      cases words with
      | nil => simpa using new 0
      | cons word later => exact ⟨word, later, rfl⟩
    obtain rfl : word = (patch k).getD (v.words.getD c 0) := by simpa using new 0
    have small : c < n := inside c List.mem_cons_self
    rw [List.zip_cons_cons, List.foldlM_cons]
    dsimp only
    rw [if_pos small]
    refine ih (fun d member => inside d (List.mem_cons_of_mem c member)) typed ?_ fun j => ?_
    · exact bits_overwrite_component written (Nat.lt_of_lt_of_le small bound) typed bits
    · simpa [Nat.add_assoc, Nat.add_comm 1] using new (j + 1)

theorem withSwizzle_eq {v new : Value} {patch : Patch} (ty : v.ty = .vector kind size)
    (inside : ∀ c ∈ selection, c < size.toNat)
    (count : ValueType.ofCount? kind selection.length = some new.ty) (written : patch.Written kind)
    (bits : new.bits = patch.apply (selection.map (v.words.getD · 0))) :
    ∃ v', v.withSwizzle selection new = .ok v' ∧ v'.ty = v.ty ∧
      v'.bits = (patch.selected selection 0 .nothing).apply v.bits := by
  rw [withSwizzle]
  split
  · next kind' size' ty' =>
    obtain ⟨rfl, rfl⟩ := ValueType.vector.inj (ty.symm.trans ty')
    rw [if_pos count]
    refine overwrite_all _ ?_ ?_ inside rfl Patch.apply_nothing.symm fun j => ?_
    · rw [Value.kind, ty]
      exact written
    · rw [ty]
      exact Nat.le_refl _
    · rw [bits, Patch.getElem?_apply, List.getElem?_map, Option.map_map, Nat.zero_add]
      rfl
  · next other => exact (other kind size ty).elim

/-- Whether a swizzle of a vector selects a part of it is a matter of its type. -/
theorem swizzle_cases (kind : ScalarKind) (size : VectorSize) (selection : List Nat) :
    (∃ part, (∀ c ∈ selection, c < size.toNat) ∧
      ValueType.ofCount? kind selection.length = some part) ∨
    ∃ e, ∀ v : Value, v.ty = .vector kind size → v.swizzle selection = .error e := by
  rcases mapM_guarded size.toNat selection with inside | ⟨bad, fails⟩
  · cases count : ValueType.ofCount? kind selection.length with
    | some part => exact .inl ⟨part, inside, rfl⟩
    | none =>
      refine .inr ⟨⟨"one to four components", (ValueType.vector kind size).name⟩, fun v ty => ?_⟩
      rw [swizzle]
      split
      · next kind' size' ty' =>
        obtain ⟨rfl, rfl⟩ := ValueType.vector.inj (ty.symm.trans ty')
        rw [mapM_of_lt inside]
        dsimp only [bind, Except.bind]
        rw [count, ← ty]
        rfl
      · next other => exact (other kind size ty).elim
  · refine .inr ⟨⟨"component " ++ toString bad ++ " in range",
      (ValueType.vector kind size).name⟩, fun v ty => ?_⟩
    rw [swizzle]
    split
    · next kind' size' ty' =>
      obtain ⟨rfl, rfl⟩ := ValueType.vector.inj (ty.symm.trans ty')
      rw [fails, ← ty]
      rfl
    · next other => exact (other kind size ty).elim

/-- Only vectors have swizzles. -/
theorem swizzle_error {v : Value} (other : ∀ kind size, v.ty ≠ .vector kind size) :
    v.swizzle selection = .error ⟨"a vector to swizzle", v.ty.name⟩ := by
  rw [swizzle]
  split
  · next kind size ty => exact (other kind size ty).elim
  · rfl

end Value

namespace Step

/-- Whether a step selects a part of a type from every value of another one, and replacing this part
by a patched copy of it patches the value. -/
def Selects (step : Step) (ty part : ValueType) : Prop :=
  part.kind = ty.kind ∧ ∀ patch : Patch, patch.Written ty.kind →
    ∃ patch' : Patch, patch'.Written ty.kind ∧ ∀ v : Value, v.ty = ty →
      ∃ sub, step.get v = .ok sub ∧ sub.ty = part ∧
        ∀ new : Value, new.ty = part → new.bits = patch.apply sub.bits →
          ∃ v', step.set v new = .ok v' ∧ v'.ty = ty ∧ v'.bits = patch'.apply v.bits

/-- A subscript selects an element of the type or fails alike on all its values. -/
theorem selects_index (ty : ValueType) (i : Nat) :
    (∃ e, ∀ v : Value, v.ty = ty → (index i).get v = .error e) ∨ ∃ part, (index i).Selects ty part := by
  by_cases elements : ∃ part count, ty.element? = some (part, count) ∧ i < count
  · obtain ⟨part, count, elements, inside⟩ := elements
    refine .inr ⟨part, ?_, fun patch written =>
      ⟨patch.shifted (part.components * i) part.components, written.shifted _ _, ?_⟩⟩
    · exact (@Value.components_element (.zero ty) part count elements).1
    · rintro v rfl
      obtain ⟨same, total⟩ := Value.components_element elements
      have fits : part.components * i + part.components ≤ v.ty.components := by
        rw [← total, ← Nat.mul_succ]
        exact Nat.mul_le_mul_left _ inside
      have run : part.Holds ((v.bits.drop (part.components * i)).take part.components) := by
        refine ⟨?_, fun w member => ?_⟩
        · rw [List.length_take, List.length_drop, v.length_bits]
          omega
        · exact same ▸ v.holds_bits.2 w (List.mem_of_mem_drop (List.mem_of_mem_take member))
      refine ⟨_, Value.element_eq elements inside, rfl, fun new typed bits => ?_⟩
      refine ⟨_, Value.withElement_eq elements inside typed, rfl, ?_⟩
      rw [bits, Value.bits_ofBits run]
      exact Value.bits_overwrite written
  · refine .inl ⟨⟨"an indexable vector or matrix", ty.name⟩, ?_⟩
    rintro v rfl
    exact Value.element_error fun part count found =>
      Nat.not_lt.1 fun inside => elements ⟨part, count, found, inside⟩

/-- A swizzle selects components of the type or fails alike on all its values. -/
theorem selects_swizzle (ty : ValueType) (selection : List Nat) :
    (∃ e, ∀ v : Value, v.ty = ty → (swizzle selection).get v = .error e) ∨
      ∃ part, (swizzle selection).Selects ty part := by
  cases ty with
  | scalar kind =>
    refine .inl ⟨⟨"a vector to swizzle", (ValueType.scalar kind).name⟩, ?_⟩
    intro v typed
    exact typed ▸ Value.swizzle_error (by simp [typed])
  | mat3 =>
    refine .inl ⟨⟨"a vector to swizzle", ValueType.mat3.name⟩, ?_⟩
    intro v typed
    exact typed ▸ Value.swizzle_error (by simp [typed])
  | vector kind size =>
    rcases Value.swizzle_cases kind size selection with ⟨part, inside, count⟩ | fails
    · obtain ⟨same, length⟩ := ValueType.ofCount?_eq_some count
      refine .inr ⟨part, same, fun patch written =>
        ⟨patch.selected selection 0 .nothing, written.selected Patch.written_nothing selection 0, ?_⟩⟩
      intro v typed
      have words : part.Holds (selection.map (v.words.getD · 0)) := by
        refine ⟨(List.length_map _).trans length.symm, fun w member => ?_⟩
        obtain ⟨c, selected, rfl⟩ := List.mem_map.1 member
        have within : c < v.bits.length := by
          rw [v.length_bits, typed]
          exact inside c selected
        have written := v.holds_bits.2 _ (List.getElem_mem within)
        rw [typed] at written
        rw [v.getD_words within, same]
        exact written
      refine ⟨_, Value.swizzle_eq typed inside count, rfl, fun new part_typed bits => ?_⟩
      rw [Value.bits_ofBits words] at bits
      obtain ⟨v', replaced, same_type, result⟩ :=
        Value.withSwizzle_eq typed inside (count.trans (congrArg some part_typed.symm)) written bits
      exact ⟨v', replaced, same_type.trans typed, result⟩
    · exact .inl fails

/-- A step selects a part of the type or fails alike on all its values. -/
theorem selects_or_fails (ty : ValueType) (step : Step) :
    (∃ e, ∀ v : Value, v.ty = ty → step.get v = .error e) ∨ ∃ part, step.Selects ty part := by
  cases step with
  | index i => exact selects_index ty i
  | swizzle selection => exact selects_swizzle ty selection

end Step

/-- A store through a path is a patch, or fails alike on all values of a type. -/
theorem patches_setPath (ty : ValueType) (path : List Step) (new : Value) :
    Patches ty fun old => setPath old path new := by
  induction path generalizing ty with
  | nil =>
    by_cases same : new.ty = ty
    · refine .inr ⟨.whole new.bits, same ▸ Patch.written_whole, fun old typed =>
        ⟨new, if_pos (same.trans typed.symm), same, ?_⟩⟩
      exact (Patch.apply_whole (by rw [new.length_bits, old.length_bits, same, typed])).symm
    · refine .inl ⟨⟨ty.name, new.ty.name⟩, ?_⟩
      rintro old rfl
      exact if_neg same
  | cons step rest ih =>
    rcases step.selects_or_fails ty with ⟨e, fails⟩ | ⟨part, kind, selects⟩
    · refine .inl ⟨e, fun old typed => ?_⟩
      dsimp only [setPath]
      rw [fails old typed]
      rfl
    · rcases ih part with ⟨e, fails⟩ | ⟨patch, written, replaces⟩
      · refine .inl ⟨e, fun old typed => ?_⟩
        obtain ⟨_, _, narrows⟩ := selects .nothing Patch.written_nothing
        obtain ⟨sub, got, typed', _⟩ := narrows old typed
        dsimp only [setPath]
        rw [got]
        exact congrArg (· >>= step.set old) (fails sub typed')
      · obtain ⟨patch', written', narrows⟩ := selects patch (kind ▸ written)
        refine .inr ⟨patch', written', fun old typed => ?_⟩
        obtain ⟨sub, got, typed', sets⟩ := narrows old typed
        obtain ⟨sub', changed, same, bits⟩ := replaces sub typed'
        obtain ⟨new', set, result⟩ := sets sub' same bits
        refine ⟨new', ?_, result⟩
        dsimp only [setPath]
        rw [got]
        exact (congrArg (· >>= step.set old) changed).trans set

end ComputeShader
