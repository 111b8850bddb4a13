import Mathlib.Data.List.Forall2
import ComputeShader.Value.Operator
import ComputeShader.Proofs.ProjectedStores

/-! # What equality compares

`==` and `!=` compare whole registers, so for vectors of two or three components they see the padding
as well. Every operation makes its result with a padding that repeats the first component; only
stores to parts of a value leave the padding as it was. So two vectors are equal if their components
are, and also the first components that they were made with.
-/

namespace ComputeShader

/-- Whether registers of a type have words that hold no component. -/
def ValueType.Padded (ty : ValueType) : Prop := ty.components < ty.wordCount

instance (ty : ValueType) : Decidable ty.Padded := inferInstanceAs (Decidable (_ < _))

namespace Value

/-- The words of a register that hold no component. -/
def padding (v : Value) : List UInt32 := v.words.drop v.ty.components

/-- Whether the padding repeats the first component. -/
def Intact (v : Value) : Prop := ∀ w ∈ v.padding, w = v.words.getD 0 0

/-- The value of the same components that was made as a whole, as it is read back from a buffer. -/
def reloaded (v : Value) : Value := ofBits v.ty v.bits

/-- Whether all corresponding components compare equal. -/
def ComponentsEqual (a b : Value) : Prop :=
  List.Forall₂ (fun x y => Scalar.eq x y = true) a.components b.components

instance (a b : Value) : Decidable (ComponentsEqual a b) :=
  inferInstanceAs (Decidable (List.Forall₂ _ _ _))

/-- A value that was made as a whole, with `first` for its first component, and into whose parts
values were stored since. -/
inductive Made (first : Scalar) : Value → Prop
  | whole {v : Value} : v.Intact → v.lane 0 = first → Made first v
  | part {v v' new : Value} {step : Step} : Made first v → step.set v new = .ok v' → Made first v'

variable {a b v v' new : Value} {ty : ValueType} {bits : List UInt32} {first first' : Scalar}

/-! ## Values made as a whole -/

theorem length_padding : v.padding.length = v.ty.wordCount - v.ty.components := by
  rw [padding, List.length_drop, v.length_words]

theorem bits_append_padding : v.bits ++ v.padding = v.words := List.take_append_drop ..

theorem intact_of_not_padded (full : ¬ v.ty.Padded) : v.Intact := by
  have none : v.padding = [] :=
    List.eq_nil_of_length_eq_zero (length_padding.trans (Nat.sub_eq_zero_of_le (Nat.not_lt.1 full)))
  simp [Intact, none]

theorem intact_ofBits (fits : bits.length ≤ ty.components) : (ofBits ty bits).Intact := by
  intro w member
  have enough : bits.length ≤ ty.wordCount := Nat.le_trans fits ty.components_le_wordCount
  have nonempty : 0 < ty.wordCount := Nat.lt_of_lt_of_le ty.components_pos ty.components_le_wordCount
  simp only [padding, ofBits, List.rightpad, List.take_of_length_le enough, List.length_map] at member
  rw [List.drop_append, List.drop_eq_nil_of_le (by simpa using fits), List.nil_append] at member
  rw [List.eq_of_mem_replicate (List.mem_of_mem_drop member)]
  cases bits with
  | nil => simp [ofBits, List.rightpad, List.getD_eq_getElem?_getD, nonempty]
  | cons head rest => simp [ofBits, List.rightpad, List.take_of_length_le enough]

theorem intact_ofComponents {components : List Scalar} (fits : components.length ≤ ty.components) :
    (ofComponents ty components).Intact :=
  intact_ofBits (by rwa [List.length_map])

theorem intact_ofScalar (s : Scalar) : (ofScalar s).Intact := intact_ofComponents (Nat.le_refl 1)

theorem intact_zero : (zero ty).Intact := intact_ofBits (Nat.zero_le _)

theorem intact_reloaded : v.reloaded.Intact := intact_ofBits (Nat.le_of_eq v.length_bits)

/-! ## Operations make whole values -/

theorem length_of_mapM {α β : Type} {f : α → Option β} {as : List α} {bs : List β}
    (mapped : as.mapM f = some bs) : bs.length = as.length := by
  induction as generalizing bs with
  | nil =>
    cases mapped
    rfl
  | cons a rest ih =>
    rw [List.mapM_cons] at mapped
    obtain ⟨b, -, mapped⟩ := Option.bind_eq_some_iff.1 mapped
    obtain ⟨later, found, same⟩ := Option.bind_eq_some_iff.1 mapped
    cases same
    exact congrArg (· + 1) (ih found)

theorem intact_element {i : Nat} (made : v.element i = .ok v') : v'.Intact := by
  unfold element at made
  split at made <;> try split at made
  all_goals cases made
  · exact intact_ofScalar _
  · exact intact_ofBits (List.length_take_le ..)

theorem intact_swizzle {selection : List Nat} (made : v.swizzle selection = .ok v') : v'.Intact := by
  unfold swizzle at made
  split at made
  · next kind size shape =>
    rcases mapM_guarded size.toNat selection with inside | ⟨bad, fails⟩
    · rw [mapM_of_lt inside] at made
      dsimp only [bind, Except.bind] at made
      split at made
      · next part count =>
        cases made
        exact intact_ofBits (by simp [(ValueType.ofCount?_eq_some count).2])
      · cases made
    · rw [fails] at made
      cases made
  · cases made

theorem intact_gather {args : List Value} (made : gather ty args = .ok v) : v.Intact := by
  unfold gather at made
  split at made
  · cases made
  · extract_lets components needed surplusAllowed at made
    split at made
    · cases made
    · cases made
      refine intact_ofComponents ?_
      rw [List.length_map]
      exact List.length_take_le _ _

theorem intact_construct {args : List Value} (made : construct ty args = .ok v) : v.Intact := by
  unfold construct at made
  split at made
  · next arg =>
    split at made
    · cases made
      exact intact_ofBits (Nat.le_refl 9)
    · split at made
      · next matrix =>
        cases made
        exact intact_of_not_padded (by rw [matrix]; decide)
      · exact intact_gather made
    · cases made
      exact intact_ofComponents (by simp [ValueType.components])
    · cases made
      exact intact_ofScalar _
    · exact intact_gather made
  · exact intact_gather made

theorem intact_unary {op : UnaryOp} (made : unary op a = .ok v) : v.Intact := by
  unfold unary at made
  dsimp only at made
  split at made
  · next out mapped =>
    cases made
    exact intact_ofComponents (by simp [length_of_mapM mapped])
  · cases made

theorem intact_order {op : BinaryOp} (made : order op a b = .ok v) : v.Intact := by
  unfold order at made
  split at made
  · split at made
    · cases made
      exact intact_ofScalar _
    · cases made
  · cases made

theorem intact_componentwise {op : BinaryOp} (made : componentwise op a b = .ok v) : v.Intact := by
  unfold componentwise at made
  split at made
  · cases made
  · split at made
    · next out mapped =>
      cases made
      exact intact_ofComponents (by simp [length_of_mapM mapped])
    · cases made

theorem intact_shift {op : BinaryOp} (made : shift op a b = .ok v) : v.Intact := by
  unfold shift at made
  dsimp only at made
  split at made
  · cases made
    exact intact_ofComponents (by simp)
  · cases made

theorem intact_product (made : product a b = .ok v) : v.Intact := by
  unfold product at made
  split at made
  · cases made
    exact intact_of_not_padded (by decide : ¬ ValueType.mat3.Padded)
  · split at made
    · cases made
      exact intact_ofBits (Nat.le_refl 3)
    · split at made
      · cases made
        exact intact_ofBits (Nat.le_refl 3)
      · exact intact_componentwise made

theorem intact_binary {op : BinaryOp} (made : binary op a b = .ok v) : v.Intact := by
  unfold binary at made
  split at made
  case h_1 | h_2 =>
    split at made <;> cases made
    exact intact_ofScalar _
  case h_3 | h_4 | h_5 | h_6 => exact intact_order made
  case h_7 | h_8 => exact intact_shift made
  case h_9 => exact intact_product made
  case h_10 => exact intact_componentwise made

theorem intact_extremum {choose : Scalar → Scalar → Scalar} (made : extremum choose a b = .ok v) :
    v.Intact := by
  unfold extremum at made
  split at made
  · cases made
    exact intact_ofComponents (by simp)
  · cases made

theorem intact_abs (made : a.abs = .ok v) : v.Intact := by
  unfold abs at made
  dsimp only at made
  split at made
  · cases made
  · split at made
    · next out mapped =>
      cases made
      exact intact_ofComponents (by simp [length_of_mapM mapped])
    · cases made

theorem intact_math {f : MathFn} {args : List Value} (made : math f args = .ok v) : v.Intact := by
  unfold math at made
  split at made
  · exact intact_abs made
  · exact intact_extremum made
  · exact intact_extremum made
  · next x lo hi =>
    cases clamped : extremum Scalar.max x lo with
    | ok w =>
      rw [clamped] at made
      exact intact_extremum made
    | error e =>
      rw [clamped] at made
      cases made
  · cases made

/-! ## Stores to parts leave the padding -/

/-- Replacing components leaves the padding. -/
theorem padding_overwrite {start : Nat} {words : List UInt32}
    (fits : start + words.length ≤ v.ty.components) :
    (v.overwrite start words).padding = v.padding := by
  refine List.ext_getElem? fun j => ?_
  simp only [padding, overwrite, List.getElem?_drop, List.getElem?_mapIdx]
  cases held : v.words[v.ty.components + j]? with
  | none => rfl
  | some w =>
    have beyond : words.length ≤ v.ty.components + j - start := by omega
    have after : start ≤ v.ty.components + j := by omega
    simp [after, List.getD_eq_getElem?_getD, List.getElem?_eq_none beyond,
      v.written_words w (List.mem_of_getElem? held), kind]

theorem padding_withElement {i : Nat} (stored : v.withElement i new = .ok v') :
    v'.ty = v.ty ∧ v'.padding = v.padding := by
  unfold withElement at stored
  split at stored <;> try split at stored
  all_goals cases stored
  · next kind size shape inside =>
    refine ⟨rfl, padding_overwrite ?_⟩
    rw [length_bits, inside.1, shape]
    exact inside.2
  · next shape inside =>
    refine ⟨rfl, padding_overwrite ?_⟩
    rw [length_bits, inside.1, shape]
    have := inside.2
    simp only [ValueType.components, VectorSize.toNat]
    omega

theorem padding_overwriteAll {n : Nat} {selected : List (Nat × UInt32)} {ε : Type}
    {refuse : Value → Nat → ε} (bound : n ≤ v.ty.components)
    (stored : selected.foldlM (fun v (c, w) =>
      if c < n then (.ok (v.overwrite c [w]) : Except ε Value) else .error (refuse v c)) v = .ok v') :
    v'.ty = v.ty ∧ v'.padding = v.padding := by
  induction selected generalizing v with
  | nil =>
    cases stored
    exact ⟨rfl, rfl⟩
  | cons head rest ih =>
    rw [List.foldlM_cons] at stored
    dsimp only at stored
    by_cases inside : head.1 < n
    · rw [if_pos inside] at stored
      obtain ⟨typed, same⟩ := ih (v := v.overwrite head.1 [head.2]) bound stored
      exact ⟨typed, same.trans (padding_overwrite (Nat.lt_of_lt_of_le inside bound))⟩
    · rw [if_neg inside] at stored
      cases stored

theorem padding_withSwizzle {selection : List Nat} (stored : v.withSwizzle selection new = .ok v') :
    v'.ty = v.ty ∧ v'.padding = v.padding := by
  unfold withSwizzle at stored
  split at stored
  · next kind size shape =>
    split at stored
    · exact padding_overwriteAll (by rw [shape]; exact Nat.le_refl _) stored
    · cases stored
  · cases stored

theorem padding_set {step : Step} (stored : step.set v new = .ok v') :
    v'.ty = v.ty ∧ v'.padding = v.padding := by
  cases step with
  | index i => exact padding_withElement stored
  | swizzle selection => exact padding_withSwizzle stored

/-- However parts were stored, the padding repeats the first component that the value was made with. -/
theorem Made.padding_eq (made : v.Made first) :
    v.padding.map (Scalar.ofBits v.kind) =
      List.replicate (v.ty.wordCount - v.ty.components) first := by
  refine List.eq_replicate_iff.2 ⟨by rw [List.length_map, length_padding], fun s member => ?_⟩
  obtain ⟨w, held, rfl⟩ := List.mem_map.1 member
  clear member
  induction made generalizing w with
  | whole intact first => rw [intact w held, ← first, lane]
  | part _ stored ih =>
    obtain ⟨typed, same⟩ := padding_set stored
    rw [kind, typed]
    exact ih w (same ▸ held)

/-! ## Equality -/

theorem componentsEqual_iff (same : a.ty = b.ty) : ComponentsEqual a b ↔
    ∀ p ∈ a.bits.zip b.bits, (Scalar.ofBits a.kind p.1).eq (Scalar.ofBits b.kind p.2) = true := by
  have lengths : a.bits.length = b.bits.length := by rw [length_bits, length_bits, same]
  rw [ComponentsEqual, components, components, List.forall₂_map_left_iff, List.forall₂_map_right_iff,
    List.forall₂_iff_zip]
  simp [lengths]

theorem eq_iff (same : a.ty = b.ty) : a.eq b = true ↔ ComponentsEqual a b ∧
    ∀ p ∈ a.padding.zip b.padding, (Scalar.ofBits a.kind p.1).eq (Scalar.ofBits b.kind p.2) = true := by
  have lengths : a.bits.length = b.bits.length := by rw [length_bits, length_bits, same]
  rw [componentsEqual_iff same, ← List.forall_mem_append, ← List.zip_append lengths,
    bits_append_padding, bits_append_padding, eq, Bool.and_eq_true, beq_iff_eq, List.all_eq_true]
  exact and_iff_right same

/-- Values are equal if their components are and, where there is padding, the first components they
were made with. -/
theorem Made.eq_iff (made : a.Made first) (made' : b.Made first') (same : a.ty = b.ty) :
    a.eq b = true ↔ ComponentsEqual a b ∧ (a.ty.Padded → first.eq first' = true) := by
  rw [Value.eq_iff same]
  refine and_congr_right fun _ => ?_
  have pairs : (a.padding.map (Scalar.ofBits a.kind)).zip (b.padding.map (Scalar.ofBits b.kind)) =
      List.replicate (a.ty.wordCount - a.ty.components) (first, first') := by
    rw [made.padding_eq, made'.padding_eq, ← same, List.zip_replicate, Nat.min_self]
  rw [List.zip_map] at pairs
  calc (∀ p ∈ a.padding.zip b.padding, (Scalar.ofBits a.kind p.1).eq (Scalar.ofBits b.kind p.2) = true)
      ↔ ∀ p ∈ List.replicate (a.ty.wordCount - a.ty.components) (first, first'),
          p.1.eq p.2 = true := by rw [← pairs, List.forall_mem_map]; rfl
    _ ↔ (a.ty.Padded → first.eq first' = true) := by
      simp [List.mem_replicate, ValueType.Padded, Nat.sub_eq_zero_iff_le]

theorem bits_reloaded : v.reloaded.bits = v.bits := bits_ofBits v.holds_bits

theorem lane_eq {i : Nat} (inside : i < v.ty.components) :
    v.lane i = Scalar.ofBits v.kind (v.bits.getD i 0) := by
  simp [lane, bits, inside]

theorem made_reloaded : v.reloaded.Made (v.lane 0) := by
  have first : v.reloaded.lane 0 = v.lane 0 := by
    rw [lane_eq v.ty.components_pos, ← bits_reloaded]
    exact lane_eq v.reloaded.ty.components_pos
  exact .whole intact_reloaded first

theorem componentsEqual_reloaded : ComponentsEqual v.reloaded b ↔ ComponentsEqual v b := by
  have components : v.reloaded.components = v.components := by
    rw [Value.components, bits_reloaded]
    rfl
  rw [ComponentsEqual, components, ComponentsEqual]

theorem lane_zero_eq (equal : ComponentsEqual a b) : (a.lane 0).eq (b.lane 0) = true := by
  have inside (v : Value) : 0 < v.components.length := v.length_components ▸ v.ty.components_pos
  have head (v : Value) : v.components.get ⟨0, inside v⟩ = v.lane 0 := by
    have within : 0 < v.bits.length := v.length_bits ▸ v.ty.components_pos
    simp [components, lane_eq v.ty.components_pos, List.getElem?_eq_getElem within]
  have equal := List.Forall₂.get equal (inside a) (inside b)
  rwa [head, head] at equal

/-- Equality of whole values is that of the components. -/
theorem eq_iff_of_intact (intact : a.Intact) (intact' : b.Intact) (same : a.ty = b.ty) :
    a.eq b = true ↔ ComponentsEqual a b := by
  rw [(Made.whole intact rfl).eq_iff (.whole intact' rfl) same]
  exact and_iff_left_of_imp fun equal _ => lane_zero_eq equal

end Value

end ComputeShader
