import ComputeShader.Proofs.CaseSeeds
import ComputeShader.Proofs.StoreOperations

/-! # Layers of a seed

A seed covers the cells of a resource with literals, one layer after another: the fill value, the leading
data, the cells that are set by themselves. Of the literals laid over a cell the last one counts. Whatever
the resource held before is gone, but for the length of a buffer that the seed does not give another one.
-/

namespace ComputeShader

/-! ## Literals over cells -/

/-- Whether a cell holds what the literal over it is converted to, or zero if there is none. -/
def Gives {α : Type} (convert : Literal → Except LiteralFault α) (zero : α) : Option Literal → α → Prop
  | none, cell => cell = zero
  | some l, cell => convert l = .ok cell

/-- Whether cells hold what the literals over them are converted to. -/
def Covered {α : Type} (convert : Literal → Except LiteralFault α) (zero : α)
    (laid : Nat → Option Literal) (cells : Array α) : Prop :=
  ∀ i (inside : i < cells.size), Gives convert zero (laid i) cells[i]

/-- Literals laid in turn over what lies there. -/
def overlaid (entries : List (Nat × Literal)) (under : Nat → Option Literal) : Nat → Option Literal :=
  entries.foldl (fun laid e => Function.update laid e.1 (some e.2)) under

section Cells

variable {α : Type} {convert : Literal → Except LiteralFault α} {zero cell : α}
  {laid under : Nat → Option Literal} {cells : Array α} {l : Literal} {n i : Nat}
  {entries : List (Nat × Literal)}

theorem Covered.gives (covered : Covered convert zero laid cells) (default : α) (inside : i < cells.size) :
    Gives convert zero (laid i) (cells.getD i default) := by
  rw [← Array.getElem_eq_getD default]
  exact covered i inside

theorem covered_zeros : Covered convert zero (fun _ => none) (Array.replicate n zero) := by
  intro i inside
  exact Array.getElem_replicate ..

theorem covered_fill (converted : convert l = .ok cell) :
    Covered convert zero (fun _ => some l) (Array.replicate n cell) := by
  intro i inside
  rw [Array.getElem_replicate]
  exact converted

/-- A cell that is set is covered by one literal more. -/
theorem Covered.set (covered : Covered convert zero laid cells) (converted : convert l = .ok cell) :
    Covered convert zero (Function.update laid i (some l)) (cells.setIfInBounds i cell) := by
  intro j inside
  rw [Array.size_setIfInBounds] at inside
  rw [Function.update_apply, Array.getElem_setIfInBounds inside]
  by_cases same : j = i
  · rw [if_pos same, if_pos same.symm]
    exact converted
  · rw [if_neg same, if_neg (Ne.symm same)]
    exact covered j inside

theorem overlaid_snoc (e : Nat × Literal) :
    overlaid (entries ++ [e]) under = Function.update (overlaid entries under) e.1 (some e.2) := by
  rw [overlaid, List.foldl_append]
  rfl

/-- The last literal laid over a cell lies on top. -/
theorem overlaid_apply : overlaid entries under i = (entries.reverse.lookup i).or (under i) := by
  induction entries generalizing under with
  | nil => rfl
  | cons e rest ih =>
    obtain ⟨k, l⟩ := e
    have first : overlaid ((k, l) :: rest) under i = overlaid rest (Function.update under k (some l)) i :=
      rfl
    rw [first, ih, List.reverse_cons, List.lookup_append, Function.update_apply, Option.or_assoc]
    by_cases same : i = k
    · simp [same]
    · simp [same, List.lookup_cons, beq_false_of_ne same]

/-- Numbered items are found by their numbers. -/
theorem lookup_zipIdx {data : List Literal} (start : Nat) :
    ((data.zipIdx start).map Prod.swap).reverse.lookup i =
      if start ≤ i then data[i - start]? else none := by
  induction data generalizing start with
  | nil => simp
  | cons l rest ih =>
    rw [List.zipIdx_cons, List.map_cons, List.reverse_cons, List.lookup_append, ih]
    rcases Nat.lt_trichotomy i start with below | rfl | above
    · have differ : (i == start) = false := beq_false_of_ne (Nat.ne_of_lt below)
      simp [List.lookup_cons, differ, Nat.not_le.2 below, Nat.not_le.2 (Nat.lt_succ_of_lt below)]
    · simp
    · have differ : (i == start) = false := beq_false_of_ne (Nat.ne_of_gt above)
      have later : i - start = i - (start + 1) + 1 := by omega
      simp [List.lookup_cons, differ, Nat.le_of_lt above, Nat.succ_le_of_lt above, later]

end Cells

/-- What is known after operations in turn, if each one leads on from what was done before it. -/
theorem leads_forM_from {β : Type} {P : List β → Store → Prop} {f : β → StoreM Unit} (done bs : List β)
    (each : ∀ done b, Leads (P done) (f b) fun _ => P (done ++ [b])) :
    Leads (P done) (bs.forM f) fun _ => P (done ++ bs) := by
  induction bs generalizing done with
  | nil => exact leads_pure fun _ before => (List.append_nil done).symm ▸ before
  | cons b rest ih =>
    refine (each done b).bind fun _ => ?_
    have split : done ++ b :: rest = (done ++ [b]) ++ rest := List.append_cons ..
    rw [split]
    exact ih (done ++ [b])

/-- Operations in turn that lay a literal each. -/
theorem leads_overlay {β : Type} {P : (Nat → Option Literal) → Store → Prop} {f : β → StoreM Unit}
    (entry : β → Nat × Literal) (bs : List β) (under : Nat → Option Literal)
    (each : ∀ laid b, Leads (P laid) (f b)
      fun _ => P (Function.update laid (entry b).1 (some (entry b).2))) :
    Leads (P under) (bs.forM f) fun _ => P (overlaid (bs.map entry) under) := by
  induction bs generalizing under with
  | nil => exact leads_pure fun _ before => before
  | cons b rest ih => exact (each under b).bind fun _ => ih _

namespace Bindings

variable {α : Type} {m : Bindings α} {key : Binding} {f g : α → α}

theorem modify_modify : (m.modify key f).modify key g = m.modify key (g ∘ f) := by
  refine ext_get? fun other => ?_
  simp only [get?_modify]
  split
  · rw [Option.map_map]
  · rfl

end Bindings

/-! ## Buffers -/

/-- The patterns of a literal as an element. -/
def Literal.toBits (l : Literal) (element : ValueType) : Except LiteralFault (List UInt32) :=
  (l.toValue element).map Value.bits

/-- The literal that a seed gives to an element: that of the last entry that sets it, else the one in its
place among the leading data, else the fill value. -/
def BufferSeed.literal? (seed : BufferSeed) (i : Nat) : Option Literal :=
  (seed.set.reverse.lookup i).or (seed.data[i]?.or seed.fill)

/-- Whether a buffer is another one with a new length and its elements covered by literals. -/
structure Buffer.CoveredAs (base : Buffer) (length : Nat) (laid : Nat → Option Literal) (b : Buffer) :
    Prop where
  name : b.name = base.name
  element : b.element = base.element
  length : b.length = length
  elements : Covered (·.toBits base.element) (List.replicate base.element.components 0) laid b.elements

namespace Store

variable {s t : Store} {binding : Binding}

/-- Whether a store is another one but for a buffer, which has a property. -/
def ButBuffer (s : Store) (binding : Binding) (P : Buffer → Prop) (t : Store) : Prop :=
  ∃ b, t = { s with buffers := s.buffers.modify binding fun _ => b } ∧ P b

theorem ButBuffer.modify {P Q : Buffer → Prop} {f : Buffer → Buffer} (but : s.ButBuffer binding P t)
    (next : ∀ b, P b → Q (f b)) :
    s.ButBuffer binding Q { t with buffers := t.buffers.modify binding f } := by
  obtain ⟨b, rfl, holds⟩ := but
  refine ⟨f b, ?_, next b holds⟩
  rw [Bindings.modify_modify]
  rfl

end Store

section Buffers

variable {s s' : Store} {binding : Binding} {base : Buffer} {length : Nat} {laid : Nat → Option Literal}

theorem leads_allocate_covered (found : s.buffers.get? binding = some base) :
    Leads (· = s) (Store.allocateBuffer binding length)
      fun _ => s.ButBuffer binding (base.CoveredAs length fun _ => none) := by
  rintro _ _ t' rfl ran
  rcases Store.allocateBuffer_cases _ binding length with ⟨e, refused⟩ | ⟨b, found', allocates⟩
  · cases refused.symm.trans ran
  · cases allocates.symm.trans ran
    cases found.symm.trans found'
    exact ⟨_, rfl, rfl, rfl, Array.size_replicate, covered_zeros⟩

/-- A literal as a value of the element type, for what is done with it next. -/
theorem leads_converted {P Q : Store → Prop} {target : String} {l : Literal} {k : Value → StoreM Unit}
    (next : ∀ v, l.toBits base.element = .ok v.bits → Leads P (k v) fun _ => Q) :
    Leads P (seedValue target base.element l >>= k) fun _ => Q := by
  rw [seedValue]
  cases converted : l.toValue base.element with
  | error fault => exact leads_invalidSeed_bind
  | ok v => exact next v (congrArg (Except.map Value.bits) converted)

theorem leads_fill_covered {l : Literal} {v : Value} (converted : l.toBits base.element = .ok v.bits) :
    Leads (s.ButBuffer binding (base.CoveredAs length fun _ => none)) (Store.fillBuffer binding v)
      fun _ => s.ButBuffer binding (base.CoveredAs length fun _ => some l) := by
  rintro _ _ _ but ⟨⟩
  refine but.modify fun b covered => ⟨covered.name, covered.element, ?_, covered_fill converted⟩
  exact Array.size_replicate.trans covered.length

theorem leads_set_covered (target : String) (i : Nat) (l : Literal) :
    Leads (s.ButBuffer binding (base.CoveredAs length laid))
      (do Store.seedElement binding i (← seedValue target base.element l))
      fun _ => s.ButBuffer binding (base.CoveredAs length (Function.update laid i (some l))) := by
  refine leads_converted fun v converted => ?_
  rintro t _ t' but ran
  rcases t.seedElement_cases binding i v with ⟨e, refused⟩ | ⟨_, _, _, _, stores⟩
  · cases refused.symm.trans ran
  · cases stores.symm.trans ran
    refine but.modify fun b covered => ⟨covered.name, covered.element, ?_, covered.elements.set converted⟩
    exact (Array.size_setIfInBounds ..).trans covered.length

/-- What a seed lays over a buffer, one layer after another. -/
theorem BufferSeed.overlaid_literal? (seed : BufferSeed) :
    overlaid seed.set (overlaid (seed.data.zipIdx.map Prod.swap) fun _ => seed.fill) = seed.literal? := by
  funext i
  rw [overlaid_apply, overlaid_apply, lookup_zipIdx, if_pos (Nat.zero_le i)]
  rfl

/-- The leading data and then the elements that are set by themselves, over the fill value. -/
theorem BufferSeed.leads_elements (seed : BufferSeed) (target : String) :
    Leads (s.ButBuffer binding (base.CoveredAs length fun _ => seed.fill))
      (do
        seed.data.zipIdx.forM fun x => do
          Store.seedElement binding x.2 (← seedValue target base.element x.1)
        seed.set.forM fun x => do
          Store.seedElement binding x.1 (← seedValue target base.element x.2))
      fun _ => s.ButBuffer binding (base.CoveredAs length seed.literal?) := by
  let P (laid : Nat → Option Literal) := s.ButBuffer binding (base.CoveredAs length laid)
  have data := @leads_overlay _ P _ Prod.swap seed.data.zipIdx (fun _ => seed.fill)
    fun laid x => leads_set_covered target x.2 x.1
  have set (under : Nat → Option Literal) := @leads_overlay _ P _ id seed.set under
    fun laid x => leads_set_covered target x.1 x.2
  refine data.bind fun _ => (set _).mono (fun _ before => before) fun _ _ after => ?_
  rw [← seed.overlaid_literal?]
  exact List.map_id seed.set ▸ after

/-- What a seed makes of a buffer, and that it does nothing else. -/
theorem BufferSeed.apply_covers (seed : BufferSeed) (ran : seed.apply s = .ok () s') :
    ∃ base, s.buffers.get? seed.binding = some base ∧
      s.ButBuffer seed.binding (base.CoveredAs (seed.lengthFrom base.length) seed.literal?) s' := by
  cases found : s.buffers.get? seed.binding with
  | none =>
    rw [apply, Store.bind_eq_error (Store.seedBufferAt_eq_error found)] at ran
    cases ran
  | some base =>
    refine ⟨base, rfl, ?_⟩
    rw [apply, Store.bind_eq (Store.seedBufferAt_eq found)] at ran
    dsimp only at ran
    by_cases tooLong : seed.lengthFrom base.length < seed.data.length ∧ seed.length.isSome
    · rw [if_pos tooLong] at ran
      cases ran
    · rw [if_neg tooLong] at ran
      have elements := @BufferSeed.leads_elements s seed.binding base (seed.lengthFrom base.length) seed
        (Store.bufferTarget seed.binding)
      cases filled : seed.fill with
      | none =>
        rw [filled] at ran elements
        exact ((leads_allocate_covered found).bind fun _ => elements) s () s' rfl ran
      | some l =>
        rw [filled] at ran elements
        have fill := @leads_converted base _ _ (Store.bufferTarget seed.binding) l _
          fun v converted => (leads_fill_covered converted).bind fun _ => elements
        exact ((leads_allocate_covered found).bind fun _ => fill) s () s' rfl ran

end Buffers

/-! ## Images -/

/-- The literal that the leading data of a seed give to a position. Positions are words: data that go on
beyond the last one begin again at the first. -/
def ImageSeed.dataAt? (seed : ImageSeed) (position : Nat) : Option Literal :=
  (seed.data.zipIdx.map fun e => (e.2 % 4294967296, e.1)).reverse.lookup position

/-- The literal that a seed gives to a texel: that of the last entry at its coordinates, else the one in its
place among the leading data, row after row, else the fill value. -/
def ImageSeed.literal? (seed : ImageSeed) (x y : UInt32) : Option Literal :=
  ((seed.texels.reverse.find? fun t => t.x = x ∧ t.y = y).map TexelSeed.value).or
    ((seed.dataAt? (y.toNat * seed.width.toNat + x.toNat)).or seed.fill)

/-- Leading data that do not go on beyond the last position lie at their own ones. -/
theorem ImageSeed.dataAt?_eq (seed : ImageSeed) (short : seed.data.length ≤ 4294967296)
    (position : Nat) : seed.dataAt? position = seed.data[position]? := by
  have places : seed.data.zipIdx.map (fun e => (e.2 % 4294967296, e.1)) =
      seed.data.zipIdx.map Prod.swap := by
    refine List.map_congr_left fun e member => ?_
    have bound : e.2 < seed.data.length := (List.mem_zipIdx' member).1
    exact Prod.ext (Nat.mod_eq_of_lt (Nat.lt_of_lt_of_le bound short)) rfl
  rw [dataAt?, places, lookup_zipIdx, if_pos (Nat.zero_le position)]
  rfl

/-- Whether an image is another one with a new extent and its texels covered by literals. -/
structure Image.CoveredAs (base : Image) (columns rows : UInt32) (laid : Nat → Option Literal)
    (i : Image) : Prop where
  name : i.name = base.name
  format : i.format = base.format
  width : i.width = columns
  height : i.height = rows
  size : i.texels.size = columns.toNat * rows.toNat
  texels : Covered (·.toTexel base.format) base.format.zeroTexel laid i.texels

namespace Store

variable {s t : Store} {binding : Binding} {P Q : Image → Prop}

/-- Whether a store is another one but for an image, which has a property. -/
def ButImage (s : Store) (binding : Binding) (P : Image → Prop) (t : Store) : Prop :=
  ∃ i, t = { s with images := s.images.modify binding fun _ => i } ∧ P i

theorem ButImage.holds (but : s.ButImage binding P t) {i : Image}
    (found : t.images.get? binding = some i) : P i := by
  obtain ⟨i', rfl, holds⟩ := but
  rw [Bindings.get?_modify, if_pos rfl] at found
  obtain ⟨_, _, rfl⟩ := Option.map_eq_some_iff.1 found
  exact holds

theorem ButImage.modify {f : Image → Image} (but : s.ButImage binding P t)
    (next : ∀ i, P i → Q (f i)) :
    s.ButImage binding Q { t with images := t.images.modify binding f } := by
  obtain ⟨i, rfl, holds⟩ := but
  refine ⟨f i, ?_, next i holds⟩
  rw [Bindings.modify_modify]
  rfl

end Store

section Images

variable {s s' : Store} {binding : Binding} {base : Image} {columns rows : UInt32}
  {laid : Nat → Option Literal}

theorem leads_allocate_texels (found : s.images.get? binding = some base) :
    Leads (· = s) (Store.allocateImage binding columns rows)
      fun _ => s.ButImage binding (base.CoveredAs columns rows fun _ => none) := by
  rintro _ _ t' rfl ran
  rcases Store.allocateImage_cases _ binding columns rows with ⟨e, refused⟩ | ⟨i, found', allocates⟩
  · cases refused.symm.trans ran
  · cases allocates.symm.trans ran
    cases found.symm.trans found'
    exact ⟨_, rfl, rfl, rfl, rfl, rfl, Array.size_replicate, covered_zeros⟩

/-- A literal as the bytes of a texel, for what is done with them next. -/
theorem leads_converted_texel {P Q : Store → Prop} {target : String} {l : Literal}
    {k : List UInt8 → StoreM Unit}
    (next : ∀ bytes, l.toTexel base.format = .ok bytes → Leads P (k bytes) fun _ => Q) :
    Leads P (seedBytes target base.format l >>= k) fun _ => Q := by
  rw [seedBytes]
  cases converted : l.toTexel base.format with
  | error fault => exact leads_invalidSeed_bind
  | ok bytes => exact next bytes converted

theorem leads_fill_texels {l : Literal} {bytes : List UInt8}
    (converted : l.toTexel base.format = .ok bytes) :
    Leads (s.ButImage binding (base.CoveredAs columns rows fun _ => none))
      (Store.fillImage binding bytes)
      fun _ => s.ButImage binding (base.CoveredAs columns rows fun _ => some l) := by
  rintro _ _ _ but ⟨⟩
  refine but.modify fun i covered => ⟨covered.name, covered.format, covered.width, covered.height, ?_,
    covered_fill converted⟩
  exact Array.size_replicate.trans covered.size

/-- Setting a texel, which has to lie within the image. -/
theorem leads_set_texel (target : String) (x y : UInt32) (l : Literal) :
    Leads (s.ButImage binding (base.CoveredAs columns rows laid))
      (do Store.seedTexel binding x y (← seedBytes target base.format l))
      fun _ t => x < columns ∧ s.ButImage binding (base.CoveredAs columns rows
        (Function.update laid (y.toNat * columns.toNat + x.toNat) (some l))) t := by
  refine leads_converted_texel fun bytes converted => ?_
  rintro t _ t' but ran
  rcases t.seedTexel_cases binding x y bytes with ⟨e, refused⟩ | ⟨i, found, left, above, sized, stores⟩
  · cases refused.symm.trans ran
  · cases stores.symm.trans ran
    have extent := (but.holds found).width
    rw [Store.setCell, LittleEndian.flatMap_bytes_words (sized ▸ i.format.texelSize_mod_four),
      Image.position, extent]
    refine ⟨extent ▸ left, but.modify fun i covered => ?_⟩
    exact ⟨covered.name, covered.format, covered.width, covered.height,
      (Array.size_setIfInBounds ..).trans covered.size, covered.texels.set converted⟩

/-- The texel that a position falls on has this position. -/
theorem position_of_ofNat (index : Nat) :
    (UInt32.ofNat index / columns).toNat * columns.toNat + (UInt32.ofNat index % columns).toNat =
      index % 4294967296 := by
  rw [UInt32.toNat_div, UInt32.toNat_mod, Nat.div_add_mod']
  exact UInt32.toNat_ofNat'

/-- Coordinates in a row are told by their position. -/
theorem position_inj {x y x' y' : UInt32} (left : x < columns) (left' : x' < columns) :
    y'.toNat * columns.toNat + x'.toNat = y.toNat * columns.toNat + x.toNat ↔ x' = x ∧ y' = y := by
  have column := UInt32.lt_iff_toNat_lt.1 left
  have column' := UInt32.lt_iff_toNat_lt.1 left'
  constructor
  · intro same
    have remainders := congrArg (· % columns.toNat) same
    have quotients := congrArg (· / columns.toNat) same
    simp only [Nat.mul_comm _ columns.toNat, Nat.mul_add_mod, Nat.mod_eq_of_lt column,
      Nat.mod_eq_of_lt column'] at remainders
    simp only [Nat.mul_comm _ columns.toNat, Nat.mul_add_div (Nat.zero_lt_of_lt column),
      Nat.div_eq_of_lt column, Nat.div_eq_of_lt column', Nat.add_zero] at quotients
    exact ⟨UInt32.toNat_inj.1 remainders, UInt32.toNat_inj.1 quotients⟩
  · rintro ⟨rfl, rfl⟩
    rfl

/-- The position and the literal of a texel that is set by itself. -/
def TexelSeed.entry (columns : UInt32) (t : TexelSeed) : Nat × Literal :=
  (t.y.toNat * columns.toNat + t.x.toNat, t.value)

/-- Entries within the columns are found by their coordinates. -/
theorem lookup_entries {x y : UInt32} {texels : List TexelSeed} (inside : ∀ t ∈ texels, t.x < columns)
    (left : x < columns) :
    (texels.map (TexelSeed.entry columns)).lookup (y.toNat * columns.toNat + x.toNat) =
      (texels.find? fun t => t.x = x ∧ t.y = y).map TexelSeed.value := by
  induction texels with
  | nil => rfl
  | cons t rest ih =>
    obtain ⟨within, later⟩ := List.forall_mem_cons.1 inside
    have same := @position_inj columns x y t.x t.y left within
    rw [List.map_cons, TexelSeed.entry, List.lookup_cons, List.find?_cons]
    by_cases here : t.x = x ∧ t.y = y
    · rw [same.2 here]
      simp [here]
    · have elsewhere := beq_false_of_ne fun equal => here (same.1 equal.symm)
      rw [elsewhere, decide_eq_false here]
      exact ih later

/-- The texels that are set by themselves, which all have to lie within the image. -/
theorem leads_set_texels (target : String) (texels : List TexelSeed) :
    Leads (s.ButImage binding (base.CoveredAs columns rows laid))
      (texels.forM fun t => do Store.seedTexel binding t.x t.y (← seedBytes target base.format t.value))
      fun _ t => (∀ t ∈ texels, t.x < columns) ∧ s.ButImage binding
        (base.CoveredAs columns rows (overlaid (texels.map (TexelSeed.entry columns)) laid)) t := by
  let P (done : List TexelSeed) (t : Store) := (∀ t ∈ done, t.x < columns) ∧ s.ButImage binding
    (base.CoveredAs columns rows (overlaid (done.map (TexelSeed.entry columns)) laid)) t
  refine (@leads_forM_from _ P _ [] texels fun done e => ?_).mono (fun t but => ?_) fun _ _ after => after
  · rintro t _ t' ⟨inside, but⟩ ran
    obtain ⟨left, but⟩ := leads_set_texel target e.x e.y e.value t () t' but ran
    refine ⟨fun e' member => ?_, ?_⟩
    · rcases List.mem_append.1 member with before | last
      · exact inside e' before
      · exact List.mem_singleton.1 last ▸ left
    · rw [List.map_append, List.map_singleton, overlaid_snoc]
      exact but
  · exact ⟨fun e none => (List.not_mem_nil none).elim, but⟩

/-- Whether an image is another one with the extent of a seed and its texels covered by the seed's
literals. -/
def Image.CoveredBy (base : Image) (seed : ImageSeed) (i : Image) : Prop :=
  ∃ laid, base.CoveredAs seed.width seed.height laid i ∧
    ∀ x y : UInt32, x < seed.width → laid (y.toNat * seed.width.toNat + x.toNat) = seed.literal? x y

/-- The leading data and then the texels that are set by themselves, over the fill value. -/
theorem ImageSeed.leads_texels (seed : ImageSeed) (target : String) :
    Leads (s.ButImage binding (base.CoveredAs seed.width seed.height fun _ => seed.fill))
      (do
        seed.data.zipIdx.forM fun x => do
          let position := UInt32.ofNat x.2
          Store.seedTexel binding (position % seed.width) (position / seed.width)
            (← seedBytes target base.format x.1)
        seed.texels.forM fun t => do
          Store.seedTexel binding t.x t.y (← seedBytes target base.format t.value))
      fun _ => s.ButImage binding (base.CoveredBy seed) := by
  let P (laid : Nat → Option Literal) := s.ButImage binding (base.CoveredAs seed.width seed.height laid)
  have data := @leads_overlay _ P _ (fun e => (e.2 % 4294967296, e.1)) seed.data.zipIdx (fun _ => seed.fill)
    fun laid x => (@leads_set_texel s binding base seed.width seed.height laid target
      (UInt32.ofNat x.2 % seed.width) (UInt32.ofNat x.2 / seed.width) x.1).mono (fun _ before => before)
      fun _ _ after => position_of_ofNat x.2 ▸ after.2
  refine data.bind fun _ => (leads_set_texels target seed.texels).mono (fun _ before => before) ?_
  rintro _ _ ⟨inside, i, same, covered⟩
  refine ⟨i, same, _, covered, fun x y left => ?_⟩
  have within : ∀ t ∈ seed.texels.reverse, t.x < seed.width :=
    fun t member => inside t (List.mem_reverse.1 member)
  rw [overlaid_apply, overlaid_apply, ← List.map_reverse, lookup_entries within left]
  rfl

/-- What a seed makes of an image, and that it does nothing else. -/
theorem ImageSeed.apply_covers (seed : ImageSeed) (ran : seed.apply s = .ok () s') :
    ∃ base, s.images.get? seed.binding = some base ∧
      s.ButImage seed.binding (base.CoveredBy seed) s' := by
  cases found : s.images.get? seed.binding with
  | none =>
    rw [apply, Store.bind_eq_error (Store.seedImageAt_eq_error found)] at ran
    cases ran
  | some base =>
    refine ⟨base, rfl, ?_⟩
    rw [apply, Store.bind_eq (Store.seedImageAt_eq found)] at ran
    dsimp only at ran
    by_cases tooMany : seed.width.toNat * seed.height.toNat < seed.data.length
    · rw [if_pos tooMany] at ran
      cases ran
    · rw [if_neg tooMany] at ran
      have texels := @ImageSeed.leads_texels s seed.binding base seed (Store.imageTarget seed.binding)
      cases filled : seed.fill with
      | none =>
        rw [filled] at ran texels
        exact ((leads_allocate_texels found).bind fun _ => texels) s () s' rfl ran
      | some l =>
        rw [filled] at ran texels
        have fill := @leads_converted_texel base _ _ (Store.imageTarget seed.binding) l _
          fun bytes converted => (leads_fill_texels converted).bind fun _ => texels
        exact ((leads_allocate_texels found).bind fun _ => fill) s () s' rfl ran

end Images

end ComputeShader
