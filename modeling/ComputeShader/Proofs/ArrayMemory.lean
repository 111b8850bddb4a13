import ComputeShader.Proofs.EmptyResources
import ComputeShader.Proofs.StoreRepresentation

/-! # Stores as array memories

Elements of buffers and texels of images are slots. What an access names, an index or two coordinates,
stands for one slot or for none, as the policy for indices out of bounds says; different indices may stand
for one slot, and different coordinates of an image never share a texel. A call that succeeds puts something
into the slot that it stands for and leaves everything else alone; whatever a later load names, it finds
this in that slot, what was there before in any other one, and zero where there is none.
-/

namespace ComputeShader

/-! ## Slots -/

namespace OobPolicy

/-- The slot among `extent` that an index stands for: itself in range, else the nearest one if indices are
clamped. -/
def slot? (policy : OobPolicy) (index : Int) (extent : Nat) : Option Nat :=
  if 0 ≤ index ∧ index < extent then some index.toNat
  else if policy = .clampAndReport ∧ 0 < extent then some (if index < 0 then 0 else extent - 1)
  else none

/-- Whether an index is an error. -/
def Refuses (policy : OobPolicy) (index : Int) (extent : Nat) : Prop :=
  policy = .fault ∧ 0 < extent ∧ ¬ (0 ≤ index ∧ index < extent)

theorem slot?_lt {policy : OobPolicy} {index : Int} {extent i : Nat}
    (stands : policy.slot? index extent = some i) : i < extent := by
  unfold slot? at stands
  grind

theorem slot?_of_refuses {policy : OobPolicy} {index : Int} {extent : Nat}
    (refused : policy.Refuses index extent) : policy.slot? index extent = none := by
  obtain ⟨rfl, -, outside⟩ := refused
  rw [slot?, if_neg outside, if_neg (by simp)]

end OobPolicy

namespace Resolution

variable {policy : OobPolicy} {label : String} {index : Int} {extent : Nat} {i : Image}
  {binding : Binding} {x y : Int}

/-- An index that is no error stands for its slot or is dropped. -/
theorem answer_ofIndex (accepted : ¬ policy.Refuses index extent) :
    (ofIndex policy label index extent).answer = .ok (policy.slot? index extent) := by
  by_cases inside : 0 ≤ index ∧ index < extent
  · rw [ofIndex, if_pos inside, OobPolicy.slot?, if_pos inside]
  rw [ofIndex, if_neg inside, OobPolicy.slot?, if_neg inside]
  by_cases empty : extent = 0
  · rw [if_pos empty, if_neg fun both => Nat.ne_of_gt both.2 empty]
  have some := Nat.pos_of_ne_zero empty
  rw [if_neg empty]
  cases policy with
  | clampAndReport => exact congrArg Except.ok (if_pos ⟨rfl, some⟩).symm
  | discardAndReport => exact congrArg Except.ok (if_neg (by simp)).symm
  | fault => exact (accepted ⟨rfl, some, inside⟩).elim

theorem answer_of_refuses (refused : policy.Refuses index extent) :
    (ofIndex policy label index extent).answer = .error (.outOfBounds label index extent) := by
  obtain ⟨rfl, some, outside⟩ := refused
  rw [ofIndex_fault some outside]

/-- An index stands for its slot. -/
theorem index?_ofIndex : (ofIndex policy label index extent).index? = policy.slot? index extent := by
  by_cases refused : policy.Refuses index extent
  · rw [index?, answer_of_refuses refused, OobPolicy.slot?_of_refuses refused]
  · rw [index?, answer_ofIndex refused]

/-- Coordinates stand for the texel in the slots of both. -/
theorem index?_ofTexel : (ofTexel policy i binding x y).index? =
    (policy.slot? x i.width.toNat).bind fun column =>
      (policy.slot? y i.height.toNat).map (i.position column) := by
  rw [← @index?_ofIndex _ ("x coordinate of " ++ i.label binding),
    ← @index?_ofIndex _ ("y coordinate of " ++ i.label binding)]
  unfold ofTexel
  generalize ofIndex policy _ x _ = column
  generalize ofIndex policy _ y _ = row
  obtain ⟨answer, messages⟩ := column
  rcases answer with e | _ | c
  · rfl
  · rfl
  · obtain ⟨answer', messages'⟩ := row
    cases answer' <;> rfl

end Resolution

/-- An element by its index or a texel by its coordinates, in range. -/
inductive Slot where
  | element (binding : Binding) (index : Nat)
  | texel (binding : Binding) (x y : Nat)
  deriving DecidableEq, Repr

/-- What an access names: an index of a buffer or coordinates of an image, in range or not. -/
inductive Address where
  | element (binding : Binding) (index : Int)
  | texel (binding : Binding) (x y : Int)

namespace Address

/-- The slot that an address stands for. -/
def slot? (s : Store) : Address → Option Slot
  | element binding index => (s.buffers.get? binding).bind fun b =>
    (s.oobPolicy.slot? index b.length).map (.element binding)
  | texel binding x y => (s.images.get? binding).bind fun i =>
    (s.oobPolicy.slot? x i.width.toNat).bind fun column =>
      (s.oobPolicy.slot? y i.height.toNat).map (.texel binding column)

/-- Whether an address is an error. The row of a texel is looked at only if the column stands for a slot. -/
def Refused (s : Store) : Address → Prop
  | element binding index =>
    ∃ b, s.buffers.get? binding = some b ∧ s.oobPolicy.Refuses index b.length
  | texel binding x y =>
    ∃ i, s.images.get? binding = some i ∧ (s.oobPolicy.Refuses x i.width.toNat ∨
      (s.oobPolicy.slot? x i.width.toNat).isSome ∧ s.oobPolicy.Refuses y i.height.toNat)

/-- Load what an address names. -/
def load (me : InvocationId) : Address → StoreM Value
  | element binding index => Store.read binding index me
  | texel binding x y => Store.imageLoad binding x y me

/-- The zero of what an address names. -/
def zero? (s : Store) : Address → Option Value
  | element binding _ => (s.buffers.get? binding).map fun b => .zero b.element
  | texel binding _ _ => (s.images.get? binding).map fun i => .zero i.format.loadType

end Address

namespace Slot

/-- Where the contents of a slot are. -/
def location (s : Store) : Slot → Location
  | element binding i => ⟨.buffer binding, i⟩
  | texel binding x y =>
    ⟨.image binding, ((s.images.get? binding).map (Image.position · x y)).getD 0⟩

/-- The bytes of a texel. -/
def texel? (s : Store) : Slot → Option (List UInt8)
  | element .. => none
  | texel binding x y => (s.images.get? binding).map fun i => i.bytes (i.position x y)

/-- The value in a slot. -/
def value? (s : Store) : Slot → Option Value
  | element binding i => (s.buffers.get? binding).map (Buffer.value · i)
  | texel binding x y =>
    (s.images.get? binding).map fun i => i.format.decode (i.bytes (i.position x y))

end Slot

namespace StoreCall

/-- What a call names. -/
def address : StoreCall → Address
  | read binding index | write binding index _ | update binding index _ | atomic _ binding index _ =>
    .element binding index
  | imageLoad binding x y | imageStore binding x y _ | imageAtomicAdd binding x y _ =>
    .texel binding x y

end StoreCall

/-- A texel with atomics is one word. -/
theorem TexelFormat.texelSize_of_supportsAtomics {f : TexelFormat} (supports : f.supportsAtomics) :
    f.texelSize = 4 := by
  cases f <;> first | rfl | cases supports

/-- Two positions in rows of one width are the same only if both coordinates are. -/
theorem Image.position_injective {i : Image} {x y x' y' : Nat} (left : x < i.width.toNat)
    (left' : x' < i.width.toNat) (same : i.position x y = i.position x' y') : x = x' ∧ y = y' := by
  unfold position at same
  have columns := congrArg (· % i.width.toNat) same
  have rows := congrArg (· / i.width.toNat) same
  simp only [Nat.mul_comm _ i.width.toNat, Nat.mul_add_mod, Nat.mod_eq_of_lt left,
    Nat.mod_eq_of_lt left'] at columns
  have some : 0 < i.width.toNat := Nat.zero_lt_of_lt left
  simp only [Nat.mul_comm _ i.width.toNat, Nat.mul_add_div some, Nat.div_eq_of_lt left,
    Nat.div_eq_of_lt left', Nat.add_zero] at rows
  exact ⟨columns, rows⟩

namespace Store

variable {s t : Store} {me : InvocationId} {slot slot' : Slot} {address address' : Address}
  {binding : Binding}

/-! ## Slots of a frame -/

section Elements

variable {b : Buffer} {index : Int} {i : Nat}

theorem slot?_element (found : s.buffers.get? binding = some b) (index : Int) :
    (Address.element binding index).slot? s =
      (s.oobPolicy.slot? index b.length).map (.element binding) := by
  rw [Address.slot?, found, Option.bind_some]

/-- What the store holds at an element is its value. -/
theorem value?_element (frame : t.frame = s.frame) (found : s.buffers.get? binding = some b) (i : Nat) :
    (Slot.element binding i).value? t = some (.ofBits b.element (t.cell ⟨.buffer binding, i⟩)) := by
  obtain ⟨b', found', alike⟩ := buffer_of_frame frame found
  rw [Slot.value?, cell, found', ← Buffer.element_of_frame alike]
  rfl

end Elements

section Texels

variable {i : Image} {x y : Nat}

theorem slot?_texel (found : s.images.get? binding = some i) (x y : Int) :
    (Address.texel binding x y).slot? s = (s.oobPolicy.slot? x i.width.toNat).bind fun column =>
      (s.oobPolicy.slot? y i.height.toNat).map (.texel binding column) := by
  rw [Address.slot?, found, Option.bind_some]

theorem location_texel (found : s.images.get? binding = some i) :
    (Slot.texel binding x y).location s = ⟨.image binding, i.position x y⟩ := by
  rw [Slot.location, found]
  rfl

theorem texel?_texel (proper : t.WellFormed) (frame : t.frame = s.frame)
    (found : s.images.get? binding = some i) (x y : Nat) :
    (Slot.texel binding x y).texel? t =
      some ((t.cell ⟨.image binding, i.position x y⟩).flatMap LittleEndian.bytes) := by
  obtain ⟨i', found', alike⟩ := image_of_frame frame found
  have position : i'.position x y = i.position x y := by
    rw [Image.position, Image.position, Image.width_of_frame alike]
  rw [Slot.texel?, cell, found', Option.map_some, Option.map_some, Option.getD_some, position,
    (proper.images binding i' found').flatMap_words]

/-- What the store holds at a texel is decoded to its value. -/
theorem value?_texel (proper : t.WellFormed) (frame : t.frame = s.frame)
    (found : s.images.get? binding = some i) (x y : Nat) :
    (Slot.texel binding x y).value? t = some (i.format.decode
      ((t.cell ⟨.image binding, i.position x y⟩).flatMap LittleEndian.bytes)) := by
  obtain ⟨i', found', alike⟩ := image_of_frame frame found
  have bytes := texel?_texel proper frame found x y
  rw [Slot.texel?, found', Option.map_some, Option.some.injEq] at bytes
  rw [Slot.value?, found', Option.map_some, bytes, Image.format_of_frame alike]

end Texels

theorem slot?_of_frame (frame : t.frame = s.frame) (address : Address) :
    address.slot? t = address.slot? s := by
  cases address with
  | element binding index =>
    cases found : s.buffers.get? binding with
    | none => simp [Address.slot?, found, no_buffer_of_frame frame found]
    | some b =>
      obtain ⟨b', found', alike⟩ := buffer_of_frame frame found
      rw [slot?_element found, slot?_element found', oobPolicy_of_frame frame,
        Buffer.length_of_frame alike]
  | texel binding x y =>
    cases found : s.images.get? binding with
    | none => simp [Address.slot?, found, no_image_of_frame frame found]
    | some i =>
      obtain ⟨i', found', alike⟩ := image_of_frame frame found
      rw [slot?_texel found, slot?_texel found', oobPolicy_of_frame frame,
        Image.width_of_frame alike, Image.height_of_frame alike]

theorem zero?_of_frame (frame : t.frame = s.frame) (address : Address) :
    address.zero? t = address.zero? s := by
  cases address with
  | element binding index =>
    cases found : s.buffers.get? binding with
    | none => rw [Address.zero?, Address.zero?, found, no_buffer_of_frame frame found]
    | some b =>
      obtain ⟨b', found', alike⟩ := buffer_of_frame frame found
      simp only [Address.zero?, found, found', Option.map_some, Buffer.element_of_frame alike]
  | texel binding x y =>
    cases found : s.images.get? binding with
    | none => rw [Address.zero?, Address.zero?, found, no_image_of_frame frame found]
    | some i =>
      obtain ⟨i', found', alike⟩ := image_of_frame frame found
      simp only [Address.zero?, found, found', Option.map_some, Image.format_of_frame alike]

/-! ## Accesses that succeed -/

section Accesses

variable {α : Type} {dropped a : α} {r : Resolution} {access : Nat → Except EngineError (Effect × α)}

/-- What succeeds was dropped or touched the place that its index stands for. -/
theorem touching_ok (ran : s.touching me r dropped access = .ok a t) :
    (r.index? = none ∧ a = dropped) ∨ ∃ i e, r.index? = some i ∧ access i = .ok (e, a) ∧
      t.cell = e.apply s.cell := by
  obtain ⟨answer, messages⟩ := r
  rcases answer with e | _ | i
  · cases ran
  · cases ran
    exact .inl ⟨rfl, rfl⟩
  · refine .inr ⟨i, ?_⟩
    rw [touching] at ran
    dsimp only at ran
    cases accessed : access i with
    | error e =>
      rw [accessed] at ran
      cases ran
    | ok done =>
      obtain ⟨e, a'⟩ := done
      rw [accessed] at ran
      cases ran
      refine ⟨e, rfl, rfl, ?_⟩
      rw [performAll_concat, cell_perform, cell_performAll_notes]

/-- Whether an access that gave `a` back went where its address says: the address is no error, without a
slot the access was dropped, and with one it did to the cells what it does at this place. -/
structure Lands (s : Store) (address : Address) (dropped : α)
    (access : Nat → Except EngineError (Effect × α)) (a : α) (t : Store) : Prop where
  accepted : ¬ address.Refused s
  dropped : address.slot? s = none → a = dropped
  touched : ∀ slot, address.slot? s = some slot →
    ∃ e, access (slot.location s).index = .ok (e, a) ∧ t.cell = e.apply s.cell

theorem lands_of_touching (ran : s.touching me r dropped access = .ok a t)
    (index : r.index? = (address.slot? s).map fun slot => (slot.location s).index)
    (refuses : address.Refused s → ∃ e, r.answer = .error e) : s.Lands address dropped access a t := by
  have ends := touching_ok ran
  rw [index] at ends
  refine ⟨fun refused => ?_, fun none => ?_, fun slot stands => ?_⟩
  · obtain ⟨e, answer⟩ := refuses refused
    rw [touching, answer] at ran
    cases ran
  · rw [none] at ends
    rcases ends with ⟨-, same⟩ | ⟨i, e, stands, -⟩
    · exact same
    · cases stands
  · rw [stands] at ends
    rcases ends with ⟨none, -⟩ | ⟨i, e, here, accessed, cells⟩
    · cases none
    · cases here
      exact ⟨e, accessed, cells⟩

theorem lands_element {b : Buffer} {index : Int} (found : s.buffers.get? binding = some b)
    (ran : s.touching me (.ofIndex s.oobPolicy (b.label binding) index b.length) dropped access =
      .ok a t) : s.Lands (.element binding index) dropped access a t := by
  refine lands_of_touching ran ?_ ?_
  · rw [Resolution.index?_ofIndex, slot?_element found, Option.map_map]
    exact Option.map_id'.symm
  · rintro ⟨b', found', refused⟩
    obtain rfl : b = b' := Option.some.inj (found.symm.trans found')
    exact ⟨_, Resolution.answer_of_refuses refused⟩

theorem lands_texel {i : Image} {x y : Int} (found : s.images.get? binding = some i)
    (ran : s.touching me (.ofTexel s.oobPolicy i binding x y) dropped access = .ok a t) :
    s.Lands (.texel binding x y) dropped access a t := by
  refine lands_of_touching ran ?_ ?_
  · rw [Resolution.index?_ofTexel, slot?_texel found, Option.map_bind]
    simp only [Function.comp_def, Option.map_map, location_texel found]
  · rintro ⟨i', found', refused⟩
    obtain rfl : i = i' := Option.some.inj (found.symm.trans found')
    rcases refused with column | ⟨column, row⟩
    · exact ⟨_, congrArg Resolution.answer (Resolution.texel_of_columnFaults column)⟩
    · obtain ⟨c, stands⟩ := Option.isSome_iff_exists.1 column
      have accepted : ¬ s.oobPolicy.Refuses x i.width.toNat := by
        intro refused
        rw [OobPolicy.slot?_of_refuses refused] at stands
        cases stands
      refine ⟨.outOfBounds ("y coordinate of " ++ i.label binding) y i.height.toNat, ?_⟩
      simp only [Resolution.ofTexel, Resolution.answer_ofIndex accepted, stands,
        Resolution.answer_of_refuses row]
      rfl

end Accesses

/-- Loading from a slot succeeds with the value in it. -/
theorem load_of_slot (stands : address.slot? s = some slot) (me : InvocationId) :
    ∃ v s', slot.value? s = some v ∧ address.load me s = .ok v s' := by
  cases address with
  | element binding index =>
    obtain ⟨b, found, stands⟩ := Option.bind_eq_some_iff.1 stands
    obtain ⟨i, inside, rfl⟩ := Option.map_eq_some_iff.1 stands
    rw [← @Resolution.index?_ofIndex _ (b.label binding)] at inside
    refine ⟨b.value i, _, ?_, (read_eq found me index).trans (touching_eq inside rfl)⟩
    rw [Slot.value?, found, Option.map_some]
  | texel binding x y =>
    obtain ⟨i, found, stands⟩ := Option.bind_eq_some_iff.1 stands
    obtain ⟨column, left, stands⟩ := Option.bind_eq_some_iff.1 stands
    obtain ⟨row, above, rfl⟩ := Option.map_eq_some_iff.1 stands
    have inside : (Resolution.ofTexel s.oobPolicy i binding x y).index? =
        some (i.position column row) := by
      rw [Resolution.index?_ofTexel, left, Option.bind_some, above, Option.map_some]
    refine ⟨_, _, ?_, (imageLoad_eq found me x y).trans (touching_eq inside rfl)⟩
    rw [Slot.value?, found, Option.map_some]

/-- Loading from an address without a slot gives zero if it succeeds. -/
theorem load_of_none {v : Value} (none : address.slot? s = none) (ran : address.load me s = .ok v t) :
    address.zero? s = some v := by
  cases address with
  | element binding index =>
    cases found : s.buffers.get? binding with
    | none => cases (bind_eq_error (bufferAt_eq_error found)).symm.trans ran
    | some b =>
      have lands := lands_element found ((read_eq found me index).symm.trans ran)
      rw [Address.zero?, found, lands.dropped none, Option.map_some]
  | texel binding x y =>
    cases found : s.images.get? binding with
    | none => cases (bind_eq_error (imageAt_eq_error found)).symm.trans ran
    | some i =>
      have lands := lands_texel found ((imageLoad_eq found me x y).symm.trans ran)
      rw [Address.zero?, found, lands.dropped none, Option.map_some]

end Store

/-! ## What a call puts into its slot -/

namespace StoreCall

/-- Whether `v` is the value that a call which gave `a` back has put into its slot, from the store `s` to the
store `t`. A store puts its value there, bit for bit; a store to a part what it makes of the value that was
there; an atomic what it makes of the word that was there, which it gives back. Texels are put as the
format encodes them. -/
def Puts (s t : Store) (me : InvocationId) (slot : Slot) :
    (call : StoreCall) → call.Answer → Value → Prop
  | read .., a, v | imageLoad .., a, v => v = a
  | write _ _ new, _, v => v.ty = new.ty ∧ v.bits = new.bits
  | update binding index change, _, v => ∃ old new s',
    Store.read binding index me s = .ok old s' ∧ change old = .ok new ∧
      v.ty = new.ty ∧ v.bits = new.bits
  | atomic op _ _ operands, a, v => ∃ kind r w,
    AtomicRequest.of? kind op operands = some r ∧ slot.value? s = some (.ofWord kind w) ∧
      a = .ofWord kind w ∧ v = .ofWord kind (r.change kind w)
  | imageStore binding _ _ new, _, v => ∃ i bytes,
    s.images.get? binding = some i ∧ i.format.encode new = .ok bytes ∧
      slot.texel? t = some bytes ∧ v = i.format.decode bytes
  | imageAtomicAdd binding _ _ delta, a, v => ∃ i w,
    s.images.get? binding = some i ∧ slot.texel? s = some (LittleEndian.bytes w) ∧
      a = .ofWord i.format.kind w ∧
      slot.texel? t = some (LittleEndian.bytes (w + (delta.lane 0).toBits)) ∧
      v = i.format.decode (LittleEndian.bytes (w + (delta.lane 0).toBits))

end StoreCall

namespace Store

variable {s t : Store} {me : InvocationId} {binding : Binding}

/-- What a call that succeeds does to its slot: the address is no error, and what is in the slot afterwards is
what the call puts there. -/
def Settles (s : Store) (me : InvocationId) (call : StoreCall) (a : call.Answer) (t : Store) : Prop :=
  ¬ call.address.Refused s ∧
    ∀ slot v, call.address.slot? s = some slot → slot.value? t = some v → call.Puts s t me slot a v

section Buffers

variable {b : Buffer} {index : Int}

/-- What an access that landed made of an element. -/
theorem Lands.element {α : Type} {dropped a : α} {access : Nat → Except EngineError (Effect × α)}
    {slot : Slot} {v : Value} (lands : s.Lands (.element binding index) dropped access a t)
    (frame : t.frame = s.frame) (found : s.buffers.get? binding = some b)
    (stands : (Address.element binding index).slot? s = some slot) (holds : slot.value? t = some v) :
    ∃ i e, slot = .element binding i ∧ i < b.length ∧ access i = .ok (e, a) ∧
      v = .ofBits b.element (e.apply s.cell ⟨.buffer binding, i⟩) := by
  obtain ⟨e, accessed, cells⟩ := lands.touched slot stands
  obtain ⟨i, inside, rfl⟩ := Option.map_eq_some_iff.1 ((slot?_element found index).symm.trans stands)
  rw [value?_element frame found, cells] at holds
  exact ⟨i, e, rfl, OobPolicy.slot?_lt inside, accessed, (Option.some.inj holds).symm⟩

/-- A value of the element type that is stored whole is what the element holds, bit for bit. -/
theorem bits_of_store {i : Nat} {new : Value} (proper : s.WellFormed)
    (found : s.buffers.get? binding = some b) (typed : new.ty = b.element) (inside : i < b.length) :
    (Value.ofBits b.element ((Effect.store ⟨.buffer binding, i⟩ (.whole new.bits)).apply s.cell
      ⟨.buffer binding, i⟩)).bits = new.bits := by
  rw [Effect.apply, Function.update_self, apply_whole proper found typed inside, ← typed,
    Value.bits_ofBits new.holds_bits]

theorem settles_read {a : Value} (frame : t.frame = s.frame) (found : s.buffers.get? binding = some b)
    (ran : read binding index me s = .ok a t) : s.Settles me (.read binding index) a t := by
  have lands := lands_element found ((read_eq found me index).symm.trans ran)
  refine ⟨lands.accepted, fun slot v stands holds => ?_⟩
  obtain ⟨i, e, rfl, -, accessed, rfl⟩ := lands.element frame found stands holds
  cases accessed
  rw [Effect.apply, cell, found]
  rfl

theorem settles_write (proper : s.WellFormed) {new : Value} (frame : t.frame = s.frame)
    (found : s.buffers.get? binding = some b) (ran : write binding index new me s = .ok () t) :
    s.Settles me (.write binding index new) () t := by
  rw [write_eq proper found] at ran
  split at ran
  · next typed =>
    have lands := lands_element found ran
    refine ⟨lands.accepted, fun slot v stands holds => ?_⟩
    obtain ⟨i, e, rfl, inside, accessed, rfl⟩ := lands.element frame found stands holds
    cases accessed
    exact ⟨typed.symm, bits_of_store proper found typed inside⟩
  · cases ran

theorem settles_update (proper : s.WellFormed) {change : Value → Except EngineError Value}
    (frame : t.frame = s.frame) (found : s.buffers.get? binding = some b)
    (ran : update binding index me change s = .ok () t) :
    s.Settles me (.update binding index change) () t := by
  have lands := lands_element found ((update_eq proper found me index change).symm.trans ran)
  refine ⟨lands.accepted, fun slot v stands holds => ?_⟩
  obtain ⟨old, s', held, loaded⟩ := load_of_slot stands me
  obtain ⟨i, e, rfl, inside, accessed, rfl⟩ := lands.element frame found stands holds
  obtain rfl : b.value i = old := by
    rw [Slot.value?, found] at held
    exact Option.some.inj held
  rw [updated] at accessed
  split at accessed
  · cases accessed
  next new changed =>
  split at accessed
  · next typed =>
    cases accessed
    exact ⟨b.value i, new, s', loaded, changed, typed.symm, bits_of_store proper found typed inside⟩
  · cases accessed

/-- A successful atomic is one on an integer, with the operands that it takes. -/
theorem settles_atomic (proper : s.WellFormed) {op : AtomicOp} {operands : List Value} {a : Value}
    (frame : t.frame = s.frame) (found : s.buffers.get? binding = some b)
    (ran : atomic op binding index operands me s = .ok a t) :
    s.Settles me (.atomic op binding index operands) a t := by
  obtain ⟨kind, scalar, integer⟩ : ∃ kind, b.element = .scalar kind ∧ (kind = .int ∨ kind = .uint) := by
    rcases atomic_eq binding b op index operands me with ⟨e, -, fails⟩ | ⟨change, integer, -⟩
    · cases (fails s found).symm.trans ran
    · exact integer.elim (fun int => ⟨_, int, .inl rfl⟩) fun uint => ⟨_, uint, .inr rfl⟩
  have runs := atomic_run proper found scalar integer op index operands me
  cases requested : AtomicRequest.of? kind op operands with
  | none =>
    rw [requested] at runs
    obtain ⟨e, fails⟩ := runs
    cases fails.symm.trans ran
  | some r =>
    rw [requested] at runs
    dsimp only at runs
    have lands := lands_element found (runs.symm.trans ran)
    refine ⟨lands.accepted, fun slot v stands holds => ?_⟩
    obtain ⟨i, e, rfl, inside, accessed, rfl⟩ := lands.element frame found stands holds
    have single : (b.bits i).length = 1 := by
      rw [(proper.buffers binding b found i inside).1, scalar]
      rfl
    obtain ⟨w, word⟩ := List.length_eq_one_iff.1 single
    have held : s.cell ⟨.buffer binding, i⟩ = [w] := by
      rw [cell, found, ← word]
      rfl
    cases accessed
    refine ⟨kind, r, w, requested, ?_, ?_, ?_⟩
    · rw [value?_element rfl found, held, scalar]
      rfl
    · rw [Buffer.value, word, scalar]
      rfl
    · rw [Effect.apply, Function.update_self, held, scalar]
      rfl

end Buffers

section Images

variable {i : Image} {x y : Int}

/-- What an access that landed made of a texel. -/
theorem Lands.texel {α : Type} {dropped a : α} {access : Nat → Except EngineError (Effect × α)}
    {slot : Slot} {v : Value} (lands : s.Lands (.texel binding x y) dropped access a t)
    (frame : t.frame = s.frame) (proper : t.WellFormed) (found : s.images.get? binding = some i)
    (stands : (Address.texel binding x y).slot? s = some slot) (holds : slot.value? t = some v) :
    ∃ column row e bytes, slot = .texel binding column row ∧
      i.position column row < i.width.toNat * i.height.toNat ∧
      access (i.position column row) = .ok (e, a) ∧
      bytes = (e.apply s.cell ⟨.image binding, i.position column row⟩).flatMap LittleEndian.bytes ∧
      slot.texel? t = some bytes ∧ v = i.format.decode bytes := by
  obtain ⟨e, accessed, cells⟩ := lands.touched slot stands
  rw [slot?_texel found] at stands
  obtain ⟨column, left, stands⟩ := Option.bind_eq_some_iff.1 stands
  obtain ⟨row, above, rfl⟩ := Option.map_eq_some_iff.1 stands
  have inside : (Resolution.ofTexel s.oobPolicy i binding x y).index? =
      some (i.position column row) := by
    rw [Resolution.index?_ofTexel, left, Option.bind_some, above, Option.map_some]
  rw [value?_texel proper frame found] at holds
  rw [location_texel found] at accessed
  refine ⟨column, row, e, _, rfl, Resolution.texel_lt inside, accessed, rfl, ?_, ?_⟩
  · rw [texel?_texel proper frame found, cells]
  · rw [← cells]
    exact (Option.some.inj holds).symm

theorem settles_imageLoad {a : Value} (proper : s.WellFormed) (proper' : t.WellFormed)
    (frame : t.frame = s.frame) (found : s.images.get? binding = some i)
    (ran : imageLoad binding x y me s = .ok a t) : s.Settles me (.imageLoad binding x y) a t := by
  have lands := lands_texel found ((imageLoad_eq found me x y).symm.trans ran)
  refine ⟨lands.accepted, fun slot v stands holds => ?_⟩
  obtain ⟨column, row, e, bytes, rfl, -, accessed, rfl, -, rfl⟩ :=
    lands.texel frame proper' found stands holds
  cases accessed
  rw [Effect.apply, cell, found, Option.map_some, Option.getD_some,
    (proper.images binding i found).flatMap_words]
  rfl

theorem settles_imageStore (proper : s.WellFormed) (proper' : t.WellFormed) {new : Value}
    (frame : t.frame = s.frame) (found : s.images.get? binding = some i)
    (ran : imageStore binding x y new me s = .ok () t) :
    s.Settles me (.imageStore binding x y new) () t := by
  rw [imageStore_eq proper found] at ran
  cases encoded : i.format.encode new with
  | error e =>
    rw [encoded] at ran
    cases ran
  | ok bytes =>
    rw [encoded] at ran
    have lands := lands_texel found ran
    refine ⟨lands.accepted, fun slot v stands holds => ?_⟩
    obtain ⟨column, row, e, bytes', rfl, inside, accessed, rfl, here, rfl⟩ :=
      lands.texel frame proper' found stands holds
    cases accessed
    have size := i.format.length_encode encoded
    rw [Effect.apply, Function.update_self, apply_whole_texel proper found size inside,
      LittleEndian.flatMap_bytes_words (size ▸ i.format.texelSize_mod_four)] at here ⊢
    exact ⟨i, bytes, found, encoded, here, rfl⟩

theorem settles_imageAtomicAdd (proper : s.WellFormed) (proper' : t.WellFormed) {delta a : Value}
    (frame : t.frame = s.frame) (found : s.images.get? binding = some i)
    (ran : imageAtomicAdd binding x y delta me s = .ok a t) :
    s.Settles me (.imageAtomicAdd binding x y delta) a t := by
  rw [imageAtomicAdd_eq proper found] at ran
  split at ran
  · cases ran
  next supported =>
  split at ran
  · cases ran
  have lands := lands_texel found ran
  refine ⟨lands.accepted, fun slot v stands holds => ?_⟩
  obtain ⟨column, row, e, bytes', rfl, inside, accessed, rfl, here, rfl⟩ :=
    lands.texel frame proper' found stands holds
  have single : (LittleEndian.words (i.bytes (i.position column row))).length = 1 := by
    obtain ⟨size, texels⟩ := proper.images binding i found
    rw [LittleEndian.length_words, texels _ (size ▸ inside),
      TexelFormat.texelSize_of_supportsAtomics (by simpa using supported)]
  obtain ⟨w, word⟩ := List.length_eq_one_iff.1 single
  have held : s.cell ⟨.image binding, i.position column row⟩ = [w] := by
    rw [cell, found, ← word]
    rfl
  cases accessed
  rw [Effect.apply, Function.update_self, held] at here ⊢
  refine ⟨i, w, found, ?_, ?_, here, rfl⟩
  · rw [texel?_texel proper rfl found, held]
    rfl
  · rw [word]
    rfl

end Images

/-- Every call that succeeds puts into its slot what `StoreCall.Puts` says. -/
theorem settles_of_ran (proper : s.WellFormed) (proper' : t.WellFormed) (frame : t.frame = s.frame)
    {call : StoreCall} {a : call.Answer} (ran : call.run me s = .ok a t) : s.Settles me call a t := by
  by_cases lacks : s.Lacks call.resource
  · obtain ⟨e, fails⟩ := run_of_lacks call me
    cases (fails s lacks).symm.trans ran
  cases call with
  | read binding index =>
    obtain ⟨b, found⟩ := Option.ne_none_iff_exists'.1 lacks
    exact settles_read frame found ran
  | write binding index v =>
    obtain ⟨b, found⟩ := Option.ne_none_iff_exists'.1 lacks
    exact settles_write proper frame found ran
  | update binding index change =>
    obtain ⟨b, found⟩ := Option.ne_none_iff_exists'.1 lacks
    exact settles_update proper frame found ran
  | atomic op binding index operands =>
    obtain ⟨b, found⟩ := Option.ne_none_iff_exists'.1 lacks
    exact settles_atomic proper frame found ran
  | imageLoad binding x y =>
    obtain ⟨i, found⟩ := Option.ne_none_iff_exists'.1 lacks
    exact settles_imageLoad proper proper' frame found ran
  | imageStore binding x y v =>
    obtain ⟨i, found⟩ := Option.ne_none_iff_exists'.1 lacks
    exact settles_imageStore proper proper' frame found ran
  | imageAtomicAdd binding x y v =>
    obtain ⟨i, found⟩ := Option.ne_none_iff_exists'.1 lacks
    exact settles_imageAtomicAdd proper proper' frame found ran

/-! ## What a call leaves alone -/

/-- A call uses the place of its slot. -/
theorem place?_eq (call : StoreCall) :
    call.place? s = (call.address.slot? s).map (Slot.location s) := by
  have element (binding : Binding) (index : Int) : s.elementAt? binding index =
      ((Address.element binding index).slot? s).map (Slot.location s) := by
    cases found : s.buffers.get? binding with
    | none => simp [elementAt?, Address.slot?, found]
    | some b =>
      rw [elementAt?_eq found, slot?_element found, Resolution.index?_ofIndex, Option.map_map]
      rfl
  have texel (binding : Binding) (x y : Int) : s.texelAt? binding x y =
      ((Address.texel binding x y).slot? s).map (Slot.location s) := by
    cases found : s.images.get? binding with
    | none => simp [texelAt?, Address.slot?, found]
    | some i =>
      rw [texelAt?_eq found, slot?_texel found, Resolution.index?_ofTexel, Option.map_bind,
        Option.map_bind]
      simp only [Function.comp_def, Option.map_map, location_texel found]
  cases call with
  | read | write | update | atomic => exact element _ _
  | imageLoad | imageStore | imageAtomicAdd => exact texel _ _ _

/-- Two slots in range are at one place only if they are the same. -/
theorem location_injective {address address' : Address} {slot slot' : Slot}
    (stands : address.slot? s = some slot) (stands' : address'.slot? s = some slot')
    (same : slot.location s = slot'.location s) : slot = slot' := by
  cases address with
  | element binding index =>
    obtain ⟨b, found, stands⟩ := Option.bind_eq_some_iff.1 stands
    obtain ⟨i, -, rfl⟩ := Option.map_eq_some_iff.1 stands
    cases slot' with
    | element => cases same; rfl
    | texel => cases same
  | texel binding x y =>
    obtain ⟨i, found, stands⟩ := Option.bind_eq_some_iff.1 stands
    obtain ⟨column, left, stands⟩ := Option.bind_eq_some_iff.1 stands
    obtain ⟨row, -, rfl⟩ := Option.map_eq_some_iff.1 stands
    cases address' with
    | element binding' index =>
      obtain ⟨b, -, stands'⟩ := Option.bind_eq_some_iff.1 stands'
      obtain ⟨j, -, rfl⟩ := Option.map_eq_some_iff.1 stands'
      cases same
    | texel binding' x' y' =>
      obtain ⟨i', found', stands'⟩ := Option.bind_eq_some_iff.1 stands'
      obtain ⟨column', left', stands'⟩ := Option.bind_eq_some_iff.1 stands'
      obtain ⟨row', -, rfl⟩ := Option.map_eq_some_iff.1 stands'
      rw [location_texel found, location_texel found', Location.mk.injEq, Resource.image.injEq] at same
      obtain ⟨rfl, positions⟩ := same
      obtain rfl : i = i' := Option.some.inj (found.symm.trans found')
      obtain ⟨rfl, rfl⟩ := Image.position_injective (OobPolicy.slot?_lt left)
        (OobPolicy.slot?_lt left') positions
      rfl

/-- A slot whose cell is the same holds the same value. -/
theorem value?_of_cell {address : Address} {slot : Slot} (proper : s.WellFormed) (proper' : t.WellFormed)
    (frame : t.frame = s.frame) (stands : address.slot? s = some slot)
    (same : t.cell (slot.location s) = s.cell (slot.location s)) : slot.value? t = slot.value? s := by
  cases address with
  | element binding index =>
    obtain ⟨b, found, stands⟩ := Option.bind_eq_some_iff.1 stands
    obtain ⟨i, -, rfl⟩ := Option.map_eq_some_iff.1 stands
    have cells : t.cell ⟨.buffer binding, i⟩ = s.cell ⟨.buffer binding, i⟩ := same
    rw [value?_element frame found, value?_element rfl found, cells]
  | texel binding x y =>
    obtain ⟨i, found, stands⟩ := Option.bind_eq_some_iff.1 stands
    obtain ⟨column, -, stands⟩ := Option.bind_eq_some_iff.1 stands
    obtain ⟨row, -, rfl⟩ := Option.map_eq_some_iff.1 stands
    rw [location_texel found] at same
    rw [value?_texel proper' frame found, value?_texel proper rfl found, same]

theorem exists_of_answer_ok {α : Type} {result : EStateM.Result EngineError Store α} {a : α}
    (answered : answer result = .ok a) : ∃ t, result = .ok a t := by
  cases result with
  | ok b t =>
    cases answered
    exact ⟨t, rfl⟩
  | error e t => cases answered

/-- What a successful call, which gave `a` back, makes of a store as a memory of slots. Its address is no
error. It keeps the layout and everything in other buffers and images, textures and uniforms, and if its
address stands for no slot, all contents. And whoever loads afterwards, a successful load gives from the
slot of the call what it put there, from another slot what this load would have given before, and without
one zero. -/
structure Remembers (s : Store) (me : InvocationId) (call : StoreCall) (a : call.Answer) (t : Store) :
    Prop where
  accepted : ¬ call.address.Refused s
  frame : t.frame = s.frame
  textures : t.textures = s.textures
  uniforms : t.uniforms = s.uniforms
  buffers : ∀ binding, call.resource ≠ .buffer binding →
    t.buffers.get? binding = s.buffers.get? binding
  images : ∀ binding, call.resource ≠ .image binding → t.images.get? binding = s.images.get? binding
  dropped : call.address.slot? s = none → t.buffers = s.buffers ∧ t.images = s.images
  here : ∀ (address : Address) you v t' slot, address.load you t = .ok v t' →
    address.slot? s = some slot → call.address.slot? s = some slot → call.Puts s t me slot a v
  elsewhere : ∀ (address : Address) you v t' slot, address.load you t = .ok v t' →
    address.slot? s = some slot → call.address.slot? s ≠ some slot → ∃ s', address.load you s = .ok v s'
  nowhere : ∀ (address : Address) you v t', address.load you t = .ok v t' →
    address.slot? s = none → address.zero? s = some v

theorem WellFormed.remembers (proper : s.WellFormed) {call : StoreCall} {a : call.Answer}
    (ran : call.run me s = .ok a t) : s.Remembers me call a t := by
  have left : call.perform s me = t := by rw [← StoreCall.left_run, ran, Store.left]
  obtain ⟨frame, proper', cells⟩ := call.perform_keeps proper me
  rw [left] at frame proper' cells
  obtain ⟨accepted, settled⟩ := settles_of_ran proper proper' frame ran
  have outside (kept : Resource → Prop) (other : ¬ kept call.resource) : s.Retains kept t := by
    refine ⟨proper', frame, fun place member => cells place fun _ stands => other ?_⟩
    exact StoreCall.resource_of_place? stands ▸ member
  constructor
  case accepted => exact accepted
  case frame => exact frame
  case textures => exact (congrArg Store.textures frame :)
  case uniforms => exact (congrArg Store.uniforms frame :)
  case buffers =>
    intro binding other
    exact (outside (· = .buffer binding) other).buffer rfl
  case images =>
    intro binding other
    exact (outside (· = .image binding) other).image proper rfl
  case dropped =>
    intro none
    refine contents_eq proper' proper frame fun place => cells place fun _ stands => ?_
    rw [place?_eq, none] at stands
    cases stands
  case here =>
    intro address you v t' slot loaded stands same
    obtain ⟨w, t'', held, loaded'⟩ := load_of_slot ((slot?_of_frame frame address).trans stands) you
    cases loaded'.symm.trans loaded
    exact settled slot v same held
  case elsewhere =>
    intro address you v t' slot loaded stands differ
    obtain ⟨w, t'', held, loaded'⟩ := load_of_slot ((slot?_of_frame frame address).trans stands) you
    cases loaded'.symm.trans loaded
    obtain ⟨w, s', before, loaded''⟩ := load_of_slot stands you
    have cell : t.cell (slot.location s) = s.cell (slot.location s) := by
      refine cells _ fun _ placed => ?_
      rw [place?_eq] at placed
      obtain ⟨slot', stands', same⟩ := Option.map_eq_some_iff.1 placed
      exact differ (stands'.trans (congrArg some (location_injective stands' stands same)))
    rw [value?_of_cell proper proper' frame stands cell, before] at held
    cases held
    exact ⟨s', loaded''⟩
  case nowhere =>
    intro address you v t' loaded none
    rw [← zero?_of_frame frame]
    exact load_of_none ((slot?_of_frame frame address).trans none) loaded

end Store

/-- Under every policy, the stores that operations make are array memories. -/
theorem Operated.array_memory {shader : Shader} {config : EngineConfig} {s t : Store}
    (reachable : Operated shader config s) {call : StoreCall} {me : InvocationId} {a : call.Answer}
    (ran : call.run me s = .ok a t) : s.Remembers me call a t :=
  reachable.upholds.wellFormed.remembers ran

/-- Coordinates far to the right of an image and above it stand for its texel at the edge. What is stored
there is found again from the left of the texel's row, while the texel below the first one keeps what an
atomic left in it. -/
theorem Operated.array_memory_marking :
    let config : EngineConfig := { imageWidth := 2, imageHeight := 2 }
    let s := Operation.perform (.create marking config) (.access (.imageAtomicAdd 1 0 1 (.uint 5)) 3)
    let texel := Value.ofBits (.vector .uint .four) [7, 0, 0, 0]
    let call := StoreCall.imageStore 1 9 (-3) texel
    ∃ t, call.run 0 s = .ok () t ∧ s.Remembers 0 call () t ∧
      call.address.slot? s = some (.texel 1 1 0) ∧
      Store.answer (Store.imageLoad 1 1 (-8) 2 t) =
        .ok (.ofBits (.vector .uint .four) [7, 0, 0, 1]) ∧
      Store.answer (Store.imageLoad 1 (-4) 6 2 t) =
        .ok (.ofBits (.vector .uint .four) [5, 0, 0, 1]) := by
  intro config s texel call
  have succeeds : Store.answer (Store.imageStore 1 9 (-3) texel 0 s) = .ok () := by decide +kernel
  obtain ⟨t, ran⟩ := Store.exists_of_answer_ok succeeds
  have reachable : Operated marking config s := .performed _ .created trivial
  have remembers : s.Remembers 0 call () t := reachable.array_memory ran
  obtain rfl : call.perform s 0 = t := congrArg Store.left ran
  exact ⟨_, ran, remembers, by decide +kernel, by decide +kernel, by decide +kernel⟩

end ComputeShader
