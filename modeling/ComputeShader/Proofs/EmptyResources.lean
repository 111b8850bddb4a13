import ComputeShader.Proofs.AtomicSequences

/-! # Resources without elements

An access to a buffer of length zero is dropped whatever its index and the policy, and no more than noted.
An image is bounded one coordinate at a time, `x` first. So one without columns drops every access, but one
that has columns and no rows does so only after the column was brought into range: under the policy `fault`
a column outside the image is a fault all the same.
-/

namespace ComputeShader

/-! ## Resolutions in empty extents -/

namespace Resolution

variable {policy : OobPolicy} {label : String} {index : Int} {extent : Nat}

/-- Nothing empty is ever out of bounds. -/
theorem answer_of_empty (empty : extent = 0) :
    (ofIndex policy label index extent).answer = .ok none := by
  subst empty
  have outside : ¬ (0 ≤ index ∧ index < (0 : Nat)) := by omega
  rw [ofIndex, if_neg outside, if_pos rfl]

/-- An index that is no fault is dropped or stands for a place. -/
theorem answer_of_spared (spared : ¬ (policy = .fault ∧ 0 < extent ∧ ¬ (0 ≤ index ∧ index < extent))) :
    ∃ place?, (ofIndex policy label index extent).answer = .ok place? := by
  unfold ofIndex
  split
  · exact ⟨_, rfl⟩
  split
  · exact ⟨_, rfl⟩
  · next outside some =>
    cases policy with
    | clampAndReport | discardAndReport => exact ⟨_, rfl⟩
    | fault => exact (spared ⟨rfl, Nat.pos_of_ne_zero some, outside⟩).elim

/-- Under the policy `fault` nothing is said about an index outside. -/
theorem ofIndex_fault (some : 0 < extent) (outside : ¬ (0 ≤ index ∧ index < extent)) :
    ofIndex .fault label index extent = ⟨.error (.outOfBounds label index extent), []⟩ := by
  rw [ofIndex, if_neg outside, if_neg (Nat.ne_of_gt some)]

end Resolution

/-- Whether an atomic fits an element: it is an integer, and the operands are as many as the operation takes
and of its type. -/
def ValueType.TakesAtomic (element : ValueType) (op : AtomicOp) (operands : List Value) : Prop :=
  (element = .scalar .int ∨ element = .scalar .uint) ∧ operands.length = op.operandCount ∧
    ∀ v ∈ operands, v.ty = element

instance (element : ValueType) (op : AtomicOp) (operands : List Value) :
    Decidable (element.TakesAtomic op operands) :=
  inferInstanceAs (Decidable (_ ∧ _ ∧ _))

/-- An atomic fits an integer exactly if it makes a request. -/
theorem takesAtomic_iff {kind : ScalarKind} {op : AtomicOp} {operands : List Value}
    (integer : kind = .int ∨ kind = .uint) :
    (ValueType.scalar kind).TakesAtomic op operands ↔ (AtomicRequest.of? kind op operands).isSome := by
  have kinds : ValueType.scalar kind = .scalar .int ∨ ValueType.scalar kind = .scalar .uint :=
    integer.imp (congrArg _) (congrArg _)
  by_cases typed : ∀ v ∈ operands, v.ty = .scalar kind
  · have counted : (ValueType.scalar kind).TakesAtomic op operands ↔ operands.length = op.operandCount :=
      ⟨fun takes => takes.2.1, fun count => ⟨kinds, count, typed⟩⟩
    rw [counted]
    simp only [AtomicRequest.of?, if_pos typed]
    rcases operands with _ | ⟨a, _ | ⟨b, _ | ⟨c, rest⟩⟩⟩ <;> cases op <;>
      simp [AtomicOp.operandCount]
  · have unrequested : AtomicRequest.of? kind op operands = none := if_neg typed
    rw [unrequested]
    exact iff_of_false (fun takes => typed takes.2.2) Bool.false_ne_true

/-- Whether a column is a fault: it lies outside an image that has columns. -/
def Image.ColumnFaults (i : Image) (policy : OobPolicy) (x : Int) : Prop :=
  policy = .fault ∧ 0 < i.width.toNat ∧ ¬ (0 ≤ x ∧ x < i.width.toNat)

namespace Resolution

variable {policy : OobPolicy} {i : Image} {binding : Binding} {x y : Int}

/-- In an image without texels, coordinates whose column is no fault are dropped. -/
theorem texel_of_spared (empty : i.width = 0 ∨ i.height = 0) (spared : ¬ i.ColumnFaults policy x) :
    (ofTexel policy i binding x y).answer = .ok none := by
  obtain ⟨place?, column⟩ := @answer_of_spared policy ("x coordinate of " ++ i.label binding) _ _ spared
  simp only [ofTexel]
  cases place? with
  | none => rw [column]; exact column
  | some c =>
    rw [column]
    rcases empty with no_columns | no_rows
    · have none := @answer_of_empty policy ("x coordinate of " ++ i.label binding) x i.width.toNat
        (by rw [no_columns]; rfl)
      rw [none] at column
      cases column
    · have none := @answer_of_empty policy ("y coordinate of " ++ i.label binding) y i.height.toNat
        (by rw [no_rows]; rfl)
      simp only [none]
      rfl

/-- A column that is a fault decides, whatever the row. -/
theorem texel_of_columnFaults (faults : i.ColumnFaults policy x) :
    ofTexel policy i binding x y =
      ⟨.error (.outOfBounds ("x coordinate of " ++ i.label binding) x i.width.toNat), []⟩ := by
  obtain ⟨rfl, columns, outside⟩ := faults
  simp only [ofTexel, ofIndex_fault columns outside]

end Resolution

namespace Store

/-! ## Ways to end -/

/-- Whether a result is a success with an answer that changed no more than the diagnostics. -/
def Discards {α : Type} (s : Store) (result : EStateM.Result EngineError Store α) (a : α) : Prop :=
  ∃ diagnostics, result = .ok a { s with diagnostics }

/-- Whether a result is a type error that changed nothing. -/
def Mismatches {α : Type} (s : Store) (result : EStateM.Result EngineError Store α) : Prop :=
  ∃ site e, result = .error (.typeMismatch site e) s

/-- Whether a result is that of an access to a column that is dropped, unless the column is a fault. -/
def DiscardsAt {α : Type} (s : Store) (binding : Binding) (i : Image) (x : Int)
    (result : EStateM.Result EngineError Store α) (a : α) : Prop :=
  (¬ i.ColumnFaults s.oobPolicy x → s.Discards result a) ∧
    (i.ColumnFaults s.oobPolicy x →
      result = .error (.outOfBounds ("x coordinate of " ++ i.label binding) x i.width.toNat) s)

variable {α : Type} {s : Store} {me : InvocationId} {x : StoreM (Option Nat)} {r : Resolution}
  {k : Option Nat → StoreM α} {a : α}

theorem performAll_notes_eq : ∃ diagnostics, s.performAll me r.notes = { s with diagnostics } := by
  obtain ⟨answer, messages⟩ := r
  simp only [Resolution.notes]
  induction messages generalizing s with
  | nil => exact ⟨s.diagnostics, rfl⟩
  | cons message rest ih => exact @ih (s.record .outOfBounds message me)

theorem discards_of_dropped (resolved : x s = (s.performAll me r.notes).outcome r.answer)
    (dropped : r.answer = .ok none) (drop : ∀ s, k none s = .ok a s) : s.Discards ((x >>= k) s) a := by
  obtain ⟨diagnostics, noted⟩ := @performAll_notes_eq s me r
  rw [dropped, noted] at resolved
  exact ⟨diagnostics, (bind_eq resolved).trans (drop _)⟩

/-! ## Buffers of length zero -/

section Buffers

variable {binding : Binding} {b : Buffer} {index : Int}

theorem discards_of_empty (empty : b.length = 0) (drop : ∀ s, k none s = .ok a s) :
    s.Discards ((resolve (b.label binding) index b.length me >>= k) s) a :=
  discards_of_dropped (resolve_eq ..) (Resolution.answer_of_empty empty) drop

theorem read_empty (found : s.buffers.get? binding = some b) (empty : b.length = 0) :
    s.Discards (read binding index me s) (Value.zero b.element) := by
  rw [read, bind_eq (bufferAt_eq found)]
  exact discards_of_empty empty fun _ => rfl

theorem write_empty (found : s.buffers.get? binding = some b) (empty : b.length = 0) (v : Value) :
    if v.ty = b.element then s.Discards (write binding index v me s) ()
    else s.Mismatches (write binding index v me s) := by
  rw [write, bind_eq (bufferAt_eq found)]
  split
  · next same =>
    rw [bind_eq ((checkElement_eq v).trans (by rw [if_pos same]; rfl))]
    exact discards_of_empty empty fun _ => rfl
  · next differ =>
    exact ⟨_, _, bind_eq_error ((checkElement_eq v).trans (by rw [if_neg differ]; rfl))⟩

theorem update_empty (found : s.buffers.get? binding = some b) (empty : b.length = 0)
    (change : Value → Except EngineError Value) :
    s.Discards (update binding index me change s) () := by
  rw [update, bind_eq (bufferAt_eq found)]
  exact discards_of_empty empty fun _ => rfl

/-! ### Atomics -/

/-- An operation that fails with nothing but type errors, and fails, is a type error. -/
theorem Stateless.mismatches {β : Type} {site : AccessSite} {P : TypeError → Prop} {Q : β → Prop}
    {x : StoreM β} {k : β → StoreM α} (stateless : Stateless site P Q x)
    (fails : ∃ e, ∀ s, x s = .error e s) : s.Mismatches ((x >>= k) s) := by
  obtain ⟨answer, -, same⟩ := stateless
  obtain ⟨e, failed⟩ := fails
  cases answer with
  | error e => exact ⟨site, e, bind_eq_error (same s)⟩
  | ok a =>
    have both := (same s).symm.trans (failed s)
    cases both

theorem atomicKind_eq_error {site : AccessSite} {element : ValueType}
    (not_integer : ¬ (element = .scalar .int ∨ element = .scalar .uint)) :
    ∃ e, ∀ s, atomicKind site element s = .error e s := by
  unfold atomicKind
  split
  · exact (not_integer (.inl rfl)).elim
  · exact (not_integer (.inr rfl)).elim
  · exact ⟨_, fun _ => rfl⟩

theorem atomic_empty (found : s.buffers.get? binding = some b) (empty : b.length = 0) (op : AtomicOp)
    (operands : List Value) :
    if b.element.TakesAtomic op operands then
      s.Discards (atomic op binding index operands me s) (Value.zero b.element)
    else s.Mismatches (atomic op binding index operands me s) := by
  simp only [atomic]
  rw [bind_eq (bufferAt_eq found)]
  by_cases integer : b.element = .scalar .int ∨ b.element = .scalar .uint
  · obtain ⟨kind, scalar, integer⟩ : ∃ kind, b.element = .scalar kind ∧ (kind = .int ∨ kind = .uint) :=
      integer.elim (fun int => ⟨_, int, .inl rfl⟩) fun uint => ⟨_, uint, .inr rfl⟩
    have kinds : atomicKind (.atomic (b.label binding)) b.element s = .ok kind s := by
      rw [scalar]
      rcases integer with rfl | rfl <;> rfl
    have takes := @takesAtomic_iff kind op operands integer
    rw [← scalar] at takes
    rw [bind_eq kinds]
    by_cases typed : ∀ v ∈ operands, v.ty = .scalar kind
    · rw [bind_eq (atomicOperands_eq typed s)]
      have split := @atomicArguments_eq (.atomic (b.label binding)) kind operands op typed
      cases requested : AtomicRequest.of? kind op operands with
      | none =>
        rw [requested] at split takes
        rw [if_neg (takes.not.2 Bool.false_ne_true)]
        exact (stateless_atomicArguments _ b.element op _).mismatches split
      | some r =>
        rw [requested] at split takes
        rw [if_pos (takes.2 rfl), bind_eq (split.2 s)]
        exact discards_of_empty empty fun _ => rfl
    · have unrequested : AtomicRequest.of? kind op operands = none := if_neg typed
      rw [unrequested] at takes
      rw [if_neg (takes.not.2 Bool.false_ne_true)]
      exact (stateless_atomicOperands _ b.element op kind operands).mismatches
        (atomicOperands_eq_error typed)
  · rw [if_neg fun takes => integer takes.1]
    exact (stateless_atomicKind _ b.element op operands.length).mismatches
      (atomicKind_eq_error integer)

end Buffers

/-! ## Images without texels -/

section Images

variable {binding : Binding} {i : Image} {x y : Int}

theorem discards_at_of_empty (empty : i.width = 0 ∨ i.height = 0) (drop : ∀ s, k none s = .ok a s) :
    s.DiscardsAt binding i x ((texelPosition i binding x y me >>= k) s) a :=
  ⟨fun spared => discards_of_dropped (texelPosition_eq ..) (Resolution.texel_of_spared empty spared) drop,
    fun faults => bind_eq_error <| by
      rw [texelPosition_eq, Resolution.texel_of_columnFaults faults]
      rfl⟩

theorem imageLoad_empty (found : s.images.get? binding = some i) (empty : i.width = 0 ∨ i.height = 0) :
    s.DiscardsAt binding i x (imageLoad binding x y me s) (Value.zero i.format.loadType) := by
  rw [imageLoad, bind_eq (imageAt_eq found)]
  exact discards_at_of_empty empty fun _ => rfl

theorem imageStore_empty (found : s.images.get? binding = some i) (empty : i.width = 0 ∨ i.height = 0)
    (v : Value) :
    if v.ty = i.format.loadType then s.DiscardsAt binding i x (imageStore binding x y v me s) ()
    else s.Mismatches (imageStore binding x y v me s) := by
  rw [imageStore, bind_eq (imageAt_eq found), TexelFormat.encode]
  split
  · exact discards_at_of_empty empty fun _ => rfl
  · exact ⟨_, _, rfl⟩

theorem imageAtomicAdd_empty (found : s.images.get? binding = some i)
    (empty : i.width = 0 ∨ i.height = 0) (v : Value) :
    if i.format.supportsAtomics ∧ v.ty = .scalar i.format.kind then
      s.DiscardsAt binding i x (imageAtomicAdd binding x y v me s) (Value.zero (.scalar i.format.kind))
    else s.Mismatches (imageAtomicAdd binding x y v me s) := by
  rw [imageAtomicAdd, bind_eq (imageAt_eq found)]
  dsimp only
  cases supported : i.format.supportsAtomics with
  | false =>
    rw [if_neg (by simp)]
    exact ⟨_, _, rfl⟩
  | true =>
    by_cases same : v.ty = .scalar i.format.kind
    · rw [if_pos ⟨rfl, same⟩, if_neg (by simp), if_neg (not_not_intro same)]
      exact discards_at_of_empty empty fun _ => rfl
    · rw [if_neg fun both => same both.2, if_neg (by simp), if_pos same]
      exact ⟨_, _, rfl⟩

end Images

/-! ## All accesses -/

/-- Accesses to a buffer of length zero are dropped, whatever the index and the policy: they change no more
than the diagnostics, and those with a result give back zero. Accesses to an image without columns or rows
are dropped as well, unless the policy is `fault` and there are columns, but not the one asked for. An
access with operands of other types is a type error here as anywhere. -/
theorem empty_resources_discard (s : Store) (binding : Binding) (me : InvocationId) :
    (∀ b, s.buffers.get? binding = some b → b.length = 0 → ∀ index : Int,
      s.Discards (read binding index me s) (Value.zero b.element) ∧
      (∀ v : Value,
        if v.ty = b.element then s.Discards (write binding index v me s) ()
        else s.Mismatches (write binding index v me s)) ∧
      (∀ change, s.Discards (update binding index me change s) ()) ∧
      (∀ op operands,
        if b.element.TakesAtomic op operands then
          s.Discards (atomic op binding index operands me s) (Value.zero b.element)
        else s.Mismatches (atomic op binding index operands me s))) ∧
    (∀ i, s.images.get? binding = some i → i.width = 0 ∨ i.height = 0 → ∀ x y : Int,
      s.DiscardsAt binding i x (imageLoad binding x y me s) (Value.zero i.format.loadType) ∧
      (∀ v : Value,
        if v.ty = i.format.loadType then s.DiscardsAt binding i x (imageStore binding x y v me s) ()
        else s.Mismatches (imageStore binding x y v me s)) ∧
      (∀ v : Value,
        if i.format.supportsAtomics ∧ v.ty = .scalar i.format.kind then
          s.DiscardsAt binding i x (imageAtomicAdd binding x y v me s)
            (Value.zero (.scalar i.format.kind))
        else s.Mismatches (imageAtomicAdd binding x y v me s))) := by
  constructor
  · intro b found empty index
    exact ⟨read_empty found empty, write_empty found empty, update_empty found empty,
      atomic_empty found empty⟩
  · intro i found empty x y
    exact ⟨imageLoad_empty found empty, imageStore_empty found empty, imageAtomicAdd_empty found empty⟩

/-- A row of four columns that lacks its row, under the strictest policy, and a buffer of no elements. -/
def hollow : Store where
  shader := "hollow"
  oobPolicy := .fault
  buffers := .ofList [(0, .zeros "none" (.scalar .uint) 0)]
  images := .ofList [(0, .zeros "flat" .r32ui 4 0)]
  textures := .ofList []
  uniforms := []

/-- An atomic on no element and a load in a column that is there are dropped. -/
theorem empty_resources_discard_hollow :
    let none := Buffer.zeros "none" (.scalar .uint) 0
    let flat := Image.zeros "flat" .r32ui 4 0
    hollow.buffers.get? 0 = some none ∧ hollow.images.get? 0 = some flat ∧
      hollow.Discards (atomic .add 0 (-7) [.uint 1] 3 hollow) (.zero (.scalar .uint)) ∧
      ¬ flat.ColumnFaults .fault 3 ∧
      hollow.Discards (imageLoad 0 3 9 3 hollow) (.zero (.vector .uint .four)) := by
  intro none flat
  have element : hollow.buffers.get? 0 = some none := by decide +kernel
  have texels : hollow.images.get? 0 = some flat := by decide +kernel
  obtain ⟨buffers, images⟩ := empty_resources_discard hollow 0 3
  have atomics := (buffers none element (by decide) (-7)).2.2.2 .add [.uint 1]
  have loads := (images flat texels (.inr (by decide)) 3 9).1
  have spared : ¬ flat.ColumnFaults .fault 3 := fun faults => faults.2.2 (by decide)
  rw [if_pos (by decide)] at atomics
  exact ⟨element, texels, atomics, spared, loads.1 spared⟩

/-- A load in a column that is not there is a fault, though the image has no texels. -/
theorem empty_image_faults :
    let flat := Image.zeros "flat" .r32ui 4 0
    hollow.images.get? 0 = some flat ∧ flat.height = 0 ∧
      imageLoad 0 9 0 3 hollow =
        .error (.outOfBounds "x coordinate of image `flat` (binding 0)" 9 4) hollow := by
  have texels : hollow.images.get? 0 = some (.zeros "flat" .r32ui 4 0) := by decide +kernel
  refine ⟨texels, rfl, ?_⟩
  have faults : (Image.zeros "flat" .r32ui 4 0).ColumnFaults hollow.oobPolicy 9 :=
    ⟨rfl, by decide, by decide⟩
  exact (imageLoad_empty texels (.inr rfl)).2 faults

end Store

end ComputeShader
