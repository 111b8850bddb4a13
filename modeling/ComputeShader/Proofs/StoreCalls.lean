import ComputeShader.Proofs.Effects

/-! # The operations of a store as effects

Every operation first brings its index into range and then touches at most one place. The first part
depends on the frame of the store alone and is made explicit here as a `Resolution`; with it each
operation is an equation between the store it finds and the effects it performs.
-/

namespace ComputeShader

/-- Channels enough fill a texel. -/
theorem TexelFormat.length_encodeBits (f : TexelFormat) {bits : List UInt32}
    (enough : f.channels ≤ bits.length) : (f.encodeBits bits).length = f.texelSize := by
  have taken : (bits.take f.channels).length = f.channels := List.length_take_of_le enough
  cases f with
  | rgba8 | rgba8Snorm =>
    refine Eq.trans ?_ taken
    rw [encodeBits, ← List.map_eq_flatMap, List.length_map]
  | rgba32f | r32f | r32i | r32ui | rgba32i | rgba32ui =>
    exact (LittleEndian.length_flatMap_bytes _).trans (congrArg (4 * ·) taken)

theorem TexelFormat.channels_le_four (f : TexelFormat) : f.channels ≤ 4 := by
  cases f <;> decide

theorem TexelFormat.length_encode (f : TexelFormat) {v : Value} {bytes : List UInt8}
    (encoded : f.encode v = .ok bytes) : bytes.length = f.texelSize := by
  rw [encode] at encoded
  split at encoded
  · next same =>
    obtain rfl := Except.ok.inj encoded
    have four : v.bits.length = 4 := by rw [v.length_bits, same]; rfl
    exact f.length_encodeBits (four ▸ f.channels_le_four)
  · cases encoded

/-- What becomes of an index: the place it stands for, none if the access is dropped, or a fault; and
what is said about it. -/
structure Resolution where
  answer : Except EngineError (Option Nat)
  messages : List String

namespace Resolution

/-- What is said about an index, as effects. -/
def notes (r : Resolution) : List Effect := r.messages.map fun message => .note .outOfBounds message

/-- The place that an index stands for, if the access is neither dropped nor a fault. -/
def index? (r : Resolution) : Option Nat :=
  match r.answer with
  | .ok i => i
  | .error _ => none

/-- Bring an index into `0 .. extent`. -/
def ofIndex (policy : OobPolicy) (label : String) (index : Int) (extent : Nat) : Resolution :=
  if 0 ≤ index ∧ index < extent then ⟨.ok (some index.toNat), []⟩
  else if extent = 0 then ⟨.ok none, ["access to empty " ++ label ++ " discarded"]⟩
  else
    let intro := "index " ++ toString index ++ " out of bounds for " ++ label ++ " (extent " ++
      toString extent ++ "), "
    match policy with
    | .clampAndReport =>
      let nearest := if index < 0 then 0 else extent - 1
      ⟨.ok (some nearest), [intro ++ "clamped to " ++ toString nearest]⟩
    | .discardAndReport => ⟨.ok none, [intro ++ "discarded"]⟩
    | .fault => ⟨.error (.outOfBounds label index extent), []⟩

/-- Bring the coordinates of a texel into range, `x` first. -/
def ofTexel (policy : OobPolicy) (i : Image) (binding : Binding) (x y : Int) : Resolution :=
  let column := ofIndex policy ("x coordinate of " ++ i.label binding) x i.width.toNat
  match column.answer with
  | .ok (some x) =>
    let row := ofIndex policy ("y coordinate of " ++ i.label binding) y i.height.toNat
    ⟨row.answer.map (Option.map (i.position x)), column.messages ++ row.messages⟩
  | _ => column

theorem index?_eq_some {r : Resolution} {i : Nat} :
    r.index? = some i ↔ r.answer = .ok (some i) := by
  unfold index?
  split <;> simp [*]

theorem index?_map {answer : Except EngineError (Option Nat)} {messages messages' : List String}
    {f : Nat → Nat} {i : Nat} (found : index? ⟨answer.map (Option.map f), messages⟩ = some i) :
    ∃ j, index? ⟨answer, messages'⟩ = some j ∧ f j = i := by
  match answer, found with
  | .ok (some j), found => exact ⟨j, rfl, Option.some.inj found⟩

theorem index_lt {policy : OobPolicy} {label : String} {index : Int} {extent i : Nat}
    (found : (ofIndex policy label index extent).index? = some i) : i < extent := by
  unfold ofIndex index? at found
  grind

theorem texel_lt {policy : OobPolicy} {image : Image} {binding : Binding} {x y : Int} {t : Nat}
    (found : (ofTexel policy image binding x y).index? = some t) :
    t < image.width.toNat * image.height.toNat := by
  simp only [ofTexel] at found
  split at found
  · next column inside =>
    have left := index_lt (index?_eq_some.2 inside)
    obtain ⟨row, below, rfl⟩ := index?_map found
    have above := index_lt below
    calc row * image.width.toNat + column < row * image.width.toNat + image.width.toNat := by omega
      _ = (row + 1) * image.width.toNat := by rw [Nat.succ_mul]
      _ ≤ image.height.toNat * image.width.toNat := Nat.mul_le_mul_right _ above
      _ = image.width.toNat * image.height.toNat := Nat.mul_comm ..
  · next missing => exact (missing t (index?_eq_some.1 found)).elim

end Resolution

namespace Store

/-- The store that an operation leaves, whether or not it fails. -/
def left {α : Type} : EStateM.Result EngineError Store α → Store
  | .ok _ s | .error _ s => s

/-- The end of an operation. -/
def outcome {α : Type} (s : Store) : Except EngineError α → EStateM.Result EngineError Store α
  | .ok a => .ok a s
  | .error e => .error e s

/-- Perform effects of one invocation. -/
def performAll (s : Store) (me : InvocationId) (effects : List Effect) : Store :=
  s.replay (effects.map (me, ·))

/-- Touch the place that an index stands for, or do without. -/
def touching {α : Type} (s : Store) (me : InvocationId) (r : Resolution) (dropped : α)
    (access : Nat → Except EngineError (Effect × α)) : EStateM.Result EngineError Store α :=
  match r.answer with
  | .error e => .error e (s.performAll me r.notes)
  | .ok none => .ok dropped (s.performAll me r.notes)
  | .ok (some i) =>
    match access i with
    | .error e => .error e (s.performAll me r.notes)
    | .ok (e, a) => .ok a (s.performAll me (r.notes ++ [e]))

variable {s : Store} {me : InvocationId}

theorem performAll_append {effects effects' : List Effect} :
    s.performAll me (effects ++ effects') = (s.performAll me effects).performAll me effects' := by
  rw [performAll, List.map_append, replay_append]
  rfl

theorem performAll_concat {effects : List Effect} {e : Effect} :
    s.performAll me (effects ++ [e]) = (s.performAll me effects).perform me e :=
  performAll_append

theorem touching_eq {α : Type} {r : Resolution} {dropped : α}
    {access : Nat → Except EngineError (Effect × α)} {i : Nat} {e : Effect} {a : α}
    (inside : r.index? = some i) (accessed : access i = .ok (e, a)) :
    s.touching me r dropped access = .ok a (s.performAll me (r.notes ++ [e])) := by
  simp only [touching, Resolution.index?_eq_some.1 inside, accessed]

/-! ## What notes leave alone -/

theorem performAll_notes {r : Resolution} :
    (s.performAll me r.notes).buffers = s.buffers ∧ (s.performAll me r.notes).images = s.images ∧
      (s.performAll me r.notes).oobPolicy = s.oobPolicy := by
  obtain ⟨answer, messages⟩ := r
  simp only [Resolution.notes]
  induction messages generalizing s with
  | nil => exact ⟨rfl, rfl, rfl⟩
  | cons message rest ih => exact ih

theorem cell_performAll_notes {r : Resolution} : (s.performAll me r.notes).cell = s.cell := by
  obtain ⟨buffers, images, _⟩ := @performAll_notes s me r
  funext ⟨resource, i⟩
  cases resource <;> simp [cell, buffers, images]

theorem get_bind {α : Type} {k : Store → StoreM α} : (get >>= k) s = k s s := rfl

/-! ## Indices -/

theorem resolve_eq (label : String) (index : Int) (extent : Nat) :
    resolve label index extent me s =
      let r := Resolution.ofIndex s.oobPolicy label index extent
      (s.performAll me r.notes).outcome r.answer := by
  simp only [resolve, Resolution.ofIndex]
  split
  · rfl
  split
  · rfl
  rw [get_bind]
  cases s.oobPolicy <;> rfl

theorem texelPosition_eq (i : Image) (binding : Binding) (x y : Int) :
    texelPosition i binding x y me s =
      let r := Resolution.ofTexel s.oobPolicy i binding x y
      (s.performAll me r.notes).outcome r.answer := by
  simp only [texelPosition, Resolution.ofTexel, bind, EStateM.bind, resolve_eq]
  generalize Resolution.ofIndex s.oobPolicy _ x _ = column
  obtain ⟨answer, messages⟩ := column
  match answer with
  | .error e => rfl
  | .ok none => rfl
  | .ok (some x) =>
    simp only [outcome, EStateM.bind, resolve_eq, performAll_notes.2.2]
    generalize Resolution.ofIndex s.oobPolicy _ y _ = row
    obtain ⟨answer, below⟩ := row
    have notes : (s.performAll me (Resolution.notes ⟨.ok (some x), messages⟩)).performAll me
        (Resolution.notes ⟨answer, below⟩) =
          s.performAll me (Resolution.notes ⟨answer, messages ++ below⟩) := by
      rw [← performAll_append]
      simp [Resolution.notes]
    match answer with
    | .error e => exact congrArg _ notes
    | .ok none => exact congrArg _ notes
    | .ok (some y) => exact congrArg _ notes

/-! ## Touching a place -/

theorem bind_eq {α β : Type} {x : StoreM α} {k : α → StoreM β} {a : α} {s' : Store}
    (done : x s = .ok a s') : (x >>= k) s = k a s' := by
  simp only [bind, EStateM.bind, done]

theorem bind_eq_error {α β : Type} {x : StoreM α} {k : α → StoreM β} {e : EngineError} {s' : Store}
    (failed : x s = .error e s') : (x >>= k) s = .error e s' := by
  simp only [bind, EStateM.bind, failed]

/-- An operation that resolves an index and touches the place it stands for. -/
theorem resolved_eq {α : Type} {x : StoreM (Option Nat)} {r : Resolution}
    {k : Option Nat → StoreM α} {dropped : α} {access : Nat → Except EngineError (Effect × α)}
    (resolved : x s = (s.performAll me r.notes).outcome r.answer)
    (drop : ∀ s, k none s = .ok dropped s)
    (hit : ∀ i, r.index? = some i → k (some i) (s.performAll me r.notes) =
      match access i with
      | .error e => .error e (s.performAll me r.notes)
      | .ok (e, a) => .ok a ((s.performAll me r.notes).perform me e)) :
    (x >>= k) s = s.touching me r dropped access := by
  rw [touching]
  split
  · next answer => exact bind_eq_error (resolved.trans (by rw [answer]; rfl))
  · next answer =>
    exact (bind_eq (resolved.trans (by rw [answer]; rfl))).trans (drop _)
  · next i answer =>
    rw [bind_eq (resolved.trans (by rw [answer]; rfl)), hit i (Resolution.index?_eq_some.2 answer)]
    split
    · rfl
    · rw [performAll_concat]

theorem observe_eq {resource : Resource} {i : Nat} {t : Touch} {current : List UInt32}
    (found : current = s.cell ⟨resource, i⟩) :
    observe resource i current t me s = .ok () (s.touch ⟨resource, i⟩ t me) := by
  subst found
  rfl

/-! ## Buffers -/

section Buffers

variable {binding : Binding} {b : Buffer} {i : Nat}

/-- The fault of using a buffer that is not declared. -/
def undeclaredBuffer (binding : Binding) : EngineError :=
  .typeMismatch (.undeclared "buffer" binding.toNat) ⟨"a declared buffer", "nothing"⟩

theorem bufferAt_eq (found : s.buffers.get? binding = some b) : bufferAt binding s = .ok b s := by
  rw [bufferAt, get_bind, found]
  rfl

theorem bufferAt_eq_error (missing : s.buffers.get? binding = none) :
    bufferAt binding s = .error (undeclaredBuffer binding) s := by
  rw [bufferAt, get_bind, missing]
  rfl

theorem cell_buffer (found : s.buffers.get? binding = some b) (me : InvocationId) (r : Resolution)
    (i : Nat) :
    b.bits i = (s.performAll me r.notes).cell ⟨.buffer binding, i⟩ := by
  rw [cell_performAll_notes, cell, found]
  rfl

/-- A whole value of the element type replaces all that an element holds. -/
theorem apply_whole (proper : s.WellFormed) (found : s.buffers.get? binding = some b) {v : Value}
    (same : v.ty = b.element) (inside : i < b.length) :
    (Patch.whole v.bits).apply (s.cell ⟨.buffer binding, i⟩) = v.bits :=
  Patch.apply_whole (proper.length_bits_eq found same inside)

/-- Storing a whole value of the element type. -/
theorem store_eq (proper : s.WellFormed) (found : s.buffers.get? binding = some b) {v : Value}
    (same : v.ty = b.element) (inside : i < b.length) (r : Resolution) :
    (do observe (.buffer binding) i (b.bits i) (.write v.bits) me; setBuffer binding i v.bits)
        (s.performAll me r.notes) =
      .ok () ((s.performAll me r.notes).perform me (.store ⟨.buffer binding, i⟩ (.whole v.bits))) := by
  rw [bind_eq (observe_eq (cell_buffer found me r i)), perform, cell_performAll_notes,
    apply_whole proper found same inside]
  rfl

theorem read_eq (found : s.buffers.get? binding = some b) (me : InvocationId) (index : Int) :
    read binding index me s =
    s.touching me (.ofIndex s.oobPolicy (b.label binding) index b.length) (Value.zero b.element)
      fun i => .ok (.load ⟨.buffer binding, i⟩, b.value i) := by
  rw [read, bind_eq (bufferAt_eq found)]
  refine resolved_eq (resolve_eq ..) (fun _ => rfl) fun i _ => ?_
  exact bind_eq (observe_eq (cell_buffer found me _ i))

theorem checkElement_eq (v : Value) : checkElement b binding v s =
    s.outcome (if v.ty = b.element then .ok ()
      else .error (.typeMismatch (.store (b.label binding)) ⟨b.element.name, v.ty.name⟩)) := by
  rw [checkElement]
  split <;> rfl

theorem write_eq (proper : s.WellFormed) (found : s.buffers.get? binding = some b)
    (me : InvocationId) (index : Int) (v : Value) :
    write binding index v me s =
      if v.ty = b.element then
        s.touching me (.ofIndex s.oobPolicy (b.label binding) index b.length) ()
          fun i => .ok (.store ⟨.buffer binding, i⟩ (.whole v.bits), ())
      else .error (.typeMismatch (.store (b.label binding)) ⟨b.element.name, v.ty.name⟩) s := by
  rw [write, bind_eq (bufferAt_eq found)]
  split
  · next same =>
    rw [bind_eq ((checkElement_eq v).trans (by rw [if_pos same]; rfl))]
    refine resolved_eq (resolve_eq ..) (fun _ => rfl) fun i inside => ?_
    exact store_eq proper found same (Resolution.index_lt inside) _
  · next differ =>
    exact bind_eq_error ((checkElement_eq v).trans (by rw [if_neg differ]; rfl))

/-- What a store to a part of an element comes to: the new value is stored whole. -/
def updated (b : Buffer) (binding : Binding) (change : Value → Except EngineError Value) (i : Nat) :
    Except EngineError (Effect × Unit) :=
  match change (b.value i) with
  | .error e => .error e
  | .ok v =>
    if v.ty = b.element then .ok (.store ⟨.buffer binding, i⟩ (.whole v.bits), ())
    else .error (.typeMismatch (.store (b.label binding)) ⟨b.element.name, v.ty.name⟩)

theorem update_eq (proper : s.WellFormed) (found : s.buffers.get? binding = some b)
    (me : InvocationId) (index : Int) (change : Value → Except EngineError Value) :
    update binding index me change s =
      s.touching me (.ofIndex s.oobPolicy (b.label binding) index b.length) ()
        (updated b binding change) := by
  rw [update, bind_eq (bufferAt_eq found)]
  refine resolved_eq (resolve_eq ..) (fun _ => rfl) fun i inside => ?_
  rw [updated]
  dsimp only
  cases change (b.value i) with
  | error e => rfl
  | ok v =>
    by_cases same : v.ty = b.element
    · simp only [if_pos same]
      exact (bind_eq ((checkElement_eq v).trans (by rw [if_pos same]; rfl))).trans
        (store_eq proper found same (Resolution.index_lt inside) _)
    · simp only [if_neg same]
      exact bind_eq_error ((checkElement_eq v).trans (by rw [if_neg same]; rfl))

/-! ### Atomics -/

/-- An operation that only computes, or fails with a type error at a site. -/
def Stateless {α : Type} (site : AccessSite) (P : TypeError → Prop) (Q : α → Prop) (x : StoreM α) :
    Prop :=
  ∃ answer : Except TypeError α,
    (match answer with
      | .ok a => Q a
      | .error e => P e) ∧
    ∀ s, x s = s.outcome (answer.mapError (.typeMismatch site))

section Stateless

variable {α β : Type} {site : AccessSite} {P : TypeError → Prop} {Q : α → Prop} {R : β → Prop}

theorem stateless_pure {a : α} (holds : Q a) : Stateless site P Q (pure a) :=
  ⟨.ok a, holds, fun _ => rfl⟩

theorem stateless_throw {e : TypeError} (holds : P e) :
    Stateless site P Q (throw (.typeMismatch site e)) :=
  ⟨.error e, holds, fun _ => rfl⟩

theorem Stateless.bind {x : StoreM α} {k : α → StoreM β} (first : Stateless site P Q x)
    (next : ∀ a, Q a → Stateless site P R (k a)) : Stateless site P R (x >>= k) := by
  obtain ⟨answer, holds, same⟩ := first
  cases answer with
  | error e => exact ⟨.error e, holds, fun s => bind_eq_error (same s)⟩
  | ok a =>
    obtain ⟨answer, holds', same'⟩ := next a holds
    exact ⟨answer, holds', fun s => (bind_eq (same s)).trans (same' s)⟩

theorem stateless_mapM {f : α → StoreM β} (each : ∀ a, Stateless site P (fun _ => True) (f a))
    (as : List α) : Stateless site P (fun bs => bs.length = as.length) (as.mapM f) := by
  induction as with
  | nil => exact stateless_pure rfl
  | cons a rest ih =>
    rw [List.mapM_cons]
    exact (each a).bind fun b _ => ih.bind fun bs length => stateless_pure (congrArg (· + 1) length)

end Stateless

/-- Why an atomic fails: its element is not an integer, an operand has another type or there are too
few or too many of them. -/
inductive AtomicError (element : ValueType) (op : AtomicOp) (operands : Nat) : TypeError → Prop where
  | element (not_int : element ≠ .scalar .int) (not_uint : element ≠ .scalar .uint) :
      AtomicError element op operands ⟨"int or uint", element.name⟩
  | kind (kind : ScalarKind) (found : ValueType) :
      AtomicError element op operands ⟨kind.name, found.name⟩
  | count (differ : operands ≠ op.operandCount) :
      AtomicError element op operands
        ⟨if op = .compSwap then "2 operands" else "1 operand", toString operands⟩

theorem stateless_atomicKind (site : AccessSite) (element : ValueType) (op : AtomicOp)
    (operands : Nat) : Stateless site (AtomicError element op operands)
      (fun kind => element = .scalar kind ∧ (kind = .int ∨ kind = .uint)) (atomicKind site element) := by
  unfold atomicKind
  split
  · exact stateless_pure ⟨rfl, .inl rfl⟩
  · exact stateless_pure ⟨rfl, .inr rfl⟩
  · next not_int not_uint => exact stateless_throw (.element not_int not_uint)

theorem stateless_atomicOperands (site : AccessSite) (element : ValueType) (op : AtomicOp)
    (kind : ScalarKind) (operands : List Value) :
    Stateless site (AtomicError element op operands.length)
      (fun scalars => scalars.length = operands.length) (atomicOperands site kind operands) := by
  refine stateless_mapM (fun v => ?_) operands
  split
  · split
    · exact stateless_pure trivial
    · exact stateless_throw (.kind kind v.ty)
  · exact stateless_throw (.kind kind v.ty)

theorem stateless_atomicArguments (site : AccessSite) (element : ValueType) (op : AtomicOp)
    (operands : List Scalar) : Stateless site (AtomicError element op operands.length)
      (fun _ => True) (atomicArguments site op operands) := by
  unfold atomicArguments
  split
  · exact stateless_pure trivial
  · next not_two =>
    refine stateless_throw (.count fun same => ?_)
    match operands, same with
    | [compare, data], _ => exact not_two compare data rfl
  · exact stateless_pure trivial
  · next other_op not_one _ =>
    have single : op.operandCount = 1 := by
      cases op with
      | compSwap => exact (other_op rfl).elim
      | _ => rfl
    have message : AtomicError element op operands.length
        ⟨if op = .compSwap then "2 operands" else "1 operand", toString operands.length⟩ := by
      refine .count fun same => ?_
      obtain ⟨data, rfl⟩ := List.length_eq_one_iff.1 (same.trans single)
      exact not_one data rfl
    rw [if_neg other_op] at message
    exact stateless_throw message

/-- Changing the one word of an element and giving back the value it held. -/
theorem change_eq (proper : s.WellFormed) (found : s.buffers.get? binding = some b)
    {kind : ScalarKind} (scalar : b.element = .scalar kind) (me : InvocationId) (index : Int)
    (change : UInt32 → UInt32) :
    (do match ← resolve (b.label binding) index b.length me with
      | none => return Value.zero b.element
      | some i =>
        observe (.buffer binding) i (b.bits i) .atomic me
        setBuffer binding i [change ((b.bits i).headD 0)]
        return b.value i : StoreM Value) s =
      s.touching me (.ofIndex s.oobPolicy (b.label binding) index b.length) (Value.zero b.element)
        fun i => .ok (.atomic ⟨.buffer binding, i⟩ change, b.value i) := by
  refine resolved_eq (resolve_eq ..) (fun _ => rfl) fun i inside => ?_
  have current := cell_buffer found me
    (.ofIndex s.oobPolicy (b.label binding) index b.length) i
  have single : (b.bits i).length = 1 := by
    rw [(proper.buffers binding b found i (Resolution.index_lt inside)).1, scalar]
    rfl
  obtain ⟨old, word⟩ := List.length_eq_one_iff.1 single
  dsimp only
  rw [bind_eq (observe_eq current), perform, ← current, word]
  rfl

/-- On all stores with a buffer of one frame, an atomic fails before it does anything, or changes the one
word of an integer element. -/
theorem atomic_eq_of_frame (binding : Binding) (F : Buffer) (op : AtomicOp) (index : Int)
    (operands : List Value) (me : InvocationId) :
    (∃ e, AtomicError F.element op operands.length e ∧
      ∀ (s : Store) (b : Buffer), s.buffers.get? binding = some b → b.frame = F.frame →
        atomic op binding index operands me s =
          .error (.typeMismatch (.atomic (F.label binding)) e) s) ∨
      ∃ change : UInt32 → UInt32, (F.element = .scalar .int ∨ F.element = .scalar .uint) ∧
        ∀ (s : Store) (b : Buffer), s.WellFormed → s.buffers.get? binding = some b →
          b.frame = F.frame → atomic op binding index operands me s =
            s.touching me (.ofIndex s.oobPolicy (F.label binding) index F.length)
              (Value.zero F.element)
              fun i => .ok (.atomic ⟨.buffer binding, i⟩ change, b.value i) := by
  simp only [atomic]
  obtain ⟨kind, holds, typed⟩ :=
    stateless_atomicKind (.atomic (F.label binding)) F.element op operands.length
  cases kind with
  | error e =>
    refine .inl ⟨e, holds, fun s b found same => ?_⟩
    rw [bind_eq (bufferAt_eq found), Buffer.label_of_frame same, Buffer.element_of_frame same]
    exact bind_eq_error (typed s)
  | ok kind =>
    obtain ⟨scalar, integer⟩ := holds
    obtain ⟨scalars, holds, given⟩ :=
      stateless_atomicOperands (.atomic (F.label binding)) F.element op kind operands
    cases scalars with
    | error e =>
      refine .inl ⟨e, holds, fun s b found same => ?_⟩
      rw [bind_eq (bufferAt_eq found), Buffer.label_of_frame same, Buffer.element_of_frame same,
        bind_eq (typed s)]
      exact bind_eq_error (given s)
    | ok scalars =>
      obtain ⟨arguments, holds', split⟩ :=
        stateless_atomicArguments (.atomic (F.label binding)) F.element op scalars
      cases arguments with
      | error e =>
        refine .inl ⟨e, holds ▸ holds', fun s b found same => ?_⟩
        rw [bind_eq (bufferAt_eq found), Buffer.label_of_frame same, Buffer.element_of_frame same,
          bind_eq (typed s), bind_eq (given s)]
        exact bind_eq_error (split s)
      | ok arguments =>
        obtain ⟨compare?, data⟩ := arguments
        refine .inr ⟨fun old => atomicBits op (kind = .int) old compare? data, ?_,
          fun s b proper found same => ?_⟩
        · rcases integer with rfl | rfl
          · exact .inl scalar
          · exact .inr scalar
        · have changed := change_eq proper found ((Buffer.element_of_frame same).trans scalar) me index
            fun old => atomicBits op (kind = .int) old compare? data
          rw [bind_eq (bufferAt_eq found)]
          rw [Buffer.label_of_frame same, Buffer.element_of_frame same, Buffer.length_of_frame same]
            at changed ⊢
          rw [bind_eq (typed s), bind_eq (given s), bind_eq (split s)]
          exact changed

/-- On all stores with one buffer, an atomic fails before it does anything, or changes the one word of
an integer element. -/
theorem atomic_eq (binding : Binding) (b : Buffer) (op : AtomicOp) (index : Int)
    (operands : List Value) (me : InvocationId) :
    (∃ e, AtomicError b.element op operands.length e ∧
      ∀ s : Store, s.buffers.get? binding = some b → atomic op binding index operands me s =
        .error (.typeMismatch (.atomic (b.label binding)) e) s) ∨
      ∃ change : UInt32 → UInt32, (b.element = .scalar .int ∨ b.element = .scalar .uint) ∧
        ∀ s : Store, s.WellFormed → s.buffers.get? binding = some b →
          atomic op binding index operands me s =
            s.touching me (.ofIndex s.oobPolicy (b.label binding) index b.length)
              (Value.zero b.element)
              fun i => .ok (.atomic ⟨.buffer binding, i⟩ change, b.value i) := by
  rcases atomic_eq_of_frame binding b op index operands me with
    ⟨e, why, fails⟩ | ⟨change, integer, runs⟩
  · exact .inl ⟨e, why, fun s found => fails s b found rfl⟩
  · exact .inr ⟨change, integer, fun s proper found => runs s b proper found rfl⟩

end Buffers

/-! ## Images -/

section Images

variable {binding : Binding} {i : Image} {t : Nat}

/-- The fault of using an image that is not declared. -/
def undeclaredImage (binding : Binding) : EngineError :=
  .typeMismatch (.undeclared "image" binding.toNat) ⟨"a declared image", "nothing"⟩

theorem imageAt_eq (found : s.images.get? binding = some i) : imageAt binding s = .ok i s := by
  rw [imageAt, get_bind, found]
  rfl

theorem imageAt_eq_error (missing : s.images.get? binding = none) :
    imageAt binding s = .error (undeclaredImage binding) s := by
  rw [imageAt, get_bind, missing]
  rfl

theorem cell_image (found : s.images.get? binding = some i) (me : InvocationId) (r : Resolution)
    (t : Nat) :
    LittleEndian.words (i.bytes t) = (s.performAll me r.notes).cell ⟨.image binding, t⟩ := by
  rw [cell_performAll_notes, cell, found]
  rfl

theorem setImage_eq {bytes : List UInt8} (whole : bytes.length % 4 = 0) :
    setImage binding t bytes s =
      .ok () (s.setCell (LittleEndian.words bytes) ⟨.image binding, t⟩) := by
  simp only [setCell, LittleEndian.flatMap_bytes_words whole]
  rfl

theorem imageLoad_eq (found : s.images.get? binding = some i) (me : InvocationId) (x y : Int) :
    imageLoad binding x y me s =
    s.touching me (.ofTexel s.oobPolicy i binding x y) (Value.zero i.format.loadType)
      fun t => .ok (.load ⟨.image binding, t⟩, i.format.decode (i.bytes t)) := by
  rw [imageLoad, bind_eq (imageAt_eq found)]
  refine resolved_eq (texelPosition_eq ..) (fun _ => rfl) fun t _ => ?_
  exact bind_eq (observe_eq (cell_image found me _ t))

/-- The bytes of the format replace all that a texel holds. -/
theorem apply_whole_texel (proper : s.WellFormed) (found : s.images.get? binding = some i)
    {bytes : List UInt8} (size : bytes.length = i.format.texelSize)
    (inside : t < i.width.toNat * i.height.toNat) :
    (Patch.whole (LittleEndian.words bytes)).apply (s.cell ⟨.image binding, t⟩) =
      LittleEndian.words bytes :=
  Patch.apply_whole (proper.length_words_eq found size inside)

theorem imageStore_eq (proper : s.WellFormed) (found : s.images.get? binding = some i)
    (me : InvocationId) (x y : Int) (v : Value) :
    imageStore binding x y v me s =
      match i.format.encode v with
      | .error e => .error (.typeMismatch (.imageStore binding) e) s
      | .ok bytes => s.touching me (.ofTexel s.oobPolicy i binding x y) ()
          fun t => .ok (.store ⟨.image binding, t⟩ (.whole (LittleEndian.words bytes)), ()) := by
  rw [imageStore, bind_eq (imageAt_eq found)]
  cases encoded : i.format.encode v with
  | error e => rfl
  | ok bytes =>
    refine resolved_eq (texelPosition_eq ..) (fun _ => rfl) fun t inside => ?_
    have size : bytes.length = i.format.texelSize := i.format.length_encode encoded
    dsimp only
    rw [bind_eq (observe_eq (cell_image found me _ t)),
      setImage_eq (by rw [size, i.format.texelSize_mod_four]), perform, cell_performAll_notes,
      apply_whole_texel proper found size (Resolution.texel_lt inside)]

theorem imageAtomicAdd_eq (proper : s.WellFormed) (found : s.images.get? binding = some i)
    (me : InvocationId) (x y : Int) (v : Value) :
    imageAtomicAdd binding x y v me s =
      if !i.format.supportsAtomics then
        .error (.typeMismatch (.imageAtomic binding) ⟨"an r32i or r32ui image", i.format.name⟩) s
      else if v.ty ≠ .scalar i.format.kind then
        .error (.typeMismatch (.imageAtomic binding) ⟨i.format.kind.name, v.ty.name⟩) s
      else s.touching me (.ofTexel s.oobPolicy i binding x y) (Value.zero (.scalar i.format.kind))
        fun t => .ok (.atomic ⟨.image binding, t⟩ (· + (v.lane 0).toBits),
          Value.ofBits (.scalar i.format.kind) [(LittleEndian.words (i.bytes t)).headD 0]) := by
  rw [imageAtomicAdd, bind_eq (imageAt_eq found)]
  dsimp only
  split
  · rfl
  next supported =>
    split
    · rfl
    · refine resolved_eq (texelPosition_eq ..) (fun _ => rfl) fun t inside => ?_
      have current := cell_image found me (.ofTexel s.oobPolicy i binding x y) t
      have full : t < i.texels.size := by
        rw [(proper.images binding i found).1]
        exact Resolution.texel_lt inside
      have single : (LittleEndian.words (i.bytes t)).length = 1 := by
        rw [LittleEndian.length_words, (proper.images binding i found).2 t full]
        revert supported
        cases i.format <;> simp [TexelFormat.supportsAtomics, TexelFormat.texelSize,
          TexelFormat.isNormalized, TexelFormat.channels]
      obtain ⟨old, word⟩ := List.length_eq_one_iff.1 single
      dsimp only
      rw [bind_eq (observe_eq current), perform, ← current, word]
      rfl

end Images

end Store

end ComputeShader
