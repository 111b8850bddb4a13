import ComputeShader.Proofs.AtomicSequences
import ComputeShader.Proofs.Noninterference
import ComputeShader.Proofs.StoreOperations

/-! # Accesses through slices

Laid out flat, a buffer is one run of lanes and an image one run of bytes, and what an access touches is a
slice of it. Wherever an index is brought into range by a policy, the slice there lies inside the run. It
is all that a call has to do with the contents: its answer depends on no other, and it changes no other.
-/

namespace ComputeShader

/-- The items of a run from `i * size` to `(i + 1) * size`, if the run goes so far. -/
def slice? {α : Type} (run : List α) (size i : Nat) : Option (List α) :=
  if (i + 1) * size ≤ run.length then some ((run.drop (i * size)).take size) else none

section Pieces

variable {α : Type} {size : Nat}

theorem take_flatten {pieces : List (List α)} (each : ∀ piece ∈ pieces, piece.length = size) (i : Nat) :
    pieces.flatten.take (i * size) = (pieces.take i).flatten := by
  induction pieces generalizing i with
  | nil => simp
  | cons piece rest ih =>
    obtain ⟨rfl, later⟩ := List.forall_mem_cons.1 each
    cases i with
    | zero => simp
    | succ i =>
      rw [Nat.succ_mul, Nat.add_comm, List.flatten_cons, List.take_length_add_append, ih later,
        List.take_succ_cons, List.flatten_cons]

theorem drop_flatten {pieces : List (List α)} (each : ∀ piece ∈ pieces, piece.length = size) (i : Nat) :
    pieces.flatten.drop (i * size) = (pieces.drop i).flatten := by
  induction pieces generalizing i with
  | nil => simp
  | cons piece rest ih =>
    obtain ⟨rfl, later⟩ := List.forall_mem_cons.1 each
    cases i with
    | zero => simp
    | succ i =>
      rw [Nat.succ_mul, Nat.add_comm, List.flatten_cons, List.drop_length_add_append, ih later,
        List.drop_succ_cons]

/-- The slices of pieces of one size are the pieces. -/
theorem slice?_flatten_toList {pieces : Array (List α)} {i : Nat}
    (each : ∀ i, i < pieces.size → (pieces.getD i []).length = size) (inside : i < pieces.size) :
    slice? pieces.toList.flatten size i = some (pieces.getD i []) := by
  have sizes : ∀ piece ∈ pieces.toList, piece.length = size := fun _ => Snapshot.length_of_mem_toList each
  have enough : (i + 1) * size ≤ pieces.toList.flatten.length := by
    rw [Snapshot.length_flatten_toList each]
    exact Nat.mul_le_mul_right size inside
  have first : pieces.toList.drop i = pieces.getD i [] :: pieces.toList.drop (i + 1) := by
    rw [List.drop_eq_getElem_cons (i := i) inside, Array.getElem_toList, ← Array.getElem_eq_getD]
  rw [slice?, if_pos enough, drop_flatten sizes, first, List.flatten_cons, List.take_left' (each i inside)]

end Pieces

/-- The lanes of an element are its slice of the lanes. -/
theorem Buffer.Proper.slice?_lanes {b : Buffer} (proper : b.Proper) {i : Nat} (inside : i < b.length) :
    slice? (Store.freezeBuffer b).lanes b.element.components i = some (b.bits i) :=
  slice?_flatten_toList (fun j inside => (proper j inside).1) inside

/-- The bytes of a texel are its slice of the bytes. -/
theorem Image.Proper.slice?_texels {i : Image} (proper : i.Proper) {t : Nat} (inside : t < i.texels.size) :
    slice? (Store.freezeImage i).texels i.format.texelSize t = some (i.bytes t) :=
  slice?_flatten_toList proper.2 inside

namespace Store

variable {s t : Store} {place : Location} {binding : Binding} {me : InvocationId}

/-- The slice of a flat buffer or image at a place, as words. -/
def slice? (s : Store) : Location → Option (List UInt32)
  | ⟨.buffer binding, i⟩ => (s.buffers.get? binding).bind fun b =>
      ComputeShader.slice? (freezeBuffer b).lanes b.element.components i
  | ⟨.image binding, t⟩ => (s.images.get? binding).bind fun i =>
      (ComputeShader.slice? (freezeImage i).texels i.format.texelSize t).map LittleEndian.words

/-- Whether a place is an element of a buffer or a texel of an image. -/
def Has (s : Store) : Location → Prop
  | ⟨.buffer binding, i⟩ => ∃ b, s.buffers.get? binding = some b ∧ i < b.length
  | ⟨.image binding, t⟩ =>
    ∃ i, s.images.get? binding = some i ∧ t < i.width.toNat * i.height.toNat

/-- The slice at a place is in range, and it is what the place holds. -/
theorem slice?_of_has (proper : s.WellFormed) (has : s.Has place) :
    s.slice? place = some (s.cell place) := by
  obtain ⟨binding | binding, i⟩ := place
  · obtain ⟨b, found, inside⟩ := has
    rw [slice?, cell, found, Option.bind_some, (proper.buffers binding b found).slice?_lanes inside]
    rfl
  · obtain ⟨image, found, inside⟩ := has
    have proper := proper.images binding image found
    rw [slice?, cell, found, Option.bind_some, proper.slice?_texels (proper.1 ▸ inside)]
    rfl

/-- Whatever the index and the policy, an access goes to an element or a texel that is there. -/
theorem has_of_place? {call : StoreCall} (stands : call.place? s = some place) : s.Has place := by
  have element {binding : Binding} {index : Int} (stands : s.elementAt? binding index = some place) :
      s.Has place := by
    unfold elementAt? at stands
    obtain ⟨b, found, stands⟩ := Option.bind_eq_some_iff.1 stands
    obtain ⟨i, inside, stands⟩ := Option.bind_eq_some_iff.1 stands
    cases stands
    exact ⟨b, found, Resolution.index_lt inside⟩
  have texel {binding : Binding} {x y : Int} (stands : s.texelAt? binding x y = some place) :
      s.Has place := by
    unfold texelAt? at stands
    obtain ⟨i, found, stands⟩ := Option.bind_eq_some_iff.1 stands
    obtain ⟨t, inside, stands⟩ := Option.bind_eq_some_iff.1 stands
    cases stands
    exact ⟨i, found, Resolution.texel_lt inside⟩
  cases call with
  | read | write | update | atomic => exact element stands
  | imageLoad | imageStore | imageAtomicAdd => exact texel stands

/-! ## Answers -/

/-- What an operation answers, without the store that it leaves. -/
def answer {α : Type} : EStateM.Result EngineError Store α → Except EngineError α
  | .ok a _ => .ok a
  | .error e _ => .error e

theorem answer_touching {α : Type} (r : Resolution) (dropped : α)
    (access : Nat → Except EngineError (Effect × α)) :
    answer (s.touching me r dropped access) = found r dropped access := by
  rw [touching_outcome]
  cases found r dropped access <;> rfl

/-- Operations that touch alike what one index stands for answer alike. -/
theorem answer_eq_of_touching {α : Type} {x : StoreM α} {r : Resolution} {dropped : α}
    {access access' : Nat → Except EngineError (Effect × α)}
    (ran : x s = s.touching me r dropped access) (ran' : x t = t.touching me r dropped access')
    (same : ∀ i, r.index? = some i → (access' i).map Prod.snd = (access i).map Prod.snd) :
    answer (x t) = answer (x s) := by
  rw [ran, ran', answer_touching, answer_touching, found, found]
  split
  · rfl
  · rfl
  · next i answered => exact same i (Resolution.index?_eq_some.2 answered)

section Buffers

variable {b : Buffer}

/-- An element that an index stands for has the same value in both stores. -/
theorem value_of_cell (found : s.buffers.get? binding = some b) {index : Int}
    (same : ∀ place, s.elementAt? binding index = some place → t.cell place = s.cell place)
    {b' : Buffer} (found' : t.buffers.get? binding = some b') (alike : b'.frame = b.frame) (i : Nat)
    (inside : (Resolution.ofIndex s.oobPolicy (b.label binding) index b.length).index? = some i) :
    b'.value i = b.value i := by
  have stands : s.elementAt? binding index = some ⟨.buffer binding, i⟩ := by
    rw [elementAt?_eq found, inside]
    rfl
  have bits := same _ stands
  rw [cell, cell, found, found', Option.map_some, Option.map_some, Option.getD_some, Option.getD_some]
    at bits
  rw [Buffer.value, Buffer.value, Buffer.element_of_frame alike, bits]

theorem answer_read (frame : t.frame = s.frame) (found : s.buffers.get? binding = some b) {index : Int}
    (same : ∀ place, s.elementAt? binding index = some place → t.cell place = s.cell place) :
    answer (read binding index me t) = answer (read binding index me s) := by
  obtain ⟨b', found', alike⟩ := buffer_of_frame frame found
  have ran := read_eq found' me index
  rw [oobPolicy_of_frame frame, Buffer.label_of_frame alike, Buffer.length_of_frame alike,
    Buffer.element_of_frame alike] at ran
  exact answer_eq_of_touching (read_eq found me index) ran fun i inside =>
    congrArg Except.ok (value_of_cell found same found' alike i inside)

theorem answer_write (proper : s.WellFormed) (proper' : t.WellFormed) (frame : t.frame = s.frame)
    (found : s.buffers.get? binding = some b) (index : Int) (v : Value) :
    answer (write binding index v me t) = answer (write binding index v me s) := by
  obtain ⟨b', found', alike⟩ := buffer_of_frame frame found
  have ran := write_eq proper found me index v
  have ran' := write_eq proper' found' me index v
  rw [oobPolicy_of_frame frame, Buffer.label_of_frame alike, Buffer.length_of_frame alike,
    Buffer.element_of_frame alike] at ran'
  by_cases typed : v.ty = b.element
  · rw [if_pos typed] at ran ran'
    exact answer_eq_of_touching ran ran' fun _ _ => rfl
  · rw [ran, ran', if_neg typed, if_neg typed]
    rfl

theorem answer_update (proper : s.WellFormed) (proper' : t.WellFormed) (frame : t.frame = s.frame)
    (found : s.buffers.get? binding = some b) {index : Int}
    (same : ∀ place, s.elementAt? binding index = some place → t.cell place = s.cell place)
    (change : Value → Except EngineError Value) :
    answer (update binding index me change t) = answer (update binding index me change s) := by
  obtain ⟨b', found', alike⟩ := buffer_of_frame frame found
  have ran := update_eq proper' found' me index change
  rw [oobPolicy_of_frame frame, Buffer.label_of_frame alike, Buffer.length_of_frame alike] at ran
  refine answer_eq_of_touching (update_eq proper found me index change) ran fun i inside => ?_
  rw [updated, updated, value_of_cell found same found' alike i inside,
    Buffer.element_of_frame alike, Buffer.label_of_frame alike]

theorem answer_atomic (proper : s.WellFormed) (proper' : t.WellFormed) (frame : t.frame = s.frame)
    (found : s.buffers.get? binding = some b) {index : Int}
    (same : ∀ place, s.elementAt? binding index = some place → t.cell place = s.cell place)
    (op : AtomicOp) (operands : List Value) :
    answer (atomic op binding index operands me t) = answer (atomic op binding index operands me s) := by
  obtain ⟨b', found', alike⟩ := buffer_of_frame frame found
  rcases atomic_eq_of_frame binding b op index operands me with ⟨e, -, fails⟩ | ⟨change, -, runs⟩
  · rw [fails s b found rfl, fails t b' found' alike]
    rfl
  · have ran := runs t b' proper' found' alike
    rw [oobPolicy_of_frame frame] at ran
    exact answer_eq_of_touching (runs s b proper found rfl) ran fun i inside =>
      congrArg Except.ok (value_of_cell found same found' alike i inside)

end Buffers

section Images

variable {i : Image}

/-- A texel that coordinates stand for has the same bytes in both stores. -/
theorem bytes_of_cell (proper : s.WellFormed) (proper' : t.WellFormed)
    (found : s.images.get? binding = some i) {x y : Int}
    (same : ∀ place, s.texelAt? binding x y = some place → t.cell place = s.cell place)
    {i' : Image} (found' : t.images.get? binding = some i') (u : Nat)
    (inside : (Resolution.ofTexel s.oobPolicy i binding x y).index? = some u) :
    i'.bytes u = i.bytes u := by
  have stands : s.texelAt? binding x y = some ⟨.image binding, u⟩ := by
    rw [texelAt?_eq found, inside]
    rfl
  have words := same _ stands
  rw [cell, cell, found, found', Option.map_some, Option.map_some, Option.getD_some, Option.getD_some]
    at words
  rw [← (proper.images binding i found).flatMap_words u,
    ← (proper'.images binding i' found').flatMap_words u, words]

theorem answer_imageLoad (proper : s.WellFormed) (proper' : t.WellFormed) (frame : t.frame = s.frame)
    (found : s.images.get? binding = some i) {x y : Int}
    (same : ∀ place, s.texelAt? binding x y = some place → t.cell place = s.cell place) :
    answer (imageLoad binding x y me t) = answer (imageLoad binding x y me s) := by
  obtain ⟨i', found', alike⟩ := image_of_frame frame found
  have ran := imageLoad_eq found' me x y
  rw [oobPolicy_of_frame frame, ofTexel_of_frame alike, Image.format_of_frame alike] at ran
  refine answer_eq_of_touching (imageLoad_eq found me x y) ran fun u inside => ?_
  rw [bytes_of_cell proper proper' found same found' u inside]

theorem answer_imageStore (proper : s.WellFormed) (proper' : t.WellFormed) (frame : t.frame = s.frame)
    (found : s.images.get? binding = some i) (x y : Int) (v : Value) :
    answer (imageStore binding x y v me t) = answer (imageStore binding x y v me s) := by
  obtain ⟨i', found', alike⟩ := image_of_frame frame found
  have ran := imageStore_eq proper found me x y v
  have ran' := imageStore_eq proper' found' me x y v
  rw [oobPolicy_of_frame frame, ofTexel_of_frame alike, Image.format_of_frame alike] at ran'
  cases encoded : i.format.encode v with
  | error e =>
    rw [ran, ran', encoded]
    rfl
  | ok bytes =>
    rw [encoded] at ran ran'
    exact answer_eq_of_touching ran ran' fun _ _ => rfl

theorem answer_imageAtomicAdd (proper : s.WellFormed) (proper' : t.WellFormed)
    (frame : t.frame = s.frame) (found : s.images.get? binding = some i) {x y : Int}
    (same : ∀ place, s.texelAt? binding x y = some place → t.cell place = s.cell place) (v : Value) :
    answer (imageAtomicAdd binding x y v me t) = answer (imageAtomicAdd binding x y v me s) := by
  obtain ⟨i', found', alike⟩ := image_of_frame frame found
  have ran := imageAtomicAdd_eq proper found me x y v
  have ran' := imageAtomicAdd_eq proper' found' me x y v
  rw [oobPolicy_of_frame frame, ofTexel_of_frame alike, Image.format_of_frame alike] at ran'
  split at ran
  · next unsupported =>
    rw [if_pos unsupported] at ran'
    rw [ran, ran']
    rfl
  next supported =>
  rw [if_neg supported] at ran'
  split at ran
  · next untyped =>
    rw [if_pos untyped] at ran'
    rw [ran, ran']
    rfl
  next typed =>
  rw [if_neg typed] at ran'
  refine answer_eq_of_touching ran ran' fun u inside => ?_
  rw [bytes_of_cell proper proper' found same found' u inside]

end Images

end Store

/-- Of the contents, the answer of a call depends on nothing but the slice that it takes. -/
theorem StoreCall.answer_of_slice {s t : Store} (proper : s.WellFormed) (proper' : t.WellFormed)
    (frame : t.frame = s.frame) (call : StoreCall) (me : InvocationId)
    (same : ∀ place, call.place? s = some place → t.cell place = s.cell place) :
    Store.answer (call.run me t) = Store.answer (call.run me s) := by
  by_cases lacks : s.Lacks call.resource
  · obtain ⟨e, fails⟩ := Store.run_of_lacks call me
    rw [fails s lacks, fails t (Store.lacks_of_frame frame lacks)]
    rfl
  cases call with
  | read binding index =>
    obtain ⟨b, found⟩ := Option.ne_none_iff_exists'.1 lacks
    exact Store.answer_read frame found same
  | write binding index v =>
    obtain ⟨b, found⟩ := Option.ne_none_iff_exists'.1 lacks
    exact Store.answer_write proper proper' frame found index v
  | update binding index change =>
    obtain ⟨b, found⟩ := Option.ne_none_iff_exists'.1 lacks
    exact Store.answer_update proper proper' frame found same change
  | atomic op binding index operands =>
    obtain ⟨b, found⟩ := Option.ne_none_iff_exists'.1 lacks
    exact Store.answer_atomic proper proper' frame found same op operands
  | imageLoad binding x y =>
    obtain ⟨i, found⟩ := Option.ne_none_iff_exists'.1 lacks
    exact Store.answer_imageLoad proper proper' frame found same
  | imageStore binding x y v =>
    obtain ⟨i, found⟩ := Option.ne_none_iff_exists'.1 lacks
    exact Store.answer_imageStore proper proper' frame found x y v
  | imageAtomicAdd binding x y v =>
    obtain ⟨i, found⟩ := Option.ne_none_iff_exists'.1 lacks
    exact Store.answer_imageAtomicAdd proper proper' frame found same v

end ComputeShader
