import ComputeShader.Comparison.Expectation
import ComputeShader.Proofs.GridCoverage
import ComputeShader.Proofs.SeededContents
import ComputeShader.Proofs.SlicedAccesses
import ComputeShader.Proofs.SnapshotAccessors
import ComputeShader.Proofs.SnapshotMatching

/-! # Expectations that restate seeds

A literal comes to the results by two ways: a seed puts it into a store, which is frozen and read back,
and an expectation converts it on the spot. Where nothing runs in between, the two meet. Whatever the
element type or the format, an expectation that repeats the literal of a seed is met.
-/

namespace ComputeShader

/-! ## Reading back what was frozen -/

/-- An element of a frozen buffer is that of the buffer. -/
theorem Buffer.Proper.element?_freezeBuffer {b : Buffer} (proper : b.Proper) {i : Nat}
    (inside : i < b.length) : (Store.freezeBuffer b).element? i = some (b.value i) := by
  rw [BufferSnapshot.element?_eq_slice?]
  exact congrArg (Option.map (Value.ofBits b.element)) (proper.slice?_lanes inside)

/-- A texel of a frozen image is that of the image, as long as its bytes have 64-bit offsets. -/
theorem Image.Proper.texel?_freezeImage {i : Image} (proper : i.Proper) {x y : UInt32}
    (left : x < i.width) (above : y < i.height)
    (addressed : (i.position x.toNat y.toNat + 1) * i.format.texelSize < ImageSnapshot.offsetLimit) :
    (Store.freezeImage i).texel? x y = some (i.format.decode (i.bytes (i.position x.toNat y.toNat))) := by
  have inside : i.position x.toNat y.toNat < i.texels.size := proper.1 ▸ Image.position_lt left above
  have texels := Option.some.inj (Option.ite_none_right_eq_some.1 (proper.slice?_texels inside)).2
  dsimp only [Store.freezeImage] at texels
  rw [Nat.succ_mul] at addressed
  have start : (Store.freezeImage i).offset x y = i.position x.toNat y.toNat * i.format.texelSize :=
    Nat.mod_eq_of_lt (Nat.lt_of_le_of_lt (Nat.le_add_right ..) addressed)
  have bytes : (Store.freezeImage i).texelBytes? x y = some (i.bytes (i.position x.toNat y.toNat)) := by
    rw [ImageSnapshot.texelBytes?, start, Store.freezeImage]
    dsimp only
    rw [if_pos ⟨left, above⟩, Nat.mod_eq_of_lt addressed, texels,
      if_pos ⟨Nat.le_add_right .., proper.2 _ inside⟩]
  rw [ImageSnapshot.texel?, bytes]
  rfl

/-! ## Expectations that are met -/

/-- What has the patterns that are expected is no divergence. -/
theorem findingDivergence?_of_bits {expected v : Value} (epsilon : Option Single) (target : ExpectTarget)
    (same : v.bits = expected.bits) : findingDivergence? epsilon target expected (.value v) = none := by
  have agree : diffLanes (LaneKind.ofScalarKind expected.kind) epsilon expected.bits v.bits = [] := by
    rw [same]
    refine (LaneKind.agreeThroughout_iff.1 (List.forall₂_same.2 fun lane _ => ?_)).2
    rw [LaneKind.agree, beq_self_eq_true, Bool.true_or]
  rw [findingDivergence?, agree, List.isEmpty_nil, if_pos rfl]

/-- Expectations that are met one by one are met together. -/
theorem checkExpectations_eq_nil {epsilon : Option Single} {snapshot : Snapshot}
    {expectations : List Expectation}
    (met : ∀ e ∈ expectations, checkExpectation epsilon snapshot e = .ok none) :
    checkExpectations epsilon snapshot expectations = .ok [] := by
  induction expectations with
  | nil => rfl
  | cons e rest ih =>
    obtain ⟨first, later⟩ := List.forall_mem_cons.1 met
    have checked := ih later
    rw [checkExpectations] at checked ⊢
    obtain ⟨found, ran, none⟩ := exists_of_bind_eq_ok checked
    rw [List.mapM_cons, first, ran]
    exact none

/-- The literal that decides an element or a texel. A seed allocates its resource anew, so it is the literal
that the last seed for the resource gives to the place. -/
def Case.deciding? (c : Case) : ExpectTarget → Option Literal
  | .buffer binding i => (c.buffers.filter (·.binding = binding)).getLast?.bind (·.literal? i)
  | .image binding x y => (c.images.filter (·.binding = binding)).getLast?.bind (·.literal? x y)

/-- Whether a target is an element of a buffer or a texel of an image. What has no 64-bit offset is part of
no image that can be allocated. -/
def Store.InRange (s : Store) : ExpectTarget → Prop
  | .buffer binding i => ∃ b, s.buffers.get? binding = some b ∧ i < b.length
  | .image binding x y => ∃ i, s.images.get? binding = some i ∧ x < i.width ∧ y < i.height ∧
      (i.position x.toNat y.toNat + 1) * i.format.texelSize < ImageSnapshot.offsetLimit

instance (s : Store) : DecidablePred s.InRange
  | .buffer binding i =>
    decidable_of_iff ((s.buffers.get? binding).any fun b => i < b.length)
      (by simp [Store.InRange, Option.any_eq_true])
  | .image binding x y =>
    decidable_of_iff ((s.images.get? binding).any fun i => x < i.width ∧ y < i.height ∧
      (i.position x.toNat y.toNat + 1) * i.format.texelSize < ImageSnapshot.offsetLimit)
      (by simp [Store.InRange, Option.any_eq_true])

/-- In an image with a 64-bit number of bytes all texels inside the extent are in range. -/
theorem Store.inRange_of_extent {s : Store} {binding : Binding} {i : Image} {x y : UInt32}
    (found : s.images.get? binding = some i) (left : x < i.width) (above : y < i.height)
    (fits : i.width.toNat * i.height.toNat * i.format.texelSize < ImageSnapshot.offsetLimit) :
    s.InRange (.image binding x y) :=
  ⟨i, found, left, above,
    Nat.lt_of_le_of_lt (Nat.mul_le_mul_right _ (Image.position_lt left above)) fits⟩

namespace Case

variable {c : Case} {shader : Shader} {s : Store}

/-- A store that was set up from a case holds what the case describes. -/
theorem describes_of_seededStore (seeded : c.seededStore shader = .ok s) : c.Describes shader s := by
  rw [seededStore] at seeded
  cases ran : c.applySeeds (Store.create shader c.engine) with
  | error e t =>
    rw [ran] at seeded
    cases seeded
  | ok a t =>
    rw [ran] at seeded
    cases seeded
    exact c.leads_applySeeds _ a _ describes_create ran

/-- An element holds the patterns of the literal that decides it. -/
theorem Describes.bits_of_deciding (describes : c.Describes shader s) {binding : Binding} {b : Buffer}
    (found : s.buffers.get? binding = some b) {i : Nat} (inside : i < b.length) {l : Literal}
    (decides : c.deciding? (.buffer binding i) = some l) : l.toBits b.element = .ok (b.bits i) := by
  have held := describes.buffers binding
  rw [found] at held
  generalize shader.buffers.reverse.find? (·.binding = binding) = d? at held
  cases held with
  | some seededBy =>
    have gives := seededBy.elements i inside
    rw [← deciding?, decides, ← seededBy.element] at gives
    exact gives

/-- A texel holds the bytes of the literal that decides it. -/
theorem Describes.bytes_of_deciding (describes : c.Describes shader s) {binding : Binding} {i : Image}
    (found : s.images.get? binding = some i) {x y : UInt32} (left : x < i.width) (above : y < i.height)
    {l : Literal} (decides : c.deciding? (.image binding x y) = some l) :
    l.toTexel i.format = .ok (i.bytes (i.position x.toNat y.toNat)) := by
  have held := describes.images binding
  rw [found] at held
  generalize shader.images.reverse.find? (·.binding = binding) = d? at held
  cases held with
  | some seededBy =>
    have gives := seededBy.texels x y left above
    rw [← deciding?, decides, ← seededBy.format] at gives
    exact gives

/-- An expectation that restates the literal which decides its target is met by the seeded store. -/
theorem Describes.checkExpectation_eq (describes : c.Describes shader s) (proper : s.WellFormed)
    (epsilon : Option Single) {e : Expectation} (inRange : s.InRange e.target)
    (restated : c.deciding? e.target = some e.value) : checkExpectation epsilon s.freeze e = .ok none := by
  obtain ⟨target, l⟩ := e
  cases target with
  | buffer binding i =>
    obtain ⟨b, found, inside⟩ := inRange
    have gives := describes.bits_of_deciding found inside restated
    have proper := proper.buffers binding b found
    have frozen : s.freeze.buffers.get? binding = some (Store.freezeBuffer b) := by
      rw [Store.freeze, Bindings.get?_mapValues, found, Option.map_some]
    rw [checkExpectation]
    dsimp only
    rw [frozen]
    dsimp only
    rw [proper.element?_freezeBuffer inside, Store.freezeBuffer]
    cases converted : l.toValue b.element with
    | error fault =>
      rw [Literal.toBits, converted] at gives
      cases gives
    | ok v =>
      rw [Literal.toBits, converted] at gives
      have same : (b.value i).bits = v.bits :=
        (Value.bits_ofBits (proper i inside)).trans (Except.ok.inj gives).symm
      exact congrArg Except.ok (findingDivergence?_of_bits epsilon _ same)
  | image binding x y =>
    obtain ⟨i, found, left, above, addressed⟩ := inRange
    have gives := describes.bytes_of_deciding found left above restated
    have frozen : s.freeze.images.get? binding = some (Store.freezeImage i) := by
      rw [Store.freeze, Bindings.get?_mapValues, found, Option.map_some]
    rw [checkExpectation]
    dsimp only
    rw [frozen]
    dsimp only
    rw [(proper.images binding i found).texel?_freezeImage left above addressed, Store.freezeImage]
    dsimp only
    rw [gives]
    exact congrArg Except.ok (findingDivergence?_of_bits epsilon _ rfl)

end Case

/-! ## Dispatches of nothing -/

/-- A grid without extent has no invocations. -/
theorem invocations_eq_nil (localSize : Extent3) {groups : Extent3}
    (empty : groups.x = 0 ∨ groups.y = 0 ∨ groups.z = 0) : invocations localSize groups = [] := by
  refine List.eq_nil_iff_forall_not_mem.2 fun i member => ?_
  obtain ⟨-, -, inside, -⟩ := mem_invocations.1 member
  rcases empty with x | y | z
  · exact UInt32.not_lt_zero (x ▸ inside.x)
  · exact UInt32.not_lt_zero (y ▸ inside.y)
  · exact UInt32.not_lt_zero (z ▸ inside.z)

theorem Schedule.order_nil (schedule : Schedule) : schedule.order [] = [] := by
  cases schedule with
  | sequential | parallel => rfl
  | shuffled seed => exact (Shuffle.shuffled_perm seed []).eq_nil

/-- A dispatch of an empty grid gives back the store as it is. -/
theorem Dispatcher.dispatch_empty {d : Dispatcher} (ready : d.stage = .initialized) (s : Store)
    {groups : Extent3} (empty : groups.x = 0 ∨ groups.y = 0 ∨ groups.z = 0) :
    (d.dispatch s groups).1 = .ok s.freeze := by
  rw [dispatch, ready]
  dsimp only
  rw [execute, invocations_eq_nil _ empty, Schedule.order_nil, runAll]
  rfl

namespace Case

/-- A case that only restates its seeds passes: nothing runs, and every expectation repeats the literal that
decides its target. -/
theorem restated_seeds_match {c : Case} {d : Dispatcher} {s : Store} {groups : Extent3}
    (ready : d.stage = .initialized) (seeded : c.seededStore d.shader = .ok s)
    (inRange : ∀ e ∈ c.expectations, s.InRange e.target)
    (restated : ∀ e ∈ c.expectations, c.deciding? e.target = some e.value)
    (empty : groups.x = 0 ∨ groups.y = 0 ∨ groups.z = 0) (epsilon : Option Single) :
    ∃ snapshot, (d.dispatch s groups).1 = .ok snapshot ∧
      checkExpectations epsilon snapshot c.expectations = .ok [] := by
  refine ⟨s.freeze, d.dispatch_empty ready s empty, checkExpectations_eq_nil fun e member => ?_⟩
  exact (describes_of_seededStore seeded).checkExpectation_eq (seeded_of_seededStore seeded).fresh.wellFormed
    epsilon (inRange e member) (restated e member)

/-- Vectors of floats and of booleans, an image of normalized channels and one of integers. -/
def gallery : Shader where
  name := "gallery"
  version := 310
  extensions := []
  localSize := ⟨1, 1, 1⟩
  buffers := [⟨0, "In", none, "a", .vector .float .three, .readOnly⟩,
    ⟨1, "Flags", none, "f", .vector .bool .two, .readWrite⟩]
  images := [⟨0, "tint", .rgba8, .readWrite⟩, ⟨1, "dots", .r32i, .readWrite⟩]
  samplers := []
  uniforms := []
  locals := []
  body := []

/-- One half, which no normalized channel holds. -/
def half : Literal := .float (.ofNumeral false ⟨5, -1⟩)

/-- Seeds of every form, and expectations that repeat what they say. -/
def restating : Case where
  source := "gallery"
  engine := { bufferLength := 2, schedule := .shuffled 7 }
  buffers := [
    { binding := 0, length := some 1, fill := some (.int 4) },
    { binding := 0, length := some 3, fill := some half, data := [.list [.int 1, half, .int (-2)]] },
    { binding := 1, fill := some (.bool true), set := [(1, .list [.bool false, .bool true])] }]
  images := [
    { binding := 0, width := 2, height := 2, fill := some half,
      texels := [⟨1, 0, .list [.int 1, half, .int 0, .int 1]⟩] },
    { binding := 1, width := 1, height := 2, data := [.int (-7), .int 8] }]
  expectations := [
    ⟨.buffer 0 0, .list [.int 1, half, .int (-2)]⟩, ⟨.buffer 0 2, half⟩,
    ⟨.buffer 1 0, .bool true⟩, ⟨.buffer 1 1, .list [.bool false, .bool true]⟩,
    ⟨.image 0 0 1, half⟩, ⟨.image 0 1 0, .list [.int 1, half, .int 0, .int 1]⟩, ⟨.image 1 0 1, .int 8⟩]

/-- The halves of an image are rounded to channels alike by its seed and by the expectations. -/
theorem restated_seeds_match_gallery :
    let d : Dispatcher := ⟨gallery, restating.engine, .initialized⟩
    ∃ s, restating.seededStore gallery = .ok s ∧ (∀ e ∈ restating.expectations, s.InRange e.target) ∧
      (∀ e ∈ restating.expectations, restating.deciding? e.target = some e.value) ∧
      ∃ snapshot, (d.dispatch s ⟨4, 0, 1⟩).1 = .ok snapshot ∧
        snapshot.buffers.get? 1 = some ⟨"f", .vector .bool .two, [1, 1, 0, 1]⟩ ∧
        (snapshot.images.get? 0).map ImageSnapshot.texels =
          some [128, 128, 128, 128, 255, 128, 0, 255, 128, 128, 128, 128, 128, 128, 128, 128] ∧
        checkExpectations none snapshot restating.expectations = .ok [] := by
  intro d
  obtain ⟨s, seeded⟩ : ∃ s, restating.seededStore gallery = .ok s := ⟨_, rfl⟩
  have inRange : ∀ e ∈ restating.expectations, s.InRange e.target := by
    cases seeded
    decide +kernel
  have restated : ∀ e ∈ restating.expectations, restating.deciding? e.target = some e.value := by
    simp only [restating, List.forall_mem_cons]
    exact ⟨rfl, rfl, rfl, rfl, rfl, rfl, rfl, List.forall_mem_nil _⟩
  obtain ⟨snapshot, ran, met⟩ :=
    @restated_seeds_match _ d s ⟨4, 0, 1⟩ rfl seeded inRange restated (.inr (.inl rfl)) none
  refine ⟨s, seeded, inRange, restated, snapshot, ran, ?_, ?_, met⟩
  all_goals
    cases seeded
    cases ran
    decide +kernel

end Case

end ComputeShader
