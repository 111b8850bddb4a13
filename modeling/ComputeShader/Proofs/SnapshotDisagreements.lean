import ComputeShader.Proofs.ExactComparison

/-! # What a comparison lists

The disagreements of two snapshots are described here without the order in which a comparison looks for
them: a resource that only one side has, resources of different shape, and the failing lanes of resources
of one shape. A comparison lists these and nothing else, each of them once, buffers before images and
each in ascending order of the bindings.
-/

namespace ComputeShader

/-! ## Lanes -/

/-- Two lanes fail: their patterns differ, and floats do not lie within the tolerance of each other. The
difference of floats is taken as a double, and no tolerance counts as one of zero. -/
def LaneFails (float : Prop) (epsilon : Option Single) (x y : UInt32) : Prop :=
  x ≠ y ∧
    (float → ¬ (LaneKind.float.distance x y).le (Double.ofSingle (epsilon.getD Single.zero)))

/-- A list holds the failing lanes of two equally long lists, by ascending position. -/
structure ListsFailures (float : Prop) (epsilon : Option Single) (expected observed : List UInt32)
    (diffs : List LaneDiff) : Prop where
  length : expected.length = observed.length
  ascending : diffs.Pairwise fun d d' => d.lane < d'.lane
  mem_iff : ∀ d, d ∈ diffs ↔ expected[d.lane]? = some d.expected ∧
    observed[d.lane]? = some d.observed ∧ LaneFails float epsilon d.expected d.observed

section Lanes

variable {float : Prop} {epsilon : Option Single} {k : LaneKind} {expected observed : List UInt32}
  {diffs diffs' : List LaneDiff}

/-- The failing lanes make only one list. -/
theorem ListsFailures.unique (lists : ListsFailures float epsilon expected observed diffs)
    (lists' : ListsFailures float epsilon expected observed diffs') : diffs = diffs' := by
  have nodup {ds : List LaneDiff} (ascending : ds.Pairwise fun d d' => d.lane < d'.lane) :
      ds.Nodup := by
    refine ascending.imp ?_
    rintro d d' less rfl
    exact Nat.lt_irrefl _ less
  have members (d : LaneDiff) : d ∈ diffs ↔ d ∈ diffs' := (lists.mem_iff d).trans (lists'.mem_iff d).symm
  exact List.Perm.eq_of_pairwise (fun _ _ _ _ less greater => absurd less (Nat.lt_asymm greater))
    lists.ascending lists'.ascending
    ((List.perm_ext_iff_of_nodup (nodup lists.ascending) (nodup lists'.ascending)).2 members)

theorem LaneKind.agree_eq_false_iff {x y : UInt32} :
    k.agree epsilon x y = false ↔ LaneFails (k = .float) epsilon x y := by
  rw [agree, Bool.or_eq_false_iff, beq_eq_false_iff_ne, LaneFails]
  refine and_congr_right fun _ => ?_
  cases k <;> simp [isFloat]

theorem mem_diffLanes {d : LaneDiff} : d ∈ diffLanes k epsilon expected observed ↔
    expected[d.lane]? = some d.expected ∧ observed[d.lane]? = some d.observed ∧
      LaneFails (k = .float) epsilon d.expected d.observed := by
  obtain ⟨lane, x, y⟩ := d
  simp only [diffLanes, List.mem_filterMap, Prod.exists, List.mem_zipIdx_iff_getElem?,
    List.getElem?_zip_eq_some]
  constructor
  · rintro ⟨x', y', lane', ⟨heldX, heldY⟩, listed⟩
    split at listed
    · cases listed
    · next failed =>
      cases listed
      exact ⟨heldX, heldY, LaneKind.agree_eq_false_iff.1 (Bool.eq_false_iff.2 failed)⟩
  · rintro ⟨heldX, heldY, fails⟩
    refine ⟨x, y, lane, ⟨heldX, heldY⟩, ?_⟩
    rw [LaneKind.agree_eq_false_iff.2 fails]
    rfl

theorem ascending_diffLanes :
    (diffLanes k epsilon expected observed).Pairwise fun d d' => d.lane < d'.lane := by
  have positions : ((expected.zip observed).zipIdx.map Prod.snd).Pairwise (· < ·) := by
    rw [List.zipIdx_map_snd]
    exact List.pairwise_lt_range'
  refine (List.pairwise_map.1 positions).filterMap _ ?_
  rintro ⟨⟨x, y⟩, lane⟩ ⟨⟨x', y'⟩, lane'⟩ less d listed d' listed'
  simp only [Option.ite_none_left_eq_some, Option.some.injEq] at listed listed'
  rw [← listed.2, ← listed'.2]
  exact less

/-- A comparison of equally many lanes finds the failing ones. -/
theorem listsFailures_diffLanes (length : expected.length = observed.length)
    (kind : k = .float ↔ float) :
    ListsFailures float epsilon expected observed (diffLanes k epsilon expected observed) where
  length := length
  ascending := ascending_diffLanes
  mem_iff d := by
    rw [mem_diffLanes, propext kind]

theorem laneDivergence?_eq_some_iff {resource : Resource} {width : Nat} {d : Divergence}
    (length : expected.length = observed.length) (kind : k = .float ↔ float) :
    laneDivergence? resource k width (diffLanes k epsilon expected observed) = some d ↔
      ∃ diffs, ListsFailures float epsilon expected observed diffs ∧ diffs ≠ [] ∧
        d = .lanes resource k width diffs := by
  have lists : ListsFailures float epsilon expected observed (diffLanes k epsilon expected observed) :=
    listsFailures_diffLanes length kind
  rw [laneDivergence?]
  constructor
  · intro listed
    split at listed
    · cases listed
    · next some =>
      exact ⟨_, lists, fun none => some (List.isEmpty_iff.2 none), (Option.some.inj listed).symm⟩
  · rintro ⟨diffs, lists', some, rfl⟩
    rw [lists.unique lists', if_neg (fun none => some (List.isEmpty_iff.1 none))]

end Lanes

/-! ## Resources -/

theorem LaneKind.ofScalarKind_eq_float_iff {kind : ScalarKind} :
    ofScalarKind kind = .float ↔ kind = .float := by
  cases kind <;> decide

theorem TexelFormat.laneKind_eq_float_iff {f : TexelFormat} :
    f.laneKind = .float ↔ f.kind = .float ∧ f.isNormalized = false := by
  cases f <;> decide

/-- How two buffers of the same binding disagree: in element type or length, or else in some of their
lanes. -/
inductive BufferSnapshot.Disagreement (epsilon : Option Single) (resource : Resource)
    (e o : BufferSnapshot) : Divergence → Prop where
  | shape : e.element ≠ o.element ∨ e.length ≠ o.length →
      Disagreement epsilon resource e o (.shape resource e.shape o.shape)
  | lanes (diffs : List LaneDiff) : e.element = o.element → e.length = o.length →
      ListsFailures (e.element.kind = .float) epsilon e.lanes o.lanes diffs → diffs ≠ [] →
      Disagreement epsilon resource e o
        (.lanes resource (.ofScalarKind e.element.kind) e.element.components diffs)

/-- How two images of the same binding disagree: in format or extent, or else in some of their lanes,
which are the bytes of normalized formats. -/
inductive ImageSnapshot.Disagreement (epsilon : Option Single) (resource : Resource)
    (e o : ImageSnapshot) : Divergence → Prop where
  | shape : e.format ≠ o.format ∨ e.width ≠ o.width ∨ e.height ≠ o.height →
      Disagreement epsilon resource e o (.shape resource e.shape o.shape)
  | lanes (diffs : List LaneDiff) : e.format = o.format → e.width = o.width → e.height = o.height →
      ListsFailures (e.format.kind = .float ∧ e.format.isNormalized = false) epsilon e.lanes o.lanes
        diffs → diffs ≠ [] →
      Disagreement epsilon resource e o (.lanes resource e.format.laneKind e.format.channels diffs)

section Resources

variable {epsilon : Option Single} {resource : Resource} {d : Divergence}

theorem compareBuffers_eq_some_iff {e o : BufferSnapshot} (proper : e.WellFormed)
    (proper' : o.WellFormed) :
    compareBuffers epsilon resource e o = some d ↔ e.Disagreement epsilon resource o d := by
  have shapes : e.shape = o.shape ↔ e.length = o.length ∧ e.element = o.element :=
    iff_of_eq (Shape.buffer.injEq ..)
  rw [compareBuffers]
  split
  · next differ =>
    have differ : ¬ (e.element = o.element ∧ e.length = o.length) :=
      fun same => differ (shapes.2 same.symm)
    constructor
    · rintro ⟨⟩
      exact .shape (not_and_or.1 differ)
    · rintro (_ | ⟨_, element, length⟩)
      · rfl
      · exact (differ ⟨element, length⟩).elim
  · next same =>
    obtain ⟨length, element⟩ := shapes.1 (Decidable.not_not.1 same)
    have lanes : e.lanes.length = o.lanes.length := by
      rw [← Nat.div_add_mod e.lanes.length e.element.components, proper,
        ← Nat.div_add_mod o.lanes.length o.element.components, proper', ← element]
      rw [BufferSnapshot.length, BufferSnapshot.length, ← element] at length
      rw [length]
    rw [laneDivergence?_eq_some_iff lanes LaneKind.ofScalarKind_eq_float_iff]
    constructor
    · rintro ⟨diffs, lists, some, rfl⟩
      exact .lanes diffs element length lists some
    · rintro (differ | ⟨diffs, _, _, lists, some⟩)
      · exact (differ.elim (· element) (· length)).elim
      · exact ⟨diffs, lists, some, rfl⟩

theorem compareImages_eq_some_iff {e o : ImageSnapshot} (proper : e.WellFormed)
    (proper' : o.WellFormed) :
    compareImages epsilon resource e o = some d ↔ e.Disagreement epsilon resource o d := by
  have shapes : e.shape = o.shape ↔ e.width = o.width ∧ e.height = o.height ∧ e.format = o.format :=
    iff_of_eq (Shape.image.injEq ..)
  rw [compareImages]
  split
  · next differ =>
    have differ : ¬ (e.format = o.format ∧ e.width = o.width ∧ e.height = o.height) := by
      rintro ⟨format, width, height⟩
      exact differ (shapes.2 ⟨width, height, format⟩)
    constructor
    · rintro ⟨⟩
      exact .shape (by rwa [not_and_or, not_and_or] at differ)
    · rintro (_ | ⟨_, format, width, height⟩)
      · rfl
      · exact (differ ⟨format, width, height⟩).elim
  · next same =>
    obtain ⟨width, height, format⟩ := shapes.1 (Decidable.not_not.1 same)
    have lanes : e.lanes.length = o.lanes.length := by
      rw [e.length_lanes, o.length_lanes, proper, proper', format, width, height]
    rw [laneDivergence?_eq_some_iff lanes TexelFormat.laneKind_eq_float_iff]
    constructor
    · rintro ⟨diffs, lists, some, rfl⟩
      exact .lanes diffs format width height lists some
    · rintro (differ | ⟨diffs, _, _, _, lists, some⟩)
      · exact (differ.elim (· format) (·.elim (· width) (· height))).elim
      · exact ⟨diffs, lists, some, rfl⟩

end Resources

/-! ## Maps -/

/-- The resource that a divergence is about; an expectation names a place of its own. -/
def Divergence.resource? : Divergence → Option Resource
  | missing resource _ | shape resource _ _ | lanes resource _ _ _ => some resource
  | expectation .. => none

/-- Buffers come before images, each by their bindings. -/
def Resource.Before : Resource → Resource → Prop
  | buffer a, buffer b | image a, image b => a < b
  | buffer _, image _ => True
  | image _, buffer _ => False

/-- What a comparison of two resources finds is about the resource that it was told. -/
def NamesResource {α : Type} (compare : Resource → α → α → Option Divergence) : Prop :=
  ∀ resource x y d, compare resource x y = some d → d.resource? = some resource

/-- The resource of a divergence comes before the resource of another one. -/
def Divergence.Before (d d' : Divergence) : Prop :=
  ∃ r ∈ d.resource?, ∃ r' ∈ d'.resource?, r.Before r'

namespace Bindings

variable {α : Type}

/-- How two maps of resources disagree: a binding that only one side has, or resources of the same
binding that disagree. -/
inductive Disagreement (resource : Binding → Resource)
    (between : Resource → α → α → Divergence → Prop) (e o : Bindings α) : Divergence → Prop where
  | onlyExpected (key : Binding) : (e.get? key).isSome → o.get? key = none →
      Disagreement resource between e o (.missing (resource key) .observed)
  | onlyObserved (key : Binding) : e.get? key = none → (o.get? key).isSome →
      Disagreement resource between e o (.missing (resource key) .expected)
  | common (key : Binding) (x y : α) (d : Divergence) : e.get? key = some x → o.get? key = some y →
      between (resource key) x y d → Disagreement resource between e o d

variable {resource : Binding → Resource} {compare : Resource → α → α → Option Divergence}
  {between : Resource → α → α → Divergence → Prop} {e o : Bindings α}

theorem mem_compare {d : Divergence} (compared : ∀ key x y d, e.get? key = some x →
      o.get? key = some y → (compare (resource key) x y = some d ↔ between (resource key) x y d)) :
    d ∈ Bindings.compare resource compare e o ↔ Disagreement resource between e o d := by
  simp only [Bindings.compare, List.mem_filterMap, mem_jointKeys]
  constructor
  · rintro ⟨key, joint, listed⟩
    cases foundE : e.get? key with
    | none =>
      rw [foundE] at listed
      obtain rfl := Option.some.inj listed
      exact .onlyObserved key foundE (joint.resolve_left (by simp [foundE]))
    | some x =>
      cases foundO : o.get? key with
      | none =>
        rw [foundE, foundO] at listed
        obtain rfl := Option.some.inj listed
        exact .onlyExpected key (by simp [foundE]) foundO
      | some y =>
        rw [foundE, foundO] at listed
        exact .common key x y d foundE foundO ((compared key x y d foundE foundO).1 listed)
  · rintro (⟨key, held, lacking⟩ | ⟨key, lacking, held⟩ | ⟨key, x, y, _, foundE, foundO, differ⟩)
    · obtain ⟨x, found⟩ := Option.isSome_iff_exists.1 held
      exact ⟨key, .inl held, by rw [found, lacking]⟩
    · exact ⟨key, .inr held, by rw [lacking]⟩
    · refine ⟨key, .inl (by simp [foundE]), ?_⟩
      rw [foundE, foundO]
      exact (compared key x y d foundE foundO).2 differ

/-- What a comparison finds at a binding is about the resource of that binding. -/
theorem resource?_of_compared
    (about : NamesResource compare) {key : Binding} {d : Divergence}
    (listed : (match e.get? key, o.get? key with
      | some x, some y => compare (resource key) x y
      | some _, none => some (.missing (resource key) .observed)
      | none, _ => some (.missing (resource key) .expected)) = some d) :
    d.resource? = some (resource key) := by
  split at listed
  · exact about _ _ _ _ listed
  all_goals exact Option.some.inj listed ▸ rfl

theorem resource?_of_mem_compare
    (about : NamesResource compare) {d : Divergence}
    (listed : d ∈ Bindings.compare resource compare e o) : ∃ key, d.resource? = some (resource key) := by
  obtain ⟨key, -, found⟩ := List.mem_filterMap.1 listed
  exact ⟨key, resource?_of_compared (e := e) (o := o) about found⟩

/-- A comparison of maps lists one resource after the other. -/
theorem pairwise_compare (about : NamesResource compare)
    (ascending : ∀ {key key'}, key < key' → (resource key).Before (resource key')) :
    (Bindings.compare resource compare e o).Pairwise Divergence.Before := by
  have keys : (e.jointKeys o).Pairwise (· < ·) := List.pairwise_map.2 (Bindings.ascending _)
  refine keys.filterMap _ fun key key' less d found d' found' => ?_
  have first := resource?_of_compared (e := e) (o := o) about found
  have second := resource?_of_compared (e := e) (o := o) about found'
  exact ⟨_, first, _, second, ascending less⟩

end Bindings

/-! ## Snapshots -/

theorem laneDivergence?_resource {resource : Resource} {kind : LaneKind} {width : Nat}
    {diffs : List LaneDiff} {d : Divergence}
    (listed : laneDivergence? resource kind width diffs = some d) : d.resource? = some resource := by
  rw [laneDivergence?, Option.ite_none_left_eq_some] at listed
  exact Option.some.inj listed.2 ▸ rfl

theorem compareBuffers_namesResource (epsilon : Option Single) :
    NamesResource (compareBuffers epsilon) := by
  intro resource e o d listed
  rw [compareBuffers] at listed
  split at listed
  · exact Option.some.inj listed ▸ rfl
  · exact laneDivergence?_resource listed

theorem compareImages_namesResource (epsilon : Option Single) :
    NamesResource (compareImages epsilon) := by
  intro resource e o d listed
  rw [compareImages] at listed
  split at listed
  · exact Option.some.inj listed ▸ rfl
  · exact laneDivergence?_resource listed

namespace Snapshot

variable {epsilon : Option Single} {e o : Snapshot}

/-- How two snapshots disagree: in their buffers or in their images. -/
inductive Disagreement (epsilon : Option Single) (e o : Snapshot) : Divergence → Prop where
  | buffers (d : Divergence) :
      e.buffers.Disagreement .buffer (fun r x y => x.Disagreement epsilon r y) o.buffers d →
      Disagreement epsilon e o d
  | images (d : Divergence) :
      e.images.Disagreement .image (fun r x y => x.Disagreement epsilon r y) o.images d →
      Disagreement epsilon e o d

theorem mem_compareSnapshots (proper : e.WellFormed) (proper' : o.WellFormed) {d : Divergence} :
    d ∈ compareSnapshots epsilon e o ↔ e.Disagreement epsilon o d := by
  have buffers : d ∈ e.buffers.compare .buffer (compareBuffers epsilon) o.buffers ↔ _ :=
    Bindings.mem_compare fun key x y _ foundE foundO =>
      compareBuffers_eq_some_iff (proper.buffers key x foundE) (proper'.buffers key y foundO)
  have images : d ∈ e.images.compare .image (compareImages epsilon) o.images ↔ _ :=
    Bindings.mem_compare fun key x y _ foundE foundO =>
      compareImages_eq_some_iff (proper.images key x foundE) (proper'.images key y foundO)
  rw [compareSnapshots, List.mem_append, buffers, images]
  constructor
  · rintro (listed | listed)
    · exact .buffers d listed
    · exact .images d listed
  · intro disagreement
    cases disagreement with
    | buffers listed => exact .inl listed
    | images listed => exact .inr listed

theorem pairwise_compareSnapshots : (compareSnapshots epsilon e o).Pairwise Divergence.Before := by
  have buffers := compareBuffers_namesResource epsilon
  have images := compareImages_namesResource epsilon
  refine List.pairwise_append.2 ⟨Bindings.pairwise_compare buffers id,
    Bindings.pairwise_compare images id, fun d listed d' listed' => ?_⟩
  obtain ⟨key, buffer⟩ := Bindings.resource?_of_mem_compare buffers listed
  obtain ⟨key', image⟩ := Bindings.resource?_of_mem_compare images listed'
  exact ⟨_, buffer, _, image, trivial⟩

theorem compareSnapshots_self (s : Snapshot) : compareSnapshots epsilon s s = [] := by
  have reflexive {k : LaneKind} (lanes : List UInt32) : diffLanes k epsilon lanes lanes = [] := by
    refine (LaneKind.agreeThroughout_iff.1 ?_).2
    exact List.forall₂_same.2 fun lane _ => by simp [LaneKind.agree]
  refine compareSnapshots_eq_nil_iff.2 ⟨fun key => ?_, fun key => ?_⟩
  · cases s.buffers.get? key with
    | none => exact .none
    | some b => exact .some ⟨rfl, rfl, reflexive b.lanes⟩
  · cases s.images.get? key with
    | none => exact .none
    | some i => exact .some ⟨rfl, rfl, rfl, reflexive i.lanes⟩

/-- A comparison of well-formed snapshots lists exactly their disagreements, each of them once: buffers
before images and each by ascending bindings. It lists nothing exactly if there are none, and nothing of
a snapshot and itself. -/
theorem compare_lists_disagreements (proper : e.WellFormed) (proper' : o.WellFormed) :
    (∀ d, d ∈ compareSnapshots epsilon e o ↔ e.Disagreement epsilon o d) ∧
    (compareSnapshots epsilon e o).Pairwise Divergence.Before ∧
    (compareSnapshots epsilon e o = [] ↔ ∀ d, ¬ e.Disagreement epsilon o d) ∧
    compareSnapshots epsilon e e = [] := by
  have listed (d : Divergence) : d ∈ compareSnapshots epsilon e o ↔ e.Disagreement epsilon o d :=
    mem_compareSnapshots proper proper'
  refine ⟨listed, pairwise_compareSnapshots, ?_, compareSnapshots_self e⟩
  rw [List.eq_nil_iff_forall_not_mem]
  exact forall_congr' fun d => not_congr (listed d)

instance (b : BufferSnapshot) : Decidable b.WellFormed := inferInstanceAs (Decidable (_ = _))

instance (i : ImageSnapshot) : Decidable i.WellFormed := inferInstanceAs (Decidable (_ = _))

theorem wellFormed_of_entries {s : Snapshot} (buffers : ∀ entry ∈ s.buffers.entries, entry.2.WellFormed)
    (images : ∀ entry ∈ s.images.entries, entry.2.WellFormed) : s.WellFormed where
  buffers key _ found := buffers (key, _) (Bindings.get?_eq_some_iff.1 found)
  images key _ found := images (key, _) (Bindings.get?_eq_some_iff.1 found)

theorem compare_lists_disagreements_mixed :
    let e : Snapshot := {
      shader := "s"
      buffers := .ofList [(7, ⟨"only", .scalar .bool, [1]⟩), (3, ⟨"n", .scalar .int, [5]⟩),
        (1, ⟨"f", .scalar .float, [0x3f800000, 0x40000000, 0x7fc00000]⟩)]
      images := .ofList [(1, ⟨"i", .rgba8, 1, 1, [1, 2, 3, 4]⟩)]
      diagnostics := [] }
    let o : Snapshot := {
      shader := "s"
      buffers := .ofList [(1, ⟨"f", .scalar .float, [0x3fa00000, 0x40400000, 0x7fc00001]⟩),
        (3, ⟨"n", .scalar .uint, [5]⟩)]
      images := .ofList [(0, ⟨"only", .r32f, 0, 0, []⟩), (1, ⟨"i", .rgba8, 1, 1, [1, 3, 3, 4]⟩)]
      diagnostics := [] }
    let listed : Comparison := [
      .lanes (.buffer 1) .float 1 [⟨1, 0x40000000, 0x40400000⟩, ⟨2, 0x7fc00000, 0x7fc00001⟩],
      .shape (.buffer 3) (.buffer 1 (.scalar .int)) (.buffer 1 (.scalar .uint)),
      .missing (.buffer 7) .observed,
      .missing (.image 0) .expected,
      .lanes (.image 1) .unsigned 4 [⟨1, 2, 3⟩]]
    e.WellFormed ∧ o.WellFormed ∧ compareSnapshots (some ⟨0x3f000000⟩) e o = listed ∧
      ∀ d, e.Disagreement (some ⟨0x3f000000⟩) o d ↔ d ∈ listed := by
  intro e o listed
  have proper : e.WellFormed := wellFormed_of_entries (by decide) (by decide)
  have proper' : o.WellFormed := wellFormed_of_entries (by decide) (by decide)
  have compared : compareSnapshots (some ⟨0x3f000000⟩) e o = listed := by decide +kernel
  exact ⟨proper, proper', compared,
    fun d => (((compare_lists_disagreements proper proper').1 d).symm.trans (by rw [compared]))⟩

end Snapshot

end ComputeShader
