import Mathlib.Data.List.Forall2
import Mathlib.Data.Option.Basic
import ComputeShader.Comparison.Basic
import ComputeShader.Snapshot.Encoding

/-! # Matching snapshots

What a comparison without divergences says of two snapshots, whatever their contents. Bindings, types,
formats and extents are the same, and lanes agree as far as both sides have them. Lengths are compared
less closely: those of buffers in whole elements, those of texels not at all. A match therefore covers
every lane exactly if the lanes that make no whole element are equally many, and the texels equally
long.
-/

namespace ComputeShader

/-! ## Joint keys -/

namespace Bindings

variable {α β : Type} {a : Bindings α} {b : Bindings β}

theorem mem_keys_iff {b : Bindings α} {key : Binding} : key ∈ b.keys ↔ (b.get? key).isSome := by
  simp only [keys, List.mem_map, Option.isSome_iff_exists, get?_eq_some_iff]
  exact ⟨fun ⟨entry, held, same⟩ => ⟨entry.2, same ▸ held⟩, fun ⟨value, held⟩ => ⟨_, held, rfl⟩⟩

theorem mem_jointKeys {key : Binding} :
    key ∈ a.jointKeys b ↔ (a.get? key).isSome ∨ (b.get? key).isSome := by
  rw [jointKeys, mem_keys_iff, isSome_get?_ofList, ← mem_keys_iff, ← mem_keys_iff]
  simp

/-- Two maps have the same keys, and at each of them related values. -/
def Related (r : α → β → Prop) (a : Bindings α) (b : Bindings β) : Prop :=
  ∀ key, Option.Rel r (a.get? key) (b.get? key)

variable {r r' : α → β → Prop}

theorem Related.imp (related : a.Related r b) (imp : ∀ x y, r x y → r' x y) : a.Related r' b := fun key =>
  match a.get? key, b.get? key, related key with
  | _, _, .some held => .some (imp _ _ held)
  | _, _, .none => .none

theorem Related.at (related : a.Related r b) (key : Binding) {x : α} {y : β}
    (found : a.get? key = some x) (found' : b.get? key = some y) : r x y := by
  simpa [found, found'] using related key

theorem related_congr
    (same : ∀ key x y, a.get? key = some x → b.get? key = some y → (r x y ↔ r' x y)) :
    a.Related r b ↔ a.Related r' b := by
  refine forall_congr' fun key => ?_
  cases found : a.get? key <;> cases found' : b.get? key
  case some.some x y => rw [Option.rel_some_some, Option.rel_some_some, same key x y found found']
  all_goals simp

theorem related_and : a.Related (fun x y => r x y ∧ r' x y) b ↔
    a.Related r b ∧ ∀ key x y, a.get? key = some x → b.get? key = some y → r' x y := by
  refine Iff.trans (forall_congr' fun key => ?_) forall_and
  cases a.get? key <;> cases b.get? key <;> simp

/-- A comparison finds nothing if both or neither map have a value at each key, and values match. -/
theorem compare_eq_nil_iff {resource : Binding → Resource}
    {compare : Resource → α → α → Option Divergence} {r : α → α → Prop}
    (compared : ∀ key x y, compare (resource key) x y = none ↔ r x y) {a b : Bindings α} :
    Bindings.compare resource compare a b = [] ↔ a.Related r b := by
  rw [Bindings.compare, List.filterMap_eq_nil_iff]
  refine forall_congr' fun key => ?_
  rw [mem_jointKeys]
  cases a.get? key <;> cases b.get? key <;> simp [compared]

end Bindings

/-! ## Lanes -/

namespace LaneKind

/-- Every lane of either side has one on the other side, with which it agrees. -/
def AgreeThroughout (k : LaneKind) (epsilon : Option Single) (expected observed : List UInt32) :
    Prop :=
  List.Forall₂ (fun e o => k.agree epsilon e o) expected observed

variable {k : LaneKind} {epsilon : Option Single} {expected observed : List UInt32}

/-- A comparison of lanes finds nothing if those agree which both sides have. -/
theorem diffLanes_eq_nil_iff : diffLanes k epsilon expected observed = [] ↔
    ∀ lanes ∈ expected.zip observed, k.agree epsilon lanes.1 lanes.2 := by
  simp only [diffLanes, List.filterMap_eq_nil_iff, Prod.forall]
  constructor
  · intro nothing e o held
    obtain ⟨lane, found⟩ := List.mem_iff_getElem?.1 held
    simpa using nothing e o lane (List.mem_zipIdx_iff_getElem?.2 found)
  · intro agree e o lane held
    rw [if_pos (agree e o (List.fst_mem_of_mem_zipIdx held))]

/-- A comparison that finds nothing covers all lanes if there are equally many. -/
theorem agreeThroughout_iff : k.AgreeThroughout epsilon expected observed ↔
    expected.length = observed.length ∧ diffLanes k epsilon expected observed = [] := by
  rw [AgreeThroughout, List.forall₂_iff_zip, diffLanes_eq_nil_iff]
  simp only [Prod.forall]

end LaneKind

theorem laneDivergence?_eq_none_iff {resource : Resource} {kind : LaneKind} {width : Nat}
    {diffs : List LaneDiff} : laneDivergence? resource kind width diffs = none ↔ diffs = [] := by
  simp [laneDivergence?]

/-! ## Resources -/

section Buffers

variable {epsilon : Option Single} {resource : Resource} {e o : BufferSnapshot}

/-- Two buffers have equally many elements of one type, and the lanes that both have agree. -/
structure BufferSnapshot.MatchesInPart (epsilon : Option Single) (e o : BufferSnapshot) : Prop where
  element : e.element = o.element
  length : e.length = o.length
  lanes : diffLanes (.ofScalarKind e.element.kind) epsilon e.lanes o.lanes = []

/-- Two buffers have elements of one type, and every lane of either agrees with one of the other. -/
structure BufferSnapshot.Matches (epsilon : Option Single) (e o : BufferSnapshot) : Prop where
  element : e.element = o.element
  lanes : (LaneKind.ofScalarKind e.element.kind).AgreeThroughout epsilon e.lanes o.lanes

theorem compareBuffers_eq_none_iff :
    compareBuffers epsilon resource e o = none ↔ e.MatchesInPart epsilon o := by
  rw [compareBuffers]
  split
  · next differ =>
    refine ⟨nofun, fun matched => (differ ?_).elim⟩
    rw [BufferSnapshot.shape, BufferSnapshot.shape, matched.element, matched.length]
  · next same =>
    obtain ⟨length, element⟩ := Shape.buffer.inj (Decidable.not_not.1 same)
    exact laneDivergence?_eq_none_iff.trans ⟨fun agree => ⟨element, length, agree⟩, fun m => m.lanes⟩

/-- A match covers the lanes of buffers if those that make no whole element are equally many. -/
theorem BufferSnapshot.MatchesInPart.matches_iff (matched : e.MatchesInPart epsilon o) :
    e.Matches epsilon o ↔
      e.lanes.length % e.element.components = o.lanes.length % o.element.components := by
  obtain ⟨element, length, agree⟩ := matched
  rw [BufferSnapshot.length, BufferSnapshot.length, ← element] at length
  rw [← element]
  have count (b : BufferSnapshot) := Nat.div_add_mod b.lanes.length e.element.components
  constructor
  · exact fun covered => congrArg (· % _) (LaneKind.agreeThroughout_iff.1 covered.lanes).1
  · intro same
    refine ⟨element, LaneKind.agreeThroughout_iff.2 ⟨?_, agree⟩⟩
    rw [← count e, ← count o, length, same]

end Buffers

section Images

variable {epsilon : Option Single} {resource : Resource} {e o : ImageSnapshot}

/-- The number of bytes in a lane. -/
def TexelFormat.laneSize (f : TexelFormat) : Nat := if f.isNormalized then 1 else 4

theorem ImageSnapshot.length_lanes (i : ImageSnapshot) :
    i.lanes.length = i.texels.length / i.format.laneSize := by
  rw [lanes, TexelFormat.laneSize]
  split
  · simp
  · exact LittleEndian.length_words _

/-- Two images have the same format and extent, and the lanes that both have agree. -/
structure ImageSnapshot.MatchesInPart (epsilon : Option Single) (e o : ImageSnapshot) : Prop where
  format : e.format = o.format
  width : e.width = o.width
  height : e.height = o.height
  lanes : diffLanes e.format.laneKind epsilon e.lanes o.lanes = []

/-- Two images have the same format and extent and equally long texels, and every lane of either agrees
with one of the other. -/
structure ImageSnapshot.Matches (epsilon : Option Single) (e o : ImageSnapshot) : Prop where
  format : e.format = o.format
  width : e.width = o.width
  height : e.height = o.height
  length : e.texels.length = o.texels.length
  lanes : e.format.laneKind.AgreeThroughout epsilon e.lanes o.lanes

/-- Every byte of an image belongs to a lane. -/
def ImageSnapshot.InLanes (i : ImageSnapshot) : Prop :=
  i.lanes.length * i.format.laneSize = i.texels.length

theorem ImageSnapshot.inLanes_iff {i : ImageSnapshot} :
    i.InLanes ↔ i.texels.length % i.format.laneSize = 0 := by
  rw [InLanes, length_lanes]
  exact ⟨fun whole => by rw [← whole, Nat.mul_mod_left],
    fun whole => Nat.div_mul_cancel (Nat.dvd_of_mod_eq_zero whole)⟩

theorem compareImages_eq_none_iff :
    compareImages epsilon resource e o = none ↔ e.MatchesInPart epsilon o := by
  rw [compareImages]
  split
  · next differ =>
    refine ⟨nofun, fun matched => (differ ?_).elim⟩
    rw [ImageSnapshot.shape, ImageSnapshot.shape, matched.format, matched.width, matched.height]
  · next same =>
    obtain ⟨width, height, format⟩ := Shape.image.inj (Decidable.not_not.1 same)
    exact laneDivergence?_eq_none_iff.trans
      ⟨fun agree => ⟨format, width, height, agree⟩, fun m => m.lanes⟩

/-- A match covers the lanes of images if the texels are equally long. -/
theorem ImageSnapshot.MatchesInPart.matches_iff (matched : e.MatchesInPart epsilon o) :
    e.Matches epsilon o ↔ e.texels.length = o.texels.length := by
  obtain ⟨format, width, height, agree⟩ := matched
  refine ⟨fun covered => covered.length, fun same => ?_⟩
  have lanes : e.lanes.length = o.lanes.length := by
    rw [e.length_lanes, o.length_lanes, same, format]
  exact ⟨format, width, height, same, LaneKind.agreeThroughout_iff.2 ⟨lanes, agree⟩⟩

end Images

/-! ## Snapshots -/

section Snapshots

variable {epsilon : Option Single} {e o : Snapshot}

/-- A comparison without divergences has matched every buffer and every image as far as the lanes of
both sides go. -/
theorem compareSnapshots_eq_nil_iff : compareSnapshots epsilon e o = [] ↔
    e.buffers.Related (BufferSnapshot.MatchesInPart epsilon) o.buffers ∧
      e.images.Related (ImageSnapshot.MatchesInPart epsilon) o.images := by
  rw [compareSnapshots, List.append_eq_nil_iff]
  exact and_congr (Bindings.compare_eq_nil_iff fun _ _ _ => compareBuffers_eq_none_iff)
    (Bindings.compare_eq_nil_iff fun _ _ _ => compareImages_eq_none_iff)

/-- What a comparison without divergences covers. It has matched every buffer and every image as far
as the lanes of both sides go; of a buffer that is every lane exactly if the lanes that make no whole
element are equally many, and of an image if the texels are equally long, whose bytes all belong to
lanes if the texels are made of whole ones. -/
theorem covered_of_match (matched : compareSnapshots epsilon e o = []) :
    e.buffers.Related (fun a b => a.MatchesInPart epsilon b ∧ (a.Matches epsilon b ↔
      a.lanes.length % a.element.components = b.lanes.length % b.element.components)) o.buffers ∧
    e.images.Related (fun a b => a.MatchesInPart epsilon b ∧
      (a.Matches epsilon b ↔ a.texels.length = b.texels.length) ∧
      (a.InLanes ↔ a.texels.length % a.format.laneSize = 0)) o.images := by
  obtain ⟨buffers, images⟩ := compareSnapshots_eq_nil_iff.1 matched
  exact ⟨buffers.imp fun _ _ m => ⟨m, m.matches_iff⟩,
    images.imp fun _ _ m => ⟨m, m.matches_iff, ImageSnapshot.inLanes_iff⟩⟩

/-- A snapshot of a buffer and of an image of a single texel. -/
def holding (element : ValueType) (lanes : List UInt32) (format : TexelFormat) (texels : List UInt8) :
    Snapshot where
  shader := "s"
  buffers := .ofList [(0, ⟨"b", element, lanes⟩)]
  images := .ofList [(0, ⟨"i", format, 1, 1, texels⟩)]
  diagnostics := []

/-- The text of such a snapshot, without spaces. -/
def holdingText (element lanes format texels : String) : String :=
  "\x7b\"fixture\":\"s\",\"buffers\":\x7b\"0\":\x7b\"name\":\"b\",\"element\":\"" ++ element ++
    "\",\"lanes\":" ++ lanes ++ "\x7d\x7d,\"images\":\x7b\"0\":\x7b\"name\":\"i\",\"format\":\"" ++
    format ++ "\",\"width\":1,\"height\":1,\"texels\":" ++ texels ++ "\x7d\x7d\x7d"

theorem covered_of_match_shortened :
    let e := holding (.vector .uint .two) [1, 2, 3] .r32ui [1, 0, 0, 0]
    let o := holding (.vector .uint .two) [1, 2] .r32ui []
    compareSnapshots none e o = [] ∧ ∃ a b, e.buffers.get? 0 = some a ∧ o.buffers.get? 0 = some b ∧
      a.MatchesInPart none b ∧ ¬ a.Matches none b := by
  intro e o
  have matched : compareSnapshots none e o = [] := by decide
  obtain ⟨part, covered⟩ := (covered_of_match matched).1.at 0 rfl rfl
  exact ⟨matched, _, _, rfl, rfl, part, fun full => absurd (covered.1 full) (by decide)⟩

/-- Snapshots read from texts match although one has more lanes and more texels. -/
theorem match_of_unequal_lengths : ∃ e o : Snapshot,
    Snapshot.decode? (holdingText "uvec2" "[1,2,3]" "r32ui" "[1,0,0,0]") = some e ∧
      Snapshot.decode? (holdingText "uvec2" "[1,2]" "r32ui" "[]") = some o ∧
      compareSnapshots none e o = [] ∧
      (∃ a b, e.buffers.get? 0 = some a ∧ o.buffers.get? 0 = some b ∧
        a.lanes.length ≠ b.lanes.length) ∧
      ∃ a b, e.images.get? 0 = some a ∧ o.images.get? 0 = some b ∧
        a.texels.length ≠ b.texels.length :=
  ⟨holding (.vector .uint .two) [1, 2, 3] .r32ui [1, 0, 0, 0],
    holding (.vector .uint .two) [1, 2] .r32ui [], by decide +kernel, by decide +kernel, by decide,
    ⟨_, _, rfl, rfl, by decide⟩, ⟨_, _, rfl, rfl, by decide⟩⟩

end Snapshots

end ComputeShader
