import ComputeShader.Proofs.AlikeRuns
import ComputeShader.Proofs.ExactComparison

/-! # What is writeonly does not interfere

Two dispatches that begin with different contents of writeonly resources end with the same error, or with
snapshots that differ in nothing that an invocation has stored to. Conflicts and diagnostics name
resources by what the frame says of them, so that they are the same too. Only a store to a part of a
writeonly element would carry over what the element held before.
-/

namespace ComputeShader

/-! ## Snapshots that agree but for some elements -/

/-- Whether two buffers have the same lanes but for those of some elements. -/
structure BufferSnapshot.AgreeExcept (excepted : Nat → Prop) (a b : BufferSnapshot) : Prop where
  name : b.name = a.name
  element : b.element = a.element
  length : b.lanes.length = a.lanes.length
  lanes : ∀ k, ¬ excepted (k / a.element.components) → b.lanes[k]? = a.lanes[k]?

/-- Whether two images have the same bytes but for those of some texels. -/
structure ImageSnapshot.AgreeExcept (excepted : Nat → Prop) (a b : ImageSnapshot) : Prop where
  name : b.name = a.name
  format : b.format = a.format
  width : b.width = a.width
  height : b.height = a.height
  length : b.texels.length = a.texels.length
  texels : ∀ k, ¬ excepted (k / a.format.texelSize) → b.texels[k]? = a.texels[k]?

/-- Whether two snapshots are equal but for some elements and texels. -/
structure Snapshot.AgreeExcept (excepted : Location → Prop) (a b : Snapshot) : Prop where
  shader : b.shader = a.shader
  diagnostics : b.diagnostics = a.diagnostics
  buffers : ∀ binding, Option.Rel
    (BufferSnapshot.AgreeExcept fun i => excepted ⟨.buffer binding, i⟩)
    (a.buffers.get? binding) (b.buffers.get? binding)
  images : ∀ binding, Option.Rel
    (ImageSnapshot.AgreeExcept fun t => excepted ⟨.image binding, t⟩)
    (a.images.get? binding) (b.images.get? binding)

theorem TexelFormat.texelSize_pos (f : TexelFormat) : 0 < f.texelSize := by
  cases f <;> decide

/-- A member of a list of pieces of one length is found by division. -/
theorem getElem?_flatten_of_length {α : Type} {pieces : List (List α)} {size : Nat} (positive : 0 < size)
    (each : ∀ piece ∈ pieces, piece.length = size) (k : Nat) :
    pieces.flatten[k]? = (pieces[k / size]?.getD [])[k % size]? := by
  induction pieces generalizing k with
  | nil => rfl
  | cons piece rest ih =>
    obtain ⟨first, later⟩ := List.forall_mem_cons.1 each
    rw [List.flatten_cons, List.getElem?_append, first]
    split
    · next inside =>
      rw [Nat.div_eq_of_lt inside, Nat.mod_eq_of_lt inside]
      rfl
    · next outside =>
      have beyond : size ≤ k := Nat.le_of_not_lt outside
      rw [ih later, Nat.div_eq_sub_div positive beyond, Nat.mod_eq_sub_mod beyond,
        List.getElem?_cons_succ]

theorem getElem?_flatten_toList {α : Type} {pieces : Array (List α)} {size : Nat} (positive : 0 < size)
    (each : ∀ i, i < pieces.size → (pieces.getD i []).length = size) (k : Nat) :
    pieces.toList.flatten[k]? = (pieces.getD (k / size) [])[k % size]? := by
  have lengths : ∀ piece ∈ pieces.toList, piece.length = size := fun _ => Snapshot.length_of_mem_toList each
  rw [getElem?_flatten_of_length positive lengths, Array.getD_eq_getD_getElem?]
  exact congrArg (fun piece? : Option (List α) => (piece?.getD [])[k % size]?) Array.getElem?_toList

theorem getElem?_freezeBuffer {b : Buffer} (proper : b.Proper) (k : Nat) :
    (Store.freezeBuffer b).lanes[k]? =
      (b.bits (k / b.element.components))[k % b.element.components]? :=
  getElem?_flatten_toList b.element.components_pos (fun i inside => (proper i inside).1) k

theorem getElem?_freezeImage {i : Image} (proper : i.Proper) (k : Nat) :
    (Store.freezeImage i).texels[k]? =
      (i.bytes (k / i.format.texelSize))[k % i.format.texelSize]? :=
  getElem?_flatten_toList i.format.texelSize_pos proper.2 k

namespace Store

variable {hidden : Resource → Prop} {s s' t : Store} {m m' : Memory} {place : Location}

/-- Whether the log names an invocation that has stored to a place. -/
def StoredTo (s : Store) (place : Location) : Prop :=
  ∃ log, s.log.get? place = some log ∧ log.writers ≠ []

/-- From an empty log on, it names one exactly at the places that are stored to, as far as these see no
atomics. -/
theorem storedTo_replay {trace : Trace} (unlogged : s.log = {})
    (plain : ∀ i, ¬ (trace.history s.cell place).Atomic i) :
    (s.replay trace).StoredTo place ↔ ∃ i, (trace.history s.cell place).Writes i := by
  have logged : (s.replay trace).log.get? place = if trace.history s.cell place = [] then none else
      some ((ElementLog.fresh (Observation.baseline place (trace.observations s.cell))).after
        (trace.history s.cell place)) := by
    rw [log_replay, unlogged]
    exact AccessLog.get?_after
  rw [StoredTo, logged]
  split
  · next untouched => simp [untouched]
  · simp only [Option.some.injEq, exists_eq_left']
    refine (@ElementLog.writers_after (.fresh _) _ rfl plain).2.trans (or_iff_right ?_)
    exact not_not_intro rfl

/-! ## What alike stores show -/

theorem Alike.storedTo_iff (alike : s.Alike hidden m m' s') : s'.StoredTo place ↔ s.StoredTo place := by
  by_cases member : hidden place.resource
  · cases alike.stored place member with
    | never unlogged unlogged' => simp only [StoredTo, unlogged, unlogged']
    | stored logged logged' same => simp only [StoredTo, logged, logged', Option.some.injEq,
        exists_eq_left', same.writers]
  · rw [StoredTo, StoredTo, alike.log place member]

/-- Elements that have not been stored to hold what they began with. -/
theorem Alike.seeds (alike : s.Alike hidden m m' s') (member : hidden place.resource)
    (unstored : ¬ s.StoredTo place) : s.cell place = m place ∧ s'.cell place = m' place := by
  cases alike.stored place member with
  | never unlogged unlogged' seed seed' => exact ⟨seed, seed'⟩
  | stored logged logged' same wrote => exact (unstored ⟨_, logged, wrote⟩).elim

/-- All other cells are equal. -/
theorem Alike.cell (alike : s.Alike hidden m m' s')
    (shown : ¬ (hidden place.resource ∧ ¬ s.StoredTo place)) : s'.cell place = s.cell place := by
  by_cases member : hidden place.resource
  · cases alike.stored place member with
    | never unlogged =>
      refine (shown ⟨member, fun ⟨log, logged, _⟩ => ?_⟩).elim
      rw [unlogged] at logged
      cases logged
    | stored logged logged' same wrote cell => exact cell
  · exact alike.retains.cell place member

/-- Alike stores freeze to snapshots that agree but for hidden elements that nobody has stored to. -/
theorem Alike.freeze (alike : s.Alike hidden m m' s') :
    s.freeze.AgreeExcept (fun place => hidden place.resource ∧ ¬ s.StoredTo place) s'.freeze := by
  have frame := alike.retains.frame
  refine ⟨shader_of_frame frame, congrArg Diagnostics.normalize alike.diagnostics, fun binding => ?_,
    fun binding => ?_⟩
  · rw [Store.freeze, Store.freeze, Bindings.get?_mapValues, Bindings.get?_mapValues]
    cases found : s.buffers.get? binding with
    | none =>
      rw [no_buffer_of_frame frame found]
      exact .none
    | some b =>
      obtain ⟨b', found', same⟩ := buffer_of_frame frame found
      have proper := alike.proper.buffers binding b found
      have proper' := alike.retains.wellFormed.buffers binding b' found'
      have element := Buffer.element_of_frame same
      rw [found', Option.map_some, Option.map_some]
      refine .some ⟨Buffer.name_of_frame same, element, ?_, fun k shown => ?_⟩
      · exact (Snapshot.length_flatten_toList fun i inside => (proper' i inside).1).trans
          ((congrArg₂ (· * ·) (Buffer.length_of_frame same) (congrArg _ element)).trans
            (Snapshot.length_flatten_toList fun i inside => (proper i inside).1).symm)
      · have cell : s'.cell ⟨.buffer binding, k / b.element.components⟩ =
            s.cell ⟨.buffer binding, k / b.element.components⟩ := alike.cell shown
        simp only [Store.cell, found, found', Option.map_some, Option.getD_some] at cell
        rw [getElem?_freezeBuffer proper, getElem?_freezeBuffer proper', element, cell]
  · rw [Store.freeze, Store.freeze, Bindings.get?_mapValues, Bindings.get?_mapValues]
    cases found : s.images.get? binding with
    | none =>
      rw [no_image_of_frame frame found]
      exact .none
    | some i =>
      obtain ⟨i', found', same⟩ := image_of_frame frame found
      have proper := alike.proper.images binding i found
      have proper' := alike.retains.wellFormed.images binding i' found'
      have format := Image.format_of_frame same
      have size : i'.texels.size = i.texels.size := by
        rw [proper.1, proper'.1, Image.width_of_frame same, Image.height_of_frame same]
      rw [found', Option.map_some, Option.map_some]
      refine .some ⟨Image.name_of_frame same, format, Image.width_of_frame same,
        Image.height_of_frame same, ?_, fun k shown => ?_⟩
      · exact (Snapshot.length_flatten_toList proper'.2).trans
          ((congrArg₂ (· * ·) size (congrArg _ format)).trans
            (Snapshot.length_flatten_toList proper.2).symm)
      · have cell : s'.cell ⟨.image binding, k / i.format.texelSize⟩ =
            s.cell ⟨.image binding, k / i.format.texelSize⟩ := alike.cell shown
        simp only [Store.cell, found, found', Option.map_some, Option.getD_some] at cell
        have bytes := congrArg (List.flatMap LittleEndian.bytes) cell
        rw [proper.flatMap_words, proper'.flatMap_words] at bytes
        rw [getElem?_freezeImage proper, getElem?_freezeImage proper', format, bytes]

/-! ## Settling the same conflicts -/

theorem resourceLabel_of_frame (frame : s'.frame = s.frame) (r : Resource) :
    s'.resourceLabel r = s.resourceLabel r := by
  cases r with
  | buffer binding =>
    cases found : s.buffers.get? binding with
    | none => simp only [resourceLabel, found, no_buffer_of_frame frame found]
    | some b =>
      obtain ⟨b', found', same⟩ := buffer_of_frame frame found
      simp only [resourceLabel, found, found', Option.map_some, Buffer.label_of_frame same]
  | image binding =>
    cases found : s.images.get? binding with
    | none => simp only [resourceLabel, found, no_image_of_frame frame found]
    | some i =>
      obtain ⟨i', found', same⟩ := image_of_frame frame found
      simp only [resourceLabel, found, found', Option.map_some, Image.label_of_frame same]

theorem raceError_of_frame (frame : s'.frame = s.frame) (c : Conflict) :
    s'.raceError c = s.raceError c := by
  rw [raceError, raceError, resourceLabel_of_frame frame]

theorem Alike.drained (alike : s.Alike hidden m m' s') : s.drained.Alike hidden m m' s'.drained := by
  have reporting (conflicts : List Conflict) (a a' : Store) (frame : a'.frame = a.frame)
      (diagnostics : a'.diagnostics = a.diagnostics) :
      (conflicts.foldl reportRace a').diagnostics = (conflicts.foldl reportRace a).diagnostics := by
    induction conflicts generalizing a a' with
    | nil => exact diagnostics
    | cons c rest ih =>
      refine ih (a.reportRace c) (a'.reportRace c) frame ?_
      rw [reportRace, reportRace, resourceLabel_of_frame frame, Store.record, Store.record, diagnostics]
  refine alike.of_contents ⟨contents_drained, frame_drained, log_drained⟩
    ⟨contents_drained, frame_drained, log_drained⟩ rfl ?_
  have same := reporting s.conflicts s s' alike.retains.frame alike.diagnostics
  show (s'.conflicts.foldl reportRace s').diagnostics = (s.conflicts.foldl reportRace s).diagnostics
  rw [alike.conflicts, same]

end Store

namespace Dispatcher

variable {d : Dispatcher} {hidden : Resource → Prop} {s s' : Store} {m m' : Memory}

/-- Whether two dispatches end with the same error, or both succeed and leave alike stores. -/
inductive EndAlike (hidden : Resource → Prop) (m m' : Memory) :
    Except EngineError Store → Except EngineError Store → Prop where
  | error (e : EngineError) : EndAlike hidden m m' (.error e) (.error e)
  | ok {t t' : Store} (alike : t.Alike hidden m m' t') : EndAlike hidden m m' (.ok t) (.ok t')

theorem settle_alike (alike : s.Alike hidden m m' s') (policy : RacePolicy) :
    EndAlike hidden m m' (settle policy s) (settle policy s') := by
  cases conflicts : s.conflicts with
  | nil =>
    rw [settle_of_quiet policy conflicts, settle_of_quiet policy (alike.conflicts.trans conflicts)]
    exact .ok alike
  | cons c rest =>
    cases policy with
    | report =>
      rw [settle_report_eq, settle_report_eq]
      exact .ok alike.drained
    | reject =>
      simp only [settle, conflicts, alike.conflicts, Store.raceError_of_frame alike.retains.frame]
      exact .error _

variable {i : Invocation}

theorem runOne_alike
    (confined : (d.context i).Confined (StoreCall.Discreet hidden)
      ((d.context i).execAll d.shader.body))
    (alike : s.Alike hidden m m' s') : EndAlike hidden m m' (d.runOne s i) (d.runOne s' i) := by
  obtain ⟨same, finished⟩ := RunContext.finish_alike (c := d.context i) confined alike
  rw [runOne_finish, runOne_finish]
  generalize (d.context i).finish s = ending at same finished
  generalize (d.context i).finish s' = ending' at same finished
  obtain ⟨e?, final⟩ := ending
  obtain ⟨e?', final'⟩ := ending'
  obtain rfl : e?' = e? := same
  cases e?' with
  | none => exact settle_alike finished d.config.racePolicy
  | some e => exact .error e

/-- A dispatch of discreet invocations ends alike on alike stores. -/
theorem runAll_alike
    (confined : ∀ i, (d.context i).Confined (StoreCall.Discreet hidden)
      ((d.context i).execAll d.shader.body))
    (alike : s.Alike hidden m m' s') (order : List Invocation) :
    EndAlike hidden m m' (d.runAll s order) (d.runAll s' order) := by
  induction order generalizing s s' with
  | nil => exact .ok alike
  | cons i rest ih =>
    have first := runOne_alike (confined i) alike
    rw [runAll, runAll, List.foldlM_cons, List.foldlM_cons]
    generalize d.runOne s i = result at first
    generalize d.runOne s' i = result' at first
    cases first with
    | error e => exact .error e
    | ok related => exact ih related

end Dispatcher

/-! ## Noninterference -/

/-- Whether a store differs from another one in the contents of some resources alone. -/
structure Store.DifferOnlyIn (hidden : Resource → Prop) (s s' : Store) : Prop where
  frame : s'.frame = s.frame
  cell : ∀ place : Location, ¬ hidden place.resource → s'.cell place = s.cell place

namespace Store

variable {hidden : Resource → Prop} {s s' t t' : Store}

theorem DifferOnlyIn.refl (s : Store) : s.DifferOnlyIn hidden s := ⟨rfl, fun _ _ => rfl⟩

/-- Seeding an element of a hidden buffer makes a difference in it alone. -/
theorem DifferOnlyIn.seedElement (differ : s.DifferOnlyIn hidden t) (proper : t.WellFormed)
    {binding : Binding} (member : hidden (.buffer binding)) {index : Nat} {v : Value}
    (ran : Store.seedElement binding index v t = .ok () t') : s.DifferOnlyIn hidden t' := by
  obtain ⟨b, found, ran⟩ := of_seedBufferAt ran
  split at ran
  · cases ran
  next typed =>
    split at ran
    · cases ran
    next inside =>
      obtain ⟨-, rfl⟩ : () = () ∧ t.setCell v.bits ⟨.buffer binding, index⟩ = t' :=
        EStateM.Result.ok.inj ran
      have fits : v.bits.length = (t.cell ⟨.buffer binding, index⟩).length := by
        rw [v.length_bits, Decidable.not_not.1 typed, Store.cell, found]
        exact (proper.buffers binding b found index (Nat.lt_of_not_le inside)).1.symm
      refine ⟨frame_setCell.trans differ.frame, fun place visible => ?_⟩
      have elsewhere : place ≠ ⟨.buffer binding, index⟩ := by
        rintro rfl
        exact visible member
      exact ((cell_setCell fits).trans (if_neg elsewhere)).trans (differ.cell place visible)

/-- Fresh stores that differ in hidden contents alone are alike. -/
theorem Fresh.alike (fresh : s.Fresh) (fresh' : s'.Fresh) (differ : s.DifferOnlyIn hidden s') :
    s.Alike hidden s.cell s'.cell s' where
  proper := fresh.wellFormed
  retains := ⟨fresh'.wellFormed, differ.frame, differ.cell⟩
  conflicts := by rw [fresh.conflicts, fresh'.conflicts]
  diagnostics := by rw [fresh.diagnostics, fresh'.diagnostics]
  log := by simp only [fresh.log, fresh'.log, implies_true]
  stored _ _ := .never (by rw [fresh.log]; rfl) (by rw [fresh'.log]; rfl) rfl rfl

end Store

namespace Dispatcher

variable {d : Dispatcher} {s s' : Store}

/-- What writeonly resources hold before a dispatch does not interfere with it, if the body stores to
writeonly buffers in whole elements. From two seeded stores that differ in contents of writeonly resources
alone, every order of the invocations either ends with the same error, or the invocations have stored to
the same places and the snapshots agree but for writeonly elements that none of them has stored to; those
are as they were seeded. -/
theorem writeonly_contents_immaterial {name source : String}
    (loaded : Shader.load name source = .ok d.shader)
    (buffers : (d.shader.buffers.map BufferDecl.binding).Nodup)
    (images : (d.shader.images.map ImageDecl.binding).Nodup)
    (whole : ∀ b ∈ d.shader.buffers, b.access = .writeOnly → ¬ d.shader.storesParts b.binding)
    (seeded : Seeded d.shader s) (seeded' : Seeded d.shader s')
    (differ : s.DifferOnlyIn (d.shader.Declares .writeOnly) s') (order : List Invocation) :
    (∃ e, d.runAll s order = .error e ∧ d.runAll s' order = .error e) ∨
      ∃ t t', d.runAll s order = .ok t ∧ d.runAll s' order = .ok t' ∧
        (∀ place, t'.StoredTo place ↔ t.StoredTo place) ∧
        t.freeze.AgreeExcept
          (fun place => d.shader.Declares .writeOnly place.resource ∧ ¬ t.StoredTo place) t'.freeze ∧
        ∀ place : Location, d.shader.Declares .writeOnly place.resource → ¬ t.StoredTo place →
          t.cell place = s.cell place ∧ t'.cell place = s'.cell place := by
  have checked := (Shader.parsed_of_load loaded).2
  have declared {r : Resource} (declares : d.shader.Declares .writeOnly r) :
      d.shader.access? r = some .writeOnly := Shader.access?_of_declares buffers images declares
  have confined (i : Invocation) : (d.context i).Confined
      (StoreCall.Discreet (d.shader.Declares .writeOnly)) ((d.context i).execAll d.shader.body) := by
    refine ((d.context i).confined_body checked).mono fun call granted => ⟨fun loads only => ?_, ?_⟩
    · exact granted.loads loads (declared only)
    · rintro binding index change stores ⟨b, member, rfl, only⟩
      exact whole b member only (granted.parts _ index change stores)
  have start := seeded.fresh.alike seeded'.fresh differ
  have ended := runAll_alike confined start order
  generalize d.runAll s order = result at ended
  generalize d.runAll s' order = result' at ended
  cases ended with
  | error e => exact .inl ⟨e, rfl, rfl⟩
  | @ok t t' alike =>
    exact .inr ⟨t, t', rfl, rfl, fun _ => alike.storedTo_iff, alike.freeze, fun _ => alike.seeds⟩

/-- Two invocations that store one element of a readonly buffer to one of a writeonly buffer, and to one
texel of a writeonly image. -/
def sinking : String :=
  "#version 310 es\n" ++
  "layout(local_size_x = 2) in;\n" ++
  "layout(binding = 0) readonly buffer From \x7b uint source[]; \x7d;\n" ++
  "layout(binding = 1) writeonly buffer To \x7b uint sink[]; \x7d;\n" ++
  "layout(rgba8, binding = 0) writeonly uniform highp image2D drawn;\n" ++
  "void main() \x7b\n" ++
  "  sink[0] = source[0];\n" ++
  "  imageStore(drawn, ivec2(0), vec4(1.0));\n" ++
  "\x7d\n"

/-- What the body stores is what one of the stores began with there. The other element keeps its seeds. -/
theorem writeonly_contents_immaterial_sinking : ∃ (d : Dispatcher) (s s' t t' : Store),
    Shader.load "sinking" sinking = .ok d.shader ∧ Seeded d.shader s ∧ Seeded d.shader s' ∧
      s.DifferOnlyIn (d.shader.Declares .writeOnly) s' ∧
      d.runAll s (invocations d.shader.localSize ⟨1, 1, 1⟩) = .ok t ∧
      d.runAll s' (invocations d.shader.localSize ⟨1, 1, 1⟩) = .ok t' ∧
      t.freeze.AgreeExcept
        (fun place => d.shader.Declares .writeOnly place.resource ∧ ¬ t.StoredTo place) t'.freeze ∧
      t.cell ⟨.buffer 1, 0⟩ = [7] ∧ t'.cell ⟨.buffer 1, 0⟩ = [7] ∧
      t.cell ⟨.buffer 1, 1⟩ = [0] ∧ t'.cell ⟨.buffer 1, 1⟩ = [9] := by
  let config : EngineConfig := { bufferLength := 2, imageWidth := 2, imageHeight := 1 }
  let order := invocations ⟨2, 1, 1⟩ ⟨1, 1, 1⟩
  have outcome : (Shader.load "sinking" sinking).toOption.any fun shader =>
      let d : Dispatcher := { shader, config }
      decide (shader.localSize = ⟨2, 1, 1⟩) &&
      (decide (shader.buffers.map BufferDecl.binding).Nodup &&
        (decide (shader.images.map ImageDecl.binding).Nodup &&
          (shader.buffers.any (fun b => b.binding = 1 && b.access = .writeOnly) &&
            (shader.buffers.all (fun b => !shader.storesParts b.binding) &&
              ((Seeding.element 0 0 (Value.uint 7)).after? (.create shader config)).any fun s =>
                ((Seeding.element 1 0 (Value.uint 7)).after? s).any fun s₁ =>
                  ((Seeding.element 1 1 (Value.uint 9)).after? s₁).any fun s' =>
                    (d.runAll s order).toOption.any (fun t =>
                      t.cell ⟨.buffer 1, 0⟩ == [7] && t.cell ⟨.buffer 1, 1⟩ == [0]) &&
                    (d.runAll s' order).toOption.any (fun t =>
                      t.cell ⟨.buffer 1, 0⟩ == [7] && t.cell ⟨.buffer 1, 1⟩ == [9]))))) := by
    rw [load_of_toList "sinking" (by
      delta sinking
      simp only [String.toList_append, String.reduceToList]
      rfl)]
    decide +kernel
  obtain ⟨shader, loaded, outcome⟩ := exists_ok outcome
  obtain ⟨size, outcome⟩ := Bool.and_eq_true_iff.1 outcome
  obtain ⟨buffers, outcome⟩ := Bool.and_eq_true_iff.1 outcome
  obtain ⟨images, outcome⟩ := Bool.and_eq_true_iff.1 outcome
  obtain ⟨present, outcome⟩ := Bool.and_eq_true_iff.1 outcome
  obtain ⟨unparted, outcome⟩ := Bool.and_eq_true_iff.1 outcome
  let d : Dispatcher := { shader, config }
  have sink : shader.Declares .writeOnly (.buffer 1) := by
    obtain ⟨b, member, matched⟩ := List.any_eq_true.1 present
    obtain ⟨binding, access⟩ := Bool.and_eq_true_iff.1 matched
    exact ⟨b, member, of_decide_eq_true binding, of_decide_eq_true access⟩
  have whole : ∀ b ∈ shader.buffers, b.access = .writeOnly → ¬ shader.storesParts b.binding := by
    intro b member _
    simpa using List.all_eq_true.1 unparted b member
  obtain ⟨s, -, seeded, outcome⟩ := Seeded.of_after? (.created config) outcome
  obtain ⟨s₁, filled₁, seeded₁, outcome⟩ := seeded.of_after? outcome
  obtain ⟨s', filled₂, seeded', outcome⟩ := seeded₁.of_after? outcome
  have differ : s.DifferOnlyIn (d.shader.Declares .writeOnly) s' :=
    ((Store.DifferOnlyIn.refl s).seedElement seeded.fresh.wellFormed sink filled₁).seedElement
      seeded₁.fresh.wellFormed sink filled₂
  obtain ⟨first, second⟩ := Bool.and_eq_true_iff.1 outcome
  obtain ⟨t, ran, held⟩ := exists_ok first
  obtain ⟨t', ran', held'⟩ := exists_ok second
  obtain ⟨zero, one⟩ := Bool.and_eq_true_iff.1 held
  obtain ⟨zero', one'⟩ := Bool.and_eq_true_iff.1 held'
  have grid : invocations d.shader.localSize ⟨1, 1, 1⟩ = order :=
    congrArg (invocations · ⟨1, 1, 1⟩) (of_decide_eq_true size)
  rcases writeonly_contents_immaterial (d := d) loaded (of_decide_eq_true buffers)
      (of_decide_eq_true images) whole seeded seeded' differ order with
    ⟨e, failed, -⟩ | ⟨t₀, t₀', ran₀, ran₀', -, agree, -⟩
  · cases failed.symm.trans ran
  · obtain rfl : t₀ = t := Except.ok.inj (ran₀.symm.trans ran)
    obtain rfl : t₀' = t' := Except.ok.inj (ran₀'.symm.trans ran')
    rw [← grid] at ran ran'
    exact ⟨d, s, s', t₀, t₀', loaded, seeded, seeded', differ, ran, ran', agree, eq_of_beq zero,
      eq_of_beq zero', eq_of_beq one, eq_of_beq one'⟩

end Dispatcher

end ComputeShader
