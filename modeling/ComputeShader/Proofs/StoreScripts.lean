import ComputeShader.Proofs.Process
import ComputeShader.Proofs.ProjectedStores

/-! # Operations as processes

On stores of one frame every operation of an invocation but the atomics is a process: where its
index leads, what it says about it and whether its types fit is a matter of the frame. `Scripted`
says so of an operation together with a footprint: the buffers that it may load from and those of
whose elements it may replace parts.
-/

namespace ComputeShader

/-- The buffers that are loaded from and those of whose elements parts are stored to. -/
structure Footprint where
  loads : Binding → Prop
  parts : Binding → Prop

/-- Whether a patch replaces all of what a place holds in stores of a frame. -/
def Patch.CoversAt (patch : Patch) (F : Store) (place : Location) : Prop :=
  ∀ s : Store, s.frame = F.frame → s.WellFormed → patch.Covers (s.cell place).length

namespace Footprint

def MayLoad (fp : Footprint) : Location → Prop
  | ⟨.buffer binding, _⟩ => fp.loads binding
  | ⟨.image _, _⟩ => True

def MayPart (fp : Footprint) : Location → Prop
  | ⟨.buffer binding, _⟩ => fp.parts binding
  | ⟨.image _, _⟩ => False

/-- The effects that stay within a footprint. -/
def Allows (fp : Footprint) (F : Store) : Effect → Prop
  | .note kind _ => kind ≠ .raceDetected
  | .load place => fp.MayLoad place
  | .store place patch =>
    (∀ i w, patch i = some w → F.Admits w place) ∧ (patch.CoversAt F place ∨ fp.MayPart place)
  | .atomic _ _ => False

variable {fp : Footprint} {F s : Store} {e : Effect}

theorem Allows.admitted (allowed : fp.Allows F e) (frame : s.frame = F.frame) : e.Admitted s := by
  refine (Store.admitted_congr frame).2 ?_
  cases e with
  | note | load => trivial
  | store place patch => exact allowed.1
  | atomic => exact allowed.elim

end Footprint

namespace Process

variable {α : Type}

/-- Say something about an index first. -/
def noting (messages : List String) (p : Process α) : Process α :=
  messages.foldr (.note .outOfBounds ·) p

/-- Go on with the place that an index stands for. -/
def resolving (r : Resolution) (dropped : α) (p : Nat → Process (Except EngineError α)) :
    Process (Except EngineError α) :=
  noting r.messages <|
    match r.answer with
    | .error e => done (.error e)
    | .ok none => done (.ok dropped)
    | .ok (some i) => p i

variable {p : Process α} {m : Memory} {messages : List String} {r : Resolution}

theorem effects_noting : (noting messages p).effects m =
    messages.map (Effect.note .outOfBounds) ++ p.effects m := by
  induction messages with
  | nil => rfl
  | cons message rest ih => exact congrArg (List.cons _) ih

theorem answer_noting : (noting messages p).answer m = p.answer m := by
  induction messages with
  | nil => rfl
  | cons message rest ih => exact ih

theorem obeys_noting {fp : Footprint} {F : Store} (obeys : p.Obeys (fp.Allows F)) :
    (noting messages p).Obeys (fp.Allows F) := by
  induction messages with
  | nil => exact obeys
  | cons message rest ih => exact ⟨by simp [Footprint.Allows], ih⟩

theorem obeys_resolving {fp : Footprint} {F : Store} {dropped : α}
    {p : Nat → Process (Except EngineError α)}
    (obeys : ∀ i, r.index? = some i → (p i).Obeys (fp.Allows F)) :
    (resolving r dropped p).Obeys (fp.Allows F) := by
  refine obeys_noting ?_
  split
  · trivial
  · trivial
  · next i answer => exact obeys i (Resolution.index?_eq_some.2 answer)

end Process

namespace Store

variable {α β : Type} {F s : Store} {fp : Footprint} {me : InvocationId} {x : StoreM α}

/-- What a process does to a store. -/
def runProcess (s : Store) (me : InvocationId) (p : Process (Except EngineError α)) :
    EStateM.Result EngineError Store α :=
  (s.performAll me (p.effects s.cell)).outcome (p.answer s.cell)

/-- Whether on all stores of a frame an operation is a process within a footprint. -/
def Scripted (F : Store) (fp : Footprint) (me : InvocationId) (x : StoreM α) : Prop :=
  ∃ p : Process (Except EngineError α), p.Obeys (fp.Allows F) ∧
    ∀ s : Store, s.frame = F.frame → s.WellFormed → x s = s.runProcess me p

theorem scripted_pure (a : α) : Scripted F fp me (pure a) :=
  ⟨.done (.ok a), trivial, fun _ _ _ => rfl⟩

theorem scripted_throw (e : EngineError) : Scripted F fp me (throw e : StoreM α) :=
  ⟨.done (.error e), trivial, fun _ _ _ => rfl⟩

theorem cell_performAll {effects : List Effect} :
    (s.performAll me effects).cell = Memory.after s.cell effects := by
  rw [performAll, cell_replay, Trace.apply, List.foldl_map]
  rfl

theorem frame_performAll {effects : List Effect} : (s.performAll me effects).frame = s.frame :=
  frame_replay

/-- Effects of a process within a footprint keep a store well formed. -/
theorem WellFormed.performAll {p : Process β} {m : Memory} (proper : s.WellFormed)
    (frame : s.frame = F.frame) (obeys : p.Obeys (fp.Allows F)) :
    (s.performAll me (p.effects m)).WellFormed := by
  refine proper.replay fun visit member => ?_
  obtain ⟨e, happens, rfl⟩ := List.mem_map.1 member
  exact (obeys.effects happens).admitted frame

/-- One operation after another; the second one only for what the first one can give. -/
theorem scripted_bind_of {k : α → StoreM β} {Q : α → Prop} (first : Scripted F fp me x)
    (gives : ∀ s a s', x s = .ok a s' → Q a) (next : ∀ a, Q a → Scripted F fp me (k a)) :
    Scripted F fp me (x >>= k) := by
  classical
  obtain ⟨p, obeys, ran⟩ := first
  choose q obeys' ran' using next
  let rest (a : α) : Process (Except EngineError β) :=
    if given : Q a then q a given else .done (.error (.invalidState .initialized))
  have rest_obeys (a : α) : (rest a).Obeys (fp.Allows F) := by
    by_cases given : Q a
    · simp only [rest, dif_pos given, obeys' a given]
    · simp only [rest, dif_neg given, Process.Obeys]
  refine ⟨p.bind fun
      | .error e => .done (.error e)
      | .ok a => rest a, obeys.bind fun
      | .error _ => trivial
      | .ok a => rest_obeys a, fun s frame proper => ?_⟩
  have first := ran s frame proper
  rw [runProcess] at first ⊢
  rw [Process.effects_bind, Process.answer_bind, performAll_append,
    ← @cell_performAll s me (p.effects s.cell)]
  cases answer : p.answer s.cell with
  | error e =>
    rw [answer] at first
    exact bind_eq_error first
  | ok a =>
    rw [answer] at first
    have given : Q a := gives s a _ first
    rw [bind_eq first]
    simp only [rest, dif_pos given]
    exact ran' a given _ (frame_performAll.trans frame) (proper.performAll frame obeys)

theorem scripted_bind {k : α → StoreM β} (first : Scripted F fp me x)
    (next : ∀ a, Scripted F fp me (k a)) : Scripted F fp me (x >>= k) :=
  scripted_bind_of first (fun _ _ _ _ => trivial) fun a _ => next a

/-- An operation that resolves an index and does nothing more. -/
theorem scripted_of_resolved (r : Resolution) (finish : Option Nat → α)
    (ran : ∀ s : Store, s.frame = F.frame → s.WellFormed →
      x s = (s.performAll me r.notes).outcome (r.answer.map finish)) : Scripted F fp me x := by
  refine ⟨.noting r.messages (.done (r.answer.map finish)), Process.obeys_noting trivial,
    fun s frame proper => ?_⟩
  rw [ran s frame proper, runProcess, Process.effects_noting, Process.answer_noting,
    Process.effects, List.append_nil]
  rfl

/-- An operation that resolves an index and goes on as a process from there. -/
theorem scripted_of_resolving (r : Resolution) (dropped : α)
    (p : Nat → Process (Except EngineError α))
    (obeys : ∀ i, r.index? = some i → (p i).Obeys (fp.Allows F))
    (ran : ∀ s : Store, s.frame = F.frame → s.WellFormed → ∃ access,
      x s = s.touching me r dropped access ∧
      ∀ i, r.index? = some i → ∀ s' : Store, s'.cell = s.cell →
        (match access i with
          | .error e => .error e s'
          | .ok (e, a) => .ok a (s'.perform me e)) = s'.runProcess me (p i)) :
    Scripted F fp me x := by
  refine ⟨.resolving r dropped p, Process.obeys_resolving obeys, fun s frame proper => ?_⟩
  obtain ⟨access, touches, acts⟩ := ran s frame proper
  rw [touches, runProcess, Process.resolving, Process.effects_noting, Process.answer_noting,
    touching]
  rcases answer : r.answer with e | (_ | i)
  · simp only [Process.effects, Process.answer, List.append_nil]
    rfl
  · simp only [Process.effects, Process.answer, List.append_nil]
    rfl
  · have acted := acts i (Resolution.index?_eq_some.2 answer) _ (@cell_performAll_notes s me r)
    rw [runProcess, cell_performAll_notes, ← performAll_append] at acted
    refine Eq.trans ?_ acted
    dsimp only
    cases access i with
    | error e => rfl
    | ok accessed => simp only [performAll_concat]

/-- An operation that loads the place that an index stands for. -/
theorem scripted_loading (r : Resolution) (dropped : α) (place : Nat → Location)
    (decode : List UInt32 → α) (may : ∀ i, fp.MayLoad (place i))
    (ran : ∀ s : Store, s.frame = F.frame → s.WellFormed →
      x s = s.touching me r dropped
        fun i => .ok (.load (place i), decode (s.cell (place i)))) : Scripted F fp me x := by
  refine scripted_of_resolving r dropped
    (fun i => .load (place i) fun bits => .done (.ok (decode bits)))
    (fun i _ => ⟨may i, fun _ => trivial⟩) fun s frame proper => ⟨_, ran s frame proper, ?_⟩
  intro i _ s' same
  simp only [runProcess, Process.effects, Process.answer, same]
  rfl

/-- An operation that stores to the place that an index stands for. -/
theorem scripted_storing {x : StoreM Unit} (r : Resolution) (place : Nat → Location) (patch : Patch)
    (allowed : ∀ i, r.index? = some i → fp.Allows F (.store (place i) patch))
    (ran : ∀ s : Store, s.frame = F.frame → s.WellFormed → ∃ patch' : Nat → Patch,
      (∀ i, r.index? = some i →
        (patch' i).apply (s.cell (place i)) = patch.apply (s.cell (place i))) ∧
      ∃ access, x s = s.touching me r () access ∧
        ∀ i, r.index? = some i → access i = .ok (.store (place i) (patch' i), ())) :
    Scripted F fp me x := by
  refine scripted_of_resolving r () (fun i => .store (place i) patch (.done (.ok ())))
    (fun i inside => ⟨allowed i inside, trivial⟩) fun s frame proper => ?_
  obtain ⟨patch', same_content, access, touches, stores⟩ := ran s frame proper
  refine ⟨access, touches, fun i inside s' same => ?_⟩
  have stored : s'.perform me (.store (place i) (patch' i)) = s'.perform me (.store (place i) patch) := by
    rw [perform, perform, same, same_content i inside]
  rw [stores i inside]
  exact congrArg (EStateM.Result.ok ()) stored

/-! ## Frames -/

theorem oobPolicy_of_frame (frame : s.frame = F.frame) : s.oobPolicy = F.oobPolicy := by
  simpa [Store.frame] using congrArg Store.oobPolicy frame

theorem shader_of_frame (frame : s.frame = F.frame) : s.shader = F.shader := by
  simpa [Store.frame] using congrArg Store.shader frame

theorem buffer_of_frame {binding : Binding} {b : Buffer} (frame : s.frame = F.frame)
    (found : F.buffers.get? binding = some b) :
    ∃ b', s.buffers.get? binding = some b' ∧ b'.frame = b.frame := by
  have held : (s.buffers.get? binding).map Buffer.frame = some b.frame := by
    rw [← get?_buffers_frame, frame, get?_buffers_frame, found]
    rfl
  exact Option.map_eq_some_iff.1 held

theorem no_buffer_of_frame {binding : Binding} (frame : s.frame = F.frame)
    (missing : F.buffers.get? binding = none) : s.buffers.get? binding = none := by
  have held : (s.buffers.get? binding).map Buffer.frame = none := by
    rw [← get?_buffers_frame, frame, get?_buffers_frame, missing]
    rfl
  exact Option.map_eq_none_iff.1 held

theorem image_of_frame {binding : Binding} {i : Image} (frame : s.frame = F.frame)
    (found : F.images.get? binding = some i) :
    ∃ i', s.images.get? binding = some i' ∧ i'.frame = i.frame := by
  have held : (s.images.get? binding).map Image.frame = some i.frame := by
    rw [← get?_images_frame, frame, get?_images_frame, found]
    rfl
  exact Option.map_eq_some_iff.1 held

theorem no_image_of_frame {binding : Binding} (frame : s.frame = F.frame)
    (missing : F.images.get? binding = none) : s.images.get? binding = none := by
  have held : (s.images.get? binding).map Image.frame = none := by
    rw [← get?_images_frame, frame, get?_images_frame, missing]
    rfl
  exact Option.map_eq_none_iff.1 held

/-- An operation that begins by looking up a buffer. -/
theorem scripted_bufferAt {binding : Binding} {k : Buffer → StoreM α}
    (held : ∀ b, F.buffers.get? binding = some b →
      Scripted F fp me (bufferAt binding >>= k)) : Scripted F fp me (bufferAt binding >>= k) := by
  cases found : F.buffers.get? binding with
  | some b => exact held b found
  | none =>
    refine ⟨.done (.error (undeclaredBuffer binding)), trivial, fun s frame _ => ?_⟩
    exact bind_eq_error (bufferAt_eq_error (no_buffer_of_frame frame found))

theorem scripted_imageAt {binding : Binding} {k : Image → StoreM α}
    (held : ∀ i, F.images.get? binding = some i →
      Scripted F fp me (imageAt binding >>= k)) : Scripted F fp me (imageAt binding >>= k) := by
  cases found : F.images.get? binding with
  | some i => exact held i found
  | none =>
    refine ⟨.done (.error (undeclaredImage binding)), trivial, fun s frame _ => ?_⟩
    exact bind_eq_error (imageAt_eq_error (no_image_of_frame frame found))

/-! ## Questions -/

theorem scripted_resolve (label : String) (index : Int) (extent : Nat) :
    Scripted F fp me (resolve label index extent me) := by
  refine scripted_of_resolved (.ofIndex F.oobPolicy label index extent) id fun s frame _ => ?_
  simp only [resolve_eq, oobPolicy_of_frame frame]
  cases (Resolution.ofIndex F.oobPolicy label index extent).answer <;> rfl

theorem scripted_length (binding : Binding) : Scripted F fp me (length binding) := by
  refine scripted_bufferAt fun b found => ⟨.done (.ok b.length), trivial, fun s frame _ => ?_⟩
  obtain ⟨b', found', alike⟩ := buffer_of_frame frame found
  rw [bind_eq (bufferAt_eq found'), Buffer.length_of_frame alike]
  rfl

theorem scripted_imageSize (binding : Binding) : Scripted F fp me (imageSize binding) := by
  refine scripted_imageAt fun i found =>
    ⟨.done (.ok (i.width, i.height)), trivial, fun s frame _ => ?_⟩
  obtain ⟨i', found', alike⟩ := image_of_frame frame found
  rw [bind_eq (imageAt_eq found'), Image.width_of_frame alike, Image.height_of_frame alike]
  rfl

/-- An operation that begins by looking at what the frame tells. -/
theorem scripted_get {k : Store → StoreM α} (same : ∀ s : Store, s.frame = F.frame → k s = k F)
    (rest : Scripted F fp me (k F)) : Scripted F fp me (get >>= k) := by
  obtain ⟨p, obeys, ran⟩ := rest
  refine ⟨p, obeys, fun s frame proper => ?_⟩
  exact (congrFun (same s frame) s).trans (ran s frame proper)

theorem scripted_uniform (slot : Nat) (element : Option Int) :
    Scripted F fp me (uniform slot element me) := by
  refine scripted_get (fun s frame => ?_) ?_
  · have uniforms : s.frame.uniforms = F.frame.uniforms := by rw [frame]
    rw [show s.uniforms = F.uniforms from uniforms]
  · split
    · exact scripted_throw _
    · next u _ =>
      split
      · split
        · exact scripted_throw _
        · exact scripted_pure _
      · next index =>
        refine scripted_of_resolved (.ofIndex F.oobPolicy ("uniform `" ++ u.name ++ "`") index
          u.values.length) (fun i? => i?.elim (Value.zero u.ty) (u.values.getD · (Value.zero u.ty)))
          fun s frame _ => ?_
        simp only [bind, EStateM.bind, resolve_eq, oobPolicy_of_frame frame]
        generalize Resolution.ofIndex F.oobPolicy _ index u.values.length = r
        rcases r.answer with e | (_ | i) <;> rfl

theorem scripted_sample (sampler : Sampler) (binding : Binding) (r : SampleRequest) :
    Scripted F fp me (sample sampler binding r) := by
  refine scripted_get (fun s frame => ?_) ?_
  · have textures : s.frame.textures = F.frame.textures := by rw [frame]
    rw [show s.textures = F.textures from textures]
  · split
    · exact scripted_throw _
    · split
      · exact scripted_pure _
      · exact scripted_throw _

/-! ## Loads and stores -/

theorem scripted_read {binding : Binding} (index : Int) (loads : fp.loads binding) :
    Scripted F fp me (read binding index me) := by
  refine scripted_bufferAt fun b found => ?_
  refine scripted_loading (.ofIndex F.oobPolicy (b.label binding) index b.length)
    (Value.zero b.element) (⟨.buffer binding, ·⟩) (Value.ofBits b.element) (fun _ => loads)
    fun s frame _ => ?_
  obtain ⟨b', found', alike⟩ := buffer_of_frame frame found
  refine (read_eq found' me index).trans ?_
  rw [Buffer.label_of_frame alike, Buffer.length_of_frame alike, Buffer.element_of_frame alike,
    oobPolicy_of_frame frame]
  congr 1
  funext i
  rw [cell, found', Buffer.value, Buffer.element_of_frame alike]
  rfl

/-- The whole of a value of the element type may be stored everywhere. -/
theorem allows_whole {binding : Binding} {b : Buffer} {i : Nat}
    (found : F.buffers.get? binding = some b) {v : Value} (same : v.ty = b.element) :
    fp.Allows F (.store ⟨.buffer binding, i⟩ (.whole v.bits)) := by
  refine ⟨fun position w stored b' found' => ?_, .inl fun s frame proper => ?_⟩
  · obtain rfl : b = b' := Option.some.inj (found.symm.trans found')
    exact same ▸ v.holds_bits.2 w (List.mem_of_getElem? stored)
  · obtain ⟨b', found', alike⟩ := buffer_of_frame frame found
    intro position bound
    have held : (s.cell ⟨.buffer binding, i⟩).length ≤ v.bits.length := by
      rw [cell, found', v.length_bits, same, ← Buffer.element_of_frame alike]
      rcases Nat.lt_or_ge i b'.length with inside | outside
      · exact Nat.le_of_eq (proper.buffers binding b' found' i inside).1
      · simp [Buffer.bits_eq_nil outside]
    exact Patch.covers_whole position (Nat.lt_of_lt_of_le bound held)

theorem scripted_write {binding : Binding} (index : Int) (v : Value) :
    Scripted F fp me (write binding index v me) := by
  refine scripted_bufferAt fun b found => ?_
  by_cases same : v.ty = b.element
  · refine scripted_storing (.ofIndex F.oobPolicy (b.label binding) index b.length)
      (⟨.buffer binding, ·⟩) (.whole v.bits) (fun i _ => allows_whole found same)
      fun s frame proper => ⟨fun _ => .whole v.bits, fun _ _ => rfl, _, ?_, fun _ _ => rfl⟩
    obtain ⟨b', found', alike⟩ := buffer_of_frame frame found
    refine (write_eq proper found' me index v).trans ?_
    rw [Buffer.label_of_frame alike, Buffer.length_of_frame alike, Buffer.element_of_frame alike,
      oobPolicy_of_frame frame, if_pos same]
  · refine ⟨.done (.error (.typeMismatch (.store (b.label binding)) ⟨b.element.name, v.ty.name⟩)),
      trivial, fun s frame proper => ?_⟩
    obtain ⟨b', found', alike⟩ := buffer_of_frame frame found
    refine (write_eq proper found' me index v).trans ?_
    rw [Buffer.label_of_frame alike, Buffer.element_of_frame alike, if_neg same]
    rfl

theorem scripted_update {binding : Binding} (index : Int)
    {change : Value → Except EngineError Value} (parts : fp.parts binding)
    (patches : ∀ b, F.buffers.get? binding = some b → Patches b.element change) :
    Scripted F fp me (update binding index me change) := by
  refine scripted_bufferAt fun b found => ?_
  rcases patches b found with ⟨e, fails⟩ | ⟨patch, words, replaces⟩
  · refine scripted_of_resolving (.ofIndex F.oobPolicy (b.label binding) index b.length) ()
      (fun _ => .done (.error e)) (fun _ _ => trivial) fun s frame proper => ?_
    obtain ⟨b', found', alike⟩ := buffer_of_frame frame found
    refine ⟨updated b' binding change, ?_, fun i _ s' _ => ?_⟩
    · refine (update_eq proper found' me index change).trans ?_
      rw [Buffer.label_of_frame alike, Buffer.length_of_frame alike, oobPolicy_of_frame frame]
    · rw [updated, fails _ (Buffer.element_of_frame alike)]
      rfl
  · refine scripted_storing (.ofIndex F.oobPolicy (b.label binding) index b.length)
      (⟨.buffer binding, ·⟩) patch (fun i _ => ⟨fun position w stored b' found' => ?_, .inr parts⟩)
      fun s frame proper => ?_
    · obtain rfl : b = b' := Option.some.inj (found.symm.trans found')
      exact words position w stored
    · obtain ⟨b', found', alike⟩ := buffer_of_frame frame found
      have element := Buffer.element_of_frame alike
      choose new changed typed bits using fun i => replaces (b'.value i) element
      refine ⟨fun i => .whole (new i).bits, fun i inside => ?_, updated b' binding change, ?_,
        fun i _ => ?_⟩
      · have bound : i < b'.length := by
          rw [Buffer.length_of_frame alike]
          exact Resolution.index_lt inside
        have held := Value.bits_ofBits (proper.buffers binding b' found' i bound)
        rw [apply_whole proper found' ((typed i).trans element.symm) bound, bits i, cell, found']
        exact congrArg patch.apply held
      · refine (update_eq proper found' me index change).trans ?_
        rw [Buffer.label_of_frame alike, Buffer.length_of_frame alike, oobPolicy_of_frame frame]
      · rw [updated, changed i]
        exact if_pos ((typed i).trans element.symm)

theorem ofTexel_of_frame {i i' : Image} (alike : i'.frame = i.frame) (policy : OobPolicy)
    (binding : Binding) (x y : Int) :
    Resolution.ofTexel policy i' binding x y = Resolution.ofTexel policy i binding x y := by
  have position : i'.position = i.position := by
    funext x y
    rw [Image.position, Image.position, Image.width_of_frame alike]
  simp only [Resolution.ofTexel, Image.label_of_frame alike, Image.width_of_frame alike,
    Image.height_of_frame alike, position]

theorem scripted_imageLoad (binding : Binding) (x y : Int) :
    Scripted F fp me (imageLoad binding x y me) := by
  refine scripted_imageAt fun i found => ?_
  refine scripted_loading (.ofTexel F.oobPolicy i binding x y) (Value.zero i.format.loadType)
    (⟨.image binding, ·⟩) (fun words => i.format.decode (words.flatMap LittleEndian.bytes))
    (fun _ => trivial) fun s frame proper => ?_
  obtain ⟨i', found', alike⟩ := image_of_frame frame found
  refine (imageLoad_eq found' me x y).trans ?_
  rw [ofTexel_of_frame alike, Image.format_of_frame alike, oobPolicy_of_frame frame]
  congr 1
  funext t
  rw [cell, found', ← (proper.images binding i' found').flatMap_words t]
  rfl

/-- The bytes of a texel's format may be stored everywhere. -/
theorem allows_whole_texel {binding : Binding} {i : Image} {t : Nat}
    (found : F.images.get? binding = some i) {bytes : List UInt8}
    (size : bytes.length = i.format.texelSize) :
    fp.Allows F (.store ⟨.image binding, t⟩ (.whole (LittleEndian.words bytes))) := by
  refine ⟨fun _ _ _ => trivial, .inl fun s frame proper => ?_⟩
  obtain ⟨i', found', alike⟩ := image_of_frame frame found
  intro position bound
  have held : (s.cell ⟨.image binding, t⟩).length ≤ (LittleEndian.words bytes).length := by
    rw [cell, found', LittleEndian.length_words, size, ← Image.format_of_frame alike]
    show (LittleEndian.words (i'.bytes t)).length ≤ _
    rw [LittleEndian.length_words]
    rcases Nat.lt_or_ge t i'.texels.size with inside | outside
    · exact Nat.le_of_eq (congrArg (· / 4) ((proper.images binding i' found').2 t inside))
    · simp [Image.bytes_eq_nil outside]
  exact Patch.covers_whole position (Nat.lt_of_lt_of_le bound held)

theorem scripted_imageStore (binding : Binding) (x y : Int) (v : Value) :
    Scripted F fp me (imageStore binding x y v me) := by
  refine scripted_imageAt fun i found => ?_
  cases encoded : i.format.encode v with
  | error e =>
    refine ⟨.done (.error (.typeMismatch (.imageStore binding) e)), trivial,
      fun s frame proper => ?_⟩
    obtain ⟨i', found', alike⟩ := image_of_frame frame found
    refine (imageStore_eq proper found' me x y v).trans ?_
    rw [Image.format_of_frame alike, encoded]
    rfl
  | ok bytes =>
    have size := i.format.length_encode encoded
    refine scripted_storing (.ofTexel F.oobPolicy i binding x y) (⟨.image binding, ·⟩)
      (.whole (LittleEndian.words bytes)) (fun t _ => allows_whole_texel found size)
      fun s frame proper => ⟨fun _ => .whole _, fun _ _ => rfl, _, ?_, fun _ _ => rfl⟩
    obtain ⟨i', found', alike⟩ := image_of_frame frame found
    refine (imageStore_eq proper found' me x y v).trans ?_
    rw [Image.format_of_frame alike, encoded, ofTexel_of_frame alike, oobPolicy_of_frame frame]

end Store

end ComputeShader
