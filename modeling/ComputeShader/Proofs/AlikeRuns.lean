import ComputeShader.Proofs.HiddenContents

/-! # Runs on stores that are alike

A call that neither loads hidden elements nor stores to parts of them answers the same on stores that are
alike, and leaves them alike. So does a run that makes no other calls: it takes the same turns and ends with
the same error or none.
-/

namespace ComputeShader

/-! ## Calls on stores that are alike -/

/-- Whether two runs end with the same answer or the same error, and in related states. -/
inductive Agree {ε σ α : Type} (R : σ → σ → Prop) :
    EStateM.Result ε σ α → EStateM.Result ε σ α → Prop where
  | ok (a : α) {s s' : σ} (related : R s s') : Agree R (.ok a s) (.ok a s')
  | error (e : ε) {s s' : σ} (related : R s s') : Agree R (.error e s) (.error e s')

namespace Store

variable {hidden : Resource → Prop} {s s' : Store} {m m' : Memory} {me : InvocationId} {α : Type}

theorem Alike.outcome (alike : s.Alike hidden m m' s') (answer : Except EngineError α) :
    Agree (Alike hidden m m') (s.outcome answer) (s'.outcome answer) := by
  cases answer with
  | ok a => exact .ok a alike
  | error e => exact .error e alike

/-- Discreet effects on the place that an index stands for keep stores alike. -/
theorem Alike.touching (alike : s.Alike hidden m m' s') (r : Resolution) (dropped : α)
    {access : Nat → Except EngineError (Effect × α)}
    (discreet : ∀ i e a, r.index? = some i → access i = .ok (e, a) →
      e.Admitted s ∧ e.Discreet hidden s) :
    Agree (Alike hidden m m') (s.touching me r dropped access) (s'.touching me r dropped access) := by
  have noted := alike.notes me r
  unfold Store.touching
  split
  · next e _ => exact .error e noted
  · exact .ok dropped noted
  · next i answer =>
    cases accessed : access i with
    | error e => exact .error e noted
    | ok result =>
      obtain ⟨e, a⟩ := result
      obtain ⟨admitted, quiet⟩ := discreet i e a (Resolution.index?_eq_some.2 answer) accessed
      dsimp only
      rw [performAll_concat, performAll_concat]
      have frame : (s.performAll me r.notes).frame = s.frame := frame_performAll
      refine .ok a (noted.perform ((admitted_congr frame).2 admitted) ?_)
      unfold Effect.Discreet at quiet ⊢
      rwa [cell_performAll_notes]

end Store

/-- Whether a call neither loads from hidden resources nor stores to parts of their elements. -/
structure StoreCall.Discreet (hidden : Resource → Prop) (call : StoreCall) : Prop where
  loads : call.Loads → ¬ hidden call.resource
  parts : ∀ binding index change, call = .update binding index change → ¬ hidden (.buffer binding)

namespace Store

variable {hidden : Resource → Prop} {s s' : Store} {m m' : Memory} {me : InvocationId}

/-- Whole values of the element type cover elements. -/
theorem WellFormed.covers_element (proper : s.WellFormed) {binding : Binding} {b : Buffer}
    (found : s.buffers.get? binding = some b) {v : Value} (typed : v.ty = b.element) {i : Nat}
    (inside : i < b.length) :
    (Patch.whole v.bits).Covers (s.cell ⟨.buffer binding, i⟩).length :=
  proper.length_bits_eq found typed inside ▸ Patch.covers_whole

/-- The bytes of a format cover texels. -/
theorem WellFormed.covers_texel (proper : s.WellFormed) {binding : Binding} {i : Image}
    (found : s.images.get? binding = some i) {bytes : List UInt8}
    (size : bytes.length = i.format.texelSize) {t : Nat} (inside : t < i.width.toNat * i.height.toNat) :
    (Patch.whole (LittleEndian.words bytes)).Covers (s.cell ⟨.image binding, t⟩).length :=
  proper.length_words_eq found size inside ▸ Patch.covers_whole

/-! ### Resources that are not there -/

/-- Whether a store has no such resource. -/
def Lacks (s : Store) : Resource → Prop
  | .buffer binding => s.buffers.get? binding = none
  | .image binding => s.images.get? binding = none

theorem lacks_of_frame {r : Resource} (frame : s'.frame = s.frame) (lacks : s.Lacks r) : s'.Lacks r := by
  cases r with
  | buffer binding => exact no_buffer_of_frame frame lacks
  | image binding => exact no_image_of_frame frame lacks

/-- A call that uses what is not declared fails with the same error on all stores. -/
theorem run_of_lacks (call : StoreCall) (me : InvocationId) :
    ∃ e, ∀ s : Store, s.Lacks call.resource → call.run me s = .error e s := by
  cases call with
  | read | write | update | atomic =>
    exact ⟨undeclaredBuffer _, fun s lacks => bind_eq_error (bufferAt_eq_error lacks)⟩
  | imageLoad | imageStore | imageAtomicAdd =>
    exact ⟨undeclaredImage _, fun s lacks => bind_eq_error (imageAt_eq_error lacks)⟩

/-! ### Buffers -/

section Buffers

variable {binding : Binding} {b : Buffer}

theorem Alike.read (alike : s.Alike hidden m m' s') (visible : ¬ hidden (.buffer binding))
    (found : s.buffers.get? binding = some b) (index : Int) :
    Agree (Alike hidden m m') (Store.read binding index me s) (Store.read binding index me s') := by
  have found' : s'.buffers.get? binding = some b := (alike.retains.buffer visible).trans found
  rw [read_eq found, read_eq found', oobPolicy_of_frame alike.retains.frame]
  refine alike.touching _ _ fun i e a _ accessed => ?_
  cases accessed
  exact ⟨trivial, visible⟩

theorem Alike.write (alike : s.Alike hidden m m' s') (found : s.buffers.get? binding = some b)
    (index : Int) (v : Value) :
    Agree (Alike hidden m m') (Store.write binding index v me s)
      (Store.write binding index v me s') := by
  have frame := alike.retains.frame
  obtain ⟨b', found', same⟩ := buffer_of_frame frame found
  rw [write_eq alike.proper found, write_eq alike.retains.wellFormed found', oobPolicy_of_frame frame,
    Buffer.element_of_frame same, Buffer.label_of_frame same, Buffer.length_of_frame same]
  split
  · next typed =>
    refine alike.touching _ _ fun i e a inside accessed => ?_
    cases accessed
    exact ⟨admitted_whole found typed, fun _ =>
      alike.proper.covers_element found typed (Resolution.index_lt inside)⟩
  · exact .error _ alike

theorem Alike.update (alike : s.Alike hidden m m' s') (visible : ¬ hidden (.buffer binding))
    (found : s.buffers.get? binding = some b) (index : Int)
    (change : Value → Except EngineError Value) :
    Agree (Alike hidden m m') (Store.update binding index me change s)
      (Store.update binding index me change s') := by
  have found' : s'.buffers.get? binding = some b := (alike.retains.buffer visible).trans found
  rw [update_eq alike.proper found, update_eq alike.retains.wellFormed found',
    oobPolicy_of_frame alike.retains.frame]
  refine alike.touching _ _ fun i e a _ accessed => ?_
  rw [updated] at accessed
  split at accessed
  · cases accessed
  · split at accessed
    · next typed =>
      cases accessed
      exact ⟨admitted_whole found typed, fun member => (visible member).elim⟩
    · cases accessed

theorem Alike.atomic (alike : s.Alike hidden m m' s') (visible : ¬ hidden (.buffer binding))
    (found : s.buffers.get? binding = some b) (op : AtomicOp) (index : Int) (operands : List Value) :
    Agree (Alike hidden m m') (Store.atomic op binding index operands me s)
      (Store.atomic op binding index operands me s') := by
  have found' : s'.buffers.get? binding = some b := (alike.retains.buffer visible).trans found
  rcases atomic_eq binding b op index operands me with ⟨e, -, fails⟩ | ⟨change, integer, runs⟩
  · rw [fails s found, fails s' found']
    exact .error _ alike
  · rw [runs s alike.proper found, runs s' alike.retains.wellFormed found',
      oobPolicy_of_frame alike.retains.frame]
    refine alike.touching _ _ fun i e a _ accessed => ?_
    cases accessed
    exact ⟨admitted_atomic found integer, visible⟩

end Buffers

/-! ### Images -/

section Images

variable {binding : Binding} {i : Image}

theorem Alike.imageLoad (alike : s.Alike hidden m m' s') (visible : ¬ hidden (.image binding))
    (found : s.images.get? binding = some i) (x y : Int) :
    Agree (Alike hidden m m') (Store.imageLoad binding x y me s)
      (Store.imageLoad binding x y me s') := by
  have found' : s'.images.get? binding = some i :=
    (alike.retains.image alike.proper visible).trans found
  rw [imageLoad_eq found, imageLoad_eq found', oobPolicy_of_frame alike.retains.frame]
  refine alike.touching _ _ fun t e a _ accessed => ?_
  cases accessed
  exact ⟨trivial, visible⟩

theorem Alike.imageStore (alike : s.Alike hidden m m' s') (found : s.images.get? binding = some i)
    (x y : Int) (v : Value) :
    Agree (Alike hidden m m') (Store.imageStore binding x y v me s)
      (Store.imageStore binding x y v me s') := by
  have frame := alike.retains.frame
  obtain ⟨i', found', same⟩ := image_of_frame frame found
  rw [imageStore_eq alike.proper found, imageStore_eq alike.retains.wellFormed found',
    oobPolicy_of_frame frame, Image.format_of_frame same, ofTexel_of_frame same]
  cases encoded : i.format.encode v with
  | error e => exact .error _ alike
  | ok bytes =>
    refine alike.touching _ _ fun t e a inside accessed => ?_
    cases accessed
    exact ⟨fun _ _ _ => trivial, fun _ =>
      alike.proper.covers_texel found (i.format.length_encode encoded) (Resolution.texel_lt inside)⟩

theorem Alike.imageAtomicAdd (alike : s.Alike hidden m m' s') (visible : ¬ hidden (.image binding))
    (found : s.images.get? binding = some i) (x y : Int) (v : Value) :
    Agree (Alike hidden m m') (Store.imageAtomicAdd binding x y v me s)
      (Store.imageAtomicAdd binding x y v me s') := by
  have found' : s'.images.get? binding = some i :=
    (alike.retains.image alike.proper visible).trans found
  rw [imageAtomicAdd_eq alike.proper found, imageAtomicAdd_eq alike.retains.wellFormed found',
    oobPolicy_of_frame alike.retains.frame]
  split
  · exact .error _ alike
  split
  · exact .error _ alike
  · refine alike.touching _ _ fun t e a _ accessed => ?_
    cases accessed
    exact ⟨fun _ => trivial, visible⟩

end Images

/-- A discreet call keeps stores alike and answers the same on both. -/
theorem Alike.call (alike : s.Alike hidden m m' s') (me : InvocationId) {call : StoreCall}
    (discreet : call.Discreet hidden) :
    Agree (Alike hidden m m') (call.run me s) (call.run me s') := by
  by_cases lacks : s.Lacks call.resource
  · obtain ⟨e, fails⟩ := run_of_lacks call me
    rw [fails s lacks, fails s' (lacks_of_frame alike.retains.frame lacks)]
    exact .error e alike
  cases call with
  | read binding index =>
    obtain ⟨b, found⟩ := Option.ne_none_iff_exists'.1 lacks
    exact alike.read (discreet.loads trivial) found index
  | write binding index v =>
    obtain ⟨b, found⟩ := Option.ne_none_iff_exists'.1 lacks
    exact alike.write found index v
  | update binding index change =>
    obtain ⟨b, found⟩ := Option.ne_none_iff_exists'.1 lacks
    exact alike.update (discreet.parts binding index change rfl) found index change
  | atomic op binding index operands =>
    obtain ⟨b, found⟩ := Option.ne_none_iff_exists'.1 lacks
    exact alike.atomic (discreet.loads trivial) found op index operands
  | imageLoad binding x y =>
    obtain ⟨i, found⟩ := Option.ne_none_iff_exists'.1 lacks
    exact alike.imageLoad (discreet.loads trivial) found x y
  | imageStore binding x y v =>
    obtain ⟨i, found⟩ := Option.ne_none_iff_exists'.1 lacks
    exact alike.imageStore found x y v
  | imageAtomicAdd binding x y v =>
    obtain ⟨i, found⟩ := Option.ne_none_iff_exists'.1 lacks
    exact alike.imageAtomicAdd (discreet.loads trivial) found x y v

end Store

/-! ## Runs and dispatches -/

/-- Whether two states of a run agree but for what their stores hide. -/
structure RunState.Alike (hidden : Resource → Prop) (m m' : Memory) (s s' : RunState) : Prop where
  store : s.store.Alike hidden m m' s'.store
  locals : s'.locals = s.locals
  steps : s'.steps = s.steps

namespace RunContext

variable {c : RunContext} {hidden : Resource → Prop} {m m' : Memory} {α : Type}

/-- An operation on alike stores, as a part of a run. -/
theorem agree_onStore {y : StoreM α} {s s' : RunState} (alike : s.Alike hidden m m' s')
    (agree : Agree (Store.Alike hidden m m') (y s.store) (y s'.store)) :
    Agree (RunState.Alike hidden m m') (onStore y s) (onStore y s') := by
  unfold onStore
  generalize y s.store = result at agree
  generalize y s'.store = result' at agree
  cases agree with
  | ok a related => exact .ok a ⟨related, alike.locals, alike.steps⟩
  | error e related => exact .error e ⟨related, alike.locals, alike.steps⟩

/-- Two runs of discreet calls on alike states keep together. -/
theorem Confined.agree {x : RunM α} (confined : c.Confined (StoreCall.Discreet hidden) x)
    {s s' : RunState} (alike : s.Alike hidden m m' s') :
    Agree (RunState.Alike hidden m m') (x s) (x s') := by
  induction confined generalizing s s' with
  | pure a => exact .ok a alike
  | @bind_of _ _ x k Q first gives next ih ih' =>
    have together := ih alike
    simp only [bind, EStateM.bind]
    generalize ran : x s = result at together
    generalize x s' = result' at together
    cases together with
    | ok a related => exact ih' a (gives s a _ ran) related
    | error e related => exact .error e related
  | step =>
    rw [step_eq, step_eq, alike.steps]
    split
    · exact .error _ ⟨alike.store, alike.locals, rfl⟩
    · exact .ok () ⟨alike.store, alike.locals, rfl⟩
  | fail e => exact .error e alike
  | @loadLocal _ slot k next ih =>
    have same : s'.locals.getD slot default = s.locals.getD slot default := by rw [alike.locals]
    change Agree _ (k (s.locals.getD slot default) s) (k (s'.locals.getD slot default) s')
    rw [same]
    exact ih _ alike
  | storeLocal slot v => exact .ok () ⟨alike.store, congrArg (·.set slot v) alike.locals, alike.steps⟩
  | aside operation =>
    refine agree_onStore alike ?_
    obtain ⟨r, answer, ran⟩ := operation.eq s.store
    rw [ran s.store rfl, ran s'.store alike.store.retains.frame]
    exact (alike.store.notes c.me r).outcome answer
  | call call discreet => exact agree_onStore alike (alike.store.call c.me discreet)

/-- An invocation ends alike on alike stores. -/
theorem finish_alike {s s' : Store}
    (confined : c.Confined (StoreCall.Discreet hidden) (c.execAll c.shader.body))
    (alike : s.Alike hidden m m' s') :
    (c.finish s').1 = (c.finish s).1 ∧ (c.finish s).2.Alike hidden m m' (c.finish s').2 := by
  have started : (c.start s).Alike hidden m m' (c.start s') := ⟨alike, rfl, rfl⟩
  have together := confined.agree started
  unfold finish run
  generalize c.execAll c.shader.body (c.start s) = result at together
  generalize c.execAll c.shader.body (c.start s') = result' at together
  cases together with
  | ok a related => exact ⟨rfl, related.store⟩
  | @error e final final' related =>
    have name : final'.store.shader = final.store.shader :=
      Store.shader_of_frame related.store.retains.frame
    dsimp only
    split
    · refine ⟨rfl, ?_⟩
      rw [Store.recordFault, Store.recordFault, name]
      exact related.store.record e.kind (e.message final.store.shader) c.me
    · exact ⟨rfl, related.store⟩

end RunContext

end ComputeShader
