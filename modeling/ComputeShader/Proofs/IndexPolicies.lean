import ComputeShader.Proofs.DispatchSteps
import ComputeShader.Proofs.ScheduleIndependence
import ComputeShader.Proofs.SeededStores

/-! # The policies for indices out of bounds

Whatever an index out of bounds decides, it is noted. So a dispatch without such a note took nowhere a
turn that depends on the policy, and under another policy it runs to the same store.
-/

namespace ComputeShader

namespace Store

variable {s : Store} {policy : OobPolicy}

/-- The store under another policy for indices out of bounds. -/
def underPolicy (s : Store) (policy : OobPolicy) : Store := { s with oobPolicy := policy }

theorem perform_underPolicy (me : InvocationId) (e : Effect) :
    (s.underPolicy policy).perform me e = (s.perform me e).underPolicy policy := by
  cases e with
  | note kind message => rfl
  | load place =>
    obtain ⟨_ | _, _⟩ := place <;> rfl
  | store place patch =>
    obtain ⟨_ | _, _⟩ := place <;> rfl
  | atomic place change =>
    obtain ⟨_ | _, _⟩ := place <;> rfl

theorem performAll_underPolicy (me : InvocationId) (effects : List Effect) :
    (s.underPolicy policy).performAll me effects = (s.performAll me effects).underPolicy policy := by
  induction effects generalizing s with
  | nil => rfl
  | cons e rest ih =>
    have first : ((s.underPolicy policy).perform me e).performAll me rest =
        ((s.perform me e).underPolicy policy).performAll me rest := by rw [perform_underPolicy]
    exact first.trans ih

theorem drained_underPolicy : (s.underPolicy policy).drained = s.drained.underPolicy policy := by
  have reporting (conflicts : List Conflict) (s : Store) :
      conflicts.foldl reportRace (s.underPolicy policy) =
        (conflicts.foldl reportRace s).underPolicy policy := by
    induction conflicts generalizing s with
    | nil => rfl
    | cons c rest ih => exact ih (s.reportRace c)
  have same := reporting s.conflicts s
  have conflicts : (s.underPolicy policy).conflicts = s.conflicts := rfl
  rw [drained, drained, conflicts, same]
  rfl

/-! ## Stores set up alike -/

/-- What an operation comes to, with the store under another policy. -/
def resultUnder {α : Type} (policy : OobPolicy) :
    EStateM.Result EngineError Store α → EStateM.Result EngineError Store α
  | .ok a s => .ok a (s.underPolicy policy)
  | .error e s => .error e (s.underPolicy policy)

/-- Whether an operation does not look at the policy for indices out of bounds. -/
def Blind {α : Type} (x : StoreM α) : Prop :=
  ∀ s policy, x (s.underPolicy policy) = resultUnder policy (x s)

section Blind

variable {α β : Type} {x : StoreM α}

theorem blind_pure (a : α) : Blind (pure a) := fun _ _ => rfl

theorem blind_throw (e : EngineError) : Blind (throw e : StoreM α) := fun _ _ => rfl

theorem blind_modify {f : Store → Store}
    (same : ∀ s policy, f (s.underPolicy policy) = (f s).underPolicy policy) : Blind (modify f) :=
  fun s policy => congrArg (EStateM.Result.ok ()) (same s policy)

theorem Blind.bind {k : α → StoreM β} (first : Blind x) (next : ∀ a, Blind (k a)) :
    Blind (x >>= k) := by
  intro s policy
  cases ran : x s with
  | ok a s' =>
    have ran' := first s policy
    rw [ran] at ran'
    rw [bind_eq ran, bind_eq ran']
    exact next a s' policy
  | error e s' =>
    have ran' := first s policy
    rw [ran] at ran'
    rw [bind_eq_error ran, bind_eq_error ran']
    rfl

/-- An operation that begins by looking at the store, but not at the policy. -/
theorem blind_get {k : Store → StoreM α} (same : ∀ s policy, k (s.underPolicy policy) = k s)
    (next : ∀ s, Blind (k s)) : Blind (get >>= k) := by
  intro s policy
  rw [get_bind, get_bind, same]
  exact next s s policy

theorem blind_modifyBuffer (binding : Binding) (f : Buffer → Buffer) :
    Blind (modifyBuffer binding f) :=
  blind_modify fun _ _ => rfl

theorem blind_modifyImage (binding : Binding) (f : Image → Image) : Blind (modifyImage binding f) :=
  blind_modify fun _ _ => rfl

theorem blind_seedBufferAt (binding : Binding) : Blind (seedBufferAt binding) := by
  refine blind_get (fun _ _ => rfl) fun s => ?_
  split
  · exact blind_pure _
  · exact blind_throw _

theorem blind_seedImageAt (binding : Binding) : Blind (seedImageAt binding) := by
  refine blind_get (fun _ _ => rfl) fun s => ?_
  split
  · exact blind_pure _
  · exact blind_throw _

/-- No seeding operation looks at the policy. -/
theorem blind_seeding (call : Seeding) : Blind call.run := by
  cases call with
  | allocateBuffer binding length =>
    exact (blind_seedBufferAt binding).bind fun b => blind_modifyBuffer binding _
  | element binding index v =>
    refine (blind_seedBufferAt binding).bind fun b => ?_
    dsimp only
    split
    · exact blind_throw _
    split
    · exact blind_throw _
    · exact blind_modifyBuffer binding _
  | allocateImage binding width height =>
    exact (blind_seedImageAt binding).bind fun i => blind_modifyImage binding _
  | texel binding x y bytes =>
    refine (blind_seedImageAt binding).bind fun i => ?_
    dsimp only
    split
    · exact blind_throw _
    split
    · exact blind_throw _
    · exact blind_modifyImage binding _
  | texture binding t =>
    refine blind_get (fun _ _ => rfl) fun s => ?_
    split
    · exact blind_modify fun _ _ => rfl
    · exact blind_throw _
  | uniform slot values =>
    refine blind_get (fun _ _ => rfl) fun s => ?_
    split
    · exact blind_throw _
    split
    · exact blind_throw _
    · exact blind_modify fun _ _ => rfl

end Blind

end Store

/-- Two stores of a shader that are created and set up alike, but for the policy for indices out of
bounds. -/
inductive SeededAlike (shader : Shader) : Store → Store → Prop where
  | created (config : EngineConfig) (policy : OobPolicy) :
      SeededAlike shader (.create shader config) (.create shader { config with oobPolicy := policy })
  | seeded {s s' t t' : Store} (call : Seeding) (before : SeededAlike shader s t)
      (ran : call.run s = .ok () s') (ran' : call.run t = .ok () t') : SeededAlike shader s' t'
  | filledBuffer {s s' t t' : Store} (binding : Binding) (v : Value) (before : SeededAlike shader s t)
      (typed : ∀ b, s.buffers.get? binding = some b → v.ty = b.element)
      (ran : Store.fillBuffer binding v s = .ok () s')
      (ran' : Store.fillBuffer binding v t = .ok () t') : SeededAlike shader s' t'
  | filledImage {s s' t t' : Store} (binding : Binding) (bytes : List UInt8)
      (before : SeededAlike shader s t)
      (sized : ∀ i, s.images.get? binding = some i → bytes.length = i.format.texelSize)
      (ran : Store.fillImage binding bytes s = .ok () s')
      (ran' : Store.fillImage binding bytes t = .ok () t') : SeededAlike shader s' t'

theorem SeededAlike.seeded_left {shader : Shader} {s t : Store} (alike : SeededAlike shader s t) :
    Seeded shader s := by
  induction alike with
  | created config policy => exact .created config
  | seeded call before ran ran' ih => exact .seeded call ih ran
  | filledBuffer binding v before typed ran ran' ih => exact .filledBuffer binding v ih typed ran
  | filledImage binding bytes before sized ran ran' ih => exact .filledImage binding bytes ih sized ran

/-- Stores set up alike differ in the policy alone. -/
theorem SeededAlike.eq_underPolicy {shader : Shader} {s t : Store} (alike : SeededAlike shader s t) :
    t = s.underPolicy t.oobPolicy := by
  have differ : ∃ policy, t = s.underPolicy policy := by
    induction alike with
    | created config policy => exact ⟨policy, rfl⟩
    | seeded call before ran ran' ih =>
      obtain ⟨policy, rfl⟩ := ih
      rw [Store.blind_seeding call, ran] at ran'
      cases ran'
      exact ⟨policy, rfl⟩
    | filledBuffer binding v before typed ran ran' ih =>
      obtain ⟨policy, rfl⟩ := ih
      cases ran
      cases ran'
      exact ⟨policy, rfl⟩
    | filledImage binding bytes before sized ran ran' ih =>
      obtain ⟨policy, rfl⟩ := ih
      cases ran
      cases ran'
      exact ⟨policy, rfl⟩
  obtain ⟨policy, rfl⟩ := differ
  rfl

namespace Dispatcher

variable {d : Dispatcher} {s t final : Store} {policy : OobPolicy}

/-- A dispatch that ends without a note of an index out of bounds runs alike under every policy. -/
theorem runAll_underPolicy {order : List Invocation} (proper : s.WellFormed)
    (ran : d.runAll s order = .ok final) (inside : ¬ final.diagnostics.Mentions .outOfBounds) :
    d.runAll (s.underPolicy policy) order = .ok (final.underPolicy policy) ∧
      ¬ s.diagnostics.Mentions .outOfBounds := by
  induction order generalizing s with
  | nil =>
    cases ran
    exact ⟨rfl, inside⟩
  | cons i rest ih =>
    obtain ⟨effects, answer, finishes⟩ := (d.context i).exists_finishesBy proper
    rw [runAll, List.foldlM_cons, runOne_eq_of_finishesBy finishes rfl (.inl rfl)] at ran
    cases answer with
    | some e => cases ran
    | none =>
      cases settled : settle d.config.racePolicy (s.performAll i.id effects) with
      | error e =>
        rw [conclude, settled] at ran
        cases ran
      | ok next =>
        rw [conclude, settled] at ran
        obtain ⟨accepts, rfl⟩ := settle_eq_ok.1 settled
        have proper' := (finishes.wellFormed proper).of_contents Store.contents_drained
        obtain ⟨later, unmentioned⟩ := ih proper' ran
        rw [Store.mentions_drained (by decide), Store.mentions_performAll, not_or] at unmentioned
        obtain ⟨unnoted, before⟩ := unmentioned
        have unnoted : ∀ e ∈ effects, e.noted? ≠ some .outOfBounds := fun e member noted =>
          unnoted ⟨e, member, noted⟩
        have settled' : settle d.config.racePolicy ((s.underPolicy policy).performAll i.id effects) =
            .ok ((s.performAll i.id effects).drained.underPolicy policy) := by
          rw [Store.performAll_underPolicy, settle_eq_ok, Store.drained_underPolicy]
          exact ⟨accepts, rfl⟩
        have same : (s.underPolicy policy).contents = s.contents := rfl
        have step : d.runOne (s.underPolicy policy) i =
            .ok ((s.performAll i.id effects).drained.underPolicy policy) :=
          (runOne_eq_of_finishesBy finishes same (.inr unnoted)).trans settled'
        refine ⟨?_, before⟩
        rw [runAll, List.foldlM_cons, step]
        exact later

/-- The policy for indices out of bounds matters to no dispatch but one that goes out of bounds. -/
theorem index_policy_immaterial {order : List Invocation} {snapshot : Snapshot}
    (alike : SeededAlike d.shader s t)
    (accepts : (d.runAll s order).map Store.freeze = .ok snapshot)
    (inside : ¬ snapshot.diagnostics.Mentions .outOfBounds) (policy : OobPolicy) :
    let other : Dispatcher := { d with config := { d.config with oobPolicy := policy } }
    (other.runAll t order).map Store.freeze = .ok snapshot := by
  intro other
  cases ran : d.runAll s order with
  | error e =>
    rw [ran] at accepts
    cases accepts
  | ok final =>
    rw [ran] at accepts
    cases accepts
    have proper := alike.seeded_left.fresh.wellFormed
    have runs : other.runAll (s.underPolicy t.oobPolicy) order =
        .ok (final.underPolicy t.oobPolicy) :=
      (runAll_underPolicy proper ran fun mentioned =>
        inside (Diagnostics.mentions_normalize.2 mentioned)).1
    rw [alike.eq_underPolicy, runs]
    rfl

/-- `P[1][i] = Q[i].x + 1u;`, reporting races. -/
def spreading : Dispatcher :=
  { pairs
      [.assign 1 [⟨.bufferElement 0 (.literal ⟨1, 1⟩ (.uint 1)), [.subscript localIndex]⟩]
        (.binary ⟨1, 1⟩ .add (.swizzle ⟨1, 1⟩ (.bufferElement ⟨1, 1⟩ 1 localIndex) [0])
          (.literal ⟨1, 1⟩ (.uint 1)))]
    with config := { bufferLength := 2, racePolicy := .report } }

/-- Two stores with the same seed run to the same snapshot, races included. -/
theorem index_policy_immaterial_spreading :
    let pair : Value := Value.ofBits (.vector .uint .two) [4, 0]
    let strict : Dispatcher :=
      { spreading with config := { spreading.config with oobPolicy := .fault } }
    let seeded (config : EngineConfig) : Store :=
      Store.left (Store.seedElement 1 1 pair (Store.create spreading.shader config))
    let order := invocations spreading.shader.localSize ⟨1, 1, 1⟩
    ∃ snapshot, SeededAlike spreading.shader (seeded spreading.config) (seeded strict.config) ∧
      (spreading.runAll (seeded spreading.config) order).map Store.freeze = .ok snapshot ∧
      snapshot.diagnostics.count .raceDetected = 1 ∧
      (strict.runAll (seeded strict.config) order).map Store.freeze = .ok snapshot := by
  intro pair strict seeded order
  have alike : SeededAlike spreading.shader (seeded spreading.config) (seeded strict.config) :=
    .seeded (.element 1 1 pair) (.created spreading.config .fault) rfl rfl
  have runs : (spreading.runAll (seeded spreading.config) order).toOption.any fun final =>
      final.diagnostics.all (fun n => n.kind ≠ .outOfBounds) &&
        final.diagnostics.count .raceDetected == 1 := by
    decide +kernel
  obtain ⟨final, ran, counts⟩ := exists_ok runs
  obtain ⟨inside, races⟩ := Bool.and_eq_true_iff.1 counts
  have accepts : (spreading.runAll (seeded spreading.config) order).map Store.freeze =
      .ok final.freeze := by rw [ran]; rfl
  have unmentioned : ¬ final.freeze.diagnostics.Mentions .outOfBounds := by
    intro mentioned
    obtain ⟨n, member, kind⟩ := Diagnostics.mentions_normalize.1 mentioned
    exact of_decide_eq_true (List.all_eq_true.1 inside n member) kind
  refine ⟨final.freeze, alike, accepts, Diagnostics.count_normalize.trans (eq_of_beq races), ?_⟩
  exact index_policy_immaterial alike accepts unmentioned .fault

end Dispatcher

end ComputeShader
