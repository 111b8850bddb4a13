import ComputeShader.Proofs.EmptyResources
import ComputeShader.Proofs.StoreOperations

/-! # Operations that fail

An operation checks everything before it changes anything. The order of its parts shows it: first what only
looks at the store, then bringing an index into range, which notes something only if it succeeds, and last
what cannot fail. So an operation that fails leaves the store as it was. A store to a part of an element is
the one that goes on to check after its index was brought into range, and so may leave a note behind.
-/

namespace ComputeShader

namespace Resolution

variable {policy : OobPolicy} {label : String} {index : Int} {extent : Nat} {e : EngineError}

/-- Only the policy `fault` refuses an index, and nothing is said about it. -/
theorem fault_of_failed (failed : (ofIndex policy label index extent).answer = .error e) :
    policy = .fault ∧ (ofIndex policy label index extent).messages = [] := by
  unfold ofIndex at failed ⊢
  split at failed
  · cases failed
  · next outside =>
    split at failed
    · cases failed
    · next some =>
      rw [if_neg outside, if_neg some]
      cases policy with
      | clampAndReport | discardAndReport => cases failed
      | fault => exact ⟨rfl, rfl⟩

/-- Under the policy `fault` nothing is said about an index that stands for a place. -/
theorem silent_of_found {i : Nat} (found : (ofIndex .fault label index extent).answer = .ok (some i)) :
    (ofIndex .fault label index extent).messages = [] := by
  unfold ofIndex at found ⊢
  split at found
  · next inside => rw [if_pos inside]
  · split at found <;> cases found

/-- Nothing is said about coordinates that are refused: the row is refused only after a column in range. -/
theorem silent_of_failed {i : Image} {binding : Binding} {x y : Int}
    (failed : (ofTexel policy i binding x y).answer = .error e) :
    (ofTexel policy i binding x y).messages = [] := by
  cases column : (ofIndex policy ("x coordinate of " ++ i.label binding) x i.width.toNat).answer with
  | error e' =>
    simp only [ofTexel, column]
    exact (fault_of_failed column).2
  | ok place? =>
    cases place? with
    | none =>
      simp only [ofTexel, column] at failed
      cases failed
    | some c =>
      simp only [ofTexel, column] at failed ⊢
      cases row : (ofIndex policy ("y coordinate of " ++ i.label binding) y i.height.toNat).answer with
      | ok place? =>
        rw [row] at failed
        cases failed
      | error e' =>
        obtain ⟨rfl, silent⟩ := fault_of_failed row
        rw [silent, silent_of_found column, List.append_nil]

end Resolution

namespace Store

variable {α β : Type}

/-- The error of a result that is one. -/
def failure? : EStateM.Result EngineError Store α → Option EngineError
  | .ok .. => none
  | .error e _ => some e

/-! ## Parts of operations -/

/-- Whether an operation leaves every store as it was. -/
def OnlyLooks (x : StoreM α) : Prop := ∀ s, left (x s) = s

/-- Whether an operation leaves the store as it was whenever it fails. -/
def FailsCleanly (x : StoreM α) : Prop := ∀ s e s', x s = .error e s' → s' = s

/-- Whether an operation succeeds on every store. -/
def NeverFails (x : StoreM α) : Prop := ∀ s, ∃ a s', x s = .ok a s'

variable {x : StoreM α} {k : α → StoreM β}

theorem OnlyLooks.failsCleanly (looks : OnlyLooks x) : FailsCleanly x := by
  intro s e s' failed
  have kept := looks s
  rwa [failed] at kept

theorem NeverFails.failsCleanly (never : NeverFails x) : FailsCleanly x := by
  intro s e s' failed
  obtain ⟨a, t, done⟩ := never s
  rw [failed] at done
  cases done

/-- What fails after a part that only looks fails as cleanly as the rest. -/
theorem OnlyLooks.bind (looks : OnlyLooks x) (next : ∀ a, FailsCleanly (k a)) :
    FailsCleanly (x >>= k) := by
  intro s e s' failed
  have kept := looks s
  cases ran : x s with
  | ok a t =>
    rw [ran] at kept
    obtain rfl : t = s := kept
    exact next a t e s' ((bind_eq ran).symm.trans failed)
  | error e' t =>
    rw [ran] at kept
    cases (bind_eq_error ran).symm.trans failed
    exact kept

/-- What cannot fail may follow anything that fails cleanly. -/
theorem FailsCleanly.bind (first : FailsCleanly x) (next : ∀ a, NeverFails (k a)) :
    FailsCleanly (x >>= k) := by
  intro s e s' failed
  cases ran : x s with
  | ok a t =>
    obtain ⟨b, t', done⟩ := next a t
    cases ((bind_eq ran).trans done).symm.trans failed
  | error e' t =>
    cases (bind_eq_error ran).symm.trans failed
    exact first s e s' ran

theorem NeverFails.bind (first : NeverFails x) (next : ∀ a, NeverFails (k a)) :
    NeverFails (x >>= k) := by
  intro s
  obtain ⟨a, t, ran⟩ := first s
  obtain ⟨b, t', done⟩ := next a t
  exact ⟨b, t', (bind_eq ran).trans done⟩

theorem onlyLooks_pure (a : α) : OnlyLooks (pure a) := fun _ => rfl

theorem onlyLooks_get : OnlyLooks get := fun _ => rfl

theorem onlyLooks_throw (e : EngineError) : OnlyLooks (throw e : StoreM α) := fun _ => rfl

theorem neverFails_pure (a : α) : NeverFails (pure a) := fun s => ⟨a, s, rfl⟩

theorem neverFails_modify (f : Store → Store) : NeverFails (modify f) := fun s => ⟨(), f s, rfl⟩

theorem Stateless.onlyLooks {site : AccessSite} {P : TypeError → Prop} {Q : α → Prop}
    (stateless : Stateless site P Q x) : OnlyLooks x := by
  obtain ⟨answer, -, same⟩ := stateless
  intro s
  rw [same s, left_outcome]

/-! ## Resources and indices -/

theorem onlyLooks_bufferAt (binding : Binding) : OnlyLooks (bufferAt binding) := by
  intro s
  cases found : s.buffers.get? binding with
  | none => rw [bufferAt_eq_error found, left]
  | some b => rw [bufferAt_eq found, left]

theorem onlyLooks_imageAt (binding : Binding) : OnlyLooks (imageAt binding) := by
  intro s
  cases found : s.images.get? binding with
  | none => rw [imageAt_eq_error found, left]
  | some i => rw [imageAt_eq found, left]

theorem onlyLooks_checkElement (b : Buffer) (binding : Binding) (v : Value) :
    OnlyLooks (checkElement b binding v) := by
  intro s
  rw [checkElement_eq, left_outcome]

/-- What brings an index into range fails cleanly if nothing is said about an index that is refused. -/
theorem failsCleanly_of_resolution {x : StoreM (Option Nat)} {me : InvocationId} {r : Store → Resolution}
    (resolved : ∀ s, x s = (s.performAll me (r s).notes).outcome (r s).answer)
    (silent : ∀ s e, (r s).answer = .error e → (r s).messages = []) : FailsCleanly x := by
  intro s e s' failed
  have ran := (resolved s).symm.trans failed
  cases answer : (r s).answer with
  | ok place? =>
    rw [answer] at ran
    cases ran
  | error e' =>
    have quiet : (r s).notes = [] := by rw [Resolution.notes, silent s e' answer, List.map_nil]
    rw [answer, quiet] at ran
    cases ran
    rfl

theorem failsCleanly_resolve (label : String) (index : Int) (extent : Nat) (me : InvocationId) :
    FailsCleanly (resolve label index extent me) :=
  failsCleanly_of_resolution (fun _ => resolve_eq ..) fun _ _ failed =>
    (Resolution.fault_of_failed failed).2

theorem failsCleanly_texelPosition (i : Image) (binding : Binding) (x y : Int) (me : InvocationId) :
    FailsCleanly (texelPosition i binding x y me) :=
  failsCleanly_of_resolution (fun _ => texelPosition_eq ..) fun _ _ => Resolution.silent_of_failed

theorem neverFails_observe (resource : Resource) (i : Nat) (current : List UInt32) (t : Touch)
    (me : InvocationId) : NeverFails (observe resource i current t me) :=
  neverFails_modify _

/-! ## Seeds -/

/-- What is refused or else succeeds fails cleanly. -/
theorem failsCleanly_of_refuses (ends : ∀ s, s.Refuses x ∨ ∃ a s', x s = .ok a s') : FailsCleanly x := by
  intro s e s' failed
  rcases ends s with ⟨e', refused⟩ | ⟨a, t, done⟩
  · cases refused.symm.trans failed
    rfl
  · cases done.symm.trans failed

theorem failsCleanly_seed (call : Seeding) : FailsCleanly call.run := by
  refine failsCleanly_of_refuses fun s => ?_
  cases call with
  | allocateBuffer binding length =>
    refine (allocateBuffer_cases s binding length).imp_right ?_
    rintro ⟨b, -, ran⟩
    exact ⟨_, _, ran⟩
  | element binding index v =>
    refine (seedElement_cases s binding index v).imp_right ?_
    rintro ⟨b, -, -, -, ran⟩
    exact ⟨_, _, ran⟩
  | allocateImage binding width height =>
    refine (allocateImage_cases s binding width height).imp_right ?_
    rintro ⟨i, -, ran⟩
    exact ⟨_, _, ran⟩
  | texel binding x y bytes =>
    refine (seedTexel_cases s binding x y bytes).imp_right ?_
    rintro ⟨i, -, -, -, -, ran⟩
    exact ⟨_, _, ran⟩
  | texture binding t =>
    exact (seedTexture_cases s binding t).imp_right fun ran => ⟨_, _, ran⟩
  | uniform slot values =>
    refine (seedUniform_cases s slot values).imp_right ?_
    rintro ⟨u, -, -, -, ran⟩
    exact ⟨_, _, ran⟩

/-! ## Accesses -/

theorem failsCleanly_read (binding : Binding) (index : Int) (me : InvocationId) :
    FailsCleanly (read binding index me) := by
  refine (onlyLooks_bufferAt binding).bind fun b => ?_
  refine (failsCleanly_resolve _ _ _ _).bind fun place? => ?_
  cases place? with
  | none => exact neverFails_pure _
  | some i => exact (neverFails_observe _ _ _ _ _).bind fun _ => neverFails_pure _

theorem failsCleanly_write (binding : Binding) (index : Int) (v : Value) (me : InvocationId) :
    FailsCleanly (write binding index v me) := by
  refine (onlyLooks_bufferAt binding).bind fun b => ?_
  refine (onlyLooks_checkElement b binding v).bind fun _ => ?_
  refine (failsCleanly_resolve _ _ _ _).bind fun place? => ?_
  cases place? with
  | none => exact neverFails_pure _
  | some i => exact (neverFails_observe _ _ _ _ _).bind fun _ => neverFails_modify _

theorem failsCleanly_atomic (op : AtomicOp) (binding : Binding) (index : Int) (operands : List Value)
    (me : InvocationId) : FailsCleanly (atomic op binding index operands me) := by
  refine (onlyLooks_bufferAt binding).bind fun b => ?_
  refine (stateless_atomicKind _ b.element op operands.length).onlyLooks.bind fun kind => ?_
  refine (stateless_atomicOperands _ b.element op kind operands).onlyLooks.bind fun scalars => ?_
  refine (stateless_atomicArguments _ b.element op scalars).onlyLooks.bind fun arguments => ?_
  refine (failsCleanly_resolve _ _ _ _).bind fun place? => ?_
  cases place? with
  | none => exact neverFails_pure _
  | some i =>
    refine (neverFails_observe _ _ _ _ _).bind fun _ => ?_
    exact (neverFails_modify _).bind fun _ => neverFails_pure _

theorem failsCleanly_imageLoad (binding : Binding) (x y : Int) (me : InvocationId) :
    FailsCleanly (imageLoad binding x y me) := by
  refine (onlyLooks_imageAt binding).bind fun i => ?_
  refine (failsCleanly_texelPosition _ _ _ _ _).bind fun place? => ?_
  cases place? with
  | none => exact neverFails_pure _
  | some t => exact (neverFails_observe _ _ _ _ _).bind fun _ => neverFails_pure _

theorem failsCleanly_imageStore (binding : Binding) (x y : Int) (v : Value) (me : InvocationId) :
    FailsCleanly (imageStore binding x y v me) := by
  refine (onlyLooks_imageAt binding).bind fun i => ?_
  cases i.format.encode v with
  | error e => exact (onlyLooks_throw _).failsCleanly
  | ok bytes =>
    refine (failsCleanly_texelPosition _ _ _ _ _).bind fun place? => ?_
    cases place? with
    | none => exact neverFails_pure _
    | some t => exact (neverFails_observe _ _ _ _ _).bind fun _ => neverFails_modify _

theorem failsCleanly_imageAtomicAdd (binding : Binding) (x y : Int) (v : Value) (me : InvocationId) :
    FailsCleanly (imageAtomicAdd binding x y v me) := by
  refine (onlyLooks_imageAt binding).bind fun i => ?_
  dsimp only
  split
  · exact (onlyLooks_throw _).failsCleanly
  split
  · exact (onlyLooks_throw _).failsCleanly
  refine (failsCleanly_texelPosition _ _ _ _ _).bind fun place? => ?_
  cases place? with
  | none => exact neverFails_pure _
  | some t =>
    refine (neverFails_observe _ _ _ _ _).bind fun _ => ?_
    exact (neverFails_modify _).bind fun _ => neverFails_pure _

theorem failsCleanly_uniform (slot : Nat) (element : Option Int) (me : InvocationId) :
    FailsCleanly (uniform slot element me) := by
  refine onlyLooks_get.bind fun s => ?_
  cases s.uniforms[slot]? with
  | none => exact (onlyLooks_throw _).failsCleanly
  | some u =>
    cases element with
    | none =>
      dsimp only
      split
      · exact (onlyLooks_throw _).failsCleanly
      · exact (onlyLooks_pure _).failsCleanly
    | some index =>
      refine (failsCleanly_resolve _ _ _ _).bind fun place? => ?_
      cases place? with
      | none => exact neverFails_pure _
      | some i => exact neverFails_pure _

theorem failsCleanly_sample (sampler : Sampler) (binding : Binding) (r : SampleRequest) :
    FailsCleanly (sample sampler binding r) := by
  refine onlyLooks_get.bind fun s => ?_
  cases s.textures.get? binding with
  | none => exact (onlyLooks_throw _).failsCleanly
  | some t =>
    dsimp only
    cases sampler.sample t r with
    | ok lanes => exact (onlyLooks_pure _).failsCleanly
    | error reason => exact (onlyLooks_throw _).failsCleanly

/-- A store to a part of an element may fail after its index was brought into range, but before it
touches the element. -/
theorem update_failed {s s' : Store} {binding : Binding} {index : Int} {me : InvocationId}
    {change : Value → Except EngineError Value} {e : EngineError}
    (failed : update binding index me change s = .error e s') :
    ∃ diagnostics, s' = { s with diagnostics } := by
  cases found : s.buffers.get? binding with
  | none =>
    cases (bind_eq_error (bufferAt_eq_error found)).symm.trans failed
    exact ⟨s.diagnostics, rfl⟩
  | some b =>
    have ran := (bind_eq (bufferAt_eq found)).symm.trans failed
    obtain ⟨diagnostics, noted⟩ :=
      @performAll_notes_eq s me (.ofIndex s.oobPolicy (b.label binding) index b.length)
    have resolved := @resolve_eq s me (b.label binding) index b.length
    dsimp only at resolved
    rw [noted] at resolved
    refine ⟨diagnostics, ?_⟩
    cases answer : (Resolution.ofIndex s.oobPolicy (b.label binding) index b.length).answer with
    | error e' =>
      rw [answer] at resolved
      cases (bind_eq_error resolved).symm.trans ran
      rfl
    | ok place? =>
      rw [answer] at resolved
      have rest := (bind_eq resolved).symm.trans ran
      cases place? with
      | none => cases rest
      | some i =>
        dsimp only at rest
        cases changed : change (b.value i) with
        | error e' =>
          rw [changed] at rest
          cases rest
          rfl
        | ok v =>
          rw [changed] at rest
          have stored : NeverFails (do
              observe (.buffer binding) i (b.bits i) (.write v.bits) me
              setBuffer binding i v.bits) :=
            (neverFails_observe _ _ _ _ _).bind fun _ => neverFails_modify _
          exact (onlyLooks_checkElement b binding v).bind (fun _ => stored.failsCleanly) _ _ _ rest

end Store

namespace Operation

/-- The error that an operation ends in, if it fails. -/
def error? (s : Store) : Operation → Option EngineError
  | seed call => Store.failure? (call.run s)
  | fillBuffer binding v => Store.failure? (Store.fillBuffer binding v s)
  | fillImage binding bytes => Store.failure? (Store.fillImage binding bytes s)
  | access call me => Store.failure? (call.run me s)
  | resolve label index extent me => Store.failure? (Store.resolve label index extent me s)
  | uniform slot element me => Store.failure? (Store.uniform slot element me s)
  | length binding => Store.failure? (Store.length binding s)
  | imageSize binding => Store.failure? (Store.imageSize binding s)
  | sample sampler binding r => Store.failure? (Store.sample sampler binding r s)
  | recordFault .. | reportRace .. | takeConflicts => none

/-- Whether an operation is a store to a part of an element. -/
def Updates : Operation → Prop
  | access (.update ..) _ => True
  | _ => False

variable {s : Store} {op : Operation} {e : EngineError}

/-- An operation other than a store to a part of an element leaves the store as it was if it fails. -/
theorem perform_of_failed (other : ¬ op.Updates) (failed : op.error? s = some e) : op.perform s = s := by
  have kept {α : Type} {x : StoreM α} (cleanly : Store.FailsCleanly x)
      (failed : Store.failure? (x s) = some e) : Store.left (x s) = s := by
    cases ran : x s with
    | ok a t =>
      rw [ran] at failed
      cases failed
    | error e' t => exact cleanly s e' t ran
  cases op with
  | seed call => exact kept (Store.failsCleanly_seed call) failed
  | access call me =>
    cases call with
    | read binding index => exact kept (Store.failsCleanly_read binding index me) failed
    | write binding index v => exact kept (Store.failsCleanly_write binding index v me) failed
    | update binding index change => exact (other trivial).elim
    | atomic op binding index operands =>
      exact kept (Store.failsCleanly_atomic op binding index operands me) failed
    | imageLoad binding x y => exact kept (Store.failsCleanly_imageLoad binding x y me) failed
    | imageStore binding x y v => exact kept (Store.failsCleanly_imageStore binding x y v me) failed
    | imageAtomicAdd binding x y v =>
      exact kept (Store.failsCleanly_imageAtomicAdd binding x y v me) failed
  | resolve label index extent me =>
    exact kept (Store.failsCleanly_resolve label index extent me) failed
  | uniform slot element me => exact kept (Store.failsCleanly_uniform slot element me) failed
  | length binding =>
    exact kept ((Store.onlyLooks_bufferAt binding).bind fun _ =>
      (Store.onlyLooks_pure _).failsCleanly) failed
  | imageSize binding =>
    exact kept ((Store.onlyLooks_imageAt binding).bind fun _ =>
      (Store.onlyLooks_pure _).failsCleanly) failed
  | sample sampler binding r => exact kept (Store.failsCleanly_sample sampler binding r) failed
  | fillBuffer | fillImage | recordFault | reportRace | takeConflicts => cases failed

theorem diagnostics_of_failed (updates : op.Updates)
    (failed : op.error? s = some e) : ∃ diagnostics, op.perform s = { s with diagnostics } := by
  cases op with
  | access call me =>
    cases call with
    | update binding index change =>
      rw [perform]
      rw [error?] at failed
      cases ran : StoreCall.run (.update binding index change) me s with
      | ok a t =>
        rw [ran] at failed
        cases failed
      | error e' t => exact Store.update_failed ran
    | _ => exact updates.elim
  | _ => exact updates.elim

end Operation

/-- Whatever the store, the operation and its arguments, an operation that fails leaves buffers, images,
textures, uniforms, the log and the pending conflicts as they were. Unless it is a store to a part of an
element, it leaves the diagnostics as they were as well. -/
theorem failed_operations_keep (s : Store) (op : Operation) {e : EngineError}
    (failed : op.error? s = some e) :
    op.perform s = { s with diagnostics := (op.perform s).diagnostics } ∧
      (¬ op.Updates → op.perform s = s) := by
  by_cases updates : op.Updates
  · obtain ⟨diagnostics, left⟩ := Operation.diagnostics_of_failed updates failed
    rw [left]
    exact ⟨rfl, fun other => (other updates).elim⟩
  · have kept : op.perform s = s := op.perform_of_failed updates failed
    rw [kept]
    exact ⟨rfl, fun _ => rfl⟩

/-- A buffer of one pair and an image of one row, whose indices are clamped. -/
def Store.narrow : Store where
  shader := "narrow"
  oobPolicy := .clampAndReport
  buffers := .ofList [(0, .zeros "pairs" (.vector .uint .two) 1)]
  images := .ofList [(0, .zeros "row" .r32ui 4 1)]
  textures := .ofList []
  uniforms := []

/-- A store that replaces a pair by a number fails after its index was clamped, which alone remains; an
atomic with an operand of another type fails before its coordinates are looked at. -/
theorem failed_operations_keep_narrow :
    let store := Operation.access (.update 0 (-3) fun _ => .ok (.uint 7)) 5
    let add := Operation.access (.imageAtomicAdd 0 9 9 (.zero (.scalar .int))) 5
    store.error? .narrow =
        some (.typeMismatch (.store "buffer `pairs` (binding 0)") ⟨"uvec2", "uint"⟩) ∧
      store.perform .narrow = { Store.narrow with diagnostics := [⟨.outOfBounds,
        "index -3 out of bounds for buffer `pairs` (binding 0) (extent 1), clamped to 0", 1, 5⟩] } ∧
      add.error? .narrow = some (.typeMismatch (.imageAtomic 0) ⟨"uint", "int"⟩) ∧
      add.perform .narrow = .narrow := by
  intro store add
  have store_failed : store.error? .narrow =
      some (.typeMismatch (.store "buffer `pairs` (binding 0)") ⟨"uvec2", "uint"⟩) := by
    decide +kernel
  have add_failed : add.error? .narrow = some (.typeMismatch (.imageAtomic 0) ⟨"uint", "int"⟩) := by
    decide +kernel
  have noted : (store.perform .narrow).diagnostics = [⟨.outOfBounds,
      "index -3 out of bounds for buffer `pairs` (binding 0) (extent 1), clamped to 0", 1, 5⟩] := by
    decide +kernel
  have kept := (failed_operations_keep .narrow store store_failed).1
  rw [noted] at kept
  exact ⟨store_failed, kept, add_failed, (failed_operations_keep .narrow add add_failed).2 id⟩

end ComputeShader
