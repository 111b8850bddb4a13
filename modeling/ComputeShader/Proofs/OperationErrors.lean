import ComputeShader.Store.Access

/-! # Errors of store operations

Operations of the store know nothing of step budgets: whatever they fail with, it is not that a
budget is exceeded.
-/

namespace ComputeShader

namespace Store

variable {α β : Type}

/-- Whether an operation fails with ordinary errors only, not for want of steps. -/
def FailsOrdinarily (x : StoreM α) : Prop :=
  ∀ s e s', x s = .error e s' → e.kind ≠ .stepBudgetExceeded

theorem ordinary_pure (a : α) : FailsOrdinarily (pure a) := by
  intro s e s' failed
  cases failed

theorem ordinary_get : FailsOrdinarily get := by
  intro s e s' failed
  cases failed

theorem ordinary_modify (f : Store → Store) : FailsOrdinarily (modify f) := by
  intro s e s' failed
  cases failed

theorem ordinary_throw {e : EngineError} (ordinary : e.kind ≠ .stepBudgetExceeded) :
    FailsOrdinarily (throw e : StoreM α) := by
  intro s e' s' failed
  cases failed
  exact ordinary

theorem ordinary_mismatch (site : AccessSite) (e : TypeError) :
    FailsOrdinarily (throw (.typeMismatch site e) : StoreM α) :=
  ordinary_throw (by simp [EngineError.kind])

theorem FailsOrdinarily.bind {x : StoreM α} {k : α → StoreM β} (first : FailsOrdinarily x)
    (next : ∀ a, FailsOrdinarily (k a)) : FailsOrdinarily (x >>= k) := by
  intro s e s' failed
  simp only [Bind.bind, EStateM.bind] at failed
  cases ran : x s with
  | ok a t =>
    rw [ran] at failed
    exact next a t e s' failed
  | error e' t =>
    rw [ran] at failed
    cases failed
    exact first s e s' ran

theorem ordinary_mapM {f : α → StoreM β} (each : ∀ a, FailsOrdinarily (f a)) (as : List α) :
    FailsOrdinarily (as.mapM f) := by
  induction as with
  | nil => exact ordinary_pure []
  | cons a rest ih =>
    rw [List.mapM_cons]
    exact (each a).bind fun b => ih.bind fun bs => ordinary_pure _

/-! ## Resources and indices -/

theorem ordinary_bufferAt (binding : Binding) : FailsOrdinarily (bufferAt binding) := by
  refine ordinary_get.bind fun s => ?_
  split
  · exact ordinary_pure _
  · exact ordinary_mismatch _ _

theorem ordinary_imageAt (binding : Binding) : FailsOrdinarily (imageAt binding) := by
  refine ordinary_get.bind fun s => ?_
  split
  · exact ordinary_pure _
  · exact ordinary_mismatch _ _

theorem ordinary_resolve (label : String) (index : Int) (extent : Nat) (me : InvocationId) :
    FailsOrdinarily (resolve label index extent me) := by
  unfold resolve
  split
  · exact ordinary_pure _
  · split
    · exact (ordinary_modify _).bind fun _ => ordinary_pure _
    · refine ordinary_get.bind fun s => ?_
      split
      · exact (ordinary_modify _).bind fun _ => ordinary_pure _
      · exact (ordinary_modify _).bind fun _ => ordinary_pure _
      · exact ordinary_throw (by simp [EngineError.kind])

theorem ordinary_texelPosition (i : Image) (binding : Binding) (x y : Int) (me : InvocationId) :
    FailsOrdinarily (texelPosition i binding x y me) := by
  refine (ordinary_resolve _ _ _ _).bind fun column => ?_
  split
  · exact ordinary_pure _
  · refine (ordinary_resolve _ _ _ _).bind fun row => ?_
    split
    · exact ordinary_pure _
    · exact ordinary_pure _

theorem ordinary_checkElement (b : Buffer) (binding : Binding) (v : Value) :
    FailsOrdinarily (checkElement b binding v) := by
  unfold checkElement
  split
  · exact ordinary_pure _
  · exact ordinary_mismatch _ _

/-! ## Operations -/

variable (me : InvocationId)

theorem ordinary_read (binding : Binding) (index : Int) : FailsOrdinarily (read binding index me) := by
  refine (ordinary_bufferAt binding).bind fun b => ?_
  refine (ordinary_resolve _ _ _ _).bind fun resolved => ?_
  split
  · exact ordinary_pure _
  · exact (ordinary_modify _).bind fun _ => ordinary_pure _

theorem ordinary_write (binding : Binding) (index : Int) (v : Value) :
    FailsOrdinarily (write binding index v me) := by
  refine (ordinary_bufferAt binding).bind fun b => ?_
  refine (ordinary_checkElement b binding v).bind fun _ => ?_
  refine (ordinary_resolve _ _ _ _).bind fun resolved => ?_
  split
  · exact ordinary_pure _
  · exact (ordinary_modify _).bind fun _ => ordinary_modify _

theorem ordinary_update (binding : Binding) (index : Int) {change : Value → Except EngineError Value}
    (changes : ∀ v e, change v = .error e → e.kind ≠ .stepBudgetExceeded) :
    FailsOrdinarily (update binding index me change) := by
  refine (ordinary_bufferAt binding).bind fun b => ?_
  refine (ordinary_resolve _ _ _ _).bind fun resolved => ?_
  split
  · exact ordinary_pure _
  · split
    · next failed => exact ordinary_throw (changes _ _ failed)
    · refine (ordinary_checkElement b binding _).bind fun _ => ?_
      exact (ordinary_modify _).bind fun _ => ordinary_modify _

theorem ordinary_length (binding : Binding) : FailsOrdinarily (length binding) :=
  (ordinary_bufferAt binding).bind fun _ => ordinary_pure _

theorem ordinary_atomicKind (site : AccessSite) (element : ValueType) :
    FailsOrdinarily (atomicKind site element) := by
  unfold atomicKind
  split
  · exact ordinary_pure _
  · exact ordinary_pure _
  · exact ordinary_mismatch _ _

theorem ordinary_atomicOperands (site : AccessSite) (kind : ScalarKind) (operands : List Value) :
    FailsOrdinarily (atomicOperands site kind operands) := by
  refine ordinary_mapM (fun v => ?_) operands
  split
  · split
    · exact ordinary_pure _
    · exact ordinary_mismatch _ _
  · exact ordinary_mismatch _ _

theorem ordinary_atomicArguments (site : AccessSite) (op : AtomicOp) (operands : List Scalar) :
    FailsOrdinarily (atomicArguments site op operands) := by
  unfold atomicArguments
  split
  · exact ordinary_pure _
  · exact ordinary_mismatch _ _
  · exact ordinary_pure _
  · exact ordinary_mismatch _ _

theorem ordinary_atomic (op : AtomicOp) (binding : Binding) (index : Int) (operands : List Value) :
    FailsOrdinarily (atomic op binding index operands me) := by
  refine (ordinary_bufferAt binding).bind fun b => ?_
  refine (ordinary_atomicKind _ _).bind fun kind => ?_
  refine (ordinary_atomicOperands _ _ _).bind fun scalars => ?_
  refine (ordinary_atomicArguments _ _ _).bind fun arguments => ?_
  refine (ordinary_resolve _ _ _ _).bind fun resolved => ?_
  split
  · exact ordinary_pure _
  · refine (ordinary_modify _).bind fun _ => ?_
    exact (ordinary_modify _).bind fun _ => ordinary_pure _

theorem ordinary_imageLoad (binding : Binding) (x y : Int) :
    FailsOrdinarily (imageLoad binding x y me) := by
  refine (ordinary_imageAt binding).bind fun i => ?_
  refine (ordinary_texelPosition _ _ _ _ _).bind fun resolved => ?_
  split
  · exact ordinary_pure _
  · exact (ordinary_modify _).bind fun _ => ordinary_pure _

theorem ordinary_imageStore (binding : Binding) (x y : Int) (v : Value) :
    FailsOrdinarily (imageStore binding x y v me) := by
  refine (ordinary_imageAt binding).bind fun i => ?_
  split
  · exact ordinary_mismatch _ _
  · refine (ordinary_texelPosition _ _ _ _ _).bind fun resolved => ?_
    split
    · exact ordinary_pure _
    · exact (ordinary_modify _).bind fun _ => ordinary_modify _

theorem ordinary_imageAtomicAdd (binding : Binding) (x y : Int) (v : Value) :
    FailsOrdinarily (imageAtomicAdd binding x y v me) := by
  refine (ordinary_imageAt binding).bind fun i => ?_
  split
  · exact ordinary_mismatch _ _
  · split
    · exact ordinary_mismatch _ _
    · refine (ordinary_texelPosition _ _ _ _ _).bind fun resolved => ?_
      split
      · exact ordinary_pure _
      · refine (ordinary_modify _).bind fun _ => ?_
        exact (ordinary_modify _).bind fun _ => ordinary_pure _

theorem ordinary_imageSize (binding : Binding) : FailsOrdinarily (imageSize binding) :=
  (ordinary_imageAt binding).bind fun _ => ordinary_pure _

theorem ordinary_uniform (slot : Nat) (element : Option Int) :
    FailsOrdinarily (uniform slot element me) := by
  refine ordinary_get.bind fun s => ?_
  split
  · exact ordinary_mismatch _ _
  · split
    · split
      · exact ordinary_mismatch _ _
      · exact ordinary_pure _
    · refine (ordinary_resolve _ _ _ _).bind fun resolved => ?_
      split
      · exact ordinary_pure _
      · exact ordinary_pure _

theorem ordinary_sample (sampler : Sampler) (binding : Binding) (r : SampleRequest) :
    FailsOrdinarily (sample sampler binding r) := by
  refine ordinary_get.bind fun s => ?_
  split
  · exact ordinary_mismatch _ _
  · split
    · exact ordinary_pure _
    · exact ordinary_throw (by simp [EngineError.kind])

end Store

end ComputeShader
