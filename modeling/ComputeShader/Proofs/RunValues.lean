import ComputeShader.Dispatch.Execution
import ComputeShader.Shader.Nodes
import ComputeShader.Proofs.AccessIsolation
import ComputeShader.Proofs.RegisterEquality

/-! # The values of a run

Whatever an invocation evaluates was made as a whole, unless it is a local variable into parts of which
values were stored. By induction over the syntax a property of the local variables that all whole
values have is one of every value, if stores to parts of local variables keep it.
-/

namespace ComputeShader

/-- Whether an invariant is kept by an operation, which may fail, and its answers have a property. -/
def Keeps {ε σ α : Type} (I : σ → Prop) (x : EStateM ε σ α) (Q : α → Prop) : Prop :=
  ∀ s, I s → (∀ a s', x s = .ok a s' → I s' ∧ Q a) ∧ ∀ e s', x s = .error e s' → I s'

section Keeps

variable {ε σ α β : Type} {I : σ → Prop} {x : EStateM ε σ α} {Q Q' : α → Prop}

theorem keeps_pure {a : α} (holds : Q a) : Keeps I (pure a : EStateM ε σ α) Q := by
  refine fun s before => ⟨fun a' s' ran => ?_, fun e s' ran => (nomatch ran)⟩
  cases ran
  exact ⟨before, holds⟩

theorem keeps_throw (e : ε) : Keeps I (throw e : EStateM ε σ α) Q := by
  refine fun s before => ⟨fun a s' ran => (nomatch ran), fun e' s' ran => ?_⟩
  cases ran
  exact before

theorem Keeps.bind {k : α → EStateM ε σ β} {R : β → Prop} (first : Keeps I x Q)
    (next : ∀ a, Q a → Keeps I (k a) R) : Keeps I (x >>= k) R := by
  intro s before
  simp only [Bind.bind, EStateM.bind]
  cases ran : x s with
  | ok a s' =>
    obtain ⟨between, given⟩ := (first s before).1 a s' ran
    exact next a given s' between
  | error e s' =>
    refine ⟨fun b t failed => (nomatch failed), fun e' t failed => ?_⟩
    cases failed
    exact (first s before).2 e s' ran

theorem Keeps.mono (keeps : Keeps I x Q) (weaker : ∀ a, Q a → Q' a) : Keeps I x Q' :=
  fun s before => ⟨fun a s' ran => ((keeps s before).1 a s' ran).imp_right (weaker a),
    (keeps s before).2⟩

theorem keeps_get {k : σ → EStateM ε σ α} (rest : ∀ s, I s → Keeps I (k s) Q) :
    Keeps I (get >>= k) Q :=
  fun s before => rest s before s before

theorem keeps_modify {f : σ → σ} (kept : ∀ s, I s → I (f s)) :
    Keeps I (modify f : EStateM ε σ PUnit) fun _ => True := by
  refine fun s before => ⟨fun a s' ran => ?_, fun e s' ran => (nomatch ran)⟩
  cases ran
  exact ⟨kept s before, trivial⟩

theorem keeps_any : Keeps (fun _ => True) x fun _ => True :=
  fun _ _ => ⟨fun _ _ _ => ⟨trivial, trivial⟩, fun _ _ _ => trivial⟩

end Keeps

/-! ## Values from the store -/

namespace Store

/-- A store whose buffers and uniforms hold whole values. -/
structure Whole (s : Store) : Prop where
  wellFormed : s.WellFormed
  uniforms : ∀ u ∈ s.uniforms, ∀ v ∈ u.values, v.Intact

variable {s : Store} {me : InvocationId} {binding : Binding}

theorem uniforms_of_frame {s' : Store} (frame : s.frame = s'.frame) : s.uniforms = s'.uniforms := by
  simpa [Store.frame] using congrArg Store.uniforms frame

theorem Whole.performAll {effects : List Effect} (whole : s.Whole)
    (admitted : ∀ e ∈ effects, e.Admitted s) : (s.performAll me effects).Whole := by
  have admitted : ∀ visit ∈ effects.map (me, ·), visit.2.Admitted s := by simpa using admitted
  have same : (s.performAll me effects).uniforms = s.uniforms := uniforms_of_frame frame_replay
  exact ⟨whole.wellFormed.replay admitted, same ▸ whole.uniforms⟩

theorem Whole.perform (whole : s.Whole) (c : StoreCall) : (c.perform s me).Whole := by
  obtain ⟨effects, performed, admitted, -⟩ := c.performsOnce me whole.wellFormed
  exact performed ▸ whole.performAll admitted

/-- What a call keeps and answers, from what it leaves. -/
theorem keeps_of_left {α : Type} {x : StoreM α} {Q : α → Prop}
    (kept : ∀ s, s.Whole → (left (x s)).Whole)
    (gives : ∀ s a s', s.Whole → x s = .ok a s' → Q a) : Keeps Whole x Q := by
  refine fun s whole => ⟨fun a s' ran => ⟨?_, gives s a s' whole ran⟩, fun e s' ran => ?_⟩
  · simpa [ran, left] using kept s whole
  · simpa [ran, left] using kept s whole

theorem keeps_resolve (label : String) (index : Int) (extent : Nat) :
    Keeps Whole (resolve label index extent me) fun _ => True := by
  refine keeps_of_left (fun s whole => ?_) fun _ _ _ _ _ => trivial
  have noted : (s.performAll me
      (Resolution.ofIndex s.oobPolicy label index extent).notes).Whole := by
    refine whole.performAll fun e member => ?_
    obtain ⟨message, _, rfl⟩ := List.mem_map.1 member
    trivial
  rw [resolve_eq]
  generalize Resolution.ofIndex s.oobPolicy label index extent = r at noted ⊢
  obtain ⟨_ | _, messages⟩ := r <;> exact noted

theorem keeps_bufferAt : Keeps Whole (bufferAt binding) fun _ => True := by
  refine keeps_get fun s whole => ?_
  split
  · exact keeps_pure trivial
  · exact keeps_throw _

theorem keeps_imageAt : Keeps Whole (imageAt binding) fun _ => True := by
  refine keeps_get fun s whole => ?_
  split
  · exact keeps_pure trivial
  · exact keeps_throw _

theorem keeps_uniform (slot : Nat) (element : Option Int) :
    Keeps Whole (uniform slot element me) Value.Intact := by
  refine keeps_get fun s whole => ?_
  cases declared : s.uniforms[slot]? with
  | none => exact keeps_throw _
  | some u =>
    have values (i : Nat) : (u.values.getD i (Value.zero u.ty)).Intact := by
      rw [List.getD_eq_getElem?_getD]
      cases held : u.values[i]? with
      | none => exact Value.intact_zero
      | some v =>
        exact whole.uniforms u (List.mem_of_getElem? declared) v (List.mem_of_getElem? held)
    cases element with
    | none =>
      dsimp only
      split
      · exact keeps_throw _
      · refine keeps_pure ?_
        have first := values 0
        rwa [List.getD_eq_getElem?_getD, ← List.head?_eq_getElem?, ← List.headD_eq_head?_getD] at first
    | some index =>
      refine (keeps_resolve _ _ _).bind fun resolved _ => ?_
      cases resolved with
      | none => exact keeps_pure Value.intact_zero
      | some i => exact keeps_pure (values i)

theorem intact_value {b : Buffer} (proper : b.Proper) (i : Nat) : (b.value i).Intact := by
  refine Value.intact_ofBits ?_
  rcases Nat.lt_or_ge i b.length with inside | outside
  · exact Nat.le_of_eq (proper i inside).1
  · simp [Buffer.bits_eq_nil outside]

theorem keeps_read (index : Int) : Keeps Whole (read binding index me) Value.Intact := by
  refine keeps_of_left (fun s whole => whole.perform (.read binding index)) fun s v s' whole ran => ?_
  cases found : s.buffers.get? binding with
  | none =>
    rw [read, bind_eq_error (bufferAt_eq_error found)] at ran
    cases ran
  | some b =>
    rw [read_eq found, touching] at ran
    split at ran <;> cases ran
    · exact Value.intact_zero
    · exact intact_value (whole.wellFormed.buffers binding b found) _

theorem keeps_write (index : Int) (v : Value) :
    Keeps Whole (write binding index v me) fun _ => True :=
  keeps_of_left (fun _ whole => whole.perform (.write binding index v)) fun _ _ _ _ _ => trivial

theorem keeps_update (index : Int) (change : Value → Except EngineError Value) :
    Keeps Whole (update binding index me change) fun _ => True :=
  keeps_of_left (fun _ whole => whole.perform (.update binding index change)) fun _ _ _ _ _ => trivial

theorem keeps_length : Keeps Whole (length binding) fun _ => True :=
  keeps_bufferAt.bind fun _ _ => keeps_pure trivial

theorem keeps_atomic (op : AtomicOp) (index : Int) (operands : List Value) :
    Keeps Whole (atomic op binding index operands me) Value.Intact := by
  refine keeps_of_left (fun s whole => whole.perform (.atomic op binding index operands))
    fun s v s' whole ran => ?_
  cases found : s.buffers.get? binding with
  | none =>
    rw [atomic, bind_eq_error (bufferAt_eq_error found)] at ran
    cases ran
  | some b =>
    rcases atomic_eq binding b op index operands me with ⟨e, -, fails⟩ | ⟨_, -, same⟩
    · rw [fails s found] at ran
      cases ran
    · rw [same s whole.wellFormed found, touching] at ran
      split at ran <;> cases ran
      · exact Value.intact_zero
      · exact intact_value (whole.wellFormed.buffers binding b found) _

theorem keeps_imageLoad (x y : Int) : Keeps Whole (imageLoad binding x y me) Value.Intact := by
  refine keeps_of_left (fun s whole => whole.perform (.imageLoad binding x y))
    fun s v s' whole ran => ?_
  cases found : s.images.get? binding with
  | none =>
    rw [imageLoad, bind_eq_error (imageAt_eq_error found)] at ran
    cases ran
  | some i =>
    have full (v : Value) (four : v.ty = i.format.loadType) : v.Intact :=
      Value.intact_of_not_padded (by rw [four]; exact Nat.lt_irrefl 4)
    rw [imageLoad_eq found, touching] at ran
    split at ran <;> cases ran
    · exact full _ rfl
    · exact full _ rfl

theorem keeps_imageStore (x y : Int) (v : Value) :
    Keeps Whole (imageStore binding x y v me) fun _ => True :=
  keeps_of_left (fun _ whole => whole.perform (.imageStore binding x y v)) fun _ _ _ _ _ => trivial

theorem keeps_imageAtomicAdd (x y : Int) (v : Value) :
    Keeps Whole (imageAtomicAdd binding x y v me) Value.Intact := by
  refine keeps_of_left (fun s whole => whole.perform (.imageAtomicAdd binding x y v))
    fun s w s' _ ran => ?_
  have answers : Keeps (fun _ => True) (imageAtomicAdd binding x y v me) Value.Intact := by
    refine keeps_any.bind fun i _ => ?_
    dsimp only
    split
    · exact keeps_throw _
    split
    · exact keeps_throw _
    refine keeps_any.bind fun resolved _ => ?_
    cases resolved with
    | none => exact keeps_pure Value.intact_zero
    | some t =>
      exact keeps_any.bind fun _ _ => keeps_any.bind fun _ _ =>
        keeps_pure (Value.intact_ofBits (Nat.le_refl 1))
  exact ((answers s trivial).1 w s' ran).2

theorem keeps_imageSize : Keeps Whole (imageSize binding) fun _ => True :=
  keeps_imageAt.bind fun _ _ => keeps_pure trivial

theorem keeps_sample (sampler : Sampler) (r : SampleRequest) :
    Keeps Whole (sample sampler binding r) fun _ => True := by
  refine keeps_get fun s whole => ?_
  split
  · exact keeps_throw _
  · split
    · exact keeps_pure trivial
    · exact keeps_throw _

end Store

/-! ## Expressions -/

/-- Whether the store is whole and all local variables have a property. -/
structure RunState.Holds (P : Value → Prop) (s : RunState) : Prop where
  store : s.store.Whole
  locals : ∀ v ∈ s.locals, P v

/-- Whether the literals among nodes are whole, as scalars are. -/
def WholeLiterals (nodes : List Expr) : Prop := ∀ pos v, Expr.literal pos v ∈ nodes → v.Intact

theorem wholeLiterals_append {nodes nodes' : List Expr} :
    WholeLiterals (nodes ++ nodes') ↔ WholeLiterals nodes ∧ WholeLiterals nodes' := by
  simp only [WholeLiterals, List.mem_append]
  grind

theorem WholeLiterals.tail {e : Expr} {nodes : List Expr} (literals : WholeLiterals (e :: nodes)) :
    WholeLiterals nodes :=
  fun pos v member => literals pos v (List.mem_cons_of_mem e member)

theorem Invocation.intact_builtin (i : Invocation) (b : Builtin) : (i.builtin b).Intact := by
  cases b with
  | localInvocationIndex => exact Value.intact_ofScalar _
  | _ => exact Value.intact_ofBits (Nat.le_refl 3)

namespace RunContext

variable {P : Value → Prop} {α : Type}

theorem keeps_onStore {action : StoreM α} {Q : α → Prop} (keeps : Keeps Store.Whole action Q) :
    Keeps (RunState.Holds P) (onStore action) Q := by
  intro s holds
  obtain ⟨done, failed⟩ := keeps s.store holds.store
  simp only [onStore]
  cases ran : action s.store with
  | ok a store =>
    obtain ⟨whole, given⟩ := done a store ran
    refine ⟨fun a' s' same => ?_, fun e s' ran => (nomatch ran)⟩
    cases same
    exact ⟨⟨whole, holds.locals⟩, given⟩
  | error e store =>
    refine ⟨fun a s' ran => (nomatch ran), fun e' s' same => ?_⟩
    cases same
    exact ⟨failed e store ran, holds.locals⟩

theorem keeps_step (c : RunContext) : Keeps (RunState.Holds P) c.step fun _ => True := by
  refine keeps_get fun s holds => ?_
  refine (keeps_modify fun s holds => ⟨holds.store, holds.locals⟩).bind fun _ _ => ?_
  split
  · exact keeps_throw _
  · exact keeps_pure trivial

theorem keeps_typed {I : RunState → Prop} {answer : Except TypeError α} {Q : α → Prop}
    (site : AccessSite) (gives : ∀ a, answer = .ok a → Q a) : Keeps I (typed site answer) Q := by
  cases answer with
  | ok a => exact keeps_pure (gives a rfl)
  | error e => exact keeps_throw _

theorem keeps_asCondition {I : RunState → Prop} (e : Expr) (v : Value) :
    Keeps I (asCondition e v) fun _ => True := by
  unfold asCondition
  split
  · exact keeps_pure trivial
  · exact keeps_throw _

theorem keeps_asIndex {I : RunState → Prop} (e : Expr) (v : Value) :
    Keeps I (asIndex e v) fun _ => True := by
  unfold asIndex
  split
  · exact keeps_pure trivial
  · exact keeps_throw _

theorem keeps_asCoord {I : RunState → Prop} (e : Expr) (v : Value) :
    Keeps I (asCoord e v) fun _ => True := by
  unfold asCoord
  split
  · exact keeps_pure trivial
  · exact keeps_throw _

theorem keeps_asTextureCoord {I : RunState → Prop} (pos : Position) (v : Value) :
    Keeps I (asTextureCoord pos v) fun _ => True := by
  unfold asTextureCoord
  split
  · exact keeps_pure trivial
  · exact keeps_throw _

theorem keeps_asBias {I : RunState → Prop} (e : Expr) (v : Value) :
    Keeps I (asBias e v) fun _ => True := by
  unfold asBias
  split
  · exact keeps_pure trivial
  · exact keeps_throw _

theorem keeps_subscript (c : RunContext) (pos : Position) (v : Value) (i : Int) :
    Keeps (RunState.Holds P) (c.subscript pos v i) Value.Intact := by
  unfold subscript
  split
  · exact keeps_throw _
  · refine (keeps_onStore (Store.keeps_resolve _ _ _)).bind fun resolved _ => ?_
    split
    · exact keeps_typed _ fun _ => Value.intact_element
    · exact keeps_pure Value.intact_zero

theorem keeps_lookupTexture (c : RunContext) (binding : Binding) (coord : Single × Single)
    (bias : Option Single) :
    Keeps (RunState.Holds P) (c.lookupTexture binding coord bias) Value.Intact :=
  (keeps_onStore (Store.keeps_sample _ _)).bind fun _ _ =>
    keeps_pure (Value.intact_of_not_padded (Nat.lt_irrefl 4))

mutual

/-- An expression gives a whole value or that of a local variable. -/
theorem keeps_eval (c : RunContext) (whole : ∀ v : Value, v.Intact → P v) (e : Expr)
    (literals : WholeLiterals e.nodes) : Keeps (RunState.Holds P) (c.eval e) P := by
  rw [eval.eq_def]
  refine (keeps_step c).bind fun _ _ => ?_
  cases e with
  | literal pos v => exact keeps_pure (whole v (literals pos v List.mem_cons_self))
  | localVar pos slot =>
    refine keeps_get fun s holds => keeps_pure ?_
    rw [List.getD_eq_getElem?_getD]
    cases held : s.locals[slot]? with
    | none => exact whole _ Value.intact_zero
    | some v => exact holds.locals v (List.mem_of_getElem? held)
  | builtin pos b => exact keeps_pure (whole _ (c.invocation.intact_builtin b))
  | uniform pos slot => exact (keeps_onStore (Store.keeps_uniform _ _)).mono whole
  | uniformElement pos slot index =>
    refine (c.keeps_eval whole index literals.tail).bind fun v _ => ?_
    refine (keeps_asIndex index v).bind fun i _ => ?_
    exact (keeps_onStore (Store.keeps_uniform _ _)).mono whole
  | bufferElement pos binding index =>
    refine (c.keeps_eval whole index literals.tail).bind fun v _ => ?_
    refine (keeps_asIndex index v).bind fun i _ => ?_
    exact (keeps_onStore (Store.keeps_read i)).mono whole
  | bufferLength pos binding =>
    exact (keeps_onStore Store.keeps_length).bind fun _ _ =>
      keeps_pure (whole _ (Value.intact_ofScalar _))
  | subscript pos base index =>
    obtain ⟨in_base, in_index⟩ := wholeLiterals_append.1 literals.tail
    refine (c.keeps_eval whole base in_base).bind fun v _ => ?_
    refine (c.keeps_eval whole index in_index).bind fun w _ => ?_
    exact (keeps_asIndex index w).bind fun i _ => (c.keeps_subscript pos v i).mono whole
  | swizzle pos base selection =>
    refine (c.keeps_eval whole base literals.tail).bind fun v _ => ?_
    exact keeps_typed _ fun w made => whole w (Value.intact_swizzle made)
  | construct pos ty args =>
    refine (c.keeps_evalAll whole args literals.tail).bind fun vs _ => ?_
    exact keeps_typed _ fun w made => whole w (Value.intact_construct made)
  | unary pos op operand =>
    refine (c.keeps_eval whole operand literals.tail).bind fun v _ => ?_
    exact keeps_typed _ fun w made => whole w (Value.intact_unary made)
  | binary pos op left right =>
    obtain ⟨in_left, in_right⟩ := wholeLiterals_append.1 literals.tail
    refine (c.keeps_eval whole left in_left).bind fun a _ => ?_
    refine (c.keeps_eval whole right in_right).bind fun b _ => ?_
    exact keeps_typed _ fun w made => whole w (Value.intact_binary made)
  | logical pos op left right =>
    obtain ⟨in_left, in_right⟩ := wholeLiterals_append.1 literals.tail
    have bool (b : Bool) : Keeps (RunState.Holds P) (pure (Value.bool b) : RunM Value) P :=
      keeps_pure (whole _ (Value.intact_ofScalar _))
    refine (c.keeps_eval whole left in_left).bind fun v _ => ?_
    refine (keeps_asCondition left v).bind fun a _ => ?_
    split
    · exact bool false
    · exact bool true
    · refine (c.keeps_eval whole right in_right).bind fun w _ => ?_
      exact (keeps_asCondition right w).bind fun b _ => bool b
  | ternary pos condition accepted rejected =>
    obtain ⟨in_condition, in_rest⟩ := wholeLiterals_append.1 literals.tail
    obtain ⟨in_accepted, in_rejected⟩ := wholeLiterals_append.1 in_rest
    refine (c.keeps_eval whole condition in_condition).bind fun v _ => ?_
    refine (keeps_asCondition condition v).bind fun a _ => ?_
    split
    · exact c.keeps_eval whole accepted in_accepted
    · exact c.keeps_eval whole rejected in_rejected
  | atomic pos op binding index args =>
    obtain ⟨in_index, in_args⟩ := wholeLiterals_append.1 literals.tail
    refine (c.keeps_eval whole index in_index).bind fun v _ => ?_
    refine (keeps_asIndex index v).bind fun i _ => ?_
    refine (c.keeps_evalAll whole args in_args).bind fun operands _ => ?_
    exact (keeps_onStore (Store.keeps_atomic op i operands)).mono whole
  | imageLoad pos binding coord =>
    refine (c.keeps_eval whole coord literals.tail).bind fun v _ => ?_
    refine (keeps_asCoord coord v).bind fun xy _ => ?_
    exact (keeps_onStore (Store.keeps_imageLoad xy.1 xy.2)).mono whole
  | imageAtomicAdd pos binding coord value =>
    obtain ⟨in_coord, in_value⟩ := wholeLiterals_append.1 literals.tail
    refine (c.keeps_eval whole coord in_coord).bind fun v _ => ?_
    refine (keeps_asCoord coord v).bind fun xy _ => ?_
    refine (c.keeps_eval whole value in_value).bind fun w _ => ?_
    exact (keeps_onStore (Store.keeps_imageAtomicAdd xy.1 xy.2 w)).mono whole
  | imageSize pos binding =>
    exact (keeps_onStore Store.keeps_imageSize).bind fun _ _ =>
      keeps_pure (whole _ (Value.intact_ofComponents (Nat.le_refl 2)))
  | texture pos binding coord =>
    refine (c.keeps_eval whole coord literals.tail).bind fun v _ => ?_
    refine (keeps_asTextureCoord pos v).bind fun place _ => ?_
    exact (c.keeps_lookupTexture binding place none).mono whole
  | textureBiased pos binding coord bias =>
    obtain ⟨in_coord, in_bias⟩ := wholeLiterals_append.1 literals.tail
    refine (c.keeps_eval whole coord in_coord).bind fun v _ => ?_
    refine (keeps_asTextureCoord pos v).bind fun place _ => ?_
    refine (c.keeps_eval whole bias in_bias).bind fun w _ => ?_
    exact (keeps_asBias bias w).bind fun b _ =>
      (c.keeps_lookupTexture binding place (some b)).mono whole
  | math pos f args =>
    refine (c.keeps_evalAll whole args literals.tail).bind fun vs _ => ?_
    exact keeps_typed _ fun w made => whole w (Value.intact_math made)

theorem keeps_evalAll (c : RunContext) (whole : ∀ v : Value, v.Intact → P v) (es : List Expr)
    (literals : WholeLiterals (Expr.nodesOf es)) :
    Keeps (RunState.Holds P) (c.evalAll es) fun _ => True := by
  cases es with
  | nil => exact keeps_pure trivial
  | cons e rest =>
    obtain ⟨here, later⟩ := wholeLiterals_append.1 literals
    refine (c.keeps_eval whole e here).bind fun v _ => ?_
    exact (c.keeps_evalAll whole rest later).bind fun vs _ => keeps_pure trivial

end

end RunContext

/-! ## Targets -/

/-- Whether a target is a part of a local variable. -/
def Target.isLocalPart (t : Target) : Bool :=
  match t.place with
  | .localVar _ => !t.path.isEmpty
  | .bufferElement .. => false

/-- Whether storing into parts of values keeps a property. -/
def KeptInParts (P : Value → Prop) : Prop :=
  ∀ (v new v' : Value) (step : Step), P v → step.set v new = .ok v' → P v'

/-- Whether a resolved target is an instance of a target, as far as local variables go. -/
def ResolvedTarget.LocalOf (t : Target) : ResolvedTarget → Prop
  | .localVar _ path => path ≠ [] → t.isLocalPart
  | .buffer .. => True

namespace RunContext

variable {P : Value → Prop}

theorem of_setPath {v new v' : Value} {path : List Step} (old : P v) (fresh : P new)
    (kept : path ≠ [] → KeptInParts P) (stored : setPath v path new = .ok v') : P v' := by
  cases path with
  | nil =>
    rw [setPath] at stored
    split at stored <;> cases stored
    exact fresh
  | cons step rest =>
    rw [setPath] at stored
    cases got : step.get v with
    | error e =>
      rw [got] at stored
      cases stored
    | ok part =>
      rw [got] at stored
      cases inner : setPath part rest new with
      | error e =>
        simp only [bind, Except.bind, inner] at stored
        cases stored
      | ok part' =>
        simp only [bind, Except.bind, inner] at stored
        exact kept (List.cons_ne_nil _ _) v part' v' step old stored

theorem keeps_resolvePath (c : RunContext) (whole : ∀ v : Value, v.Intact → P v) (line : Nat)
    (ty : ValueType) (path : List Projection)
    (literals : WholeLiterals (path.flatMap Projection.nodes)) :
    Keeps (RunState.Holds P) (c.resolvePath line ty path) fun steps? =>
      ∀ steps ∈ steps?, path = [] → steps = [] := by
  induction path generalizing ty with
  | nil =>
    refine keeps_pure fun steps same _ => ?_
    cases same
    rfl
  | cons step rest ih =>
    obtain ⟨here, later⟩ := wholeLiterals_append.1 literals
    refine Keeps.mono (Q := fun _ => True) ?_ fun _ _ _ _ empty => (nomatch empty)
    cases step with
    | subscript e =>
      rw [resolvePath]
      refine (c.keeps_eval whole e here).bind fun v _ => ?_
      refine (keeps_asIndex e v).bind fun i _ => ?_
      split
      · exact keeps_throw _
      · refine (keeps_onStore (Store.keeps_resolve _ _ _)).bind fun resolved _ => ?_
        split
        · exact keeps_pure trivial
        · exact (ih _ later).bind fun steps _ => keeps_pure trivial
    | swizzle selection =>
      unfold resolvePath
      split
      · split
        · split
          · exact (ih _ later).bind fun steps _ => keeps_pure trivial
          · exact keeps_throw _
        · exact keeps_throw _
      · exact keeps_throw _

theorem keeps_resolveTarget (c : RunContext) (whole : ∀ v : Value, v.Intact → P v) (line : Nat)
    (t : Target) (literals : WholeLiterals t.nodes) :
    Keeps (RunState.Holds P) (c.resolveTarget line t) fun resolved => ∀ r ∈ resolved, r.LocalOf t := by
  unfold resolveTarget
  rw [Target.nodes.eq_def] at literals
  split
  · next slot place =>
    rw [place] at literals
    refine (c.keeps_resolvePath whole line _ t.path literals).bind fun steps? narrowed => ?_
    refine keeps_pure fun r member => ?_
    obtain ⟨steps, found, rfl⟩ := Option.map_eq_some_iff.1 member
    intro part
    have nonempty : t.path ≠ [] := fun empty => part (narrowed steps found empty)
    simp [Target.isLocalPart, place, nonempty]
  · next binding index place =>
    rw [place] at literals
    obtain ⟨in_index, in_path⟩ := wholeLiterals_append.1 literals
    refine (c.keeps_eval whole index in_index).bind fun v _ => ?_
    refine (keeps_asIndex index v).bind fun i _ => ?_
    split
    · exact keeps_throw _
    · refine (c.keeps_resolvePath whole line _ t.path in_path).bind fun steps? _ => ?_
      refine keeps_pure fun r member => ?_
      obtain ⟨steps, -, rfl⟩ := Option.map_eq_some_iff.1 member
      trivial

theorem keeps_store (c : RunContext) (whole : ∀ v : Value, v.Intact → P v) (line : Nat) {t : Target}
    {r : ResolvedTarget} {v : Value} (fresh : P v) (of : r.LocalOf t)
    (kept : t.isLocalPart → KeptInParts P) :
    Keeps (RunState.Holds P) (c.store line r v) fun _ => True := by
  unfold store
  split
  · next slot path =>
    refine keeps_get fun s holds => ?_
    have old : P (s.locals.getD slot default) := by
      rw [List.getD_eq_getElem?_getD]
      cases held : s.locals[slot]? with
      | none => exact whole _ Value.intact_zero
      | some w => exact holds.locals w (List.mem_of_getElem? held)
    refine (keeps_typed _ fun new => of_setPath old fresh fun part => kept (of part)).bind
      fun new stored => ?_
    refine keeps_modify fun s holds => ⟨holds.store, fun w member => ?_⟩
    rcases List.mem_or_eq_of_mem_set member with before | rfl
    · exact holds.locals w before
    · exact stored
  · exact keeps_onStore (Store.keeps_write _ _)
  · exact keeps_onStore (Store.keeps_update _ _)

theorem keeps_load (c : RunContext) (line : Nat) (r : ResolvedTarget) :
    Keeps (RunState.Holds P) (c.load line r) fun _ => True := by
  cases r with
  | localVar slot path => exact keeps_get fun s _ => keeps_typed _ fun _ _ => trivial
  | buffer binding index path =>
    refine (keeps_onStore (Store.keeps_read index)).bind fun v _ => ?_
    exact keeps_typed _ fun _ _ => trivial

theorem keeps_storeAll (c : RunContext) (whole : ∀ v : Value, v.Intact → P v) (line : Nat)
    {v : Value} (fresh : P v) (targets : List Target)
    (literals : ∀ t ∈ targets, WholeLiterals t.nodes)
    (kept : ∀ t ∈ targets, t.isLocalPart → KeptInParts P) :
    Keeps (RunState.Holds P) (c.storeAll line v targets) fun _ => True := by
  induction targets with
  | nil => exact keeps_pure trivial
  | cons t rest ih =>
    refine (c.keeps_resolveTarget whole line t (literals t List.mem_cons_self)).bind
      fun resolved of => ?_
    have later := ih (fun t' member => literals t' (List.mem_cons_of_mem t member))
      fun t' member => kept t' (List.mem_cons_of_mem t member)
    cases resolved with
    | some target =>
      exact (c.keeps_store whole line fresh (of target rfl) (kept t List.mem_cons_self)).bind
        fun _ _ => later
    | none => exact later

theorem keeps_initial (c : RunContext) (whole : ∀ v : Value, v.Intact → P v) (line slot : Nat)
    (init : Option Expr) (literals : ∀ e ∈ init, WholeLiterals e.nodes) :
    Keeps (RunState.Holds P) (c.initial line slot init) P := by
  cases init with
  | none => exact keeps_pure (whole _ Value.intact_zero)
  | some e =>
    refine (c.keeps_eval whole e (literals e rfl)).bind fun v fresh => ?_
    split
    · exact keeps_pure fresh
    · exact keeps_throw _

theorem keeps_compound (c : RunContext) (whole : ∀ v : Value, v.Intact → P v) (line : Nat)
    (t : Target) (op : BinaryOp) (value : Expr) (in_value : WholeLiterals value.nodes)
    (in_target : WholeLiterals t.nodes) (kept : t.isLocalPart → KeptInParts P) :
    Keeps (RunState.Holds P) (c.compound line t op value) fun _ => True := by
  refine (c.keeps_eval whole value in_value).bind fun v _ => ?_
  refine (c.keeps_resolveTarget whole line t in_target).bind fun resolved of => ?_
  cases resolved with
  | none => exact keeps_pure trivial
  | some target =>
    refine (c.keeps_load line target).bind fun current _ => ?_
    refine (keeps_typed _ fun _ => Value.intact_binary).bind fun new made => ?_
    exact c.keeps_store whole line (whole new made) (of target rfl) kept

/-! ## Statements -/

mutual

/-- A statement keeps a property of the local variables. -/
theorem keeps_exec (c : RunContext) (whole : ∀ v : Value, v.Intact → P v) (stmt : Stmt)
    (literals : WholeLiterals stmt.nodes)
    (kept : ∀ x ∈ stmt.targets, x.1.isLocalPart → KeptInParts P) :
    Keeps (RunState.Holds P) (c.exec stmt) fun _ => True := by
  rw [exec.eq_def]
  refine (keeps_step c).bind fun _ _ => ?_
  cases stmt with
  | declare line slot init =>
    have literals : ∀ e ∈ init, WholeLiterals e.nodes := by
      rintro e rfl
      exact literals
    refine (c.keeps_initial whole line slot init literals).bind fun v fresh => ?_
    refine (keeps_modify fun s holds => ⟨holds.store, fun w member => ?_⟩).bind
      fun _ _ => keeps_pure trivial
    rcases List.mem_or_eq_of_mem_set member with before | rfl
    · exact holds.locals w before
    · exact fresh
  | assign line ts value =>
    obtain ⟨in_value, in_targets⟩ := wholeLiterals_append.1 literals
    refine (c.keeps_eval whole value in_value).bind fun v fresh => ?_
    refine (c.keeps_storeAll whole line fresh ts.reverse (fun t member => ?_) fun t member => ?_).bind
      fun _ _ => keeps_pure trivial
    · exact fun pos v inside =>
        in_targets pos v (List.mem_flatMap.2 ⟨t, List.mem_reverse.1 member, inside⟩)
    · exact kept (t, false) (List.mem_map.2 ⟨t, List.mem_reverse.1 member, rfl⟩)
  | compound line t op value =>
    obtain ⟨in_value, in_target⟩ := wholeLiterals_append.1 literals
    exact (c.keeps_compound whole line t op value in_value in_target
      (kept (t, true) List.mem_cons_self)).bind fun _ _ => keeps_pure trivial
  | imageStore line binding coord value =>
    obtain ⟨in_coord, in_value⟩ := wholeLiterals_append.1 literals
    refine (c.keeps_eval whole coord in_coord).bind fun v _ => ?_
    refine (keeps_asCoord coord v).bind fun xy _ => ?_
    refine (c.keeps_eval whole value in_value).bind fun w _ => ?_
    exact (keeps_onStore (Store.keeps_imageStore xy.1 xy.2 w)).bind fun _ _ => keeps_pure trivial
  | eval line e => exact (c.keeps_eval whole e literals).bind fun _ _ => keeps_pure trivial
  | branch line condition accepted =>
    obtain ⟨in_condition, in_accepted⟩ := wholeLiterals_append.1 literals
    refine (c.keeps_eval whole condition in_condition).bind fun v _ => ?_
    refine (keeps_asCondition condition v).bind fun a _ => ?_
    split
    · exact c.keeps_exec whole accepted in_accepted kept
    · exact keeps_pure trivial
  | branchElse line condition accepted rejected =>
    obtain ⟨in_condition, in_rest⟩ := wholeLiterals_append.1 literals
    obtain ⟨in_accepted, in_rejected⟩ := wholeLiterals_append.1 in_rest
    obtain ⟨on_accepted, on_rejected⟩ := List.forall_mem_append.1 kept
    refine (c.keeps_eval whole condition in_condition).bind fun v _ => ?_
    refine (keeps_asCondition condition v).bind fun a _ => ?_
    split
    · exact c.keeps_exec whole accepted in_accepted on_accepted
    · exact c.keeps_exec whole rejected in_rejected on_rejected
  | block line body => exact c.keeps_execAll whole body literals kept
  | leave line => exact keeps_pure trivial

theorem keeps_execAll (c : RunContext) (whole : ∀ v : Value, v.Intact → P v) (body : List Stmt)
    (literals : WholeLiterals (Stmt.nodesOf body))
    (kept : ∀ x ∈ Stmt.targetsOf body, x.1.isLocalPart → KeptInParts P) :
    Keeps (RunState.Holds P) (c.execAll body) fun _ => True := by
  cases body with
  | nil => exact keeps_pure trivial
  | cons stmt rest =>
    obtain ⟨in_here, in_later⟩ := wholeLiterals_append.1 literals
    obtain ⟨here, later⟩ := List.forall_mem_append.1 kept
    refine (c.keeps_exec whole stmt in_here here).bind fun flow _ => ?_
    cases flow with
    | leave => exact keeps_pure trivial
    | next => exact c.keeps_execAll whole rest in_later later

end

end RunContext

end ComputeShader
