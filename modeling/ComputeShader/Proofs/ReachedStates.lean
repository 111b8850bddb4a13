import ComputeShader.Proofs.ClosedShaders
import ComputeShader.Proofs.MistypedStores
import ComputeShader.Proofs.RepeatedEvaluation
import ComputeShader.Proofs.RunValues
import ComputeShader.Proofs.StoreRepresentation

/-! # States that an invocation reaches

An invocation starts on a store that operations have made, it executes statements, and between its steps
other invocations may do to the store what they like. In every state that it reaches so, local variables
and elements of buffers are of the types that the shader declares. By induction over the syntax a run keeps
whatever its steps, operations of the store and stores into typed local variables keep.
-/

namespace ComputeShader

/-- Whether the local variables are of the types that the shader declares for them. -/
def RunState.Typed (shader : Shader) (s : RunState) : Prop :=
  s.locals.map Value.ty = shader.locals.map LocalDecl.ty

namespace RunState.Typed

variable {shader : Shader} {s : RunState}

/-- A local variable may take any value of its type. -/
theorem set (typed : s.Typed shader) {slot : Nat} {v : Value}
    (fits : ∀ decl, shader.locals[slot]? = some decl → v.ty = decl.ty) :
    RunState.Typed shader { s with locals := s.locals.set slot v } := by
  refine .trans ?_ typed
  rw [List.map_set]
  refine List.ext_getElem? fun i => ?_
  rw [List.getElem?_set]
  split
  · next here =>
    subst here
    have slots := congrArg (·[slot]?) typed
    simp only [List.getElem?_map] at slots ⊢
    cases held : s.locals[slot]? with
    | none => simp [List.getElem?_eq_none_iff.1 held]
    | some old =>
      rw [held] at slots
      obtain ⟨decl, found, same⟩ := Option.map_eq_some_iff.1 slots.symm
      obtain ⟨inside, -⟩ := List.getElem?_eq_some_iff.1 held
      simp [inside, fits decl found, same]
  · rfl

/-- The value of a local variable is of the type that targets take it to have. -/
theorem ty_local (typed : s.Typed shader) (slot : Nat) :
    (s.locals.getD slot default).ty = (shader.localType? slot).getD default := by
  have slots := congrArg (·[slot]?) typed
  simp only [List.getElem?_map] at slots
  rw [List.getD_eq_getElem?_getD, Shader.localType?, ← slots]
  cases s.locals[slot]? <;> rfl

end RunState.Typed

/-- Whether the store is one that operations have made, and the local variables are of their types. -/
structure RunState.Declared (shader : Shader) (config : EngineConfig) (s : RunState) : Prop where
  operated : Operated shader config s.store
  locals : s.locals.map Value.ty = shader.locals.map LocalDecl.ty

namespace RunState.Declared

variable {shader : Shader} {config : EngineConfig} {s : RunState}

theorem perform (declared : s.Declared shader config) (op : Operation) (allowed : op.Allowed s.store) :
    RunState.Declared shader config { s with store := op.perform s.store } :=
  ⟨declared.operated.performed op allowed, declared.locals⟩

theorem counted (declared : s.Declared shader config) (steps : Nat) :
    RunState.Declared shader config { s with steps } :=
  ⟨declared.operated, declared.locals⟩

/-- A local variable may take any value of its type. -/
theorem setLocal (declared : s.Declared shader config) {slot : Nat} {v : Value}
    (typed : ∀ decl, shader.locals[slot]? = some decl → v.ty = decl.ty) :
    RunState.Declared shader config { s with locals := s.locals.set slot v } :=
  ⟨declared.operated, RunState.Typed.set declared.locals typed⟩

/-- The elements of a buffer are of the type that targets take them to have, if no two buffers share a
binding. -/
theorem element_buffer (declared : s.Declared shader config)
    (distinct : (shader.buffers.map BufferDecl.binding).Nodup) {binding : Binding} {decl : BufferDecl}
    (found : shader.buffer? binding = some decl) :
    ∃ b, s.store.buffers.get? binding = some b ∧ b.element = decl.element := by
  obtain rfl : decl.binding = binding := by simpa using List.find?_some found
  have listed := List.mem_of_find?_eq_some found
  have entry : shader.declarations.buffers.get? decl.binding = some (decl.displayName, decl.element) :=
    Bindings.get?_ofList_of_nodup distinct listed
  rw [← declared.operated.upholds.declarations, Store.declarations, Bindings.get?_mapValues] at entry
  obtain ⟨b, held, same⟩ := Option.map_eq_some_iff.1 entry
  exact ⟨b, held, (Prod.mk.inj same).2⟩

end RunState.Declared

namespace RunContext

variable {c : RunContext} {config : EngineConfig} {atomics : Prop} {α : Type}

/-! ## Evaluation -/

/-- What an evaluation asks of the store is an operation that is always allowed. -/
theorem Asks.performs {x y : StoreM α} (asks : c.Asks atomics x y) :
    ∃ op : Operation, (∀ s, op.Allowed s) ∧ ∀ s, Store.left (x s) = op.perform s := by
  cases asks with
  | resolve label label' index extent =>
    exact ⟨.resolve label index extent c.me, fun _ => trivial, fun _ => rfl⟩
  | uniform slot element => exact ⟨.uniform slot element c.me, fun _ => trivial, fun _ => rfl⟩
  | read binding index => exact ⟨.access (.read binding index) c.me, fun _ => trivial, fun _ => rfl⟩
  | length binding => exact ⟨.length binding, fun _ => trivial, fun _ => rfl⟩
  | atomic op binding index operands _ =>
    exact ⟨.access (.atomic op binding index operands) c.me, fun _ => trivial, fun _ => rfl⟩
  | imageLoad binding x y =>
    exact ⟨.access (.imageLoad binding x y) c.me, fun _ => trivial, fun _ => rfl⟩
  | imageAtomicAdd binding x y v _ =>
    exact ⟨.access (.imageAtomicAdd binding x y v) c.me, fun _ => trivial, fun _ => rfl⟩
  | imageSize binding => exact ⟨.imageSize binding, fun _ => trivial, fun _ => rfl⟩
  | sample binding r => exact ⟨.sample c.sampler binding r, fun _ => trivial, fun _ => rfl⟩

section Kept

variable {I : RunState → Prop}

theorem keeps_operation {x : StoreM α} {op : Operation}
    (same : ∀ s, Store.left (x s) = op.perform s)
    (performed : ∀ s, I s → I { s with store := op.perform s.store }) :
    Keeps I (onStore x) fun _ => True := by
  intro s before
  have after := performed s before
  rw [← same] at after
  simp only [onStore]
  cases ran : x s.store with
  | ok a store =>
    rw [ran] at after
    refine ⟨?_, by rintro e s' ⟨⟩⟩
    rintro a' s' ⟨⟩
    exact ⟨after, trivial⟩
  | error e store =>
    rw [ran] at after
    refine ⟨by rintro a s' ⟨⟩, ?_⟩
    rintro e' s' ⟨⟩
    exact after

theorem keeps_counted (counts : ∀ s steps, I s → I { s with steps }) : Keeps I c.step fun _ => True := by
  intro s before
  have after := counts s (s.steps + 1) before
  rw [step_eq]
  split
  · refine ⟨by rintro a s' ⟨⟩, ?_⟩
    rintro e s' ⟨⟩
    exact after
  · refine ⟨?_, by rintro e s' ⟨⟩⟩
    rintro a s' ⟨⟩
    exact ⟨after, trivial⟩

/-- An evaluation keeps what operations of the store and steps keep. -/
theorem Mirrors.keeps {x y : RunM α} (mirrors : c.Mirrors atomics x y)
    (counts : ∀ s steps, I s → I { s with steps })
    (performs : ∀ s (op : Operation), I s → op.Allowed s.store → I { s with store := op.perform s.store }) :
    Keeps I x fun _ => True := by
  induction mirrors with
  | pure a => exact keeps_pure trivial
  | bind _ _ first next => exact first.bind fun a _ => next a
  | step => exact keeps_counted counts
  | mismatch site site' e e' => exact keeps_throw _
  | loadLocal slot _ next => exact keeps_get fun s _ => next _
  | ask asks =>
    obtain ⟨op, allowed, same⟩ := asks.performs
    exact keeps_operation same fun s before => performs s op before (allowed s.store)

end Kept

/-- What a run keeps: steps and operations of the store keep it, it says that the local variables are of
their types, and values of these types may be stored into them. -/
structure Sustains (c : RunContext) (I : RunState → Prop) : Prop where
  counted : ∀ s steps, I s → I { s with steps }
  performed : ∀ s (op : Operation), I s → op.Allowed s.store → I { s with store := op.perform s.store }
  typed : ∀ s, I s → s.Typed c.shader
  set : ∀ s slot v, I s → (∀ decl, c.shader.locals[slot]? = some decl → v.ty = decl.ty) →
    I { s with locals := s.locals.set slot v }

theorem sustains_declared (c : RunContext) (config : EngineConfig) :
    c.Sustains (RunState.Declared c.shader config) where
  counted _ steps declared := declared.counted steps
  performed _ op declared allowed := declared.perform op allowed
  typed _ declared := declared.locals
  set _ _ _ declared fits := declared.setLocal fits

theorem sustains_typed (c : RunContext) : c.Sustains (RunState.Typed c.shader) where
  counted _ _ typed := typed
  performed _ _ typed _ := typed
  typed _ := id
  set _ _ _ typed fits := typed.set fits

namespace Sustains

variable {I : RunState → Prop}

theorem mirrors {x y : RunM α} (sustains : c.Sustains I) (mirrors : c.Mirrors atomics x y) :
    Keeps I x fun _ => True :=
  mirrors.keeps sustains.counted sustains.performed

theorem step (sustains : c.Sustains I) : Keeps I c.step fun _ => True :=
  keeps_counted sustains.counted

theorem eval (sustains : c.Sustains I) (e : Expr) : Keeps I (c.eval e) fun _ => True :=
  have all : Allows True e.nodes := fun _ _ _ => trivial
  sustains.mirrors (c.mirrors_eval e all)

theorem resolveTarget (sustains : c.Sustains I) (line : Nat) (t : Target) :
    Keeps I (c.resolveTarget line t) fun _ => True :=
  have all : Allows True t.nodes := fun _ _ _ => trivial
  sustains.mirrors (c.mirrors_resolveTarget line line t all)

theorem load (sustains : c.Sustains I) (line : Nat) (r : ResolvedTarget) :
    Keeps I (c.load line r) fun _ => True :=
  have mirrors : c.Mirrors True (c.load line r) (c.load line r) := c.mirrors_load line line r
  sustains.mirrors mirrors

/-! ## Statements -/

theorem access (sustains : c.Sustains I) (call : StoreCall) {x : StoreM α}
    (same : ∀ s, Store.left (x s) = Store.left (call.run c.me s)) :
    Keeps I (onStore x) fun _ => True :=
  have performs : ∀ s, Store.left (x s) = (Operation.access call c.me).perform s := same
  keeps_operation performs fun s before => sustains.performed s _ before trivial

/-- What is stored into a part of a local variable leaves the whole of its type. -/
theorem store (sustains : c.Sustains I) (line : Nat) (r : ResolvedTarget) (v : Value) :
    Keeps I (c.store line r v) fun _ => True := by
  unfold RunContext.store
  split
  · next slot path =>
    refine keeps_get fun s before => ?_
    have kept (new : Value) (stored : setPath (s.locals.getD slot default) path v = .ok new) :
        new.ty = (c.shader.localType? slot).getD default := by
      obtain ⟨new', stored', same⟩ := setPath_of_at? (at?_of_setPath stored)
      cases stored.symm.trans stored'
      exact same.trans ((sustains.typed s before).ty_local slot)
    refine (keeps_typed _ kept).bind fun new typed => ?_
    refine keeps_modify fun s' before' => sustains.set s' slot new before' fun decl found => ?_
    rw [typed, Shader.localType?, found]
    rfl
  · next binding index => exact sustains.access (.write binding index v) fun _ => rfl
  · next binding index path _ =>
    exact sustains.access (.update binding index fun old =>
      (setPath old path v).mapError (.typeMismatch (.atLine "store" line))) fun _ => rfl

theorem storeAll (sustains : c.Sustains I) (line : Nat) (v : Value) (targets : List Target) :
    Keeps I (c.storeAll line v targets) fun _ => True := by
  induction targets with
  | nil => exact keeps_pure trivial
  | cons t rest ih =>
    refine (sustains.resolveTarget line t).bind fun resolved _ => ?_
    cases resolved with
    | some target => exact (sustains.store line target v).bind fun _ _ => ih
    | none => exact ih

/-- An initial value is of the type of its variable. -/
theorem initial (sustains : c.Sustains I) (line slot : Nat) (init : Option Expr) :
    Keeps I (c.initial line slot init) fun v => v.ty = (c.shader.locals.getD slot default).ty := by
  cases init with
  | none => exact keeps_pure rfl
  | some e =>
    refine (sustains.eval e).bind fun v _ => ?_
    split
    · next same => exact keeps_pure same
    · exact keeps_throw _

theorem compound (sustains : c.Sustains I) (line : Nat) (t : Target) (op : BinaryOp) (value : Expr) :
    Keeps I (c.compound line t op value) fun _ => True := by
  refine (sustains.eval value).bind fun v _ => ?_
  refine (sustains.resolveTarget line t).bind fun resolved _ => ?_
  cases resolved with
  | none => exact keeps_pure trivial
  | some target =>
    refine (sustains.load line target).bind fun current _ => ?_
    refine (keeps_typed _ fun _ _ => trivial).bind fun new (_ : True) => ?_
    exact sustains.store line target new

mutual

theorem exec (sustains : c.Sustains I) (stmt : Stmt) : Keeps I (c.exec stmt) fun _ => True := by
  rw [exec.eq_def]
  refine sustains.step.bind fun _ _ => ?_
  cases stmt with
  | declare line slot init =>
    refine (sustains.initial line slot init).bind fun v typed => ?_
    refine (keeps_modify fun s before => sustains.set s slot v before fun decl found => ?_).bind
      fun _ _ => keeps_pure trivial
    rw [typed, List.getD_eq_getElem?_getD, found]
    rfl
  | assign line targets value =>
    refine (sustains.eval value).bind fun v _ => ?_
    exact (sustains.storeAll line v _).bind fun _ _ => keeps_pure trivial
  | compound line t op value =>
    exact (sustains.compound line t op value).bind fun _ _ => keeps_pure trivial
  | imageStore line binding coord value =>
    refine (sustains.eval coord).bind fun v _ => ?_
    refine (keeps_asCoord coord v).bind fun xy _ => ?_
    refine (sustains.eval value).bind fun w _ => ?_
    exact (sustains.access (.imageStore binding xy.1 xy.2 w) fun _ => rfl).bind
      fun _ _ => keeps_pure trivial
  | eval line e => exact (sustains.eval e).bind fun _ _ => keeps_pure trivial
  | branch line condition accepted =>
    refine (sustains.eval condition).bind fun v _ => ?_
    refine (keeps_asCondition condition v).bind fun a _ => ?_
    cases a with
    | true => exact exec sustains accepted
    | false => exact keeps_pure trivial
  | branchElse line condition accepted rejected =>
    refine (sustains.eval condition).bind fun v _ => ?_
    refine (keeps_asCondition condition v).bind fun a _ => ?_
    cases a with
    | true => exact exec sustains accepted
    | false => exact exec sustains rejected
  | block line body => exact execAll sustains body
  | leave line => exact keeps_pure trivial

theorem execAll (sustains : c.Sustains I) (body : List Stmt) :
    Keeps I (c.execAll body) fun _ => True := by
  cases body with
  | nil => exact keeps_pure trivial
  | cons stmt rest =>
    refine (exec sustains stmt).bind fun flow _ => ?_
    cases flow with
    | leave => exact keeps_pure trivial
    | next => exact execAll sustains rest

end

end Sustains

/-! ## Reached states -/

/-- The states that an invocation reaches: it starts on a store that operations have made, evaluates
expressions and executes statements, and any operation on the store may come between. The number of steps
is left open. -/
inductive Arises (c : RunContext) (config : EngineConfig) : RunState → Prop where
  | started {s : Store} (operated : Operated c.shader config s) : Arises c config (c.start s)
  | counted {s : RunState} (steps : Nat) (before : Arises c config s) :
      Arises c config { s with steps }
  | evaluated {s s' : RunState} {e : Expr} {v : Value} (before : Arises c config s)
      (ran : c.eval e s = .ok v s') : Arises c config s'
  | executed {s s' : RunState} {stmt : Stmt} {flow : Flow} (before : Arises c config s)
      (ran : c.exec stmt s = .ok flow s') : Arises c config s'
  | shared {s : RunState} (op : Operation) (before : Arises c config s) (allowed : op.Allowed s.store) :
      Arises c config { s with store := op.perform s.store }

theorem typed_start (c : RunContext) (s : Store) : (c.start s).Typed c.shader := by
  rw [RunState.Typed, start, List.map_map]
  rfl

/-- Whatever an invocation reaches is as its shader declares it. -/
theorem Arises.declared {s : RunState} (reached : c.Arises config s) :
    s.Declared c.shader config := by
  induction reached with
  | started operated => exact ⟨operated, c.typed_start _⟩
  | counted steps before ih => exact ih.counted steps
  | evaluated before ran ih => exact (((c.sustains_declared config).eval _ _ ih).1 _ _ ran).1
  | executed before ran ih => exact (((c.sustains_declared config).exec _ _ ih).1 _ _ ran).1
  | shared op before allowed ih => exact ih.perform op allowed

end RunContext

end ComputeShader
