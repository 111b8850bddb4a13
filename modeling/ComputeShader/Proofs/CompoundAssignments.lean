import ComputeShader.Proofs.ReachedStates

/-! # Compound assignments

`t op= e` loads the part of its place that the steps of the target select, while the operand `t` of
`t = t op e` is evaluated like any other expression: the subscripts and swizzles are applied to values, one
after another. Both come to the same, whatever the policy for indices out of bounds makes of the subscripts.
-/

namespace ComputeShader

/-- One step more on a path selects the part that it gives. -/
theorem getPath_concat {root v part : Value} {path : List Step} {step : Step}
    (selected : getPath root path = .ok v) (got : step.get v = .ok part) :
    getPath root (path ++ [step]) = .ok part := by
  induction path generalizing root with
  | nil =>
    cases selected
    exact congrArg (· >>= fun part => getPath part []) got
  | cons first rest ih =>
    obtain ⟨sub, sub_got, selected⟩ := exists_of_bind_eq_ok selected
    rw [List.cons_append, getPath, sub_got]
    exact ih selected

/-- The steps from the place of a target to the part of it. -/
def ResolvedTarget.path : ResolvedTarget → List Step
  | localVar _ path | buffer _ _ path => path

namespace RunContext

variable {c : RunContext} {config : EngineConfig} {view : Store × List Value} {α β : Type}

/-! ## What a run gives where an invocation sees the same -/

/-- Whether a run gives an answer in some state with a view. -/
def Yields (x : RunM α) (view : Store × List Value) (a : α) : Prop :=
  ∃ s s' : RunState, s.view = view ∧ x s = .ok a s'

section Yields

variable {x : RunM α} {a b : α}

theorem Yields.agree {y : RunM α} (yields : Yields x view a) (again : Yields y view b)
    (there : Follows x y) (back : Follows y x) : a = b := by
  obtain ⟨s, s', rfl, ran⟩ := yields
  obtain ⟨t, t', same, ran'⟩ := again
  exact there.agree back same ran ran'

theorem Yields.bind {k : α → RunM β} {b : β} (yields : Yields (x >>= k) view b) (repeats : Follows x x) :
    ∃ a, Yields x view a ∧ Yields (k a) view b := by
  obtain ⟨s, s', rfl, ran⟩ := yields
  obtain ⟨a, t, first, rest⟩ := exists_of_ran_bind ran
  exact ⟨a, ⟨s, t, rfl, first⟩, t, s', (repeats s a t first).1, rest⟩

theorem Yields.pure (yields : Yields (Pure.pure a : RunM α) view b) : a = b := by
  obtain ⟨s, s', -, ran⟩ := yields
  cases ran
  rfl

theorem Yields.typed {site : AccessSite} {answer : Except TypeError α}
    (yields : Yields (RunContext.typed site answer) view a) : answer = .ok a := by
  obtain ⟨s, s', -, ran⟩ := yields
  cases answer with
  | error e => cases ran
  | ok b =>
    cases ran
    rfl

theorem Yields.not_throw {e : EngineError} (yields : Yields (throw e : RunM α) view a) : False := by
  obtain ⟨s, s', -, ran⟩ := yields
  cases ran

end Yields

/-! ## Parts of a run that can be repeated -/

theorem Mirrors.repeats {x y : RunM α} (mirrors : c.Mirrors False x y) : Follows x x :=
  mirrors.follows.trans mirrors.symm.follows

theorem repeats_eval (c : RunContext) {e : Expr} (free : e.AtomicFree) :
    Follows (c.eval e) (c.eval e) :=
  c.follows_eval free rfl

theorem repeats_asIndex (c : RunContext) (e : Expr) (v : Value) :
    Follows (asIndex e v) (asIndex e v) :=
  (Mirrors.asIndex (c := c) e e v).follows

theorem follows_resolve (c : RunContext) (label label' : String) (index : Int) (extent : Nat) :
    Follows (onStore (Store.resolve label index extent c.me))
      (onStore (Store.resolve label' index extent c.me)) :=
  follows_onStore (Store.looks_resolve label label' index extent)

theorem repeats_resolvePath (c : RunContext) (line : Nat) (ty : ValueType) {path : List Projection}
    (free : ∀ n ∈ path.flatMap Projection.nodes, n.isAtomic = false) :
    Follows (c.resolvePath line ty path) (c.resolvePath line ty path) :=
  (c.mirrors_resolvePath line line ty path (allows_of_atomicFree free)).repeats

theorem follows_resolveTarget (c : RunContext) (line line' : Nat) {t t' : Target}
    (same : t'.unplaced = t.unplaced) (free : ∀ n ∈ t.nodes, n.isAtomic = false)
    (free' : ∀ n ∈ t'.nodes, n.isAtomic = false) :
    Follows (c.resolveTarget line t) (c.resolveTarget line' t') := by
  have there := (c.mirrors_resolveTarget line line t (allows_of_atomicFree free)).follows
  have back := (c.mirrors_resolveTarget line' line t' (allows_of_atomicFree free')).symm.follows
  exact there.trans (same ▸ back)

/-- Whatever occurs in a target occurs in the expression that denotes it. -/
theorem nodes_targetFrom {path : List Projection} {e : Expr} {t : Target}
    (denotes : Parser.targetFrom path e = .ok t) {n : Expr} (member : n ∈ t.nodes) :
    n ∈ e.nodes ∨ n ∈ path.flatMap Projection.nodes := by
  fun_induction Parser.targetFrom path e with
  | case1 path pos base index ih =>
    rcases ih denotes with inside | inside
    · exact .inl (List.mem_cons_of_mem _ (List.mem_append_left _ inside))
    · rcases List.mem_append.1 inside with here | rest
      · exact .inl (List.mem_cons_of_mem _ (List.mem_append_right _ here))
      · exact .inr rest
  | case2 path pos base selection distinct ih =>
    exact (ih denotes).imp_left (List.mem_cons_of_mem _)
  | case4 path pos slot =>
    cases denotes
    exact .inr member
  | case5 path pos binding index =>
    cases denotes
    exact (List.mem_append.1 member).imp_left (List.mem_cons_of_mem _)
  | _ => cases denotes

/-! ## Loading what an expression reads -/

/-- The value of the place of a target as a whole. -/
def held (c : RunContext) : ResolvedTarget → RunM Value
  | .localVar slot _ => return (← get).locals.getD slot default
  | .buffer binding index _ => onStore (Store.read binding index c.me)

theorem load_eq (c : RunContext) (line : Nat) (r : ResolvedTarget) :
    c.load line r = c.held r >>= fun root => typed (.atLine "load" line) (getPath root r.path) := by
  cases r <;> rfl

/-- A place holds the same in all states with one view. -/
theorem held_of_yields {r : ResolvedTarget} {root : Value} (yields : Yields (c.held r) view root)
    {s : RunState} (same : s.view = view) : ∃ s', c.held r s = .ok root s' ∧ s'.view = view := by
  obtain ⟨t, t', rfl, ran⟩ := yields
  cases r with
  | localVar slot path =>
    cases ran
    refine ⟨s, ?_, same⟩
    rw [← RunState.locals_of_view same]
    rfl
  | buffer binding index path =>
    obtain ⟨s', read, kept, -⟩ := exists_onStore_of_tracks (Store.looks_read index).tracks ran same
    exact ⟨s', read, kept.trans (view_onStore (Store.looks_read index) ran)⟩

/-- What is read from a buffer is of the type of its elements. -/
theorem ty_read {binding : Binding} {index : Int} {me : InvocationId} {b : Buffer} {s s' : Store}
    {v : Value} (found : s.buffers.get? binding = some b)
    (ran : Store.read binding index me s = .ok v s') : v.ty = b.element := by
  rw [Store.read_eq found, Store.touching] at ran
  split at ran <;> cases ran
  · rfl
  · rfl

/-- A subscript in an expression selects what the same subscript on a path comes to, unless the policy drops
it there. -/
theorem subscript_selects {line : Nat} {pos : Position} {index : Expr} {path : List Projection}
    {v part w : Value} {i : Int} {after : List Step} (free : index.AtomicFree)
    (free_path : ∀ n ∈ path.flatMap Projection.nodes, n.isAtomic = false)
    (on_index : Yields (c.eval index) view w) (as_index : Yields (asIndex index w) view i)
    (evaluated : Yields (c.subscript pos v i) view part)
    (resolved : Yields (c.resolvePath line v.ty (.subscript index :: path)) view (some after)) :
    ∃ step rest, after = step :: rest ∧ step.get v = .ok part ∧
      Yields (c.resolvePath line part.ty path) view (some rest) := by
  rw [resolvePath] at resolved
  obtain ⟨w', on_index', resolved⟩ := resolved.bind (c.repeats_eval free)
  obtain rfl := on_index.agree on_index' (c.repeats_eval free) (c.repeats_eval free)
  obtain ⟨i', as_index', resolved⟩ := resolved.bind (c.repeats_asIndex index w)
  obtain rfl := as_index.agree as_index' (c.repeats_asIndex index w) (c.repeats_asIndex index w)
  rw [subscript] at evaluated
  cases elements : v.ty.element? with
  | none =>
    rw [elements] at evaluated
    exact evaluated.not_throw.elim
  | some element =>
    obtain ⟨ty, count⟩ := element
    rw [elements] at evaluated resolved
    obtain ⟨found, inside, evaluated⟩ := evaluated.bind (c.follows_resolve _ _ i count)
    obtain ⟨found', inside', resolved⟩ := resolved.bind (c.follows_resolve _ _ i count)
    obtain rfl := inside.agree inside' (c.follows_resolve _ _ i count) (c.follows_resolve _ _ i count)
    cases found with
    | none => cases resolved.pure
    | some k =>
      have selected : v.element k = .ok part := evaluated.typed
      obtain ⟨rest?, further, resolved⟩ := resolved.bind (c.repeats_resolvePath line ty free_path)
      obtain ⟨rest, rfl, rfl⟩ := Option.map_eq_some_iff.1 resolved.pure
      have got : (Step.index k).get v = .ok part := selected
      obtain ⟨count', elements', -⟩ := Step.part?_index.1 (Step.part?_of_get got)
      cases elements.symm.trans elements'
      exact ⟨.index k, rest, rfl, selected, further⟩

theorem swizzle_selects {line : Nat} {selection : List Nat} {path : List Projection} {v part : Value}
    {after : List Step} (free_path : ∀ n ∈ path.flatMap Projection.nodes, n.isAtomic = false)
    (selected : v.swizzle selection = .ok part)
    (resolved : Yields (c.resolvePath line v.ty (.swizzle selection :: path)) view (some after)) :
    ∃ step rest, after = step :: rest ∧ step.get v = .ok part ∧
      Yields (c.resolvePath line part.ty path) view (some rest) := by
  have got : (Step.swizzle selection).get v = .ok part := selected
  obtain ⟨kind, size, ty, inside, count⟩ := Step.part?_swizzle.1 (Step.part?_of_get got)
  have within : selection.all (· < size.toNat) = true :=
    List.all_eq_true.2 fun i member => decide_eq_true (inside i member)
  rw [ty] at resolved
  unfold resolvePath at resolved
  dsimp only at resolved
  rw [if_pos within, count] at resolved
  obtain ⟨rest?, further, resolved⟩ := resolved.bind (c.repeats_resolvePath line part.ty free_path)
  obtain ⟨rest, rfl, rfl⟩ := Option.map_eq_some_iff.1 resolved.pure
  exact ⟨.swizzle selection, rest, rfl, selected, further⟩

/-- The place of a local variable holds what is read from the variable. -/
theorem local_selects {s : RunState} (declared : s.Declared c.shader config) {line slot : Nat} {pos : Position}
    {path : List Projection} {r : ResolvedTarget} {v : Value}
    (free_path : ∀ n ∈ path.flatMap Projection.nodes, n.isAtomic = false)
    (evaluated : Yields (c.eval (.localVar pos slot)) s.view v)
    (resolved : Yields (c.resolveTarget line ⟨.localVar slot, path⟩) s.view (some r)) :
    Yields (c.held r) s.view v ∧ Yields (c.resolvePath line v.ty path) s.view (some r.path) := by
  rw [eval.eq_def] at evaluated
  obtain ⟨_, -, evaluated⟩ := evaluated.bind (follows_step c)
  obtain ⟨steps?, further, resolved⟩ := resolved.bind (c.repeats_resolvePath line _ free_path)
  obtain ⟨steps, rfl, rfl⟩ := Option.map_eq_some_iff.1 resolved.pure
  obtain ⟨t, t', same, ran⟩ := id evaluated
  cases ran
  refine ⟨evaluated, ?_⟩
  rw [RunState.locals_of_view same, RunState.Typed.ty_local declared.locals]
  exact further

/-- The place of an element holds what is read from the buffer, which is of the declared type. -/
theorem element_selects {s : RunState} (distinct : (c.shader.buffers.map BufferDecl.binding).Nodup)
    (declared : s.Declared c.shader config) {line : Nat} {pos : Position} {binding : Binding} {index : Expr}
    {path : List Projection} {r : ResolvedTarget} {v : Value} (free : index.AtomicFree)
    (free_path : ∀ n ∈ path.flatMap Projection.nodes, n.isAtomic = false)
    (evaluated : Yields (c.eval (.bufferElement pos binding index)) s.view v)
    (resolved : Yields (c.resolveTarget line ⟨.bufferElement binding index, path⟩) s.view (some r)) :
    Yields (c.held r) s.view v ∧ Yields (c.resolvePath line v.ty path) s.view (some r.path) := by
  rw [eval.eq_def] at evaluated
  obtain ⟨_, -, evaluated⟩ := evaluated.bind (follows_step c)
  obtain ⟨w, on_index, evaluated⟩ := evaluated.bind (c.repeats_eval free)
  obtain ⟨i, as_index, evaluated⟩ := evaluated.bind (c.repeats_asIndex index w)
  obtain ⟨w', on_index', resolved⟩ := resolved.bind (c.repeats_eval free)
  obtain rfl := on_index.agree on_index' (c.repeats_eval free) (c.repeats_eval free)
  obtain ⟨i', as_index', resolved⟩ := resolved.bind (c.repeats_asIndex index w)
  obtain rfl := as_index.agree as_index' (c.repeats_asIndex index w) (c.repeats_asIndex index w)
  cases found : c.shader.buffer? binding with
  | none =>
    rw [found] at resolved
    exact resolved.not_throw.elim
  | some decl =>
    rw [found] at resolved
    obtain ⟨steps?, further, resolved⟩ := resolved.bind (c.repeats_resolvePath line _ free_path)
    obtain ⟨steps, rfl, rfl⟩ := Option.map_eq_some_iff.1 resolved.pure
    refine ⟨evaluated, ?_⟩
    obtain ⟨b, held, element⟩ := declared.element_buffer distinct found
    obtain ⟨t, t', same, ran⟩ := evaluated
    obtain ⟨store, read, -⟩ := exists_of_onStore ran
    rw [← Store.buffers_of_visible (RunState.store_of_view same)] at held
    rw [ty_read held read, element]
    exact further

/-- The value of an expression is the part at the end of the steps to which the subscripts of the target that
it denotes come. By induction over the expression, whose projections are the front of the path: the steps
`before` are theirs, and from there on the rest of the path comes to the steps `after`. -/
theorem exists_selected {s : RunState} (distinct : (c.shader.buffers.map BufferDecl.binding).Nodup)
    (declared : s.Declared c.shader config) {line : Nat} {path : List Projection} {e : Expr} {t : Target}
    {r : ResolvedTarget} {v : Value} (denotes : Parser.targetFrom path e = .ok t) (free : e.AtomicFree)
    (free_path : ∀ n ∈ path.flatMap Projection.nodes, n.isAtomic = false)
    (evaluated : Yields (c.eval e) s.view v)
    (resolved : Yields (c.resolveTarget line t) s.view (some r)) :
    ∃ root before after, Yields (c.held r) s.view root ∧ getPath root before = .ok v ∧
      r.path = before ++ after ∧ Yields (c.resolvePath line v.ty path) s.view (some after) := by
  fun_induction Parser.targetFrom path e generalizing v with
  | case1 path pos base index ih =>
    obtain ⟨free_base, free_index⟩ := List.forall_mem_append.1 (List.forall_mem_cons.1 free).2
    rw [eval.eq_def] at evaluated
    obtain ⟨_, -, evaluated⟩ := evaluated.bind (follows_step c)
    obtain ⟨w, on_base, evaluated⟩ := evaluated.bind (c.repeats_eval free_base)
    obtain ⟨u, on_index, evaluated⟩ := evaluated.bind (c.repeats_eval free_index)
    obtain ⟨i, as_index, evaluated⟩ := evaluated.bind (c.repeats_asIndex index u)
    obtain ⟨root, before, after, held, selected, split, further⟩ :=
      ih denotes free_base (List.forall_mem_append.2 ⟨free_index, free_path⟩) on_base
    obtain ⟨step, rest, rfl, got, further⟩ :=
      subscript_selects free_index free_path on_index as_index evaluated further
    exact ⟨root, before ++ [step], rest, held, getPath_concat selected got,
      split.trans (List.append_cons before step rest), further⟩
  | case2 path pos base selection _ ih =>
    have free_base : base.AtomicFree := (List.forall_mem_cons.1 free).2
    rw [eval.eq_def] at evaluated
    obtain ⟨_, -, evaluated⟩ := evaluated.bind (follows_step c)
    obtain ⟨w, on_base, evaluated⟩ := evaluated.bind (c.repeats_eval free_base)
    obtain ⟨root, before, after, held, selected, split, further⟩ := ih denotes free_base free_path on_base
    obtain ⟨step, rest, rfl, got, further⟩ := swizzle_selects free_path evaluated.typed further
    exact ⟨root, before ++ [step], rest, held, getPath_concat selected got,
      split.trans (List.append_cons before step rest), further⟩
  | case4 path pos slot =>
    cases denotes
    obtain ⟨held, further⟩ := local_selects declared free_path evaluated resolved
    exact ⟨v, [], r.path, held, rfl, rfl, further⟩
  | case5 path pos binding index =>
    cases denotes
    obtain ⟨held, further⟩ :=
      element_selects distinct declared (List.forall_mem_cons.1 free).2 free_path evaluated resolved
    exact ⟨v, [], r.path, held, rfl, rfl, further⟩
  | _ => cases denotes

/-! ## Storing again -/

theorem exists_of_typed {site : AccessSite} {answer : Except TypeError α} {s s' : RunState} {a : α}
    (ran : typed site answer s = .ok a s') : answer = .ok a ∧ s' = s := by
  cases answer with
  | error e => cases ran
  | ok b =>
    cases ran
    exact ⟨rfl, rfl⟩

theorem store_local (c : RunContext) (line slot : Nat) (path : List Step) (v : Value) (s : RunState) :
    c.store line (.localVar slot path) v s =
      (typed (.atLine "store" line) (setPath (s.locals.getD slot default) path v) >>= fun new =>
        modify fun s => { s with locals := s.locals.set slot new }) s :=
  rfl

/-- A store leaves the same to an invocation that sees the same. -/
theorem exists_store_of_view {line : Nat} (line' : Nat) {r : ResolvedTarget} {v : Value} {s s' t : RunState}
    (ran : c.store line r v s = .ok () s') (same : t.view = s.view) :
    ∃ t', c.store line' r v t = .ok () t' ∧ t'.view = s'.view := by
  cases r with
  | localVar slot path =>
    rw [store_local] at ran
    obtain ⟨new, _, checked, stored⟩ := exists_of_ran_bind ran
    obtain ⟨replaced, rfl⟩ := exists_of_typed checked
    cases stored
    have store := RunState.store_of_view same
    have locals := RunState.locals_of_view same
    refine ⟨{ t with locals := t.locals.set slot new }, ?_, ?_⟩
    · rw [store_local, locals, replaced, ← locals]
      rfl
    · exact congrArg₂ Prod.mk store (congrArg (·.set slot new) locals)
  | buffer binding index path =>
    cases path with
    | nil =>
      obtain ⟨t', stored, same', -⟩ := exists_onStore_of_tracks (Store.tracks_write index v) ran same
      exact ⟨t', stored, same'⟩
    | cons step rest =>
      refine (exists_onStore_of_tracks (Store.tracks_update index fun old new changed => ?_) ran same).imp
        fun t' stored => ⟨stored.1, stored.2.1⟩
      cases replaced : setPath old (step :: rest) v with
      | error e =>
        rw [replaced] at changed
        cases changed
      | ok new' =>
        rw [replaced] at changed
        exact changed

/-- A target with its subscripts evaluated loads what the expression reads that denotes it. -/
theorem exists_load_of_eval {s : RunState} (distinct : (c.shader.buffers.map BufferDecl.binding).Nodup)
    (declared : s.Declared c.shader config) {line : Nat} {e : Expr} {t : Target} {r : ResolvedTarget}
    {v : Value} (denotes : Parser.targetFrom [] e = .ok t) (free : e.AtomicFree)
    (evaluated : Yields (c.eval e) s.view v) (resolved : Yields (c.resolveTarget line t) s.view (some r))
    (line' : Nat) {u : RunState} (same : u.view = s.view) :
    ∃ u', c.load line' r u = .ok v u' ∧ u'.view = s.view := by
  obtain ⟨root, before, after, held, selected, split, last⟩ :=
    exists_selected distinct declared denotes free (by simp) evaluated resolved
  obtain rfl : [] = after := Option.some.inj last.pure
  obtain ⟨u', read, kept⟩ := held_of_yields held same
  refine ⟨u', ?_, kept⟩
  rw [load_eq, bind_eq_of_ok read, split, List.append_nil, selected]
  rfl

/-! ## The two assignments -/

/-- Whether a statement completes in a state. -/
def completes (c : RunContext) (stmt : Stmt) (s : RunState) : Bool :=
  match c.exec stmt s with
  | .ok .next _ => true
  | _ => false

/-- The state that a statement leaves. -/
def after (c : RunContext) (stmt : Stmt) (s : RunState) : RunState :=
  match c.exec stmt s with
  | .ok _ s' | .error _ s' => s'

theorem completes_iff {stmt : Stmt} {s : RunState} :
    c.completes stmt s ↔ c.exec stmt s = .ok .next (c.after stmt s) := by
  rw [completes, after]
  cases c.exec stmt s with
  | error e s' => simp
  | ok flow s' => cases flow <;> simp

section Assignments

variable {s s₁ s₂ s₃ s₄ s' : RunState} {t : Target} {op : BinaryOp} {operand value : Expr} {line : Nat}
  {pos : Position} {a b v : Value} {r : ResolvedTarget}

/-- What an assignment has done that completes: the operand, the right-hand side and the target, after two
steps, and the store unless the policy drops it. -/
theorem exists_of_assign (ran : c.exec (.assign line [t] (.binary pos op operand value)) s = .ok .next s') :
    ∃ s₁ s₂ s₃ s₄ s₅ a b v resolved, c.step s = .ok () s₁ ∧ c.step s₁ = .ok () s₂ ∧
      c.eval operand s₂ = .ok a s₃ ∧ c.eval value s₃ = .ok b s₄ ∧ Value.binary op a b = .ok v ∧
      c.resolveTarget line t s₄ = .ok resolved s₅ ∧ (resolved = none → s' = s₅) ∧
      ∀ r ∈ resolved, c.store line r v s₅ = .ok () s' := by
  rw [exec.eq_def] at ran
  obtain ⟨_, s₁, stepped, ran⟩ := exists_of_ran_bind ran
  obtain ⟨v, s₄, evaluated, ran⟩ := exists_of_ran_bind ran
  obtain ⟨_, _, stored, ran⟩ := exists_of_ran_bind ran
  cases ran
  rw [eval.eq_def] at evaluated
  obtain ⟨_, s₂, stepped₂, evaluated⟩ := exists_of_ran_bind evaluated
  obtain ⟨a, s₃, on_operand, evaluated⟩ := exists_of_ran_bind evaluated
  obtain ⟨b, _, on_value, checked⟩ := exists_of_ran_bind evaluated
  obtain ⟨computed, rfl⟩ := exists_of_typed checked
  obtain ⟨resolved, s₅, came, stored⟩ := exists_of_ran_bind stored
  refine ⟨s₁, s₂, s₃, s₄, s₅, a, b, v, resolved, stepped, stepped₂, on_operand, on_value, computed, came,
    ?_, ?_⟩
  · rintro rfl
    cases stored
    rfl
  · rintro r rfl
    obtain ⟨_, _, stored, rest⟩ := exists_of_ran_bind stored
    cases rest
    exact stored

theorem exec_compound_of_dropped (stepped : c.step s = .ok () s₁) (on_value : c.eval value s₁ = .ok b s₂)
    (came : c.resolveTarget line t s₂ = .ok none s') :
    c.exec (.compound line t op value) s = .ok .next s' := by
  have done : c.compound line t op value s₁ = .ok () s' :=
    (bind_eq_of_ok on_value).trans (bind_eq_of_ok came)
  rw [exec.eq_def, bind_eq_of_ok stepped]
  exact bind_eq_of_ok done

theorem exec_compound_of_stored (stepped : c.step s = .ok () s₁) (on_value : c.eval value s₁ = .ok b s₂)
    (came : c.resolveTarget line t s₂ = .ok (some r) s₃) (loaded : c.load line r s₃ = .ok a s₄)
    (computed : Value.binary op a b = .ok v) (stored : c.store line r v s₄ = .ok () s') :
    c.exec (.compound line t op value) s = .ok .next s' := by
  have done : c.compound line t op value s₁ = .ok () s' := by
    refine (bind_eq_of_ok on_value).trans ((bind_eq_of_ok came).trans ((bind_eq_of_ok loaded).trans ?_))
    rw [computed]
    exact stored
  rw [exec.eq_def, bind_eq_of_ok stepped]
  exact bind_eq_of_ok done

end Assignments

/-- Where an assignment completes that expands a compound one, the compound one completes as well, and an
invocation sees the same after both. -/
theorem exists_compound_of_assign {s s' : RunState} (declared : s.Declared c.shader config)
    (distinct : (c.shader.buffers.map BufferDecl.binding).Nodup)
    {assigned operand combined value value' : Expr} {t t' : Target}
    (denotes : Parser.targetFrom [] assigned = .ok t) (denotes' : Parser.targetFrom [] combined = .ok t')
    (same_operand : operand.unplaced = assigned.unplaced)
    (same_combined : combined.unplaced = assigned.unplaced) (same_value : value'.unplaced = value.unplaced)
    (free : assigned.AtomicFree) (free_value : value.AtomicFree) {line : Nat} (line' : Nat) {pos : Position}
    {op : BinaryOp} (ran : c.exec (.assign line [t] (.binary pos op operand value)) s = .ok .next s') :
    ∃ s'', c.exec (.compound line' t' op value') s = .ok .next s'' ∧ s''.view = s'.view := by
  have free_operand : operand.AtomicFree := free.of_same same_operand
  have free_combined : combined.AtomicFree := free.of_same same_combined
  have same_target : t'.unplaced = t.unplaced := by
    obtain ⟨t₁, denotes₁, same⟩ := Parser.exists_targetFrom same_combined denotes
    cases denotes'.symm.trans denotes₁
    exact same
  have in_target : ∀ n ∈ t.nodes, n.isAtomic = false := fun n member =>
    (nodes_targetFrom denotes member).elim (free n) (by simp)
  have in_target' : ∀ n ∈ t'.nodes, n.isAtomic = false := fun n member =>
    (nodes_targetFrom denotes' member).elim (free_combined n) (by simp)
  obtain ⟨s₁, s₂, s₃, s₄, s₅, a, b, v, resolved, stepped, stepped₂, on_operand, on_value, computed, came,
    dropped, stored⟩ := exists_of_assign ran
  -- Nothing before the store changes what the invocation sees.
  obtain ⟨view₁, -, -⟩ := follows_step c s _ s₁ stepped
  obtain ⟨view₂, steps₂, -⟩ := follows_step c s₁ _ s₂ stepped₂
  obtain ⟨view₃, steps₃, again₃⟩ := c.follows_eval free_operand same_operand.symm s₂ a s₃ on_operand
  obtain ⟨view₄, -, again₄⟩ := c.follows_eval free_value same_value s₃ b s₄ on_value
  obtain ⟨view₅, -, again₅⟩ :=
    c.follows_resolveTarget line line' same_target in_target in_target' s₄ resolved s₅ came
  have unchanged : s₄.view = s.view := view₄.trans (view₃.trans (view₂.trans view₁))
  -- The compound assignment goes without the second step and the operand, and comes to the same target.
  obtain ⟨t₂, on_value', same₂, fewer₂⟩ :=
    again₄ s₁ (view₃.trans view₂).symm (Nat.le_trans steps₂ steps₃)
  obtain ⟨t₃, came', same₃, -⟩ := again₅ t₂ (same₂.trans view₄.symm) fewer₂
  cases resolved with
  | none =>
    refine ⟨t₃, exec_compound_of_dropped stepped on_value' came', ?_⟩
    exact (same₃.trans view₅.symm).trans (congrArg RunState.view (dropped rfl).symm)
  | some r =>
    obtain ⟨_, on_assigned, -⟩ := again₃ s₂ rfl (Nat.le_refl _)
    obtain ⟨t₄, loaded, same₄⟩ := exists_load_of_eval distinct declared denotes free
      ⟨s₂, _, view₂.trans view₁, on_assigned⟩ ⟨s₄, _, unchanged, came⟩ line' (same₃.trans unchanged)
    obtain ⟨t₅, stored', same₅⟩ := exists_store_of_view line' (stored r rfl)
      (same₄.trans (unchanged.symm.trans view₅.symm))
    exact ⟨t₅, exec_compound_of_stored stepped on_value' came' loaded computed stored', same₅⟩

/-- If `t = t op e` completes, then so does `t op= e`, and it leaves the same local variables, buffers and
images. Wherever they are written, the targets, the operand and the right-hand sides are the same up to
positions, and they have no atomics. -/
theorem compound_assignment {s : RunState} (reached : c.Arises config s)
    (distinct : (c.shader.buffers.map BufferDecl.binding).Nodup)
    {assigned operand combined value value' : Expr} {t t' : Target}
    (denotes : Parser.targetFrom [] assigned = .ok t) (denotes' : Parser.targetFrom [] combined = .ok t')
    (same_operand : operand.unplaced = assigned.unplaced)
    (same_combined : combined.unplaced = assigned.unplaced) (same_value : value'.unplaced = value.unplaced)
    (free : assigned.AtomicFree) (free_value : value.AtomicFree) {line line' : Nat} {pos : Position}
    {op : BinaryOp} (completed : c.completes (.assign line [t] (.binary pos op operand value)) s) :
    let expanded := c.after (.assign line [t] (.binary pos op operand value)) s
    let compounded := c.after (.compound line' t' op value') s
    c.completes (.compound line' t' op value') s ∧ compounded.locals = expanded.locals ∧
      compounded.store.buffers = expanded.store.buffers ∧
      compounded.store.images = expanded.store.images := by
  intro expanded compounded
  obtain ⟨s'', ran, same⟩ := exists_compound_of_assign reached.declared distinct denotes denotes'
    same_operand same_combined same_value free free_value line' (completes_iff.1 completed)
  obtain rfl : compounded = s'' := by simp only [compounded, after, ran]
  exact ⟨completes_iff.2 ran, RunState.locals_of_view same,
    Store.buffers_of_visible (RunState.store_of_view same),
    Store.images_of_visible (RunState.store_of_view same)⟩

/-- An invocation over a buffer of two triples of words. -/
def draining : RunContext where
  shader :=
    { name := "draining", version := 310, extensions := [], localSize := ⟨1, 1, 1⟩,
      buffers := [⟨0, "Levels", none, "L", .vector .uint .three, .readWrite⟩],
      images := [], samplers := [], uniforms := [], locals := [], body := [] }
  sampler := .external
  stepBudget := 20
  invocation := ⟨⟨0, 0, 0⟩, ⟨0, 0, 0⟩, ⟨1, 1, 1⟩, ⟨1, 1, 1⟩⟩
  me := 0

/-- The expression `L[9].zxy[7]`, all of it at one place. -/
def lastLevel (pos : Position) : Expr :=
  .subscript pos (.swizzle pos (.bufferElement pos 0 (.literal pos (.uint 9))) [2, 0, 1])
    (.literal pos (.uint 7))

/-- The target `L[9].zxy[7]`. -/
def lastLevelTarget (pos : Position) : Target :=
  ⟨.bufferElement 0 (.literal pos (.uint 9)),
    [.swizzle [2, 0, 1], .subscript (.literal pos (.uint 7))]⟩

/-- Out of range, the index stands for the last element and the subscript for the last component of the
swizzle. `L[9].zxy[7] -= L[1].y - 3` takes 37 from 40. -/
theorem compound_assignment_draining :
    let filling : Stmt := .assign 1 [⟨.bufferElement 0 (.literal ⟨1, 3⟩ (.uint 1)), [.swizzle [1]]⟩]
      (.literal ⟨1, 9⟩ (.uint 40))
    let rest (pos : Position) : Expr := .binary pos .sub
      (.swizzle pos (.bufferElement pos 0 (.literal pos (.uint 1))) [1]) (.literal pos (.uint 3))
    let empty := draining.start (.create draining.shader { bufferLength := 2 })
    let s := draining.after filling empty
    let drain : Stmt := .compound 3 (lastLevelTarget ⟨3, 1⟩) .sub (rest ⟨3, 9⟩)
    draining.Arises { bufferLength := 2 } s ∧
      s.store.buffers.get? 0 = some ⟨"L", .vector .uint .three, #[[0, 0, 0], [0, 40, 0]]⟩ ∧
      draining.completes drain s ∧ (draining.after drain s).store.buffers.get? 0 =
        some ⟨"L", .vector .uint .three, #[[0, 0, 0], [0, 3, 0]]⟩ := by
  intro filling rest empty s drain
  have filled : draining.completes filling empty := by decide +kernel
  have reached : draining.Arises { bufferLength := 2 } s :=
    .executed (.started .created) (completes_iff.1 filled)
  have denotes (pos : Position) : Parser.targetFrom [] (lastLevel pos) = .ok (lastLevelTarget pos) := rfl
  have same (pos pos' : Position) : (lastLevel pos).unplaced = (lastLevel pos').unplaced := rfl
  have same_rest (pos pos' : Position) : (rest pos).unplaced = (rest pos').unplaced := rfl
  have written : draining.completes
      (.assign 2 [lastLevelTarget ⟨2, 1⟩] (.binary ⟨2, 7⟩ .sub (lastLevel ⟨2, 9⟩) (rest ⟨2, 17⟩))) s := by
    decide +kernel
  obtain ⟨completed, -, buffers, -⟩ : draining.completes drain s ∧ _ :=
    compound_assignment reached (by decide) (denotes ⟨2, 1⟩) (denotes ⟨3, 1⟩) (same _ _) (same _ _)
      (same_rest _ _) (by decide) (by decide) written
  exact ⟨reached, by decide +kernel, completed, by rw [buffers]; decide +kernel⟩

end RunContext

end ComputeShader
