import ComputeShader.Proofs.CompoundAssignments
import ComputeShader.Proofs.EvaluationFrames

/-! # Local variables keep their types

A target knows the type of a local variable from its declaration, and goes through types alone while it
evaluates its subscripts; only the load and the store look at the value. That this cannot go wrong is an
invariant of the run: at every point of it each variable holds a value of its declared type. What can change
a variable is an initial value, whose type is checked, and a store to a part, which gives the whole the type
that it had before.
-/

namespace ComputeShader

/-! ## Steps that a type has -/

section Paths

variable {v new : Value} {part : ValueType} {path : List Step}

/-- Where steps lead to a part of the type, they lead to a part of each value of it. -/
theorem getPath_of_at? (leads : v.ty.at? path = some part) :
    ∃ x, getPath v path = .ok x ∧ x.ty = part := by
  induction path generalizing v with
  | nil => exact ⟨v, rfl, Option.some.inj leads⟩
  | cons step rest ih =>
    obtain ⟨mid, selects, leads⟩ := Option.bind_eq_some_iff.1 leads
    obtain ⟨sub, got, rfl⟩ := Step.get_of_part? selects
    obtain ⟨x, read, typed⟩ := ih leads
    refine ⟨x, ?_, typed⟩
    rw [getPath, got]
    exact read

/-- A store to such a part fails for nothing but the type of the new value. -/
theorem setPath_of_ne (leads : v.ty.at? path = some part) (differ : new.ty ≠ part) :
    setPath v path new = .error ⟨part.name, new.ty.name⟩ := by
  induction path generalizing v with
  | nil =>
    obtain rfl : v.ty = part := Option.some.inj leads
    rw [setPath, if_neg differ]
  | cons step rest ih =>
    obtain ⟨mid, selects, leads⟩ := Option.bind_eq_some_iff.1 leads
    obtain ⟨sub, got, rfl⟩ := Step.get_of_part? selects
    have failed := ih leads
    simp only [setPath, got, bind, Except.bind, failed]

end Paths

namespace RunContext

variable {c : RunContext} {s s' : RunState} {line : Nat} {ty : ValueType}

/-! ## Targets -/

/-- An index that is brought into range is in range. -/
theorem lt_of_resolve {label : String} {index : Int} {extent i : Nat}
    (ran : onStore (Store.resolve label index extent c.me) s = .ok (some i) s') : i < extent := by
  rw [onStore_eq, Store.resolve_eq] at ran
  apply @Resolution.index_lt s.store.oobPolicy label index extent i
  apply Resolution.index?_eq_some.2
  generalize Resolution.ofIndex s.store.oobPolicy label index extent = r at ran ⊢
  obtain ⟨answer, messages⟩ := r
  cases answer with
  | error e => cases ran
  | ok found =>
    cases ran
    rfl

theorem exists_of_ran_map {α β : Type} {x : RunM (Option α)} {f : α → β} {b : β}
    (ran : (x >>= fun a? => pure (a?.map f)) s = .ok (some b) s') :
    ∃ a, x s = .ok (some a) s' ∧ f a = b := by
  obtain ⟨a?, t, found, given⟩ := exists_of_ran_bind ran
  cases a? with
  | none => cases given
  | some a =>
    cases given
    exact ⟨a, found, rfl⟩

/-- A target evaluates one step, which its type has, and then goes on with the type of the part. -/
theorem resolvePath_cons {step : Projection} {path : List Projection} {steps : List Step}
    (ran : c.resolvePath line ty (step :: path) s = .ok (some steps) s') :
    ∃ first part rest t, steps = first :: rest ∧ first.part? ty = some part ∧
      c.resolvePath line part path t = .ok (some rest) s' ∧
      ∀ path', c.resolvePath line ty (step :: path') s =
        (c.resolvePath line part path' >>= fun rest? => pure (rest?.map (first :: ·))) t := by
  cases step with
  | subscript e =>
    rw [resolvePath] at ran
    obtain ⟨v, s₁, evaluated, ran⟩ := exists_of_ran_bind ran
    obtain ⟨i, s₂, indexed, ran⟩ := exists_of_ran_bind ran
    cases elements : ty.element? with
    | none =>
      rw [elements] at ran
      cases ran
    | some found =>
      obtain ⟨part, count⟩ := found
      rw [elements] at ran
      obtain ⟨resolved, t, bounded, ran⟩ := exists_of_ran_bind ran
      cases resolved with
      | none => cases ran
      | some k =>
        have selects : (Step.index k).part? ty = some part :=
          Step.part?_index.2 ⟨count, elements, lt_of_resolve bounded⟩
        obtain ⟨rest, further, rfl⟩ := exists_of_ran_map ran
        refine ⟨.index k, part, rest, t, rfl, selects, further, fun path' => ?_⟩
        rw [resolvePath, bind_eq_of_ok evaluated, bind_eq_of_ok indexed]
        simp only [elements]
        rw [bind_eq_of_ok bounded]
  | swizzle selection =>
    unfold resolvePath at ran
    split at ran
    · next kind size =>
      split at ran
      · next inside =>
        split at ran
        · next part count =>
          have selects : (Step.swizzle selection).part? (.vector kind size) = some part :=
            Step.part?_swizzle.2 ⟨kind, size, rfl, by simpa using inside, count⟩
          obtain ⟨rest, further, rfl⟩ := exists_of_ran_map ran
          refine ⟨.swizzle selection, part, rest, s, rfl, selects, further, fun path' => ?_⟩
          rw [resolvePath]
          simp only [inside, count, if_true]
        · cases ran
      · cases ran
    · cases ran

/-- Steps that a target has evaluated lead to a part of the type, and with the type of this part the target
goes on. -/
theorem resolvePath_append {before : List Projection} {steps : List Step}
    (ran : c.resolvePath line ty before s = .ok (some steps) s') :
    ∃ part, ty.at? steps = some part ∧ ∀ after, c.resolvePath line ty (before ++ after) s =
      (c.resolvePath line part after >>= fun rest? => pure (rest?.map (steps ++ ·))) s' := by
  induction before generalizing ty s steps with
  | nil =>
    cases ran
    refine ⟨ty, rfl, fun after => ?_⟩
    simp
  | cons step path ih =>
    obtain ⟨first, mid, rest, t, rfl, selects, further, goes⟩ := resolvePath_cons ran
    obtain ⟨part, leads, continues⟩ := ih further
    refine ⟨part, Option.bind_eq_some_iff.2 ⟨mid, selects, leads⟩, fun after => ?_⟩
    rw [List.cons_append, goes, bind_congr_at (continues after)]
    simp [Function.comp_def]

/-! ## Every point of a run -/

/-- The parts of which runs consist. What asks the store alone is left out, since the store may change
between any two of them. -/
inductive Part (c : RunContext) : {α : Type} → RunM α → Prop
  | step : Part c c.step
  | eval (e : Expr) : Part c (c.eval e)
  | evalAll (es : List Expr) : Part c (c.evalAll es)
  | resolvePath (line : Nat) (ty : ValueType) (path : List Projection) : Part c (c.resolvePath line ty path)
  | resolveTarget (line : Nat) (t : Target) : Part c (c.resolveTarget line t)
  | load (line : Nat) (r : ResolvedTarget) : Part c (c.load line r)
  | store (line : Nat) (r : ResolvedTarget) (v : Value) : Part c (c.store line r v)
  | storeAll (line : Nat) (v : Value) (targets : List Target) : Part c (c.storeAll line v targets)
  | initial (line slot : Nat) (init : Option Expr) : Part c (c.initial line slot init)
  | compound (line : Nat) (t : Target) (op : BinaryOp) (value : Expr) : Part c (c.compound line t op value)
  | exec (stmt : Stmt) : Part c (c.exec stmt)
  | execAll (body : List Stmt) : Part c (c.execAll body)

/-- The points of the runs of an invocation: where it starts, where a part of a run ends from a point, also
if it fails, and where the store has become another one, by an operation of this invocation or of others. -/
inductive Comes (c : RunContext) : RunState → Prop
  | started (store : Store) : Comes c (c.start store)
  | ran {α : Type} {x : RunM α} {s : RunState} (part : c.Part x) (before : Comes c s) : Comes c (left (x s))
  | shared {s : RunState} (before : Comes c s) (store : Store) : Comes c { s with store }

theorem Part.keeps_typed {α : Type} {x : RunM α} (part : c.Part x) :
    ∃ Q, Keeps (RunState.Typed c.shader) x Q := by
  have sustains := c.sustains_typed
  cases part with
  | step => exact ⟨_, sustains.step⟩
  | eval e => exact ⟨_, sustains.eval e⟩
  | evalAll es =>
    have all : Allows True (Expr.nodesOf es) := fun _ _ _ => trivial
    exact ⟨_, sustains.mirrors (c.mirrors_evalAll es all)⟩
  | resolvePath line ty path =>
    have all : Allows True (path.flatMap Projection.nodes) := fun _ _ _ => trivial
    exact ⟨_, sustains.mirrors (c.mirrors_resolvePath line line ty path all)⟩
  | resolveTarget line t => exact ⟨_, sustains.resolveTarget line t⟩
  | load line r => exact ⟨_, sustains.load line r⟩
  | store line r v => exact ⟨_, sustains.store line r v⟩
  | storeAll line v targets => exact ⟨_, sustains.storeAll line v targets⟩
  | initial line slot init => exact ⟨_, sustains.initial line slot init⟩
  | compound line t op value => exact ⟨_, sustains.compound line t op value⟩
  | exec stmt => exact ⟨_, sustains.exec stmt⟩
  | execAll body => exact ⟨_, sustains.execAll body⟩

theorem Comes.typed (comes : c.Comes s) : s.Typed c.shader := by
  induction comes with
  | started store => exact c.typed_start store
  | ran part before ih =>
    obtain ⟨_, keeps⟩ := part.keeps_typed
    exact keeps.left ih
  | shared before store ih => exact ih

/-- Whether `v` is what a local variable holds and steps lead to a part of it: the part is of type `part`,
and a value stored there is of this type or rejected for its own type. -/
structure LocalPart (c : RunContext) (s : RunState) (slot : Nat) (steps : List Step) (part : ValueType)
    (decl : LocalDecl) (v : Value) : Prop where
  declared : c.shader.locals[slot]? = some decl
  held : s.locals[slot]? = some v
  typed : v.ty = decl.ty
  reads : ∃ x, getPath v steps = .ok x ∧ x.ty = part
  accepts : ∀ new : Value, new.ty = part → ∃ v', setPath v steps new = .ok v' ∧ v'.ty = decl.ty
  rejects : ∀ new : Value, new.ty ≠ part → setPath v steps new = .error ⟨part.name, new.ty.name⟩

theorem exists_localPart {slot : Nat} {steps : List Step} {part : ValueType} {decl : LocalDecl}
    (typed : s.Typed c.shader) (declared : c.shader.locals[slot]? = some decl)
    (leads : decl.ty.at? steps = some part) : ∃ v, c.LocalPart s slot steps part decl v := by
  have slots := congrArg (·[slot]?) typed
  simp only [List.getElem?_map, declared, Option.map_some] at slots
  obtain ⟨v, held, same⟩ := Option.map_eq_some_iff.1 slots
  rw [← same] at leads
  refine ⟨v, declared, held, same, getPath_of_at? leads, fun new fits => ?_, fun new => setPath_of_ne leads⟩
  rw [← same]
  exact setPath_of_at? (fits ▸ leads)

/-- At every point of every run of a loaded shader each local variable holds a value of its declared type.
So where a target has evaluated some of its steps into a local variable, they lead to a part of the value
that is there, and the type with which the target goes on is the type of this part. -/
theorem locals_keep_types {name source : String} (loaded : Shader.load name source = .ok c.shader)
    (comes : c.Comes s) :
    s.locals.map Value.ty = c.shader.locals.map LocalDecl.ty ∧
      ∀ (line : Nat) (t : Target) (slot : Nat) (before after : List Projection) (steps : List Step)
        (s' : RunState), c.Stores t → t.place = .localVar slot → t.path = before ++ after →
        c.resolvePath line ((c.shader.localType? slot).getD default) before s = .ok (some steps) s' →
        ∃ decl v part, c.LocalPart s' slot steps part decl v ∧
          c.resolveTarget line t s = (c.resolvePath line part after >>= fun rest? =>
            pure (rest?.map fun rest => .localVar slot (steps ++ rest))) s' := by
  refine ⟨comes.typed, ?_⟩
  intro line t slot before after steps s' occurs place split ran
  have inside : slot < c.shader.locals.length :=
    occurs.declaresLocal place (Shader.closed_of_load loaded)
  have declared := List.getElem?_eq_getElem inside
  have type : (c.shader.localType? slot).getD default = c.shader.locals[slot].ty := by
    rw [Shader.localType?, declared]
    rfl
  rw [type] at ran
  obtain ⟨part, leads, goes⟩ := resolvePath_append ran
  have typed : s'.Typed c.shader := by
    have ended := comes.ran (.resolvePath line c.shader.locals[slot].ty before)
    rw [ran] at ended
    exact ended.typed
  obtain ⟨v, found⟩ := exists_localPart typed declared leads
  refine ⟨_, v, part, found, ?_⟩
  unfold RunContext.resolveTarget
  rw [place]
  simp only [type, split]
  rw [bind_congr_at (goes after)]
  simp [Function.comp_def]

/-- The local variable that a place is. -/
def slot? : Place → Option Nat
  | .localVar slot => some slot
  | .bufferElement .. => none

theorem eq_localVar_of_slot? {place : Place} {slot : Nat} (found : slot? place = some slot) :
    place = .localVar slot := by
  cases place with
  | localVar => cases found; rfl
  | bufferElement => cases found

/-- The value that a part of a run ends with, if it does not fail. -/
def result? {α : Type} : EStateM.Result EngineError RunState α → Option α
  | .ok a _ => some a
  | .error .. => none

/-- The error that a part of a run fails with. -/
def failure? {α : Type} : EStateM.Result EngineError RunState α → Option EngineError
  | .ok .. => none
  | .error e _ => some e

theorem eq_ok_of_result? {α : Type} {r : EStateM.Result EngineError RunState α} {a : α}
    (ended : result? r = some a) : r = .ok a (left r) := by
  cases r with
  | ok b s => cases ended; rfl
  | error e s => cases ended

theorem eq_error_of_failure? {α : Type} {r : EStateM.Result EngineError RunState α} {e : EngineError}
    (ended : failure? r = some e) : r = .error e (left r) := by
  cases r with
  | ok b s => cases ended
  | error e s => cases ended; rfl

/-- A body that stores through steps into a column of a matrix, and at last a mistyped value. -/
def turning : String :=
  "#version 310 es\n" ++
  "layout(local_size_x = 1) in;\n" ++
  "void main() \x7b\n" ++
  "  int n = 7;\n" ++
  "  mat3 turn = mat3(1.0);\n" ++
  "  vec3 axis;\n" ++
  "  turn[n].zx = axis.xy = vec2(0.5);\n" ++
  "  axis.x = n;\n" ++
  "\x7d\n"

/-- An invocation that turns. -/
def turner (shader : Shader) : RunContext := { tasting with shader }

/-- After the store that fails each variable is still of its type. Evaluated there once more, the target
`turn[n].zx` leads into the matrix through the column that its index is clamped to. -/
theorem locals_keep_types_turning :
    ∃ (shader : Shader) (site : AccessSite) (s s' : RunState) (t : Target) (decl : LocalDecl) (v : Value)
        (part : ValueType),
      let c := turner shader
      Shader.load "turning" turning = .ok c.shader ∧
      c.execAll shader.body (c.start (Store.create shader {})) =
        .error (.typeMismatch site ⟨"float", "int"⟩) s ∧
      s.locals.map Value.ty = shader.locals.map LocalDecl.ty ∧
      c.Stores t ∧
      c.resolveTarget 7 t s = .ok (some (.localVar 1 [.index 2, .swizzle [2, 0]])) s' ∧
      c.LocalPart s' 1 [.index 2, .swizzle [2, 0]] part decl v := by
  have outcome : (Shader.load "turning" turning).toOption.any fun shader =>
      let ran := (turner shader).execAll shader.body ((turner shader).start (Store.create shader {}))
      failure? ran == some (.typeMismatch (.atLine "store" 8) ⟨"float", "int"⟩) &&
        (Stmt.targetsOf shader.body).any fun x =>
          slot? x.1.place == some 1 &&
            result? ((turner shader).resolvePath 7 ((shader.localType? 1).getD default) x.1.path (left ran)) ==
              some (some [.index 2, .swizzle [2, 0]]) := by
    rw [Dispatcher.load_of_toList "turning" (by
      delta turning
      simp only [String.toList_append, String.reduceToList]
      rfl)]
    decide +kernel
  obtain ⟨shader, loaded, outcome⟩ := exists_ok outcome
  obtain ⟨failed, outcome⟩ := Bool.and_eq_true_iff.1 outcome
  obtain ⟨⟨t, compound⟩, member, outcome⟩ := List.any_eq_true.1 outcome
  obtain ⟨place, resolved⟩ := Bool.and_eq_true_iff.1 outcome
  let c := turner shader
  have occurs : c.Stores t := ⟨compound, member⟩
  have comes : c.Comes (left (c.execAll shader.body (c.start (Store.create shader {})))) :=
    .ran (.execAll shader.body) (.started _)
  obtain ⟨typed, fit⟩ := locals_keep_types (c := c) loaded comes
  obtain ⟨decl, v, part, found, goes⟩ :=
    fit 7 t 1 t.path [] _ _ occurs (eq_localVar_of_slot? (eq_of_beq place)) (List.append_nil _).symm
      (eq_ok_of_result? (eq_of_beq resolved))
  exact ⟨shader, _, _, _, t, decl, v, part, loaded, eq_error_of_failure? (eq_of_beq failed), typed, occurs, goes,
    found⟩

end RunContext

end ComputeShader
