import ComputeShader.Proofs.StepTraces

/-! # Step budgets

A run takes at most one step for each statement and each expression of its body, by induction over the
syntax. A greater budget changes nothing before the first step that the smaller one does not cover.
-/

namespace ComputeShader

namespace RunContext

variable {c : RunContext} {α β : Type} {m n : Nat}

/-- The same run on another budget. -/
def withBudget (c : RunContext) (budget : Nat) : RunContext := { c with stepBudget := budget }

@[simp] theorem shader_withBudget (budget : Nat) : (c.withBudget budget).shader = c.shader := rfl

/-- Whether a part of a run, given for every budget, takes at most `n` steps and uses the budget for
these alone: with as many further steps on the count as in the budget it does the same. -/
structure Metered (c : RunContext) (n : Nat) (x : Nat → RunM α) : Prop where
  traced : ∀ budget s, ∃ stores, (c.withBudget budget).Takes (x budget) s stores ∧ stores.length ≤ n
  delayed : ∀ budget d s, x (budget + d) (s.later d) = delayed d (x budget s)

namespace Metered

variable {x y : Nat → RunM α} {k : α → Nat → RunM β}

theorem of_eq (same : ∀ budget, x budget = y budget) (metered : c.Metered n y) : c.Metered n x :=
  funext same ▸ metered

theorem mono (metered : c.Metered m x) (fits : m ≤ n) : c.Metered n x where
  traced budget s := by
    obtain ⟨stores, taken, few⟩ := metered.traced budget s
    exact ⟨stores, taken, Nat.le_trans few fits⟩
  delayed := metered.delayed

theorem quiet (each : ∀ budget, Quiet (x budget)) (same : ∀ budget budget', x budget = x budget') :
    c.Metered n x where
  traced budget s := ⟨[], .quiet (each budget) s, Nat.zero_le n⟩
  delayed budget d s := by rw [same (budget + d) budget, (each budget).delayed]

theorem bind (first : c.Metered m x) (next : ∀ a, c.Metered n (k a)) :
    c.Metered (m + n) fun budget => x budget >>= fun a => k a budget := by
  constructor
  · intro budget s
    obtain ⟨stores, taken, few⟩ := first.traced budget s
    cases ran : x budget s with
    | ok a s' =>
      obtain ⟨stores', taken', few'⟩ := (next a).traced budget s'
      refine ⟨stores ++ stores', .next taken ran taken', ?_⟩
      rw [List.length_append]
      omega
    | error e s' => exact ⟨stores, .stop taken ran, by omega⟩
  · intro budget d s
    have begun := first.delayed budget d s
    cases ran : x budget s with
    | ok a s' =>
      rw [ran, RunContext.delayed] at begun
      rw [bind_eq_of_ok begun, bind_eq_of_ok ran, (next a).delayed]
    | error e s' =>
      rw [ran, RunContext.delayed] at begun
      rw [bind_eq_of_error begun, bind_eq_of_error ran, RunContext.delayed]

theorem step : c.Metered 1 fun budget => (c.withBudget budget).step where
  traced budget s := ⟨[s.store], .step s, Nat.le_refl 1⟩
  delayed budget d s := by
    rw [step_eq, step_eq]
    by_cases inside : budget < s.steps + 1
    · have inside' : budget + d < (s.later d).steps + 1 := by
        rw [RunState.steps_later]
        omega
      rw [withBudget, withBudget, if_pos inside, if_pos inside']
      simp only [RunContext.delayed, EngineError.allowing, RunState.later, Nat.add_right_comm]
    · have inside' : ¬ budget + d < (s.later d).steps + 1 := by
        rw [RunState.steps_later]
        omega
      rw [withBudget, withBudget, if_neg inside, if_neg inside']
      simp only [RunContext.delayed, RunState.later, Nat.add_right_comm]

/-- A node takes a step before anything else. -/
theorem node {k : Unit → Nat → RunM α} (rest : c.Metered n (k ())) :
    c.Metered (n + 1) fun budget => (c.withBudget budget).step >>= fun u => k u budget :=
  (step.bind fun _ => rest).mono (Nat.le_of_eq (Nat.add_comm 1 n))

theorem append {es es' : List Expr} (first : c.Metered es.length x)
    (next : ∀ a, c.Metered es'.length (k a)) :
    c.Metered (es ++ es').length fun budget => x budget >>= fun a => k a budget :=
  (first.bind next).mono (Nat.le_of_eq List.length_append.symm)

/-- Quiet parts before others. -/
theorem after (each : ∀ budget, Quiet (x budget)) (same : ∀ budget budget', x budget = x budget')
    (next : ∀ a, c.Metered n (k a)) : c.Metered n fun budget => x budget >>= fun a => k a budget :=
  ((quiet each same (n := 0)).bind next).mono (Nat.le_of_eq (Nat.zero_add n))

/-- Quiet parts behind others. -/
theorem before (first : c.Metered n x) (each : ∀ a budget, Quiet (k a budget))
    (same : ∀ a budget budget', k a budget = k a budget') :
    c.Metered n fun budget => x budget >>= fun a => k a budget :=
  first.bind fun a => quiet (each a) (same a) (n := 0)

end Metered

/-! ## Expressions -/

mutual

/-- Evaluating an expression takes at most one step for each of its nodes. -/
theorem metered_eval (c : RunContext) (e : Expr) :
    c.Metered e.nodes.length fun budget => (c.withBudget budget).eval e := by
  refine .of_eq (fun budget => eval.eq_def _ e) ?_
  cases e with
  | literal pos v => exact .node (.quiet (fun _ => quiet_pure v) fun _ _ => rfl)
  | localVar pos slot =>
    exact .node (.quiet (fun _ => quiet_readLocals (k := fun locals => pure (locals.getD slot default))
      fun _ => quiet_pure _) fun _ _ => rfl)
  | builtin pos b => exact .node (.quiet (fun _ => quiet_pure _) fun _ _ => rfl)
  | uniform pos slot =>
    exact .node (.quiet (fun _ => quiet_onStore (Store.ordinary_uniform _ _ _)) fun _ _ => rfl)
  | uniformElement pos slot index =>
    refine .node ((c.metered_eval index).before (fun v _ => ?_) fun _ _ _ => rfl)
    exact (quiet_asIndex index v).bind fun i => quiet_onStore (Store.ordinary_uniform _ _ _)
  | bufferElement pos binding index =>
    refine .node ((c.metered_eval index).before (fun v _ => ?_) fun _ _ _ => rfl)
    exact (quiet_asIndex index v).bind fun i => quiet_onStore (Store.ordinary_read _ _ _)
  | bufferLength pos binding =>
    refine .node (.quiet (fun _ => ?_) fun _ _ => rfl)
    exact (quiet_onStore (Store.ordinary_length binding)).bind fun _ => quiet_pure _
  | subscript pos base index =>
    refine .node ((c.metered_eval base).append fun v => ?_)
    refine (c.metered_eval index).before (fun w budget => ?_) fun _ _ _ => rfl
    exact (quiet_asIndex index w).bind fun i => quiet_subscript _ pos v i
  | swizzle pos base selection =>
    exact .node ((c.metered_eval base).before (fun v _ => quiet_typed _ _) fun _ _ _ => rfl)
  | construct pos ty args =>
    exact .node ((c.metered_evalAll args).before (fun vs _ => quiet_typed _ _) fun _ _ _ => rfl)
  | unary pos op operand =>
    exact .node ((c.metered_eval operand).before (fun v _ => quiet_typed _ _) fun _ _ _ => rfl)
  | binary pos op left right =>
    refine .node ((c.metered_eval left).append fun a => ?_)
    exact (c.metered_eval right).before (fun b _ => quiet_typed _ _) fun _ _ _ => rfl
  | logical pos op left right =>
    refine .node ((c.metered_eval left).append fun v => ?_)
    refine .after (fun _ => quiet_asCondition left v) (fun _ _ => rfl) fun a => ?_
    have second : c.Metered right.nodes.length fun budget => do
        let w ← (c.withBudget budget).eval right
        return Value.bool (← asCondition right w) :=
      (c.metered_eval right).before (fun w _ => (quiet_asCondition right w).bind fun b => quiet_pure _)
        fun _ _ _ => rfl
    have decided (b : Bool) : c.Metered right.nodes.length fun _ => pure (Value.bool b) :=
      .quiet (fun _ => quiet_pure _) fun _ _ => rfl
    cases op with
    | and =>
      cases a with
      | false => exact decided false
      | true => exact second
    | or =>
      cases a with
      | false => exact second
      | true => exact decided true
  | ternary pos condition accepted rejected =>
    refine .node ((c.metered_eval condition).append fun v => ?_)
    refine .after (fun _ => quiet_asCondition condition v) (fun _ _ => rfl) fun a => ?_
    cases a with
    | true => exact (c.metered_eval accepted).mono (by simp)
    | false => exact (c.metered_eval rejected).mono (by simp)
  | atomic pos op binding index args =>
    refine .node ((c.metered_eval index).append fun v => ?_)
    refine .after (fun _ => quiet_asIndex index v) (fun _ _ => rfl) fun i => ?_
    exact (c.metered_evalAll args).before
      (fun operands _ => quiet_onStore (Store.ordinary_atomic _ _ _ _ _)) fun _ _ _ => rfl
  | imageLoad pos binding coord =>
    refine .node ((c.metered_eval coord).before (fun v _ => ?_) fun _ _ _ => rfl)
    exact (quiet_asCoord coord v).bind fun xy => quiet_onStore (Store.ordinary_imageLoad _ _ _ _)
  | imageAtomicAdd pos binding coord value =>
    refine .node ((c.metered_eval coord).append fun v => ?_)
    refine .after (fun _ => quiet_asCoord coord v) (fun _ _ => rfl) fun xy => ?_
    exact (c.metered_eval value).before
      (fun w _ => quiet_onStore (Store.ordinary_imageAtomicAdd _ _ _ _ _)) fun _ _ _ => rfl
  | imageSize pos binding =>
    refine .node (.quiet (fun _ => ?_) fun _ _ => rfl)
    exact (quiet_onStore (Store.ordinary_imageSize binding)).bind fun _ => quiet_pure _
  | texture pos binding coord =>
    refine .node ((c.metered_eval coord).before (fun v budget => ?_) fun _ _ _ => rfl)
    exact (quiet_asTextureCoord pos v).bind fun place => quiet_lookupTexture _ binding place none
  | textureBiased pos binding coord bias =>
    refine .node ((c.metered_eval coord).append fun v => ?_)
    refine .after (fun _ => quiet_asTextureCoord pos v) (fun _ _ => rfl) fun place => ?_
    refine (c.metered_eval bias).before (fun w budget => ?_) fun _ _ _ => rfl
    exact (quiet_asBias bias w).bind fun b => quiet_lookupTexture _ binding place (some b)
  | math pos f args =>
    exact .node ((c.metered_evalAll args).before (fun vs _ => quiet_typed _ _) fun _ _ _ => rfl)

theorem metered_evalAll (c : RunContext) (es : List Expr) :
    c.Metered (Expr.nodesOf es).length fun budget => (c.withBudget budget).evalAll es := by
  cases es with
  | nil => exact .quiet (fun _ => quiet_pure []) fun _ _ => rfl
  | cons e rest =>
    refine (c.metered_eval e).append fun v => ?_
    exact (c.metered_evalAll rest).before (fun vs _ => quiet_pure _) fun _ _ _ => rfl

end

/-! ## Assignment targets -/

theorem metered_resolvePath (c : RunContext) (line : Nat) (ty : ValueType) (path : List Projection) :
    c.Metered (path.flatMap Projection.nodes).length
      fun budget => (c.withBudget budget).resolvePath line ty path := by
  induction path generalizing ty with
  | nil => exact .quiet (fun _ => quiet_pure _) fun _ _ => rfl
  | cons step rest ih =>
    cases step with
    | subscript e =>
      refine .of_eq (fun budget => by rw [resolvePath]) ?_
      refine (c.metered_eval e).append fun v => ?_
      refine .after (fun _ => quiet_asIndex e v) (fun _ _ => rfl) fun i => ?_
      rcases ty.element? with _ | ⟨element, count⟩
      · exact .quiet (fun _ => quiet_mismatch _ _) fun _ _ => rfl
      · refine .after (fun _ => quiet_onStore (Store.ordinary_resolve _ _ _ _)) (fun _ _ => rfl)
          fun resolved => ?_
        cases resolved with
        | none => exact .quiet (fun _ => quiet_pure _) fun _ _ => rfl
        | some i => exact (ih element).before (fun steps _ => quiet_pure _) fun _ _ _ => rfl
    | swizzle selection =>
      have mismatch (e : TypeError) : c.Metered (rest.flatMap Projection.nodes).length
          fun _ => (throw (.typeMismatch (.atLine "swizzle" line) e) : RunM (Option (List Step))) :=
        .quiet (fun _ => quiet_mismatch _ _) fun _ _ => rfl
      unfold resolvePath
      cases ty with
      | vector kind size =>
        by_cases inside : selection.all (· < size.toNat)
        · simp only [inside]
          cases ValueType.ofCount? kind selection.length with
          | none => exact mismatch _
          | some part => exact (ih part).before (fun steps _ => quiet_pure _) fun _ _ _ => rfl
        · simp only [inside]
          exact mismatch _
      | _ => exact mismatch _

theorem metered_resolveTarget (c : RunContext) (line : Nat) (t : Target) :
    c.Metered t.nodes.length fun budget => (c.withBudget budget).resolveTarget line t := by
  simp only [resolveTarget, Target.nodes.eq_def, shader_withBudget]
  cases t.place with
  | localVar slot =>
    exact (c.metered_resolvePath line _ t.path).before (fun steps _ => quiet_pure _) fun _ _ _ => rfl
  | bufferElement binding index =>
    refine (c.metered_eval index).append fun v => ?_
    refine .after (fun _ => quiet_asIndex index v) (fun _ _ => rfl) fun i => ?_
    cases declared : c.shader.buffer? binding with
    | none => exact .quiet (fun _ => quiet_mismatch _ _) fun _ _ => rfl
    | some b =>
      exact (c.metered_resolvePath line b.element t.path).before (fun steps _ => quiet_pure _)
        fun _ _ _ => rfl

theorem metered_storeAll (c : RunContext) (line : Nat) (v : Value) (targets : List Target) :
    c.Metered (targets.flatMap Target.nodes).length
      fun budget => (c.withBudget budget).storeAll line v targets := by
  induction targets with
  | nil => exact .quiet (fun _ => quiet_pure _) fun _ _ => rfl
  | cons t rest ih =>
    refine (c.metered_resolveTarget line t).append fun resolved => ?_
    cases resolved with
    | some target => exact .after (fun _ => quiet_store _ line target v) (fun _ _ => rfl) fun _ => ih
    | none => exact ih

theorem metered_initial (c : RunContext) (line slot : Nat) (init : Option Expr) :
    c.Metered (Stmt.declare line slot init).nodes.length
      fun budget => (c.withBudget budget).initial line slot init := by
  cases init with
  | none => exact .quiet (fun _ => quiet_pure _) fun _ _ => rfl
  | some e =>
    refine (c.metered_eval e).before (fun v _ => ?_) fun _ _ _ => rfl
    split
    · exact quiet_pure v
    · exact quiet_mismatch _ _

theorem metered_compound (c : RunContext) (line : Nat) (t : Target) (op : BinaryOp) (value : Expr) :
    c.Metered (value.nodes ++ t.nodes).length
      fun budget => (c.withBudget budget).compound line t op value := by
  refine (c.metered_eval value).append fun v => ?_
  refine (c.metered_resolveTarget line t).before (fun resolved _ => ?_) fun _ _ _ => rfl
  cases resolved with
  | none => exact quiet_pure _
  | some target =>
    refine (quiet_load _ line target).bind fun current => ?_
    exact (quiet_typed _ _).bind fun new => quiet_store _ line target new

/-! ## Statements -/

mutual

/-- Running a statement takes at most one step for each expression and each statement in it. -/
theorem metered_exec (c : RunContext) (stmt : Stmt) :
    c.Metered (stmt.nodes.length + stmt.parts.length)
      fun budget => (c.withBudget budget).exec stmt := by
  refine .of_eq (fun budget => exec.eq_def _ stmt) ?_
  cases stmt with
  | declare line slot init =>
    refine .node ((c.metered_initial line slot init).before (fun v _ => ?_) fun _ _ _ => rfl)
    exact (quiet_storeLocal slot v).bind fun _ => quiet_pure _
  | assign line targets value =>
    refine .node ((c.metered_eval value).append fun v => ?_)
    have reversed : (targets.reverse.flatMap Target.nodes).length =
        (targets.flatMap Target.nodes).length := by
      simp [List.length_flatMap]
    exact ((c.metered_storeAll line v targets.reverse).mono (Nat.le_of_eq reversed)).before
      (fun _ _ => quiet_pure _) fun _ _ _ => rfl
  | compound line t op value =>
    exact .node ((c.metered_compound line t op value).before (fun _ _ => quiet_pure _) fun _ _ _ => rfl)
  | imageStore line binding coord value =>
    refine .node ((c.metered_eval coord).append fun v => ?_)
    refine .after (fun _ => quiet_asCoord coord v) (fun _ _ => rfl) fun xy => ?_
    refine (c.metered_eval value).before (fun w _ => ?_) fun _ _ _ => rfl
    exact (quiet_onStore (Store.ordinary_imageStore _ _ _ _ _)).bind fun _ => quiet_pure _
  | eval line e =>
    exact .node ((c.metered_eval e).before (fun v _ => quiet_pure _) fun _ _ _ => rfl)
  | branch line condition accepted =>
    have fits : condition.nodes.length + (accepted.nodes.length + accepted.parts.length) + 1 ≤
        (condition.nodes ++ accepted.nodes).length + (accepted.parts.length + 1) := by
      rw [List.length_append]
      omega
    refine (Metered.node ((c.metered_eval condition).bind fun v => ?_)).mono fits
    refine .after (fun _ => quiet_asCondition condition v) (fun _ _ => rfl) fun a => ?_
    cases a with
    | true => exact c.metered_exec accepted
    | false => exact .quiet (fun _ => quiet_pure _) fun _ _ => rfl
  | branchElse line condition accepted rejected =>
    have fits : condition.nodes.length + (accepted.nodes.length + accepted.parts.length +
          (rejected.nodes.length + rejected.parts.length)) + 1 ≤
        (condition.nodes ++ (accepted.nodes ++ rejected.nodes)).length +
          ((accepted.parts ++ rejected.parts).length + 1) := by
      simp only [List.length_append]
      omega
    refine (Metered.node ((c.metered_eval condition).bind fun v => ?_)).mono fits
    refine .after (fun _ => quiet_asCondition condition v) (fun _ _ => rfl) fun a => ?_
    cases a with
    | true => exact (c.metered_exec accepted).mono (Nat.le_add_right _ _)
    | false => exact (c.metered_exec rejected).mono (Nat.le_add_left _ _)
  | block line body => exact .node (c.metered_execAll body)
  | leave line => exact .node (.quiet (fun _ => quiet_pure _) fun _ _ => rfl)

theorem metered_execAll (c : RunContext) (body : List Stmt) :
    c.Metered ((Stmt.nodesOf body).length + (Stmt.partsOf body).length)
      fun budget => (c.withBudget budget).execAll body := by
  cases body with
  | nil => exact .quiet (fun _ => quiet_pure _) fun _ _ => rfl
  | cons stmt rest =>
    have fits : stmt.nodes.length + stmt.parts.length +
          ((Stmt.nodesOf rest).length + (Stmt.partsOf rest).length) ≤
        (stmt.nodes ++ Stmt.nodesOf rest).length + (stmt.parts ++ Stmt.partsOf rest).length := by
      simp only [List.length_append]
      omega
    refine ((c.metered_exec stmt).bind fun flow => ?_).mono fits
    cases flow with
    | leave => exact .quiet (fun _ => quiet_pure _) fun _ _ => rfl
    | next => exact c.metered_execAll rest

end

/-! ## Runs -/

/-- Whether a run fails because it exceeds its budget. -/
def Exceeds (c : RunContext) (s : Store) : Prop :=
  (c.run s).1.map EngineError.kind = some .stepBudgetExceeded

instance (c : RunContext) (s : Store) : Decidable (c.Exceeds s) := inferInstanceAs (Decidable (_ = _))

/-- Whether these are the stores at which a run takes its steps. -/
def Traces (c : RunContext) (s : Store) (stores : List Store) : Prop :=
  c.Takes (c.execAll c.shader.body) (c.start s) stores

/-- The error in which a part of a run ends, if any, and the store it leaves. -/
def halted : EStateM.Result EngineError RunState α → Option EngineError × Store
  | .ok _ s => (none, s.store)
  | .error e s => (some e, s.store)

theorem run_eq_halted (c : RunContext) (s : Store) :
    c.run s = halted (c.execAll c.shader.body (c.start s)) := by
  unfold run
  cases c.execAll c.shader.body (c.start s) <;> rfl

theorem exceeds_of_spent {s : Store} (spent : (c.run s).1 = some c.spent) : c.Exceeds s := by
  rw [Exceeds, spent]
  rfl

/-- A run that takes all steps of its trace does not exceed its budget. -/
theorem Completes.not_exceeds {s : Store} {stores : List Store} {d : Nat}
    (done : c.Completes (c.execAll c.shader.body) (c.start s) stores d) : ¬ c.Exceeds s := by
  intro exceeds
  cases ran : c.execAll c.shader.body (c.start s) with
  | ok flow t =>
    rw [Exceeds, run_eq_halted, ran] at exceeds
    cases exceeds
  | error e t =>
    rw [Exceeds, run_eq_halted, ran] at exceeds
    exact done.ordinary e t ran (Option.some.inj exceeds)

/-- Results that are the same with a delay are the same, if they are not for want of steps. -/
theorem delayed_inj {r r' : EStateM.Result EngineError RunState α} {d : Nat}
    (ordinary : ∀ e t, r' = .error e t → e.kind ≠ .stepBudgetExceeded)
    (same : delayed d r = delayed d r') : r = r' := by
  cases r with
  | ok a s =>
    cases r' with
    | ok a' s' =>
      obtain ⟨rfl, states⟩ := EStateM.Result.ok.inj same
      rw [RunState.later_inj states]
    | error e' s' => cases same
  | error e s =>
    cases r' with
    | ok a' s' => cases same
    | error e' s' =>
      obtain ⟨errors, states⟩ := EStateM.Result.error.inj same
      have other := ordinary e' s' rfl
      rw [EngineError.allowing_eq other] at errors
      have one : e.kind ≠ .stepBudgetExceeded := by rwa [← EngineError.kind_allowing d e, errors]
      rw [EngineError.allowing_eq one] at errors
      rw [errors, RunState.later_inj states]

theorem spent_of_allowing {e : EngineError} {d : Nat}
    (same : e.allowing d = (c.withBudget (c.stepBudget + d)).spent) : e = c.spent := by
  cases e with
  | stepBudgetExceeded i budget =>
    obtain ⟨rfl, budgets⟩ := EngineError.stepBudgetExceeded.inj same
    have equal : budget = c.stepBudget := Nat.add_right_cancel budgets
    rw [equal]
    rfl
  | _ => cases same

/-- A run either does the same on a greater budget or is cut short at the store that the trace of the
longer run tells. -/
theorem same_or_cut {s : Store} {stores : List Store} {d : Nat}
    (traces : (c.withBudget (c.stepBudget + d)).Traces s stores) :
    (¬ c.Exceeds s ∧ (c.withBudget (c.stepBudget + d)).run s = c.run s) ∨
      ((c.run s).1 = some c.spent ∧ stores[c.stepBudget]? = some (c.run s).2) := by
  have begun : (c.withBudget (c.stepBudget + d)).execAll c.shader.body ((c.start s).later d) =
      delayed d (c.execAll c.shader.body (c.start s)) :=
    (c.metered_execAll c.shader.body).delayed c.stepBudget d (c.start s)
  have room : (c.start s).steps + d ≤ (c.withBudget (c.stepBudget + d)).stepBudget := by
    simp [start, withBudget]
  rcases traces.completes_or_cutShort room with done | ⟨t, failed, found⟩
  · left
    have same := delayed_inj done.ordinary (begun.symm.trans done.delayed)
    have runs : (c.withBudget (c.stepBudget + d)).run s = c.run s := by
      rw [run_eq_halted, run_eq_halted, same]
    have within := done.not_exceeds
    rw [Exceeds, runs] at within
    exact ⟨within, runs⟩
  · right
    have cut := begun.symm.trans failed
    rw [run_eq_halted]
    cases ran : c.execAll c.shader.body (c.start s) with
    | ok flow t' =>
      rw [ran] at cut
      cases cut
    | error e t' =>
      rw [ran] at cut
      obtain ⟨errors, rfl⟩ := EStateM.Result.error.inj cut
      have position : stores[c.stepBudget + d - (0 + d)]? = some t'.store := found
      rw [Nat.zero_add, Nat.add_sub_cancel] at position
      exact ⟨congrArg some (spent_of_allowing errors), position⟩

/-- The budget only cuts runs short. One that covers every expression and every statement of the body is
never exceeded. A run that ends within its budget ends so on every greater one. A run that exceeds its
budget leaves the store at which a run on a greater one takes the first step that was not covered. -/
theorem budget_only_cuts (c : RunContext) (s : Store) :
    ((Stmt.nodesOf c.shader.body).length + (Stmt.partsOf c.shader.body).length ≤ c.stepBudget →
      ¬ c.Exceeds s) ∧
    ∀ more, c.stepBudget ≤ more →
      (¬ c.Exceeds s → (c.withBudget more).run s = c.run s) ∧
      (c.Exceeds s → (c.run s).1 = some c.spent ∧ (∃ stores, (c.withBudget more).Traces s stores) ∧
        ∀ stores, (c.withBudget more).Traces s stores → stores[c.stepBudget]? = some (c.run s).2) := by
  have metered := c.metered_execAll c.shader.body
  refine ⟨fun enough => ?_, fun more greater => ?_⟩
  · obtain ⟨stores, taken, few⟩ := metered.traced c.stepBudget (c.start s)
    have room : (c.start s).steps + 0 ≤ c.stepBudget := Nat.zero_le _
    rcases taken.completes_or_cutShort room with done | short
    · exact done.not_exceeds
    · have long : c.stepBudget < 0 + 0 + stores.length := short.length
      omega
  · obtain ⟨d, rfl⟩ := Nat.exists_eq_add_of_le greater
    obtain ⟨stores, taken, -⟩ := metered.traced (c.stepBudget + d) (c.start s)
    refine ⟨fun within => ?_, fun exceeds => ?_⟩
    · rcases same_or_cut taken with ⟨-, same⟩ | ⟨spent, -⟩
      · exact same
      · exact absurd (exceeds_of_spent spent) within
    · have cut (stores : List Store) (traces : (c.withBudget (c.stepBudget + d)).Traces s stores) :
          (c.run s).1 = some c.spent ∧ stores[c.stepBudget]? = some (c.run s).2 := by
        rcases same_or_cut traces with ⟨within, -⟩ | spent
        · exact absurd exceeds within
        · exact spent
      exact ⟨(cut stores taken).1, ⟨stores, taken⟩, fun stores traces => (cut stores traces).2⟩

/-- `cells[0] = 1u; if (true || false) cells[1] = 2u;`, of ten nodes and nine steps. -/
def writing : RunContext where
  shader :=
    { name := "writing", version := 310, extensions := [], localSize := ⟨1, 1, 1⟩,
      buffers := [⟨0, "Cells", none, "cells", .scalar .uint, .readWrite⟩],
      images := [], samplers := [], uniforms := [], locals := [],
      body := [.assign 1 [⟨.bufferElement 0 (.literal ⟨1, 7⟩ (.uint 0)), []⟩] (.literal ⟨1, 12⟩ (.uint 1)),
        .branch 2 (.logical ⟨2, 10⟩ .or (.literal ⟨2, 5⟩ (.bool true)) (.literal ⟨2, 13⟩ (.bool false)))
          (.assign 3 [⟨.bufferElement 0 (.literal ⟨3, 7⟩ (.uint 1)), []⟩] (.literal ⟨3, 12⟩ (.uint 2)))] }
  sampler := .external
  stepBudget := 6
  invocation := ⟨⟨0, 0, 0⟩, ⟨0, 0, 0⟩, ⟨1, 1, 1⟩, ⟨1, 1, 1⟩⟩
  me := 0

/-- Six steps are too few: the second element is not yet written at the seventh. -/
theorem budget_only_cuts_writing :
    let s := Store.create writing.shader { bufferLength := 2 }
    ((Stmt.nodesOf writing.shader.body).length + (Stmt.partsOf writing.shader.body).length ≤ 10 ∧
      ¬ (writing.withBudget 10).Exceeds s) ∧
    (¬ (writing.withBudget 9).Exceeds s ∧
      (writing.withBudget 50).run s = (writing.withBudget 9).run s) ∧
    writing.stepBudget ≤ 50 ∧ writing.Exceeds s ∧ (writing.run s).1 = some (.stepBudgetExceeded 0 6) ∧
    ∃ stores store, (writing.withBudget 50).Traces s stores ∧ stores[6]? = some store ∧
      store = (writing.run s).2 ∧ store.buffers.get? 0 = some ⟨"cells", .scalar .uint, #[[1], [0]]⟩ ∧
      ((writing.withBudget 50).run s).2.buffers.get? 0 = some ⟨"cells", .scalar .uint, #[[1], [2]]⟩ := by
  intro s
  have few : (Stmt.nodesOf writing.shader.body).length + (Stmt.partsOf writing.shader.body).length ≤ 10 := by
    decide
  have within : ¬ (writing.withBudget 9).Exceeds s := by decide +kernel
  have exceeds : writing.Exceeds s := by decide +kernel
  have enough := ((writing.withBudget 10).budget_only_cuts s).1 few
  have same := (((writing.withBudget 9).budget_only_cuts s).2 50 (by decide)).1 within
  obtain ⟨spent, ⟨stores, traces⟩, cut⟩ := ((writing.budget_only_cuts s).2 50 (by decide)).2 exceeds
  have half : (writing.run s).2.buffers.get? 0 = some ⟨"cells", .scalar .uint, #[[1], [0]]⟩ := by
    decide +kernel
  have whole : ((writing.withBudget 50).run s).2.buffers.get? 0 =
      some ⟨"cells", .scalar .uint, #[[1], [2]]⟩ := by
    decide +kernel
  exact ⟨⟨few, enough⟩, ⟨within, same⟩, by decide, exceeds, spent, stores, _, traces, cut stores traces,
    rfl, half, whole⟩

end RunContext

end ComputeShader
