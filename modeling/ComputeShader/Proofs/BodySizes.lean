import ComputeShader.Proofs.ExpressionSizes
import ComputeShader.Proofs.LoadOutcomes
import ComputeShader.Proofs.ScopedStatements

/-! # Sizes of bodies

A text has no fewer tokens than its body has expressions, targets and statements. The access check goes
through a body once, and so it is bounded by the tokens of the text as the parser is.
-/

namespace ComputeShader

namespace Stmt

/-- How many expressions, targets and statements there are in a statement. -/
def size (stmt : Stmt) : Nat := stmt.nodes.length + stmt.targets.length + stmt.parts.length

/-- The same of statements in turn. -/
def sizeOf (stmts : List Stmt) : Nat :=
  (nodesOf stmts).length + (targetsOf stmts).length + (partsOf stmts).length

theorem sizeOf_nil : sizeOf [] = 0 := rfl

theorem sizeOf_cons (stmt : Stmt) (stmts : List Stmt) : sizeOf (stmt :: stmts) = stmt.size + sizeOf stmts := by
  simp only [sizeOf, size, nodesOf, targetsOf, partsOf, List.length_append]
  omega

theorem size_declare (line slot : Nat) (init : Option Expr) :
    (declare line slot init).size = (init.toList.flatMap Expr.nodes).length + 1 := by
  cases init with
  | none => rfl
  | some e =>
    simp only [size, nodes, targets, parts, List.length_nil, List.length_singleton, Option.toList_some,
      List.flatMap_singleton, Nat.add_zero]

theorem size_assign (line : Nat) (targets : List Target) (value : Expr) :
    (assign line targets value).size =
      value.nodes.length + (targets.flatMap Target.nodes).length + targets.length + 1 := by
  simp only [size, nodes, Stmt.targets, parts, List.length_append, List.length_map, List.length_singleton]

theorem size_compound (line : Nat) (target : Target) (op : BinaryOp) (value : Expr) :
    (compound line target op value).size = value.nodes.length + target.nodes.length + 2 := by
  simp only [size, nodes, targets, parts, List.length_append, List.length_singleton]

theorem size_imageStore (line : Nat) (binding : Binding) (coord value : Expr) :
    (imageStore line binding coord value).size = coord.nodes.length + value.nodes.length + 1 := by
  simp only [size, nodes, targets, parts, List.length_append, List.length_nil, List.length_singleton,
    Nat.add_zero]

theorem size_eval (line : Nat) (e : Expr) : (eval line e).size = e.nodes.length + 1 := by
  simp only [size, nodes, targets, parts, List.length_nil, List.length_singleton, Nat.add_zero]

theorem size_block (line : Nat) (body : List Stmt) : (block line body).size = sizeOf body + 1 := by
  simp only [size, sizeOf, nodes, targets, parts, List.length_cons]
  omega

theorem size_branch (line : Nat) (condition : Expr) (accepted : Stmt) :
    (branch line condition accepted).size = condition.nodes.length + accepted.size + 1 := by
  simp only [size, nodes, targets, parts, List.length_cons, List.length_append]
  omega

theorem size_branchElse (line : Nat) (condition : Expr) (accepted rejected : Stmt) :
    (branchElse line condition accepted rejected).size =
      condition.nodes.length + accepted.size + rejected.size + 1 := by
  simp only [size, nodes, targets, parts, List.length_cons, List.length_append]
  omega

end Stmt

namespace Parser

variable {ahead credit : Nat}

/-! ## Simple statements -/

/-- A target is smaller than its expression, whose innermost base it names. -/
theorem length_nodes_targetFrom {e : Expr} {path : List Projection} {t : Target}
    (found : targetFrom path e = .ok t) :
    t.nodes.length + 1 ≤ e.nodes.length + (path.flatMap Projection.nodes).length := by
  fun_induction targetFrom path e with
  | case1 path pos base index ih =>
    have smaller := ih found
    simp only [List.flatMap_cons, Projection.nodes, Expr.nodes, List.length_append, List.length_cons] at *
    omega
  | case2 path pos base selection distinct ih =>
    have smaller := ih found
    simp only [List.flatMap_cons, Projection.nodes, Expr.nodes, List.nil_append, List.length_cons] at *
    omega
  | case4 path pos slot =>
    cases found
    simp only [Target.nodes, Expr.nodes, List.length_singleton]
    omega
  | case5 path pos binding index =>
    cases found
    simp only [Target.nodes, Expr.nodes, List.length_cons, List.length_append]
    omega
  | _ => cases found

theorem pays_asTarget (e : Expr) :
    Pays ahead (credit + e.nodes.length) (fun t => credit + (t.nodes.length + 1)) (asTarget e) := by
  unfold asTarget
  split
  · next t found =>
    exact pays_pure (Nat.add_le_add_left (length_nodes_targetFrom found) _)
  · exact pays_fail _ _

theorem pays_assignmentTail (fuel : Nat) :
    Pays ahead credit
      (fun r => credit + ((r.1.flatMap Target.nodes).length + r.1.length + r.2.nodes.length))
      (assignmentTail fuel) := by
  induction fuel generalizing ahead credit with
  | zero => exact pays_limit
  | succ fuel ih =>
    refine pays_expression.bind fun e => sees_peek?.pays fun kind => ?_
    split
    · -- The sign of an assignment need not pay: a target is smaller than its expression by what it counts for.
      refine (pays_asTarget e).bind fun target => pays_skip.bind fun _ => ih.bind fun r => pays_pure ?_
      simp only [List.flatMap_cons, List.length_append, List.length_cons]
      omega
    · refine pays_pure ?_
      simp only [List.flatMap_nil, List.length_nil]
      omega

theorem pays_imageStoreStatement (line : Nat) :
    Pays ahead credit (fun stmt => credit + stmt.size) (imageStoreStatement line) := by
  refine pays_next (pays_unmet _) fun name => pays_callArguments.bind fun args => ?_
  split
  · next image coord value =>
    simp only [Operand.length_nodesOf_cons, Operand.length_nodesOf_nil, Nat.add_zero]
    rw [← Nat.add_assoc, ← Nat.add_assoc]
    refine (pays_asValue value).bind fun value => ?_
    rw [Nat.add_right_comm]
    refine (pays_asValue coord).bind fun coord => (looks_imageArgument _).pays fun binding => ?_
    refine (advances_expectSymbol _).pays.bind fun _ => pays_pure ?_
    rw [Stmt.size_imageStore]
    omega
  · exact pays_fail _ _

theorem pays_expressionStatement (line : Nat) :
    Pays ahead credit (fun stmt => credit + stmt.size) (expressionStatement line) := by
  have ended (stmt : Stmt) {total : Nat} (enough : credit + stmt.size ≤ total + 1) :
      Pays 0 total (fun stmt => credit + stmt.size) (do expectSymbol .semicolon; return stmt) :=
    (advances_expectSymbol _).pays.bind fun _ => pays_pure enough
  refine pays_expression.bind fun first => sees_peek?.pays fun kind => ?_
  dsimp only
  split
  · refine (pays_asTarget first).bind fun target => pays_skip.bind fun _ => pays_get fun s => ?_
    refine (pays_assignmentTail _).bind fun r => ended _ ?_
    simp only [Stmt.size_assign, List.flatMap_cons, List.length_append, List.length_cons]
    omega
  · split
    · next op compounds =>
      cases kind with
      | none => cases compounds
      | some kind =>
        -- Here it has to: the operation counts for one more.
        refine advances_skip.pays.bind fun _ => ?_
        rw [Nat.add_right_comm]
        refine (pays_asTarget first).bind fun target => pays_expression.bind fun value => ended _ ?_
        rw [Stmt.size_compound]
        omega
    · refine Pays.of_ahead (ended _ ?_) (Nat.zero_le _)
      rw [Stmt.size_eval]
      omega

/-! ## Statements -/

/-- A declared variable is paid for by its name. -/
theorem pays_declarators (ty : ValueType) (fuel : Nat) :
    Pays ahead credit (fun stmts => credit + Stmt.sizeOf stmts) (declarators ty fuel) := by
  induction fuel generalizing ahead credit with
  | zero => exact pays_limit
  | succ fuel ih =>
    refine (advances_expectIdentifier _).pays.bind fun name => sees_peek?.pays fun kind => ?_
    dsimp only
    split
    · exact pays_unmet_bind _
    have declaring (init : Option Expr) :
        Pays 0 (credit + 1 + (init.toList.flatMap Expr.nodes).length)
          (fun stmts => credit + Stmt.sizeOf stmts) (do
            let slot ← declareLocal name ty
            let stmt := Stmt.declare name.pos.line slot init
            if ← consumeSymbol .comma then return stmt :: (← declarators ty fuel) else return [stmt]) := by
      refine (advances_declareLocal name ty).pays.bind fun slot =>
        (advances_consumeSymbol _).pays.bind fun further => ?_
      split
      · refine ih.bind fun rest => pays_pure ?_
        rw [Stmt.sizeOf_cons, Stmt.size_declare]
        omega
      · refine pays_pure ?_
        rw [Stmt.sizeOf_cons, Stmt.size_declare, Stmt.sizeOf_nil]
        omega
    refine (advances_consumeSymbol _).pays.bind fun assigned => ?_
    split
    · have initial : Pays 0 (credit + 1) (fun init => credit + 1 + (init.toList.flatMap Expr.nodes).length)
          (some <$> expression) := by
        rw [← bind_pure_comp]
        refine pays_expression.bind fun e => pays_pure ?_
        rw [Option.toList_some, List.flatMap_singleton]
      exact initial.bind declaring
    · exact declaring none

theorem pays_localDeclaration (line : Nat) :
    Pays ahead credit (fun stmt => credit + stmt.size) (localDeclaration line) := by
  refine (advances_skipWhile _).pays.bind fun _ => (advances_expectIdentifier _).pays.bind fun tyName => ?_
  split
  · exact pays_fail _ _
  · refine pays_get fun s => (pays_declarators _ _).bind fun stmts => ?_
    refine (advances_expectSymbol _).pays.bind fun _ => ?_
    split
    · next slot init =>
      refine pays_pure ?_
      rw [Stmt.sizeOf_cons, Stmt.size_declare, Stmt.size_declare, Stmt.sizeOf_nil]
      omega
    · refine pays_pure ?_
      rw [Stmt.size_block]
      omega

mutual

theorem pays_parseStatement : ∀ fuel {ahead credit : Nat},
    Pays ahead credit (fun stmt => credit + stmt.size) (parseStatement fuel)
  | 0, _, _ => pays_limit
  | fuel + 1, _, _ => by
    refine looks_here.pays fun pos => sees_peek?.pays fun kind => ?_
    split
    · refine advances_skip.pays.bind fun _ => (pays_parseBlock fuel).bind fun body => pays_pure ?_
      rw [Stmt.size_block]
      omega
    · exact advances_skip.pays.bind fun _ => pays_pure (Nat.le_refl _)
    · refine advances_skip.pays.bind fun _ => (advances_expectSymbol _).pays.bind fun _ => ?_
      refine pays_expression.bind fun condition => (advances_expectSymbol _).pays.bind fun _ => ?_
      refine (pays_parseStatement fuel).bind fun accepted => (advances_consume _).pays.bind fun otherwise => ?_
      split
      · refine (pays_parseStatement fuel).bind fun rejected => pays_pure ?_
        rw [Stmt.size_branchElse]
        omega
      · refine pays_pure ?_
        rw [Stmt.size_branch]
        omega
    · refine advances_skip.pays.bind fun _ => (advances_consumeSymbol _).pays.bind fun ended => ?_
      split
      · exact pays_pure (Nat.le_refl _)
      · exact pays_unmet _
    · refine looks_atLocalDeclaration.pays fun declares => ?_
      split
      · exact pays_localDeclaration _
      · refine looks_atImageStore.pays fun stores => ?_
        split
        · exact pays_imageStoreStatement _
        · exact pays_expressionStatement _

theorem pays_parseBlock : ∀ fuel {ahead credit : Nat},
    Pays ahead credit (fun body => credit + Stmt.sizeOf body) (parseBlock fuel)
  | 0, _, _ => pays_limit
  | fuel + 1, _, _ => by
    refine (advances_consumeSymbol _).pays.bind fun closed => ?_
    split
    · exact pays_pure (Nat.le_refl _)
    · refine sees_peek?.pays fun kind => ?_
      split
      · exact pays_unmet _
      · refine (pays_parseStatement fuel).bind fun stmt => (pays_parseBlock fuel).bind fun rest => pays_pure ?_
        rw [Stmt.sizeOf_cons]
        omega

end

/-! ## Whole shaders -/

theorem pays_mainFunction : Pays ahead credit (fun body => credit + Stmt.sizeOf body) mainFunction := by
  refine (advances_expectKeyword _).any.pays.bind fun _ => ?_
  refine (advances_expectIdentifier _).any.pays.bind fun name => ?_
  dsimp only
  split
  · exact pays_fail_bind _ _
  refine (advances_expectSymbol _).any.pays.bind fun _ => (advances_consume _).pays.bind fun _ => ?_
  refine (advances_expectSymbol _).any.pays.bind fun _ => (advances_expectSymbol _).any.pays.bind fun _ => ?_
  exact pays_get fun s => pays_parseBlock _

theorem pays_shader (name : String) : Pays ahead credit (fun s => credit + Stmt.sizeOf s.body) (shader name) := by
  have kept (buffers : List BufferDecl) (s : ParserState) : s.Past 0 { s with buffers } := .refl s
  refine advances_versionDirective.any.pays.bind fun version => pays_get fun start => ?_
  refine (advances_headerFrom _ (Nat.zero_le _) _).pays.bind fun header => ?_
  split
  · exact pays_unmet _
  refine (looks_assigned _ _ _ _).pays fun buffers => (looks_assigned _ _ _ _).pays fun images => ?_
  refine (looks_assigned _ _ _ _).pays fun samplers => (looks_assigned _ _ _ _).pays fun uniforms => ?_
  refine (advances_forM (fun b => advances_declareGlobal _ _ _) _).pays.bind fun _ => ?_
  refine (advances_forM (fun i => advances_declareGlobal _ _ _) _).pays.bind fun _ => ?_
  refine (advances_forM (fun s => advances_declareGlobal _ _ _) _).pays.bind fun _ => ?_
  refine (advances_forM (fun u => advances_declareGlobal _ _ _) _).pays.bind fun _ => ?_
  refine (advances_modify (kept _)).pays.bind fun _ => ?_
  refine pays_mainFunction.bind fun body => sees_peek?.pays fun kind => ?_
  dsimp only
  split
  · exact pays_unmet_bind _
  · exact pays_get fun final => pays_pure (Nat.le_refl _)

end Parser

/-- A text has a token for each expression, each target and each statement of its body. -/
theorem Shader.sizeOf_body_le {name source : String} {tokens : List Token} {s : Shader}
    (read : tokenize source = .ok tokens) (parsed : parse name source = .ok s) :
    Stmt.sizeOf s.body ≤ tokens.length := by
  rw [parse, read] at parsed
  cases ran : Parser.shader name (ParserState.initial tokens) with
  | error e =>
    simp only [StateT.run', ran] at parsed
    cases parsed
  | ok r =>
    simp only [StateT.run', ran] at parsed
    obtain rfl : r.1 = s := Except.ok.inj parsed
    have pays : Parser.Pays 0 0 (fun s => 0 + Stmt.sizeOf s.body) (Parser.shader name) := Parser.pays_shader name
    have paid := pays (ParserState.initial tokens) r.1 r.2 (Nat.zero_le _) ran
    dsimp only [ParserState.initial] at paid
    omega

end ComputeShader
