import ComputeShader.Proofs.ExpressionProgress

/-! # Sizes of expressions

An expression has no more nodes than tokens are taken for it: each node is paid for by a token of its own.
`Pays` balances what a parser takes against the size of what it gives; what was read before, and is part of
the result, comes in as a credit.
-/

namespace ComputeShader

namespace Operand

/-- The expressions in an operand that is a value. -/
def nodes : Operand → List Expr
  | value e => e.nodes
  | entity _ _ => []

/-- The expressions in all of several operands. -/
def nodesOf (args : List Operand) : List Expr := args.flatMap nodes

theorem length_nodesOf_nil : (nodesOf []).length = 0 := rfl

theorem length_nodesOf_cons (arg : Operand) (args : List Operand) :
    (nodesOf (arg :: args)).length = arg.nodes.length + (nodesOf args).length := by
  rw [nodesOf, List.flatMap_cons, List.length_append, nodesOf]

end Operand

theorem Connective.length_nodes_join (c : Connective) (left right : Expr) :
    (c.join left right).nodes.length = left.nodes.length + right.nodes.length + 1 := by
  cases c with
  | logical op => rw [join, Expr.nodes, List.length_cons, List.length_append]
  | binary op => rw [join, Expr.nodes, List.length_cons, List.length_append]

namespace Parser

variable {α β : Type} {x : Parser α} {k : α → Parser β} {cost : β → Nat}
variable {ahead credit credit' least : Nat}

/-! ## Balances -/

/-- Whether a parser, in front of at least `ahead` tokens, takes as many as its result costs beyond a credit. -/
def Pays (ahead credit : Nat) (cost : α → Nat) (x : Parser α) : Prop :=
  ∀ s a s', ahead ≤ s.rest.length → x s = .ok (a, s') →
    s'.rest.length + cost a ≤ s.rest.length + credit

theorem Pays.bind {sum : α → Nat} (first : Pays ahead credit sum x)
    (next : ∀ a, Pays 0 (sum a) cost (k a)) : Pays ahead credit cost (x >>= k) := by
  intro s b s' front ran
  obtain ⟨a, s'', ran, ran'⟩ := exists_of_bind_ok ran
  exact Nat.le_trans (next a s'' b s' (Nat.zero_le _) ran') (first s a s'' front ran)

theorem Pays.of_credit {x : Parser β} (pays : Pays ahead credit cost x) (le : credit ≤ credit') :
    Pays ahead credit' cost x := fun s a s' front ran =>
  Nat.le_trans (pays s a s' front ran) (Nat.add_le_add_left le _)

theorem Pays.of_cost {cost' : β → Nat} {x : Parser β} (pays : Pays ahead credit cost x)
    (le : ∀ b, cost' b ≤ cost b) : Pays ahead credit cost' x := fun s b s' front ran =>
  Nat.le_trans (Nat.add_le_add_left (le b) _) (pays s b s' front ran)

theorem Pays.of_ahead {ahead' : Nat} {x : Parser β} (pays : Pays ahead credit cost x) (le : ahead ≤ ahead') :
    Pays ahead' credit cost x := fun s b s' front => pays s b s' (Nat.le_trans le front)

theorem pays_pure {b : β} (enough : cost b ≤ credit) : Pays ahead credit cost (pure b) := by
  rintro s _ _ - ⟨⟩
  exact Nat.add_le_add_left enough _

theorem pays_fail (pos : Position) (fault : SourceFault) : Pays ahead credit cost (failAt pos fault) := by
  rintro s _ _ - ⟨⟩

theorem pays_fail_bind (pos : Position) (fault : SourceFault) :
    Pays ahead credit cost (failAt pos fault >>= k) := by
  rintro s _ _ - ⟨⟩

theorem pays_unmet (want : Unmet) : Pays ahead credit cost (failUnmet want) := by
  rintro s _ _ - ⟨⟩

theorem pays_unmet_bind (want : Unmet) : Pays ahead credit cost (failUnmet want >>= k) := by
  rintro s _ _ - ⟨⟩

theorem pays_limit : Pays ahead credit cost (do failAt (← here) .nestingLimit) := by
  rintro s _ _ - ⟨⟩

/-- What is taken for nothing is added to the credit. -/
theorem Advances.pays (advances : Advances ahead least 0 x) :
    Pays ahead credit (fun _ => credit + least) x := by
  intro s a s' front ran
  have left := (advances.passes s a s' front ran).length
  dsimp only
  omega

theorem Looks.pays (looks : Looks x) (next : ∀ a, Pays ahead credit cost (k a)) :
    Pays ahead credit cost (x >>= k) := by
  intro s b s' front ran
  obtain ⟨a, s'', ran, ran'⟩ := exists_of_bind_ok ran
  rw [looks.keeps s a s'' ran] at ran'
  exact next a s b s' front ran'

theorem pays_get {k : ParserState → Parser β} (next : ∀ s, Pays ahead credit cost (k s)) :
    Pays ahead credit cost (get >>= k) := fun s b s' front ran => next s s b s' front ran

theorem Sees.pays {x : Parser (Option α)} {k : Option α → Parser β} (sees : Sees x)
    (next : ∀ found, Pays found.toList.length credit cost (k found)) :
    Pays ahead credit cost (x >>= k) := by
  intro s b s' front ran
  obtain ⟨found, s'', ran, ran'⟩ := exists_of_bind_ok ran
  rw [sees.keeps s found s'' ran] at ran'
  exact next found s b s' (sees.front ran) ran'

/-- A token, if there is one, pays for one more. -/
theorem pays_next {k : Option Token → Parser β} (none : Pays 0 credit cost (k none))
    (some : ∀ t, Pays 0 (credit + 1) cost (k (some t))) : Pays ahead credit cost (next? >>= k) := by
  rintro ⟨_ | ⟨t, rest⟩, beyond, lastPos, names, buffers, locals⟩ b s' front ran
  · exact none _ b s' (Nat.zero_le _) ran
  · have paid := some t ⟨rest, beyond, lastPos, names, buffers, locals⟩ b s' (Nat.zero_le _) ran
    dsimp only [List.length_cons] at paid ⊢
    omega

/-- A step may be for nothing. -/
theorem pays_skip : Pays ahead credit (fun _ => credit) skip := by
  rintro ⟨_ | ⟨t, rest⟩, beyond, lastPos, names, buffers, locals⟩ _ _ - ⟨⟩
  · exact Nat.le_refl _
  · exact Nat.add_le_add_right (Nat.le_succ _) _

/-! ## Operands -/

theorem pays_asValue (operand : Operand) :
    Pays ahead (credit + operand.nodes.length) (fun e => credit + e.nodes.length) (asValue operand) := by
  cases operand with
  | value e => exact pays_pure (Nat.le_refl _)
  | entity e pos => exact pays_fail _ _

theorem pays_values (args : List Operand) :
    Pays ahead (credit + (Operand.nodesOf args).length) (fun es => credit + (Expr.nodesOf es).length)
      (args.mapM asValue) := by
  induction args generalizing ahead credit with
  | nil => exact pays_pure (Nat.le_refl _)
  | cons arg rest ih =>
    rw [List.mapM_cons, Operand.length_nodesOf_cons, Nat.add_comm arg.nodes.length, ← Nat.add_assoc]
    refine (pays_asValue arg).bind fun e => ?_
    rw [Nat.add_right_comm]
    refine ih.bind fun es => pays_pure ?_
    rw [Expr.nodesOf, List.length_append]
    omega

/-- A built-in or a declared variable is paid for by its name. -/
theorem pays_resolveName (t : Token) :
    Pays ahead (credit + 1) (fun operand => credit + operand.nodes.length) (resolveName t) := by
  unfold resolveName
  split
  · split
    · exact pays_pure (Nat.le_refl _)
    · exact pays_fail _ _
  · refine (looks_lookup? _).pays fun found => ?_
    split
    · exact pays_pure (Nat.le_refl _)
    · exact pays_pure (Nat.le_refl _)
    · exact pays_pure (Nat.le_succ _)
    · exact pays_fail _ _

theorem pays_applySubscript (operand : Operand) (bracket : Position) (index : Expr) :
    Pays ahead (credit + operand.nodes.length + index.nodes.length + 1)
      (fun longer => credit + longer.nodes.length) (applySubscript operand bracket index) := by
  unfold applySubscript
  split
  · refine pays_pure ?_
    simp only [Operand.nodes, Expr.nodes, List.length_cons, List.length_append]
    omega
  · refine pays_pure ?_
    simp only [Operand.nodes, Expr.nodes, List.length_cons, List.length_nil]
    omega
  · refine pays_pure ?_
    simp only [Operand.nodes, Expr.nodes, List.length_cons, List.length_nil]
    omega
  · exact pays_fail _ _

theorem pays_applyField (operand : Operand) (field : Token) :
    Pays ahead (credit + operand.nodes.length + 1) (fun longer => credit + longer.nodes.length)
      (applyField operand field) := by
  unfold applyField
  split
  · split
    · refine pays_pure ?_
      simp only [Operand.nodes, Expr.nodes, List.length_cons]
      omega
    · exact pays_fail _ _
  · refine pays_get fun s => ?_
    dsimp only
    split
    · exact pays_pure (Nat.le_succ _)
    · exact pays_fail _ _
  · split
    · refine (advances_expectSymbol _).any.pays.bind fun _ => (advances_expectSymbol _).any.pays.bind fun _ => ?_
      exact pays_pure (Nat.le_refl _)
    · exact pays_fail _ _

/-! ## Calls -/

section

variable {binding : Parser Binding} {resource coord value : Operand}

/-- A call with a resource and one value. -/
theorem pays_lookup {f : Binding → Expr → Expr} (looks : Looks binding)
    (size : ∀ b e, (f b e).nodes.length = e.nodes.length + 1) :
    Pays ahead (credit + 1 + (Operand.nodesOf [resource, coord]).length) (fun e => credit + e.nodes.length)
      (do return f (← binding) (← asValue coord)) := by
  simp only [Operand.length_nodesOf_cons, Operand.length_nodesOf_nil, Nat.add_zero]
  rw [← Nat.add_assoc]
  refine looks.pays fun b => (pays_asValue coord).bind fun e => pays_pure ?_
  rw [size]
  omega

/-- A call with a resource and two values. -/
theorem pays_lookupTwo {f : Binding → Expr → Expr → Expr} (looks : Looks binding)
    (size : ∀ b e e', (f b e e').nodes.length = e.nodes.length + e'.nodes.length + 1) :
    Pays ahead (credit + 1 + (Operand.nodesOf [resource, coord, value]).length)
      (fun e => credit + e.nodes.length) (do return f (← binding) (← asValue coord) (← asValue value)) := by
  simp only [Operand.length_nodesOf_cons, Operand.length_nodesOf_nil, Nat.add_zero]
  rw [← Nat.add_assoc, ← Nat.add_assoc, Nat.add_right_comm]
  refine looks.pays fun b => (pays_asValue coord).bind fun e => ?_
  rw [Nat.add_right_comm]
  refine (pays_asValue value).bind fun e' => pays_pure ?_
  rw [size]
  omega

end

/-- A call is paid for by its name. -/
theorem pays_applyCall (callee : Token) (args : List Operand) :
    Pays ahead (credit + (Operand.nodesOf args).length + 1) (fun e => credit + e.nodes.length)
      (applyCall callee args) := by
  rw [Nat.add_right_comm]
  unfold applyCall
  dsimp only
  split
  · refine (pays_values args).bind fun es => ?_
    split
    · exact pays_fail _ _
    · refine pays_pure ?_
      rw [Expr.nodes, List.length_cons]
      omega
  · split
    · refine (looks_checkArity _ _ _ _).pays fun _ => ?_
      split
      · exact pays_fail _ _
      · next memory operands =>
        rw [Operand.length_nodesOf_cons, Nat.add_comm memory.nodes.length, ← Nat.add_assoc]
        refine (pays_asValue memory).bind fun element => ?_
        split
        · next index =>
          rw [Nat.add_right_comm]
          refine (pays_values operands).bind fun es => pays_pure ?_
          simp only [Expr.nodes, List.length_cons, List.length_append]
          omega
        · exact pays_fail _ _
    · split
      · exact pays_lookup (looks_imageArgument _) fun b e => by rw [Expr.nodes, List.length_cons]
      · exact pays_fail _ _
      · refine pays_lookupTwo (looks_imageArgument _) fun b e e' => ?_
        rw [Expr.nodes, List.length_cons, List.length_append]
      · exact pays_fail _ _
      · refine (looks_imageArgument _).pays fun b => pays_pure ?_
        rw [Expr.nodes, List.length_singleton]
        exact Nat.le_add_right _ _
      · exact pays_fail _ _
      · exact pays_fail _ _
      · exact pays_lookup (looks_samplerArgument _) fun b e => by rw [Expr.nodes, List.length_cons]
      · refine pays_lookupTwo (looks_samplerArgument _) fun b e e' => ?_
        rw [Expr.nodes, List.length_cons, List.length_append]
      · exact pays_fail _ _
      · split
        · refine (looks_checkArity _ _ _ _).pays fun _ => (pays_values _).bind fun es => pays_pure ?_
          rw [Expr.nodes, List.length_cons]
          omega
        · exact pays_fail _ _

/-! ## Expressions -/

mutual

theorem pays_parseExpr : ∀ fuel {ahead credit : Nat},
    Pays ahead credit (fun e => credit + e.nodes.length) (parseExpr fuel)
  | 0, _, _ => pays_limit
  | fuel + 1, _, _ => by
    refine (pays_parseLevel fuel 0).bind fun condition => (advances_consumeSymbol _).pays.bind fun asked => ?_
    split
    · refine (pays_parseExpr fuel).bind fun accepted => (advances_expectSymbol _).pays.bind fun _ => ?_
      refine (pays_parseExpr fuel).bind fun rejected => pays_pure ?_
      simp only [Expr.nodes, List.length_cons, List.length_append]
      omega
    · exact pays_pure (Nat.le_refl _)

theorem pays_parseLevel : ∀ fuel level {ahead credit : Nat},
    Pays ahead credit (fun e => credit + e.nodes.length) (parseLevel fuel level)
  | 0, _, _, _ => pays_limit
  | fuel + 1, level, _, _ => by
    unfold parseLevel
    split
    · exact (pays_parseLevel fuel (level + 1)).bind fun left => pays_parseChain fuel level left
    · exact pays_parseUnary fuel

theorem pays_parseChain : ∀ fuel level left {ahead credit : Nat},
    Pays ahead (credit + left.nodes.length) (fun e => credit + e.nodes.length) (parseChain fuel level left)
  | 0, _, _, _, _ => pays_limit
  | fuel + 1, level, left, _, credit => by
    refine sees_peek?.pays fun kind => ?_
    split
    · next c operator =>
      cases kind with
      | none => cases operator
      | some kind =>
        -- The operator pays for the node that joins both sides.
        refine advances_skip.pays.bind fun _ => (pays_parseLevel fuel (level + 1)).bind fun right => ?_
        refine (pays_parseChain fuel level (c.join left right)).of_credit ?_
        rw [Connective.length_nodes_join]
        omega
    · exact pays_pure (Nat.le_refl _)

theorem pays_parseUnary : ∀ fuel {ahead credit : Nat},
    Pays ahead credit (fun e => credit + e.nodes.length) (parseUnary fuel)
  | 0, _, _ => pays_limit
  | fuel + 1, _, credit => by
    have operation (pos : Position) (op : UnaryOp) :
        Pays 1 credit (fun e : Expr => credit + e.nodes.length) (do
          skip
          return Expr.unary pos op (← parseUnary fuel)) := by
      refine advances_skip.pays.bind fun _ => (pays_parseUnary fuel).bind fun e => pays_pure ?_
      rw [Expr.nodes, List.length_cons]
      omega
    refine looks_here.pays fun pos => sees_peek?.pays fun kind => ?_
    split
    · exact operation pos .neg
    · exact operation pos .not
    · exact operation pos .bitNot
    · -- A plus sign makes no node.
      refine advances_skip.pays.bind fun _ => (pays_parseUnary fuel).of_cost fun e => ?_
      omega
    · refine (pays_parsePrimary fuel).bind fun primary => (pays_parseSuffixes fuel primary).bind fun whole => ?_
      exact pays_asValue whole

theorem pays_parseSuffixes : ∀ fuel operand {ahead credit : Nat},
    Pays ahead (credit + operand.nodes.length) (fun longer => credit + longer.nodes.length)
      (parseSuffixes fuel operand)
  | 0, _, _, _ => pays_limit
  | fuel + 1, operand, _, _ => by
    refine sees_peek?.pays fun kind => ?_
    split
    · refine looks_here.pays fun bracket => advances_skip.pays.bind fun _ => ?_
      refine (pays_parseExpr fuel).bind fun index => (advances_expectSymbol _).pays.bind fun _ => ?_
      refine ((pays_applySubscript operand bracket index).of_credit ?_).bind fun longer =>
        pays_parseSuffixes fuel longer
      omega
    · refine advances_skip.pays.bind fun _ => (advances_expectIdentifier _).any.pays.bind fun field => ?_
      exact (pays_applyField operand field).bind fun longer => pays_parseSuffixes fuel longer
    · exact pays_pure (Nat.le_refl _)

theorem pays_parsePrimary : ∀ fuel {ahead credit : Nat},
    Pays ahead credit (fun operand => credit + operand.nodes.length) (parsePrimary fuel)
  | 0, _, _ => pays_limit
  | fuel + 1, _, _ => by
    refine pays_next (pays_unmet _) fun t => ?_
    dsimp only
    split
    · exact (looks_integerLiteral t).pays fun value => pays_pure (Nat.le_refl _)
    · exact (looks_floatLiteral t).pays fun value => pays_pure (Nat.le_refl _)
    · exact pays_pure (Nat.le_refl _)
    · exact pays_pure (Nat.le_refl _)
    · refine (pays_parseExpr fuel).bind fun inner => (advances_expectSymbol _).any.pays.bind fun _ => pays_pure ?_
      rw [Operand.nodes]
      omega
    · refine sees_peek?.pays fun kind => ?_
      split
      · refine (pays_parseArguments fuel).bind fun args => ?_
        rw [Nat.add_right_comm]
        exact (pays_applyCall t args).bind fun e => pays_pure (Nat.le_refl _)
      · exact pays_resolveName t
    · exact pays_fail _ _

theorem pays_parseArguments : ∀ fuel {ahead credit : Nat},
    Pays ahead credit (fun args => credit + (Operand.nodesOf args).length) (parseArguments fuel)
  | 0, _, _ => pays_limit
  | fuel + 1, _, _ => by
    refine (advances_expectSymbol _).any.pays.bind fun _ => (advances_consumeSymbol _).pays.bind fun none => ?_
    split
    · exact pays_pure (Nat.le_refl _)
    · refine (pays_parseArgumentList fuel).bind fun args => ?_
      exact (advances_expectSymbol _).any.pays.bind fun _ => pays_pure (Nat.le_refl _)

theorem pays_parseArgumentList : ∀ fuel {ahead credit : Nat},
    Pays ahead credit (fun args => credit + (Operand.nodesOf args).length) (parseArgumentList fuel)
  | 0, _, _ => pays_limit
  | fuel + 1, _, _ => by
    refine (pays_parseArgument fuel).bind fun arg => (advances_consumeSymbol _).pays.bind fun further => ?_
    split
    · refine (pays_parseArgumentList fuel).bind fun rest => pays_pure ?_
      rw [Operand.length_nodesOf_cons]
      omega
    · refine pays_pure ?_
      rw [Operand.length_nodesOf_cons, Operand.length_nodesOf_nil]
      omega

theorem pays_parseArgument : ∀ fuel {ahead credit : Nat},
    Pays ahead credit (fun operand => credit + operand.nodes.length) (parseArgument fuel)
  | 0, _, _ => pays_limit
  | fuel + 1, _, _ => by
    refine sees_opaqueArgument?.pays fun named => ?_
    cases named with
    | some t => exact advances_skip.pays.bind fun _ => pays_resolveName t
    | none => exact (pays_parseExpr fuel).bind fun e => pays_pure (Nat.le_refl _)

end

/-- There are no more arguments than tokens either: one that is a mere name counts here, too. -/
theorem pays_argumentCount (fuel : Nat) :
    Pays ahead credit (fun args => credit + args.length) (parseArgumentList fuel) := by
  induction fuel generalizing ahead credit with
  | zero => exact pays_limit
  | succ fuel ih =>
    refine (advances_parseArgument fuel (Nat.zero_le _)).pays.bind fun arg => ?_
    refine (advances_consumeSymbol _).pays.bind fun further => ?_
    split
    · refine ih.bind fun rest => pays_pure ?_
      rw [List.length_cons]
      omega
    · exact pays_pure (Nat.le_refl _)

theorem pays_argumentsCount (fuel : Nat) :
    Pays ahead credit (fun args => credit + args.length) (parseArguments fuel) := by
  cases fuel with
  | zero => exact pays_limit
  | succ fuel =>
    refine (advances_expectSymbol _).any.pays.bind fun _ => (advances_consumeSymbol _).pays.bind fun none => ?_
    split
    · exact pays_pure (Nat.le_refl _)
    · refine (pays_argumentCount fuel).bind fun args => ?_
      exact (advances_expectSymbol _).any.pays.bind fun _ => pays_pure (Nat.le_refl _)

theorem pays_expression : Pays ahead credit (fun e => credit + e.nodes.length) expression :=
  pays_get fun _ => pays_parseExpr _

theorem pays_callArguments :
    Pays ahead credit (fun args => credit + (Operand.nodesOf args).length) callArguments :=
  pays_get fun _ => pays_parseArguments _

end Parser

end ComputeShader
