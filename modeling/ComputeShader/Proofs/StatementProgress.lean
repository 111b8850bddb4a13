import ComputeShader.Proofs.ExpressionProgress
import ComputeShader.Shader.Parser.Statement

/-! # Progress in statements

A statement takes a token at least, and so does every further name of a declaration and every further
value of an assignment; a block goes down two steps for each of its statements.
-/

namespace ComputeShader

namespace Parser

variable {ahead room : Nat}

/-! ## Simple statements -/

theorem looks_asTarget (e : Expr) : Looks (asTarget e) := by
  unfold asTarget
  split
  · exact looks_pure _
  · exact looks_fail _ (by simp)

/-- Every value of an assignment chain takes a token. -/
theorem advances_assignmentTail (fuel : Nat) (enough : room ≤ fuel) :
    Advances ahead 1 room (assignmentTail fuel) := by
  induction fuel generalizing ahead room with
  | zero => exact advances_limit (Nat.eq_zero_of_le_zero enough)
  | succ fuel ih =>
    refine advances_expression.bind fun e => sees_peek?.then fun kind => ?_
    split
    · next assigns =>
      subst assigns
      refine (looks_asTarget e).then fun target => advances_skip.any.bind fun _ => ?_
      exact (ih (by omega)).any.bind fun _ => advances_pure _
    · exact advances_pure _

theorem advances_imageStoreStatement (line : Nat) : Advances ahead 1 room (imageStoreStatement line) := by
  refine advances_next (fun _ => advances_unmet _) fun name => ?_
  refine advances_callArguments.any.bind fun args => ?_
  split
  · refine (looks_asValue _).then fun value => (looks_asValue _).then fun coord => ?_
    refine (looks_imageArgument _).then fun binding => ?_
    exact (advances_expectSymbol _).any.bind fun _ => advances_pure _
  · exact advances_fail _ (by simp)

theorem advances_expressionStatement (line : Nat) : Advances ahead 1 room (expressionStatement line) := by
  have ended {ahead room : Nat} (stmt : Stmt) :
      Advances ahead 0 room (do expectSymbol .semicolon; return stmt) :=
    (advances_expectSymbol _).any.bind fun _ => advances_pure _
  refine advances_expression.bind fun first => sees_peek?.then fun kind => ?_
  dsimp only
  split
  · next assigns =>
    subst assigns
    refine (looks_asTarget first).then fun target => advances_skip.any.bind fun _ => advances_get fun s _ => ?_
    exact (advances_assignmentTail _ (Nat.min_le_right ..)).any.bind fun _ => ended _
  · split
    · next op compounds =>
      -- The operator is a token, as none would be no operator.
      cases kind with
      | none => cases compounds
      | some kind =>
        refine advances_skip.any.bind fun _ => (looks_asTarget first).then fun target => ?_
        exact advances_expression.any.bind fun value => ended _
    · exact ended _

theorem looks_atImageStore : Looks atImageStore := by
  refine looks_get fun s => ?_
  split
  · exact looks_pure _
  · exact looks_pure _

theorem looks_atLocalDeclaration : Looks atLocalDeclaration := by
  refine looks_get fun s => ?_
  split
  · exact looks_pure _
  · exact looks_pure _

/-! ## Local declarations -/

/-- A name takes its slot, no token. -/
theorem advances_declareLocal (name : Token) (ty : ValueType) :
    Advances ahead 0 room (declareLocal name ty) := by
  refine advances_replace fun s => ?_
  split
  · exact .inl ⟨_, _, by simp, rfl⟩
  · exact .inr ⟨_, _, rfl, .refl s⟩

/-- Every declared name takes its token. -/
theorem advances_declarators (ty : ValueType) (fuel : Nat) (enough : room ≤ fuel) :
    Advances ahead 1 room (declarators ty fuel) := by
  induction fuel generalizing ahead room with
  | zero => exact advances_limit (Nat.eq_zero_of_le_zero enough)
  | succ fuel ih =>
    refine (advances_expectIdentifier _).bind fun name => sees_peek?.then fun kind => ?_
    dsimp only
    split
    · exact advances_unmet_bind _
    have declaring (init : Option Expr) : Advances 0 0 (room - 1) (do
        let slot ← declareLocal name ty
        let stmt := Stmt.declare name.pos.line slot init
        if ← consumeSymbol .comma then return stmt :: (← declarators ty fuel) else return [stmt]) := by
      refine (advances_declareLocal name ty).bind fun slot => (advances_consumeSymbol _).bind fun further => ?_
      split
      · exact (ih (by omega)).any.bind fun rest => advances_pure _
      · exact advances_pure _
    refine (advances_consumeSymbol _).bind fun assigned => ?_
    split
    · exact (advances_expression.map some).any.bind declaring
    · exact declaring none

theorem advances_localDeclaration (line : Nat) : Advances ahead 1 room (localDeclaration line) := by
  refine (advances_skipWhile _).bind fun _ => (advances_expectIdentifier _).bind fun tyName => ?_
  split
  · exact advances_fail _ (by simp)
  · next ty _ =>
    refine advances_get fun s _ => (advances_declarators ty _ (Nat.min_le_right ..)).any.bind fun stmts => ?_
    refine (advances_expectSymbol _).any.bind fun _ => ?_
    split
    · exact advances_pure _
    · exact advances_pure _

/-! ## Recursion -/

mutual

theorem advances_parseStatement : ∀ fuel {ahead room : Nat}, 2 * room ≤ fuel + 1 →
    Advances ahead 1 room (parseStatement fuel)
  | 0, _, _, enough => advances_limit (by omega)
  | fuel + 1, _, room, enough => by
    have part : Advances 0 1 (room - 1) (parseStatement fuel) := advances_parseStatement fuel (by omega)
    refine looks_here.then fun pos => sees_peek?.then fun kind => ?_
    split
    · refine advances_skip.bind fun _ => ?_
      exact (advances_parseBlock fuel (by omega)).bind fun body => advances_pure _
    · exact advances_skip.bind fun _ => advances_pure _
    · refine advances_skip.bind fun _ => (advances_expectSymbol _).any.bind fun _ => ?_
      refine advances_expression.any.bind fun condition => (advances_expectSymbol _).any.bind fun _ => ?_
      refine part.any.bind fun accepted => (advances_consume _).bind fun otherwise => ?_
      split
      · exact part.any.bind fun rejected => advances_pure _
      · exact advances_pure _
    · refine advances_skip.bind fun _ => (advances_consumeSymbol _).bind fun ended => ?_
      split
      · exact advances_pure _
      · exact advances_unmet _
    · refine looks_atLocalDeclaration.then fun declares => ?_
      split
      · exact advances_localDeclaration _
      · refine looks_atImageStore.then fun stores => ?_
        split
        · exact advances_imageStoreStatement _
        · exact advances_expressionStatement _

/-- A block takes its closing brace. -/
theorem advances_parseBlock : ∀ fuel {ahead room : Nat}, 2 * room ≤ fuel →
    Advances ahead 0 room (parseBlock fuel)
  | 0, _, _, enough => advances_limit (by omega)
  | fuel + 1, _, _, enough => by
    refine (advances_consumeSymbol _).bind fun closed => ?_
    split
    · exact advances_pure _
    · refine sees_peek?.then fun kind => ?_
      split
      · exact advances_unmet _
      · refine (advances_parseStatement fuel (by omega)).bind fun stmt => ?_
        exact (advances_parseBlock fuel (by omega)).bind fun rest => advances_pure _

end

/-- With the fuel of the remaining tokens a statement is read to its end. -/
theorem advances_statement : Advances ahead 1 room statement :=
  advances_get fun _ _ => advances_parseStatement _ (by simp only [fuelFor]; omega)

theorem advances_blockBody : Advances ahead 0 room blockBody :=
  advances_get fun _ _ => advances_parseBlock _ (by simp only [fuelFor]; omega)

end Parser

end ComputeShader
