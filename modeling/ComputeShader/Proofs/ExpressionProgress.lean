import ComputeShader.Proofs.TokenProgress
import ComputeShader.Shader.Parser.Expression

/-! # Progress in expressions

Every level of the grammar takes a token at least, and between two tokens the recursion goes down at most
sixteen steps. The slack in the bound of each function is how many of the sixteen lie behind it: none for
a list of arguments, fifteen for a primary and for what comes behind a token.
-/

namespace ComputeShader

namespace Parser

variable {ahead room : Nat}

/-! ## Operands -/

theorem looks_asValue (operand : Operand) : Looks (asValue operand) := by
  cases operand with
  | value e => exact looks_pure e
  | entity e pos => exact looks_fail pos (by simp)

theorem looks_imageArgument (operand : Operand) : Looks (imageArgument operand) := by
  unfold imageArgument
  split
  · exact looks_pure _
  · exact looks_fail _ (by simp)

theorem looks_samplerArgument (operand : Operand) : Looks (samplerArgument operand) := by
  unfold samplerArgument
  split
  · exact looks_pure _
  · exact looks_fail _ (by simp)

theorem looks_checkArity (pos : Position) (name : String) (expected found : Nat) :
    Looks (checkArity pos name expected found) :=
  looks_ite (looks_pure _) (looks_fail _ (by simp))

theorem looks_resolveName (t : Token) : Looks (resolveName t) := by
  unfold resolveName
  split
  · split
    · exact looks_pure _
    · exact looks_fail _ (by simp)
  · refine (looks_lookup? _).bind fun found => ?_
    split
    · exact looks_pure _
    · exact looks_pure _
    · exact looks_pure _
    · exact looks_fail _ (by simp)

theorem looks_applySubscript (operand : Operand) (bracket : Position) (index : Expr) :
    Looks (applySubscript operand bracket index) := by
  unfold applySubscript
  split
  · exact looks_pure _
  · exact looks_pure _
  · exact looks_pure _
  · exact looks_fail _ (by simp)

/-- The parentheses of `length()` are all that a field takes behind its name. -/
theorem advances_applyField (operand : Operand) (field : Token) :
    Advances ahead 0 room (applyField operand field) := by
  unfold applyField
  split
  · split
    · exact advances_pure _
    · exact advances_fail _ (by simp)
  · refine advances_get fun s _ => ?_
    dsimp only
    split
    · exact advances_pure _
    · exact advances_fail _ (by simp)
  · split
    · exact (advances_expectSymbol _).any.bind fun _ => (advances_expectSymbol _).any.bind fun _ => advances_pure _
    · exact advances_fail _ (by simp)

/-! ## Calls -/

theorem looks_values (args : List Operand) : Looks (args.mapM asValue) := looks_mapM looks_asValue args

theorem looks_applyCall (callee : Token) (args : List Operand) : Looks (applyCall callee args) := by
  unfold applyCall
  dsimp only
  split
  · exact (looks_values args).bind fun es => looks_ite (looks_fail _ (by simp)) (looks_pure _)
  · split
    · refine (looks_checkArity _ _ _ _).bind fun _ => ?_
      split
      · exact looks_fail _ (by simp)
      · next memory operands =>
        refine (looks_asValue memory).bind fun element => ?_
        split
        · exact (looks_values operands).bind fun es => looks_pure _
        · exact looks_fail _ (by simp)
    · split
      · exact (looks_imageArgument _).bind fun _ => (looks_asValue _).bind fun _ => looks_pure _
      · exact looks_fail _ (by simp)
      · refine (looks_imageArgument _).bind fun _ => (looks_asValue _).bind fun _ => ?_
        exact (looks_asValue _).bind fun _ => looks_pure _
      · exact looks_fail _ (by simp)
      · exact (looks_imageArgument _).bind fun _ => looks_pure _
      · exact looks_fail _ (by simp)
      · exact looks_fail _ (by simp)
      · exact (looks_samplerArgument _).bind fun _ => (looks_asValue _).bind fun _ => looks_pure _
      · refine (looks_samplerArgument _).bind fun _ => (looks_asValue _).bind fun _ => ?_
        exact (looks_asValue _).bind fun _ => looks_pure _
      · exact looks_fail _ (by simp)
      · split
        · exact (looks_checkArity _ _ _ _).bind fun _ => (looks_values _).bind fun es => looks_pure _
        · exact looks_fail _ (by simp)

/-! ## Recursion -/

theorem sees_opaqueArgument? : Sees opaqueArgument? := by
  refine ⟨looks_get fun s => ?_, ?_⟩
  · split
    · dsimp only
      exact looks_ite (looks_pure _) (looks_pure _)
    · exact looks_pure _
  · rintro ⟨_ | ⟨t, rest⟩, beyond, lastPos, names, buffers, locals⟩ found s' ran
    · cases ran
    · exact Nat.succ_le_succ (Nat.zero_le _)

mutual

theorem advances_parseExpr : ∀ fuel {ahead room : Nat}, 16 * room ≤ fuel + 2 →
    Advances ahead 1 room (parseExpr fuel)
  | 0, _, _, enough => advances_limit (by omega)
  | fuel + 1, _, _, enough => by
    refine (advances_parseLevel fuel 0 (by omega)).bind fun condition => ?_
    refine (advances_consumeSymbol _).bind fun asked => ?_
    split
    · refine (advances_parseExpr fuel (by omega)).any.bind fun accepted => ?_
      refine (advances_expectSymbol _).any.bind fun _ => ?_
      exact (advances_parseExpr fuel (by omega)).any.bind fun rejected => advances_pure _
    · exact advances_pure _

theorem advances_parseLevel : ∀ fuel level {ahead room : Nat}, 16 * room ≤ fuel + 3 + min level 10 →
    Advances ahead 1 room (parseLevel fuel level)
  | 0, _, _, _, enough => advances_limit (by omega)
  | fuel + 1, level, _, _, enough => by
    unfold parseLevel
    split
    · next operators =>
      have below : level < 10 := operators
      refine (advances_parseLevel fuel (level + 1) (by omega)).bind fun left => ?_
      exact advances_parseChain fuel level left (by omega)
    · exact advances_parseUnary fuel (by omega)

/-- An operator and an operand are taken between two steps of a chain. -/
theorem advances_parseChain : ∀ fuel level left {ahead room : Nat}, 16 * room ≤ fuel + 15 →
    Advances ahead 0 room (parseChain fuel level left)
  | 0, _, _, _, _, enough => advances_limit (by omega)
  | fuel + 1, level, left, _, _, enough => by
    refine sees_peek?.then fun kind => ?_
    split
    · next c operator =>
      -- An operator is a token, so that the operand behind it has less room to go down.
      cases kind with
      | none => cases operator
      | some kind =>
        refine advances_skip.bind fun _ => ?_
        refine (advances_parseLevel fuel (level + 1) (by omega)).bind fun right => ?_
        exact advances_parseChain fuel level _ (by omega)
    · exact advances_pure _

theorem advances_parseUnary : ∀ fuel {ahead room : Nat}, 16 * room ≤ fuel + 14 →
    Advances ahead 1 room (parseUnary fuel)
  | 0, _, _, enough => advances_limit (by omega)
  | fuel + 1, _, room, enough => by
    have operand : Advances 0 1 (room - 1) (parseUnary fuel) := advances_parseUnary fuel (by omega)
    refine looks_here.then fun pos => sees_peek?.then fun kind => ?_
    split
    · exact advances_skip.bind fun _ => operand.any.bind fun e => advances_pure _
    · exact advances_skip.bind fun _ => operand.any.bind fun e => advances_pure _
    · exact advances_skip.bind fun _ => operand.any.bind fun e => advances_pure _
    · exact advances_skip.bind fun _ => operand.any
    · refine (advances_parsePrimary fuel (by omega)).bind fun primary => ?_
      refine (advances_parseSuffixes fuel primary (by omega)).bind fun whole => ?_
      exact (looks_asValue whole).advances

theorem advances_parseSuffixes : ∀ fuel operand {ahead room : Nat}, 16 * room ≤ fuel + 15 →
    Advances ahead 0 room (parseSuffixes fuel operand)
  | 0, _, _, _, enough => advances_limit (by omega)
  | fuel + 1, operand, _, _, enough => by
    refine sees_peek?.then fun kind => ?_
    split
    · refine looks_here.then fun bracket => advances_skip.bind fun _ => ?_
      refine (advances_parseExpr fuel (by omega)).any.bind fun index => ?_
      refine (advances_expectSymbol _).any.bind fun _ => ?_
      refine (looks_applySubscript _ _ _).then fun longer => ?_
      exact advances_parseSuffixes fuel longer (by omega)
    · refine advances_skip.bind fun _ => (advances_expectIdentifier _).any.bind fun field => ?_
      refine (advances_applyField operand field).bind fun longer => ?_
      exact advances_parseSuffixes fuel longer (by omega)
    · exact advances_pure _

theorem advances_parsePrimary : ∀ fuel {ahead room : Nat}, 16 * room ≤ fuel + 15 →
    Advances ahead 1 room (parsePrimary fuel)
  | 0, _, _, enough => advances_limit (by omega)
  | fuel + 1, _, _, enough => by
    refine advances_next (fun _ => advances_unmet _) fun t => ?_
    dsimp only
    split
    · exact (looks_integerLiteral t).then fun value => advances_pure _
    · exact (looks_floatLiteral t).then fun value => advances_pure _
    · exact advances_pure _
    · exact advances_pure _
    · refine (advances_parseExpr fuel (by omega)).any.bind fun inner => ?_
      exact (advances_expectSymbol _).any.bind fun _ => advances_pure _
    · refine sees_peek?.then fun kind => ?_
      split
      · refine (advances_parseArguments fuel (by omega)).any.bind fun args => ?_
        exact (looks_applyCall t args).then fun e => advances_pure _
      · exact (looks_resolveName t).advances
    · exact advances_fail _ (by simp)

theorem advances_parseArguments : ∀ fuel {ahead room : Nat}, 16 * room ≤ fuel + 15 →
    Advances ahead 1 room (parseArguments fuel)
  | 0, _, _, enough => advances_limit (by omega)
  | fuel + 1, _, _, enough => by
    refine (advances_expectSymbol _).bind fun _ => (advances_consumeSymbol _).bind fun none => ?_
    split
    · exact advances_pure _
    · refine (advances_parseArgumentList fuel (by omega)).any.bind fun args => ?_
      exact (advances_expectSymbol _).any.bind fun _ => advances_pure _

theorem advances_parseArgumentList : ∀ fuel {ahead room : Nat}, 16 * room ≤ fuel →
    Advances ahead 1 room (parseArgumentList fuel)
  | 0, _, _, enough => advances_limit (by omega)
  | fuel + 1, _, _, enough => by
    refine (advances_parseArgument fuel (by omega)).bind fun arg => ?_
    refine (advances_consumeSymbol _).bind fun further => ?_
    split
    · exact (advances_parseArgumentList fuel (by omega)).any.bind fun rest => advances_pure _
    · exact advances_pure _

theorem advances_parseArgument : ∀ fuel {ahead room : Nat}, 16 * room ≤ fuel + 1 →
    Advances ahead 1 room (parseArgument fuel)
  | 0, _, _, enough => advances_limit (by omega)
  | fuel + 1, _, _, enough => by
    refine sees_opaqueArgument?.then fun named => ?_
    cases named with
    | some t => exact advances_skip.bind fun _ => (looks_resolveName t).advances
    | none => exact (advances_parseExpr fuel (by omega)).bind fun e => advances_pure _

end

/-- With the fuel of the remaining tokens an expression is read to its end. -/
theorem advances_expression : Advances ahead 1 room expression :=
  advances_get fun _ _ => advances_parseExpr _ (by simp only [fuelFor]; omega)

theorem advances_callArguments : Advances ahead 1 room callArguments :=
  advances_get fun _ _ => advances_parseArguments _ (by simp only [fuelFor]; omega)

end Parser

end ComputeShader
