import ComputeShader.Proofs.HeaderProgress
import ComputeShader.Proofs.StatementProgress

/-! # Fuel to spare

A function that falls back to less fuel at every step gives the same with more of it, unless it runs out.
Where its fuel is known to be enough for the tokens that remain, all larger amounts therefore lead to one
result, and the fuel is no part of what the grammar accepts.
-/

namespace ComputeShader

namespace Parser

variable {α β : Type} {x y : Parser α} {k l : α → Parser β}

/-- Whether a parser gives what another one gives, unless it runs out of fuel. -/
def Approximates (x y : Parser α) : Prop :=
  ∀ s, x s = y s ∨ ∃ e, x s = .error e ∧ e.fault = .nestingLimit

theorem Approximates.refl (x : Parser α) : Approximates x x := fun _ => .inl rfl

theorem approximates_limit : Approximates (do failAt (← here) .nestingLimit) y :=
  fun _ => .inr ⟨_, rfl, rfl⟩

/-- Behind a failure nothing is done. -/
theorem approximates_unmet_bind (want : Unmet) : Approximates (failUnmet want >>= k) (failUnmet want >>= l) :=
  fun _ => .inl rfl

theorem Approximates.bind (first : Approximates x y) (next : ∀ a, Approximates (k a) (l a)) :
    Approximates (x >>= k) (y >>= l) := by
  intro s
  obtain same | ⟨e, failed, limit⟩ := first s
  · cases ran : y s with
    | error e =>
      left
      simp only [Bind.bind, StateT.bind, same, ran]
      rfl
    | ok r =>
      rw [show (x >>= k) s = k r.1 r.2 by simp only [Bind.bind, StateT.bind, same, ran]; rfl,
        show (y >>= l) s = l r.1 r.2 by simp only [Bind.bind, StateT.bind, ran]; rfl]
      exact next r.1 r.2
  · right
    refine ⟨e, ?_, limit⟩
    simp only [Bind.bind, StateT.bind, failed]
    rfl

/-- What is done first is the same. -/
theorem Approximates.after (next : ∀ a, Approximates (k a) (l a)) : Approximates (x >>= k) (x >>= l) :=
  (Approximates.refl x).bind next

/-! ## Loops -/

theorem approximates_layoutItems (fuel : Nat) : Approximates (layoutItems fuel) (layoutItems (fuel + 1)) := by
  induction fuel with
  | zero => exact approximates_limit
  | succ fuel ih =>
    have items (name : Token) (value : Option UInt32) : Approximates
        (do
          let item := LayoutItem.mk name.lexeme value name.pos
          if ← consumeSymbol .comma then return item :: (← layoutItems fuel) else return [item])
        (do
          let item := LayoutItem.mk name.lexeme value name.pos
          if ← consumeSymbol .comma then return item :: (← layoutItems (fuel + 1)) else return [item]) := by
      refine .after fun further => ?_
      split
      · exact ih.bind fun rest => .refl _
      · exact .refl _
    refine .after fun name => .after fun given => ?_
    split
    · exact .after fun value => items name value
    · exact items name none

theorem approximates_qualifiersFrom (fuel : Nat) (q : Qualifiers) :
    Approximates (qualifiersFrom fuel q) (qualifiersFrom (fuel + 1) q) := by
  induction fuel generalizing q with
  | zero => exact approximates_limit
  | succ fuel ih =>
    refine .after fun s => ?_
    split
    · exact .refl _
    split
    · exact .after fun items => ih _
    · split
      · split
        · dsimp only
          split
          · exact approximates_unmet_bind _
          · exact .after fun _ => ih _
        · split
          · exact .after fun _ => ih _
          · exact .refl _
      · split
        · exact .after fun _ => ih _
        · exact .refl _

theorem approximates_headerFrom (fuel : Nat) (header : Header) :
    Approximates (headerFrom fuel header) (headerFrom (fuel + 1) header) := by
  induction fuel generalizing header with
  | zero => exact approximates_limit
  | succ fuel ih =>
    refine .after fun kind => ?_
    split
    · exact .refl _
    · exact .after fun e => ih _
    · exact .after fun _ => ih _
    · exact .refl _
    · exact .after fun longer => ih _

theorem approximates_assignmentTail (fuel : Nat) :
    Approximates (assignmentTail fuel) (assignmentTail (fuel + 1)) := by
  induction fuel with
  | zero => exact approximates_limit
  | succ fuel ih =>
    refine .after fun e => .after fun kind => ?_
    split
    · exact .after fun target => .after fun _ => ih.bind fun rest => .refl _
    · exact .refl _

theorem approximates_declarators (ty : ValueType) (fuel : Nat) :
    Approximates (declarators ty fuel) (declarators ty (fuel + 1)) := by
  induction fuel with
  | zero => exact approximates_limit
  | succ fuel ih =>
    have declaring (name : Token) (init : Option Expr) : Approximates
        (do
          let slot ← declareLocal name ty
          let stmt := Stmt.declare name.pos.line slot init
          if ← consumeSymbol .comma then return stmt :: (← declarators ty fuel) else return [stmt])
        (do
          let slot ← declareLocal name ty
          let stmt := Stmt.declare name.pos.line slot init
          if ← consumeSymbol .comma then return stmt :: (← declarators ty (fuel + 1)) else return [stmt]) := by
      refine .after fun slot => .after fun further => ?_
      split
      · exact ih.bind fun rest => .refl _
      · exact .refl _
    refine .after fun name => .after fun kind => ?_
    dsimp only
    split
    · exact approximates_unmet_bind _
    refine .after fun assigned => ?_
    split
    · exact .after fun init => declaring name init
    · exact declaring name none

/-! ## Expressions -/

mutual

theorem approximates_parseExpr : ∀ fuel, Approximates (parseExpr fuel) (parseExpr (fuel + 1))
  | 0 => approximates_limit
  | fuel + 1 => by
    refine (approximates_parseLevel fuel 0).bind fun condition => .after fun asked => ?_
    split
    · refine (approximates_parseExpr fuel).bind fun accepted => .after fun _ => ?_
      exact (approximates_parseExpr fuel).bind fun rejected => .refl _
    · exact .refl _

theorem approximates_parseLevel : ∀ fuel level,
    Approximates (parseLevel fuel level) (parseLevel (fuel + 1) level)
  | 0, _ => approximates_limit
  | fuel + 1, level => by
    unfold parseLevel
    split
    · exact (approximates_parseLevel fuel (level + 1)).bind fun left => approximates_parseChain fuel level left
    · exact approximates_parseUnary fuel

theorem approximates_parseChain : ∀ fuel level left,
    Approximates (parseChain fuel level left) (parseChain (fuel + 1) level left)
  | 0, _, _ => approximates_limit
  | fuel + 1, level, left => by
    refine .after fun kind => ?_
    split
    · refine .after fun _ => (approximates_parseLevel fuel (level + 1)).bind fun right => ?_
      exact approximates_parseChain fuel level _
    · exact .refl _

theorem approximates_parseUnary : ∀ fuel, Approximates (parseUnary fuel) (parseUnary (fuel + 1))
  | 0 => approximates_limit
  | fuel + 1 => by
    have operand := approximates_parseUnary fuel
    refine .after fun pos => .after fun kind => ?_
    split
    · exact .after fun _ => operand.bind fun e => .refl _
    · exact .after fun _ => operand.bind fun e => .refl _
    · exact .after fun _ => operand.bind fun e => .refl _
    · exact .after fun _ => operand
    · refine (approximates_parsePrimary fuel).bind fun primary => ?_
      exact (approximates_parseSuffixes fuel primary).bind fun whole => .refl _

theorem approximates_parseSuffixes : ∀ fuel operand,
    Approximates (parseSuffixes fuel operand) (parseSuffixes (fuel + 1) operand)
  | 0, _ => approximates_limit
  | fuel + 1, operand => by
    refine .after fun kind => ?_
    split
    · refine .after fun bracket => .after fun _ => (approximates_parseExpr fuel).bind fun index => ?_
      exact .after fun _ => .after fun longer => approximates_parseSuffixes fuel longer
    · exact .after fun _ => .after fun field => .after fun longer => approximates_parseSuffixes fuel longer
    · exact .refl _

theorem approximates_parsePrimary : ∀ fuel, Approximates (parsePrimary fuel) (parsePrimary (fuel + 1))
  | 0 => approximates_limit
  | fuel + 1 => by
    refine .after fun token => ?_
    split
    · exact .refl _
    split
    · exact .refl _
    · exact .refl _
    · exact .refl _
    · exact .refl _
    · exact (approximates_parseExpr fuel).bind fun inner => .refl _
    · refine .after fun kind => ?_
      split
      · exact (approximates_parseArguments fuel).bind fun args => .refl _
      · exact .refl _
    · exact .refl _

theorem approximates_parseArguments : ∀ fuel, Approximates (parseArguments fuel) (parseArguments (fuel + 1))
  | 0 => approximates_limit
  | fuel + 1 => by
    refine .after fun _ => .after fun none => ?_
    split
    · exact .refl _
    · exact (approximates_parseArgumentList fuel).bind fun args => .refl _

theorem approximates_parseArgumentList : ∀ fuel,
    Approximates (parseArgumentList fuel) (parseArgumentList (fuel + 1))
  | 0 => approximates_limit
  | fuel + 1 => by
    refine (approximates_parseArgument fuel).bind fun arg => .after fun further => ?_
    split
    · exact (approximates_parseArgumentList fuel).bind fun rest => .refl _
    · exact .refl _

theorem approximates_parseArgument : ∀ fuel, Approximates (parseArgument fuel) (parseArgument (fuel + 1))
  | 0 => approximates_limit
  | fuel + 1 => by
    refine .after fun named => ?_
    split
    · exact .refl _
    · exact (approximates_parseExpr fuel).bind fun e => .refl _

end

/-! ## Statements -/

mutual

theorem approximates_parseStatement : ∀ fuel, Approximates (parseStatement fuel) (parseStatement (fuel + 1))
  | 0 => approximates_limit
  | fuel + 1 => by
    have part := approximates_parseStatement fuel
    refine .after fun pos => .after fun kind => ?_
    split
    · exact .after fun _ => (approximates_parseBlock fuel).bind fun body => .refl _
    · exact .refl _
    · refine .after fun _ => .after fun _ => .after fun condition => .after fun _ => ?_
      refine part.bind fun accepted => .after fun otherwise => ?_
      split
      · exact part.bind fun rejected => .refl _
      · exact .refl _
    · exact .refl _
    · exact .refl _

theorem approximates_parseBlock : ∀ fuel, Approximates (parseBlock fuel) (parseBlock (fuel + 1))
  | 0 => approximates_limit
  | fuel + 1 => by
    refine .after fun closed => ?_
    split
    · exact .refl _
    · refine .after fun kind => ?_
      split
      · exact .refl _
      · refine (approximates_parseStatement fuel).bind fun stmt => ?_
        exact (approximates_parseBlock fuel).bind fun rest => .refl _

end

/-! ## Enough fuel -/

variable {f : Nat → Parser α} {steps fuel : Nat} {s : ParserState}

/-- Whether a function gives the same with more fuel, and has enough with as many steps for each token that
remains and for the end. -/
structure Bounded (steps : Nat) (f : Nat → Parser α) : Prop where
  approximates : ∀ fuel, Approximates (f fuel) (f (fuel + 1))
  advances : ∀ fuel room, steps * room ≤ fuel → Advances 0 0 room (f fuel)

theorem Bounded.settles (bounded : Bounded steps f) (enough : steps * (s.rest.length + 1) ≤ fuel)
    {e : SourceError} (failed : f fuel s = .error e) : e.fault ≠ .nestingLimit :=
  (bounded.advances fuel _ enough).settles s e (Nat.zero_le _) (Nat.lt_succ_self _) failed

/-- From the bound on, the fuel does not matter. -/
theorem Bounded.steady (bounded : Bounded steps f) (enough : steps * (s.rest.length + 1) ≤ fuel) :
    f fuel s = f (steps * (s.rest.length + 1)) s := by
  obtain ⟨more, rfl⟩ := Nat.exists_eq_add_of_le enough
  induction more with
  | zero => rfl
  | succ more ih =>
    -- What is already enough cannot run out, so that one more changes nothing.
    have enough := Nat.le_add_right (steps * (s.rest.length + 1)) more
    obtain same | ⟨e, failed, limit⟩ := bounded.approximates (steps * (s.rest.length + 1) + more) s
    · exact same.symm.trans (ih enough)
    · exact absurd limit (bounded.settles enough failed)

end Parser

end ComputeShader
