import ComputeShader.Proofs.HeaderProgress
import ComputeShader.Proofs.StatementProgress
import ComputeShader.Shader.Load

/-! # What loading answers

The parser has fuel enough for every text, and the access check goes through the body that is read node by
node. Loading a source therefore gives a shader or tells what is wrong with the source, never that it ran
out of fuel.
-/

namespace ComputeShader

namespace Parser

variable {ahead room : Nat}

/-! ## Whole shaders -/

theorem advances_mainFunction : Advances ahead 1 room mainFunction := by
  refine (advances_expectKeyword _).bind fun _ => (advances_expectIdentifier _).any.bind fun name => ?_
  dsimp only
  split
  · exact advances_fail_bind _ (by simp)
  refine (advances_expectSymbol _).any.bind fun _ => (advances_consume _).bind fun _ => ?_
  refine (advances_expectSymbol _).any.bind fun _ => (advances_expectSymbol _).any.bind fun _ => ?_
  exact advances_blockBody

theorem advances_shader (name : String) : Advances ahead 1 room (shader name) := by
  have kept (buffers : List BufferDecl) (s : ParserState) : s.Past 0 { s with buffers } := .refl s
  refine advances_versionDirective.bind fun version => advances_get fun start _ => ?_
  refine (advances_headerFrom _ (Nat.min_le_right ..) _).bind fun header => ?_
  split
  · exact advances_unmet _
  refine (looks_assigned _ _ _ _).then fun buffers => (looks_assigned _ _ _ _).then fun images => ?_
  refine (looks_assigned _ _ _ _).then fun samplers => (looks_assigned _ _ _ _).then fun uniforms => ?_
  refine Advances.of_ahead ?_ (Nat.zero_le _)
  refine (advances_forM (fun b => advances_declareGlobal _ _ _) _).bind fun _ => ?_
  refine (advances_forM (fun i => advances_declareGlobal _ _ _) _).bind fun _ => ?_
  refine (advances_forM (fun s => advances_declareGlobal _ _ _) _).bind fun _ => ?_
  refine (advances_forM (fun u => advances_declareGlobal _ _ _) _).bind fun _ => ?_
  refine (advances_modify (kept _)).bind fun _ => ?_
  refine advances_mainFunction.any.bind fun body => sees_peek?.then fun kind => ?_
  dsimp only
  split
  · exact advances_unmet_bind _
  · exact advances_get fun final _ => advances_pure _

end Parser

/-! ## The access check -/

/-- Whether an answer, if it is an error, is not about fuel. -/
def Settled {α : Type} (x : Except SourceError α) : Prop := ∀ e, x = .error e → e.fault ≠ .nestingLimit

section Settled

variable {α β : Type} {x : Except SourceError α} {k : α → Except SourceError β}

theorem settled_ok (a : α) : Settled (.ok a : Except SourceError α) := by
  rintro e ⟨⟩

theorem settled_error {e : SourceError} (other : e.fault ≠ .nestingLimit) :
    Settled (.error e : Except SourceError α) := by
  rintro _ ⟨⟩
  exact other

theorem Settled.bind (first : Settled x) (next : ∀ a, Settled (k a)) : Settled (x >>= k) := by
  cases x with
  | error e => exact fun e' failed => first e' (by cases failed; rfl)
  | ok a => exact next a

end Settled

namespace Shader

variable {s : Shader}

theorem settled_checkAtomic (pos : Position) (binding : Binding) : Settled (s.checkAtomic pos binding) := by
  unfold checkAtomic
  split
  · exact settled_error (by simp)
  split
  · exact settled_error (by simp)
  split
  · exact settled_ok _
  · exact settled_ok _
  · exact settled_error (by simp)

theorem settled_checkImageAtomic (pos : Position) (binding : Binding) :
    Settled (s.checkImageAtomic pos binding) := by
  unfold checkImageAtomic
  split
  · exact settled_error (by simp)
  split
  · exact settled_ok _
  · exact settled_error (by simp)

theorem settled_ite {c : Prop} [Decidable c] {x : Except SourceError Unit} {e : SourceError}
    (passes : Settled x) (other : e.fault ≠ .nestingLimit) : Settled (if c then x else .error e) := by
  split
  · exact passes
  · exact settled_error other

mutual

theorem settled_checkExpr (s : Shader) : ∀ e : Expr, Settled (s.checkExpr e)
  | .literal .. | .localVar .. | .builtin .. | .uniform .. | .bufferLength .. | .imageSize .. => settled_ok ()
  | .uniformElement _ _ index => settled_checkExpr s index
  | .bufferElement _ _ index => settled_ite (settled_checkExpr s index) (by simp)
  | .subscript _ base index => (settled_checkExpr s base).bind fun _ => settled_checkExpr s index
  | .swizzle _ base _ => settled_checkExpr s base
  | .construct _ _ args => settled_checkExprs s args
  | .unary _ _ operand => settled_checkExpr s operand
  | .binary _ _ left right => (settled_checkExpr s left).bind fun _ => settled_checkExpr s right
  | .logical _ _ left right => (settled_checkExpr s left).bind fun _ => settled_checkExpr s right
  | .ternary _ condition accepted rejected => (settled_checkExpr s condition).bind fun _ =>
    (settled_checkExpr s accepted).bind fun _ => settled_checkExpr s rejected
  | .atomic pos _ binding index args => (settled_checkAtomic pos binding).bind fun _ =>
    (settled_checkExpr s index).bind fun _ => settled_checkExprs s args
  | .imageLoad _ _ coord => settled_ite (settled_checkExpr s coord) (by simp)
  | .imageAtomicAdd pos binding coord value => (settled_checkImageAtomic pos binding).bind fun _ =>
    (settled_checkExpr s coord).bind fun _ => settled_checkExpr s value
  | .texture _ _ coord => settled_checkExpr s coord
  | .textureBiased _ _ coord bias => (settled_checkExpr s coord).bind fun _ => settled_checkExpr s bias
  | .math _ _ args => settled_checkExprs s args

theorem settled_checkExprs (s : Shader) : ∀ es : List Expr, Settled (s.checkExprs es)
  | [] => settled_ok ()
  | e :: rest => (settled_checkExpr s e).bind fun _ => settled_checkExprs s rest

end

theorem settled_checkPath (path : List Projection) : Settled (s.checkPath path) := by
  induction path with
  | nil => exact settled_ok ()
  | cons step rest ih =>
    cases step with
    | subscript index => exact (settled_checkExpr s index).bind fun _ => ih
    | swizzle selection => exact ih

theorem settled_checkTarget (isCompound : Bool) (t : Target) : Settled (s.checkTarget isCompound t) := by
  refine (settled_checkPath t.path).bind fun _ => ?_
  split
  · exact settled_ok ()
  · next binding index _ =>
    dsimp only
    split
    · exact settled_error (by simp)
    split
    · exact settled_error (by simp)
    · exact settled_checkExpr s index

theorem settled_checkTargets (targets : List Target) : Settled (targets.forM (s.checkTarget false)) := by
  induction targets with
  | nil => exact settled_ok ()
  | cons t rest ih => exact (settled_checkTarget false t).bind fun _ => ih

mutual

theorem settled_checkStmt (s : Shader) : ∀ stmt : Stmt, Settled (s.checkStmt stmt)
  | .declare _ _ none | .leave _ => settled_ok ()
  | .declare _ _ (some init) => settled_checkExpr s init
  | .assign _ targets value => (settled_checkTargets targets).bind fun _ => settled_checkExpr s value
  | .compound _ target _ value => (settled_checkTarget true target).bind fun _ => settled_checkExpr s value
  | .imageStore _ _ coord value =>
    settled_ite ((settled_checkExpr s coord).bind fun _ => settled_checkExpr s value) (by simp)
  | .eval _ e => settled_checkExpr s e
  | .branch _ condition accepted => (settled_checkExpr s condition).bind fun _ => settled_checkStmt s accepted
  | .branchElse _ condition accepted rejected => (settled_checkExpr s condition).bind fun _ =>
    (settled_checkStmt s accepted).bind fun _ => settled_checkStmt s rejected
  | .block _ body => settled_checkStmts s body

theorem settled_checkStmts (s : Shader) : ∀ stmts : List Stmt, Settled (s.checkStmts stmts)
  | [] => settled_ok ()
  | stmt :: rest => (settled_checkStmt s stmt).bind fun _ => settled_checkStmts s rest

end

/-! ## Loading -/

theorem settled_parse (name source : String) : Settled (parse name source) := by
  unfold parse
  split
  · exact settled_error (by simp)
  · next tokens _ =>
    intro e failed
    cases ran : Parser.shader name (ParserState.initial tokens) with
    | ok r =>
      rw [StateT.run', ran] at failed
      cases failed
    | error e' =>
      rw [StateT.run', ran] at failed
      cases failed
      exact (Parser.advances_shader name).settles _ e (Nat.zero_le _) (Nat.lt_succ_self _) ran

theorem settled_load (name source : String) : Settled (load name source) :=
  (settled_parse name source).bind fun s => (settled_checkStmts s s.body).bind fun _ => settled_ok s

end Shader

end ComputeShader
