import ComputeShader.Proofs.ScopedExpressions
import ComputeShader.Shader.Parser.Statement

/-! # Statements in scope

The statements that are read refer to what is declared. Every declaration of a local variable has a slot
of its own, which exists from then on.
-/

namespace ComputeShader

variable {d d' : Shader}

/-! ## Targets -/

namespace Target

theorem ClosedIn.mono {t : Target} (closed : t.ClosedIn d) (grown : d.GrowsTo d') : t.ClosedIn d' := by
  obtain ⟨slot | ⟨binding, index⟩, path⟩ := t
  · exact grown.localSlot closed
  · exact grown.buffer closed

/-- Whether the place and every node of a target are in scope. -/
structure Scoped (d : Shader) (t : Target) : Prop where
  place : t.ClosedIn d
  nodes : ∀ node ∈ t.nodes, node.NamedIn d

end Target

namespace Parser

/-- A target refers to nothing but what its expression and its path refer to. -/
theorem scoped_targetFrom {e : Expr} {path : List Projection} {t : Target} (inside : e.Scoped d)
    (along : ∀ node ∈ path.flatMap Projection.nodes, node.NamedIn d)
    (found : targetFrom path e = .ok t) : t.Scoped d := by
  fun_induction targetFrom path e with
  | case1 path pos base index ih =>
    have operands := List.forall_mem_append.1 (List.forall_mem_cons.1 inside).2
    refine ih operands.1 ?_ found
    rw [List.flatMap_cons]
    exact List.forall_mem_append.2 ⟨operands.2, along⟩
  | case2 path pos base selection distinct ih =>
    exact ih (List.forall_mem_cons.1 inside).2 along found
  | case4 path pos slot =>
    cases found
    exact ⟨(List.forall_mem_cons.1 inside).1, along⟩
  | case5 path pos binding index =>
    cases found
    obtain ⟨declared, operand⟩ := List.forall_mem_cons.1 inside
    exact ⟨declared, List.forall_mem_append.2 ⟨operand, along⟩⟩
  | _ => cases found

theorem reads_asTarget {e : Expr} (inside : e.Scoped d) : Reads d (Target.Scoped d) (asTarget e) := by
  unfold asTarget
  split
  · next t found => exact reads_pure (scoped_targetFrom inside (List.forall_mem_nil _) found)
  · exact reads_fail _ _

/-- The targets and the value of an assignment chain. -/
theorem reads_assignmentTail (fuel : Nat) :
    Reads d (fun r => (∀ t ∈ r.1, t.Scoped d) ∧ r.2.Scoped d) (assignmentTail fuel) := by
  induction fuel with
  | zero => exact reads_limit
  | succ fuel ih =>
    refine reads_expression.bind fun e inside => reads_peek?.bind fun kind _ => ?_
    split
    · refine (reads_asTarget inside).bind fun t here => reads_skip.bind fun _ _ => ?_
      refine ih.bind fun r later => reads_pure ?_
      exact ⟨List.forall_mem_cons.2 ⟨here, later.1⟩, later.2⟩
    · exact reads_pure ⟨List.forall_mem_nil _, inside⟩

end Parser

/-! ## Statements -/

namespace Stmt

theorem ClosedIn.mono {stmt : Stmt} (closed : stmt.ClosedIn d) (grown : d.GrowsTo d') :
    stmt.ClosedIn d' := by
  cases stmt
  case declare line slot init => exact grown.localSlot closed
  case imageStore line binding coord value => exact grown.image closed
  all_goals trivial

/-- Whether every node, every target and every statement in a statement is in scope. -/
structure Scoped (d : Shader) (stmt : Stmt) : Prop where
  nodes : ∀ e ∈ stmt.nodes, e.NamedIn d
  targets : ∀ x ∈ stmt.targets, x.1.ClosedIn d
  parts : ∀ part ∈ stmt.parts, part.ClosedIn d

theorem Scoped.mono {stmt : Stmt} (inside : stmt.Scoped d) (grown : d.GrowsTo d') :
    stmt.Scoped d' where
  nodes e member := (inside.nodes e member).mono grown
  targets x member := (inside.targets x member).mono grown
  parts part member := (inside.parts part member).mono grown

/-- The same of statements in turn. -/
structure ScopedAll (d : Shader) (stmts : List Stmt) : Prop where
  nodes : ∀ e ∈ nodesOf stmts, e.NamedIn d
  targets : ∀ x ∈ targetsOf stmts, x.1.ClosedIn d
  parts : ∀ part ∈ partsOf stmts, part.ClosedIn d

theorem ScopedAll.mono {stmts : List Stmt} (all : ScopedAll d stmts) (grown : d.GrowsTo d') :
    ScopedAll d' stmts where
  nodes e member := (all.nodes e member).mono grown
  targets x member := (all.targets x member).mono grown
  parts part member := (all.parts part member).mono grown

theorem scopedAll_nil : ScopedAll d [] :=
  ⟨List.forall_mem_nil _, List.forall_mem_nil _, List.forall_mem_nil _⟩

theorem ScopedAll.cons {stmt : Stmt} {rest : List Stmt} (first : stmt.Scoped d)
    (later : ScopedAll d rest) : ScopedAll d (stmt :: rest) where
  nodes := List.forall_mem_append.2 ⟨first.nodes, later.nodes⟩
  targets := List.forall_mem_append.2 ⟨first.targets, later.targets⟩
  parts := List.forall_mem_append.2 ⟨first.parts, later.parts⟩

theorem ScopedAll.head {stmt : Stmt} {rest : List Stmt} (all : ScopedAll d (stmt :: rest)) :
    stmt.Scoped d where
  nodes := (List.forall_mem_append.1 all.nodes).1
  targets := (List.forall_mem_append.1 all.targets).1
  parts := (List.forall_mem_append.1 all.parts).1

theorem scoped_block (line : Nat) {body : List Stmt} (all : ScopedAll d body) :
    (block line body).Scoped d :=
  ⟨all.nodes, all.targets, List.forall_mem_cons.2 ⟨trivial, all.parts⟩⟩

theorem scoped_declare (line : Nat) {slot : Nat} {init : Option Expr} (declared : d.DeclaresLocal slot)
    (inside : ∀ e ∈ init, e.Scoped d) : (declare line slot init).Scoped d := by
  refine ⟨?_, List.forall_mem_nil _, List.forall_mem_singleton.2 declared⟩
  cases init with
  | none => exact List.forall_mem_nil _
  | some e => exact inside e rfl

theorem scoped_assign (line : Nat) {targets : List Target} {value : Expr}
    (places : ∀ t ∈ targets, t.Scoped d) (inside : value.Scoped d) :
    (assign line targets value).Scoped d := by
  refine ⟨List.forall_mem_append.2 ⟨inside, ?_⟩, ?_, List.forall_mem_singleton.2 trivial⟩
  · intro node member
    obtain ⟨t, chosen, within⟩ := List.mem_flatMap.1 member
    exact (places t chosen).nodes node within
  · intro x member
    obtain ⟨t, chosen, rfl⟩ := List.mem_map.1 member
    exact (places t chosen).place

theorem scoped_compound (line : Nat) (op : BinaryOp) {target : Target} {value : Expr}
    (place : target.Scoped d) (inside : value.Scoped d) : (compound line target op value).Scoped d :=
  ⟨List.forall_mem_append.2 ⟨inside, place.nodes⟩, List.forall_mem_singleton.2 place.place,
    List.forall_mem_singleton.2 trivial⟩

theorem scoped_imageStore (line : Nat) {binding : Binding} {coord value : Expr}
    (declared : d.DeclaresImage binding) (inside : coord.Scoped d) (inside' : value.Scoped d) :
    (imageStore line binding coord value).Scoped d :=
  ⟨Expr.scoped_two inside inside', List.forall_mem_nil _,
    List.forall_mem_singleton.2 declared⟩

theorem scoped_eval (line : Nat) {e : Expr} (inside : e.Scoped d) : (eval line e).Scoped d :=
  ⟨inside, List.forall_mem_nil _, List.forall_mem_singleton.2 trivial⟩

theorem scoped_leave (line : Nat) : (leave line).Scoped d :=
  ⟨List.forall_mem_nil _, List.forall_mem_nil _, List.forall_mem_singleton.2 trivial⟩

theorem scoped_branch (line : Nat) {condition : Expr} {accepted : Stmt} (inside : condition.Scoped d)
    (inside' : accepted.Scoped d) : (branch line condition accepted).Scoped d :=
  ⟨List.forall_mem_append.2 ⟨inside, inside'.nodes⟩, inside'.targets,
    List.forall_mem_cons.2 ⟨trivial, inside'.parts⟩⟩

theorem scoped_branchElse (line : Nat) {condition : Expr} {accepted rejected : Stmt}
    (inside : condition.Scoped d) (inside' : accepted.Scoped d) (inside'' : rejected.Scoped d) :
    (branchElse line condition accepted rejected).Scoped d where
  nodes := List.forall_mem_append.2
    ⟨inside, List.forall_mem_append.2 ⟨inside'.nodes, inside''.nodes⟩⟩
  targets := List.forall_mem_append.2 ⟨inside'.targets, inside''.targets⟩
  parts := List.forall_mem_cons.2 ⟨trivial, List.forall_mem_append.2 ⟨inside'.parts, inside''.parts⟩⟩

end Stmt

namespace Parser

/-! ## Simple statements -/

theorem reads_imageStoreStatement (line : Nat) :
    Reads d (Stmt.Scoped d) (imageStoreStatement line) := by
  refine reads_next?.bind fun name _ => ?_
  split
  · exact reads_unmet _
  refine reads_callArguments.bind fun args inside => ?_
  split
  · simp only [List.forall_mem_cons] at inside
    obtain ⟨image, coord, value, -⟩ := inside
    refine (reads_asValue value).bind fun v here => (reads_asValue coord).bind fun place here' => ?_
    refine (reads_imageArgument image).bind fun binding declared => ?_
    exact (reads_expectSymbol _).bind fun _ _ =>
      reads_pure (Stmt.scoped_imageStore line declared here' here)
  · exact reads_fail _ _

theorem reads_expressionStatement (line : Nat) :
    Reads d (Stmt.Scoped d) (expressionStatement line) := by
  have ended {stmt : Stmt} (holds : stmt.Scoped d) :
      Reads d (Stmt.Scoped d) (do expectSymbol .semicolon; return stmt) :=
    (reads_expectSymbol _).bind fun _ _ => reads_pure holds
  refine reads_expression.bind fun first inside => reads_peek?.bind fun kind _ => ?_
  dsimp only
  split
  · refine (reads_asTarget inside).bind fun t here => reads_skip.bind fun _ _ => reads_get fun s _ => ?_
    refine (reads_assignmentTail _).bind fun r later => ?_
    exact ended (Stmt.scoped_assign line (List.forall_mem_cons.2 ⟨here, later.1⟩) later.2)
  · split
    · refine reads_skip.bind fun _ _ => (reads_asTarget inside).bind fun t here => ?_
      refine reads_expression.bind fun value inside' => ?_
      exact ended (Stmt.scoped_compound line _ here inside')
    · exact ended (Stmt.scoped_eval line inside)

theorem reads_atImageStore : Reads d (fun _ => True) atImageStore := by
  refine reads_get fun s _ => ?_
  split
  · exact reads_pure trivial
  · exact reads_pure trivial

theorem reads_atLocalDeclaration : Reads d (fun _ => True) atLocalDeclaration := by
  refine reads_get fun s _ => ?_
  split
  · exact reads_pure trivial
  · exact reads_pure trivial

/-! ## Local declarations -/

/-- A declared local variable exists, and its name stands for it. -/
theorem grows_declareLocal (name : Token) (ty : ValueType) :
    Grows d Shader.DeclaresLocal (declareLocal name ty) := by
  refine grows_get fun s within => ?_
  split
  · exact grows_fail _ _
  · -- The variable gets the slot behind all others.
    let new : LocalDecl := ⟨name.lexeme, ty⟩
    let d' := { d with locals := d.locals ++ [new] }
    have longer : d'.locals.length = d.locals.length + 1 := List.length_append
    have grown : d.GrowsTo d' := ⟨rfl, rfl, rfl, rfl, longer ▸ Nat.le_succ _⟩
    have declared : (NameEntry.localVar s.locals.length).DeclaredIn d' := by
      rw [NameEntry.DeclaredIn, Shader.DeclaresLocal, within.locals, longer]
      exact Nat.lt_succ_self _
    have within' : ParserState.Within { s with locals := s.locals ++ [new] } d' :=
      ⟨congrArg (· ++ [new]) within.locals, fun other entry held =>
        grown.entry (within.names other entry held)⟩
    refine (grows_set grown (within'.push declared)).bind fun d'' _ _ same => ?_
    rw [same]
    exact grows_pure declared

/-- The declarations of one type. An initial value is read before its name is in scope. -/
theorem grows_declarators (ty : ValueType) (fuel : Nat) :
    Grows d Stmt.ScopedAll (declarators ty fuel) := by
  induction fuel generalizing d with
  | zero => exact reads_limit.keeps
  | succ fuel ih =>
    refine (reads_expectIdentifier _).grows fun name _ => reads_peek?.grows fun kind _ => ?_
    dsimp only
    split
    · exact grows_unmet_bind _
    refine (reads_consumeSymbol _).grows fun assigned _ => ?_
    have declaring (init : Option Expr) (inside : ∀ e ∈ init, e.Scoped d) :
        Grows d Stmt.ScopedAll (do
          let slot ← declareLocal name ty
          let stmt := Stmt.declare name.pos.line slot init
          if ← consumeSymbol .comma then return stmt :: (← declarators ty fuel) else return [stmt]) := by
      refine (grows_declareLocal name ty).bind fun d' slot grown declared => ?_
      have first : (Stmt.declare name.pos.line slot init).Scoped d' :=
        Stmt.scoped_declare _ declared fun e given => (inside e given).mono grown
      refine (reads_consumeSymbol _).grows fun further _ => ?_
      split
      · exact ih.bind fun d'' rest grown' all => grows_pure (.cons (first.mono grown') all)
      · exact grows_pure (.cons first Stmt.scopedAll_nil)
    split
    · refine (reads_map reads_expression fun e inside => ?_).grows declaring
      rintro _ ⟨⟩
      exact inside
    · exact declaring none (by rintro _ ⟨⟩)

/-- A declaration, of one name or of several in a block. -/
theorem grows_localDeclaration (line : Nat) : Grows d Stmt.Scoped (localDeclaration line) := by
  refine (reads_skipWhile _).grows fun _ _ => (reads_expectIdentifier _).grows fun tyName _ => ?_
  split
  · exact grows_fail _ _
  · next ty _ =>
    refine grows_get fun s _ => (grows_declarators ty _).bind fun d' stmts _ all => ?_
    refine (reads_expectSymbol _).grows fun _ _ => ?_
    split
    · obtain ⟨nodes, -, parts⟩ := all.head
      refine grows_pure (Stmt.scoped_declare line (parts _ (List.mem_singleton.2 rfl)) ?_)
      rintro e ⟨⟩
      exact nodes
    · exact grows_pure (Stmt.scoped_block line all)

/-! ## Recursion -/

mutual

/-- A statement that is read is in scope with the local variables declared so far. -/
theorem grows_parseStatement : ∀ (fuel : Nat) (d : Shader), Grows d Stmt.Scoped (parseStatement fuel)
  | 0, _ => reads_limit.keeps
  | fuel + 1, d => by
    refine reads_here.grows fun pos _ => reads_peek?.grows fun kind _ => ?_
    split
    · refine reads_skip.grows fun _ _ => (grows_parseBlock fuel d).bind fun d' body _ all => ?_
      exact grows_pure (Stmt.scoped_block _ all)
    · exact reads_skip.grows fun _ _ => grows_pure (Stmt.scoped_block _ Stmt.scopedAll_nil)
    · refine reads_skip.grows fun _ _ => (reads_expectSymbol _).grows fun _ _ => ?_
      refine reads_expression.grows fun condition inside => (reads_expectSymbol _).grows fun _ _ => ?_
      refine (grows_parseStatement fuel d).bind fun d' accepted grown inside' => ?_
      refine (reads_consume _).grows fun otherwise _ => ?_
      split
      · refine (grows_parseStatement fuel _).bind fun d'' rejected grown' inside'' => grows_pure ?_
        exact Stmt.scoped_branchElse _ (inside.mono (grown.trans grown')) (inside'.mono grown') inside''
      · exact grows_pure (Stmt.scoped_branch _ (inside.mono grown) inside')
    · refine reads_skip.grows fun _ _ => (reads_consumeSymbol _).grows fun ended _ => ?_
      split
      · exact grows_pure (Stmt.scoped_leave _)
      · exact (reads_unmet _).keeps
    · refine reads_atLocalDeclaration.grows fun declares _ => ?_
      split
      · exact grows_localDeclaration _
      · refine reads_atImageStore.grows fun stores _ => ?_
        split
        · exact (reads_imageStoreStatement _).keeps
        · exact (reads_expressionStatement _).keeps

theorem grows_parseBlock : ∀ (fuel : Nat) (d : Shader), Grows d Stmt.ScopedAll (parseBlock fuel)
  | 0, _ => reads_limit.keeps
  | fuel + 1, d => by
    refine (reads_consumeSymbol _).grows fun closed _ => ?_
    split
    · exact grows_pure Stmt.scopedAll_nil
    · refine reads_peek?.grows fun kind _ => ?_
      split
      · exact (reads_unmet _).keeps
      · refine (grows_parseStatement fuel d).bind fun d' stmt _ first => ?_
        refine (grows_parseBlock fuel _).bind fun d'' rest grown all => ?_
        exact grows_pure (.cons (first.mono grown) all)

end

/-- The statements of `main` are in scope with all local variables. -/
theorem grows_blockBody : Grows d Stmt.ScopedAll blockBody :=
  grows_get fun _ _ => grows_parseBlock _ d

end Parser

end ComputeShader
