import ComputeShader.Proofs.ClosedBodies
import ComputeShader.Shader.AccessCheck

/-! # Checked bodies

What the check of access qualifiers says about every node, target and statement of a body: what loads from
a resource needs it not to be writeonly, what stores to it needs it not to be readonly, and what an atomic
works on is a single integer that may be both read and written.
-/

namespace ComputeShader

/-! ## Permissions -/

namespace Shader

variable {s : Shader} {binding : Binding}

/-- The access that a resource is declared with. -/
def access? (s : Shader) : Resource → Option Access
  | .buffer binding => (s.buffer? binding).map BufferDecl.access
  | .image binding => (s.image? binding).map ImageDecl.access

/-- Whether a resource is not declared writeonly. -/
def MayRead (s : Shader) (r : Resource) : Prop := s.access? r ≠ some .writeOnly

/-- Whether a resource is not declared readonly. -/
def MayWrite (s : Shader) (r : Resource) : Prop := s.access? r ≠ some .readOnly

theorem mayRead_of_canReadBuffer (passed : s.canReadBuffer binding) : s.MayRead (.buffer binding) := by
  unfold canReadBuffer at passed
  intro writeonly
  obtain ⟨b, found, only⟩ := Option.map_eq_some_iff.1 writeonly
  rw [found, Option.any_some, only] at passed
  cases passed

theorem mayRead_of_canReadImage (passed : s.canReadImage binding) : s.MayRead (.image binding) := by
  unfold canReadImage at passed
  intro writeonly
  obtain ⟨i, found, only⟩ := Option.map_eq_some_iff.1 writeonly
  rw [found, Option.any_some, only] at passed
  cases passed

theorem mayWrite_of_canWriteImage (passed : s.canWriteImage binding) : s.MayWrite (.image binding) := by
  unfold canWriteImage at passed
  intro readonly
  obtain ⟨i, found, only⟩ := Option.map_eq_some_iff.1 readonly
  rw [found, Option.any_some, only] at passed
  cases passed

/-- What is both readable and writable may be read and written. -/
theorem may_of_readWrite {r : Resource} (both : s.access? r = some .readWrite) :
    s.MayRead r ∧ s.MayWrite r := by
  constructor
  · intro writeonly
    rw [both] at writeonly
    cases writeonly
  · intro readonly
    rw [both] at readonly
    cases readonly

end Shader

/-! ## Nodes, targets and statements -/

/-- Whether a node may do what it does: load, or work as an atomic on a single integer. -/
def Expr.CheckedIn (s : Shader) : Expr → Prop
  | bufferElement _ binding _ => s.MayRead (.buffer binding)
  | atomic _ _ binding _ _ =>
    s.DeclaresIntegers binding ∧ s.MayRead (.buffer binding) ∧ s.MayWrite (.buffer binding)
  | imageLoad _ binding _ => s.MayRead (.image binding)
  | imageAtomicAdd _ binding _ _ =>
    s.DeclaresIntegerImage binding ∧ s.MayRead (.image binding) ∧ s.MayWrite (.image binding)
  | _ => True

/-- Whether a target may be stored to, and loaded from if its old value is needed. -/
def Target.CheckedIn (s : Shader) (isCompound : Bool) (t : Target) : Prop :=
  match t.place with
  | .localVar _ => True
  | .bufferElement binding _ =>
    s.MayWrite (.buffer binding) ∧ (isCompound → s.MayRead (.buffer binding))

/-- Whether a statement may store to its image. -/
def Stmt.CheckedIn (s : Shader) : Stmt → Prop
  | imageStore _ binding _ _ => s.MayWrite (.image binding)
  | _ => True

/-- Whether nodes, targets and statements may do what they do. -/
structure Shader.ChecksAll (s : Shader) (nodes : List Expr) (targets : List (Target × Bool))
    (parts : List Stmt) : Prop where
  nodes : ∀ e ∈ nodes, e.CheckedIn s
  targets : ∀ x ∈ targets, x.1.CheckedIn s x.2
  parts : ∀ stmt ∈ parts, stmt.CheckedIn s

/-- Whether the body uses every resource as it is declared. -/
def Shader.Checked (s : Shader) : Prop :=
  s.ChecksAll (Stmt.nodesOf s.body) (Stmt.targetsOf s.body) (Stmt.partsOf s.body)

/-! ## What the check passes -/

theorem ok_seq_iff {ε : Type} {x y : Except ε Unit} :
    (do x; y) = .ok () ↔ x = .ok () ∧ y = .ok () := by
  cases x with
  | ok a => exact ⟨fun ran => ⟨rfl, ran⟩, And.right⟩
  | error e => exact ⟨fun ran => (nomatch ran), fun ran => (nomatch ran.1)⟩

theorem ok_ite_iff {ε : Type} {c : Prop} [Decidable c] {x : Except ε Unit} {e : ε} :
    (if c then x else .error e) = .ok () ↔ c ∧ x = .ok () := by
  by_cases holds : c
  · rw [if_pos holds, and_iff_right holds]
  · rw [if_neg holds]
    exact ⟨fun ran => (nomatch ran), fun ran => (holds ran.1).elim⟩

namespace Shader

variable {s : Shader} {nodes nodes' : List Expr} {targets targets' : List (Target × Bool)}
  {parts parts' : List Stmt} {stmt : Stmt}

theorem checkAtomic_ok {pos : Position} {binding : Binding}
    (passed : s.checkAtomic pos binding = .ok ()) :
    s.DeclaresIntegers binding ∧ s.MayRead (.buffer binding) ∧ s.MayWrite (.buffer binding) := by
  unfold checkAtomic at passed
  split at passed
  · cases passed
  · next b found =>
    split at passed
    · cases passed
    · next access =>
      have both : s.access? (.buffer binding) = some .readWrite := by
        rw [access?, found, Option.map_some, Decidable.not_not.1 access]
      refine ⟨⟨b, found, ?_⟩, may_of_readWrite both⟩
      split at passed
      · next int => exact .inl int
      · next uint => exact .inr uint
      · cases passed

theorem checkImageAtomic_ok {pos : Position} {binding : Binding}
    (passed : s.checkImageAtomic pos binding = .ok ()) :
    s.DeclaresIntegerImage binding ∧ s.MayRead (.image binding) ∧ s.MayWrite (.image binding) := by
  unfold checkImageAtomic at passed
  split at passed
  · cases passed
  · next i found =>
    obtain ⟨⟨atomics, access⟩, -⟩ := ok_ite_iff.1 passed
    have both : s.access? (.image binding) = some .readWrite := by
      rw [access?, found, Option.map_some, access]
    have integers : i.format.supportsAtomics → i.format = .r32i ∨ i.format = .r32ui := by
      cases i.format <;> decide
    exact ⟨⟨i, found, integers atomics⟩, may_of_readWrite both⟩

mutual

/-- The check of an expression passes every node of it. -/
theorem checked_expr (s : Shader) : ∀ e : Expr, s.checkExpr e = .ok () →
    ∀ node ∈ e.nodes, node.CheckedIn s
  | .literal .., _ | .localVar .., _ | .builtin .., _ | .uniform .., _ | .bufferLength .., _
  | .imageSize .., _ => List.forall_mem_singleton.2 trivial
  | .uniformElement _ _ index, passed =>
    List.forall_mem_cons.2 ⟨trivial, checked_expr s index passed⟩
  | .bufferElement _ _ index, passed => by
    obtain ⟨readable, rest⟩ := ok_ite_iff.1 passed
    exact List.forall_mem_cons.2 ⟨mayRead_of_canReadBuffer readable, checked_expr s index rest⟩
  | .subscript _ base index, passed => by
    obtain ⟨first, second⟩ := ok_seq_iff.1 passed
    exact List.forall_mem_cons.2 ⟨trivial, List.forall_mem_append.2
      ⟨checked_expr s base first, checked_expr s index second⟩⟩
  | .swizzle _ base _, passed => List.forall_mem_cons.2 ⟨trivial, checked_expr s base passed⟩
  | .construct _ _ args, passed => List.forall_mem_cons.2 ⟨trivial, checked_exprs s args passed⟩
  | .unary _ _ operand, passed => List.forall_mem_cons.2 ⟨trivial, checked_expr s operand passed⟩
  | .binary _ _ left right, passed => by
    obtain ⟨first, second⟩ := ok_seq_iff.1 passed
    exact List.forall_mem_cons.2 ⟨trivial, List.forall_mem_append.2
      ⟨checked_expr s left first, checked_expr s right second⟩⟩
  | .logical _ _ left right, passed => by
    obtain ⟨first, second⟩ := ok_seq_iff.1 passed
    exact List.forall_mem_cons.2 ⟨trivial, List.forall_mem_append.2
      ⟨checked_expr s left first, checked_expr s right second⟩⟩
  | .ternary _ condition accepted rejected, passed => by
    obtain ⟨first, others⟩ := ok_seq_iff.1 passed
    obtain ⟨second, third⟩ := ok_seq_iff.1 others
    exact List.forall_mem_cons.2 ⟨trivial, List.forall_mem_append.2
      ⟨checked_expr s condition first, List.forall_mem_append.2
        ⟨checked_expr s accepted second, checked_expr s rejected third⟩⟩⟩
  | .atomic _ _ _ index args, passed => by
    obtain ⟨memory, others⟩ := ok_seq_iff.1 passed
    obtain ⟨first, second⟩ := ok_seq_iff.1 others
    exact List.forall_mem_cons.2 ⟨checkAtomic_ok memory, List.forall_mem_append.2
      ⟨checked_expr s index first, checked_exprs s args second⟩⟩
  | .imageLoad _ _ coord, passed => by
    obtain ⟨readable, rest⟩ := ok_ite_iff.1 passed
    exact List.forall_mem_cons.2 ⟨mayRead_of_canReadImage readable, checked_expr s coord rest⟩
  | .imageAtomicAdd _ _ coord value, passed => by
    obtain ⟨memory, others⟩ := ok_seq_iff.1 passed
    obtain ⟨first, second⟩ := ok_seq_iff.1 others
    exact List.forall_mem_cons.2 ⟨checkImageAtomic_ok memory, List.forall_mem_append.2
      ⟨checked_expr s coord first, checked_expr s value second⟩⟩
  | .texture _ _ coord, passed => List.forall_mem_cons.2 ⟨trivial, checked_expr s coord passed⟩
  | .textureBiased _ _ coord bias, passed => by
    obtain ⟨first, second⟩ := ok_seq_iff.1 passed
    exact List.forall_mem_cons.2 ⟨trivial, List.forall_mem_append.2
      ⟨checked_expr s coord first, checked_expr s bias second⟩⟩
  | .math _ _ args, passed => List.forall_mem_cons.2 ⟨trivial, checked_exprs s args passed⟩

theorem checked_exprs (s : Shader) : ∀ es : List Expr, s.checkExprs es = .ok () →
    ∀ node ∈ Expr.nodesOf es, node.CheckedIn s
  | [], _ => List.forall_mem_nil _
  | e :: rest, passed => by
    obtain ⟨first, later⟩ := ok_seq_iff.1 passed
    exact List.forall_mem_append.2 ⟨checked_expr s e first, checked_exprs s rest later⟩

end

theorem checked_path {path : List Projection} (passed : s.checkPath path = .ok ()) :
    ∀ node ∈ path.flatMap Projection.nodes, node.CheckedIn s := by
  induction path with
  | nil => exact List.forall_mem_nil _
  | cons step rest ih =>
    rw [List.flatMap_cons]
    cases step with
    | subscript index =>
      obtain ⟨first, later⟩ := ok_seq_iff.1 passed
      exact List.forall_mem_append.2 ⟨checked_expr s index first, ih later⟩
    | swizzle selection => exact ih passed

/-- The check of a target passes its nodes and the target itself. -/
theorem checked_target {isCompound : Bool} {t : Target} (passed : s.checkTarget isCompound t = .ok ()) :
    (∀ node ∈ t.nodes, node.CheckedIn s) ∧ t.CheckedIn s isCompound := by
  obtain ⟨place, path⟩ := t
  obtain ⟨along, held⟩ := ok_seq_iff.1 passed
  cases place with
  | localVar slot => exact ⟨checked_path along, trivial⟩
  | bufferElement binding index =>
    have access : s.access? (.buffer binding) = (s.buffer? binding).map BufferDecl.access := rfl
    dsimp only at held
    split at held
    · cases held
    next writable =>
      split at held
      · cases held
      next readable =>
        refine ⟨List.forall_mem_append.2 ⟨checked_expr s index held, checked_path along⟩, ?_, ?_⟩
        · intro readonly
          rw [← access, readonly] at writable
          exact writable rfl
        · intro compound writeonly
          rw [← access, writeonly] at readable
          exact readable ⟨compound, rfl⟩

theorem checked_targets {ts : List Target} (passed : ts.forM (s.checkTarget false) = .ok ()) :
    (∀ node ∈ ts.flatMap Target.nodes, node.CheckedIn s) ∧ ∀ t ∈ ts, t.CheckedIn s false := by
  induction ts with
  | nil => exact ⟨List.forall_mem_nil _, List.forall_mem_nil _⟩
  | cons t rest ih =>
    obtain ⟨first, later⟩ := ok_seq_iff.1 passed
    obtain ⟨nodes, place⟩ := checked_target first
    rw [List.flatMap_cons]
    exact ⟨List.forall_mem_append.2 ⟨nodes, (ih later).1⟩, List.forall_mem_cons.2 ⟨place, (ih later).2⟩⟩

theorem ChecksAll.append (first : s.ChecksAll nodes targets parts)
    (second : s.ChecksAll nodes' targets' parts') :
    s.ChecksAll (nodes ++ nodes') (targets ++ targets') (parts ++ parts') :=
  ⟨List.forall_mem_append.2 ⟨first.nodes, second.nodes⟩,
    List.forall_mem_append.2 ⟨first.targets, second.targets⟩,
    List.forall_mem_append.2 ⟨first.parts, second.parts⟩⟩

/-- A statement without statements in it. -/
theorem checksAll_leaf (nodes' : ∀ e ∈ nodes, e.CheckedIn s)
    (targets' : ∀ x ∈ targets, x.1.CheckedIn s x.2) (part : stmt.CheckedIn s) :
    s.ChecksAll nodes targets [stmt] :=
  ⟨nodes', targets', List.forall_mem_singleton.2 part⟩

/-- A statement with a condition and statements in it. -/
theorem ChecksAll.within (inner : s.ChecksAll nodes targets parts) (own : ∀ e ∈ nodes', e.CheckedIn s)
    (part : stmt.CheckedIn s) : s.ChecksAll (nodes' ++ nodes) targets (stmt :: parts) :=
  ⟨List.forall_mem_append.2 ⟨own, inner.nodes⟩, inner.targets,
    List.forall_mem_cons.2 ⟨part, inner.parts⟩⟩

mutual

theorem checked_stmt (s : Shader) : ∀ stmt : Stmt, s.checkStmt stmt = .ok () →
    s.ChecksAll stmt.nodes stmt.targets stmt.parts
  | .declare _ _ none, _ => checksAll_leaf (List.forall_mem_nil _) (List.forall_mem_nil _) trivial
  | .declare _ _ (some init), passed =>
    checksAll_leaf (checked_expr s init passed) (List.forall_mem_nil _) trivial
  | .assign _ targets value, passed => by
    obtain ⟨places, first⟩ := ok_seq_iff.1 passed
    obtain ⟨nodes, held⟩ := checked_targets places
    refine checksAll_leaf (List.forall_mem_append.2 ⟨checked_expr s value first, nodes⟩) ?_ trivial
    intro x member
    obtain ⟨t, listed, rfl⟩ := List.mem_map.1 member
    exact held t listed
  | .compound _ target _ value, passed => by
    obtain ⟨place, first⟩ := ok_seq_iff.1 passed
    obtain ⟨nodes, held⟩ := checked_target place
    exact checksAll_leaf (List.forall_mem_append.2 ⟨checked_expr s value first, nodes⟩)
      (List.forall_mem_singleton.2 held) trivial
  | .imageStore _ _ coord value, passed => by
    obtain ⟨writable, rest⟩ := ok_ite_iff.1 passed
    obtain ⟨first, second⟩ := ok_seq_iff.1 rest
    exact checksAll_leaf
      (List.forall_mem_append.2 ⟨checked_expr s coord first, checked_expr s value second⟩)
      (List.forall_mem_nil _) (mayWrite_of_canWriteImage writable)
  | .eval _ e, passed => checksAll_leaf (checked_expr s e passed) (List.forall_mem_nil _) trivial
  | .branch _ condition accepted, passed => by
    obtain ⟨first, second⟩ := ok_seq_iff.1 passed
    exact (checked_stmt s accepted second).within (checked_expr s condition first) trivial
  | .branchElse _ condition accepted rejected, passed => by
    obtain ⟨first, others⟩ := ok_seq_iff.1 passed
    obtain ⟨second, third⟩ := ok_seq_iff.1 others
    exact ((checked_stmt s accepted second).append (checked_stmt s rejected third)).within
      (checked_expr s condition first) trivial
  | .block _ body, passed => (checked_stmts s body passed).within (List.forall_mem_nil _) trivial
  | .leave _, _ => checksAll_leaf (List.forall_mem_nil _) (List.forall_mem_nil _) trivial

/-- The check of statements passes all that is in them. -/
theorem checked_stmts (s : Shader) : ∀ stmts : List Stmt, s.checkStmts stmts = .ok () →
    s.ChecksAll (Stmt.nodesOf stmts) (Stmt.targetsOf stmts) (Stmt.partsOf stmts)
  | [], _ => ⟨List.forall_mem_nil _, List.forall_mem_nil _, List.forall_mem_nil _⟩
  | stmt :: rest, passed => by
    obtain ⟨first, later⟩ := ok_seq_iff.1 passed
    exact (checked_stmt s stmt first).append (checked_stmts s rest later)

end

end Shader

end ComputeShader
