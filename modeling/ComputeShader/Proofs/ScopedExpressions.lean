import ComputeShader.Proofs.ScopedParsing
import ComputeShader.Shader.Parser.Expression

/-! # Expressions in scope

The expressions that are read refer to what is declared and call functions with as many arguments as they
take. Of the memory of atomic functions this says nothing yet.
-/

namespace ComputeShader

/-! ## Expressions -/

namespace Expr

/-- Whether what a node itself refers to is declared and used as what it is, but for the memory of atomic
functions. -/
def NamedIn (d : Shader) : Expr → Prop
  | atomic _ op _ _ args => args.length = op.operandCount
  | imageAtomicAdd .. => True
  | e => e.ClosedIn d

/-- Whether this holds of every node. -/
def Scoped (d : Shader) (e : Expr) : Prop := ∀ node ∈ e.nodes, node.NamedIn d

variable {d : Shader} {e : Expr}

theorem NamedIn.mono {d' : Shader} (named : e.NamedIn d) (grown : d.GrowsTo d') : e.NamedIn d' := by
  cases e
  case localVar pos slot => exact grown.localSlot named
  case uniform pos slot => exact grown.uniform named
  case uniformElement pos slot index => exact grown.uniform named
  case bufferElement pos binding index => exact grown.buffer named
  case bufferLength pos binding => exact grown.buffer named
  case imageLoad pos binding coord => exact grown.image named
  case imageSize pos binding => exact grown.image named
  case texture pos binding coord => exact grown.sampler named
  case textureBiased pos binding coord bias => exact grown.sampler named
  all_goals exact named

theorem Scoped.mono {d' : Shader} (inside : e.Scoped d) (grown : d.GrowsTo d') : e.Scoped d' :=
  fun node member => (inside node member).mono grown

theorem scoped_nodesOf {es : List Expr} (inside : ∀ e ∈ es, e.Scoped d) :
    ∀ node ∈ nodesOf es, node.NamedIn d := by
  induction es with
  | nil => exact fun _ absent => nomatch absent
  | cons e rest ih =>
    obtain ⟨here, later⟩ := List.forall_mem_cons.1 inside
    exact List.forall_mem_append.2 ⟨here, ih later⟩

/-- A node without operands. -/
theorem scoped_leaf (leaf : e.nodes = [e]) (named : e.NamedIn d) : e.Scoped d := by
  intro node member
  rw [leaf, List.mem_singleton] at member
  exact member ▸ named

/-- A node with operands. -/
theorem scoped_node {operands : List Expr} (node : e.nodes = e :: operands) (named : e.NamedIn d)
    (inside : ∀ operand ∈ operands, operand.NamedIn d) : e.Scoped d := by
  intro other member
  rw [node] at member
  exact List.forall_mem_cons.2 ⟨named, inside⟩ other member

theorem scoped_two {first second : Expr} (inside : first.Scoped d) (inside' : second.Scoped d) :
    ∀ node ∈ first.nodes ++ second.nodes, node.NamedIn d :=
  List.forall_mem_append.2 ⟨inside, inside'⟩

end Expr

theorem Connective.scoped_join {d : Shader} (c : Connective) {left right : Expr}
    (inside : left.Scoped d) (inside' : right.Scoped d) : (c.join left right).Scoped d := by
  cases c with
  | logical op => exact Expr.scoped_node rfl trivial (Expr.scoped_two inside inside')
  | binary op => exact Expr.scoped_node rfl trivial (Expr.scoped_two inside inside')

/-- Whether an operand is a value in scope or an entity that is declared. -/
def Operand.Scoped (d : Shader) : Operand → Prop
  | value e => e.Scoped d
  | entity e _ => e.DeclaredIn d

namespace Parser

variable {d : Shader}

/-! ## Operands -/

theorem reads_asValue {operand : Operand} (inside : operand.Scoped d) :
    Reads d (Expr.Scoped d) (asValue operand) := by
  cases operand with
  | value e => exact reads_pure inside
  | entity e pos => exact reads_fail _ _

theorem reads_imageArgument {operand : Operand} (inside : operand.Scoped d) :
    Reads d d.DeclaresImage (imageArgument operand) := by
  unfold imageArgument
  split
  · exact reads_pure inside
  · exact reads_fail _ _

theorem reads_samplerArgument {operand : Operand} (inside : operand.Scoped d) :
    Reads d d.DeclaresSampler (samplerArgument operand) := by
  unfold samplerArgument
  split
  · exact reads_pure inside
  · exact reads_fail _ _

theorem reads_checkArity (pos : Position) (name : String) (expected found : Nat) :
    Reads d (fun _ => found = expected) (checkArity pos name expected found) := by
  unfold checkArity
  split
  · next same => exact reads_pure same
  · exact reads_fail _ _

theorem reads_resolveName (t : Token) : Reads d (Operand.Scoped d) (resolveName t) := by
  unfold resolveName
  split
  · split
    · exact reads_pure (Expr.scoped_leaf rfl trivial)
    · exact reads_fail _ _
  · refine (reads_lookup? _).bind fun found declared => ?_
    split
    · exact reads_pure (Expr.scoped_leaf rfl (declared _ rfl))
    · exact reads_pure (Expr.scoped_leaf rfl (declared _ rfl))
    · next e => exact reads_pure (declared (.entity e) rfl)
    · exact reads_fail _ _

theorem reads_applySubscript {operand : Operand} {index : Expr} (inside : operand.Scoped d)
    (inside' : index.Scoped d) (bracket : Position) :
    Reads d (Operand.Scoped d) (applySubscript operand bracket index) := by
  unfold applySubscript
  split
  · exact reads_pure (Expr.scoped_node rfl trivial (Expr.scoped_two inside inside'))
  · exact reads_pure (Expr.scoped_node rfl inside inside')
  · exact reads_pure (Expr.scoped_node rfl inside inside')
  · exact reads_fail _ _

theorem reads_applyField {operand : Operand} (inside : operand.Scoped d) (field : Token) :
    Reads d (Operand.Scoped d) (applyField operand field) := by
  unfold applyField
  split
  · split
    · exact reads_pure (Expr.scoped_node rfl trivial inside)
    · exact reads_fail _ _
  · refine reads_get fun s _ => ?_
    dsimp only
    exact reads_ite (reads_pure inside) (reads_fail _ _)
  · split
    · refine (reads_expectSymbol _).bind fun _ _ => (reads_expectSymbol _).bind fun _ _ => ?_
      exact reads_pure (Expr.scoped_leaf rfl inside)
    · exact reads_fail _ _

/-! ## Calls -/

theorem reads_values {args : List Operand} (inside : ∀ arg ∈ args, arg.Scoped d) :
    Reads d (fun es => es.length = args.length ∧ ∀ e ∈ es, e.Scoped d) (args.mapM asValue) :=
  reads_mapM fun arg member => reads_asValue (inside arg member)

/-- The call of an atomic function has its operands behind the memory. -/
theorem reads_atomicCall {op : AtomicOp} {operands : List Operand} {memory : Operand} {name : String}
    {pos : Position} (inside : ∀ arg ∈ memory :: operands, arg.Scoped d)
    (count : (memory :: operands).length = 1 + op.operandCount) :
    Reads d (Expr.Scoped d) (do
      match ← asValue memory with
      | .bufferElement _ binding index => return .atomic pos op binding index (← operands.mapM asValue)
      | other => failAt other.pos (.memoryExpected name)) := by
  obtain ⟨held, others⟩ := List.forall_mem_cons.1 inside
  refine (reads_asValue held).bind fun element within => ?_
  split
  · refine (reads_values others).bind fun es ⟨length, each⟩ => reads_pure ?_
    have named : es.length = op.operandCount := by
      rw [List.length_cons] at count
      omega
    have place := (List.forall_mem_cons.1 within).2
    exact Expr.scoped_node rfl named (List.forall_mem_append.2 ⟨place, Expr.scoped_nodesOf each⟩)
  · exact reads_fail _ _

/-- A call has the arguments that its function takes. -/
theorem reads_applyCall (callee : Token) {args : List Operand} (inside : ∀ arg ∈ args, arg.Scoped d) :
    Reads d (Expr.Scoped d) (applyCall callee args) := by
  unfold applyCall
  dsimp only
  split
  · refine (reads_values inside).bind fun es ⟨length, each⟩ => ?_
    split
    · exact reads_fail _ _
    · next some =>
      have named : es ≠ [] := fun none => some (none ▸ rfl)
      exact reads_pure (Expr.scoped_node rfl named (Expr.scoped_nodesOf each))
  · split
    · refine (reads_checkArity _ _ _ _).bind fun _ count => ?_
      split
      · exact reads_fail _ _
      · exact reads_atomicCall inside count
    · split
      · simp only [List.forall_mem_cons] at inside
        obtain ⟨image, coord, -⟩ := inside
        refine (reads_imageArgument image).bind fun binding declared => ?_
        refine (reads_asValue coord).bind fun place here => reads_pure ?_
        exact Expr.scoped_node rfl declared here
      · exact reads_fail _ _
      · simp only [List.forall_mem_cons] at inside
        obtain ⟨image, coord, value, -⟩ := inside
        refine (reads_imageArgument image).bind fun binding _ => ?_
        refine (reads_asValue coord).bind fun place here => ?_
        refine (reads_asValue value).bind fun v here' => reads_pure ?_
        exact Expr.scoped_node rfl trivial (Expr.scoped_two here here')
      · exact reads_fail _ _
      · refine (reads_imageArgument (List.forall_mem_cons.1 inside).1).bind fun binding declared => reads_pure ?_
        exact Expr.scoped_leaf rfl declared
      · exact reads_fail _ _
      · exact reads_fail _ _
      · simp only [List.forall_mem_cons] at inside
        obtain ⟨sampler, coord, -⟩ := inside
        refine (reads_samplerArgument sampler).bind fun binding declared => ?_
        refine (reads_asValue coord).bind fun place here => reads_pure ?_
        exact Expr.scoped_node rfl declared here
      · simp only [List.forall_mem_cons] at inside
        obtain ⟨sampler, coord, bias, -⟩ := inside
        refine (reads_samplerArgument sampler).bind fun binding declared => ?_
        refine (reads_asValue coord).bind fun place here => ?_
        refine (reads_asValue bias).bind fun v here' => reads_pure ?_
        exact Expr.scoped_node rfl declared (Expr.scoped_two here here')
      · exact reads_fail _ _
      · split
        · refine (reads_checkArity _ _ _ _).bind fun _ count => ?_
          refine (reads_values inside).bind fun es ⟨length, each⟩ => reads_pure ?_
          exact Expr.scoped_node rfl (length.trans count) (Expr.scoped_nodesOf each)
        · exact reads_fail _ _

/-! ## Recursion -/

theorem reads_opaqueArgument? : Reads d (fun _ => True) opaqueArgument? := by
  refine reads_get fun s _ => ?_
  split
  · dsimp only
    exact reads_ite (reads_pure trivial) (reads_pure trivial)
  · exact reads_pure trivial

mutual

/-- Every node of an expression that is read is in scope. -/
theorem reads_parseExpr (d : Shader) : ∀ fuel, Reads d (Expr.Scoped d) (parseExpr fuel)
  | 0 => reads_limit
  | fuel + 1 => by
    refine (reads_parseLevel d fuel 0).bind fun condition here => ?_
    refine (reads_consumeSymbol _).bind fun asked _ => ?_
    split
    · refine (reads_parseExpr d fuel).bind fun accepted here' => ?_
      refine (reads_expectSymbol _).bind fun _ _ => ?_
      refine (reads_parseExpr d fuel).bind fun rejected here'' => reads_pure ?_
      exact Expr.scoped_node rfl trivial
        (List.forall_mem_append.2 ⟨here, Expr.scoped_two here' here''⟩)
    · exact reads_pure here

theorem reads_parseLevel (d : Shader) : ∀ fuel level, Reads d (Expr.Scoped d) (parseLevel fuel level)
  | 0, _ => reads_limit
  | fuel + 1, level => by
    unfold parseLevel
    split
    · exact (reads_parseLevel d fuel (level + 1)).bind fun left inside =>
        reads_parseChain d fuel level inside
    · exact reads_parseUnary d fuel

theorem reads_parseChain (d : Shader) : ∀ fuel level {left : Expr}, left.Scoped d →
    Reads d (Expr.Scoped d) (parseChain fuel level left)
  | 0, _, _, _ => reads_limit
  | fuel + 1, level, left, inside => by
    refine reads_peek?.bind fun kind _ => ?_
    split
    · next c _ =>
      refine reads_skip.bind fun _ _ => ?_
      refine (reads_parseLevel d fuel (level + 1)).bind fun right inside' => ?_
      exact reads_parseChain d fuel level (c.scoped_join inside inside')
    · exact reads_pure inside

theorem reads_parseUnary (d : Shader) : ∀ fuel, Reads d (Expr.Scoped d) (parseUnary fuel)
  | 0 => reads_limit
  | fuel + 1 => by
    have operand : Reads d (Expr.Scoped d) (parseUnary fuel) := reads_parseUnary d fuel
    refine reads_here.bind fun pos _ => reads_peek?.bind fun kind _ => ?_
    split
    · refine reads_skip.bind fun _ _ => operand.bind fun e inside => reads_pure ?_
      exact Expr.scoped_node rfl trivial inside
    · refine reads_skip.bind fun _ _ => operand.bind fun e inside => reads_pure ?_
      exact Expr.scoped_node rfl trivial inside
    · refine reads_skip.bind fun _ _ => operand.bind fun e inside => reads_pure ?_
      exact Expr.scoped_node rfl trivial inside
    · exact reads_skip.bind fun _ _ => operand
    · refine (reads_parsePrimary d fuel).bind fun primary inside => ?_
      refine (reads_parseSuffixes d fuel inside).bind fun whole inside' => ?_
      exact reads_asValue inside'

theorem reads_parseSuffixes (d : Shader) : ∀ fuel {operand : Operand}, operand.Scoped d →
    Reads d (Operand.Scoped d) (parseSuffixes fuel operand)
  | 0, _, _ => reads_limit
  | fuel + 1, operand, inside => by
    refine reads_peek?.bind fun kind _ => ?_
    split
    · refine reads_here.bind fun bracket _ => reads_skip.bind fun _ _ => ?_
      refine (reads_parseExpr d fuel).bind fun index inside' => ?_
      refine (reads_expectSymbol _).bind fun _ _ => ?_
      refine (reads_applySubscript inside inside' bracket).bind fun longer inside'' => ?_
      exact reads_parseSuffixes d fuel inside''
    · refine reads_skip.bind fun _ _ => (reads_expectIdentifier _).bind fun field _ => ?_
      refine (reads_applyField inside field).bind fun longer inside' => ?_
      exact reads_parseSuffixes d fuel inside'
    · exact reads_pure inside

theorem reads_parsePrimary (d : Shader) : ∀ fuel, Reads d (Operand.Scoped d) (parsePrimary fuel)
  | 0 => reads_limit
  | fuel + 1 => by
    have literal (pos : Position) (v : Value) : (Expr.literal pos v).Scoped d :=
      Expr.scoped_leaf rfl trivial
    refine reads_next?.bind fun token _ => ?_
    split
    · exact reads_unmet _
    split
    · exact (reads_integerLiteral _).bind fun value _ => reads_pure (literal _ _)
    · exact (reads_floatLiteral _).bind fun value _ => reads_pure (literal _ _)
    · exact reads_pure (literal _ _)
    · exact reads_pure (literal _ _)
    · refine (reads_parseExpr d fuel).bind fun inner inside => ?_
      exact (reads_expectSymbol _).bind fun _ _ => reads_pure inside
    · refine reads_peek?.bind fun kind _ => ?_
      split
      · refine (reads_parseArguments d fuel).bind fun args inside => ?_
        exact (reads_applyCall _ inside).bind fun e inside' => reads_pure inside'
      · exact reads_resolveName _
    · exact reads_fail _ _

theorem reads_parseArguments (d : Shader) : ∀ fuel,
    Reads d (fun args => ∀ arg ∈ args, arg.Scoped d) (parseArguments fuel)
  | 0 => reads_limit
  | fuel + 1 => by
    refine (reads_expectSymbol _).bind fun _ _ => (reads_consumeSymbol _).bind fun closed _ => ?_
    split
    · exact reads_pure fun _ absent => nomatch absent
    · refine (reads_parseArgumentList d fuel).bind fun args inside => ?_
      exact (reads_expectSymbol _).bind fun _ _ => reads_pure inside

theorem reads_parseArgumentList (d : Shader) : ∀ fuel,
    Reads d (fun args => ∀ arg ∈ args, arg.Scoped d) (parseArgumentList fuel)
  | 0 => reads_limit
  | fuel + 1 => by
    refine (reads_parseArgument d fuel).bind fun arg here => ?_
    refine (reads_consumeSymbol _).bind fun further _ => ?_
    split
    · refine (reads_parseArgumentList d fuel).bind fun args inside => reads_pure ?_
      exact List.forall_mem_cons.2 ⟨here, inside⟩
    · exact reads_pure (List.forall_mem_singleton.2 here)

theorem reads_parseArgument (d : Shader) : ∀ fuel, Reads d (Operand.Scoped d) (parseArgument fuel)
  | 0 => reads_limit
  | fuel + 1 => by
    refine reads_opaqueArgument?.bind fun hidden _ => ?_
    split
    · exact reads_skip.bind fun _ _ => reads_resolveName _
    · exact (reads_parseExpr d fuel).bind fun e inside => reads_pure inside

end

/-- Every node of an expression is in scope. -/
theorem reads_expression : Reads d (Expr.Scoped d) expression :=
  reads_get fun _ _ => reads_parseExpr d _

theorem reads_callArguments : Reads d (fun args => ∀ arg ∈ args, arg.Scoped d) callArguments :=
  reads_get fun _ _ => reads_parseArguments d _

end Parser

end ComputeShader
