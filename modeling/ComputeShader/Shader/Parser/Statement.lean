import ComputeShader.Shader.Parser.Expression

/-! # Parsing statements

The body of `main`: declarations of local variables, assignments, calls, branches and blocks.
-/

namespace ComputeShader

namespace Parser

/-! ## Assignment targets -/

/-- Split an expression into the place that its innermost base denotes and the path that leads from
there, which is collected in `path` from the end. -/
def targetFrom (path : List Projection) : Expr → Except NotAssignable Target
  | .subscript _ base index => targetFrom (.subscript index :: path) base
  | .swizzle _ base selection =>
    if selection.Nodup then targetFrom (.swizzle selection :: path) base
    else .error .repeatedComponents
  | .localVar _ slot => .ok ⟨.localVar slot, path⟩
  | .bufferElement _ binding index => .ok ⟨.bufferElement binding index, path⟩
  | .uniform _ _ | .uniformElement _ _ _ => .error .uniform
  | .builtin _ _ => .error .builtin
  | _ => .error .other

/-- The target that an expression on the left of an assignment denotes. -/
def asTarget (e : Expr) : Parser Target :=
  match targetFrom [] e with
  | .ok target => pure target
  | .error why => failAt e.pos (.notAssignable why)

/-- The operator of a compound assignment. -/
def compoundOp? : Option TokenKind → Option BinaryOp
  | some (.symbol .plusAssign) => some .add
  | some (.symbol .minusAssign) => some .sub
  | some (.symbol .starAssign) => some .mul
  | _ => none

/-- The rest of an assignment chain, read from behind its first `=`: the further targets and the value. -/
def assignmentTail : Nat → Parser (List Target × Expr)
  | 0 => do failAt (← here) .nestingLimit
  | fuel + 1 => do
    let e ← expression
    if (← peek?) = some (.symbol .assign) then
      let target ← asTarget e
      skip
      let (targets, value) ← assignmentTail fuel
      return (target :: targets, value)
    else return ([], e)

/-! ## Simple statements -/

/-- `imageStore(image, coord, value);`, the arguments checked from the last to the first. -/
def imageStoreStatement (line : Nat) : Parser Stmt := do
  match ← next? with
  | none => failUnmet (.expected "`imageStore`")
  | some name =>
    match ← callArguments with
    | [image, coord, value] =>
      let value ← asValue value
      let coord ← asValue coord
      let binding ← imageArgument image
      expectSymbol .semicolon
      return .imageStore line binding coord value
    | args => failAt name.pos (.arity "imageStore" 3 args.length)

/-- An assignment or an expression evaluated for its effect. -/
def expressionStatement (line : Nat) : Parser Stmt := do
  let first ← expression
  let kind ← peek?
  let stmt ←
    if kind = some (.symbol .assign) then do
      let target ← asTarget first
      skip
      let (targets, value) ← assignmentTail ((← get).rest.length + 1)
      pure (.assign line (target :: targets) value)
    else match compoundOp? kind with
      | some op => do
        skip
        let target ← asTarget first
        pure (.compound line target op (← expression))
      | none => pure (.eval line first)
  expectSymbol .semicolon
  return stmt

/-- Whether the next tokens call `imageStore`. -/
def atImageStore : Parser Bool := do
  match (← get).rest with
  | name :: paren :: _ =>
    return name.kind == .identifier && name.lexeme == "imageStore" &&
      paren.kind == .symbol .parenOpen
  | _ => return false

/-! ## Local declarations -/

/-- Whether a token may stand before the type of a declaration. -/
def isDeclarationQualifier (t : Token) : Bool :=
  t.kind == .identifier && (t.lexeme == "const" || precisionQualifiers.contains t.lexeme)

/-- Whether the next tokens are qualifiers, the name of a type and a further name. -/
def atLocalDeclaration : Parser Bool := do
  match (← get).rest.dropWhile isDeclarationQualifier with
  | ty :: name :: _ =>
    return ty.kind == .identifier && (ValueType.ofName? ty.lexeme).isSome &&
      name.kind == .identifier
  | _ => return false

/-- Give a name its slot. It may hide a global name but not another local one. -/
def declareLocal (name : Token) (ty : ValueType) : Parser Nat := do
  let s ← get
  match s.names.lookup name.lexeme with
  | some (.localVar _) => failAt name.pos (.localDeclaredTwice name.lexeme)
  | _ =>
    let slot := s.locals.length
    set { s with
      names := (name.lexeme, .localVar slot) :: s.names
      locals := s.locals ++ [LocalDecl.mk name.lexeme ty] }
    return slot

/-- The declared names, each with an optional initial value that cannot refer to its own name. -/
def declarators (ty : ValueType) : Nat → Parser (List Stmt)
  | 0 => do failAt (← here) .nestingLimit
  | fuel + 1 => do
    let name ← expectIdentifier "a variable name"
    if (← peek?) = some (.symbol .bracketOpen) then failUnmet .localArray
    let init ← if ← consumeSymbol .assign then some <$> expression else pure none
    let slot ← declareLocal name ty
    let stmt := Stmt.declare name.pos.line slot init
    if ← consumeSymbol .comma then return stmt :: (← declarators ty fuel)
    else return [stmt]

/-- A declaration; one of several names is a block of its declarations. -/
def localDeclaration (line : Nat) : Parser Stmt := do
  skipWhile isDeclarationQualifier
  let tyName ← expectIdentifier "a type"
  match ValueType.ofName? tyName.lexeme with
  | none => failAt tyName.pos .typeExpected
  | some ty =>
    let stmts ← declarators ty ((← get).rest.length + 1)
    expectSymbol .semicolon
    match stmts with
    | [.declare _ slot init] => return .declare line slot init
    | stmts => return .block line stmts

/-! ## Compound statements -/

mutual

def parseStatement : Nat → Parser Stmt
  | 0 => do failAt (← here) .nestingLimit
  | fuel + 1 => do
    let line := (← here).line
    match ← peek? with
    | some (.symbol .braceOpen) =>
      skip
      return .block line (← parseBlock fuel)
    | some (.symbol .semicolon) =>
      skip
      return .block line []
    | some (.keyword .branch) =>
      skip
      expectSymbol .parenOpen
      let condition ← expression
      expectSymbol .parenClose
      let accepted ← parseStatement fuel
      if ← consume (.keyword .otherwise) then
        return .branchElse line condition accepted (← parseStatement fuel)
      else return .branch line condition accepted
    | some (.keyword .leave) =>
      skip
      if ← consumeSymbol .semicolon then return .leave line
      else failUnmet .valueReturned
    | _ =>
      if ← atLocalDeclaration then localDeclaration line
      else if ← atImageStore then imageStoreStatement line
      else expressionStatement line

/-- The statements of a block after its opening brace, and the closing brace. -/
def parseBlock : Nat → Parser (List Stmt)
  | 0 => do failAt (← here) .nestingLimit
  | fuel + 1 => do
    if ← consumeSymbol .braceClose then return []
    else if (← peek?).isNone then failUnmet .openBlock
    else
      let stmt ← parseStatement fuel
      return stmt :: (← parseBlock fuel)

end

/-- A statement. -/
def statement : Parser Stmt := do
  parseStatement (fuelFor (← get).rest)

/-- The statements of a block after its opening brace, and the closing brace. -/
def blockBody : Parser (List Stmt) := do
  parseBlock (fuelFor (← get).rest)

end Parser

end ComputeShader
