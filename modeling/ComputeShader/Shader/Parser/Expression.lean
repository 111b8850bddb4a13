import ComputeShader.Shader.Parser.State

/-! # Parsing expressions

One function per shape of the grammar, and one for all ten levels of binary operators, from `||`,
which binds loosest, to `*`. The functions take a fuel argument that falls with every call; `Parser.expression`
supplies enough of it for the tokens that remain.
-/

namespace ComputeShader

/-- A binary operator, with or without short circuit. -/
inductive Connective where
  | logical (op : LogicalOp)
  | binary (op : BinaryOp)
  deriving DecidableEq, Repr, Inhabited

namespace Connective

/-- How tightly an operator binds, from zero, the loosest. -/
def level : Connective → Nat
  | logical .or => 0
  | logical .and => 1
  | binary .bitOr => 2
  | binary .bitXor => 3
  | binary .bitAnd => 4
  | binary .eq | binary .ne => 5
  | binary .lt | binary .le | binary .gt | binary .ge => 6
  | binary .shl | binary .shr => 7
  | binary .add | binary .sub => 8
  | binary .mul | binary .div | binary .mod => 9

/-- The number of levels. -/
def levels : Nat := 10

def ofSymbol? : Symbol → Option Connective
  | .orOr => some (logical .or)
  | .andAnd => some (logical .and)
  | .pipe => some (binary .bitOr)
  | .caret => some (binary .bitXor)
  | .amp => some (binary .bitAnd)
  | .equal => some (binary .eq)
  | .notEqual => some (binary .ne)
  | .less => some (binary .lt)
  | .lessEqual => some (binary .le)
  | .greater => some (binary .gt)
  | .greaterEqual => some (binary .ge)
  | .shiftLeft => some (binary .shl)
  | .shiftRight => some (binary .shr)
  | .plus => some (binary .add)
  | .minus => some (binary .sub)
  | .star => some (binary .mul)
  | .slash => some (binary .div)
  | .percent => some (binary .mod)
  | _ => none

/-- The operator that a token stands for between operands of a level. -/
def at? (level : Nat) (kind : Option TokenKind) : Option Connective :=
  match kind with
  | some (.symbol s) => (ofSymbol? s).filter (fun c => c.level = level)
  | _ => none

/-- The expression that joins two operands, placed at the left one. -/
def join (c : Connective) (left right : Expr) : Expr :=
  match c with
  | logical op => .logical left.pos op left right
  | binary op => .binary left.pos op left right

end Connective

/-- What a name or a chain of suffixes denotes before it is known to be a value. -/
inductive Operand where
  | value (e : Expr)
  | entity (e : Entity) (pos : Position)
  deriving Repr, Inhabited

namespace Operand

def pos : Operand → Position
  | value e => e.pos
  | entity _ pos => pos

def description : Operand → String
  | value _ => "a value"
  | entity e _ => e.description

end Operand

namespace Parser

/-- The positions of a swizzle's letters, all from one set of names. -/
def selection? (name : String) : Option (List Nat) :=
  let sets := ["xyzw", "rgba", "stpq"].map String.toList
  let chosen := sets.findSome? fun letters => name.toList.mapM fun c => letters.idxOf? c
  chosen.filter fun selection => 1 ≤ selection.length && selection.length ≤ 4

def asValue : Operand → Parser Expr
  | .value e => pure e
  | .entity e pos => failAt pos (.notAValue e)

/-- The binding of an argument that must be an image. -/
def imageArgument (operand : Operand) : Parser Binding :=
  match operand with
  | .entity (.image binding) _ => pure binding
  | other => failAt other.pos (.wrongArgument "an image" other.description)

def samplerArgument (operand : Operand) : Parser Binding :=
  match operand with
  | .entity (.sampler binding) _ => pure binding
  | other => failAt other.pos (.wrongArgument "a sampler" other.description)

def checkArity (pos : Position) (name : String) (expected found : Nat) : Parser Unit :=
  if found = expected then pure () else failAt pos (.arity name expected found)

/-- What an identifier denotes. Names that start with `gl_` are built in. -/
def resolveName (t : Token) : Parser Operand := do
  if t.lexeme.startsWith "gl_" then
    match Builtin.ofName? t.lexeme with
    | some b => return .value (.builtin t.pos b)
    | none => failAt t.pos (.unsupportedBuiltin t.lexeme)
  else
    match ← lookup? t.lexeme with
    | some (.localVar slot) => return .value (.localVar t.pos slot)
    | some (.uniform slot) => return .value (.uniform t.pos slot)
    | some (.entity e) => return .entity e t.pos
    | none => failAt t.pos (.unknownIdentifier t.lexeme)

/-- The operand with a subscript. -/
def applySubscript (operand : Operand) (bracket : Position) (index : Expr) : Parser Operand :=
  match operand with
  | .value base => pure (.value (.subscript base.pos base index))
  | .entity (.bufferArray binding) pos => pure (.value (.bufferElement pos binding index))
  | .entity (.uniformArray slot) pos => pure (.value (.uniformElement pos slot index))
  | .entity e _ => failAt bracket (.notIndexable e)

/-- The operand with a field after a dot: a swizzle, the member of a block, or `length()`. -/
def applyField (operand : Operand) (field : Token) : Parser Operand := do
  match operand with
  | .value base =>
    match selection? field.lexeme with
    | some selection => return .value (.swizzle base.pos base selection)
    | none => failAt field.pos (.invalidSwizzle field.lexeme)
  | .entity (.bufferInstance binding) pos =>
    let buffer := (← get).buffers.find? (fun b => b.binding = binding)
    if buffer.map BufferDecl.member = some field.lexeme then
      return .entity (.bufferArray binding) pos
    else failAt field.pos (.memberMissing field.lexeme)
  | .entity e pos =>
    match e, field.lexeme with
    | .bufferArray binding, "length" =>
      expectSymbol .parenOpen
      expectSymbol .parenClose
      return .value (.bufferLength pos binding)
    | e, name => failAt field.pos (.fieldUndefined name e)

/-- The expression of a call, its arguments read. -/
def applyCall (callee : Token) (args : List Operand) : Parser Expr := do
  let pos := callee.pos
  let name := callee.lexeme
  match ValueType.ofName? name with
  | some ty =>
    let args ← args.mapM asValue
    if args.isEmpty then failAt pos (.argumentsMissing name)
    else return .construct pos ty args
  | none =>
  match AtomicOp.ofName? name, args with
  | some op, args =>
    checkArity pos name (1 + op.operandCount) args.length
    match args with
    | [] => failAt pos (.memoryExpected name)
    | memory :: operands =>
      match ← asValue memory with
      | .bufferElement _ binding index => return .atomic pos op binding index (← operands.mapM asValue)
      | other => failAt other.pos (.memoryExpected name)
  | none, args =>
  match name, args with
  | "imageLoad", [image, coord] =>
    return .imageLoad pos (← imageArgument image) (← asValue coord)
  | "imageLoad", args => failAt pos (.arity name 2 args.length)
  | "imageAtomicAdd", [image, coord, value] =>
    return .imageAtomicAdd pos (← imageArgument image) (← asValue coord) (← asValue value)
  | "imageAtomicAdd", args => failAt pos (.arity name 3 args.length)
  | "imageSize", [image] => return .imageSize pos (← imageArgument image)
  | "imageSize", args => failAt pos (.arity name 1 args.length)
  | "imageStore", _ => failAt pos .storeAsValue
  | "texture", [sampler, coord] =>
    return .texture pos (← samplerArgument sampler) (← asValue coord)
  | "texture", [sampler, coord, bias] =>
    return .textureBiased pos (← samplerArgument sampler) (← asValue coord) (← asValue bias)
  | "texture", _ => failAt pos .textureArity
  | name, args =>
    match MathFn.ofName? name with
    | some f =>
      checkArity pos name f.arity args.length
      return .math pos f (← args.mapM asValue)
    | none => failAt pos (.unsupportedBuiltin name)

/-- The next token if it is the name of an image or a sampler and an argument ends behind it. -/
def opaqueArgument? : Parser (Option Token) := do
  let s ← get
  match s.rest with
  | t :: after :: _ =>
    let isOpaque : Bool := match (Token.identifier? t).bind fun name => s.names.lookup name with
      | some (.entity (.image _)) | some (.entity (.sampler _)) => true
      | _ => false
    if isOpaque && (after.kind == .symbol .comma || after.kind == .symbol .parenClose) then return some t
    else return none
  | _ => return none

mutual

/-- An expression, `?:` binding loosest of all. -/
def parseExpr : Nat → Parser Expr
  | 0 => do failAt (← here) .nestingLimit
  | fuel + 1 => do
    let condition ← parseLevel fuel 0
    if ← consumeSymbol .question then
      let accepted ← parseExpr fuel
      expectSymbol .colon
      let rejected ← parseExpr fuel
      return .ternary condition.pos condition accepted rejected
    else return condition

/-- Operands joined by operators of a level or tighter ones. -/
def parseLevel : Nat → Nat → Parser Expr
  | 0, _ => do failAt (← here) .nestingLimit
  | fuel + 1, level => do
    if level < Connective.levels then
      parseChain fuel level (← parseLevel fuel (level + 1))
    else parseUnary fuel

/-- The operators of a level and their right operands after a first operand. -/
def parseChain : Nat → Nat → Expr → Parser Expr
  | 0, _, _ => do failAt (← here) .nestingLimit
  | fuel + 1, level, left => do
    match Connective.at? level (← peek?) with
    | some c =>
      skip
      let right ← parseLevel fuel (level + 1)
      parseChain fuel level (c.join left right)
    | none => return left

/-- An operand after any number of unary operators; a unary `+` leaves no trace. -/
def parseUnary : Nat → Parser Expr
  | 0 => do failAt (← here) .nestingLimit
  | fuel + 1 => do
    let pos ← here
    match ← peek? with
    | some (.symbol .minus) =>
      skip
      return .unary pos .neg (← parseUnary fuel)
    | some (.symbol .bang) =>
      skip
      return .unary pos .not (← parseUnary fuel)
    | some (.symbol .tilde) =>
      skip
      return .unary pos .bitNot (← parseUnary fuel)
    | some (.symbol .plus) =>
      skip
      parseUnary fuel
    | _ => asValue (← parseSuffixes fuel (← parsePrimary fuel))

/-- The subscripts and fields after an operand. -/
def parseSuffixes : Nat → Operand → Parser Operand
  | 0, _ => do failAt (← here) .nestingLimit
  | fuel + 1, operand => do
    match ← peek? with
    | some (.symbol .bracketOpen) =>
      let bracket ← here
      skip
      let index ← parseExpr fuel
      expectSymbol .bracketClose
      parseSuffixes fuel (← applySubscript operand bracket index)
    | some (.symbol .dot) =>
      skip
      let field ← expectIdentifier "a member or swizzle"
      parseSuffixes fuel (← applyField operand field)
    | _ => return operand

/-- A literal, a name, a call or an expression in parentheses. -/
def parsePrimary : Nat → Parser Operand
  | 0 => do failAt (← here) .nestingLimit
  | fuel + 1 => do
    match ← next? with
    | none => failUnmet .expressionMissing
    | some t =>
      match t.kind with
      | .intLiteral => return .value (.literal t.pos (.ofScalar (← integerLiteral t)))
      | .floatLiteral => return .value (.literal t.pos (.ofScalar (← floatLiteral t)))
      | .keyword .yes => return .value (.literal t.pos (.bool true))
      | .keyword .no => return .value (.literal t.pos (.bool false))
      | .symbol .parenOpen =>
        let inner ← parseExpr fuel
        expectSymbol .parenClose
        return .value inner
      | .identifier =>
        if (← peek?) = some (.symbol .parenOpen) then
          let args ← parseArguments fuel
          return .value (← applyCall t args)
        else resolveName t
      | _ => failAt t.pos (.notAnExpression t.lexeme)

/-- The arguments of a call, in parentheses. -/
def parseArguments : Nat → Parser (List Operand)
  | 0 => do failAt (← here) .nestingLimit
  | fuel + 1 => do
    expectSymbol .parenOpen
    if ← consumeSymbol .parenClose then return []
    else
      let args ← parseArgumentList fuel
      expectSymbol .parenClose
      return args

/-- One or more arguments, separated by commas. -/
def parseArgumentList : Nat → Parser (List Operand)
  | 0 => do failAt (← here) .nestingLimit
  | fuel + 1 => do
    let arg ← parseArgument fuel
    if ← consumeSymbol .comma then return arg :: (← parseArgumentList fuel)
    else return [arg]

/-- An argument. Only here may an image or a sampler be named. -/
def parseArgument : Nat → Parser Operand
  | 0 => do failAt (← here) .nestingLimit
  | fuel + 1 => do
    match ← opaqueArgument? with
    | some t =>
      skip
      resolveName t
    | none => return .value (← parseExpr fuel)

end

/-- Between two tokens the grammar goes down at most sixteen steps. -/
def fuelFor (rest : List Token) : Nat := 16 * (rest.length + 1)

/-- An expression. -/
def expression : Parser Expr := do
  parseExpr (fuelFor (← get).rest)

/-- The arguments of a call, in parentheses. -/
def callArguments : Parser (List Operand) := do
  parseArguments (fuelFor (← get).rest)

end Parser

end ComputeShader
