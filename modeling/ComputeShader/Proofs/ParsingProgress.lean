import ComputeShader.Proofs.BodySizes
import ComputeShader.Proofs.ClosedShaders
import ComputeShader.Proofs.HeaderSizes
import ComputeShader.Proofs.SlotSearch
import ComputeShader.Proofs.SteadyParsing

/-! # Parsing makes progress

What stands for something in the text takes a token at least, and no function of the parser leaves the tokens:
the bare step, which may, is taken only where there is a token. Every loop and every recursion of the parser
ends within a number of steps that the remaining tokens bound, and the body that is left to check is no larger
than the text. The search for a free slot alone goes by the widths that the text names, not by its length.
-/

namespace ComputeShader

/-- Whether a state is at a position of the text, in front of a token, at the end or beyond it. -/
def ParserState.StandsAt (tokens : List Token) (pos : Nat) (s : ParserState) : Prop :=
  s.rest = tokens.drop pos ∧ s.beyond = pos - tokens.length

theorem ParserState.standsAt_initial (tokens : List Token) : (initial tokens).StandsAt tokens 0 :=
  ⟨rfl, (Nat.zero_sub _).symm⟩

theorem ParserState.StandsAt.length_pos {tokens : List Token} {pos : Nat} {s : ParserState}
    (stands : s.StandsAt tokens pos) (inside : pos < tokens.length) : 1 ≤ s.rest.length := by
  rw [stands.1, List.length_drop]
  omega

theorem ParserState.Past.standsAt {tokens : List Token} {pos least : Nat} {s s' : ParserState}
    (past : s.Past least s') (stands : s.StandsAt tokens pos) (within : pos ≤ tokens.length) :
    ∃ pos', s'.StandsAt tokens pos' ∧ pos + least ≤ pos' ∧ pos' ≤ tokens.length := by
  obtain ⟨taken, rest, enough, same⟩ := past
  obtain ⟨front, beyond⟩ := stands
  have split : tokens.drop pos = taken ++ s'.rest := front.symm.trans rest
  have length : tokens.length - pos = taken.length + s'.rest.length := by
    rw [← List.length_drop, split, List.length_append]
  refine ⟨pos + taken.length, ⟨?_, by omega⟩, by omega, by omega⟩
  rw [← List.drop_drop, split, List.drop_left]

namespace Parser

/-! ## Steps -/

/-- A step goes one position on wherever the parser stands, behind the last token too. -/
theorem standsAt_skip {tokens : List Token} {pos : Nat} {s : ParserState} (stands : s.StandsAt tokens pos) :
    ∃ s', skip s = .ok ((), s') ∧ s'.StandsAt tokens (pos + 1) := by
  obtain ⟨rest, beyond, lastPos, names, buffers, locals⟩ := s
  obtain ⟨front, rfl⟩ := stands
  have behind : tokens.drop (pos + 1) = rest.tail := by
    rw [← List.tail_drop]
    exact congrArg List.tail front.symm
  cases rest with
  | nil =>
    have ended := List.drop_eq_nil_iff.1 front.symm
    refine ⟨⟨[], pos - tokens.length + 1, lastPos, names, buffers, locals⟩, rfl, behind.symm, ?_⟩
    exact (Nat.sub_add_comm ended).symm
  | cons t rest =>
    have inside : pos < tokens.length := by
      have left := congrArg List.length front
      rw [List.length_cons, List.length_drop] at left
      omega
    refine ⟨⟨rest, pos - tokens.length, lastPos, names, buffers, locals⟩, rfl, behind.symm, ?_⟩
    dsimp only
    omega

/-- Moving over tokens is a loop of steps, each in front of a token. -/
theorem skipWhile_eq (p : Token → Bool) :
    skipWhile p = (do if (← get).rest.head?.any p then do { skip; skipWhile p } else return ()) := by
  funext s
  obtain ⟨_ | ⟨t, rest⟩, beyond, lastPos, names, buffers, locals⟩ := s
  · rfl
  · change Except.ok ((), ParserState.mk ((t :: rest).dropWhile p) beyond lastPos names buffers locals) =
      (if p t then _ else _ : Parser Unit) _
    rw [List.dropWhile_cons, ite_apply]
    split
    · rfl
    · rfl

/-! ## The functions of the parser -/

/-- The functions that read what stands for something: statements, expressions of every level, declarations,
directives, `layout` qualifiers and the arguments of calls. -/
inductive Phrase : {α : Type} → Parser α → Prop
  | statement : Phrase statement
  | parseStatement (fuel : Nat) : Phrase (parseStatement fuel)
  | expression : Phrase expression
  | parseExpr (fuel : Nat) : Phrase (parseExpr fuel)
  | parseLevel (fuel level : Nat) : Phrase (parseLevel fuel level)
  | parseUnary (fuel : Nat) : Phrase (parseUnary fuel)
  | parsePostfix (fuel : Nat) : Phrase (do parseSuffixes fuel (← parsePrimary fuel))
  | parsePrimary (fuel : Nat) : Phrase (parsePrimary fuel)
  | declaration (header : Header) : Phrase (declaration header)
  | directive (header : Header) : Phrase (directive header)
  | layoutQualifier : Phrase layoutQualifier
  | callArguments : Phrase callArguments
  | parseArguments (fuel : Nat) : Phrase (parseArguments fuel)

/-- All functions of the parser, but for the bare step. -/
inductive Routine : {α : Type} → Parser α → Prop
  | phrase {α : Type} {x : Parser α} (phrase : Phrase x) : Routine x
  -- Tokens
  | failAt {α : Type} (pos : Position) (fault : SourceFault) : Routine (failAt pos fault : Parser α)
  | failUnmet {α : Type} (want : Unmet) : Routine (failUnmet want : Parser α)
  | peek? : Routine peek?
  | here : Routine here
  | peekIdentifier? : Routine peekIdentifier?
  | lookup? (name : String) : Routine (lookup? name)
  | next? : Routine next?
  | skipWhile (p : Token → Bool) : Routine (skipWhile p)
  | consume (kind : TokenKind) : Routine (consume kind)
  | consumeSymbol (s : Symbol) : Routine (consumeSymbol s)
  | expect (kind : TokenKind) (what : String) : Routine (expect kind what)
  | expectSymbol (s : Symbol) : Routine (expectSymbol s)
  | expectKeyword (k : Keyword) : Routine (expectKeyword k)
  | expectIdentifier (what : String) : Routine (expectIdentifier what)
  | expectCount : Routine expectCount
  | integerLiteral (t : Token) : Routine (integerLiteral t)
  | floatLiteral (t : Token) : Routine (floatLiteral t)
  -- Expressions
  | asValue (operand : Operand) : Routine (asValue operand)
  | imageArgument (operand : Operand) : Routine (imageArgument operand)
  | samplerArgument (operand : Operand) : Routine (samplerArgument operand)
  | checkArity (pos : Position) (name : String) (expected found : Nat) :
      Routine (checkArity pos name expected found)
  | resolveName (t : Token) : Routine (resolveName t)
  | applySubscript (operand : Operand) (bracket : Position) (index : Expr) :
      Routine (applySubscript operand bracket index)
  | applyField (operand : Operand) (field : Token) : Routine (applyField operand field)
  | applyCall (callee : Token) (args : List Operand) : Routine (applyCall callee args)
  | opaqueArgument? : Routine opaqueArgument?
  | parseChain (fuel level : Nat) (left : Expr) : Routine (parseChain fuel level left)
  | parseSuffixes (fuel : Nat) (operand : Operand) : Routine (parseSuffixes fuel operand)
  | parseArgumentList (fuel : Nat) : Routine (parseArgumentList fuel)
  | parseArgument (fuel : Nat) : Routine (parseArgument fuel)
  -- Statements
  | asTarget (e : Expr) : Routine (asTarget e)
  | assignmentTail (fuel : Nat) : Routine (assignmentTail fuel)
  | imageStoreStatement (line : Nat) : Routine (imageStoreStatement line)
  | expressionStatement (line : Nat) : Routine (expressionStatement line)
  | atImageStore : Routine atImageStore
  | atLocalDeclaration : Routine atLocalDeclaration
  | declareLocal (name : Token) (ty : ValueType) : Routine (declareLocal name ty)
  | declarators (ty : ValueType) (fuel : Nat) : Routine (declarators ty fuel)
  | localDeclaration (line : Nat) : Routine (localDeclaration line)
  | parseBlock (fuel : Nat) : Routine (parseBlock fuel)
  | blockBody : Routine blockBody
  -- Headers
  | versionDirective : Routine versionDirective
  | precisionStatement : Routine precisionStatement
  | layoutItems (fuel : Nat) : Routine (layoutItems fuel)
  | qualifiersFrom (fuel : Nat) (q : Qualifiers) : Routine (qualifiersFrom fuel q)
  | qualifiers : Routine qualifiers
  | layoutSlot (items : List LayoutItem) (key : String) (bare : String → Bool) (owner : String) :
      Routine (layoutSlot items key bare owner)
  | localSizeItem (size : Extent3) (item : LayoutItem) : Routine (localSizeItem size item)
  | localSize (q : Qualifiers) (header : Header) : Routine (localSize q header)
  | bufferBlock (q : Qualifiers) (header : Header) : Routine (bufferBlock q header)
  | imageUniform (q : Qualifiers) (ty name : Token) (header : Header) :
      Routine (imageUniform q ty name header)
  | rejectAccess (q : Qualifiers) : Routine (rejectAccess q)
  | samplerUniform (q : Qualifiers) (name : Token) (header : Header) :
      Routine (samplerUniform q name header)
  | arrayLength (pos : Position) : Routine (arrayLength pos)
  | valueUniform (q : Qualifiers) (ty name : Token) (header : Header) :
      Routine (valueUniform q ty name header)
  | uniformDeclaration (q : Qualifiers) (header : Header) : Routine (uniformDeclaration q header)
  | headerFrom (fuel : Nat) (header : Header) : Routine (headerFrom fuel header)
  -- Whole shaders
  | assigned {α : Type} (owner : String) (width : α → Nat) (set : α → UInt32 → α)
      (decls : List (Declared α)) : Routine (assigned owner width set decls)
  | declareGlobal (name : String) (entry : NameEntry) (pos : Position) :
      Routine (declareGlobal name entry pos)
  | mainFunction : Routine mainFunction
  | shader (name : String) : Routine (shader name)

/-- The loops and the recursive functions, each with how many steps deep it goes at most for each token that
remains and for the end of the text. -/
inductive Recursion : {α : Type} → Nat → (Nat → Parser α) → Prop
  | layoutItems : Recursion 1 layoutItems
  | qualifiers (q : Qualifiers) : Recursion 1 fun fuel => qualifiersFrom fuel q
  | header (header : Header) : Recursion 1 fun fuel => headerFrom fuel header
  | assignment : Recursion 1 assignmentTail
  | declarators (ty : ValueType) : Recursion 1 fun fuel => declarators ty fuel
  | statement : Recursion 2 parseStatement
  | block : Recursion 2 parseBlock
  | expr : Recursion 16 parseExpr
  | level (level : Nat) : Recursion 16 fun fuel => parseLevel fuel level
  | chain (level : Nat) (left : Expr) : Recursion 16 fun fuel => parseChain fuel level left
  | unary : Recursion 16 parseUnary
  | suffixes (operand : Operand) : Recursion 16 fun fuel => parseSuffixes fuel operand
  | primary : Recursion 16 parsePrimary
  | arguments : Recursion 16 parseArguments
  | argumentList : Recursion 16 parseArgumentList
  | argument : Recursion 16 parseArgument

/-- The functions that collect what is gone through later on: each with the size of what it gives, and what of
that it was given to go on from. -/
inductive Collection : {α : Type} → Nat → (α → Nat) → Parser α → Prop
  | expression (fuel : Nat) : Collection 0 (fun e => e.nodes.length) (parseExpr fuel)
  | arguments (fuel : Nat) : Collection 0 List.length (parseArguments fuel)
  | layoutItems (fuel : Nat) : Collection 0 List.length (layoutItems fuel)
  | qualifiers (fuel : Nat) (q : Qualifiers) :
      Collection q.layout.length (fun q' => q'.layout.length) (qualifiersFrom fuel q)
  | header (fuel : Nat) (header : Header) : Collection header.size Header.size (headerFrom fuel header)
  | block (fuel : Nat) : Collection 0 Stmt.sizeOf (parseBlock fuel)

variable {α : Type} {x : Parser α}

/-- A directive needs a token to take; nothing else succeeds without one. -/
theorem Phrase.advances {ahead : Nat} (phrase : Phrase x) : Advances ahead (min ahead 1) 0 x := by
  have one {x : Parser α} (takes : Advances ahead 1 0 x) : Advances ahead (min ahead 1) 0 x :=
    takes.mono (Nat.min_le_right ..)
  cases phrase with
  | statement => exact one advances_statement
  | parseStatement fuel => exact one (advances_parseStatement fuel (Nat.zero_le _))
  | expression => exact one advances_expression
  | parseExpr fuel => exact one (advances_parseExpr fuel (Nat.zero_le _))
  | parseLevel fuel level => exact one (advances_parseLevel fuel level (Nat.zero_le _))
  | parseUnary fuel => exact one (advances_parseUnary fuel (Nat.zero_le _))
  | parsePostfix fuel =>
    exact one ((advances_parsePrimary fuel (Nat.zero_le _)).bind fun operand =>
      advances_parseSuffixes fuel operand (Nat.zero_le _))
  | parsePrimary fuel => exact one (advances_parsePrimary fuel (Nat.zero_le _))
  | declaration header => exact one (advances_declaration header)
  | directive header => exact advances_directive header
  | layoutQualifier => exact one advances_layoutQualifier
  | callArguments => exact one advances_callArguments
  | parseArguments fuel => exact one (advances_parseArguments fuel (Nat.zero_le _))

theorem Routine.advances (routine : Routine x) : Advances 0 0 0 x := by
  have enough {n : Nat} : 0 ≤ n := Nat.zero_le n
  cases routine with
  | phrase phrase => exact phrase.advances.any
  | failAt pos fault =>
    refine ⟨?_, fun s e _ short => absurd short (Nat.not_lt_zero _)⟩
    rintro s a s' - ⟨⟩
  | failUnmet want => exact advances_unmet want
  | peek? => exact sees_peek?.advances
  | here => exact looks_here.advances
  | peekIdentifier? => exact sees_peekIdentifier?.advances
  | lookup? name => exact (looks_lookup? name).advances
  | next? => exact advances_next?
  | skipWhile p => exact advances_skipWhile p
  | consume kind => exact advances_consume kind
  | consumeSymbol s => exact advances_consumeSymbol s
  | expect kind what => exact (advances_expect kind what).any
  | expectSymbol s => exact (advances_expectSymbol s).any
  | expectKeyword k => exact (advances_expectKeyword k).any
  | expectIdentifier what => exact (advances_expectIdentifier what).any
  | expectCount => exact advances_expectCount.any
  | integerLiteral t => exact (looks_integerLiteral t).advances
  | floatLiteral t => exact (looks_floatLiteral t).advances
  | asValue operand => exact (looks_asValue operand).advances
  | imageArgument operand => exact (looks_imageArgument operand).advances
  | samplerArgument operand => exact (looks_samplerArgument operand).advances
  | checkArity pos name expected found => exact (looks_checkArity pos name expected found).advances
  | resolveName t => exact (looks_resolveName t).advances
  | applySubscript operand bracket index => exact (looks_applySubscript operand bracket index).advances
  | applyField operand field => exact advances_applyField operand field
  | applyCall callee args => exact (looks_applyCall callee args).advances
  | opaqueArgument? => exact sees_opaqueArgument?.advances
  | parseChain fuel level left => exact advances_parseChain fuel level left enough
  | parseSuffixes fuel operand => exact advances_parseSuffixes fuel operand enough
  | parseArgumentList fuel => exact (advances_parseArgumentList fuel enough).any
  | parseArgument fuel => exact (advances_parseArgument fuel enough).any
  | asTarget e => exact (looks_asTarget e).advances
  | assignmentTail fuel => exact (advances_assignmentTail fuel enough).any
  | imageStoreStatement line => exact (advances_imageStoreStatement line).any
  | expressionStatement line => exact (advances_expressionStatement line).any
  | atImageStore => exact looks_atImageStore.advances
  | atLocalDeclaration => exact looks_atLocalDeclaration.advances
  | declareLocal name ty => exact advances_declareLocal name ty
  | declarators ty fuel => exact (advances_declarators ty fuel enough).any
  | localDeclaration line => exact (advances_localDeclaration line).any
  | parseBlock fuel => exact advances_parseBlock fuel enough
  | blockBody => exact advances_blockBody
  | versionDirective => exact advances_versionDirective.any
  | precisionStatement => exact advances_precisionStatement.any
  | layoutItems fuel => exact (advances_layoutItems fuel enough).any
  | qualifiersFrom fuel q => exact advances_qualifiersFrom fuel enough q
  | qualifiers => exact advances_qualifiers
  | layoutSlot items key bare owner => exact (looks_layoutSlot items key bare owner).advances
  | localSizeItem size item => exact (looks_localSizeItem size item).advances
  | localSize q header => exact (advances_localSize q header).any
  | bufferBlock q header => exact (advances_bufferBlock q header).any
  | imageUniform q ty name header => exact (advances_imageUniform q ty name header).any
  | rejectAccess q => exact (looks_rejectAccess q).advances
  | samplerUniform q name header => exact (advances_samplerUniform q name header).any
  | arrayLength pos => exact advances_arrayLength pos
  | valueUniform q ty name header => exact (advances_valueUniform q ty name header).any
  | uniformDeclaration q header => exact (advances_uniformDeclaration q header).any
  | headerFrom fuel header => exact advances_headerFrom fuel enough header
  | assigned owner width set decls => exact (looks_assigned owner width set decls).advances
  | declareGlobal name entry pos => exact advances_declareGlobal name entry pos
  | mainFunction => exact advances_mainFunction.any
  | shader name => exact (advances_shader name).any

/-- What is collected is paid for. -/
theorem Collection.pays {given : Nat} {size : α → Nat} (collection : Collection given size x) :
    Pays 0 given size x := by
  have some {n : Nat} : n ≤ 0 + n := Nat.le_of_eq n.zero_add.symm
  cases collection with
  | expression fuel => exact (pays_parseExpr fuel).of_cost fun e => some
  | arguments fuel => exact (pays_argumentsCount fuel).of_cost fun args => some
  | layoutItems fuel => exact (pays_layoutItems fuel).of_cost fun items => some
  | qualifiers fuel q => exact pays_qualifiersFrom fuel q
  | header fuel header => exact pays_headerFrom fuel header
  | block fuel => exact (pays_parseBlock fuel).of_cost fun body => some

theorem Recursion.bounded {steps : Nat} {f : Nat → Parser α} (recursion : Recursion steps f) :
    Bounded steps f := by
  cases recursion with
  | layoutItems =>
    exact ⟨approximates_layoutItems, fun fuel room enough => (advances_layoutItems fuel (by omega)).any⟩
  | qualifiers q =>
    exact ⟨fun fuel => approximates_qualifiersFrom fuel q, fun fuel room enough =>
      advances_qualifiersFrom fuel (by omega) q⟩
  | header header =>
    exact ⟨fun fuel => approximates_headerFrom fuel header, fun fuel room enough =>
      advances_headerFrom fuel (by omega) header⟩
  | assignment =>
    exact ⟨approximates_assignmentTail, fun fuel room enough => (advances_assignmentTail fuel (by omega)).any⟩
  | declarators ty =>
    exact ⟨approximates_declarators ty, fun fuel room enough => (advances_declarators ty fuel (by omega)).any⟩
  | statement =>
    exact ⟨approximates_parseStatement, fun fuel room enough =>
      (advances_parseStatement fuel (Nat.le_succ_of_le enough)).any⟩
  | block => exact ⟨approximates_parseBlock, fun fuel room enough => advances_parseBlock fuel enough⟩
  | expr =>
    exact ⟨approximates_parseExpr, fun fuel room enough =>
      (advances_parseExpr fuel (Nat.le_add_right_of_le enough)).any⟩
  | level level =>
    exact ⟨fun fuel => approximates_parseLevel fuel level, fun fuel room enough =>
      (advances_parseLevel fuel level (by omega)).any⟩
  | chain level left =>
    exact ⟨fun fuel => approximates_parseChain fuel level left, fun fuel room enough =>
      advances_parseChain fuel level left (by omega)⟩
  | unary =>
    exact ⟨approximates_parseUnary, fun fuel room enough => (advances_parseUnary fuel (by omega)).any⟩
  | suffixes operand =>
    exact ⟨fun fuel => approximates_parseSuffixes fuel operand, fun fuel room enough =>
      advances_parseSuffixes fuel operand (by omega)⟩
  | primary =>
    exact ⟨approximates_parsePrimary, fun fuel room enough => (advances_parsePrimary fuel (by omega)).any⟩
  | arguments =>
    exact ⟨approximates_parseArguments, fun fuel room enough =>
      (advances_parseArguments fuel (by omega)).any⟩
  | argumentList =>
    exact ⟨approximates_parseArgumentList, fun fuel room enough =>
      (advances_parseArgumentList fuel enough).any⟩
  | argument =>
    exact ⟨approximates_parseArgument, fun fuel room enough => (advances_parseArgument fuel (by omega)).any⟩

/-! ## Progress -/

/-- Before the end of a text, what reads a phrase leaves the parser behind a later token, and nothing leaves it
in front of an earlier one or beyond the end. The steps of every loop and recursion of the parser are bounded
by the tokens that remain, so that more fuel than that is no use. What is collected to be gone through later has
no more entries than tokens are taken for it, and so the body that is checked in the end has no more expressions,
targets and statements than the text has tokens. Runs of slots are gone through one slot after the other, and a
free start is found after as many tries as there are starts below it, all of them bounded by the number of slots,
but not by the tokens; where the runs fit behind what is taken, none that is tried ends beyond the slots. Every
source is either loaded or rejected for what is wrong with it. -/
theorem parsing_progresses :
    (∀ {α : Type} {x : Parser α} {tokens : List Token} {pos : Nat} {s s' : ParserState} {a : α},
      Phrase x → s.StandsAt tokens pos → pos < tokens.length → x s = .ok (a, s') →
        ∃ pos', s'.StandsAt tokens pos' ∧ pos < pos' ∧ pos' ≤ tokens.length) ∧
    (∀ {α : Type} {x : Parser α} {tokens : List Token} {pos : Nat} {s s' : ParserState} {a : α},
      Routine x → s.StandsAt tokens pos → pos ≤ tokens.length → x s = .ok (a, s') →
        ∃ pos', s'.StandsAt tokens pos' ∧ pos ≤ pos' ∧ pos' ≤ tokens.length) ∧
    (∀ {α : Type} {steps : Nat} {f : Nat → Parser α} {s : ParserState} {fuel : Nat},
      Recursion steps f → steps * (s.rest.length + 1) ≤ fuel →
        f fuel s = f (steps * (s.rest.length + 1)) s ∧
          ∀ e, f fuel s = .error e → e.fault ≠ .nestingLimit) ∧
    (∀ {α : Type} {given : Nat} {size : α → Nat} {x : Parser α} {s s' : ParserState} {a : α},
      Collection given size x → x s = .ok (a, s') → s'.rest.length + size a ≤ s.rest.length + given) ∧
    (∀ {name source : String} {tokens : List Token} {s : Shader},
      tokenize source = .ok tokens → Shader.parse name source = .ok s →
        Stmt.sizeOf s.body ≤ tokens.length) ∧
    (∀ {r : SlotRequest} {range : SlotRange}, r.claim? = some range →
      range.slots.length ≤ slotLimit ∧
        ∀ taken, range.slots.find? (SlotRange.isTaken taken) = range.lowestClash? taken) ∧
    (∀ {taken : List SlotRange} {width : Nat}, width ≤ slotLimit →
      (∀ start, (SlotRange.wrapped start width).slots.length ≤ slotLimit) ∧
        SlotRange.firstFree taken width ≤ slotLimit ∧
        (∀ bound, (∀ t ∈ taken, t.stop ≤ bound) → bound + width ≤ slotLimit →
          SlotRange.firstFree taken width + width ≤ slotLimit) ∧
        ∀ tries, SlotRange.tryStarts taken width tries =
          if SlotRange.firstFree taken width < tries then some (SlotRange.firstFree taken width) else none) ∧
    ∀ name source, (∃ shader, Shader.load name source = .ok shader) ∨
      ∃ e, Shader.load name source = .error e ∧ e.fault ≠ .nestingLimit := by
  refine ⟨fun phrase stands inside ran => ?_, fun routine stands within ran => ?_, fun recursion enough => ?_,
    fun collection ran => collection.pays _ _ _ (Nat.zero_le _) ran,
    fun read parsed => Shader.sizeOf_body_le read parsed, fun claims => ?_, fun fits => ?_, ?_⟩
  · -- In front of a token, a phrase takes one.
    have front : 1 ≤ _ := stands.length_pos inside
    exact (phrase.advances.passes _ _ _ front ran).standsAt stands inside.le
  · exact (routine.advances.passes _ _ _ (Nat.zero_le _) ran).standsAt stands within
  · exact ⟨recursion.bounded.steady enough, fun e failed => recursion.bounded.settles enough failed⟩
  · exact ⟨SlotRequest.length_slots_claim claims, SlotRange.find?_isTaken_slots _⟩
  · exact ⟨fun start => SlotRange.length_slots_wrapped start _, SlotRange.firstFree_le_slotLimit _ fits,
      fun bound bounded room => SlotRange.firstFree_add_le bounded room, SlotRange.tryStarts_eq _ fits⟩
  · intro name source
    cases loaded : Shader.load name source with
    | ok shader => exact .inl ⟨shader, rfl⟩
    | error e => exact .inr ⟨e, rfl, Shader.settled_load name source e loaded⟩

/-- A wide array of uniforms, and a uniform that is looked for a place behind it. -/
def wide : String :=
  "#version 310 es\n" ++
  "layout(local_size_x = 1) in;\n" ++
  "layout(location = 0) uniform uint a[100000];\n" ++
  "uniform uint b;\n" ++
  "void main() \x7b\n" ++
  "  uint c = a[1] + b;\n" ++
  "\x7d\n"

/-- What is read from `wide`: few tokens, a body of a single statement, and a location far behind. -/
theorem read_wide : ∃ tokens s, tokenize wide = .ok tokens ∧ Shader.parse "wide" wide = .ok s ∧
    Shader.load "wide" wide = .ok s ∧ tokens.length = 42 ∧ Stmt.sizeOf s.body = 5 ∧
      s.uniforms.map UniformDecl.location = [0, 100000] := by
  have outcome : (tokenize wide).toOption.any fun tokens =>
      tokens.length == 42 && (Shader.load "wide" wide).toOption.any fun s =>
        Stmt.sizeOf s.body == 5 && s.uniforms.map UniformDecl.location == [0, 100000] := by
    rw [tokenize, Dispatcher.load_of_toList "wide" rfl, show wide.toList = _ by
      delta wide
      simp only [String.toList_append, String.reduceToList]
      rfl]
    decide +kernel
  obtain ⟨tokens, read, outcome⟩ := exists_ok outcome
  obtain ⟨count, outcome⟩ := Bool.and_eq_true_iff.1 outcome
  obtain ⟨s, loaded, outcome⟩ := exists_ok outcome
  obtain ⟨size, locations⟩ := Bool.and_eq_true_iff.1 outcome
  exact ⟨tokens, s, read, (Shader.parsed_of_load loaded).1, loaded, eq_of_beq count, eq_of_beq size,
    eq_of_beq locations⟩

/-- With as many tries as the deepest recursion of the parser has steps for the tokens, no slot is found behind
the wide array; it takes a try for each of its elements. -/
theorem search_outruns_tokens : ∃ tokens s, tokenize wide = .ok tokens ∧ Shader.load "wide" wide = .ok s ∧
    s.uniforms.map UniformDecl.location = [0, 100000] ∧
    SlotRange.tryStarts [⟨0, 100000⟩] 1 (16 * (tokens.length + 1)) = none ∧
    SlotRange.tryStarts [⟨0, 100000⟩] 1 100000 = none ∧
    SlotRange.tryStarts [⟨0, 100000⟩] 1 100001 = some 100000 := by
  obtain ⟨tokens, s, read, -, loaded, count, -, locations⟩ := read_wide
  have start : SlotRange.firstFree [⟨0, 100000⟩] 1 = 100000 := by decide +kernel
  have tried (tries : Nat) : SlotRange.tryStarts [⟨0, 100000⟩] 1 tries =
      if 100000 < tries then some 100000 else none := by
    rw [SlotRange.tryStarts_eq _ (by decide), start]
  refine ⟨tokens, s, read, loaded, locations, ?_, ?_, ?_⟩
  · rw [tried, count]
    rfl
  · rw [tried]
    rfl
  · rw [tried]
    rfl

/-- The statement `return;` as the whole text. -/
def returning : List Token :=
  [⟨.keyword .leave, "return", ⟨1, 1⟩⟩, ⟨.symbol .semicolon, ";", ⟨1, 7⟩⟩]

/-- `return; }`, where a block ends. -/
def closing : List Token := returning ++ [⟨.symbol .braceClose, "\x7d", ⟨1, 9⟩⟩]

theorem parsing_progresses_return :
    (∃ pos, ParserState.StandsAt returning pos { ParserState.initial returning with rest := [] } ∧
      0 < pos ∧ pos ≤ returning.length) ∧
    (∃ pos, ParserState.StandsAt returning pos { ParserState.initial returning with rest := returning.drop 1 } ∧
      0 ≤ pos ∧ pos ≤ returning.length) ∧
    parseStatement 100 (ParserState.initial returning) = parseStatement 6 (ParserState.initial returning) ∧
    (∃ body s', parseBlock 9 (ParserState.initial closing) = .ok (body, s') ∧ Stmt.sizeOf body = 1 ∧
      s'.rest.length + Stmt.sizeOf body ≤ closing.length) ∧
    (∃ tokens s, tokenize wide = .ok tokens ∧ Shader.parse "wide" wide = .ok s ∧ Stmt.sizeOf s.body = 5 ∧
      Stmt.sizeOf s.body ≤ tokens.length) ∧
    (SlotRange.slots ⟨0, 100000⟩).find? (SlotRange.isTaken [⟨70000, 70001⟩]) = some 70000 ∧
    SlotRange.tryStarts [⟨0, 100000⟩] 1 200000 = some 100000 := by
  have stands := ParserState.standsAt_initial returning
  have claims : SlotRequest.claim? ⟨some 0, 100000, ⟨1, 1⟩⟩ = some ⟨0, 100000⟩ := by decide +kernel
  have closed : parseBlock 9 (ParserState.initial closing) =
      .ok ([.leave 1], { ParserState.initial closing with rest := [] }) := rfl
  obtain ⟨phrases, routines, recursions, collections, bodies, clashes, searches, -⟩ := parsing_progresses
  refine ⟨phrases .statement stands (by decide) rfl, routines .next? stands (by decide) rfl,
    (recursions .statement (by decide)).1, ⟨_, _, closed, rfl, collections (.block 9) closed⟩, ?_, ?_, ?_⟩
  · obtain ⟨tokens, s, read, parsed, -, -, size, -⟩ := read_wide
    exact ⟨tokens, s, read, parsed, size, bodies read parsed⟩
  · rw [(clashes claims).2]
    decide +kernel
  · rw [(searches (by decide)).2.2.2]
    decide +kernel

end Parser

end ComputeShader
