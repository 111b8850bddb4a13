import ComputeShader.Shader.Parser.Statement
import ComputeShader.Shader.Slots
import ComputeShader.Source.Lexer
import ComputeShader.Text.Whitespace

/-! # Parsing a whole shader

The version, the header with its directives and global declarations, and `main`. Bindings and
locations are assigned when the header is complete, so that the body refers to them.
-/

namespace ComputeShader

/-- A declaration whose slot is not assigned yet, and where it starts. -/
structure Declared (α : Type) where
  explicit : Option UInt32
  pos : Position
  decl : α
  deriving Repr

/-- What the header has declared so far. -/
structure Header where
  extensions : List ExtensionDirective := []
  localSize : Option Extent3 := none
  buffers : List (Declared BufferDecl) := []
  images : List (Declared ImageDecl) := []
  samplers : List (Declared SamplerDecl) := []
  uniforms : List (Declared UniformDecl) := []
  deriving Repr, Inhabited

/-- One entry of a `layout(…)` qualifier. -/
structure LayoutItem where
  name : String
  value : Option UInt32
  pos : Position
  deriving DecidableEq, Repr

/-- The storage keyword of a declaration. -/
inductive Storage where
  | input
  | buffer
  | uniform
  deriving DecidableEq, Repr

/-- The qualifiers in front of a declaration, and where they start. -/
structure Qualifiers where
  pos : Position
  layout : List LayoutItem := []
  access : Option Access := none
  storage : Option Storage := none
  deriving Repr

namespace Parser

/-! ## Directives -/

/-- The characters of a directive after its `#`. -/
def directiveText (t : Token) : List Char := t.lexeme.toList.drop 1

/-- The first token, which must be `#version 310 es`. -/
def versionDirective : Parser Nat := do
  match ← next? with
  | none => failUnmet .emptySource
  | some t =>
    match Text.words (directiveText t) with
    | ["version", "310", "es"] => return 310
    | "version" :: _ => failAt t.pos (.unsupportedVersion t.lexeme)
    | _ => failAt t.pos .versionMissing

/-- `NAME : BEHAVIOR` after `#extension`. -/
def extension? (text : List Char) : Option ExtensionDirective := do
  let (name, behavior) ← Text.splitOnce? ':' text
  let name := Text.trim name
  let behavior := String.ofList (Text.trim behavior)
  guard (!name.isEmpty && ["require", "enable", "warn", "disable"].contains behavior)
  return ⟨String.ofList name, behavior⟩

/-- A directive after the first one, which must enable or disable an extension. -/
def directive (header : Header) : Parser Header := do
  match ← next? with
  | none => return header
  | some t =>
    match Text.strip? "extension".toList (Text.trim (directiveText t)) with
    | none => failAt t.pos (.unsupportedDirective t.lexeme)
    | some rest =>
      match extension? rest with
      | some e => return { header with extensions := header.extensions ++ [e] }
      | none => failAt t.pos (.malformedExtension t.lexeme)

/-- `precision QUALIFIER TYPE;`, which has no effect. -/
def precisionStatement : Parser Unit := do
  expectKeyword .precision
  let qualifier ← expectIdentifier "a precision qualifier"
  if !precisionQualifiers.contains qualifier.lexeme then
    failAt qualifier.pos (.unknownPrecision qualifier.lexeme)
  let _ ← expectIdentifier "a type"
  expectSymbol .semicolon

/-! ## Qualifiers -/

def layoutItems : Nat → Parser (List LayoutItem)
  | 0 => do failAt (← here) .nestingLimit
  | fuel + 1 => do
    let name ← expectIdentifier "a layout qualifier"
    let value ← if ← consumeSymbol .assign then some <$> expectCount else pure none
    let item := LayoutItem.mk name.lexeme value name.pos
    if ← consumeSymbol .comma then return item :: (← layoutItems fuel)
    else return [item]

def layoutQualifier : Parser (List LayoutItem) := do
  expectKeyword .layout
  expectSymbol .parenOpen
  let items ← layoutItems ((← get).rest.length + 1)
  expectSymbol .parenClose
  return items

/-- Qualifiers of identifiers that have no effect. -/
def inertQualifiers : List String :=
  precisionQualifiers ++ ["coherent", "volatile", "restrict"]

def accessQualifier? : String → Option Access
  | "readonly" => some .readOnly
  | "writeonly" => some .writeOnly
  | _ => none

def storageKeyword? : TokenKind → Option Storage
  | .keyword .input => some .input
  | .keyword .buffer => some .buffer
  | .keyword .uniform => some .uniform
  | _ => none

/-- The qualifiers of a declaration, in any order. -/
def qualifiersFrom : Nat → Qualifiers → Parser Qualifiers
  | 0, _ => do failAt (← here) .nestingLimit
  | fuel + 1, q => do
    match (← get).rest with
    | [] => return q
    | t :: _ =>
      if t.kind = .keyword .layout then
        let items ← layoutQualifier
        qualifiersFrom fuel { q with layout := q.layout ++ items }
      else if t.kind = .identifier then
        match accessQualifier? t.lexeme with
        | some access =>
          if q.access.any (· != access) then failUnmet .exclusiveQualifiers
          skip
          qualifiersFrom fuel { q with access := some access }
        | none =>
          if inertQualifiers.contains t.lexeme then
            skip
            qualifiersFrom fuel q
          else return q
      else
        match q.storage, storageKeyword? t.kind with
        | none, some storage =>
          skip
          qualifiersFrom fuel { q with storage := some storage }
        | _, _ => return q

def qualifiers : Parser Qualifiers := do
  qualifiersFrom ((← get).rest.length + 1) { pos := ← here }

/-- The value given for `key`, at most once; entries without a value must satisfy `bare`. -/
def layoutSlot (items : List LayoutItem) (key : String) (bare : String → Bool) (owner : String) :
    Parser (Option UInt32) :=
  items.foldlM (fun slot item =>
    match item.value with
    | some v =>
      if item.name = key then
        if slot.isSome then failAt item.pos (.repeatedQualifier key) else pure (some v)
      else failAt item.pos (.unexpectedQualifier item.name owner)
    | none =>
      if bare item.name then pure slot
      else failAt item.pos (.unexpectedQualifier item.name owner)) none

/-! ## Declarations -/

def localSizeItem (size : Extent3) (item : LayoutItem) : Parser Extent3 := do
  let set : UInt32 → Extent3 ← match item.name with
    | "local_size_x" => pure fun v => { size with x := v }
    | "local_size_y" => pure fun v => { size with y := v }
    | "local_size_z" => pure fun v => { size with z := v }
    | other => failAt item.pos (.unexpectedQualifier other "`in`")
  match item.value with
  | none | some 0 => failAt item.pos (.zeroLocalSize item.name)
  | some v => return set v

/-- `layout(local_size_x = N, …) in;` -/
def localSize (q : Qualifiers) (header : Header) : Parser Header := do
  if header.localSize.isSome then failAt q.pos .localSizeTwice
  let size ← q.layout.foldlM localSizeItem ⟨1, 1, 1⟩
  if q.layout.isEmpty then failAt q.pos .inputWithoutLocalSize
  expectSymbol .semicolon
  return { header with localSize := some size }

def blockLayouts : List String := ["std430", "std140", "shared", "packed"]

/-- `buffer BLOCK { TYPE MEMBER[]; } INSTANCE;` after the qualifiers. -/
def bufferBlock (q : Qualifiers) (header : Header) : Parser Header := do
  let explicit ← layoutSlot q.layout "binding" blockLayouts.contains "a buffer block"
  let block ← expectIdentifier "a block name"
  expectSymbol .braceOpen
  skipWhile fun t => t.kind == .identifier && precisionQualifiers.contains t.lexeme
  let ty ← expectIdentifier "a member type"
  let element ← match ValueType.ofName? ty.lexeme with
    | none | some .mat3 => failAt ty.pos (.unsupportedElement ty.lexeme)
    | some element => pure element
  let member ← expectIdentifier "a member name"
  expectSymbol .bracketOpen
  if !(← consumeSymbol .bracketClose) then failUnmet .sizedBufferMember
  expectSymbol .semicolon
  if !(← consumeSymbol .braceClose) then failUnmet .severalBufferMembers
  let blockInstance ← peekIdentifier?
  if blockInstance.isSome then skip
  expectSymbol .semicolon
  let decl : BufferDecl :=
    ⟨0, block.lexeme, blockInstance, member.lexeme, element, q.access.getD .readWrite⟩
  return { header with buffers := header.buffers ++ [⟨explicit, q.pos, decl⟩] }

def imageTypes : List String := ["image2D", "iimage2D", "uimage2D"]

/-- An image, its format among the layout entries without a value. -/
def imageUniform (q : Qualifiers) (ty name : Token) (header : Header) : Parser Header := do
  let bare := q.layout.filter fun i => i.value.isNone
  match bare.filterMap fun i => TexelFormat.ofName? i.name with
  | [] => failAt q.pos (.formatMissing name.lexeme)
  | [format] =>
    let isFormat (n : String) : Bool := (TexelFormat.ofName? n).isSome
    let explicit ← layoutSlot q.layout "binding" isFormat "an image"
    if format.imageType ≠ ty.lexeme then failAt ty.pos (.formatMismatch format ty.lexeme)
    if q.access.isNone ∧ !format.supportsAtomics ∧ format ≠ .r32f then
      failAt q.pos (.accessMissing name.lexeme format)
    expectSymbol .semicolon
    let decl : ImageDecl := ⟨0, name.lexeme, format, q.access.getD .readWrite⟩
    return { header with images := header.images ++ [⟨explicit, q.pos, decl⟩] }
  | _ => failAt q.pos .severalFormats

def rejectAccess (q : Qualifiers) : Parser Unit :=
  if q.access.isSome then failAt q.pos .accessOnUniform else pure ()

def samplerUniform (q : Qualifiers) (name : Token) (header : Header) : Parser Header := do
  rejectAccess q
  let explicit ← layoutSlot q.layout "binding" (fun _ => false) "a sampler"
  expectSymbol .semicolon
  return { header with samplers := header.samplers ++ [⟨explicit, q.pos, ⟨0, name.lexeme⟩⟩] }

/-- The length of an array in brackets, if there is one. -/
def arrayLength (pos : Position) : Parser (Option Nat) := do
  if ← consumeSymbol .bracketOpen then
    let length ← expectCount
    expectSymbol .bracketClose
    if length = 0 then failAt pos .emptyUniformArray
    return some length.toNat
  else return none

def valueUniform (q : Qualifiers) (ty name : Token) (header : Header) : Parser Header := do
  match ValueType.ofName? ty.lexeme with
  | none => failAt ty.pos (.unsupportedUniform ty.lexeme)
  | some valueType =>
    rejectAccess q
    let explicit ← layoutSlot q.layout "location" (fun _ => false) "a uniform"
    let length ← arrayLength q.pos
    expectSymbol .semicolon
    let decl : UniformDecl := ⟨0, name.lexeme, valueType, length⟩
    return { header with uniforms := header.uniforms ++ [⟨explicit, q.pos, decl⟩] }

/-- A uniform after the qualifiers: an image, a sampler or a value. -/
def uniformDeclaration (q : Qualifiers) (header : Header) : Parser Header := do
  let ty ← expectIdentifier "a uniform type"
  let name ← expectIdentifier "a uniform name"
  if imageTypes.contains ty.lexeme then imageUniform q ty name header
  else if ty.lexeme = "sampler2D" then samplerUniform q name header
  else valueUniform q ty name header

def declaration (header : Header) : Parser Header := do
  let q ← qualifiers
  match q.storage with
  | some .input =>
    if q.access.isSome then failAt q.pos .accessOnInput
    localSize q header
  | some .buffer => bufferBlock q header
  | some .uniform => uniformDeclaration q header
  | none => failAt q.pos .declarationExpected

/-- Everything in front of `main`. -/
def headerFrom : Nat → Header → Parser Header
  | 0, _ => do failAt (← here) .nestingLimit
  | fuel + 1, header => do
    match ← peek? with
    | none => failUnmet .mainMissing
    | some .directive => headerFrom fuel (← directive header)
    | some (.keyword .precision) =>
      precisionStatement
      headerFrom fuel header
    | some (.keyword .void) => return header
    | some _ => headerFrom fuel (← declaration header)

/-! ## Slots and names -/

/-- Give every declaration its slots. -/
def assigned {α : Type} (owner : String) (width : α → Nat) (set : α → UInt32 → α)
    (decls : List (Declared α)) : Parser (List (Declared α)) := do
  let requests := decls.map fun d => SlotRequest.mk d.explicit (width d.decl) d.pos
  match assignSlots owner requests with
  | .ok slots => return (decls.zip slots).map fun (d, slot) => { d with decl := set d.decl slot }
  | .error e => throw e

def declareGlobal (name : String) (entry : NameEntry) (pos : Position) : Parser Unit := do
  let s ← get
  if (s.names.lookup name).isSome then failAt pos (.declaredTwice name)
  set { s with names := (name, entry) :: s.names }

def bufferName (b : BufferDecl) : String × NameEntry :=
  match b.blockInstance with
  | some name => (name, .entity (.bufferInstance b.binding))
  | none => (b.member, .entity (.bufferArray b.binding))

def uniformEntry (u : UniformDecl) (slot : Nat) : NameEntry :=
  if u.arrayLength.isSome then .entity (.uniformArray slot) else .uniform slot

/-- `void main(void)` and its body. -/
def mainFunction : Parser (List Stmt) := do
  expectKeyword .void
  let name ← expectIdentifier "`main`"
  if name.lexeme ≠ "main" then failAt name.pos .mainOnly
  expectSymbol .parenOpen
  let _ ← consume (.keyword .void)
  expectSymbol .parenClose
  expectSymbol .braceOpen
  blockBody

/-- A whole shader. -/
def shader (name : String) : Parser Shader := do
  let version ← versionDirective
  let header ← headerFrom ((← get).rest.length + 1) {}
  match header.localSize with
  | none => failUnmet .localSizeMissing
  | some localSize =>
    let buffers ← assigned "buffer binding" (fun _ => 1)
      (fun b slot => { b with binding := slot }) header.buffers
    let images ← assigned "image binding" (fun _ => 1)
      (fun i slot => { i with binding := slot }) header.images
    let samplers ← assigned "sampler binding" (fun _ => 1)
      (fun s slot => { s with binding := slot }) header.samplers
    let uniforms ← assigned "uniform location" UniformDecl.width
      (fun u slot => { u with location := slot }) header.uniforms
    buffers.forM fun b => declareGlobal (bufferName b.decl).1 (bufferName b.decl).2 b.pos
    images.forM fun i => declareGlobal i.decl.name (.entity (.image i.decl.binding)) i.pos
    samplers.forM fun s => declareGlobal s.decl.name (.entity (.sampler s.decl.binding)) s.pos
    uniforms.zipIdx.forM fun (u, slot) => declareGlobal u.decl.name (uniformEntry u.decl slot) u.pos
    modify fun s => { s with buffers := buffers.map Declared.decl }
    let body ← mainFunction
    if (← peek?).isSome then failUnmet .inputAfterMain
    return {
      name, version, localSize, body
      extensions := header.extensions
      buffers := buffers.map Declared.decl
      images := images.map Declared.decl
      samplers := samplers.map Declared.decl
      uniforms := uniforms.map Declared.decl
      locals := (← get).locals }

end Parser

/-- The state in front of the first token. -/
def ParserState.initial (tokens : List Token) : ParserState :=
  ⟨tokens, 0, (tokens.getLast?.map Token.pos).getD Position.start, [], [], []⟩

/-- Read a source text as a shader of the given name. -/
def Shader.parse (name source : String) : Except SourceError Shader := do
  match tokenize source with
  | .error e => throw ⟨e.pos, .unexpectedCharacter e.text⟩
  | .ok tokens => (Parser.shader name).run' (ParserState.initial tokens)

end ComputeShader
