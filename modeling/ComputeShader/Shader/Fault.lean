import ComputeShader.Shader.Model

/-! # What can be wrong with a source text

Each way in which a source text is not a shader, with its wording.
-/

namespace ComputeShader

/-- Something with a name that is not a value by itself. -/
inductive Entity where
  | bufferArray (binding : Binding)
  | bufferInstance (binding : Binding)
  | uniformArray (slot : Nat)
  | image (binding : Binding)
  | sampler (binding : Binding)
  deriving DecidableEq, Repr, Inhabited

def Entity.description : Entity → String
  | bufferArray _ => "a buffer array"
  | bufferInstance _ => "a buffer block instance"
  | uniformArray _ => "a uniform array"
  | image _ => "an image"
  | sampler _ => "a sampler"

/-- What the next token should have been. -/
inductive Unmet where
  | expected (what : String)
  | emptySource
  | mainMissing
  | localSizeMissing
  | inputAfterMain
  | exclusiveQualifiers
  | sizedBufferMember
  | severalBufferMembers
  | openBlock
  | valueReturned
  | localArray
  | expressionMissing
  deriving DecidableEq, Repr

def Unmet.message : Unmet → String
  | expected what => "expected " ++ what
  | emptySource => "empty fixture"
  | mainMissing => "missing `void main(void)`"
  | localSizeMissing => "missing `layout(local_size_x = ...) in;` before `main`"
  | inputAfterMain => "unexpected input after `main`"
  | exclusiveQualifiers => "`readonly` and `writeonly` are exclusive"
  | sizedBufferMember => "buffer members must be runtime-sized arrays `T name[]`"
  | severalBufferMembers => "buffer blocks must hold exactly one member"
  | openBlock => "unterminated block"
  | valueReturned => "`main` can only `return;`"
  | localArray => "local arrays are not supported"
  | expressionMissing => "unexpected end of input in expression"

/-- Why an expression cannot be assigned to. -/
inductive NotAssignable where
  | repeatedComponents
  | uniform
  | builtin
  | other
  deriving DecidableEq, Repr

def NotAssignable.message : NotAssignable → String
  | repeatedComponents => "swizzle with repeated components cannot be assigned"
  | uniform => "uniforms cannot be assigned"
  | builtin => "built-in variables cannot be assigned"
  | other => "expression is not assignable"

/-- What is wrong with a source text. -/
inductive SourceFault where
  | unexpectedCharacter (text : String)
  | unmet (want : Unmet) (found : Option String)
  -- header
  | unsupportedVersion (directive : String)
  | versionMissing
  | unsupportedDirective (directive : String)
  | malformedExtension (directive : String)
  | unknownPrecision (name : String)
  | declarationExpected
  | accessOnInput
  | accessOnUniform
  | repeatedQualifier (key : String)
  | unexpectedQualifier (name owner : String)
  | localSizeTwice
  | zeroLocalSize (name : String)
  | inputWithoutLocalSize
  | unsupportedElement (name : String)
  | formatMissing (image : String)
  | severalFormats
  | formatMismatch (format : TexelFormat) (found : String)
  | accessMissing (image : String) (format : TexelFormat)
  | unsupportedUniform (name : String)
  | emptyUniformArray
  | negativeInteger
  | slotTaken (owner : String) (slot : Nat)
  | declaredTwice (name : String)
  -- body
  | mainOnly
  | typeExpected
  | localDeclaredTwice (name : String)
  | notAssignable (why : NotAssignable)
  | notIndexable (entity : Entity)
  | memberMissing (name : String)
  | fieldUndefined (name : String) (entity : Entity)
  | invalidSwizzle (name : String)
  | invalidFloat (text : String)
  | integerTooLarge (text : String)
  | notAnExpression (text : String)
  | unknownIdentifier (name : String)
  | unsupportedBuiltin (name : String)
  | argumentsMissing (name : String)
  | memoryExpected (name : String)
  | storeAsValue
  | textureArity
  | arity (name : String) (expected found : Nat)
  | notAValue (entity : Entity)
  | wrongArgument (expected found : String)
  | nestingLimit
  -- access qualifiers
  | imageReadonly (binding : Binding)
  | imageWriteonly (binding : Binding)
  | bufferReadonly (label : String)
  | bufferWriteonly (label : String)
  | bufferMissing (binding : Binding)
  | imageMissing (binding : Binding)
  | atomicAccess (name : String)
  | atomicElement (name : String) (element : ValueType)
  | imageAtomic (name : String) (format : TexelFormat)
  deriving DecidableEq, Repr

private def quoted (text : String) : String := "`" ++ text ++ "`"

def SourceFault.message : SourceFault → String
  | unexpectedCharacter text => "unexpected character " ++ quoted text
  | unmet want found => want.message ++ ", found " ++ (found.map quoted).getD "end of input"
  | unsupportedVersion directive =>
    "unsupported " ++ quoted directive ++ ", expected `#version 310 es`"
  | versionMissing => "fixture must start with `#version 310 es`"
  | unsupportedDirective directive => "unsupported preprocessor directive " ++ quoted directive
  | malformedExtension directive => "malformed extension directive " ++ quoted directive
  | unknownPrecision name => "unknown precision qualifier " ++ quoted name
  | declarationExpected => "expected a declaration"
  | accessOnInput => "memory qualifiers are not allowed on `in`"
  | accessOnUniform => "memory qualifiers only apply to buffers and images"
  | repeatedQualifier key => quoted key ++ " given twice"
  | unexpectedQualifier name owner => "unexpected layout qualifier " ++ quoted name ++ " on " ++ owner
  | localSizeTwice => "local size declared twice"
  | zeroLocalSize name => quoted name ++ " needs a non-zero value"
  | inputWithoutLocalSize => "`in` declaration without a local size"
  | unsupportedElement name => "unsupported buffer element type " ++ quoted name
  | formatMissing image => "image " ++ quoted image ++ " needs a format qualifier"
  | severalFormats => "image declares more than one format"
  | formatMismatch format found =>
    "format " ++ quoted format.name ++ " requires " ++ quoted format.imageType ++ ", found " ++
      quoted found
  | accessMissing image format =>
    "image " ++ quoted image ++ " with format " ++ quoted format.name ++
      " must be `readonly` or `writeonly`"
  | unsupportedUniform name => "unsupported uniform type " ++ quoted name
  | emptyUniformArray => "uniform arrays need a non-zero length"
  | negativeInteger => "expected a non-negative integer"
  | slotTaken owner slot => owner ++ " " ++ toString slot ++ " is already in use"
  | declaredTwice name => quoted name ++ " is declared twice"
  | mainOnly => "only `void main(void)` may be defined"
  | typeExpected => "expected a type"
  | localDeclaredTwice name => quoted name ++ " is already declared in `main`"
  | notAssignable why => why.message
  | notIndexable entity => entity.description ++ " cannot be indexed"
  | memberMissing name => "buffer block has no member " ++ quoted name
  | fieldUndefined name entity => quoted ("." ++ name) ++ " is not defined on " ++ entity.description
  | invalidSwizzle name => "invalid swizzle " ++ quoted ("." ++ name)
  | invalidFloat text => "invalid float literal " ++ quoted text
  | integerTooLarge text => "integer literal " ++ quoted text ++ " does not fit in 32 bits"
  | notAnExpression text => "expected an expression, found " ++ quoted text
  | unknownIdentifier name => "unknown identifier " ++ quoted name
  | unsupportedBuiltin name => "unsupported built-in " ++ quoted name
  | argumentsMissing name => quoted name ++ " constructor needs arguments"
  | memoryExpected name => "first argument of " ++ quoted name ++ " must be a buffer element"
  | storeAsValue => "`imageStore` does not return a value"
  | textureArity => "`texture` takes 2 or 3 arguments"
  | arity name expected found =>
    quoted name ++ " takes " ++ toString expected ++ " arguments, found " ++ toString found
  | notAValue entity => entity.description ++ " cannot be used as a value"
  | wrongArgument expected found => "expected " ++ expected ++ ", found " ++ found
  | nestingLimit => "expression nested too deeply"
  | imageReadonly binding =>
    "image binding " ++ toString binding ++ " is readonly and cannot be stored to"
  | imageWriteonly binding =>
    "image binding " ++ toString binding ++ " is writeonly and cannot be loaded"
  | bufferReadonly label => label ++ " is readonly and cannot be assigned"
  | bufferWriteonly label => label ++ " is writeonly and cannot be read"
  | bufferMissing binding => "no buffer at binding " ++ toString binding
  | imageMissing binding => "no image at binding " ++ toString binding
  | atomicAccess name => "atomics need " ++ name ++ " to be readable and writable"
  | atomicElement name element =>
    "atomics need an int or uint element, " ++ name ++ " holds " ++ element.name
  | imageAtomic name format =>
    "image atomics need a read-write r32i or r32ui image, " ++ quoted name ++ " is " ++ format.name

/-- A fault and where it is. -/
structure SourceError where
  pos : Position
  fault : SourceFault
  deriving DecidableEq, Repr

end ComputeShader
