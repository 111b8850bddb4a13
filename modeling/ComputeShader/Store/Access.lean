import ComputeShader.Store.Basic

/-! # Accesses of invocations

The operations that a running invocation performs on the store. Each one checks everything before it
changes anything, and logs the elements it touches. An operation that fails leaves the store as it
was, the diagnostics of an index out of bounds apart.
-/

namespace ComputeShader

namespace Store

/-! ## Resources and indices -/

def bufferAt (binding : Binding) : StoreM Buffer := do
  match (← get).buffers.get? binding with
  | some b => return b
  | none => throw (.typeMismatch (.undeclared "buffer" binding.toNat) ⟨"a declared buffer", "nothing"⟩)

def imageAt (binding : Binding) : StoreM Image := do
  match (← get).images.get? binding with
  | some i => return i
  | none => throw (.typeMismatch (.undeclared "image" binding.toNat) ⟨"a declared image", "nothing"⟩)

def setBuffer (binding : Binding) (i : Nat) (bits : List UInt32) : StoreM Unit :=
  modify fun s => { s with buffers := s.buffers.modify binding fun b => b.set i bits }

def setImage (binding : Binding) (t : Nat) (bytes : List UInt8) : StoreM Unit :=
  modify fun s => { s with images := s.images.modify binding fun i => i.set t bytes }

/-- Bring an index into `0 .. extent` by the policy for indices out of bounds. With no result the
access is dropped: a read gives zero, a write does nothing. -/
def resolve (label : String) (index : Int) (extent : Nat) (me : InvocationId) :
    StoreM (Option Nat) := do
  if 0 ≤ index ∧ index < extent then return some index.toNat
  else if extent = 0 then
    modify fun s => s.record .outOfBounds ("access to empty " ++ label ++ " discarded") me
    return none
  else
    let intro := "index " ++ toString index ++ " out of bounds for " ++ label ++ " (extent " ++
      toString extent ++ "), "
    match (← get).oobPolicy with
    | .clampAndReport =>
      let nearest := if index < 0 then 0 else extent - 1
      modify fun s => s.record .outOfBounds (intro ++ "clamped to " ++ toString nearest) me
      return some nearest
    | .discardAndReport =>
      modify fun s => s.record .outOfBounds (intro ++ "discarded") me
      return none
    | .fault => throw (.outOfBounds label index extent)

/-- Log an access to an element whose pattern is `current`. -/
def observe (resource : Resource) (index : Nat) (current : List UInt32) (touch : Touch)
    (me : InvocationId) : StoreM Unit :=
  modify fun s =>
    let (log, conflict?) := s.log.observe ⟨resource, index⟩ current touch me
    { s with log, conflicts := s.conflicts ++ conflict?.toList }

/-! ## Buffers -/

/-- Load an element. -/
def read (binding : Binding) (index : Int) (me : InvocationId) : StoreM Value := do
  let b ← bufferAt binding
  match ← resolve (b.label binding) index b.length me with
  | none => return Value.zero b.element
  | some i =>
    observe (.buffer binding) i (b.bits i) .read me
    return b.value i

def checkElement (b : Buffer) (binding : Binding) (v : Value) : StoreM Unit :=
  if v.ty = b.element then pure ()
  else throw (.typeMismatch (.store (b.label binding)) ⟨b.element.name, v.ty.name⟩)

/-- Store an element of the declared type. -/
def write (binding : Binding) (index : Int) (v : Value) (me : InvocationId) : StoreM Unit := do
  let b ← bufferAt binding
  checkElement b binding v
  match ← resolve (b.label binding) index b.length me with
  | none => return ()
  | some i =>
    observe (.buffer binding) i (b.bits i) (.write v.bits) me
    setBuffer binding i v.bits

/-- Replace an element by a function of its old value, for stores to a part of an element. The
access is logged as a store alone. -/
def update (binding : Binding) (index : Int) (me : InvocationId)
    (change : Value → Except EngineError Value) : StoreM Unit := do
  let b ← bufferAt binding
  match ← resolve (b.label binding) index b.length me with
  | none => return ()
  | some i =>
    match change (b.value i) with
    | .error e => throw e
    | .ok v =>
      checkElement b binding v
      observe (.buffer binding) i (b.bits i) (.write v.bits) me
      setBuffer binding i v.bits

/-- The length of a buffer. -/
def length (binding : Binding) : StoreM Nat := do
  return (← bufferAt binding).length

/-! ## Atomics -/

/-- The pattern that an atomic operation leaves in place of `old`. -/
def atomicBits (op : AtomicOp) (signed : Bool) (old : UInt32) (compare? : Option UInt32)
    (data : UInt32) : UInt32 :=
  let lower := if signed then old.toInt32 < data.toInt32 else old < data
  match op with
  | .add => old + data
  | .and => old &&& data
  | .or => old ||| data
  | .xor => old ^^^ data
  | .min => if lower then old else data
  | .max => if lower then data else old
  | .exchange => data
  | .compSwap => if compare? = some old then data else old

/-- The operands of an atomic, which are scalars of the element's kind. -/
def atomicOperands (site : AccessSite) (kind : ScalarKind) (operands : List Value) :
    StoreM (List Scalar) :=
  operands.mapM fun v =>
    match v.asScalar? with
    | some s =>
      if s.kind = kind then pure s else throw (.typeMismatch site ⟨kind.name, v.ty.name⟩)
    | none => throw (.typeMismatch site ⟨kind.name, v.ty.name⟩)

/-- Split the operands into what to compare with, for a swap, and the data. -/
def atomicArguments (site : AccessSite) (op : AtomicOp) (operands : List Scalar) :
    StoreM (Option UInt32 × UInt32) :=
  match op, operands with
  | .compSwap, [compare, data] => pure (some compare.toBits, data.toBits)
  | .compSwap, operands => throw (.typeMismatch site ⟨"2 operands", toString operands.length⟩)
  | _, [data] => pure (none, data.toBits)
  | _, operands => throw (.typeMismatch site ⟨"1 operand", toString operands.length⟩)

/-- The integer kind of an atomic's element. -/
def atomicKind (site : AccessSite) (element : ValueType) : StoreM ScalarKind :=
  match element with
  | .scalar .int => pure .int
  | .scalar .uint => pure .uint
  | other => throw (.typeMismatch site ⟨"int or uint", other.name⟩)

/-- An atomic read-modify-write of an integer element. The result is the value it held before. -/
def atomic (op : AtomicOp) (binding : Binding) (index : Int) (operands : List Value)
    (me : InvocationId) : StoreM Value := do
  let b ← bufferAt binding
  let site := AccessSite.atomic (b.label binding)
  let kind ← atomicKind site b.element
  let operands ← atomicOperands site kind operands
  let (compare?, data) ← atomicArguments site op operands
  match ← resolve (b.label binding) index b.length me with
  | none => return Value.zero b.element
  | some i =>
    observe (.buffer binding) i (b.bits i) .atomic me
    let old := (b.bits i).headD 0
    setBuffer binding i [atomicBits op (kind = .int) old compare? data]
    return b.value i

/-! ## Images -/

/-- The position of a texel, each coordinate brought into bounds, `x` first. -/
def texelPosition (i : Image) (binding : Binding) (x y : Int) (me : InvocationId) :
    StoreM (Option Nat) := do
  match ← resolve ("x coordinate of " ++ i.label binding) x i.width.toNat me with
  | none => return none
  | some x =>
    match ← resolve ("y coordinate of " ++ i.label binding) y i.height.toNat me with
    | none => return none
    | some y => return some (i.position x y)

/-- Load a texel. -/
def imageLoad (binding : Binding) (x y : Int) (me : InvocationId) : StoreM Value := do
  let i ← imageAt binding
  match ← texelPosition i binding x y me with
  | none => return Value.zero i.format.loadType
  | some t =>
    observe (.image binding) t (LittleEndian.words (i.bytes t)) .read me
    return i.format.decode (i.bytes t)

/-- Store a texel of the format's load type. -/
def imageStore (binding : Binding) (x y : Int) (v : Value) (me : InvocationId) :
    StoreM Unit := do
  let i ← imageAt binding
  match i.format.encode v with
  | .error e => throw (.typeMismatch (.imageStore binding) e)
  | .ok bytes =>
    match ← texelPosition i binding x y me with
    | none => return ()
    | some t =>
      observe (.image binding) t (LittleEndian.words (i.bytes t)) (.write (LittleEndian.words bytes)) me
      setImage binding t bytes

/-- Atomically add to a texel of one integer. The result is the value it held before. -/
def imageAtomicAdd (binding : Binding) (x y : Int) (v : Value) (me : InvocationId) :
    StoreM Value := do
  let i ← imageAt binding
  let site := AccessSite.imageAtomic binding
  if !i.format.supportsAtomics then
    throw (.typeMismatch site ⟨"an r32i or r32ui image", i.format.name⟩)
  else if v.ty ≠ .scalar i.format.kind then
    throw (.typeMismatch site ⟨i.format.kind.name, v.ty.name⟩)
  else
    match ← texelPosition i binding x y me with
    | none => return Value.zero (.scalar i.format.kind)
    | some t =>
      let words := LittleEndian.words (i.bytes t)
      observe (.image binding) t words .atomic me
      let old := words.headD 0
      setImage binding t (LittleEndian.bytes (old + (v.lane 0).toBits))
      return Value.ofBits (.scalar i.format.kind) [old]

/-- The extent of an image. -/
def imageSize (binding : Binding) : StoreM (UInt32 × UInt32) := do
  let i ← imageAt binding
  return (i.width, i.height)

/-! ## Uniforms and textures -/

/-- A uniform, or an element of an array of them. -/
def uniform (slot : Nat) (element : Option Int) (me : InvocationId) : StoreM Value := do
  match (← get).uniforms[slot]? with
  | none => throw (.typeMismatch (.undeclared "uniform" (slot % 4294967296)) ⟨"a declared uniform", "nothing"⟩)
  | some u =>
    match element with
    | none =>
      if u.isArray then
        throw (.typeMismatch (.uniform u.name)
          ⟨"an indexed element", u.ty.name ++ "[" ++ toString u.values.length ++ "]"⟩)
      else return u.values.headD (Value.zero u.ty)
    | some index =>
      match ← resolve ("uniform `" ++ u.name ++ "`") index u.values.length me with
      | none => return Value.zero u.ty
      | some i => return u.values.getD i (Value.zero u.ty)

/-- Look up a texture through a sampler. -/
def sample (sampler : Sampler) (binding : Binding) (r : SampleRequest) : StoreM (List Single) := do
  match (← get).textures.get? binding with
  | none => throw (.typeMismatch (.undeclared "sampler" binding.toNat) ⟨"a declared sampler", "nothing"⟩)
  | some t =>
    match sampler.sample t r with
    | .ok lanes => return lanes
    | .error reason => throw (.samplerUnavailable binding reason)

end Store

end ComputeShader
