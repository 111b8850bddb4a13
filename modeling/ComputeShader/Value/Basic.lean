import ComputeShader.Value.Scalar

/-! # Values

A value is its type and the 32-bit words it occupies: one for a scalar, nine for a matrix, and for
every vector a register of four, of which the type shows the first two, three or four. Constructing
a vector repeats its first component in the padding; replacing components leaves the padding alone.
-/

namespace ComputeShader

/-- Operand types an operation cannot accept. -/
structure TypeError where
  expected : String
  found : String
  deriving DecidableEq, Repr, Inhabited

def TypeError.message (e : TypeError) : String :=
  "expected " ++ e.expected ++ ", found " ++ e.found

/-- A value of a shader. Its words are patterns that scalars of its kind write. -/
structure Value where
  ty : ValueType
  words : List UInt32
  length_words : words.length = ty.wordCount
  written_words : ∀ w ∈ words, (Scalar.ofBits ty.kind w).toBits = w
  deriving DecidableEq, Repr

namespace Value

/-- The value of type `ty` whose components have the given patterns. Missing components repeat the
first one, which is how the padding of a vector is filled; without any they are zero. -/
def ofBits (ty : ValueType) (bits : List UInt32) : Value where
  ty
  words := (((bits.take ty.wordCount).map fun w => (Scalar.ofBits ty.kind w).toBits).rightpad
    ty.wordCount (Scalar.ofBits ty.kind (bits.headD 0)).toBits)
  length_words := by simp [List.rightpad, Nat.add_sub_of_le (Nat.min_le_left _ _)]
  written_words := by
    intro w member
    rcases List.mem_append.1 member with member | member
    · obtain ⟨bits, _, rfl⟩ := List.mem_map.1 member
      exact Scalar.toBits_ofBits_toBits ty.kind bits
    · rw [List.eq_of_mem_replicate member]
      exact Scalar.toBits_ofBits_toBits ty.kind _

/-- The value of type `ty` with the given components, a matrix column by column. -/
def ofComponents (ty : ValueType) (components : List Scalar) : Value :=
  ofBits ty (components.map Scalar.toBits)

def ofScalar (s : Scalar) : Value := ofComponents (.scalar s.kind) [s]

def bool (b : Bool) : Value := ofScalar (.bool b)

def uint (u : UInt32) : Value := ofScalar (.uint u)

/-- The value with all components zero or false. -/
def zero (ty : ValueType) : Value := ofBits ty []

def uvec3 (x y z : UInt32) : Value :=
  ofBits (.vector .uint .three) [x, y, z]

def vec3 (x y z : Single) : Value :=
  ofBits (.vector .float .three) [x.bits, y.bits, z.bits]

def vec4 (lanes : List Single) : Value :=
  ofBits (.vector .float .four) (lanes.map Single.bits)

instance : Inhabited Value := ⟨zero default⟩

/-! ## Components -/

def kind (v : Value) : ScalarKind := v.ty.kind

/-- The patterns of the components, without padding. -/
def bits (v : Value) : List UInt32 := v.words.take v.ty.components

/-- The components, a matrix column by column. -/
def components (v : Value) : List Scalar := v.bits.map (Scalar.ofBits v.kind)

/-- The component at a position. -/
def lane (v : Value) (i : Nat) : Scalar := Scalar.ofBits v.kind (v.words.getD i 0)

/-- The component at a position of a float value. -/
def float (v : Value) (i : Nat) : Single := ⟨v.words.getD i 0⟩

@[simp] theorem length_bits (v : Value) : v.bits.length = v.ty.components := by
  simp [bits, v.length_words, v.ty.components_le_wordCount]

@[simp] theorem length_components (v : Value) : v.components.length = v.ty.components := by
  simp [components]

/-- The scalar held by a value of scalar type. -/
def asScalar? (v : Value) : Option Scalar :=
  match v.ty with
  | .scalar _ => some (v.lane 0)
  | _ => none

def asIndex? (v : Value) : Option Int := v.asScalar?.bind Scalar.asIndex?

def asBool? (v : Value) : Option Bool :=
  match v.asScalar? with
  | some (.bool b) => some b
  | _ => none

def asFloat? (v : Value) : Option Single :=
  match v.asScalar? with
  | some (.float x) => some x
  | _ => none

/-- The number of valid subscripts. -/
def elementCount (v : Value) : Nat :=
  match v.ty.element? with
  | some (_, count) => count
  | none => 0

/-! ## Equality -/

/-- Equal types and equal patterns of the components. -/
def bitEq (a b : Value) : Bool :=
  a.ty == b.ty && a.bits == b.bits

/-- The equality of the shading language, which compares whole registers: equal types and, word by
word, equal scalars. -/
def eq (a b : Value) : Bool :=
  a.ty == b.ty &&
    (a.words.zip b.words).all fun (x, y) => (Scalar.ofBits a.kind x).eq (Scalar.ofBits b.kind y)

/-! ## Subscripts -/

private def notIndexable (v : Value) : TypeError :=
  ⟨"an indexable vector or matrix", v.ty.name⟩

/-- `v[i]`: a component of a vector or a column of a matrix. -/
def element (v : Value) (i : Nat) : Except TypeError Value :=
  match v.ty with
  | .vector kind size =>
    if i < size.toNat then .ok (ofScalar (Scalar.ofBits kind (v.words.getD i 0)))
    else .error v.notIndexable
  | .mat3 =>
    if i < 3 then .ok (ofBits (.vector .float .three) ((v.words.drop (3 * i)).take 3))
    else .error v.notIndexable
  | .scalar _ => .error v.notIndexable

/-- The value with the words from position `start` on replaced. -/
def overwrite (v : Value) (start : Nat) (new : List UInt32) : Value where
  ty := v.ty
  words := v.words.mapIdx fun i w =>
    if start ≤ i then (Scalar.ofBits v.kind (new.getD (i - start) w)).toBits else w
  length_words := by simp [v.length_words]
  written_words := by
    intro w member
    obtain ⟨i, bound, rfl⟩ := List.mem_mapIdx.1 member
    split
    · exact Scalar.toBits_ofBits_toBits v.ty.kind _
    · exact v.written_words _ (List.getElem_mem bound)

/-- `v` with `v[i]` replaced by a value of the element's type. -/
def withElement (v : Value) (i : Nat) (new : Value) : Except TypeError Value :=
  match v.ty with
  | .vector kind size =>
    if new.ty = .scalar kind ∧ i < size.toNat then .ok (v.overwrite i new.bits)
    else .error ⟨kind.name, new.ty.name⟩
  | .mat3 =>
    if new.ty = .vector .float .three ∧ i < 3 then .ok (v.overwrite (3 * i) new.bits)
    else .error ⟨"vec3", new.ty.name⟩
  | .scalar _ => .error v.notIndexable

/-! ## Swizzles -/

private def notSwizzlable (v : Value) : TypeError :=
  ⟨"a vector to swizzle", v.ty.name⟩

private def outOfRange (v : Value) (component : Nat) : TypeError :=
  ⟨"component " ++ toString component ++ " in range", v.ty.name⟩

/-- The selected components of a vector, in the given order. -/
def swizzle (v : Value) (selection : List Nat) : Except TypeError Value :=
  match v.ty with
  | .vector kind size => do
    let words ← selection.mapM fun c =>
      if c < size.toNat then pure (v.words.getD c 0) else throw (v.outOfRange c)
    match ValueType.ofCount? kind selection.length with
    | some ty => pure (ofBits ty words)
    | none => throw ⟨"one to four components", v.ty.name⟩
  | _ => .error v.notSwizzlable

/-- `v` with the selected components replaced in turn by those of `new`. -/
def withSwizzle (v : Value) (selection : List Nat) (new : Value) : Except TypeError Value :=
  match v.ty with
  | .vector kind size =>
    if ValueType.ofCount? kind selection.length = some new.ty then
      (selection.zip new.bits).foldlM (fun v (c, w) =>
        if c < size.toNat then .ok (v.overwrite c [w]) else .error (v.outOfRange c)) v
    else
      let expected := match ValueType.ofCount? kind selection.length with
        | some ty => ty.name
        | none => ValueType.vectorName kind selection.length
      .error ⟨expected, new.ty.name⟩
  | _ => .error v.notSwizzlable

/-- A scalar by itself; the components of other values in parentheses after the type's name. -/
def text (v : Value) : String :=
  match v.components with
  | [s] => s.text
  | components => v.ty.name ++ "(" ++ ", ".intercalate (components.map Scalar.text) ++ ")"

end Value

end ComputeShader
