import ComputeShader.Case.Basic
import ComputeShader.Comparison.Lane
import ComputeShader.Snapshot.Basic
import ComputeShader.Store.Race

/-! # Comparing snapshots

`compareSnapshots` lists where two snapshots diverge: buffers before images, each in ascending order
of their bindings. Resources of different shape are not compared any further. Names and diagnostics
do not count.
-/

namespace ComputeShader

inductive Side where
  | expected
  | observed
  deriving DecidableEq, Repr, Inhabited

def Side.name : Side → String
  | expected => "expected"
  | observed => "observed"

/-- The type and the extent of a resource. -/
inductive Shape where
  | buffer (length : Nat) (element : ValueType)
  | image (width height : UInt32) (format : TexelFormat)
  deriving DecidableEq, Repr

def Shape.text : Shape → String
  | buffer length element => toString length ++ " x " ++ element.name
  | image width height format => toString width ++ "x" ++ toString height ++ " " ++ format.name

def BufferSnapshot.shape (b : BufferSnapshot) : Shape := .buffer b.length b.element

def ImageSnapshot.shape (i : ImageSnapshot) : Shape := .image i.width i.height i.format

/-- What a snapshot holds where an expectation looks. -/
inductive Finding where
  | value (v : Value)
  | pastLength (length : Nat)
  | outsideExtent (width height : UInt32)
  deriving DecidableEq, Repr

def Finding.text : Finding → String
  | value v => v.text
  | pastLength length => "nothing (length " ++ toString length ++ ")"
  | outsideExtent width height =>
    "nothing (extent " ++ toString width ++ "x" ++ toString height ++ ")"

def ExpectTarget.text : ExpectTarget → String
  | buffer binding index => "buffer binding " ++ toString binding ++ " [" ++ toString index ++ "]"
  | image binding x y =>
    "image binding " ++ toString binding ++ " [" ++ toString x ++ ", " ++ toString y ++ "]"

/-- One way in which results are not as expected. -/
inductive Divergence where
  /-- A resource that only one side has. -/
  | missing (resource : Resource) (absentFrom : Side)
  | shape (resource : Resource) (expected observed : Shape)
  /-- Lanes that do not agree; an element or texel has `width` of them. -/
  | lanes (resource : Resource) (kind : LaneKind) (width : Nat) (diffs : List LaneDiff)
  | expectation (target : ExpectTarget) (expected : Value) (observed : Finding)
  deriving DecidableEq, Repr

private def expectedObserved (subject expected observed : String) : String :=
  subject ++ ": expected " ++ expected ++ ", observed " ++ observed

def Divergence.text : Divergence → String
  | missing resource absentFrom =>
    resource.text ++ " is missing from the " ++ absentFrom.name ++ " snapshot"
  | shape resource expected observed => expectedObserved resource.text expected.text observed.text
  | lanes resource _ _ diffs => resource.text ++ ": " ++ toString diffs.length ++ " lane(s) differ"
  | expectation target expected observed =>
    expectedObserved target.text expected.text observed.text

/-- Everything in which results diverge; results without divergences match. -/
abbrev Comparison := List Divergence

/-! ## Resources -/

/-- The keys of either of two maps, in ascending order. -/
def Bindings.jointKeys {α β : Type} (a : Bindings α) (b : Bindings β) : List Binding :=
  (Bindings.ofList ((a.keys ++ b.keys).map fun key => (key, ()))).keys

/-- The divergence of lanes that do not agree, if there are any. -/
def laneDivergence? (resource : Resource) (kind : LaneKind) (width : Nat)
    (diffs : List LaneDiff) : Option Divergence :=
  if diffs.isEmpty then none else some (.lanes resource kind width diffs)

def compareBuffers (epsilon : Option Single) (resource : Resource) (e o : BufferSnapshot) :
    Option Divergence :=
  if e.shape ≠ o.shape then some (.shape resource e.shape o.shape)
  else
    let kind := LaneKind.ofScalarKind e.element.kind
    laneDivergence? resource kind e.element.components (diffLanes kind epsilon e.lanes o.lanes)

/-- How the lanes of an image are read: bytes for normalized channels and words for others. -/
def TexelFormat.laneKind (f : TexelFormat) : LaneKind :=
  if f.isNormalized then .unsigned else .ofScalarKind f.kind

/-- One lane for each channel. -/
def ImageSnapshot.lanes (i : ImageSnapshot) : List UInt32 :=
  if i.format.isNormalized then i.texels.map UInt8.toUInt32 else LittleEndian.words i.texels

def compareImages (epsilon : Option Single) (resource : Resource) (e o : ImageSnapshot) :
    Option Divergence :=
  if e.shape ≠ o.shape then some (.shape resource e.shape o.shape)
  else
    let kind := e.format.laneKind
    laneDivergence? resource kind e.format.channels (diffLanes kind epsilon e.lanes o.lanes)

/-- Compare the resources of two maps with the same binding. -/
def Bindings.compare {α : Type} (resource : Binding → Resource)
    (compare : Resource → α → α → Option Divergence) (expected observed : Bindings α) :
    Comparison :=
  (expected.jointKeys observed).filterMap fun key =>
    match expected.get? key, observed.get? key with
    | some e, some o => compare (resource key) e o
    | some _, none => some (.missing (resource key) .observed)
    | none, _ => some (.missing (resource key) .expected)

/-- Where two snapshots diverge. -/
def compareSnapshots (epsilon : Option Single) (expected observed : Snapshot) : Comparison :=
  expected.buffers.compare .buffer (compareBuffers epsilon) observed.buffers ++
    expected.images.compare .image (compareImages epsilon) observed.images

end ComputeShader
