import ComputeShader.Comparison.Basic
import ComputeShader.Error

/-! # Checking expectations

A case may say what single elements and texels of the results must hold. A resource or element that
is not there is a divergence; a literal that does not fit the declared type is an error.
-/

namespace ComputeShader

/-- The value of a literal in an expectation, or an invalid seed. -/
def expectedValue (target : ExpectTarget) (value : Except LiteralFault Value) :
    Except EngineError Value :=
  match value with
  | .ok v => .ok v
  | .error fault => .error (.invalidSeed ("expectation on " ++ target.text) (.literal fault))

/-- The divergence of a finding, unless it is a value with lanes that all agree. -/
def findingDivergence? (epsilon : Option Single) (target : ExpectTarget) (expected : Value) :
    Finding → Option Divergence
  | .value v =>
    let kind := LaneKind.ofScalarKind expected.kind
    if (diffLanes kind epsilon expected.bits v.bits).isEmpty then none
    else some (.expectation target expected (.value v))
  | nothing => some (.expectation target expected nothing)

/-- Check a single expectation. -/
def checkExpectation (epsilon : Option Single) (s : Snapshot) (e : Expectation) :
    Except EngineError (Option Divergence) :=
  match e.target with
  | .buffer binding index =>
    match s.buffers.get? binding with
    | none => .ok (some (.missing (.buffer binding) .observed))
    | some b => do
      let expected ← expectedValue e.target (e.value.toValue b.element)
      let finding := (b.element? index).elim (.pastLength b.length) .value
      return findingDivergence? epsilon e.target expected finding
  | .image binding x y =>
    match s.images.get? binding with
    | none => .ok (some (.missing (.image binding) .observed))
    | some i => do
      let expected ← expectedValue e.target ((e.value.toTexel i.format).map i.format.decode)
      let finding := (i.texel? x y).elim (.outsideExtent i.width i.height) .value
      return findingDivergence? epsilon e.target expected finding

/-- Check the expectations of a case in turn. -/
def checkExpectations (epsilon : Option Single) (s : Snapshot) (expectations : List Expectation) :
    Except EngineError Comparison := do
  return (← expectations.mapM (checkExpectation epsilon s)).filterMap id

end ComputeShader
