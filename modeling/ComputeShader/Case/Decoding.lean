import ComputeShader.Case.Basic
import ComputeShader.Json.Record

/-! # Decoding cases

A case is written as a document of nested records. Fields that nobody asked for are refused, but in
expectations and schedules, which are told apart by the fields that they have.
-/

namespace ComputeShader

open Json (required optional nullable listOf constant counts)

/-! ## Literals -/

/-- An integer that fits 64 bits with a sign is one; any other number is a float. -/
def Literal.ofNumber (i : Int) : Literal :=
  if -9223372036854775808 ≤ i ∧ i < 9223372036854775808 then .int i else .float (Double.ofInt i)

mutual

def Literal.ofJson? : Json → Option Literal
  | .bool b => some (.bool b)
  | .int i => some (.ofNumber i)
  | .float x => some (.float x)
  | .array items => (Literal.ofItems? items).map .list
  | _ => none

def Literal.ofItems? : List Json → Option (List Literal)
  | [] => some []
  | j :: rest => do
    let l ← Literal.ofJson? j
    let ls ← Literal.ofItems? rest
    some (l :: ls)

end

/-! ## Numbers -/

/-- A length or an index, a 64-bit number. -/
def decodeCount (j : Json) : Option Nat := j.asUInt64?

/-- A number of single precision; an integer is rounded once. -/
def decodeSingle : Json → Option Single
  | .int i => some (Single.ofInt i)
  | .float x => some (Single.ofDouble x)
  | _ => none

def decodeExtent (d : Dialect) (j : Json) : Option Extent3 := do
  match ← counts d 3 j with
  | [x, y, z] => some ⟨x, y, z⟩
  | _ => none

def decodePair (d : Dialect) (j : Json) : Option (UInt32 × UInt32) := do
  match ← counts d 2 j with
  | [x, y] => some (x, y)
  | _ => none

/-! ## Conventions -/

/-- The schedule of a kind with the fields that belong to it. -/
def Schedule.ofKind? (kind : String) (seed : Option Json) : Option Schedule :=
  match kind with
  | "sequential" => some .sequential
  | "parallel" => some .parallel
  | "shuffled" => (required Json.asUInt64? seed).map fun n => .shuffled (UInt64.ofNat n)
  | _ => none

/-- A schedule is an object with its kind, or an array that starts with it and holds nothing but
its fields. -/
def Schedule.ofJson? : Json → Option Schedule
  | j@(.object _) => do
    let kind ← required Json.asString? (j.member? "kind")
    Schedule.ofKind? kind (j.member? "seed")
  | .array [.string "shuffled", seed] => Schedule.ofKind? "shuffled" (some seed)
  | .array [.string kind] => Schedule.ofKind? kind none
  | _ => none

def EngineConfig.fieldNames : List String :=
  ["step_budget", "oob_policy", "race_policy", "schedule", "default_buffer_len",
    "default_image_extent", "sampler"]

/-- Conventions that are absent keep their defaults. -/
def EngineConfig.ofJson? (d : Dialect) (j : Json) : Option EngineConfig := do
  let base : EngineConfig := {}
  match ← j.fields? d .refused EngineConfig.fieldNames with
  | [stepBudget, oobPolicy, racePolicy, schedule, bufferLength, extent, sampler] =>
    let extent ← optional (base.imageWidth, base.imageHeight) (decodePair d) extent
    some {
      stepBudget := ← optional base.stepBudget decodeCount stepBudget
      oobPolicy := ← optional base.oobPolicy (constant d OobPolicy.all OobPolicy.name) oobPolicy
      racePolicy := ← optional base.racePolicy (constant d RacePolicy.all RacePolicy.name) racePolicy
      schedule := ← optional base.schedule Schedule.ofJson? schedule
      bufferLength := ← optional base.bufferLength decodeCount bufferLength
      imageWidth := extent.1
      imageHeight := extent.2
      sampler := ← optional base.sampler (constant d Sampler.all Sampler.name) sampler }
  | _ => none

def CompareOptions.ofJson? (d : Dialect) (j : Json) : Option CompareOptions := do
  match ← j.fields? d .refused ["epsilon", "skipped"] with
  | [epsilon, skipped] =>
    some {
      epsilon := ← nullable decodeSingle epsilon
      skipped := ← nullable Json.asString? skipped }
  | _ => none

/-! ## Seeds -/

def decodeIndexed (d : Dialect) (j : Json) : Option (Nat × Literal) := do
  match ← j.fields? d .refused ["index", "value"] with
  | [index, value] => some (← required decodeCount index, ← required Literal.ofJson? value)
  | _ => none

def BufferSeed.ofJson? (d : Dialect) (j : Json) : Option BufferSeed := do
  match ← j.fields? d .refused ["binding", "len", "fill", "data", "set"] with
  | [binding, length, fill, data, set] =>
    some {
      binding := ← required Json.asUInt32? binding
      length := ← nullable decodeCount length
      fill := ← nullable Literal.ofJson? fill
      data := ← optional [] (listOf Literal.ofJson?) data
      set := ← optional [] (listOf (decodeIndexed d)) set }
  | _ => none

def TexelSeed.ofJson? (d : Dialect) (j : Json) : Option TexelSeed := do
  match ← j.fields? d .refused ["x", "y", "value"] with
  | [x, y, value] =>
    some ⟨← required Json.asUInt32? x, ← required Json.asUInt32? y,
      ← required Literal.ofJson? value⟩
  | _ => none

def ImageSeed.ofJson? (d : Dialect) (j : Json) : Option ImageSeed := do
  match ← j.fields? d .refused ["binding", "width", "height", "fill", "data", "texels"] with
  | [binding, width, height, fill, data, texels] =>
    some {
      binding := ← required Json.asUInt32? binding
      width := ← required Json.asUInt32? width
      height := ← required Json.asUInt32? height
      fill := ← nullable Literal.ofJson? fill
      data := ← optional [] (listOf Literal.ofJson?) data
      texels := ← optional [] (listOf (TexelSeed.ofJson? d)) texels }
  | _ => none

def SamplerSeed.ofJson? (d : Dialect) (j : Json) : Option SamplerSeed := do
  match ← j.fields? d .refused ["binding", "width", "height", "pattern"] with
  | [binding, width, height, pattern] =>
    some {
      binding := ← required Json.asUInt32? binding
      texture := {
        width := ← required Json.asUInt32? width
        height := ← required Json.asUInt32? height
        pattern := ← optional .zero (constant d TexturePattern.all TexturePattern.name) pattern } }
  | _ => none

def UniformSeed.ofJson? (d : Dialect) (j : Json) : Option UniformSeed := do
  match ← j.fields? d .refused ["name", "value"] with
  | [name, value] => some ⟨← required Json.asString? name, ← required Literal.ofJson? value⟩
  | _ => none

/-! ## Expectations -/

/-- The target is a buffer element if the fields of one can be read, otherwise a texel. -/
def ExpectTarget.ofMembers? (j : Json) : Option ExpectTarget :=
  let buffer? : Option ExpectTarget := do
    some (.buffer (← required Json.asUInt32? (j.member? "buffer"))
      (← required decodeCount (j.member? "index")))
  let image? : Option ExpectTarget := do
    let binding ← required Json.asUInt32? (j.member? "image")
    let (x, y) ← required (decodePair .json) (j.member? "coord")
    some (.image binding x y)
  buffer?.or image?

def Expectation.ofJson? : Json → Option Expectation
  | j@(.object _) => do
    some ⟨← ExpectTarget.ofMembers? j, ← required Literal.ofJson? (j.member? "value")⟩
  | _ => none

/-! ## Cases -/

def Case.fieldNames : List String :=
  ["fixture", "dispatch", "engine", "compare", "buffer", "image", "sampler", "uniform", "expect",
    "observed"]

def Case.ofJson? (d : Dialect) (j : Json) : Option Case := do
  match ← j.fields? d .refused Case.fieldNames with
  | [source, groups, engine, compare, buffers, images, samplers, uniforms, expectations, observed] =>
    some {
      source := ← required Json.asString? source
      groups := ← optional defaultGroups (decodeExtent d) groups
      engine := ← optional {} (EngineConfig.ofJson? d) engine
      compare := ← optional {} (CompareOptions.ofJson? d) compare
      buffers := ← optional [] (listOf (BufferSeed.ofJson? d)) buffers
      images := ← optional [] (listOf (ImageSeed.ofJson? d)) images
      samplers := ← optional [] (listOf (SamplerSeed.ofJson? d)) samplers
      uniforms := ← optional [] (listOf (UniformSeed.ofJson? d)) uniforms
      expectations := ← optional [] (listOf Expectation.ofJson?) expectations
      observed := ← nullable Json.asString? observed }
  | _ => none

end ComputeShader
