import ComputeShader.Case.Basic
import ComputeShader.Json.Basic

/-! # Writing cases

A case as a document with every field present, but for the reason to skip it.
-/

namespace ComputeShader

mutual

def Literal.toJson : Literal → Json
  | .bool b => .bool b
  | .int i => .int i
  | .float x => .ofDouble x
  | .list items => .array (Literal.itemsToJson items)

def Literal.itemsToJson : List Literal → List Json
  | [] => []
  | l :: rest => l.toJson :: Literal.itemsToJson rest

end

private def word (w : UInt32) : Json := .nat w.toNat

private def words (ws : List UInt32) : Json := .array (ws.map word)

private def literals (ls : List Literal) : Json := .array (ls.map Literal.toJson)

private def literal? (l : Option Literal) : Json := (l.map Literal.toJson).getD .null

def Schedule.toJson (s : Schedule) : Json :=
  .object (("kind", .string s.kindName) ::
    match s with
    | .shuffled seed => [("seed", .nat seed.toNat)]
    | _ => [])

def EngineConfig.toJson (c : EngineConfig) : Json :=
  .object [("step_budget", .nat c.stepBudget), ("oob_policy", .string c.oobPolicy.name),
    ("race_policy", .string c.racePolicy.name), ("schedule", c.schedule.toJson),
    ("default_buffer_len", .nat c.bufferLength),
    ("default_image_extent", words [c.imageWidth, c.imageHeight]),
    ("sampler", .string c.sampler.name)]

def CompareOptions.toJson (c : CompareOptions) : Json :=
  .object (("epsilon", (c.epsilon.map fun x => Json.ofDouble (Double.ofSingle x)).getD .null) ::
    (c.skipped.map fun reason => ("skipped", Json.string reason)).toList)

def BufferSeed.toJson (s : BufferSeed) : Json :=
  .object [("binding", word s.binding), ("len", (s.length.map Json.nat).getD .null),
    ("fill", literal? s.fill), ("data", literals s.data),
    ("set", .array (s.set.map fun (index, l) =>
      .object [("index", .nat index), ("value", l.toJson)]))]

def TexelSeed.toJson (t : TexelSeed) : Json :=
  .object [("x", word t.x), ("y", word t.y), ("value", t.value.toJson)]

def ImageSeed.toJson (s : ImageSeed) : Json :=
  .object [("binding", word s.binding), ("width", word s.width), ("height", word s.height),
    ("fill", literal? s.fill), ("data", literals s.data),
    ("texels", .array (s.texels.map TexelSeed.toJson))]

def SamplerSeed.toJson (s : SamplerSeed) : Json :=
  .object [("binding", word s.binding), ("width", word s.texture.width),
    ("height", word s.texture.height), ("pattern", .string s.texture.pattern.name)]

def UniformSeed.toJson (s : UniformSeed) : Json :=
  .object [("name", .string s.name), ("value", s.value.toJson)]

def Expectation.toJson (e : Expectation) : Json :=
  let target := match e.target with
    | .buffer binding index => [("buffer", word binding), ("index", .nat index)]
    | .image binding x y => [("image", word binding), ("coord", words [x, y])]
  .object (target ++ [("value", e.value.toJson)])

def Case.toJson (c : Case) : Json :=
  .object [("fixture", .string c.source), ("dispatch", words c.groups.toList),
    ("engine", c.engine.toJson), ("compare", c.compare.toJson),
    ("buffer", .array (c.buffers.map BufferSeed.toJson)),
    ("image", .array (c.images.map ImageSeed.toJson)),
    ("sampler", .array (c.samplers.map SamplerSeed.toJson)),
    ("uniform", .array (c.uniforms.map UniformSeed.toJson)),
    ("expect", .array (c.expectations.map Expectation.toJson)),
    ("observed", .ofText? c.observed)]

end ComputeShader
