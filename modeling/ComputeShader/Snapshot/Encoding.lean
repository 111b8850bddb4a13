import ComputeShader.Json.Reader
import ComputeShader.Json.Record
import ComputeShader.Json.Writer
import ComputeShader.Snapshot.Basic

/-! # Snapshots as JSON

`Snapshot.encode` writes the one text of a snapshot, with resources in ascending order of their
bindings; `Snapshot.decode?` reads it back, and any other document with the same fields. Reading
checks the range of every number, but not that contents fit the extents beside them.
-/

namespace ComputeShader

/-! ## Writing -/

def Diagnostic.toJson (d : Diagnostic) : Json :=
  .object [("kind", .string d.kind.name), ("message", .string d.message),
    ("occurrences", .nat d.occurrences), ("first_invocation", .nat d.firstInvocation)]

def BufferSnapshot.toJson (b : BufferSnapshot) : Json :=
  .object [("name", .string b.name), ("element", .string b.element.name),
    ("lanes", .nats (b.lanes.map UInt32.toNat))]

def ImageSnapshot.toJson (i : ImageSnapshot) : Json :=
  .object [("name", .string i.name), ("format", .string i.format.name),
    ("width", .nat i.width.toNat), ("height", .nat i.height.toNat),
    ("texels", .nats (i.texels.map UInt8.toNat))]

/-- An object with a member for each binding. -/
def Bindings.toJson {α : Type} (item : α → Json) (b : Bindings α) : Json :=
  .object (b.entries.map fun (key, value) => (toString key, item value))

namespace Snapshot

def toJson (s : Snapshot) : Json :=
  .object [("fixture", .string s.shader), ("buffers", s.buffers.toJson BufferSnapshot.toJson),
    ("images", s.images.toJson ImageSnapshot.toJson),
    ("diagnostics", .array (s.diagnostics.map Diagnostic.toJson))]

/-- The text of a snapshot. -/
def encode (s : Snapshot) : String := s.toJson.pretty

end Snapshot

/-! ## Reading -/

def Diagnostic.ofJson? (j : Json) : Option Diagnostic := do
  match ← j.fields? .json .ignored ["kind", "message", "occurrences", "first_invocation"] with
  | [kind, message, occurrences, first] =>
    some {
      kind := ← Json.required (Json.constant .json ErrorKind.all ErrorKind.name) kind
      message := ← Json.required Json.asString? message
      occurrences := ← Json.required Json.asUInt64? occurrences
      firstInvocation := ← Json.required Json.asUInt64? first }
  | _ => none

/-- A type by its name. -/
def ValueType.ofJson? (j : Json) : Option ValueType := j.asString?.bind ValueType.ofName?

def BufferSnapshot.ofJson? (j : Json) : Option BufferSnapshot := do
  match ← j.fields? .json .ignored ["name", "element", "lanes"] with
  | [name, element, lanes] =>
    some {
      name := ← Json.required Json.asString? name
      element := ← Json.required ValueType.ofJson? element
      lanes := ← Json.required (Json.listOf Json.asUInt32?) lanes }
  | _ => none

def ImageSnapshot.ofJson? (j : Json) : Option ImageSnapshot := do
  match ← j.fields? .json .ignored ["name", "format", "width", "height", "texels"] with
  | [name, format, width, height, texels] =>
    some {
      name := ← Json.required Json.asString? name
      format := ← Json.required (Json.constant .json TexelFormat.all TexelFormat.name) format
      width := ← Json.required Json.asUInt32? width
      height := ← Json.required Json.asUInt32? height
      texels := ← Json.required
        (Json.listOf fun j => (j.asNatBelow? 256).map UInt8.ofNat) texels }
  | _ => none

/-- The binding that a key writes in decimal digits, without a superfluous zero in front. -/
def bindingOfKey? (key : String) : Option Binding :=
  match Json.wholeDigits? key.toList with
  | some (digits, []) =>
    let n := digitsValue 10 digits
    if n < 4294967296 then some (UInt32.ofNat n) else none
  | _ => none

/-- A map from the members of an object; of a repeated key the last value counts. -/
def Bindings.ofJson? {α : Type} (item : Json → Option α) : Json → Option (Bindings α)
  | .object members =>
    (members.mapM fun (key, j) => do some ((← bindingOfKey? key), (← item j))).map Bindings.ofList
  | _ => none

namespace Snapshot

def ofJson? (j : Json) : Option Snapshot := do
  match ← j.fields? .json .ignored ["fixture", "buffers", "images", "diagnostics"] with
  | [shader, buffers, images, diagnostics] =>
    some {
      shader := ← Json.required Json.asString? shader
      buffers := ← Json.optional .empty (Bindings.ofJson? BufferSnapshot.ofJson?) buffers
      images := ← Json.optional .empty (Bindings.ofJson? ImageSnapshot.ofJson?) images
      diagnostics := ← Json.optional [] (Json.listOf Diagnostic.ofJson?) diagnostics }
  | _ => none

/-- The snapshot that a text holds. -/
def decode? (text : String) : Option Snapshot := (Json.parse? text).bind ofJson?

end Snapshot

end ComputeShader
