import ComputeShader.Numeric.Decimal
import ComputeShader.Report.Table
import ComputeShader.Snapshot.Basic

/-! # Reporting snapshots

Three views of a snapshot: a table with a row for each resource, a table of the diagnostics, and a
listing of every element and texel.
-/

namespace ComputeShader

/-- Units of sizes from 1024 bytes up. -/
def sizeUnits : List String := ["KiB", "MiB", "GiB", "TiB", "PiB", "EiB"]

/-- The size in the first unit that leaves less than 1024, or in the last one. -/
def sizeIn (bytes : Nat) (scale : Nat) : List String → String
  | [] => ""
  | [unit] => fixedPlaces 1 bytes scale ++ " " ++ unit
  | unit :: units =>
    if bytes < scale * 1024 then fixedPlaces 1 bytes scale ++ " " ++ unit
    else sizeIn bytes (scale * 1024) units

/-- A number of bytes. -/
def sizeText (bytes : Nat) : String :=
  if bytes < 1024 then toString bytes ++ " B" else sizeIn bytes 1024 sizeUnits

namespace BufferSnapshot

def sizeText (b : BufferSnapshot) : String := ComputeShader.sizeText (4 * b.lanes.length)

def row (binding : Binding) (b : BufferSnapshot) : List String :=
  ["buffer " ++ toString binding, b.name, b.element.name, toString b.length, b.sizeText]

def heading (binding : Binding) (b : BufferSnapshot) : String :=
  "## buffer " ++ toString binding ++ " `" ++ b.name ++ "`: " ++ toString b.length ++ " x " ++
    b.element.name ++ " (" ++ b.sizeText ++ ")"

/-- A blank line, the heading, and a line for each element. -/
def listing (binding : Binding) (b : BufferSnapshot) : List String :=
  "" :: b.heading binding :: (List.range b.length).filterMap fun index =>
    (b.element? index).map fun v => toString index ++ ": " ++ v.text

end BufferSnapshot

namespace ImageSnapshot

def sizeText (i : ImageSnapshot) : String := ComputeShader.sizeText i.texels.length

def extentText (i : ImageSnapshot) : String := toString i.width ++ "x" ++ toString i.height

def row (binding : Binding) (i : ImageSnapshot) : List String :=
  ["image " ++ toString binding, i.name, i.format.name, i.extentText, i.sizeText]

def heading (binding : Binding) (i : ImageSnapshot) : String :=
  "## image " ++ toString binding ++ " `" ++ i.name ++ "`: " ++ i.extentText ++ " " ++
    i.format.name ++ " (" ++ i.sizeText ++ ")"

/-- A blank line, the heading, and a line for each texel. -/
def listing (binding : Binding) (i : ImageSnapshot) : List String :=
  "" :: i.heading binding :: (List.range i.height.toNat).flatMap fun y =>
    (List.range i.width.toNat).filterMap fun x =>
      (i.texel? (UInt32.ofNat x) (UInt32.ofNat y)).map fun v =>
        "(" ++ toString x ++ ", " ++ toString y ++ "): " ++ v.text

end ImageSnapshot

namespace Diagnostic

def row (d : Diagnostic) : List String :=
  [d.kind.title, toString d.occurrences, toString d.firstInvocation, d.message]

/-- A blank line, then kind, count and message. -/
def listing (d : Diagnostic) : List String :=
  ["", "! " ++ d.kind.title ++ " x" ++ toString d.occurrences ++ ": " ++ d.message]

end Diagnostic

namespace Snapshot

/-- A row for each resource. -/
def summary (s : Snapshot) : Table where
  header := ["Binding", "Name", "Type", "Extent", "Size"]
  rows := s.buffers.entries.map (fun (binding, b) => b.row binding) ++
    s.images.entries.map fun (binding, i) => i.row binding
  isHeaderCentred := true

/-- A row for each diagnostic, if there are any. -/
def diagnosticsTable? (s : Snapshot) : Option Table :=
  if s.diagnostics.isEmpty then none
  else some ⟨["Kind", "Count", "First", "Message"], s.diagnostics.map Diagnostic.row, false⟩

/-- Every element, texel and diagnostic, a line each. -/
def listing (s : Snapshot) : String :=
  let lines := ["# " ++ s.shader] ++
    s.buffers.entries.flatMap (fun (binding, b) => b.listing binding) ++
    s.images.entries.flatMap (fun (binding, i) => i.listing binding) ++
    s.diagnostics.flatMap Diagnostic.listing
  String.join (lines.map (· ++ "\n"))

end Snapshot

end ComputeShader
