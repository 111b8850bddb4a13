import ComputeShader.Comparison.Basic
import ComputeShader.Report.Table

/-! # Reporting divergences

A table of lanes for each resource whose lanes diverge, then one table for everything else.
-/

namespace ComputeShader

namespace LaneDiff

/-- The position of a lane: its element, and its component where an element has several. -/
def label (d : LaneDiff) (width : Nat) : String :=
  if 1 < width then
    toString (d.lane / width) ++ "." ++ ["x", "y", "z", "w"].getD (d.lane % min width 4) ""
  else toString d.lane

/-- The absolute difference, of floats in scientific notation. -/
def absoluteText (d : LaneDiff) (k : LaneKind) : String :=
  match d.absolute k with
  | none => "N/A"
  | some x => if k.isFloat then x.scientificText 3 else x.fixedText 0

/-- The relative difference in percent. -/
def relativeText (d : LaneDiff) (k : LaneKind) : String :=
  match d.relative k with
  | none => "N/A"
  | some x => (x.mul (Double.ofInt 100)).fixedText 2 ++ "%"

def row (d : LaneDiff) (k : LaneKind) (width : Nat) : List String :=
  [d.label width, k.text d.expected, k.text d.observed, d.absoluteText k] ++
    if k.isFloat then [d.relativeText k] else []

end LaneDiff

/-- The table of the lanes of one resource, with names for the two sides. -/
def laneTable (k : LaneKind) (width : Nat) (side₁ side₂ : String) (diffs : List LaneDiff) : Table where
  header := ["#", side₁, side₂] ++ if k.isFloat then ["Δ abs", "Δ %"] else ["Δ"]
  rows := diffs.map fun d => d.row k width
  isHeaderCentred := true

namespace Divergence

/-- The row of a divergence without lanes. -/
def row? : Divergence → Option (List String)
  | missing resource .expected => some [resource.text, "--", "present"]
  | missing resource .observed => some [resource.text, "present", "--"]
  | shape resource expected observed => some [resource.text, expected.text, observed.text]
  | expectation target expected observed => some [target.text, expected.text, observed.text]
  | lanes _ _ _ _ => none

/-- The heading and the table of a divergence of lanes, and a blank line. -/
def section? (side₁ side₂ : String) : Divergence → Option String
  | lanes resource k width diffs =>
    some (resource.text ++ " (" ++ k.name ++ ", " ++ toString diffs.length ++ " lane(s) differ)\n" ++
      (laneTable k width side₁ side₂ diffs).textWithLimit ++ "\n\n")
  | _ => none

end Divergence

/-- Everything in which results diverge, with names for the two sides. -/
def Comparison.report (c : Comparison) (side₁ side₂ : String) : String :=
  let rows := c.filterMap Divergence.row?
  String.join (c.filterMap (Divergence.section? side₁ side₂)) ++
    if rows.isEmpty then "" else (Table.mk ["", side₁, side₂] rows true).textWithLimit ++ "\n"

end ComputeShader
