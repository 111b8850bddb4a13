/-! # Columns of text

How many columns of a terminal a text takes: two for the wide characters of East Asian scripts and
for pictographs, none for combining marks and invisible characters, and one for any other.
-/

namespace ComputeShader.Text

/-- Ranges of combining marks and invisible characters. -/
def zeroWidthRanges : List (Nat × Nat) :=
  [(0x300, 0x36f), (0x483, 0x489), (0x591, 0x5bd), (0x610, 0x61a), (0x64b, 0x65f),
    (0x1ab0, 0x1aff), (0x1dc0, 0x1dff), (0x200b, 0x200f), (0x202a, 0x202e), (0x2060, 0x2064),
    (0x20d0, 0x20ff), (0xfe00, 0xfe0f), (0xfe20, 0xfe2f), (0xfeff, 0xfeff)]

/-- Ranges of wide characters. -/
def wideRanges : List (Nat × Nat) :=
  [(0x1100, 0x115f), (0x231a, 0x231b), (0x2614, 0x2615), (0x26a1, 0x26a1), (0x2705, 0x2705),
    (0x274c, 0x274c), (0x2e80, 0x303e), (0x3041, 0x4dbf), (0x4e00, 0xa4cf), (0xa960, 0xa97f),
    (0xac00, 0xd7a3), (0xf900, 0xfaff), (0xfe30, 0xfe6f), (0xff01, 0xff60), (0xffe0, 0xffe6),
    (0x17000, 0x18cff), (0x1b000, 0x1b2ff), (0x1f300, 0x1f320), (0x1f32d, 0x1f335),
    (0x1f337, 0x1f37c), (0x1f37e, 0x1f393), (0x1f3e0, 0x1f3f0), (0x1f400, 0x1f43e),
    (0x1f440, 0x1f440), (0x1f442, 0x1f4fc), (0x1f4ff, 0x1f53d), (0x1f595, 0x1f596),
    (0x1f5fb, 0x1f64f), (0x1f680, 0x1f6c5), (0x1f90c, 0x1f93a), (0x1f93c, 0x1f945),
    (0x1f947, 0x1f9ff), (0x20000, 0x3fffd)]

def inRanges (ranges : List (Nat × Nat)) (c : Char) : Bool :=
  ranges.any fun (low, high) => low ≤ c.toNat && c.toNat ≤ high

def charWidth (c : Char) : Nat :=
  if inRanges zeroWidthRanges c then 0 else if inRanges wideRanges c then 2 else 1

/-- The number of columns of a line. -/
def width (line : String) : Nat := (line.toList.map charWidth).foldr (· + ·) 0

end ComputeShader.Text
