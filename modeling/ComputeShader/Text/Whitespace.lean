/-! # Whitespace

The characters with the Unicode property White_Space, and splitting and trimming by them.
-/

namespace ComputeShader.Text

/-- The characters of the property White_Space. -/
def isWhitespace (c : Char) : Bool :=
  let n := c.toNat
  (9 ≤ n && n ≤ 13) || n == 0x20 || n == 0x85 || n == 0xa0 || n == 0x1680 ||
    (0x2000 ≤ n && n ≤ 0x200a) || n == 0x2028 || n == 0x2029 || n == 0x202f || n == 0x205f ||
    n == 0x3000

/-- A text without the whitespace at both ends. -/
def trim (text : List Char) : List Char :=
  ((text.dropWhile isWhitespace).reverse.dropWhile isWhitespace).reverse

/-- Collect words: `word` holds, in reverse, the characters since the last whitespace. -/
def wordsFrom (word : List Char) : List Char → List (List Char)
  | [] => if word.isEmpty then [] else [word.reverse]
  | c :: text =>
    if isWhitespace c then
      if word.isEmpty then wordsFrom [] text else word.reverse :: wordsFrom [] text
    else wordsFrom (c :: word) text

/-- The words between runs of whitespace. -/
def words (text : List Char) : List String :=
  (wordsFrom [] text).map String.ofList

/-- The text with a given beginning removed. -/
def strip? : List Char → List Char → Option (List Char)
  | [], text => some text
  | p :: ps, c :: text => if p = c then strip? ps text else none
  | _ :: _, [] => none

/-- The parts before and after the first occurrence of a character. -/
def splitOnce? (mark : Char) : List Char → Option (List Char × List Char)
  | [] => none
  | c :: text =>
    if c = mark then some ([], text)
    else (splitOnce? mark text).map fun (before, after) => (c :: before, after)

end ComputeShader.Text
