import ComputeShader.Proofs.SpacedTokens
import ComputeShader.Proofs.WrittenTokens

/-! # Spellings of integers

An integer literal may be spelled in decimal, octal or hexadecimal digits, with small or capital letters.
Every spelling of 32 bits is one token, and it is read back as an `int` or a `uint` of these bits.
-/

namespace ComputeShader

/-- The bases of integer literals. -/
inductive Radix where
  | decimal
  | octal
  | hexadecimal
  deriving DecidableEq, Repr

def Radix.base : Radix → Nat
  | decimal => 10
  | octal => 8
  | hexadecimal => 16

/-- The base of a literal, and which of its letters are capitals: the one in front of hexadecimal digits, the
digits above nine and the mark of a `uint`. -/
structure Spelling where
  radix : Radix
  capitalBase : Bool := false
  capitalDigits : Bool := false
  capitalMark : Bool := false
  deriving DecidableEq, Repr

/-- An integer of 32 bits and how it is written. -/
structure WrittenInteger where
  bits : UInt32
  isUnsigned : Bool
  spelling : Spelling
  deriving DecidableEq, Repr

/-- A letter of a digit, small or a capital. -/
def styled (capital : Bool) (c : Char) : Char := if capital then c.toUpper else c

namespace WrittenInteger

def value (w : WrittenInteger) : Scalar :=
  if w.isUnsigned then .uint w.bits else .int w.bits.toInt32

/-- What stands in front of the digits. -/
def intro (w : WrittenInteger) : List Char :=
  match w.spelling.radix with
  | .decimal => []
  | .octal => ['0']
  | .hexadecimal => ['0', styled w.spelling.capitalBase 'x']

def digits (w : WrittenInteger) : List Char :=
  (Nat.toDigits w.spelling.radix.base w.bits.toNat).map (styled w.spelling.capitalDigits)

/-- What stands behind the digits. -/
def mark (w : WrittenInteger) : List Char :=
  if w.isUnsigned then [styled w.spelling.capitalMark 'u'] else []

def text (w : WrittenInteger) : String := String.ofList (w.intro ++ w.digits ++ w.mark)

end WrittenInteger

/-! ## Digits -/

theorem Radix.one_lt_base (r : Radix) : 1 < r.base := by cases r <;> decide

open ComputeShader.Parser in
theorem digitIn?_styled (r : Radix) (capital : Bool) {d : Nat} (small : d < r.base) :
    digitIn? r.base (styled capital d.digitChar) = some d := by
  have all : ∀ d < r.base, digitIn? r.base (styled capital d.digitChar) = some d := by
    cases r <;> cases capital <;> decide
  exact all d small

/-- The digits of a number, with their values. -/
theorem exists_digits (r : Radix) (n : Nat) : ∃ ds : List Nat, Nat.toDigits r.base n = ds.map Nat.digitChar ∧
    (∀ d ∈ ds, d < r.base) ∧ ds.foldl (fun n d => n * r.base + d) 0 = n := by
  have several := r.one_lt_base
  induction n using Nat.strongRecOn with
  | _ n ih =>
    rw [Nat.toDigits_eq_if several]
    split
    · next small => exact ⟨[n], rfl, by simpa using small, by simp⟩
    · next large =>
      have last : n % r.base < r.base := Nat.mod_lt _ (Nat.zero_lt_of_lt several)
      obtain ⟨ds, written, all, value⟩ := ih (n / r.base) (Nat.div_lt_self (by omega) several)
      refine ⟨ds ++ [n % r.base], by rw [written, List.map_append]; rfl, ?_, ?_⟩
      · exact List.forall_mem_append.2 ⟨all, by simpa using last⟩
      · rw [List.foldl_append, value, List.foldl_cons, List.foldl_nil, Nat.mul_comm]
        exact Nat.div_add_mod n r.base

namespace WrittenInteger

variable {w : WrittenInteger}

theorem digits_ne_nil (w : WrittenInteger) : w.digits ≠ [] := by
  simp [digits, Nat.toDigits_ne_nil]

/-- What the letters of all digits have in common. -/
theorem forall_digits {P : Char → Prop}
    (holds : ∀ d < w.spelling.radix.base, P (styled w.spelling.capitalDigits d.digitChar)) :
    ∀ c ∈ w.digits, P c := by
  obtain ⟨ds, written, small, -⟩ := exists_digits w.spelling.radix w.bits.toNat
  intro c member
  rw [digits, written, List.map_map] at member
  obtain ⟨d, inside, rfl⟩ := List.mem_map.1 member
  exact holds d (small d inside)

theorem digits_hex (w : WrittenInteger) : ∀ c ∈ w.digits, Lexer.isHexDigit c ∧ c ≠ 'u' ∧ c ≠ 'U' := by
  refine forall_digits ?_
  cases w.spelling.radix <;> cases w.spelling.capitalDigits <;> decide

theorem digits_isDigit (plain : w.spelling.radix ≠ .hexadecimal) : ∀ c ∈ w.digits, c.isDigit := by
  refine forall_digits ?_
  revert plain
  cases w.spelling.radix <;> cases w.spelling.capitalDigits <;> decide

/-- The digits are read as the number that they spell. -/
theorem mapM_digits (w : WrittenInteger) : ∃ ds,
    w.digits.mapM (Parser.digitIn? w.spelling.radix.base) = some ds ∧
      ds.foldl (fun n d => n * w.spelling.radix.base + d) 0 = w.bits.toNat := by
  obtain ⟨ds, written, small, value⟩ := exists_digits w.spelling.radix w.bits.toNat
  refine ⟨ds, ?_, value⟩
  rw [digits, written, List.map_map]
  clear written value
  induction ds with
  | nil => rfl
  | cons d ds ih =>
    obtain ⟨first, later⟩ := List.forall_mem_cons.1 small
    rw [List.map_cons, List.mapM_cons, ih later, Function.comp_apply, digitIn?_styled _ _ first]
    rfl

/-- A decimal number with several digits does not begin with a zero. -/
theorem decimal_zero {c : Char} {cs : List Char} (decimal : w.spelling.radix = .decimal)
    (chars : w.digits = '0' :: c :: cs) : False := by
  have zero : ∀ d < 10, styled w.spelling.capitalDigits d.digitChar = '0' → d = 0 := by
    cases w.spelling.capitalDigits <;> decide
  obtain ⟨ds, written, small, -⟩ := exists_digits w.spelling.radix w.bits.toNat
  rw [digits, written, List.map_map] at chars
  rw [decimal] at written small
  obtain ⟨d, rest, rfl, first, more⟩ := List.map_eq_cons_iff.1 chars
  obtain ⟨d', rest, rfl, -, -⟩ := List.map_eq_cons_iff.1 more
  obtain rfl := zero d (small d List.mem_cons_self) first
  exact Json.leading_digit written rfl

/-! ## Reading -/

theorem integerDigits_text (w : WrittenInteger) :
    Parser.integerDigits (w.intro ++ w.digits) = (w.spelling.radix.base, w.digits) := by
  obtain ⟨c, cs, chars⟩ := List.exists_cons_of_ne_nil w.digits_ne_nil
  cases radix : w.spelling.radix with
  | hexadecimal =>
    rw [intro, radix, chars]
    cases w.spelling.capitalBase <;> rfl
  | octal =>
    have digit : c.isDigit := digits_isDigit (by simp [radix]) c (chars ▸ List.mem_cons_self)
    rw [intro, radix, chars]
    dsimp only [List.cons_append, List.nil_append]
    rw [Parser.integerDigits.eq_3]
    · rfl
    · rintro rfl
      cases digit
    · rintro rfl
      cases digit
  | decimal =>
    have digit : c.isDigit := digits_isDigit (by simp [radix]) c (chars ▸ List.mem_cons_self)
    rw [intro, radix, List.nil_append, Parser.integerDigits.eq_4]
    · rfl
    · intro rest same
      exact decimal_zero radix same
    · intro rest same
      exact decimal_zero radix same
    · intro d rest same
      exact decimal_zero radix same

/-- The last character marks the literals of type `uint`. -/
theorem getLast?_text (w : WrittenInteger) :
    (w.intro ++ w.digits ++ w.mark).getLast?.any (fun c => c == 'u' || c == 'U') = w.isUnsigned := by
  cases unsigned : w.isUnsigned with
  | true =>
    have marked : w.mark = [styled w.spelling.capitalMark 'u'] := if_pos unsigned
    rw [marked, List.getLast?_concat]
    cases w.spelling.capitalMark <;> rfl
  | false =>
    have unmarked : w.mark = [] := if_neg (by simp [unsigned])
    obtain ⟨front, last, chars⟩ := (List.eq_nil_or_concat w.digits).resolve_left w.digits_ne_nil
    obtain ⟨-, small, capital⟩ := w.digits_hex last (by simp [chars])
    rw [unmarked, List.append_nil, chars, List.concat_eq_append, ← List.append_assoc,
      List.getLast?_concat]
    simp [small, capital]

/-- A spelling is read as the integer that it spells. -/
theorem integerValue?_text (w : WrittenInteger) : Parser.integerValue? w.text = some w.value := by
  obtain ⟨ds, read, value⟩ := w.mapM_digits
  have small : w.bits.toNat < 4294967296 := w.bits.toNat_lt
  have unmarked : (if w.isUnsigned then (w.intro ++ w.digits ++ w.mark).dropLast
      else w.intro ++ w.digits ++ w.mark) = w.intro ++ w.digits := by
    cases unsigned : w.isUnsigned with
    | true => simp [mark, unsigned]
    | false => simp [mark, unsigned]
  unfold Parser.integerValue?
  rw [text, String.toList_ofList]
  simp only [getLast?_text, unmarked, integerDigits_text, read, Option.map_some, value,
    Option.bind_some, if_pos small, UInt32.ofNat_toNat]
  rfl

/-! ## Splitting -/

/-- What follows the digits of a spelling: its mark, and the end or a space. -/
theorem mark_append (w : WrittenInteger) {tail : List Char} (ended : Lexer.Ended tail) :
    (∀ c ∈ (w.mark ++ tail).head?, c = 'u' ∨ c = 'U' ∨ c = ' ') ∧
      Lexer.unsignedMark (w.mark ++ tail) = w.mark.length := by
  cases unsigned : w.isUnsigned with
  | true =>
    have marked : w.mark = [styled w.spelling.capitalMark 'u'] := if_pos unsigned
    rw [marked]
    cases w.spelling.capitalMark <;> exact ⟨by rintro c ⟨⟩; decide, rfl⟩
  | false =>
    have unmarked : w.mark = [] := if_neg (by simp [unsigned])
    rw [unmarked, List.nil_append]
    refine ⟨fun c first => .inr (.inr (ended c first)), ?_⟩
    cases tail with
    | nil => rfl
    | cons c tail =>
      obtain rfl := ended c rfl
      rfl

/-- Where neither a base nor an exponent follows, digits are an integer. -/
theorem munchNumber_digits (w : WrittenInteger) (first : Char) {ds tail : List Char}
    (digits : ∀ c ∈ ds, c.isDigit) (ended : Lexer.Ended tail) :
    Lexer.munchNumber first (ds ++ (w.mark ++ tail)) = (.token .intLiteral, ds.length + w.mark.length) := by
  obtain ⟨next, marks⟩ := w.mark_append ended
  have length : Lexer.span Char.isDigit (ds ++ (w.mark ++ tail)) = ds.length := by
    refine Lexer.span_append digits fun c head => ?_
    obtain rfl | rfl | rfl := next c head <;> rfl
  have based : Lexer.hexTail (ds ++ (w.mark ++ tail)) = 0 := by
    have head : ∀ c ∈ (ds ++ (w.mark ++ tail)).head?, c ≠ 'x' ∧ c ≠ 'X' := by
      intro c head
      cases ds with
      | nil => obtain rfl | rfl | rfl := next c head <;> decide
      | cons d ds =>
        obtain rfl := Option.some.inj head
        have digit := digits d List.mem_cons_self
        constructor <;> rintro rfl <;> cases digit
    cases chars : ds ++ (w.mark ++ tail) with
    | nil => rfl
    | cons c cs =>
      obtain ⟨small, capital⟩ := head c (by rw [chars]; rfl)
      simp [Lexer.hexTail, small, capital]
  unfold Lexer.munchNumber
  rw [based, length]
  dsimp only
  rw [ite_self, if_neg (Nat.lt_irrefl 0), List.drop_left, ← marks]
  cases chars : w.mark ++ tail with
  | nil => rfl
  | cons c cs =>
    obtain rfl | rfl | rfl := next c (by rw [chars]; rfl) <;> rfl

/-- A base is followed by its digits. -/
theorem munchNumber_hexadecimal (w : WrittenInteger) {tail : List Char} (ended : Lexer.Ended tail) :
    Lexer.munchNumber '0' (styled w.spelling.capitalBase 'x' :: (w.digits ++ (w.mark ++ tail))) =
      (.token .intLiteral, 1 + w.digits.length + w.mark.length) := by
  obtain ⟨next, marks⟩ := w.mark_append ended
  have length : Lexer.span Lexer.isHexDigit (w.digits ++ (w.mark ++ tail)) = w.digits.length := by
    refine Lexer.span_append (fun c member => (w.digits_hex c member).1) fun c head => ?_
    obtain rfl | rfl | rfl := next c head <;> rfl
  have some : 0 < w.digits.length := List.length_pos_iff.2 w.digits_ne_nil
  have based : Lexer.hexTail (styled w.spelling.capitalBase 'x' :: (w.digits ++ (w.mark ++ tail))) =
      1 + w.digits.length + w.mark.length := by
    rw [Lexer.hexTail, length, List.drop_left, marks]
    cases w.spelling.capitalBase <;> simp [styled, some]
  unfold Lexer.munchNumber
  rw [if_pos rfl, based, if_pos (by omega)]

theorem isBlank_digit {c : Char} (digit : c.isDigit) : Lexer.isBlank c = false :=
  Lexer.isBlank_eq_false digit (by decide)

theorem isWordStart_digit {c : Char} (digit : c.isDigit) : Lexer.isWordStart c = false := by
  have bounds : 48 ≤ c.toNat ∧ c.toNat ≤ 57 := Char.isDigit_iff_toNat.1 digit
  have all : ∀ n < 10, Lexer.isWordStart (Char.ofNat (48 + n)) = false := by decide
  have same : Char.ofNat (48 + (c.toNat - 48)) = c := by
    rw [Nat.add_sub_of_le bounds.1, Char.ofNat_toNat]
  rw [← same]
  exact all _ (by omega)

theorem munch_digit {c : Char} (digit : c.isDigit) (text : List Char) :
    Lexer.munch c text = Lexer.munchNumber c text := by
  have notDirective : c ≠ '#' := by
    rintro rfl
    cases digit
  rw [Lexer.munch.eq_def, if_neg (by simp [isBlank_digit digit]), if_neg notDirective,
    if_neg (by simp [isWordStart_digit digit]), if_pos digit]

/-- Every spelling is a token of its own. -/
theorem separate_text (w : WrittenInteger) (pos : Position) :
    Lexer.Separate ⟨.intLiteral, w.text, pos⟩ := by
  obtain ⟨c, cs, chars⟩ := List.exists_cons_of_ne_nil w.digits_ne_nil
  cases radix : w.spelling.radix with
  | hexadecimal =>
    have written : w.text.toList =
        '0' :: (styled w.spelling.capitalBase 'x' :: (w.digits ++ w.mark)) := by
      simp [text, intro, radix]
    refine ⟨_, _, written, rfl, fun tail ended => ?_⟩
    rw [munch_digit rfl, List.cons_append, List.append_assoc, w.munchNumber_hexadecimal ended]
    simp
    omega
  | octal =>
    have plain : w.spelling.radix ≠ .hexadecimal := by simp [radix]
    have written : w.text.toList = '0' :: (w.digits ++ w.mark) := by
      simp [text, intro, radix]
    refine ⟨_, _, written, rfl, fun tail ended => ?_⟩
    rw [munch_digit rfl, List.append_assoc, w.munchNumber_digits '0' (digits_isDigit plain) ended]
    simp
  | decimal =>
    have plain : w.spelling.radix ≠ .hexadecimal := by simp [radix]
    obtain ⟨first, rest⟩ := List.forall_mem_cons.1 (chars ▸ digits_isDigit plain)
    have written : w.text.toList = c :: (cs ++ w.mark) := by
      simp [text, intro, radix, chars]
    refine ⟨_, _, written, isBlank_digit first, fun tail ended => ?_⟩
    rw [munch_digit first, List.append_assoc, w.munchNumber_digits c rest ended]
    simp

end WrittenInteger

end ComputeShader
