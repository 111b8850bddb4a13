import ComputeShader.Proofs.LanguageStarts

/-! # The lexical rules

Every kind of token, and everything that is skipped, is a language of texts. What the lexer measures at the
start of a text is the longest start in such a language.
-/

namespace ComputeShader.Lexer

/-! ## Classes -/

def blank : Set Char := {' ', '\t', '\r', '\n', '\x0c'}

def letter : Set Char := Set.Icc 'a' 'z' ∪ Set.Icc 'A' 'Z'

def digit : Set Char := Set.Icc '0' '9'

def wordStart : Set Char := letter ∪ {'_'}

def wordPart : Set Char := wordStart ∪ digit

def hexDigit : Set Char := digit ∪ Set.Icc 'a' 'f' ∪ Set.Icc 'A' 'F'

theorem isBlank_iff (c : Char) : isBlank c ↔ c ∈ blank := by
  simp [isBlank, blank, or_assoc]

theorem isDigit_iff (c : Char) : c.isDigit ↔ c ∈ digit := by
  change (decide (c.val ≥ '0'.val) && decide (c.val ≤ '9'.val)) = true ↔ _
  rw [Bool.and_eq_true, decide_eq_true_eq, decide_eq_true_eq]
  exact Iff.rfl

theorem isUpper_iff (c : Char) : c.isUpper ↔ c ∈ Set.Icc 'A' 'Z' := by
  change decide (c.val ≥ 'A'.val ∧ c.val ≤ 'Z'.val) = true ↔ _
  rw [decide_eq_true_eq]
  exact Iff.rfl

theorem isLower_iff (c : Char) : c.isLower ↔ c ∈ Set.Icc 'a' 'z' := by
  change (decide (c.val ≥ 'a'.val) && decide (c.val ≤ 'z'.val)) = true ↔ _
  rw [Bool.and_eq_true, decide_eq_true_eq, decide_eq_true_eq]
  exact Iff.rfl

theorem isAlpha_iff (c : Char) : c.isAlpha ↔ c ∈ letter := by
  change (c.isUpper || c.isLower) = true ↔ _
  rw [Bool.or_eq_true, or_comm, isUpper_iff, isLower_iff]
  exact Iff.rfl

theorem isWordStart_iff (c : Char) : isWordStart c ↔ c ∈ wordStart := by
  rw [isWordStart, Bool.or_eq_true, isAlpha_iff, beq_iff_eq]
  exact Iff.rfl

theorem isWordPart_iff (c : Char) : isWordPart c ↔ c ∈ wordPart := by
  change ((c.isAlpha || c.isDigit) || c == '_') = true ↔ _
  rw [Bool.or_eq_true, Bool.or_eq_true, isAlpha_iff, isDigit_iff, beq_iff_eq]
  exact or_right_comm

theorem isHexDigit_iff (c : Char) : isHexDigit c ↔ c ∈ hexDigit := by
  simp [isHexDigit, hexDigit, isDigit_iff]

theorem bne_iff (a c : Char) : (c != a) ↔ c ∈ ({a}ᶜ : Set Char) := by
  simp

theorem beq_or_beq_iff (a b c : Char) : (c == a || c == b) ↔ c ∈ ({a, b} : Set Char) := by
  simp

/-! ## Numbers -/

def exponent : Language Char := oneOf {'e', 'E'} * maybe (oneOf {'+', '-'}) * many digit

/-- Digits, a point and the places behind it, if any. -/
def pointed : Language Char :=
  many digit * oneOf {'.'} * run digit * maybe exponent * maybe (oneOf {'f', 'F'})

/-- A point and the places behind it. -/
def fractional : Language Char :=
  oneOf {'.'} * many digit * maybe exponent * maybe (oneOf {'f', 'F'})

/-- Digits and an exponent. -/
def scientific : Language Char :=
  many digit * exponent * maybe (oneOf {'f', 'F'})

def floatLiteral : Language Char := pointed + fractional + scientific

/-- Hexadecimal digits and the mark of a `uint` behind the base. -/
def hexEnd : Language Char :=
  oneOf {'x', 'X'} * many hexDigit * maybe (oneOf {'u', 'U'})

def hexadecimal : Language Char := oneOf {'0'} * hexEnd

def decimal : Language Char := many digit * maybe (oneOf {'u', 'U'})

def intLiteral : Language Char := hexadecimal + decimal

/-- No language here that begins otherwise takes digits away from a number. -/
theorem apart_digit {l : Language Char} {s : Set Char} (begins : heads l ⊆ s)
    (others : ∀ c ∈ s, ¬ c.isDigit) : Apart l digit :=
  fun c member holds => others c (begins member) ((isDigit_iff c).2 holds)

theorem heads_exponent : heads exponent ⊆ {'e', 'E'} := by
  rw [exponent, mul_assoc]
  exact heads_oneOf_mul _ _

theorem nil_notMem_exponent : [] ∉ exponent := by
  rw [exponent, mul_assoc]
  exact nil_notMem_oneOf_mul _ _

theorem nil_notMem_hexEnd : [] ∉ hexEnd := by
  rw [hexEnd, mul_assoc]
  exact nil_notMem_oneOf_mul _ _

theorem apart_exponent : Apart exponent digit := by
  apply apart_digit heads_exponent
  rintro c (rfl | rfl) <;> decide

theorem apart_maybe_exponent : Apart (maybe exponent) digit := by
  rw [Apart, heads_maybe]
  exact apart_exponent

theorem apart_point_mul (l : Language Char) : Apart (oneOf {'.'} * l) digit := by
  apply apart_digit (heads_oneOf_mul _ l)
  rintro c rfl
  decide

/-- The exponents of a text behind its first character. -/
theorem starts_signed (text : List Char) :
    let sign := optional (fun c => c == '+' || c == '-') text
    starts (maybe (oneOf {'+', '-'}) * many digit) text =
      (· + sign) '' Set.Ioc 0 (span Char.isDigit (text.drop sign)) := by
  have apart : Apart (many digit) {'+', '-'} := by
    rintro c begins (rfl | rfl) <;>
      exact absurd (heads_many digit begins) ((isDigit_iff _).not.1 (by decide))
  intro sign
  rw [starts_maybe_oneOf_mul (beq_or_beq_iff '+' '-') apart (nil_notMem_oneOf_mul _ _),
    starts_many isDigit_iff]

/-- What stands behind one of two marks is measured with the mark, and not at all if the digits lack. -/
theorem isGreatest_starts_marked (a b : Char) {l : Language Char} {mark : Char} {rest : List Char}
    {digits n : ℕ}
    (some : 0 < digits → IsGreatest (starts l rest) n) (none : digits = 0 → starts l rest = ∅) :
    IsGreatest (starts (maybe (oneOf {a, b} * l)) (mark :: rest))
      (if (mark == a || mark == b) && 0 < digits then n + 1 else 0) := by
  split
  · next both =>
    rw [Bool.and_eq_true, beq_or_beq_iff, decide_eq_true_eq] at both
    exact isGreatest_starts_maybe (isGreatest_starts_oneOf_mul both.1 (some both.2))
  · next lacks =>
    rw [Bool.and_eq_true, beq_or_beq_iff, decide_eq_true_eq, not_and] at lacks
    apply isGreatest_starts_maybe_zero
    apply starts_oneOf_mul_eq_empty
    rintro c rest ⟨⟩ holds
    exact none (Nat.eq_zero_of_not_pos (lacks holds))

/-- The longest exponent at the start of a text, of no characters where there is none. -/
theorem isGreatest_starts_exponent (text : List Char) :
    IsGreatest (starts (maybe exponent) text) (exponentLength text) := by
  rw [exponent, mul_assoc]
  cases text with
  | nil => exact isGreatest_starts_maybe_zero (starts_nil (nil_notMem_oneOf_mul _ _))
  | cons mark rest =>
    have signed := starts_signed rest
    rw [exponentLength]
    dsimp only at signed ⊢
    rw [Nat.add_assoc, Nat.add_comm 1]
    apply isGreatest_starts_marked 'e' 'E'
    · intro some
      rw [signed, Nat.add_comm]
      exact Monotone.map_isGreatest (fun _ _ le => Nat.add_le_add_right le _) (isGreatest_Ioc some)
    · intro none
      rw [signed, none, Set.Ioc_self, Set.image_empty]

theorem isGreatest_starts_hexEnd (text : List Char) :
    IsGreatest (starts (maybe hexEnd) text) (hexTail text) := by
  rw [hexEnd, mul_assoc]
  cases text with
  | nil => exact isGreatest_starts_maybe_zero (starts_nil (nil_notMem_oneOf_mul _ _))
  | cons mark rest =>
    have digits := starts_many isHexDigit_iff rest
    rw [hexTail, Nat.add_assoc, Nat.add_comm 1]
    apply isGreatest_starts_marked 'x' 'X'
    · intro some
      apply isGreatest_starts_mul_mark (beq_or_beq_iff 'u' 'U')
      rw [digits]
      exact isGreatest_Ioc some
    · intro none
      apply starts_mul_eq_empty
      rw [digits, none, Set.Ioc_self]

theorem isGreatest_starts_floatTail {l : Language Char} {text : List Char} {n : ℕ}
    (greatest : IsGreatest (starts l text) (n + exponentLength (text.drop n))) :
    IsGreatest (starts (l * maybe (oneOf {'f', 'F'})) text) (n + floatTail (text.drop n)) := by
  have marked := isGreatest_starts_mul_mark (beq_or_beq_iff 'f' 'F') greatest
  rwa [Nat.add_assoc, ← List.drop_drop] at marked

section

variable {text : List Char}

theorem isGreatest_starts_decimal (some : 0 < span Char.isDigit text) :
    IsGreatest (starts decimal text)
      (span Char.isDigit text + unsignedMark (text.drop (span Char.isDigit text))) := by
  apply isGreatest_starts_mul_mark (beq_or_beq_iff 'u' 'U')
  rw [starts_many isDigit_iff]
  exact isGreatest_Ioc some

theorem isGreatest_starts_scientific (some : 0 < span Char.isDigit text)
    (behind : 0 < exponentLength (text.drop (span Char.isDigit text))) :
    IsGreatest (starts scientific text)
      (span Char.isDigit text + floatTail (text.drop (span Char.isDigit text))) := by
  apply isGreatest_starts_floatTail
  apply isGreatest_starts_many_mul isDigit_iff apart_exponent some
  exact isGreatest_starts_of_maybe (isGreatest_starts_exponent _) behind

theorem starts_scientific_eq_empty (behind : exponentLength (text.drop (span Char.isDigit text)) = 0) :
    starts scientific text = ∅ := by
  apply starts_mul_eq_empty
  apply starts_many_mul_eq_empty isDigit_iff apart_exponent
  have none := isGreatest_starts_exponent (text.drop (span Char.isDigit text))
  rw [behind] at none
  exact starts_eq_empty_of_maybe nil_notMem_exponent none

theorem isGreatest_starts_pointed (some : 0 < span Char.isDigit text) {rest : List Char}
    (point : text.drop (span Char.isDigit text) = '.' :: rest) :
    IsGreatest (starts pointed text)
      (span Char.isDigit text + 1 + span Char.isDigit rest +
        floatTail (rest.drop (span Char.isDigit rest))) := by
  have behind : text.drop (span Char.isDigit text + 1 + span Char.isDigit rest) =
      rest.drop (span Char.isDigit rest) := by
    rw [Nat.add_assoc, ← List.drop_drop, point, Nat.add_comm, List.drop_succ_cons]
  rw [← behind]
  apply isGreatest_starts_floatTail
  rw [behind, mul_assoc, mul_assoc, Nat.add_assoc, Nat.add_assoc, Nat.add_comm 1]
  apply isGreatest_starts_many_mul isDigit_iff (apart_point_mul _) some
  rw [point]
  apply isGreatest_starts_oneOf_mul (Set.mem_singleton '.')
  exact isGreatest_starts_run_mul isDigit_iff apart_maybe_exponent (isGreatest_starts_exponent _)

theorem starts_pointed_eq_empty (other : ∀ c ∈ (text.drop (span Char.isDigit text)).head?, c ≠ '.') :
    starts pointed text = ∅ := by
  simp only [pointed, mul_assoc]
  apply starts_many_mul_eq_empty isDigit_iff (apart_point_mul _)
  apply starts_oneOf_mul_eq_empty
  intro c rest behind point
  exact absurd point (other c (List.head?_eq_some_iff.2 ⟨rest, behind⟩))

theorem isGreatest_starts_fractional (some : 0 < span Char.isDigit text) :
    IsGreatest (starts fractional ('.' :: text))
      (span Char.isDigit text + 1 + floatTail (text.drop (span Char.isDigit text))) := by
  rw [← List.drop_succ_cons]
  apply isGreatest_starts_floatTail
  rw [mul_assoc, List.drop_succ_cons, Nat.add_right_comm]
  apply isGreatest_starts_oneOf_mul (Set.mem_singleton '.')
  exact isGreatest_starts_many_mul isDigit_iff apart_maybe_exponent some (isGreatest_starts_exponent _)

theorem starts_fractional_eq_empty (other : ∀ rest, text = '.' :: rest → span Char.isDigit rest = 0) :
    starts fractional text = ∅ := by
  simp only [fractional, mul_assoc]
  apply starts_oneOf_mul_eq_empty
  rintro _ rest behind rfl
  apply starts_mul_eq_empty
  rw [starts_many isDigit_iff, other rest behind, Set.Ioc_self]

/-- A literal that begins with a point is a fraction. -/
theorem starts_floatLiteral_of_point :
    starts floatLiteral ('.' :: text) = starts fractional ('.' :: text) := by
  have none (l : Language Char) : starts (many digit * l) ('.' :: text) = ∅ := by
    apply starts_mul_eq_empty
    rw [starts_many isDigit_iff]
    exact Set.Ioc_self 0
  rw [floatLiteral, starts_add, starts_add]
  simp only [pointed, scientific, mul_assoc, none]
  rw [Set.empty_union, Set.union_empty]

theorem isGreatest_starts_hexadecimal (some : 0 < hexTail text) :
    IsGreatest (starts hexadecimal ('0' :: text)) (hexTail text + 1) := by
  apply isGreatest_starts_oneOf_mul (Set.mem_singleton '0')
  exact isGreatest_starts_of_maybe (isGreatest_starts_hexEnd text) some

theorem starts_hexadecimal_eq_empty (other : ∀ rest, text = '0' :: rest → hexTail rest = 0) :
    starts hexadecimal text = ∅ := by
  apply starts_oneOf_mul_eq_empty
  rintro _ rest behind rfl
  have none := isGreatest_starts_hexEnd rest
  rw [other rest behind] at none
  exact starts_eq_empty_of_maybe nil_notMem_hexEnd none

end

theorem optional_le_one (p : Char → Bool) (text : List Char) : optional p text ≤ 1 := by
  cases text with
  | nil => exact Nat.zero_le 1
  | cons c text =>
    rw [optional]
    split <;> decide

theorem exponentLength_le_floatTail (text : List Char) : exponentLength text ≤ floatTail text :=
  Nat.le_add_right _ _

theorem span_cons {p : Char → Bool} {c : Char} (holds : p c) (text : List Char) :
    span p (c :: text) = span p text + 1 := by
  rw [span, List.takeWhile_cons_of_pos holds, List.length_cons, span]

/-! A literal that begins with a digit. -/

section

variable {c : Char} (first : c.isDigit) {text : List Char}

include first

theorem drop_span_cons_digit :
    (c :: text).drop (span Char.isDigit (c :: text)) = text.drop (span Char.isDigit text) := by
  rw [span_cons first, List.drop_succ_cons]

theorem span_cons_digit_pos : 0 < span Char.isDigit (c :: text) := by
  rw [span_cons first]
  exact Nat.succ_pos _

theorem starts_fractional_of_digit : starts fractional (c :: text) = ∅ := by
  apply starts_fractional_eq_empty
  rintro rest ⟨⟩
  exact absurd first (by decide)

theorem isGreatest_starts_floatLiteral_pointed {rest : List Char}
    (point : text.drop (span Char.isDigit text) = '.' :: rest) :
    IsGreatest (starts floatLiteral (c :: text))
      (span Char.isDigit text + 1 + span Char.isDigit rest +
        floatTail (rest.drop (span Char.isDigit rest)) + 1) := by
  have point' := (drop_span_cons_digit first).trans point
  have pointed := isGreatest_starts_pointed (span_cons_digit_pos first) point'
  have scientific : starts scientific (c :: text) = ∅ := by
    apply starts_scientific_eq_empty
    rw [point']
    rfl
  rw [floatLiteral, starts_add, starts_add, starts_fractional_of_digit first, scientific, Set.union_empty,
    Set.union_empty]
  rw [span_cons first] at pointed
  convert pointed using 1
  omega

theorem isGreatest_starts_floatLiteral_scientific
    (noPoint : ∀ d ∈ (text.drop (span Char.isDigit text)).head?, d ≠ '.')
    (some : 0 < exponentLength (text.drop (span Char.isDigit text))) :
    IsGreatest (starts floatLiteral (c :: text))
      (span Char.isDigit text + floatTail (text.drop (span Char.isDigit text)) + 1) := by
  have behind : (c :: text).drop (span Char.isDigit (c :: text)) = text.drop (span Char.isDigit text) :=
    drop_span_cons_digit first
  have scientific := isGreatest_starts_scientific (span_cons_digit_pos first) (by rwa [behind])
  rw [floatLiteral, starts_add, starts_add, starts_fractional_of_digit first,
    starts_pointed_eq_empty (by rwa [behind]), Set.empty_union, Set.empty_union]
  rw [behind, span_cons first, Nat.add_right_comm] at scientific
  exact scientific

theorem starts_floatLiteral_eq_empty
    (noPoint : ∀ d ∈ (text.drop (span Char.isDigit text)).head?, d ≠ '.')
    (none : exponentLength (text.drop (span Char.isDigit text)) = 0) :
    starts floatLiteral (c :: text) = ∅ := by
  rw [← drop_span_cons_digit first] at noPoint none
  rw [floatLiteral, starts_add, starts_add, starts_fractional_of_digit first, starts_pointed_eq_empty noPoint,
    starts_scientific_eq_empty none, Set.empty_union, Set.empty_union]

theorem isGreatest_starts_decimal_of_digit :
    IsGreatest (starts decimal (c :: text))
      (span Char.isDigit text + unsignedMark (text.drop (span Char.isDigit text)) + 1) := by
  have decimal := isGreatest_starts_decimal (@span_cons_digit_pos c first text)
  rwa [drop_span_cons_digit first, span_cons first, Nat.add_right_comm] at decimal

theorem isGreatest_starts_intLiteral (decimal : c = '0' → hexTail text = 0) :
    IsGreatest (starts intLiteral (c :: text))
      (span Char.isDigit text + unsignedMark (text.drop (span Char.isDigit text)) + 1) := by
  rw [intLiteral, starts_add, starts_hexadecimal_eq_empty, Set.empty_union]
  · exact isGreatest_starts_decimal_of_digit first
  · rintro rest ⟨⟩
    exact decimal rfl

end

/-- A hexadecimal literal begins with a zero that is all there is of another number. -/
theorem hexTail_pos {text : List Char} (some : 0 < hexTail text) :
    span Char.isDigit text = 0 ∧ (∀ c ∈ text.head?, c ≠ '.') ∧ exponentLength text = 0 := by
  cases text with
  | nil => cases some
  | cons mark rest =>
    have marks : mark ∈ ({'x', 'X'} : Set Char) := by
      rw [← beq_or_beq_iff]
      by_contra other
      rw [hexTail, Bool.eq_false_iff.2 other] at some
      exact absurd some (lt_irrefl 0)
    have apart : ¬ mark.isDigit ∧ mark ≠ '.' ∧ (mark == 'e' || mark == 'E') = false := by
      obtain rfl | rfl := marks <;> decide
    obtain ⟨noDigit, noPoint, noExponent⟩ := apart
    refine ⟨?_, ?_, ?_⟩
    · rw [span, List.takeWhile_cons_of_neg noDigit, List.length_nil]
    · rintro c ⟨⟩
      exact noPoint
    · rw [exponentLength, noExponent]
      rfl

theorem isGreatest_starts_intLiteral_hexadecimal {text : List Char} (some : 0 < hexTail text) :
    IsGreatest (starts intLiteral ('0' :: text)) (hexTail text + 1) := by
  obtain ⟨noDigit, -⟩ := hexTail_pos some
  have decimal := @isGreatest_starts_decimal_of_digit '0' rfl text
  have mark := optional_le_one (fun c => c == 'u' || c == 'U') (text.drop (span Char.isDigit text))
  apply isGreatest_starts_add (isGreatest_starts_hexadecimal some)
  intro k start
  have short := decimal.2 start
  rw [noDigit, unsignedMark] at short
  rw [noDigit] at mark
  omega

/-- Whether a match behind the first character is the longest start of a text in the languages of numbers. -/
inductive LongestNumber (text : List Char) : Match × ℕ → Prop
  | integer {n : ℕ} (greatest : IsGreatest (starts intLiteral text) (n + 1))
      (bound : ∀ k ∈ starts floatLiteral text, k ≤ n + 1) : LongestNumber text (.token .intLiteral, n)
  | float {n : ℕ} (greatest : IsGreatest (starts floatLiteral text) (n + 1))
      (bound : ∀ k ∈ starts intLiteral text, k ≤ n + 1) : LongestNumber text (.token .floatLiteral, n)

theorem longestNumber_hexadecimal {text : List Char} (some : 0 < hexTail text) :
    LongestNumber ('0' :: text) (munchNumber '0' text) := by
  obtain ⟨noDigit, noPoint, noExponent⟩ := hexTail_pos some
  have noFloat : starts floatLiteral ('0' :: text) = ∅ := by
    apply starts_floatLiteral_eq_empty rfl <;> rwa [noDigit]
  rw [munchNumber, if_pos rfl, if_pos some]
  apply LongestNumber.integer (isGreatest_starts_intLiteral_hexadecimal some)
  rw [noFloat]
  nofun

/-- The digits are followed by a point, by an exponent or by the end of an integer. -/
theorem longestNumber_decimal {c : Char} (first : c.isDigit) {text : List Char}
    (decimal : c = '0' → hexTail text = 0) : LongestNumber (c :: text) (munchNumber c text) := by
  have noHex : ¬ 0 < (if c = '0' then hexTail text else 0) := by
    split
    · next zero =>
      rw [decimal zero]
      exact lt_irrefl 0
    · exact lt_irrefl 0
  have integer := isGreatest_starts_intLiteral first decimal
  have mark : unsignedMark (text.drop (span Char.isDigit text)) ≤ 1 := optional_le_one _ _
  rw [munchNumber, if_neg noHex]
  dsimp only
  split
  · next rest point =>
    apply LongestNumber.float (isGreatest_starts_floatLiteral_pointed first point)
    intro k start
    have short := integer.2 start
    omega
  · next other =>
    have noPoint : ∀ d ∈ (text.drop (span Char.isDigit text)).head?, d ≠ '.' := by
      rintro d next rfl
      obtain ⟨rest, point⟩ := List.head?_eq_some_iff.1 next
      exact other rest point
    split
    · next some =>
      have tail := exponentLength_le_floatTail (text.drop (span Char.isDigit text))
      apply LongestNumber.float (isGreatest_starts_floatLiteral_scientific first noPoint some)
      intro k start
      have short := integer.2 start
      omega
    · next none =>
      apply LongestNumber.integer integer
      rw [starts_floatLiteral_eq_empty first noPoint (Nat.eq_zero_of_not_pos none)]
      nofun

/-- A literal that begins with a digit is as long as any start of the text in the languages of numbers. -/
theorem longestNumber_munchNumber {c : Char} (first : c.isDigit) (text : List Char) :
    LongestNumber (c :: text) (munchNumber c text) := by
  by_cases hexadecimal : c = '0' ∧ 0 < hexTail text
  · obtain ⟨rfl, some⟩ := hexadecimal
    exact longestNumber_hexadecimal some
  · apply longestNumber_decimal first
    intro zero
    by_contra some
    exact hexadecimal ⟨zero, Nat.pos_of_ne_zero some⟩

/-! ## Rules -/

/-- What the lexer matches: a token of some kind, or what it skips. Of a comment between `/*` and `*/` only
the mark in front is matched by a rule. -/
inductive Rule where
  | token (kind : TokenKind)
  | blanks
  | lineComment
  | commentStart
  deriving DecidableEq, Repr

namespace Rule

def language : Rule → Language Char
  | token .directive => oneOf {'#'} * run {'\n'}ᶜ
  | token .identifier => oneOf wordStart * run wordPart
  | token .floatLiteral => Lexer.floatLiteral
  | token .intLiteral => Lexer.intLiteral
  | token (.keyword k) => literal k.text.toList
  | token (.symbol s) => literal s.chars
  | blanks => many blank
  | lineComment => oneOf {'/'} * oneOf {'/'} * run {'\n'}ᶜ
  | commentStart => literal ['/', '*']

end Rule

/-! ## First characters of rules -/

/-- What the first character of a text tells of the rules for it. -/
inductive Lead where
  | blank
  | hash
  | word
  | digit
  | point
  | slash
  | other
  deriving DecidableEq, Repr

def lead (c : Char) : Lead :=
  if isBlank c then .blank
  else if c = '#' then .hash
  else if isWordStart c then .word
  else if c.isDigit then .digit
  else if c = '.' then .point
  else if c = '/' then .slash
  else .other

/-- The rules for a first character. -/
def Lead.rules : Lead → Set Rule
  | blank => {.blanks}
  | hash => {.token .directive}
  | word => {.token .identifier} ∪ Set.range fun k => .token (.keyword k)
  | digit => {.token .intLiteral, .token .floatLiteral}
  | point => {.token .floatLiteral} ∪ Set.range fun s => .token (.symbol s)
  | slash => {.lineComment, .commentStart} ∪ Set.range fun s => .token (.symbol s)
  | other => Set.range fun s => .token (.symbol s)

theorem lead_of_isWordStart {c : Char} (holds : isWordStart c) : lead c = .word := by
  obtain ⟨noBlank, noHash⟩ := isWordStart_cases holds
  rw [lead, if_neg (by rw [noBlank]; exact Bool.false_ne_true), if_neg noHash, if_pos holds]

theorem lead_of_isDigit {c : Char} (holds : c.isDigit) : lead c = .digit := by
  have noBlank : isBlank c = false := isBlank_eq_false holds (by decide)
  have noHash : c ≠ '#' := by
    rintro rfl
    exact absurd holds (by decide)
  have noWord : ¬ isWordStart c := by
    rw [isWordStart_iff]
    rw [isDigit_iff] at holds
    rintro ((small | capital) | rfl)
    · exact absurd (small.1.trans holds.2) (by decide)
    · exact absurd (capital.1.trans holds.2) (by decide)
    · exact absurd holds.2 (by decide)
  rw [lead, if_neg (by rw [noBlank]; exact Bool.false_ne_true), if_neg noHash, if_neg noWord, if_pos holds]

theorem heads_literal {w : List Char} {c : Char} : c ∈ heads (literal w) ↔ w.head? = some c := by
  rw [List.head?_eq_some_iff]
  exact exists_congr fun _ => eq_comm

theorem heads_intLiteral : heads intLiteral ⊆ digit := by
  rw [intLiteral, heads_add]
  simp only [hexadecimal, decimal, many, mul_assoc]
  apply Set.union_subset
  · exact (heads_oneOf_mul _ _).trans (by rintro c rfl; exact (isDigit_iff _).1 (by decide))
  · exact heads_oneOf_mul _ _

theorem heads_floatLiteral : heads floatLiteral ⊆ digit ∪ {'.'} := by
  rw [floatLiteral, heads_add, heads_add]
  simp only [pointed, fractional, scientific, many, mul_assoc]
  apply Set.union_subset
  · apply Set.union_subset
    · exact (heads_oneOf_mul _ _).trans Set.subset_union_left
    · exact (heads_oneOf_mul _ _).trans Set.subset_union_right
  · exact (heads_oneOf_mul _ _).trans Set.subset_union_left

theorem isWordStart_of_keyword {k : Keyword} {c : Char} (begins : k.text.toList.head? = some c) :
    isWordStart c := by
  cases k <;> cases begins <;> rfl

theorem symbol_mem_rules {s : Symbol} {c : Char} (begins : s.chars.head? = some c) :
    .token (.symbol s) ∈ (lead c).rules := by
  have classes : lead c = .point ∨ lead c = .slash ∨ lead c = .other := by
    cases s <;> cases begins <;> decide
  obtain point | slash | other := classes
  · rw [point]
    exact .inr ⟨s, rfl⟩
  · rw [slash]
    exact .inr ⟨s, rfl⟩
  · rw [other]
    exact ⟨s, rfl⟩

/-- A text that a rule matches begins with a character that the rule is for. -/
theorem mem_rules_lead {rule : Rule} {c : Char} (begins : c ∈ heads rule.language) :
    rule ∈ (lead c).rules := by
  cases rule with
  | blanks =>
    have holds := (isBlank_iff c).2 (heads_many _ begins)
    rw [lead, if_pos holds]
    rfl
  | lineComment =>
    rw [Rule.language, mul_assoc] at begins
    obtain rfl : c = '/' := heads_oneOf_mul {'/'} _ begins
    exact .inl (.inl rfl)
  | commentStart =>
    obtain rfl : '/' = c := Option.some.inj (heads_literal.1 begins)
    exact .inl (.inr rfl)
  | token kind =>
    cases kind with
    | directive =>
      obtain rfl : c = '#' := heads_oneOf_mul {'#'} _ begins
      rfl
    | identifier =>
      rw [lead_of_isWordStart ((isWordStart_iff c).2 (heads_oneOf_mul _ _ begins))]
      exact .inl rfl
    | intLiteral =>
      rw [lead_of_isDigit ((isDigit_iff c).2 (heads_intLiteral begins))]
      exact .inl rfl
    | floatLiteral =>
      obtain number | point := heads_floatLiteral begins
      · rw [lead_of_isDigit ((isDigit_iff c).2 number)]
        exact .inr rfl
      · obtain rfl : c = '.' := point
        exact .inl rfl
    | keyword k =>
      rw [lead_of_isWordStart (isWordStart_of_keyword (heads_literal.1 begins))]
      exact .inr ⟨k, rfl⟩
    | symbol s => exact symbol_mem_rules (heads_literal.1 begins)

theorem nil_notMem_language (rule : Rule) : [] ∉ rule.language := by
  cases rule with
  | blanks => exact nil_notMem_oneOf_mul _ _
  | lineComment =>
    rw [Rule.language, mul_assoc]
    exact nil_notMem_oneOf_mul _ _
  | commentStart => nofun
  | token kind =>
    cases kind with
    | directive => exact nil_notMem_oneOf_mul _ _
    | identifier => exact nil_notMem_oneOf_mul _ _
    | intLiteral =>
      simp only [Rule.language, intLiteral, hexadecimal, decimal, many, mul_assoc]
      rintro (member | member) <;> exact nil_notMem_oneOf_mul _ _ member
    | floatLiteral =>
      simp only [Rule.language, floatLiteral, pointed, fractional, scientific, many, mul_assoc]
      rintro ((member | member) | member) <;> exact nil_notMem_oneOf_mul _ _ member
    | keyword k => cases k <;> nofun
    | symbol s => cases s <;> nofun

end ComputeShader.Lexer
