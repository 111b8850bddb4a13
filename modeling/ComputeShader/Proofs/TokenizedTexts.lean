import Mathlib.Data.List.DropRight
import Mathlib.Data.List.Infix
import ComputeShader.Proofs.LexicalRules

/-! # Tokenized texts

A source is cut into tokens, blanks and comments, each as long as any rule makes it there. The tokens are
placed where their texts begin. Where the lexer stops with an error, the source before that place is cut in
this way, and no rule matches there or a comment is not closed.
-/

namespace ComputeShader

open Lexer

/-! ## Cut texts -/

/-- Whether a rule matches a text, and no rule matches more of the text with what is behind it. -/
structure Longest (rule : Rule) (text rest : List Char) : Prop where
  matched : text ∈ rule.language
  longest : ∀ other : Rule, ∀ start ∈ other.language, start <+: text ++ rest →
    start.length ≤ text.length

/-- A token, or what is skipped; of a comment between `/*` and `*/`, what is behind the opening mark. -/
inductive Segment where
  | token (kind : TokenKind) (text : List Char)
  | blanks (text : List Char)
  | lineComment (text : List Char)
  | blockComment (body : List Char)
  deriving DecidableEq, Repr

/-- Whether a text ends with the first `*/` in it. -/
def ClosesFirst (body : List Char) : Prop :=
  ['*', '/'] <:+ body ∧ ¬ ['*', '/'] <:+: body.dropLast

namespace Segment

def text : Segment → List Char
  | token _ text | blanks text | lineComment text => text
  | blockComment body => '/' :: '*' :: body

/-- Whether a segment is no token. -/
def Skipped : Segment → Prop
  | token .. => False
  | _ => True

/-- Whether a segment is what the rules make of a text with some rest behind it. -/
def Fits : Segment → List Char → Prop
  | token kind text, rest =>
    Longest (.token kind) text rest ∧ (kind = .identifier → ∀ k : Keyword, text ≠ k.text.toList)
  | blanks text, rest => Longest .blanks text rest
  | lineComment text, rest => Longest .lineComment text rest ∧ ∀ c ∈ rest.head?, c = '\n'
  | blockComment body, rest => Longest .commentStart ['/', '*'] (body ++ rest) ∧ ClosesFirst body

end Segment

/-- The text that is cut into segments. -/
def textOf (segments : List Segment) : List Char := segments.flatMap Segment.text

/-- Whether each segment fits before the text of those after it and some rest. -/
def AllFit : List Segment → List Char → Prop
  | [], _ => True
  | s :: segments, rest => s.Fits (textOf segments ++ rest) ∧ AllFit segments rest

/-- Whether no segment begins a text: no rule matches there, or a comment is not closed. -/
inductive Stuck : List Char → Prop
  | unmatched {text : List Char} (some : text ≠ [])
      (none : ∀ rule : Rule, ∀ start ∈ rule.language, ¬ start <+: text) : Stuck text
  | unclosed {body : List Char} (opened : Longest .commentStart ['/', '*'] body)
      (endless : ¬ ['*', '/'] <:+: body) : Stuck ('/' :: '*' :: body)

/-- The place behind a text: the lines are counted from one, and so are the bytes of the last line. -/
def place (before : List Char) : Position :=
  ⟨before.count '\n' + 1, (String.ofList (before.rtakeWhile (· != '\n'))).utf8ByteSize + 1⟩

/-- The tokens among the segments behind a text. -/
def placed : List Char → List Segment → List Token
  | _, [] => []
  | before, .token kind text :: segments =>
    ⟨kind, String.ofList text, place before⟩ :: placed (before ++ text) segments
  | before, s :: segments => placed (before ++ s.text) segments

/-! ## Places -/

theorem place_concat (before : List Char) (c : Char) : place (before ++ [c]) = (place before).advance c := by
  rw [place, place, Position.advance, List.count_append]
  split
  · next line =>
    subst line
    rw [List.rtakeWhile_concat_neg (· != '\n') before '\n' (by decide)]
    rfl
  · next other =>
    have same : [c].count '\n' = 0 :=
      List.count_eq_zero.2 fun member => other (List.mem_singleton.1 member).symm
    have more (line : List Char) :
        (String.ofList (line ++ [c])).utf8ByteSize = (String.ofList line).utf8ByteSize + c.utf8Size := by
      simp
    rw [List.rtakeWhile_concat_pos (· != '\n') before c (bne_iff_ne.2 other), same, more,
      Nat.add_right_comm _ _ 1, Nat.add_zero]

/-! ## Keywords and symbols -/

theorem Keyword.ofText?_eq_some {text : String} {k : Keyword} (found : Keyword.ofText? text = some k) :
    k.text = text := by
  simpa using List.find?_some found

theorem Keyword.ofText?_eq_none {text : String} (none : Keyword.ofText? text = none) (k : Keyword) :
    k.text ≠ text := by
  have listed : k ∈ Keyword.all := by cases k <;> decide
  simpa using List.find?_eq_none.1 none k listed

theorem Symbol.ofChars?_eq_some {chars : List Char} {s : Symbol} (found : Symbol.ofChars? chars = some s) :
    s.chars = chars := by
  simpa using List.find?_some found

theorem Symbol.ofChars?_eq_none {chars : List Char} (none : Symbol.ofChars? chars = none) (s : Symbol) :
    s.chars ≠ chars := by
  have listed : s ∈ Symbol.all := by cases s <;> decide
  simpa using List.find?_eq_none.1 none s listed

theorem keyword_mem_identifier (k : Keyword) : k.text.toList ∈ (Rule.token .identifier).language := by
  obtain ⟨c, cs, text, starts, goes_on⟩ : IsWord k.text := by
    cases k <;> exact ⟨_, _, rfl, rfl, List.all_eq_true.1 rfl⟩
  rw [text]
  refine ⟨[c], ⟨c, (isWordStart_iff c).1 starts, rfl⟩, cs, mem_run.2 fun d member => ?_, rfl⟩
  exact (isWordPart_iff d).1 (goes_on d member)

/-! ## Longest matches -/

/-- Only the rules for the first character match a start of a text. -/
theorem mem_rules_of_mem_starts {rule : Rule} {c : Char} {text : List Char} {k : ℕ}
    (start : k ∈ starts rule.language (c :: text)) : rule ∈ (lead c).rules := by
  obtain ⟨-, member⟩ := start
  cases k with
  | zero => exact absurd member (nil_notMem_language rule)
  | succ k => exact mem_rules_lead ⟨_, member⟩

theorem Longest.fits {kind : TokenKind} {text rest : List Char} (longest : Longest (.token kind) text rest)
    (other : kind ≠ .identifier) : (Segment.token kind text).Fits rest :=
  ⟨longest, fun same => absurd same other⟩

theorem longest_take (rule : Rule) {c : Char} {text : List Char} {n : ℕ}
    (matched : n ∈ starts rule.language (c :: text))
    (longest : ∀ other ∈ (lead c).rules, ∀ k ∈ starts other.language (c :: text), k ≤ n) :
    Longest rule ((c :: text).take n) ((c :: text).drop n) := by
  refine ⟨matched.2, fun other start member begins => ?_⟩
  rw [List.take_append_drop] at begins
  rw [List.length_take, Nat.min_eq_left matched.1]
  have start := length_mem_starts member begins
  exact longest other (mem_rules_of_mem_starts start) _ start

theorem stuck_of_starts_eq_empty {c : Char} {text : List Char}
    (none : ∀ rule ∈ (lead c).rules, starts rule.language (c :: text) = ∅) : Stuck (c :: text) := by
  refine .unmatched (List.cons_ne_nil _ _) fun rule start member begins => ?_
  have start := length_mem_starts member begins
  rw [none rule (mem_rules_of_mem_starts start)] at start
  exact start

/-! ## Matches of the lexer -/

/-- What a match that begins a text says of it. -/
def Matched (text : List Char) : Match × ℕ → Prop
  | (.token kind, n) => (Segment.token kind (text.take (n + 1))).Fits (text.drop (n + 1))
  | (.blank, n) => ∃ s : Segment, s.Skipped ∧ s.text = text.take (n + 1) ∧ s.Fits (text.drop (n + 1))
  | (.invalid, _) => Stuck text

section

variable {c : Char} {text : List Char}

theorem matched_blank (holds : isBlank c) : Matched (c :: text) (.blank, span isBlank text) := by
  have greatest : IsGreatest (starts (many blank) (c :: text)) (span isBlank text + 1) := by
    rw [starts_many isBlank_iff, span_cons holds]
    exact isGreatest_Ioc (Nat.succ_pos _)
  refine ⟨.blanks _, trivial, rfl, longest_take .blanks greatest.1 ?_⟩
  rw [lead, if_pos holds]
  rintro _ rfl k start
  exact greatest.2 start

theorem matched_directive : Matched ('#' :: text) (.token .directive, span (· != '\n') text) := by
  have greatest : IsGreatest (starts (Rule.token .directive).language ('#' :: text))
      (span (· != '\n') text + 1) := by
    apply isGreatest_starts_oneOf_mul (Set.mem_singleton _)
    rw [starts_run (bne_iff '\n')]
    exact isGreatest_Iic
  refine (longest_take _ greatest.1 ?_).fits (by decide)
  rintro _ rfl k start
  exact greatest.2 start

theorem matched_word (holds : isWordStart c) : Matched (c :: text) (munch c text) := by
  obtain ⟨noBlank, noHash⟩ := isWordStart_cases holds
  have greatest : IsGreatest (starts (Rule.token .identifier).language (c :: text))
      (span isWordPart text + 1) := by
    apply isGreatest_starts_oneOf_mul ((isWordStart_iff c).1 holds)
    rw [starts_run isWordPart_iff]
    exact isGreatest_Iic
  have bound : ∀ other ∈ (lead c).rules, ∀ k ∈ starts other.language (c :: text),
      k ≤ span isWordPart text + 1 := by
    rw [lead_of_isWordStart holds]
    rintro other (rfl | ⟨keyword, rfl⟩) k start
    · exact greatest.2 start
    · have within : ∀ w ∈ literal keyword.text.toList, w ∈ (Rule.token .identifier).language := by
        rintro _ rfl
        exact keyword_mem_identifier keyword
      exact greatest.2 (starts_mono within _ start)
  rw [munch.eq_def, if_neg (by simp [noBlank]), if_neg noHash, if_pos holds]
  dsimp only
  split
  · next keyword found =>
    have same : keyword.text.toList = (c :: text).take (span isWordPart text + 1) := by
      rw [Keyword.ofText?_eq_some found, String.toList_ofList, List.take_succ_cons]
    have start : span isWordPart text + 1 ∈ starts (Rule.token (.keyword keyword)).language (c :: text) :=
      ⟨greatest.1.1, same.symm⟩
    exact (longest_take _ start bound).fits (by simp)
  · next none =>
    refine ⟨longest_take _ greatest.1 bound, fun _ keyword same => ?_⟩
    apply Keyword.ofText?_eq_none none keyword
    rw [← String.toList_inj, String.toList_ofList, ← same, List.take_succ_cons]

theorem matched_number (holds : c.isDigit) : Matched (c :: text) (munchNumber c text) := by
  have longest := longestNumber_munchNumber holds text
  have rules : (lead c).rules = {.token .intLiteral, .token .floatLiteral} := by
    rw [lead_of_isDigit holds]
    rfl
  generalize munchNumber c text = result at longest ⊢
  cases longest with
  | integer greatest bound =>
    refine (longest_take _ greatest.1 ?_).fits (by decide)
    rw [rules]
    rintro other (rfl | rfl) k start
    · exact greatest.2 start
    · exact bound k start
  | float greatest bound =>
    refine (longest_take _ greatest.1 ?_).fits (by decide)
    rw [rules]
    rintro other (rfl | rfl) k start
    · exact bound k start
    · exact greatest.2 start

/-- A symbol is the first character of a text or the first two. -/
theorem symbol_starts {s : Symbol} {k : ℕ} (start : k ∈ starts (literal s.chars) (c :: text)) :
    k = 1 ∧ s.chars = [c] ∨ k = 2 ∧ ∃ second rest, text = second :: rest ∧ s.chars = [c, second] := by
  obtain ⟨rfl, rest, whole⟩ := mem_starts_literal.1 start
  have short : (∃ a, s.chars = [a]) ∨ ∃ a b, s.chars = [a, b] := by
    cases s <;> first | exact .inl ⟨_, rfl⟩ | exact .inr ⟨_, _, rfl⟩
  obtain ⟨a, one⟩ | ⟨a, b, two⟩ := short
  · rw [one] at whole ⊢
    cases whole
    exact .inl ⟨rfl, rfl⟩
  · rw [two] at whole ⊢
    cases whole
    exact .inr ⟨rfl, b, rest, rfl, rfl⟩

theorem le_two_of_symbol_starts {s : Symbol} {k : ℕ} (start : k ∈ starts (literal s.chars) (c :: text)) :
    k ≤ 2 := by
  obtain ⟨rfl, -⟩ | ⟨rfl, -⟩ := symbol_starts start <;> decide

/-- Whether a text has starts in the languages of symbols only. -/
def OnlySymbols (c : Char) (text : List Char) : Prop :=
  ∀ rule ∈ (lead c).rules, (starts rule.language (c :: text)).Nonempty → ∃ s, rule = .token (.symbol s)

theorem OnlySymbols.matched (only : OnlySymbols c text) {s : Symbol} {w : List Char} {n : ℕ}
    (found : Symbol.ofChars? w = some s) (begins : w <+: c :: text) (length : w.length = n + 1)
    (longest : ∀ t : Symbol, ∀ k ∈ starts (literal t.chars) (c :: text), k ≤ n + 1) :
    Matched (c :: text) (.token (.symbol s), n) := by
  have start : n + 1 ∈ starts (Rule.token (.symbol s)).language (c :: text) :=
    length ▸ length_mem_starts (Symbol.ofChars?_eq_some found).symm begins
  refine (longest_take _ start fun other member k start => ?_).fits (by simp)
  obtain ⟨t, rfl⟩ := only other member ⟨k, start⟩
  exact longest t k start

theorem OnlySymbols.matched_single (only : OnlySymbols c text)
    (short : ∀ s : Symbol, ∀ k ∈ starts (literal s.chars) (c :: text), k = 1 ∧ s.chars = [c]) :
    Matched (c :: text) (match Symbol.ofChars? [c] with
      | some s => (.token (.symbol s), 0)
      | none => (.invalid, 0)) := by
  split
  · next s found => exact only.matched found ⟨text, rfl⟩ rfl fun t k start => (short t k start).1.le
  · next none =>
    apply stuck_of_starts_eq_empty
    intro rule member
    by_contra some
    obtain ⟨k, start⟩ := Set.nonempty_iff_ne_empty.2 some
    obtain ⟨s, rfl⟩ := only rule member ⟨k, start⟩
    exact Symbol.ofChars?_eq_none none s (short s k start).2

/-- A symbol of two characters goes before one of the first alone. -/
theorem OnlySymbols.matched_munchSymbol (only : OnlySymbols c text) :
    Matched (c :: text) (munchSymbol c text) := by
  cases text with
  | nil =>
    apply only.matched_single
    intro s k start
    obtain one | ⟨-, second, rest, none, -⟩ := symbol_starts start
    · exact one
    · cases none
  | cons second rest =>
    rw [munchSymbol.eq_def]
    dsimp only
    split
    · next s found => exact only.matched found ⟨rest, rfl⟩ rfl fun t k start => le_two_of_symbol_starts start
    · next none =>
      apply only.matched_single
      intro s k start
      obtain one | ⟨-, d, rest, equal, two⟩ := symbol_starts start
      · exact one
      · cases equal
        exact absurd two (Symbol.ofChars?_eq_none none s)

theorem starts_lineComment_eq_empty (other : ∀ d ∈ text.head?, d ≠ '/') :
    starts Rule.lineComment.language ('/' :: text) = ∅ := by
  rw [Rule.language, mul_assoc]
  apply starts_oneOf_mul_eq_empty
  rintro c rest ⟨⟩ -
  apply starts_mul_eq_empty
  exact starts_oneOf_eq_empty other

/-- A point begins a number only with a digit behind it, and a slash a comment only with a mark. -/
theorem onlySymbols (noBlank : ¬ isBlank c) (noHash : c ≠ '#') (noWord : ¬ isWordStart c)
    (noDigit : ¬ c.isDigit) (point : c = '.' → span Char.isDigit text = 0)
    (slash : c = '/' → ∀ d ∈ text.head?, d ≠ '/' ∧ d ≠ '*') : OnlySymbols c text := by
  rintro rule member ⟨k, start⟩
  rw [lead, if_neg noBlank, if_neg noHash, if_neg noWord, if_neg noDigit] at member
  split at member
  · next isPoint =>
    subst isPoint
    obtain rfl | ⟨s, rfl⟩ := member
    · rw [Rule.language, starts_floatLiteral_of_point, starts_fractional_eq_empty] at start
      · cases start
      · rintro rest ⟨⟩
        exact point rfl
    · exact ⟨s, rfl⟩
  · split at member
    · next isSlash =>
      subst isSlash
      obtain (rfl | rfl) | ⟨s, rfl⟩ := member
      · rw [starts_lineComment_eq_empty fun d first => (slash rfl d first).1] at start
        cases start
      · obtain ⟨-, rest, whole⟩ := mem_starts_literal.1 start
        cases whole
        exact absurd rfl (slash rfl '*' rfl).2
      · exact ⟨s, rfl⟩
    · obtain ⟨s, rfl⟩ := member
      exact ⟨s, rfl⟩

theorem matched_fraction (some : 0 < span Char.isDigit text) : Matched ('.' :: text)
    (.token .floatLiteral, span Char.isDigit text + floatTail (text.drop (span Char.isDigit text))) := by
  have greatest := isGreatest_starts_fractional some
  rw [← starts_floatLiteral_of_point, Nat.add_right_comm] at greatest
  refine (longest_take _ greatest.1 ?_).fits (by decide)
  rintro other (rfl | ⟨s, rfl⟩) k start
  · exact greatest.2 start
  · have short := le_two_of_symbol_starts start
    omega

theorem matched_lineComment (rest : List Char) :
    Matched ('/' :: '/' :: rest) (.blank, 1 + span (· != '\n') rest) := by
  have greatest : IsGreatest (starts Rule.lineComment.language ('/' :: '/' :: rest))
      (span (· != '\n') rest + 1 + 1) := by
    rw [Rule.language, mul_assoc]
    apply isGreatest_starts_oneOf_mul (Set.mem_singleton _)
    apply isGreatest_starts_oneOf_mul (Set.mem_singleton _)
    rw [starts_run (bne_iff '\n')]
    exact isGreatest_Iic
  rw [Nat.add_comm]
  refine ⟨.lineComment _, trivial, rfl, longest_take .lineComment greatest.1 ?_, fun c next => ?_⟩
  · rintro other ((rfl | rfl) | ⟨s, rfl⟩) k start
    · exact greatest.2 start
    · obtain ⟨rfl, -⟩ := mem_starts_literal.1 start
      exact Nat.le_add_left _ _
    · have short := le_two_of_symbol_starts start
      omega
  · have stops := not_of_mem_head?_drop_span next
    simpa using stops

theorem longest_commentStart (rest : List Char) : Longest .commentStart ['/', '*'] rest := by
  have start : 2 ∈ starts Rule.commentStart.language ('/' :: '*' :: rest) :=
    mem_starts_literal.2 ⟨rfl, rest, rfl⟩
  apply longest_take .commentStart start
  rintro other ((rfl | rfl) | ⟨s, rfl⟩) k start
  · rw [starts_lineComment_eq_empty (by rintro d ⟨⟩; decide)] at start
    cases start
  · exact (mem_starts_literal.1 start).1.le
  · exact le_two_of_symbol_starts start

/-! ## Comments -/

theorem begins_closed {d : Char} {rest : List Char} :
    ['*', '/'] <+: d :: rest ↔ d = '*' ∧ ∃ tail, rest = '/' :: tail := by
  constructor
  · rintro ⟨tail, whole⟩
    cases whole
    exact ⟨rfl, tail, rfl⟩
  · rintro ⟨rfl, tail, rfl⟩
    exact ⟨tail, rfl⟩

theorem commentLength?_eq_none (none : commentLength? text = none) : ¬ ['*', '/'] <:+: text := by
  induction text using commentLength?.induct with
  | case1 rest => cases none
  | case2 d rest other ih =>
    rw [commentLength?.eq_2 _ _ other, Option.map_eq_none_iff] at none
    rw [List.infix_cons_iff, begins_closed]
    rintro (⟨star, tail, slash⟩ | later)
    · exact other tail star slash
    · exact ih none later
  | case3 => decide

/-- A character before the first `*/` leaves it the first, unless it makes up one itself. -/
theorem ClosesFirst.cons {d : Char} {body : List Char} (closes : ClosesFirst body)
    (apart : ¬ ['*', '/'] <+: d :: body) : ClosesFirst (d :: body) := by
  obtain ⟨ends, first⟩ := closes
  have some : body ≠ [] := by
    rintro rfl
    exact absurd ends (by decide)
  refine ⟨ends.trans (List.suffix_cons d body), ?_⟩
  rw [List.dropLast_cons_of_ne_nil some, List.infix_cons_iff]
  rintro (here | later)
  · exact apart (here.trans (List.cons_prefix_cons.2 ⟨rfl, List.dropLast_prefix body⟩))
  · exact first later

theorem commentLength?_eq_some {n : ℕ} (found : commentLength? text = some n) :
    ClosesFirst (text.take n) := by
  induction text using commentLength?.induct generalizing n with
  | case1 rest =>
    cases found
    exact ⟨List.suffix_rfl, (by decide : ¬ ['*', '/'] <:+: ['*'])⟩
  | case2 d rest other ih =>
    rw [commentLength?.eq_2 _ _ other, Option.map_eq_some_iff] at found
    obtain ⟨m, found, rfl⟩ := found
    apply (ih found).cons
    intro here
    have there : ['*', '/'] <+: d :: rest :=
      here.trans (List.cons_prefix_cons.2 ⟨rfl, List.take_prefix m rest⟩)
    obtain ⟨star, tail, slash⟩ := begins_closed.1 there
    exact other tail star slash
  | case3 => cases found

theorem matched_blockComment (rest : List Char) :
    Matched ('/' :: '*' :: rest) (match commentLength? rest with
      | some length => (.blank, 1 + length)
      | none => (.invalid, ('*' :: rest).length)) := by
  have opened := longest_commentStart rest
  split
  · next length closed =>
    rw [Nat.add_comm]
    refine ⟨.blockComment (rest.take length), trivial, rfl, ?_, commentLength?_eq_some closed⟩
    rw [List.drop_succ_cons, List.drop_succ_cons, List.take_append_drop]
    exact opened
  · next endless => exact .unclosed opened (commentLength?_eq_none endless)

theorem matched_munch (c : Char) (text : List Char) : Matched (c :: text) (munch c text) := by
  by_cases blank : isBlank c
  · rw [munch.eq_def, if_pos blank]
    exact matched_blank blank
  by_cases hash : c = '#'
  · subst hash
    exact matched_directive
  by_cases word : isWordStart c
  · exact matched_word word
  by_cases number : c.isDigit
  · rw [munch.eq_def, if_neg blank, if_neg hash, if_neg word, if_pos number]
    exact matched_number number
  -- What is left begins with a point, a slash or a character that only symbols begin with, if any.
  rw [munch.eq_def, if_neg blank, if_neg hash, if_neg word, if_neg number]
  split
  · next second rest =>
    split
    · next digit => exact matched_fraction (span_cons_digit_pos digit)
    · next other =>
      apply OnlySymbols.matched_munchSymbol
      apply onlySymbols blank hash word number
      · intro _
        rw [span, List.takeWhile_cons_of_neg other, List.length_nil]
      · intro slash
        exact absurd slash (by decide)
  · next rest => exact matched_lineComment rest
  · next rest => exact matched_blockComment rest
  · next point line block =>
    apply OnlySymbols.matched_munchSymbol
    apply onlySymbols blank hash word number
    · rintro rfl
      cases text with
      | nil => rfl
      | cons second rest => exact absurd rfl (point second rest rfl)
    · rintro rfl d first
      obtain ⟨rest, rfl⟩ := List.head?_eq_some_iff.1 first
      constructor
      · rintro rfl
        exact line rest rfl rfl
      · rintro rfl
        exact block rest rfl rfl

end

/-! ## Whole sources -/

theorem placed_cons (before : List Char) (s : Segment) (segments : List Segment) :
    placed before (s :: segments) = placed before [s] ++ placed (before ++ s.text) segments := by
  cases s <;> rfl

theorem placed_skipped {s : Segment} (skipped : s.Skipped) (before : List Char) :
    placed before [s] = [] := by
  cases s with
  | token => cases skipped
  | _ => rfl

theorem textOf_cons (s : Segment) (segments : List Segment) :
    textOf (s :: segments) = s.text ++ textOf segments :=
  List.flatMap_cons

/-- What belongs to the match before is passed over. -/
theorem scan_skip (n : ℕ) (before text : List Char) :
    scan n (place before) text = scan 0 (place (before ++ text.take n)) (text.drop n) := by
  induction text generalizing n before with
  | nil => cases n <;> simp [scan]
  | cons c text ih =>
    cases n with
    | zero => simp
    | succ n =>
      rw [scan, ← place_concat, ih, List.append_assoc]
      rfl

/-- What the tokens of a text, or the error in it, say of the text behind what is read already. -/
def Accounts (before text : List Char) : Except LexicalError (List Token) → Prop
  | .ok tokens => ∃ segments, text = textOf segments ∧ AllFit segments [] ∧ tokens = placed before segments
  | .error e => ∃ segments rest, text = textOf segments ++ rest ∧ AllFit segments rest ∧ Stuck rest ∧
      e.pos = place (before ++ textOf segments)

/-- A segment that fits is put in front of an account of what is behind it. -/
theorem Accounts.cons {before rest : List Char} {s : Segment} {result : Except LexicalError (List Token)}
    (fits : s.Fits rest) (account : Accounts (before ++ s.text) rest result) :
    Accounts before (s.text ++ rest) (result.map (placed before [s] ++ ·)) := by
  cases result with
  | ok tokens =>
    obtain ⟨segments, rfl, all, rfl⟩ := account
    refine ⟨s :: segments, (textOf_cons s segments).symm, ⟨?_, all⟩, (placed_cons before s segments).symm⟩
    rwa [List.append_nil]
  | error e =>
    obtain ⟨segments, stuck, rfl, all, holds, pos⟩ := account
    refine ⟨s :: segments, stuck, ?_, ⟨fits, all⟩, holds, ?_⟩
    · rw [textOf_cons, List.append_assoc]
    · rw [textOf_cons, ← List.append_assoc]
      exact pos

/-- A match leaves a shorter text, and the lexer goes on at the place behind it. -/
theorem accounts_scan (before text : List Char) : Accounts before text (scan 0 (place before) text) := by
  -- On the length of what is left; the place behind what is read is that of the text before it.
  induction length : text.length using Nat.strong_induction_on generalizing before text with
  | h _ ih =>
  cases text with
  | nil => exact ⟨[], rfl, trivial, rfl⟩
  | cons c text =>
    obtain ⟨found, n, munched⟩ : ∃ found n, munch c text = (found, n) := ⟨_, _, rfl⟩
    have matched := matched_munch c text
    have cut : (c :: text).take (n + 1) ++ (c :: text).drop (n + 1) = c :: text := List.take_append_drop _ _
    have shorter : ((c :: text).drop (n + 1)).length < (c :: text).length := by
      rw [List.length_drop, List.length_cons]
      omega
    have behind := ih _ (length ▸ shorter) (before ++ (c :: text).take (n + 1)) _ rfl
    have skip : scan n ((place before).advance c) text =
        scan 0 (place (before ++ (c :: text).take (n + 1))) ((c :: text).drop (n + 1)) := by
      rw [← place_concat, scan_skip, List.append_assoc]
      rfl
    rw [munched] at matched
    rw [scan, munched]
    dsimp only
    rw [skip]
    cases found with
    | blank =>
      obtain ⟨s, skipped, same, fits⟩ := matched
      rw [← same] at behind cut ⊢
      have account := Accounts.cons fits behind
      rw [cut, placed_skipped skipped] at account
      generalize scan 0 _ _ = result at account ⊢
      cases result <;> exact account
    | invalid => exact ⟨[], c :: text, rfl, trivial, matched, (congrArg place (List.append_nil before)).symm⟩
    | token kind =>
      have account := @Accounts.cons before _ (.token kind _) _ matched behind
      rw [Segment.text, cut] at account
      generalize scan 0 _ _ = result at account ⊢
      cases result <;> exact account

/-- Every source is cut into tokens, blanks and comments up to its end or to where the lexer fails. -/
theorem tokenize_accounts (source : String) :
    match tokenize source with
    | .ok tokens => ∃ segments,
        source.toList = textOf segments ∧ AllFit segments [] ∧ tokens = placed [] segments
    | .error e => ∃ segments rest,
        source.toList = textOf segments ++ rest ∧ AllFit segments rest ∧ Stuck rest ∧
          e.pos = place (textOf segments) := by
  have account := accounts_scan [] source.toList
  exact account

example : tokenize "/* é **/ in .5e1f" =
    .ok [⟨.keyword .input, "in", ⟨1, 11⟩⟩, ⟨.floatLiteral, ".5e1f", ⟨1, 14⟩⟩] := by
  rfl

example : tokenize "x // /*\n  /* open" = .error ⟨"/* open", ⟨2, 3⟩⟩ := by
  decide +kernel

end ComputeShader
