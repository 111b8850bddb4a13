import ComputeShader.Shader.Parser.State
import ComputeShader.Source.Lexer

/-! # Tokens of spaced text

A token is separate if its text is the longest match wherever a blank or the end of the source follows. A
text of separate tokens with a blank between each two is split into these tokens.
-/

namespace ComputeShader

/-- A token that stands at the start of a source. -/
def Token.unplaced (t : Token) : Token := { t with pos := .start }

namespace Lexer

/-- Whether a text is at its end or begins with a space. -/
def Ended (tail : List Char) : Prop := ∀ c ∈ tail.head?, c = ' '

theorem ended_nil : Ended [] := by
  rintro c ⟨⟩

theorem ended_space (tail : List Char) : Ended (' ' :: tail) := by
  rintro c ⟨⟩
  rfl

/-- Whether the text of a token is matched as a whole where it ends. -/
def Separate (t : Token) : Prop :=
  ∃ c cs, t.lexeme.toList = c :: cs ∧ isBlank c = false ∧
    ∀ tail, Ended tail → munch c (cs ++ tail) = (.token t.kind, cs.length)

/-! ## Splitting -/

/-- What belongs to the match before is passed over. -/
theorem scan_append (text rest : List Char) (pos : Position) :
    scan text.length pos (text ++ rest) = scan 0 (text.foldl Position.advance pos) rest := by
  induction text generalizing pos with
  | nil => rfl
  | cons c text ih => exact ih (pos.advance c)

theorem scan_token {t : Token} {c : Char} {cs tail : List Char} (text : t.lexeme.toList = c :: cs)
    (matched : munch c (cs ++ tail) = (.token t.kind, cs.length)) (pos : Position) :
    scan 0 pos (t.lexeme.toList ++ tail) =
      (scan 0 (cs.foldl Position.advance (pos.advance c)) tail).map ({ t with pos } :: ·) := by
  have lexeme : String.ofList (c :: (cs ++ tail).take cs.length) = t.lexeme := by
    rw [List.take_left, ← text, String.ofList_toList]
  rw [text, List.cons_append, scan, matched]
  dsimp only
  rw [scan_append, lexeme]
  cases scan 0 (cs.foldl Position.advance (pos.advance c)) tail <;> rfl

theorem scan_space {c : Char} {text : List Char} (next : isBlank c = false) (pos : Position) :
    scan 0 pos (' ' :: c :: text) = scan 0 (pos.advance ' ') (c :: text) := by
  have none : span isBlank (c :: text) = 0 := by rw [span, List.takeWhile_cons, next]; rfl
  have blank : munch ' ' (c :: text) = (.blank, span isBlank (c :: text)) := rfl
  rw [scan, blank, none]

/-- Separate tokens are read from the text that has a space between each two. -/
theorem scan_spaced {ts : List Token} (separate : ∀ t ∈ ts, Separate t) (pos : Position) :
    ∃ tokens, scan 0 pos ([' '].intercalate (ts.map fun t => t.lexeme.toList)) = .ok tokens ∧
      tokens.map Token.unplaced = ts.map Token.unplaced := by
  induction ts generalizing pos with
  | nil => exact ⟨[], rfl, rfl⟩
  | cons t rest ih =>
    obtain ⟨first, later⟩ := List.forall_mem_cons.1 separate
    obtain ⟨c, cs, text, -, matched⟩ := first
    cases rest with
    | nil =>
      refine ⟨[{ t with pos }], ?_, rfl⟩
      have whole := scan_token text (matched [] ended_nil) pos
      simpa [scan, Except.map] using whole
    | cons next rest =>
      obtain ⟨d, ds, text', notBlank, -⟩ := later next List.mem_cons_self
      obtain ⟨tokens, ran, same⟩ :=
        ih later ((cs.foldl Position.advance (pos.advance c)).advance ' ')
      refine ⟨{ t with pos } :: tokens, ?_, congrArg (t.unplaced :: ·) same⟩
      have spaced : [' '].intercalate ((t :: next :: rest).map fun t => t.lexeme.toList) =
          t.lexeme.toList ++ ' ' :: [' '].intercalate ((next :: rest).map fun t => t.lexeme.toList) := by
        simp [List.intercalate]
      obtain ⟨text'', begins⟩ : ∃ text'',
          [' '].intercalate ((next :: rest).map fun t => t.lexeme.toList) = d :: text'' := by
        cases rest with
        | nil => exact ⟨ds, by simp [List.intercalate, text']⟩
        | cons => exact ⟨_, by simp [List.intercalate, text']; rfl⟩
      rw [spaced, scan_token text (matched _ (ended_space _)), begins, scan_space notBlank, ← begins, ran]
      rfl

/-! ## Symbols and words -/

theorem separate_symbol (s : Symbol) (pos : Position) :
    Separate ⟨.symbol s, String.ofList s.chars, pos⟩ := by
  have matched (tail : List Char) (ended : Ended tail) : ∃ c cs, s.chars = c :: cs ∧
      isBlank c = false ∧ munch c (cs ++ tail) = (.token (.symbol s), cs.length) := by
    cases tail with
    | nil => cases s <;> exact ⟨_, _, rfl, rfl, rfl⟩
    | cons d tail =>
      obtain rfl := ended d rfl
      cases s <;> exact ⟨_, _, rfl, rfl, rfl⟩
  obtain ⟨c, cs, text, notBlank, -⟩ := matched [] ended_nil
  refine ⟨c, cs, by rw [String.toList_ofList, text], notBlank, fun tail ended => ?_⟩
  obtain ⟨c', cs', text', -, whole⟩ := matched tail ended
  cases text.symm.trans text'
  exact whole

/-- The number of leading characters of a class, where the next one is of another. -/
theorem span_append {p : Char → Bool} {text tail : List Char} (all : ∀ c ∈ text, p c)
    (stop : ∀ c ∈ tail.head?, p c = false) : span p (text ++ tail) = text.length := by
  have none_left : tail.takeWhile p = [] := by
    cases tail with
    | nil => rfl
    | cons c tail => simp [stop c rfl]
  rw [span, List.takeWhile_append_of_pos all, none_left, List.append_nil]

theorem Ended.stops {p : Char → Bool} {tail : List Char} (ended : Ended tail) (space : p ' ' = false) :
    ∀ c ∈ tail.head?, p c = false :=
  fun c first => ended c first ▸ space

/-- Characters of a class without blanks are no blanks. -/
theorem isBlank_eq_false {p : Char → Bool} {c : Char} (holds : p c)
    (apart : [' ', '\t', '\r', '\n', '\x0c'].all (!p ·)) : isBlank c = false := by
  refine Bool.eq_false_iff.2 fun blank => ?_
  have listed : c ∈ [' ', '\t', '\r', '\n', '\x0c'] := by
    simpa [isBlank, or_assoc] using blank
  have excluded := List.all_eq_true.1 apart c listed
  rw [holds] at excluded
  cases excluded

/-- Whether a text begins like a word and goes on like one. -/
def IsWord (text : String) : Prop :=
  ∃ c cs, text.toList = c :: cs ∧ isWordStart c ∧ ∀ d ∈ cs, isWordPart d

theorem isWordStart_cases {c : Char} (starts : isWordStart c) :
    isBlank c = false ∧ c ≠ '#' := by
  refine ⟨isBlank_eq_false starts (by decide), ?_⟩
  rintro rfl
  exact absurd starts (by decide)

/-- A word is a keyword or an identifier. -/
theorem separate_word {text : String} (word : IsWord text) (pos : Position) :
    Separate ⟨((Keyword.ofText? text).map TokenKind.keyword).getD .identifier, text, pos⟩ := by
  obtain ⟨c, cs, chars, starts, goes_on⟩ := word
  obtain ⟨notBlank, notDirective⟩ := isWordStart_cases starts
  refine ⟨c, cs, chars, notBlank, fun tail ended => ?_⟩
  have length : span isWordPart (cs ++ tail) = cs.length :=
    span_append goes_on (ended.stops (by decide))
  have whole : String.ofList (c :: (cs ++ tail).take cs.length) = text := by
    rw [List.take_left, ← chars, String.ofList_toList]
  rw [munch.eq_def, if_neg (by simp [notBlank]), if_neg notDirective, if_pos starts]
  dsimp only
  rw [length, whole]
  cases Keyword.ofText? text <;> rfl

end Lexer

end ComputeShader
