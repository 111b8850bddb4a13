import ComputeShader.Proofs.SpelledIntegers
import ComputeShader.Shader.Parser.Expression

/-! # Written expressions

Expressions as they are written: literals with their spelling, local variables by name, swizzles by
letters. An expression is written as tokens with a space between each two, and operands are put in
parentheses where they bind less tightly than their place asks for.
-/

namespace ComputeShader

/-! ## Names -/

/-- The names of a vector's components. -/
inductive Naming where
  | position
  | color
  | coordinate
  deriving DecidableEq, Repr

def Naming.letter : Naming → Fin 4 → Char
  | position => fun i => ['x', 'y', 'z', 'w'][i]
  | color => fun i => ['r', 'g', 'b', 'a'][i]
  | coordinate => fun i => ['s', 't', 'p', 'q'][i]

def Naming.letters : Naming → String
  | position => "xyzw"
  | color => "rgba"
  | coordinate => "stpq"

/-- A letter belongs to one way of naming components only, and stands at its place there. -/
theorem Naming.idxOf?_letter (naming other : Naming) (i : Fin 4) :
    other.letters.toList.idxOf? (naming.letter i) = if other = naming then some i.val else none := by
  revert i
  cases naming <;> cases other <;> decide

theorem Naming.mapM_letter (naming other : Naming) {selection : List (Fin 4)} (nonempty : selection ≠ []) :
    (selection.map naming.letter).mapM (other.letters.toList.idxOf? ·) =
      if other = naming then some (selection.map Fin.val) else none := by
  split
  · next same =>
    subst same
    clear nonempty
    induction selection with
    | nil => rfl
    | cons i rest ih => simp [idxOf?_letter, ih]
  · next different =>
    obtain ⟨i, rest, rfl⟩ := List.exists_cons_of_ne_nil nonempty
    simp [idxOf?_letter, different]

/-- Every keyword has a letter that names no component. -/
theorem Keyword.exists_other_letter (k : Keyword) :
    ∃ c ∈ k.text.toList, ∀ (naming : Naming) (i : Fin 4), naming.letter i ≠ c := by
  have vowels : k.text.toList.any ['e', 'i', 'u'].contains := by cases k <;> decide
  have other (naming : Naming) : ∀ i, naming.letter i ∉ ['e', 'i', 'u'] := by cases naming <;> decide
  obtain ⟨c, member, vowel⟩ := List.any_eq_true.1 vowels
  exact ⟨c, member, fun naming i same => other naming i (same ▸ List.contains_iff_mem.1 vowel)⟩

/-- One to four components, all named in one way. -/
structure WrittenSwizzle where
  naming : Naming
  selection : List (Fin 4)
  nonempty : selection ≠ []
  short : selection.length ≤ 4

namespace WrittenSwizzle

def text (w : WrittenSwizzle) : String := String.ofList (w.selection.map w.naming.letter)

def components (w : WrittenSwizzle) : List Nat := w.selection.map Fin.val

/-- The letters are read as the components that they name. -/
theorem selection?_text (w : WrittenSwizzle) : Parser.selection? w.text = some w.components := by
  have all : ["xyzw", "rgba", "stpq"].map String.toList =
      [Naming.position, .color, .coordinate].map (·.letters.toList) := rfl
  have chosen : [Naming.position, .color, .coordinate].findSome?
      (fun other => if other = w.naming then some w.components else none) = some w.components := by
    cases w.naming <;> rfl
  have bounds : 1 ≤ w.components.length ∧ w.components.length ≤ 4 := by
    rw [components, List.length_map]
    exact ⟨List.length_pos_iff.2 w.nonempty, w.short⟩
  unfold Parser.selection? text
  simp only [String.toList_ofList, all, List.findSome?_map, Function.comp_def,
    w.naming.mapM_letter _ w.nonempty]
  rw [← components, chosen]
  simp [bounds]

theorem isWord_text (w : WrittenSwizzle) : Lexer.IsWord w.text := by
  obtain ⟨i, rest, chars⟩ := List.exists_cons_of_ne_nil w.nonempty
  have letter (i : Fin 4) : Lexer.isWordStart (w.naming.letter i) ∧ Lexer.isWordPart (w.naming.letter i) := by
    revert i
    cases w.naming <;> decide
  refine ⟨w.naming.letter i, rest.map w.naming.letter, by simp [text, chars], (letter i).1, ?_⟩
  intro c member
  obtain ⟨j, -, rfl⟩ := List.mem_map.1 member
  exact (letter j).2

theorem unreserved (w : WrittenSwizzle) : Keyword.ofText? w.text = none := by
  refine List.find?_eq_none.2 fun k _ same => ?_
  obtain ⟨c, member, other⟩ := k.exists_other_letter
  rw [of_decide_eq_true same, text, String.toList_ofList] at member
  obtain ⟨i, -, equal⟩ := List.mem_map.1 member
  exact other w.naming i equal

end WrittenSwizzle

/-- The name of a local variable. -/
structure LocalName where
  text : String
  word : Lexer.IsWord text
  unreserved : Keyword.ofText? text = none

/-! ## Operators -/

namespace Connective

/-- The operators from the loosest to the tightest ones. -/
def precedence : List (List Connective) :=
  [[logical .or], [logical .and], [binary .bitOr], [binary .bitXor], [binary .bitAnd],
    [binary .eq, binary .ne], [binary .lt, binary .le, binary .gt, binary .ge], [binary .shl, binary .shr],
    [binary .add, binary .sub], [binary .mul, binary .div, binary .mod]]

/-- The place of an operator in the order of precedence, from one. -/
def tightness (c : Connective) : Nat := precedence.findIdx (·.contains c) + 1

def symbol : Connective → Symbol
  | logical .or => .orOr
  | logical .and => .andAnd
  | binary .bitOr => .pipe
  | binary .bitXor => .caret
  | binary .bitAnd => .amp
  | binary .eq => .equal
  | binary .ne => .notEqual
  | binary .lt => .less
  | binary .le => .lessEqual
  | binary .gt => .greater
  | binary .ge => .greaterEqual
  | binary .shl => .shiftLeft
  | binary .shr => .shiftRight
  | binary .add => .plus
  | binary .sub => .minus
  | binary .mul => .star
  | binary .div => .slash
  | binary .mod => .percent

/-- The parser's levels are those of the order of precedence. -/
theorem tightness_eq (c : Connective) : c.tightness = c.level + 1 := by
  cases c with
  | logical op => cases op <;> rfl
  | binary op => cases op <;> rfl

theorem ofSymbol?_symbol (c : Connective) : ofSymbol? c.symbol = some c := by
  cases c with
  | logical op => cases op <;> rfl
  | binary op => cases op <;> rfl

theorem level_lt (c : Connective) : c.level < levels := by
  cases c with
  | logical op => cases op <;> decide
  | binary op => cases op <;> decide

theorem tightness_le (c : Connective) : c.tightness ≤ 10 := c.tightness_eq ▸ c.level_lt

end Connective

/-- The symbol in front of an operand. -/
def UnaryOp.sign : UnaryOp → Symbol
  | neg => .minus
  | not => .bang
  | bitNot => .tilde

/-! ## Trees -/

/-- An expression as it is written. -/
inductive Term where
  | integer (w : WrittenInteger)
  | bool (b : Bool)
  | name (n : LocalName)
  | unary (op : UnaryOp) (operand : Term)
  | joined (c : Connective) (left right : Term)
  | choice (condition accepted rejected : Term)
  | subscript (base index : Term)
  | swizzle (base : Term) (w : WrittenSwizzle)

/-- A symbol as a token. -/
def Symbol.token (s : Symbol) : Token := ⟨.symbol s, String.ofList s.chars, .start⟩

/-- Tokens in parentheses. -/
def inParentheses (ts : List Token) : List Token :=
  Symbol.parenOpen.token :: (ts ++ [Symbol.parenClose.token])

/-- The tokens of an operand, in parentheses if it binds less tightly than its place asks for. -/
def fitted (place tightness : Nat) (ts : List Token) : List Token :=
  if tightness < place then inParentheses ts else ts

namespace Term

/-- How tightly an expression binds: a choice least, then the operators in their order, unary operators and
what needs no parentheses anywhere. -/
def tightness : Term → Nat
  | choice .. => 0
  | joined c .. => c.tightness
  | unary .. => 11
  | integer _ | bool _ | name _ | subscript .. | swizzle .. => 12

/-- The tokens of an expression. -/
def tokens : Term → List Token
  | integer w => [⟨.intLiteral, w.text, .start⟩]
  | bool true => [⟨.keyword .yes, "true", .start⟩]
  | bool false => [⟨.keyword .no, "false", .start⟩]
  | name n => [⟨.identifier, n.text, .start⟩]
  | unary op operand => op.sign.token :: fitted 11 operand.tightness operand.tokens
  | joined c left right =>
    fitted c.tightness left.tightness left.tokens ++
      c.symbol.token :: fitted (c.tightness + 1) right.tightness right.tokens
  | choice condition accepted rejected =>
    fitted 1 condition.tightness condition.tokens ++
      Symbol.question.token :: (accepted.tokens ++ Symbol.colon.token :: rejected.tokens)
  | subscript base index =>
    fitted 12 base.tightness base.tokens ++
      Symbol.bracketOpen.token :: (index.tokens ++ [Symbol.bracketClose.token])
  | swizzle base w =>
    fitted 12 base.tightness base.tokens ++ [Symbol.dot.token, ⟨.identifier, w.text, .start⟩]

/-- The text of an expression, a space between each two tokens. -/
def text (t : Term) : String := " ".intercalate (t.tokens.map Token.lexeme)

/-- The names in an expression. -/
def names : Term → List String
  | integer _ | bool _ => []
  | name n => [n.text]
  | unary _ operand => operand.names
  | joined _ left right => left.names ++ right.names
  | choice condition accepted rejected => condition.names ++ (accepted.names ++ rejected.names)
  | subscript base index => base.names ++ index.names
  | swizzle base _ => base.names

/-- The tree of an expression, whose names stand for local variables. -/
def expr (slots : String → Nat) : Term → Expr
  | integer w => .literal .start (.ofScalar w.value)
  | bool b => .literal .start (.bool b)
  | name n => .localVar .start (slots n.text)
  | unary op operand => .unary .start op (operand.expr slots)
  | joined c left right => c.join (left.expr slots) (right.expr slots)
  | choice condition accepted rejected =>
    .ternary .start (condition.expr slots) (accepted.expr slots) (rejected.expr slots)
  | subscript base index => .subscript .start (base.expr slots) (index.expr slots)
  | swizzle base w => .swizzle .start (base.expr slots) w.components

end Term

/-! ## Splitting -/

theorem Symbol.separate_token (s : Symbol) : Lexer.Separate s.token := Lexer.separate_symbol s .start

theorem separate_fitted {place tightness : Nat} {ts : List Token} (separate : ∀ t ∈ ts, Lexer.Separate t) :
    ∀ t ∈ fitted place tightness ts, Lexer.Separate t := by
  unfold fitted
  split
  · refine List.forall_mem_cons.2 ⟨Symbol.separate_token _, List.forall_mem_append.2 ⟨separate, ?_⟩⟩
    exact List.forall_mem_singleton.2 (Symbol.separate_token _)
  · exact separate

/-- A word that is no keyword is an identifier. -/
theorem separate_identifier {text : String} (word : Lexer.IsWord text)
    (unreserved : Keyword.ofText? text = none) : Lexer.Separate ⟨.identifier, text, .start⟩ := by
  have separate := Lexer.separate_word word .start
  rwa [unreserved] at separate

namespace Term

theorem separate_tokens (t : Term) : ∀ token ∈ t.tokens, Lexer.Separate token := by
  induction t with
  | integer w => exact List.forall_mem_singleton.2 (w.separate_text .start)
  | bool b =>
    cases b <;>
      exact List.forall_mem_singleton.2 (Lexer.separate_word ⟨_, _, rfl, rfl, List.all_eq_true.1 rfl⟩ .start)
  | name n => exact List.forall_mem_singleton.2 (separate_identifier n.word n.unreserved)
  | unary op operand ih =>
    exact List.forall_mem_cons.2 ⟨Symbol.separate_token _, separate_fitted ih⟩
  | joined c left right ihl ihr =>
    refine List.forall_mem_append.2 ⟨separate_fitted ihl, ?_⟩
    exact List.forall_mem_cons.2 ⟨Symbol.separate_token _, separate_fitted ihr⟩
  | choice condition accepted rejected ihc iha ihr =>
    refine List.forall_mem_append.2 ⟨separate_fitted ihc, ?_⟩
    refine List.forall_mem_cons.2 ⟨Symbol.separate_token _, List.forall_mem_append.2 ⟨iha, ?_⟩⟩
    exact List.forall_mem_cons.2 ⟨Symbol.separate_token _, ihr⟩
  | subscript base index ihb ihi =>
    refine List.forall_mem_append.2 ⟨separate_fitted ihb, ?_⟩
    refine List.forall_mem_cons.2 ⟨Symbol.separate_token _, List.forall_mem_append.2 ⟨ihi, ?_⟩⟩
    exact List.forall_mem_singleton.2 (Symbol.separate_token _)
  | swizzle base w ih =>
    refine List.forall_mem_append.2 ⟨separate_fitted ih, ?_⟩
    refine List.forall_mem_cons.2 ⟨Symbol.separate_token _, ?_⟩
    exact List.forall_mem_singleton.2 (separate_identifier w.isWord_text w.unreserved)

theorem fitted_unplaced {place tightness : Nat} {ts : List Token} (same : ts.map Token.unplaced = ts) :
    (fitted place tightness ts).map Token.unplaced = fitted place tightness ts := by
  unfold fitted
  split
  · simp [inParentheses, same, Symbol.token, Token.unplaced]
  · exact same

/-- The tokens of an expression stand at the start of the source. -/
theorem tokens_unplaced (t : Term) : t.tokens.map Token.unplaced = t.tokens := by
  induction t with
  | bool b => cases b <;> rfl
  | integer | name => rfl
  | _ => simp_all [tokens, fitted_unplaced, Symbol.token, Token.unplaced]

/-- The text of an expression is split into its tokens. -/
theorem tokenize_text (t : Term) :
    ∃ tokens, tokenize t.text = .ok tokens ∧ tokens.map Token.unplaced = t.tokens := by
  obtain ⟨tokens, ran, same⟩ := Lexer.scan_spaced t.separate_tokens .start
  refine ⟨tokens, ?_, same.trans t.tokens_unplaced⟩
  rw [tokenize, text, String.toList_intercalate, List.map_map]
  exact ran

end Term

end ComputeShader
