import ComputeShader.Proofs.ErasedPositions
import ComputeShader.Proofs.WrittenExpressions

/-! # Reading written expressions

An expression whose names are local variables is read back from its tokens. The tokens of an operand are
read as far as they go: what follows must bind it less tightly than the operand's place asks for, and the
fuel falls by at most sixteen from one token to the next.
-/

namespace ComputeShader

/-! ## What follows an expression -/

/-- How tightly a token binds the expression in front of it, if it can continue one. -/
def TokenKind.grip? : TokenKind → Option Nat
  | .symbol .question => some 0
  | .symbol .bracketOpen | .symbol .dot => some 12
  | .symbol .parenOpen => some 13
  | .symbol s => (Connective.ofSymbol? s).map Connective.tightness
  | _ => none

/-- Whether the next token, if any, binds less tightly than a place asks for. -/
def Looser (place : Nat) (rest : List Token) : Prop :=
  ∀ t ∈ rest.head?, ∀ grip, t.kind.grip? = some grip → grip < place

theorem Looser.mono {place place' : Nat} {rest : List Token} (looser : Looser place rest)
    (le : place ≤ place') : Looser place' rest :=
  fun t next grip held => Nat.lt_of_lt_of_le (looser t next grip held) le

/-- A token that binds as tightly as a place asks for does not follow. -/
theorem Looser.next_ne {place grip : Nat} {rest : List Token} {kind : TokenKind} (looser : Looser place rest)
    (held : kind.grip? = some grip) (le : place ≤ grip) : rest.head?.map Token.kind ≠ some kind := by
  intro same
  obtain ⟨t, next, rfl⟩ := Option.map_eq_some_iff.1 same
  exact absurd (looser t next grip held) (Nat.not_lt_of_le le)

theorem looser_nil (place : Nat) : Looser place [] := by
  rintro t ⟨⟩

theorem looser_cons {t : Token} {place grip : Nat} (held : t.kind.grip? = some grip) (lt : grip < place)
    (rest : List Token) : Looser place (t :: rest) := by
  rintro t' ⟨⟩ grip' held'
  obtain rfl := Option.some.inj (held.symm.trans held')
  exact lt

/-- What continues no expression is looser than every place. -/
theorem looser_end {t : Token} (held : t.kind.grip? = none) (place : Nat) (rest : List Token) :
    Looser place (t :: rest) := by
  rintro t' ⟨⟩ grip held'
  cases held.symm.trans held'

theorem Connective.grip?_symbol (c : Connective) : TokenKind.grip? (.symbol c.symbol) = some c.tightness := by
  cases c with
  | logical op => cases op <;> rfl
  | binary op => cases op <;> rfl

theorem Connective.eq_symbol {s : Symbol} {c : Connective} (named : ofSymbol? s = some c) : s = c.symbol := by
  cases s <;> cases named <;> rfl

theorem Connective.grip?_of_at? {level : Nat} {kind : TokenKind} {c : Connective}
    (found : at? level (some kind) = some c) : kind.grip? = some (level + 1) := by
  cases kind with
  | symbol s =>
    obtain ⟨named, equal⟩ := Option.filter_eq_some_iff.1 found
    rw [eq_symbol named, c.grip?_symbol, c.tightness_eq, of_decide_eq_true equal]
  | _ => cases found

/-- Between operands of a level, what binds less tightly ends the chain. -/
theorem Connective.at?_of_looser {level : Nat} {rest : List Token} (looser : Looser (level + 1) rest) :
    at? level (rest.head?.map Token.kind) = none := by
  cases rest with
  | nil => rfl
  | cons t rest =>
    refine Option.eq_none_iff_forall_ne_some.2 fun c found => ?_
    exact looser.next_ne (grip?_of_at? found) (Nat.le_refl _) rfl

theorem Connective.at?_symbol (c : Connective) : at? c.level (some (.symbol c.symbol)) = some c := by
  simp [at?, c.ofSymbol?_symbol]

/-! ## Running parsers -/

/-- The state with other tokens to read. -/
def ParserState.facing (s : ParserState) (rest : List Token) : ParserState := { s with rest }

theorem Expr.pos_unplaced (e : Expr) : e.unplaced.pos = .start := by cases e <;> rfl

namespace Parser

variable {α β : Type} {s s' : ParserState} {rest tokens : List Token} {t : Token}

theorem bind_of_ok {x : Parser α} {k : α → Parser β} {a : α} (ran : x s = .ok (a, s')) :
    (x >>= k) s = k a s' := by
  simp only [bind, StateT.bind, ran]
  rfl

theorem peek?_facing : peek? (s.facing rest) = .ok (rest.head?.map Token.kind, s.facing rest) := rfl

theorem skip_facing : skip (s.facing (t :: rest)) = .ok ((), s.facing rest) := rfl

theorem next?_facing : next? (s.facing (t :: rest)) = .ok (some t, s.facing rest) := rfl

theorem expect_facing {kind : TokenKind} (same : t.kind = kind) (what : String) :
    expect kind what (s.facing (t :: rest)) = .ok (t, s.facing rest) := by
  subst same
  unfold expect
  rw [bind_of_ok (a := s.facing (t :: rest)) rfl]
  dsimp only [ParserState.facing]
  rw [if_pos rfl]
  rfl

theorem expectSymbol_facing {symbol : Symbol} (same : t.kind = .symbol symbol) :
    expectSymbol symbol (s.facing (t :: rest)) = .ok ((), s.facing rest) := by
  unfold expectSymbol
  rw [bind_of_ok (expect_facing same _)]
  rfl

theorem consumeSymbol_facing {symbol : Symbol} (same : t.kind = .symbol symbol) :
    consumeSymbol symbol (s.facing (t :: rest)) = .ok (true, s.facing rest) := by
  unfold consumeSymbol consume
  rw [bind_of_ok peek?_facing, if_pos (by rw [← same]; rfl), bind_of_ok skip_facing]
  rfl

theorem consumeSymbol_of_ne {symbol : Symbol} (other : rest.head?.map Token.kind ≠ some (.symbol symbol)) :
    consumeSymbol symbol (s.facing rest) = .ok (false, s.facing rest) := by
  unfold consumeSymbol consume
  rw [bind_of_ok peek?_facing, if_neg other]
  rfl

/-- Where nothing continues an operand, its suffixes are read. -/
theorem parseSuffixes_of_looser (looser : Looser 12 rest) (fuel : Nat) (operand : Operand) :
    parseSuffixes (fuel + 1) operand (s.facing rest) = .ok (operand, s.facing rest) := by
  rw [parseSuffixes, bind_of_ok peek?_facing]
  refine (congrFun (?_ : _ = pure operand) (s.facing rest)).trans rfl
  split
  · next bracket => exact absurd bracket (looser.next_ne rfl (Nat.le_refl 12))
  · next dot => exact absurd dot (looser.next_ne rfl (Nat.le_refl 12))
  · rfl

/-- Whether a kind of token begins an operand, and no expression with a sign. -/
def Unsigned (kind : TokenKind) : Prop := kind ≠ .symbol .plus ∧ ∀ op : UnaryOp, kind ≠ .symbol op.sign

theorem parseUnary_operand (unsigned : Unsigned t.kind) (fuel : Nat) :
    parseUnary (fuel + 1) (s.facing (t :: rest)) =
      (parsePrimary fuel >>= fun operand => parseSuffixes fuel operand >>= asValue)
        (s.facing (t :: rest)) := by
  rw [parseUnary, bind_of_ok (a := t.pos) rfl, bind_of_ok peek?_facing]
  refine congrFun ?_ (s.facing (t :: rest))
  split
  · next kind => exact absurd (Option.some.inj kind) (unsigned.2 .neg)
  · next kind => exact absurd (Option.some.inj kind) (unsigned.2 .not)
  · next kind => exact absurd (Option.some.inj kind) (unsigned.2 .bitNot)
  · next kind => exact absurd (Option.some.inj kind) unsigned.1
  · rfl

theorem parseUnary_sign (op : UnaryOp) (kind : t.kind = .symbol op.sign) (fuel : Nat) :
    parseUnary (fuel + 1) (s.facing (t :: rest)) =
      (parseUnary fuel >>= fun e => pure (.unary t.pos op e)) (s.facing rest) := by
  rw [parseUnary, bind_of_ok (a := t.pos) rfl, bind_of_ok peek?_facing, List.head?_cons, Option.map_some, kind]
  cases op <;> rfl

/-! ## Places -/

/-- The parser of a place: of choices at 0, of the ten levels of operators from 1 on, of unary operators at 11,
and of operands with their suffixes at 12. -/
def start (place fuel : Nat) : Parser Expr :=
  if place = 0 then parseExpr fuel else if place ≤ 11 then parseLevel fuel (place - 1) else parseUnary fuel

/-- What a place still reads after an expression: operators of its level, or subscripts and fields. -/
def resume (place fuel : Nat) (e : Expr) : Parser Expr :=
  if 1 ≤ place ∧ place ≤ 10 then parseChain fuel (place - 1) e
  else if place = 12 then parseSuffixes fuel (.value e) >>= asValue
  else pure e

/-- How tightly a token must bind to be read as a part of the expression in front of it; at the
places of choices and of unary operators, this is so from the place itself on. -/
def reach (place : Nat) : Nat := if place = 0 ∨ place = 11 then place else place + 1

theorem reach_le (place : Nat) : reach place ≤ place + 1 := by
  unfold reach
  split <;> omega

theorem le_reach (place : Nat) : place ≤ reach place := by
  unfold reach
  split <;> omega

theorem resume_of_looser {place fuel : Nat} (looser : Looser place rest) (positive : 0 < fuel) (e : Expr) :
    resume place fuel e (s.facing rest) = .ok (e, s.facing rest) := by
  obtain ⟨fuel, rfl⟩ := Nat.exists_eq_add_one.2 positive
  unfold resume
  split
  · next between =>
    obtain ⟨level, rfl⟩ := Nat.exists_eq_add_one.2 between.1
    rw [parseChain, bind_of_ok peek?_facing, Nat.add_sub_cancel, Connective.at?_of_looser looser]
    rfl
  · split
    · next last =>
      subst last
      rw [bind_of_ok (parseSuffixes_of_looser looser fuel _)]
      rfl
    · rfl

theorem start_level {level : Nat} (le : level ≤ 10) (fuel : Nat) :
    start (level + 1) fuel = parseLevel fuel level := by
  rw [start, if_neg (Nat.succ_ne_zero level), if_pos (by omega), Nat.add_sub_cancel]

theorem resume_level {level : Nat} (lt : level < 10) (fuel : Nat) (e : Expr) :
    resume (level + 1) fuel e = parseChain fuel level e := by
  rw [resume, if_pos (by omega), Nat.add_sub_cancel]

/-- An expression that fits a place fits the next looser one. -/
theorem start_of_start {place fuel : Nat} {e : Expr} (lt : place < 12) (looser : Looser (reach place) rest)
    (ran : start (place + 1) fuel s' = .ok (e, s.facing rest)) :
    start place (fuel + 1) s' = resume place fuel e (s.facing rest) := by
  obtain rfl | ⟨level, rfl⟩ : place = 0 ∨ ∃ level, place = level + 1 := by cases place <;> simp
  · have done : consumeSymbol .question (s.facing rest) = .ok (false, s.facing rest) :=
      consumeSymbol_of_ne (looser.next_ne rfl (Nat.le_refl 0))
    rw [start_level (Nat.zero_le 10)] at ran
    change parseExpr (fuel + 1) s' = _
    rw [parseExpr, bind_of_ok ran, bind_of_ok done]
    rfl
  · rw [start_level (by omega), parseLevel]
    split
    · next below =>
      rw [start_level below] at ran
      rw [bind_of_ok ran, resume_level below]
    · next last =>
      obtain rfl : level = 10 := by simp only [Connective.levels] at last; omega
      exact ran

/-! ## Reading back -/

/-- Whether tokens at a place are read as an expression, up to positions. The fuel that the tokens do not
need is left for what follows. -/
def Recovers (s : ParserState) (place : Nat) (ts : List Token) (e : Expr) : Prop :=
  ∀ (tokens rest : List Token) (fuel spare : Nat), tokens.map Token.unplaced = ts →
    Looser (reach place) rest → 16 * ts.length + spare ≤ fuel + place →
    ∃ e' fuel', e'.unplaced = e ∧ spare < fuel' ∧ fuel' ≤ fuel ∧
      start place fuel (s.facing (tokens ++ rest)) = resume place fuel' e' (s.facing rest)

section

variable {place fuel spare : Nat} {ts ts' : List Token} {e e' : Expr}

theorem Recovers.whole (recovers : Recovers s place ts e) (fuel spare : Nat)
    (same : tokens.map Token.unplaced = ts) (looser : Looser place rest)
    (enough : 16 * ts.length + spare ≤ fuel + place) :
    ∃ e', e'.unplaced = e ∧ spare < fuel ∧
      start place fuel (s.facing (tokens ++ rest)) = .ok (e', s.facing rest) := by
  obtain ⟨e', fuel', erased, more, less, ran⟩ :=
    recovers tokens rest fuel spare same (looser.mono (le_reach place)) enough
  refine ⟨e', erased, Nat.lt_of_lt_of_le more less, ran.trans ?_⟩
  exact resume_of_looser looser (Nat.zero_lt_of_lt more) e'

theorem Recovers.step (recovers : Recovers s (place + 1) ts e) (lt : place < 12) :
    Recovers s place ts e := by
  intro tokens rest fuel spare same looser enough
  have looser' : Looser (place + 1) rest := looser.mono (reach_le place)
  cases fuel with
  | zero =>
    obtain ⟨-, -, less, -⟩ := recovers.whole 0 spare same looser' (by omega)
    exact absurd less (Nat.not_lt_zero spare)
  | succ fuel =>
    obtain ⟨e', erased, less, ran⟩ := recovers.whole fuel spare same looser' (by omega)
    exact ⟨e', fuel, erased, less, Nat.le_succ fuel, start_of_start lt looser ran⟩

/-- What fits a place fits every looser one. -/
theorem Recovers.of_le {place' : Nat} (recovers : Recovers s place' ts e) (le : place ≤ place')
    (last : place' ≤ 12) : Recovers s place ts e := by
  obtain ⟨steps, rfl⟩ := Nat.exists_eq_add_of_le le
  induction steps with
  | zero => exact recovers
  | succ steps ih =>
    exact ih (recovers.step (Nat.lt_of_succ_le last)) (Nat.le_add_right place steps) (Nat.le_of_succ_le last)

/-! ## Operands -/

theorem start_operand {rest' : List Token} (unsigned : Unsigned t.kind)
    (ran : parsePrimary fuel (s.facing (t :: rest)) = .ok (.value e, s.facing rest')) :
    start 12 (fuel + 1) (s.facing (t :: rest)) = resume 12 fuel e (s.facing rest') := by
  change parseUnary (fuel + 1) _ = _
  rw [parseUnary_operand unsigned, bind_of_ok ran]
  rfl

/-- A token that is an operand by itself. -/
theorem recovers_token (unsigned : Unsigned t.kind)
    (reads : ∀ t' rest fuel, t'.unplaced = t → Looser 13 rest → ∃ e', e'.unplaced = e ∧
      parsePrimary (fuel + 1) (s.facing (t' :: rest)) = .ok (.value e', s.facing rest)) :
    Recovers s 12 [t] e := by
  intro tokens rest fuel spare same looser enough
  obtain ⟨t', rfl, placed⟩ := List.map_eq_singleton_iff.1 same
  obtain ⟨fuel, rfl⟩ : ∃ less, fuel = less + 2 := ⟨fuel - 2, by simp at enough; omega⟩
  obtain ⟨e', erased, ran⟩ := reads t' rest fuel placed looser
  rw [← placed] at unsigned
  refine ⟨e', fuel + 1, erased, by simp at enough; omega, Nat.le_succ _, start_operand unsigned ran⟩

theorem recovers_integer (w : WrittenInteger) :
    Recovers s 12 [⟨.intLiteral, w.text, .start⟩] (.literal .start (.ofScalar w.value)) := by
  refine recovers_token ⟨by simp, by simp⟩ fun t rest fuel placed _ => ?_
  have kind : t.kind = .intLiteral := congrArg Token.kind placed
  have lexeme : t.lexeme = w.text := congrArg Token.lexeme placed
  refine ⟨.literal t.pos (.ofScalar w.value), rfl, ?_⟩
  rw [parsePrimary, bind_of_ok next?_facing]
  simp only [kind, integerLiteral, lexeme, w.integerValue?_text]
  rfl

theorem recovers_bool (b : Bool) :
    Recovers s 12 [⟨.keyword (if b then .yes else .no), if b then "true" else "false", .start⟩]
      (.literal .start (.bool b)) := by
  refine recovers_token ⟨by simp, by simp⟩ fun t rest fuel placed _ => ?_
  have kind : t.kind = .keyword (if b then .yes else .no) := congrArg Token.kind placed
  refine ⟨.literal t.pos (.bool b), rfl, ?_⟩
  rw [parsePrimary, bind_of_ok next?_facing]
  cases b <;> simp only [kind] <;> rfl

theorem recovers_name {name : String} {slot : Nat} (plain : name.startsWith "gl_" = false)
    (declared : s.names.lookup name = some (.localVar slot)) :
    Recovers s 12 [⟨.identifier, name, .start⟩] (.localVar .start slot) := by
  refine recovers_token ⟨by simp, by simp⟩ fun t rest fuel placed looser => ?_
  have kind : t.kind = .identifier := congrArg Token.kind placed
  have lexeme : t.lexeme = name := congrArg Token.lexeme placed
  have uncalled : rest.head?.map Token.kind ≠ some (.symbol .parenOpen) :=
    looser.next_ne rfl (Nat.le_refl 13)
  have found : lookup? t.lexeme (s.facing rest) = .ok (some (.localVar slot), s.facing rest) := by
    rw [lexeme, ← declared]
    rfl
  refine ⟨.localVar t.pos slot, rfl, ?_⟩
  rw [parsePrimary, bind_of_ok next?_facing]
  simp only [kind]
  rw [bind_of_ok peek?_facing, if_neg uncalled, resolveName, if_neg (by simp [lexeme, plain]),
    bind_of_ok found]
  rfl

/-- The token that a symbol was written as, and the tokens around it. -/
theorem exists_of_unplaced {symbol : Symbol} (same : tokens.map Token.unplaced = ts ++ symbol.token :: ts') :
    ∃ front t back, tokens = front ++ t :: back ∧ front.map Token.unplaced = ts ∧
      t.kind = .symbol symbol ∧ back.map Token.unplaced = ts' := by
  obtain ⟨front, more, rfl, before, same⟩ := List.map_eq_append_iff.1 same
  obtain ⟨t, back, rfl, here, after⟩ := List.map_eq_cons_iff.1 same
  exact ⟨front, t, back, rfl, before, congrArg Token.kind here, after⟩

theorem Recovers.parens (inner : Recovers s 0 ts e) : Recovers s 12 (inParentheses ts) e := by
  intro tokens rest fuel spare same looser enough
  obtain ⟨first, more, rfl, opening, same'⟩ := List.map_eq_cons_iff.1 same
  obtain ⟨inside, last, back, rfl, between, closing, behind⟩ := exists_of_unplaced same'
  obtain rfl := List.map_eq_nil_iff.1 behind
  have opening : first.kind = .symbol .parenOpen := congrArg Token.kind opening
  simp only [inParentheses, List.length_cons, List.length_append, List.length_nil] at enough
  obtain ⟨fuel, rfl⟩ : ∃ less, fuel = less + 2 := ⟨fuel - 2, by omega⟩
  obtain ⟨e', erased, -, ran⟩ := inner.whole fuel 0 between
    (looser_end (by rw [closing]; rfl) 0 rest) (by omega)
  refine ⟨e', fuel + 1, erased, by omega, Nat.le_succ _, ?_⟩
  rw [List.cons_append, List.append_assoc]
  refine start_operand ⟨by simp [opening], ?_⟩ ?_
  · rw [opening]
    rintro op same
    cases op <;> cases same
  · rw [parsePrimary, bind_of_ok next?_facing]
    simp only [opening]
    exact (bind_of_ok ran).trans (bind_of_ok (expectSymbol_facing closing))

/-- Parentheses make an expression fit every place. -/
theorem Recovers.fitted {tightness : Nat} (recovers : Recovers s tightness ts e) (own : tightness ≤ 12)
    (le : place ≤ 12) : Recovers s place (fitted place tightness ts) e := by
  unfold ComputeShader.fitted
  split
  · exact (recovers.of_le (Nat.zero_le _) own).parens.of_le le (Nat.le_refl 12)
  · next fits => exact recovers.of_le (Nat.le_of_not_lt fits) own

/-! ## Operators -/

theorem Recovers.unary (op : UnaryOp) (operand : Recovers s 11 ts e) :
    Recovers s 11 (op.sign.token :: ts) (.unary .start op e) := by
  intro tokens rest fuel spare same looser enough
  obtain ⟨sign, back, rfl, first, same'⟩ := List.map_eq_cons_iff.1 same
  have kind : sign.kind = .symbol op.sign := congrArg Token.kind first
  simp only [List.length_cons] at enough
  obtain ⟨fuel, rfl⟩ : ∃ less, fuel = less + 2 := ⟨fuel - 2, by omega⟩
  obtain ⟨e', erased, -, ran⟩ := operand.whole (fuel + 1) 0 same' looser (by omega)
  refine ⟨.unary sign.pos op e', fuel + 1, by rw [Expr.unplaced, erased], by omega, Nat.le_succ _, ?_⟩
  change parseUnary (fuel + 1) (s.facing (sign :: (back ++ rest))) = _
  rw [parseUnary_sign op kind]
  exact bind_of_ok ran

theorem unplaced_join (c : Connective) (left right : Expr) :
    (c.join left right).unplaced = c.join left.unplaced right.unplaced := by
  cases c with
  | logical | binary => simp only [Connective.join, Expr.unplaced, Expr.pos_unplaced]

/-- Operators of a level join to the left: only the left operand may end in one of the same level. -/
theorem Recovers.join {c : Connective} (left : Recovers s c.tightness ts e)
    (right : Recovers s (c.tightness + 1) ts' e') :
    Recovers s c.tightness (ts ++ c.symbol.token :: ts') (c.join e e') := by
  have lt : c.level < 10 := c.level_lt
  rw [c.tightness_eq] at left right ⊢
  intro tokens rest fuel spare same looser enough
  obtain ⟨front, sign, back, rfl, same, kind, same'⟩ := exists_of_unplaced same
  simp only [List.length_append, List.length_cons] at enough
  have reached : reach (c.level + 1) = c.level + 2 := if_neg (by omega)
  have next : Looser (reach (c.level + 1)) (sign :: (back ++ rest)) :=
    looser_cons (by rw [kind, c.grip?_symbol]) (by rw [c.tightness_eq, reached]; omega) _
  -- The left operand leaves the fuel for the operator, the right one and what follows.
  obtain ⟨e₁, fuel₁, erased₁, more, less, ran₁⟩ :=
    left front _ fuel (16 * (ts'.length + 1) + spare) same next (by omega)
  obtain ⟨fuel₁, rfl⟩ := Nat.exists_eq_add_one.2 (Nat.zero_lt_of_lt more)
  obtain ⟨e₂, erased₂, -, ran₂⟩ := right.whole fuel₁ 0 same' (reached ▸ looser) (by omega)
  refine ⟨c.join e₁ e₂, fuel₁, by rw [unplaced_join, erased₁, erased₂], by omega, by omega, ?_⟩
  rw [List.append_assoc, List.cons_append, ran₁, resume_level lt, resume_level lt, parseChain,
    bind_of_ok peek?_facing, List.head?_cons, Option.map_some, kind, c.at?_symbol]
  dsimp only
  rw [bind_of_ok skip_facing]
  rw [start_level (by omega)] at ran₂
  exact bind_of_ok ran₂

/-- A choice goes as far as it can: both of its outcomes may be choices, its condition may not. -/
theorem Recovers.choice {condition accepted rejected : Expr} {ts'' : List Token}
    (asked : Recovers s 1 ts condition) (first : Recovers s 0 ts' accepted)
    (second : Recovers s 0 ts'' rejected) :
    Recovers s 0 (ts ++ Symbol.question.token :: (ts' ++ Symbol.colon.token :: ts''))
      (.ternary .start condition accepted rejected) := by
  intro tokens rest fuel spare same looser enough
  obtain ⟨front, question, more, rfl, same₁, asks, same'⟩ := exists_of_unplaced same
  obtain ⟨middle, colon, back, rfl, same₂, divides, same₃⟩ := exists_of_unplaced same'
  simp only [List.length_append, List.length_cons] at enough
  obtain ⟨fuel, rfl⟩ : ∃ less, fuel = less + 1 := ⟨fuel - 1, by omega⟩
  obtain ⟨e₁, erased₁, -, ran₁⟩ := asked.whole fuel 0 same₁
    (looser_cons (by rw [asks]; rfl) Nat.one_pos (middle ++ colon :: back ++ rest)) (by omega)
  obtain ⟨e₂, erased₂, -, ran₂⟩ := first.whole fuel 0 same₂
    (looser_end (by rw [divides]; rfl) 0 (back ++ rest)) (by omega)
  obtain ⟨e₃, erased₃, -, ran₃⟩ := second.whole fuel 0 same₃ looser (by omega)
  refine ⟨.ternary e₁.pos e₁ e₂ e₃, fuel + 1, by rw [Expr.unplaced, erased₁, erased₂, erased₃], by omega,
    Nat.le_refl _, ?_⟩
  rw [start_level (Nat.zero_le 10)] at ran₁
  rw [List.append_assoc, List.cons_append]
  change parseExpr (fuel + 1) _ = _
  rw [parseExpr, bind_of_ok ran₁, bind_of_ok (consumeSymbol_facing asks), if_pos rfl, List.append_assoc,
    List.cons_append]
  refine (bind_of_ok ran₂).trans ((bind_of_ok (expectSymbol_facing divides)).trans ?_)
  exact bind_of_ok ran₃

/-! ## Suffixes -/

theorem resume_suffix {fuel' : Nat} {rest' : List Token}
    (ran : parseSuffixes fuel (.value e) (s.facing rest) = parseSuffixes fuel' (.value e') (s.facing rest')) :
    resume 12 fuel e (s.facing rest) = resume 12 fuel' e' (s.facing rest') := by
  change (parseSuffixes fuel _ >>= asValue) _ = (parseSuffixes fuel' _ >>= asValue) _
  simp only [bind, StateT.bind, ran]

theorem parseSuffixes_subscript {index : Expr} {last : Token} {rest' : List Token}
    (opening : t.kind = .symbol .bracketOpen)
    (ran : parseExpr fuel (s.facing rest) = .ok (index, s.facing (last :: rest')))
    (closing : last.kind = .symbol .bracketClose) :
    parseSuffixes (fuel + 1) (.value e) (s.facing (t :: rest)) =
      parseSuffixes fuel (.value (.subscript e.pos e index)) (s.facing rest') := by
  rw [parseSuffixes, bind_of_ok peek?_facing, List.head?_cons, Option.map_some, opening]
  dsimp only
  rw [bind_of_ok (a := t.pos) rfl, bind_of_ok skip_facing, bind_of_ok ran,
    bind_of_ok (expectSymbol_facing closing)]
  rfl

theorem parseSuffixes_swizzle {field : Token} {components : List Nat} (dot : t.kind = .symbol .dot)
    (kind : field.kind = .identifier) (named : selection? field.lexeme = some components) :
    parseSuffixes (fuel + 1) (.value e) (s.facing (t :: field :: rest)) =
      parseSuffixes fuel (.value (.swizzle e.pos e components)) (s.facing rest) := by
  rw [parseSuffixes, bind_of_ok peek?_facing, List.head?_cons, Option.map_some, dot]
  dsimp only
  rw [bind_of_ok skip_facing, expectIdentifier, bind_of_ok (expect_facing kind _)]
  simp only [applyField, named]
  rfl

theorem Recovers.subscript {base index : Expr} (operand : Recovers s 12 ts base)
    (inner : Recovers s 0 ts' index) :
    Recovers s 12 (ts ++ Symbol.bracketOpen.token :: (ts' ++ [Symbol.bracketClose.token]))
      (.subscript .start base index) := by
  intro tokens rest fuel spare same looser enough
  obtain ⟨front, first, more, rfl, same₁, opening, same'⟩ := exists_of_unplaced same
  obtain ⟨inside, last, back, rfl, same₂, closing, behind⟩ := exists_of_unplaced same'
  obtain rfl := List.map_eq_nil_iff.1 behind
  simp only [List.length_append, List.length_cons, List.length_nil] at enough
  obtain ⟨e₁, fuel₁, erased₁, more, less, ran₁⟩ :=
    operand front (first :: (inside ++ [last] ++ rest)) fuel (16 * (ts'.length + 1) + spare) same₁
      (looser_cons (by rw [opening]; rfl) (by decide) _) (by omega)
  obtain ⟨fuel₁, rfl⟩ := Nat.exists_eq_add_one.2 (Nat.zero_lt_of_lt more)
  obtain ⟨e₂, erased₂, -, ran₂⟩ := inner.whole fuel₁ 0 same₂
    (looser_end (by rw [closing]; rfl) 0 rest) (by omega)
  refine ⟨.subscript e₁.pos e₁ e₂, fuel₁, by rw [Expr.unplaced, erased₁, erased₂], by omega, by omega, ?_⟩
  rw [List.append_assoc, List.cons_append, ran₁, List.append_assoc]
  exact resume_suffix (parseSuffixes_subscript opening ran₂ closing)

theorem Recovers.swizzle {base : Expr} (operand : Recovers s 12 ts base) (w : WrittenSwizzle) :
    Recovers s 12 (ts ++ [Symbol.dot.token, ⟨.identifier, w.text, .start⟩])
      (.swizzle .start base w.components) := by
  intro tokens rest fuel spare same looser enough
  obtain ⟨front, first, more, rfl, same', dot, field⟩ := exists_of_unplaced same
  obtain ⟨last, rfl, placed⟩ := List.map_eq_singleton_iff.1 field
  have kind : last.kind = .identifier := congrArg Token.kind placed
  have lexeme : last.lexeme = w.text := congrArg Token.lexeme placed
  simp only [List.length_append, List.length_cons, List.length_nil] at enough
  obtain ⟨e, fuel', erased, more, less, ran⟩ := operand front (first :: last :: rest) fuel (spare + 1) same'
    (looser_cons (by rw [dot]; rfl) (by decide) _) (by omega)
  obtain ⟨fuel', rfl⟩ := Nat.exists_eq_add_one.2 (Nat.zero_lt_of_lt more)
  refine ⟨.swizzle e.pos e w.components, fuel', by rw [Expr.unplaced, erased], by omega, by omega, ?_⟩
  rw [List.append_assoc, List.cons_append, List.cons_append, List.nil_append, ran]
  exact resume_suffix (parseSuffixes_swizzle dot kind (lexeme ▸ w.selection?_text))

end

end Parser

/-! ## Trees -/

open ComputeShader.Parser

namespace Term

theorem tightness_le (t : Term) : t.tightness ≤ 12 := by
  cases t with
  | joined c => exact Nat.le_trans c.tightness_le (by decide)
  | choice => exact Nat.zero_le 12
  | unary => exact Nat.le_succ 11
  | _ => exact Nat.le_refl 12

/-- By induction on the tree, with the lemma above for each kind of node. -/
theorem recovers {s : ParserState} {slots : String → Nat} (t : Term)
    (declared : ∀ name ∈ t.names, s.names.lookup name = some (.localVar (slots name)))
    (plain : ∀ name ∈ t.names, name.startsWith "gl_" = false) :
    Recovers s t.tightness t.tokens (t.expr slots) := by
  induction t with
  | integer w => exact recovers_integer w
  | bool b =>
    cases b with
    | true => exact recovers_bool true
    | false => exact recovers_bool false
  | name n => exact recovers_name (plain _ List.mem_cons_self) (declared _ List.mem_cons_self)
  | unary op operand ih => exact ((ih declared plain).fitted operand.tightness_le (by decide)).unary op
  | joined c left right ihl ihr =>
    have le : c.tightness + 1 ≤ 12 := Nat.le_trans (Nat.succ_le_succ c.tightness_le) (Nat.le_succ 11)
    obtain ⟨declaredLeft, declaredRight⟩ := List.forall_mem_append.1 declared
    obtain ⟨plainLeft, plainRight⟩ := List.forall_mem_append.1 plain
    exact ((ihl declaredLeft plainLeft).fitted left.tightness_le (Nat.le_of_succ_le le)).join
      ((ihr declaredRight plainRight).fitted right.tightness_le le)
  | choice condition accepted rejected ihc iha ihr =>
    obtain ⟨declaredFirst, declaredBoth⟩ := List.forall_mem_append.1 declared
    obtain ⟨declaredSecond, declaredThird⟩ := List.forall_mem_append.1 declaredBoth
    obtain ⟨plainFirst, plainBoth⟩ := List.forall_mem_append.1 plain
    obtain ⟨plainSecond, plainThird⟩ := List.forall_mem_append.1 plainBoth
    exact ((ihc declaredFirst plainFirst).fitted condition.tightness_le (by decide)).choice
      ((iha declaredSecond plainSecond).of_le (Nat.zero_le _) accepted.tightness_le)
      ((ihr declaredThird plainThird).of_le (Nat.zero_le _) rejected.tightness_le)
  | subscript base index ihb ihi =>
    obtain ⟨declaredBase, declaredIndex⟩ := List.forall_mem_append.1 declared
    obtain ⟨plainBase, plainIndex⟩ := List.forall_mem_append.1 plain
    exact ((ihb declaredBase plainBase).fitted base.tightness_le (Nat.le_refl 12)).subscript
      ((ihi declaredIndex plainIndex).of_le (Nat.zero_le _) index.tightness_le)
  | swizzle base w ih =>
    exact ((ih declared plain).fitted base.tightness_le (Nat.le_refl 12)).swizzle w

/-- An expression whose names are local variables, none of them with the prefix of the built-in ones, is read
back from its text up to positions, to the last token. -/
theorem expression_text {s : ParserState} {slots : String → Nat} (t : Term)
    (declared : ∀ name ∈ t.names, s.names.lookup name = some (.localVar (slots name)))
    (plain : ∀ name ∈ t.names, name.startsWith "gl_" = false) :
    ∃ tokens e, tokenize t.text = .ok tokens ∧
      Parser.expression { s with rest := tokens } = .ok (e, { s with rest := [] }) ∧
      e.unplaced = t.expr slots := by
  obtain ⟨tokens, split, same⟩ := t.tokenize_text
  have recovers : Recovers s 0 t.tokens (t.expr slots) :=
    (t.recovers declared plain).of_le (Nat.zero_le _) t.tightness_le
  have length : t.tokens.length = tokens.length := by rw [← same, List.length_map]
  obtain ⟨e, erased, -, ran⟩ := recovers.whole (fuelFor tokens) 0 same (looser_nil 0)
    (by rw [fuelFor, length]; omega)
  rw [List.append_nil] at ran
  exact ⟨tokens, e, split, ran, erased⟩

/-- Operators of several levels, in an order that needs parentheses, and integers in all three bases. -/
def mixed : Term :=
  let a := name ⟨"a", ⟨'a', [], rfl, rfl, List.all_eq_true.1 rfl⟩, by decide⟩
  let b := name ⟨"b", ⟨'b', [], rfl, rfl, List.all_eq_true.1 rfl⟩, by decide⟩
  let hexadecimal := integer ⟨31, true, { radix := .hexadecimal, capitalDigits := true }⟩
  let octal := integer ⟨8, false, { radix := .octal }⟩
  let decimal := integer ⟨4294967295, false, { radix := .decimal }⟩
  let difference := joined (.binary .sub) a (joined (.binary .sub) b hexadecimal)
  let component := subscript (swizzle (choice a b a) ⟨.color, [3, 0], by decide, by decide⟩) octal
  choice (joined (.logical .or) (unary .not (bool true)) (joined (.binary .eq) difference decimal)) component
    (choice b (unary .neg (unary .bitNot component)) (joined (.binary .mul) difference a))

theorem expression_text_mixed :
    mixed.text = "! true || a - ( b - 0x1Fu ) == 4294967295 ? ( a ? b : a ) . ar [ 010 ] " ++
      ": b ? - ~ ( a ? b : a ) . ar [ 010 ] : ( a - ( b - 0x1Fu ) ) * a" ∧
    ∃ tokens e, tokenize mixed.text = .ok tokens ∧
      Parser.expression ⟨tokens, 0, .start, [("a", .localVar 0), ("b", .localVar 1)], [], []⟩ =
        .ok (e, ⟨[], 0, .start, [("a", .localVar 0), ("b", .localVar 1)], [], []⟩) ∧
      e.unplaced = mixed.expr (fun name => if name = "a" then 0 else 1) :=
  ⟨by decide +kernel, expression_text (s := ⟨[], 0, .start, [("a", .localVar 0), ("b", .localVar 1)], [], []⟩)
    mixed (by decide) (by decide +kernel)⟩

/-- A name with the prefix of the built-in ones. -/
def prefixed : Term := name ⟨"gl_x", ⟨'g', ['l', '_', 'x'], rfl, rfl, List.all_eq_true.1 rfl⟩, by decide⟩

/-- A local variable may be declared under such a name, but the name is not read back: it is looked up among
the built-in ones. -/
theorem prefixed_unread :
    declareLocal ⟨.identifier, "gl_x", .start⟩ (.scalar .int) ⟨[], 0, .start, [], [], []⟩ =
      .ok (0, ⟨[], 0, .start, [("gl_x", .localVar 0)], [], [⟨"gl_x", .scalar .int⟩]⟩) ∧
    prefixed.names = ["gl_x"] ∧
    ¬ ∃ tokens e, tokenize prefixed.text = .ok tokens ∧
      Parser.expression ⟨tokens, 0, .start, [("gl_x", .localVar 0)], [], [⟨"gl_x", .scalar .int⟩]⟩ =
        .ok (e, ⟨[], 0, .start, [("gl_x", .localVar 0)], [], [⟨"gl_x", .scalar .int⟩]⟩) ∧
      e.unplaced = prefixed.expr fun _ => 0 := by
  have split : tokenize prefixed.text = .ok [⟨.identifier, "gl_x", .start⟩] := by rfl
  have fails : (Parser.expression ⟨[⟨.identifier, "gl_x", .start⟩], 0, .start, [("gl_x", .localVar 0)], [],
      [⟨"gl_x", .scalar .int⟩]⟩).isOk = false := by decide +kernel
  refine ⟨rfl, rfl, ?_⟩
  rintro ⟨tokens, e, split', ran, -⟩
  obtain rfl := Except.ok.inj (split.symm.trans split')
  rw [ran] at fails
  cases fails

end Term

end ComputeShader
