import ComputeShader.Proofs.WrittenTokens

/-! # Reading written values

A value is read back from its text, in either layout and whatever follows it, if all the values in it
are: this goes through arrays and objects, the blanks between their parts being skipped.
-/

namespace ComputeShader

namespace Json

/-! ## Blanks -/

theorem skipBlanks_append {blanks text : List Char} (all : ∀ c ∈ blanks, isBlank c) :
    skipBlanks (blanks ++ text) = skipBlanks text :=
  List.dropWhile_append_of_pos all

theorem skipBlanks_cons {c : Char} {text : List Char} (dark : isBlank c = false) :
    skipBlanks (c :: text) = c :: text :=
  List.dropWhile_cons_of_neg (by simp [dark])

theorem skipBlanks_cons_of_blank {c : Char} {text : List Char} (blank : isBlank c) :
    skipBlanks (c :: text) = skipBlanks text :=
  List.dropWhile_cons_of_pos blank

@[simp] theorem skipBlanks_skipBlanks (text : List Char) : skipBlanks (skipBlanks text) = skipBlanks text := by
  induction text with
  | nil => rfl
  | cons c text ih =>
    cases blank : isBlank c with
    | true => rw [skipBlanks_cons_of_blank blank, ih]
    | false => rw [skipBlanks_cons blank, skipBlanks_cons blank]

theorem readValue_skipBlanks (fuel : Nat) (text : List Char) :
    readValue fuel (skipBlanks text) = readValue fuel text := by
  cases fuel with
  | zero => rfl
  | succ fuel => rw [readValue.eq_2, readValue.eq_2, skipBlanks_skipBlanks]

theorem readItems_skipBlanks (fuel : Nat) (text : List Char) :
    readItems fuel (skipBlanks text) = readItems fuel text := by
  cases fuel with
  | zero => rfl
  | succ fuel => rw [readItems.eq_2, readItems.eq_2, readValue_skipBlanks]

theorem readMembers_skipBlanks (fuel : Nat) (text : List Char) :
    readMembers fuel (skipBlanks text) = readMembers fuel text := by
  cases fuel with
  | zero => rfl
  | succ fuel => rw [readMembers.eq_2, readMembers.eq_2, skipBlanks_skipBlanks]

/-- The blanks in front of an item or a closing bracket. -/
def gap (level : Option Nat) : List Char := (level.map newLine).getD []

theorem isBlank_of_mem_gap {level : Option Nat} {c : Char} (member : c ∈ gap level) : isBlank c := by
  cases level with
  | none => cases member
  | some level =>
    rcases List.mem_cons.1 member with rfl | indented
    · rfl
    · obtain ⟨-, rfl⟩ := List.mem_replicate.1 indented
      rfl

theorem skipBlanks_gap (level : Option Nat) (text : List Char) :
    skipBlanks (gap level ++ text) = skipBlanks text :=
  skipBlanks_append fun _ => isBlank_of_mem_gap

theorem endsValue_gap {level : Option Nat} {c : Char} {text : List Char}
    (closing : c ∈ [',', ']', '}', '\n']) : EndsValue (gap level ++ c :: text) := by
  intro d first
  cases level with
  | none =>
    cases first
    exact closing
  | some level =>
    cases first
    decide

/-! ## Values -/

/-- Whether a value is read back from its text. Each value of the text takes fuel, which two per
character suffice for. -/
def ReadBack (j : Json) : Prop :=
  ∀ (level : Option Nat) (fuel : Nat) (rest : List Char), 2 * (write level j).length ≤ fuel →
    EndsValue rest → readValue fuel (write level j ++ rest) = some (j, rest)

theorem readBack_of_text {j : Json} {c : Char} {text : List Char} (written : ∀ level, write level j = c :: text)
    (read : ∀ fuel rest, EndsValue rest → readValue (fuel + 1) (c :: text ++ rest) = some (j, rest)) :
    ReadBack j := by
  intro level fuel rest enough ends
  rw [written] at enough ⊢
  obtain ⟨fuel, rfl⟩ := Nat.exists_eq_add_one_of_ne_zero (n := fuel) (by
    rw [List.length_cons] at enough
    omega)
  exact read fuel rest ends

theorem readValue_quote {text rest : List Char} {s : String} (fuel : Nat)
    (read : readString (text.length + 1) text = some (s.toList.map some, rest)) :
    readValue (fuel + 1) ('"' :: text) = some (string s, rest) := by
  rw [readValue.eq_2, skipBlanks_cons rfl]
  simp only [bind, read, Option.bind_some, joined?_map_some, Option.elim_some]

theorem readBack_string (s : String) : ReadBack (string s) := by
  refine @readBack_of_text _ '"' (s.toList.flatMap escapeChar ++ ['"']) (fun _ => rfl) fun fuel rest _ => ?_
  obtain ⟨text, written, read⟩ := readString_quote s rest
  exact written ▸ readValue_quote fuel read

theorem isBlank_of_isDigit {c : Char} (digit : c.isDigit) : isBlank c = false := by
  cases blank : isBlank c with
  | false => rfl
  | true =>
    simp only [isBlank, Bool.or_eq_true, beq_iff_eq] at blank
    rcases blank with ((rfl | rfl) | rfl) | rfl <;> cases digit

theorem readValue_toDigits (n fuel : Nat) (rest : List Char) :
    readValue (fuel + 1) (Nat.toDigits 10 n ++ rest) = readNumber? (Nat.toDigits 10 n ++ rest) := by
  obtain ⟨c, cs, digits, digit⟩ := exists_toDigits n
  have visible : skipBlanks (Nat.toDigits 10 n ++ rest) = Nat.toDigits 10 n ++ rest := by
    rw [digits]
    exact skipBlanks_cons (isBlank_of_isDigit digit)
  rw [readValue.eq_2, visible]
  split
  case h_7 => rfl
  all_goals next same => exact absurd same (toDigits_append_ne (by decide))

theorem readBack_nat {n : Nat} (small : n < significandLimit) : ReadBack (nat n) := by
  intro level fuel rest enough ends
  have written : write level (nat n) = Nat.toDigits 10 n := Nat.toList_repr
  have long : 0 < (Nat.toDigits 10 n).length := Nat.length_toDigits_pos
  rw [written] at enough ⊢
  obtain ⟨fuel, rfl⟩ := Nat.exists_eq_add_one_of_ne_zero (n := fuel) (by omega)
  rw [readValue_toDigits, readNumber?_nat small ends]

/-! ## Arrays -/

theorem writeItems_first (level : Option Nat) (j : Json) (rest : List Json) :
    writeItems level true (j :: rest) = gap level ++ (write level j ++ writeItems level false rest) := by
  simp [writeItems, gap]

theorem writeItems_later (level : Option Nat) (j : Json) (rest : List Json) :
    writeItems level false (j :: rest) = ',' :: writeItems level true (j :: rest) := by
  simp [writeItems]

theorem endsValue_writeItems (level outer : Option Nat) (items : List Json) (rest : List Char) :
    EndsValue (writeItems level false items ++ (gap outer ++ ']' :: rest)) := by
  cases items with
  | nil => exact endsValue_gap (by decide)
  | cons j items =>
    rw [writeItems_later]
    exact @endsValue_gap none _ _ (by decide)

theorem readItems_writeItems {items : List Json} (each : ∀ j ∈ items, ReadBack j) (filled : items ≠ [])
    {level outer : Option Nat} {fuel : Nat} (enough : 2 * (writeItems level true items).length < fuel)
    (rest : List Char) :
    readItems fuel (writeItems level true items ++ (gap outer ++ ']' :: rest)) = some (items, rest) := by
  induction items generalizing fuel with
  | nil => exact absurd rfl filled
  | cons j items ih =>
    obtain ⟨first, later⟩ := List.forall_mem_cons.1 each
    obtain ⟨fuel, rfl⟩ := Nat.exists_eq_add_one_of_ne_zero (Nat.ne_zero_of_lt enough)
    rw [writeItems_first] at enough ⊢
    simp only [List.length_append] at enough
    have ends := endsValue_writeItems level outer items rest
    have read : readValue fuel (gap level ++ (write level j ++ writeItems level false items) ++
        (gap outer ++ ']' :: rest)) =
          some (j, writeItems level false items ++ (gap outer ++ ']' :: rest)) := by
      rw [← readValue_skipBlanks, List.append_assoc, skipBlanks_gap, readValue_skipBlanks,
        List.append_assoc]
      exact first level fuel _ (by omega) ends
    rw [readItems.eq_2, read]
    cases items with
    | nil =>
      have close : skipBlanks (writeItems level false [] ++ (gap outer ++ ']' :: rest)) = ']' :: rest := by
        rw [writeItems, List.nil_append, skipBlanks_gap, skipBlanks_cons rfl]
      simp only [bind, Option.bind, close]
    | cons j' items =>
      rw [writeItems_later, List.length_cons] at enough
      have enough : 2 * (writeItems level true (j' :: items)).length < fuel := by omega
      have more := ih later (List.cons_ne_nil _ _) enough
      have comma : skipBlanks (writeItems level false (j' :: items) ++ (gap outer ++ ']' :: rest)) =
          ',' :: (writeItems level true (j' :: items) ++ (gap outer ++ ']' :: rest)) := by
        rw [writeItems_later, List.cons_append, skipBlanks_cons rfl]
      simp only [bind, Option.bind, comma, more]

theorem readItems_close (fuel : Nat) (text : List Char) : readItems fuel (']' :: text) = none := by
  cases fuel with
  | zero => rfl
  | succ fuel =>
    cases fuel with
    | zero => rfl
    | succ fuel =>
      rw [readItems.eq_2, readValue.eq_2, skipBlanks_cons rfl]
      rfl

theorem readValue_open {fuel : Nat} {text rest : List Char} {items : List Json}
    (read : readItems fuel text = some (items, rest)) :
    readValue (fuel + 1) ('[' :: text) = some (array items, rest) := by
  have visible : skipBlanks ('[' :: text) = '[' :: text := skipBlanks_cons rfl
  simp only [readValue.eq_2, visible]
  split
  · next close =>
    rw [← readItems_skipBlanks, close, readItems_close] at read
    cases read
  · rw [readItems_skipBlanks, read]
    rfl

theorem readBack_array {items : List Json} (each : ∀ j ∈ items, ReadBack j) : ReadBack (array items) := by
  cases items with
  | nil => exact readBack_of_text (fun _ => rfl) fun _ _ _ => rfl
  | cons j items =>
    intro level fuel rest enough ends
    have written : write level (array (j :: items)) =
        '[' :: (writeItems (level.map (· + 1)) true (j :: items) ++ (gap level ++ [']'])) := by
      simp [write, gap]
    rw [written] at enough ⊢
    obtain ⟨fuel, rfl⟩ := Nat.exists_eq_add_one_of_ne_zero (n := fuel) (by
      rw [List.length_cons] at enough
      omega)
    rw [List.length_cons, List.length_append] at enough
    have enough : 2 * (writeItems (level.map (· + 1)) true (j :: items)).length < fuel := by omega
    refine readValue_open ?_
    simpa using readItems_writeItems each (List.cons_ne_nil _ _) enough rest

/-! ## Objects -/

/-- The mark between a key and its value. -/
def colon (level : Option Nat) : List Char := if level.isSome then [':', ' '] else [':']

theorem writeMembers_first (level : Option Nat) (key : String) (j : Json) (rest : List (String × Json)) :
    writeMembers level true ((key, j) :: rest) =
      gap level ++ (quote key ++ (colon level ++ (write level j ++ writeMembers level false rest))) := by
  simp [writeMembers, gap, colon]

theorem writeMembers_later (level : Option Nat) (member : String × Json) (rest : List (String × Json)) :
    writeMembers level false (member :: rest) = ',' :: writeMembers level true (member :: rest) := by
  obtain ⟨key, j⟩ := member
  simp [writeMembers]

theorem exists_colon (level : Option Nat) (text : List Char) :
    ∃ text', skipBlanks (colon level ++ text) = ':' :: text' ∧ skipBlanks text' = skipBlanks text := by
  cases level with
  | none => exact ⟨text, skipBlanks_cons rfl, rfl⟩
  | some level => exact ⟨' ' :: text, skipBlanks_cons rfl, skipBlanks_cons_of_blank rfl⟩

theorem endsValue_writeMembers (level outer : Option Nat) (members : List (String × Json))
    (rest : List Char) : EndsValue (writeMembers level false members ++ (gap outer ++ '}' :: rest)) := by
  cases members with
  | nil => exact endsValue_gap (by decide)
  | cons member members =>
    rw [writeMembers_later]
    exact @endsValue_gap none _ _ (by decide)

theorem readMembers_writeMembers {members : List (String × Json)}
    (each : ∀ m ∈ members, ReadBack m.2) (filled : members ≠ []) {level outer : Option Nat} {fuel : Nat}
    (enough : 2 * (writeMembers level true members).length < fuel) (rest : List Char) :
    readMembers fuel (writeMembers level true members ++ (gap outer ++ '}' :: rest)) =
      some (members.map fun m => (some m.1, m.2), rest) := by
  induction members generalizing fuel with
  | nil => exact absurd rfl filled
  | cons member members ih =>
    obtain ⟨key, j⟩ := member
    obtain ⟨first, later⟩ := List.forall_mem_cons.1 each
    obtain ⟨fuel, rfl⟩ := Nat.exists_eq_add_one_of_ne_zero (Nat.ne_zero_of_lt enough)
    rw [writeMembers_first] at enough ⊢
    simp only [List.length_append] at enough
    have ends := endsValue_writeMembers level outer members rest
    have long : 2 * (write level j).length ≤ fuel := by omega
    have value := first level fuel _ long ends
    obtain ⟨text', mark, same⟩ := exists_colon level
      (write level j ++ (writeMembers level false members ++ (gap outer ++ '}' :: rest)))
    rw [← readValue_skipBlanks, ← same, readValue_skipBlanks] at value
    obtain ⟨text, opened, named⟩ := readString_quote key (colon level ++
      (write level j ++ (writeMembers level false members ++ (gap outer ++ '}' :: rest))))
    have visible : skipBlanks (gap level ++ (quote key ++ (colon level ++ (write level j ++
        writeMembers level false members))) ++ (gap outer ++ '}' :: rest)) = '"' :: text := by
      simp only [List.append_assoc]
      rw [skipBlanks_gap, opened, skipBlanks_cons rfl]
    rw [readMembers.eq_2, visible]
    simp only [bind, Option.bind, named, mark, value, joined?_map_some]
    cases members with
    | nil =>
      have close : skipBlanks (writeMembers level false [] ++ (gap outer ++ '}' :: rest)) =
          '}' :: rest := by
        rw [writeMembers, List.nil_append, skipBlanks_gap, skipBlanks_cons rfl]
      simp only [close, List.map_cons, List.map_nil]
    | cons member members =>
      rw [writeMembers_later, List.length_cons] at enough
      have enough : 2 * (writeMembers level true (member :: members)).length < fuel := by omega
      have more := ih later (List.cons_ne_nil _ _) enough
      have comma : skipBlanks (writeMembers level false (member :: members) ++ (gap outer ++ '}' :: rest)) =
          ',' :: (writeMembers level true (member :: members) ++ (gap outer ++ '}' :: rest)) := by
        rw [writeMembers_later, List.cons_append, skipBlanks_cons rfl]
      simp only [comma, more, List.map_cons]

theorem readMembers_close (fuel : Nat) (text : List Char) : readMembers fuel ('}' :: text) = none := by
  cases fuel with
  | zero => rfl
  | succ fuel =>
    rw [readMembers.eq_2, skipBlanks_cons rfl]
    rfl

theorem ofMembers_named (members : List (String × Json)) :
    ofMembers (members.map fun m => (some m.1, m.2)) = object members := by
  have all : (members.map fun m => (some m.1, m.2)).mapM
      (fun m : Option String × Json => m.1.map fun key => (key, m.2)) = some members := by
    induction members with
    | nil => rfl
    | cons member members ih => simp [ih]
  simp only [ofMembers, all]

theorem readValue_openBrace {fuel : Nat} {text rest : List Char} {members : List (String × Json)}
    (read : readMembers fuel text = some (members.map fun m => (some m.1, m.2), rest)) :
    readValue (fuel + 1) ('{' :: text) = some (object members, rest) := by
  have visible : skipBlanks ('{' :: text) = '{' :: text := skipBlanks_cons rfl
  simp only [readValue.eq_2, visible]
  split
  · next close =>
    rw [← readMembers_skipBlanks, close, readMembers_close] at read
    cases read
  · rw [readMembers_skipBlanks, read, Option.map_some, ofMembers_named]

theorem readBack_object {members : List (String × Json)} (each : ∀ m ∈ members, ReadBack m.2) :
    ReadBack (object members) := by
  cases members with
  | nil => exact readBack_of_text (fun _ => rfl) fun _ _ _ => rfl
  | cons member members =>
    intro level fuel rest enough ends
    have written : write level (object (member :: members)) =
        '{' :: (writeMembers (level.map (· + 1)) true (member :: members) ++ (gap level ++ ['}'])) := by
      simp [write, gap]
    rw [written] at enough ⊢
    obtain ⟨fuel, rfl⟩ := Nat.exists_eq_add_one_of_ne_zero (n := fuel) (by
      rw [List.length_cons] at enough
      omega)
    rw [List.length_cons, List.length_append] at enough
    have enough : 2 * (writeMembers (level.map (· + 1)) true (member :: members)).length < fuel := by
      omega
    refine readValue_openBrace ?_
    simpa using readMembers_writeMembers each (List.cons_ne_nil _ _) enough rest

/-! ## Documents -/

/-- A document is the value that its text was written for. -/
theorem parse?_pretty {j : Json} (readBack : ReadBack j) : parse? j.pretty = some j := by
  have ends : EndsValue [] := by
    rintro c ⟨⟩
  have read := readBack (some 0) (2 * (write (some 0) j).length + 2) [] (by omega) ends
  rw [List.append_nil] at read
  rw [parse?, pretty, String.toList_ofList, read]
  rfl

end Json

end ComputeShader
