import ComputeShader.Json.Reader
import ComputeShader.Json.Writer

/-! # Reading written strings and numbers

A string is read back from its quoted text, whatever characters it has: each one is written plainly, as
a short escape or with the number of a control character. A natural number is read back from its digits
if nothing follows that could belong to a number.
-/

namespace ComputeShader

namespace Json

/-! ## Strings -/

theorem hexDigit?_hexChar {n : Nat} (small : n < 16) : hexDigit? (hexChar n) = some n := by
  have all : ∀ n < 16, hexDigit? (hexChar n) = some n := by decide
  exact all n small

/-- The escape of a control character without a short one. -/
theorem unicodeEscape?_control {c : Char} (control : c.toNat < 0x20) (text : List Char) :
    unicodeEscape? ('0' :: '0' :: hexChar (c.toNat / 16) :: hexChar (c.toNat % 16) :: text) =
      some (some c, text) := by
  have zero : hexDigit? '0' = some 0 := by decide
  have high : hexDigit? (hexChar (c.toNat / 16)) = some (c.toNat / 16) := hexDigit?_hexChar (by omega)
  have low : hexDigit? (hexChar (c.toNat % 16)) = some (c.toNat % 16) := hexDigit?_hexChar (by omega)
  have number : digitsValue 16 [0, 0, c.toNat / 16, c.toNat % 16] = c.toNat := by
    simp only [digitsValue, List.foldl_cons, List.foldl_nil]
    omega
  have quad : hexQuad? ('0' :: '0' :: hexChar (c.toNat / 16) :: hexChar (c.toNat % 16) :: text) =
      some (c.toNat, text) := by
    simp [hexQuad?, zero, high, low, number]
  have below : ¬ (0xd800 ≤ c.toNat ∧ c.toNat < 0xdc00) := by omega
  have outside : ¬ (0xdc00 ≤ c.toNat ∧ c.toNat < 0xe000) := by omega
  simp only [unicodeEscape?, quad, bind, Option.bind, below, outside, if_false, Char.ofNat_toNat]

theorem readString_short {mark c : Char} (escape : simpleEscape? mark = some c) (other : mark ≠ 'u')
    (fuel : Nat) (text : List Char) : readString (fuel + 1) ('\\' :: mark :: text) =
      (readString fuel text).map fun r => (some c :: r.1, r.2) := by
  rw [readString.eq_5 _ _ _ other, escape]
  cases readString fuel text <;> rfl

theorem readString_control {c : Char} (control : c.toNat < 0x20) (fuel : Nat) (text : List Char) :
    readString (fuel + 1)
        ('\\' :: 'u' :: '0' :: '0' :: hexChar (c.toNat / 16) :: hexChar (c.toNat % 16) :: text) =
      (readString fuel text).map fun r => (some c :: r.1, r.2) := by
  rw [readString.eq_4, unicodeEscape?_control control]
  change (readString fuel text).bind _ = _
  cases readString fuel text <;> rfl

theorem readString_plain {c : Char} (quote : c ≠ '"') (backslash : c ≠ '\\') (plain : ¬ c.toNat < 0x20)
    (fuel : Nat) (text : List Char) : readString (fuel + 1) (c :: text) =
      (readString fuel text).map fun r => (some c :: r.1, r.2) := by
  have ordinary : ¬ (c.toNat < 0x20 ∨ c = '\\') := not_or.2 ⟨plain, backslash⟩
  rw [readString.eq_6 _ _ _ quote (fun _ same => absurd same backslash)
    (fun _ _ same => absurd same backslash), if_neg ordinary]
  cases readString fuel text <;> rfl

/-- A character is read back from what is written for it. -/
theorem readString_escapeChar (c : Char) (fuel : Nat) (text : List Char) :
    readString (fuel + 1) (escapeChar c ++ text) =
      (readString fuel text).map fun r => (some c :: r.1, r.2) := by
  unfold escapeChar
  split
  case h_8 quote backslash _ _ _ _ _ =>
    split
    · next control => exact readString_control control fuel text
    · next plain => exact readString_plain quote backslash plain fuel text
  all_goals exact readString_short rfl (by decide) fuel text

theorem readString_quoted (cs : List Char) {fuel : Nat} (enough : cs.length < fuel) (rest : List Char) :
    readString fuel (cs.flatMap escapeChar ++ '"' :: rest) = some (cs.map some, rest) := by
  obtain ⟨fuel, rfl⟩ := Nat.exists_eq_add_one_of_ne_zero (Nat.ne_zero_of_lt enough)
  induction cs generalizing fuel with
  | nil => rfl
  | cons c cs ih =>
    obtain ⟨fuel, rfl⟩ := Nat.exists_eq_add_one_of_ne_zero (n := fuel) (by
      rw [List.length_cons] at enough
      omega)
    rw [List.flatMap_cons, List.append_assoc, readString_escapeChar, ih fuel (by simpa using enough)]
    rfl

theorem joined?_map_some (s : String) : joined? (s.toList.map some) = some s := by
  have all (cs : List Char) : (cs.map some).mapM id = some cs := by
    induction cs with
    | nil => rfl
    | cons c cs ih => simp [ih]
  rw [joined?, all, Option.map_some, String.ofList_toList]

theorem escapeChar_ne_nil (c : Char) : escapeChar c ≠ [] := by
  unfold escapeChar
  split <;> try simp
  split <;> simp

theorem length_le_flatMap_escapeChar (cs : List Char) :
    cs.length ≤ (cs.flatMap escapeChar).length := by
  induction cs with
  | nil => exact Nat.le_refl 0
  | cons c cs ih =>
    have some := List.length_pos_iff.2 (escapeChar_ne_nil c)
    rw [List.flatMap_cons, List.length_append, List.length_cons]
    omega

/-- A string is read back from behind its opening quote. -/
theorem readString_quote (s : String) (rest : List Char) : ∃ text, quote s ++ rest = '"' :: text ∧
    readString (text.length + 1) text = some (s.toList.map some, rest) := by
  refine ⟨s.toList.flatMap escapeChar ++ '"' :: rest, by simp [quote], ?_⟩
  have short := length_le_flatMap_escapeChar s.toList
  refine readString_quoted _ ?_ rest
  rw [List.length_append]
  omega

/-! ## Numbers -/

/-- Whether a text does not begin with a digit. -/
def NoDigit (rest : List Char) : Prop := ∀ c ∈ rest.head?, c.isDigit = false

theorem spanDigits_append {digits rest : List Char} (all : ∀ c ∈ digits, c.isDigit)
    (stop : NoDigit rest) :
    Numeral.spanDigits (digits ++ rest) = (digits.map fun c => c.toNat - '0'.toNat, rest) := by
  have values : digits.filterMap decimalDigit? = digits.map fun c => c.toNat - '0'.toNat := by
    clear stop
    induction digits with
    | nil => rfl
    | cons c cs ih =>
      obtain ⟨first, others⟩ := List.forall_mem_cons.1 all
      rw [List.filterMap_cons_some (b := c.toNat - '0'.toNat) (by simp [decimalDigit?, first]), ih others,
        List.map_cons]
  have none_left : rest.takeWhile Char.isDigit = [] ∧ rest.dropWhile Char.isDigit = rest := by
    cases rest with
    | nil => exact ⟨rfl, rfl⟩
    | cons c cs => simp [stop c rfl]
  rw [Numeral.spanDigits, List.takeWhile_append_of_pos all, List.dropWhile_append_of_pos all,
    none_left.1, none_left.2, List.append_nil, values]

theorem isDigit_of_mem {n : Nat} {c : Char} (member : c ∈ Nat.toDigits 10 n) : c.isDigit :=
  Nat.isDigit_of_mem_toDigits (by decide) (by decide) member

theorem digitsValue_toDigits (n : Nat) :
    digitsValue 10 ((Nat.toDigits 10 n).map fun c => c.toNat - '0'.toNat) = n := by
  rw [digitsValue, List.foldl_map]
  have same := Nat.ofDigitChars_ten_toDigits (n := n)
  rw [Nat.ofDigitChars_eq_foldl] at same
  simpa [Nat.mul_comm] using same

/-- A number has no superfluous zero in front. -/
theorem head?_toDigits {n : Nat} (positive : 0 < n) : (Nat.toDigits 10 n).head? ≠ some '0' := by
  induction n using Nat.strongRecOn with
  | _ n ih =>
    rw [Nat.toDigits_eq_if (by decide)]
    split
    · simp
      omega
    · have above := ih (n / 10) (by omega) (by omega)
      rwa [List.head?_append, Option.or_of_isSome]
      rw [List.isSome_head?]
      exact Nat.toDigits_ne_nil

theorem leading_digit {n : Nat} {c d : Char} {cs : List Char} (digits : Nat.toDigits 10 n = c :: d :: cs) :
    c.toNat - '0'.toNat ≠ 0 := by
  have positive : 0 < n := by
    rcases Nat.eq_zero_or_pos n with rfl | positive
    · cases digits
    · exact positive
  have head := head?_toDigits positive
  have digit : c.isDigit := isDigit_of_mem (digits ▸ List.mem_cons_self)
  rw [digits, List.head?_cons] at head
  intro zero
  have above : '0'.toNat ≤ c.toNat := (Char.isDigit_iff_toNat.1 digit).1
  have number : c.toNat = '0'.toNat := Nat.le_antisymm (Nat.sub_eq_zero_iff_le.1 zero) above
  exact head (congrArg some (Char.toNat_inj.1 number))

/-- The digits of a natural number are read as that number. -/
theorem wholeDigits?_toDigits (n : Nat) {rest : List Char} (stop : NoDigit rest) :
    ∃ digits, wholeDigits? (Nat.toDigits 10 n ++ rest) = some (digits, rest) ∧
      digitsValue 10 digits = n := by
  refine ⟨_, ?_, digitsValue_toDigits n⟩
  rw [wholeDigits?, spanDigits_append (fun c => isDigit_of_mem) stop]
  cases digits : Nat.toDigits 10 n with
  | nil => exact absurd digits Nat.toDigits_ne_nil
  | cons c cs =>
    cases cs with
    | nil =>
      rw [List.map_cons, List.map_nil]
      cases c.toNat - '0'.toNat <;> rfl
    | cons d ds =>
      have leading := leading_digit digits
      rw [List.map_cons, List.map_cons]
      cases value : c.toNat - '0'.toNat with
      | zero => exact absurd value leading
      | succ m => rfl

/-- Whether a text may follow a value: it goes on with a separator, a closing bracket or a line break, or
is at its end. -/
def EndsValue (rest : List Char) : Prop := ∀ c ∈ rest.head?, c ∈ [',', ']', '}', '\n']

theorem EndsValue.mark {rest : List Char} (ends : EndsValue rest) {c : Char} (first : c ∈ rest.head?) :
    c = ',' ∨ c = ']' ∨ c = '}' ∨ c = '\n' := by
  simpa using ends c first

theorem EndsValue.noDigit {rest : List Char} (ends : EndsValue rest) : NoDigit rest := by
  intro c first
  obtain rfl | rfl | rfl | rfl := ends.mark first <;> rfl

theorem places?_of_ends {rest : List Char} (ends : EndsValue rest) : places? rest = some (none, rest) := by
  unfold places?
  split
  · next text => exact absurd (ends '.' rfl) (by decide)
  · rfl

theorem exponent?_of_ends {rest : List Char} (ends : EndsValue rest) :
    exponent? rest = some (none, rest) := by
  cases rest with
  | nil => rfl
  | cons mark text =>
    unfold exponent?
    obtain rfl | rfl | rfl | rfl := ends.mark rfl <;> rfl

/-- The text of a number begins with a digit. -/
theorem exists_toDigits (n : Nat) : ∃ c cs, Nat.toDigits 10 n = c :: cs ∧ c.isDigit := by
  obtain ⟨c, cs, digits⟩ := List.exists_cons_of_ne_nil (Nat.toDigits_ne_nil (n := n) (b := 10))
  exact ⟨c, cs, digits, isDigit_of_mem (digits ▸ List.mem_cons_self)⟩

theorem toDigits_append_ne {n : Nat} {rest text : List Char} {c : Char} (other : c.isDigit = false) :
    Nat.toDigits 10 n ++ rest ≠ c :: text := by
  obtain ⟨d, ds, digits, digit⟩ := exists_toDigits n
  rw [digits, List.cons_append]
  rintro ⟨⟩
  rw [other] at digit
  cases digit

theorem readNumber?_nat {n : Nat} (small : n < significandLimit) {rest : List Char}
    (ends : EndsValue rest) :
    readNumber? (Nat.toDigits 10 n ++ rest) = some (nat n, rest) := by
  obtain ⟨digits, read, value⟩ := wholeDigits?_toDigits n ends.noDigit
  unfold readNumber?
  split
  next negative body sign =>
  have unsigned : negative = false ∧ body = Nat.toDigits 10 n ++ rest := by
    split at sign
    · next minus => exact absurd minus (toDigits_append_ne (by decide))
    · cases sign
      exact ⟨rfl, rfl⟩
  obtain ⟨rfl, rfl⟩ := unsigned
  simp only [read, places?_of_ends ends, exponent?_of_ends ends, bind, Option.bind, value]
  simp [small, nat]

end Json

end ComputeShader
