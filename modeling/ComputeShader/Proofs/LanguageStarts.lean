import Mathlib.Computability.Language
import Mathlib.Data.Char
import Mathlib.Order.Bounds.Image
import ComputeShader.Proofs.SpacedTokens

/-! # Starts of texts in a language

The texts of a token form a language that is put together from classes of characters. Where no part begins
with a character of the class before it, the longest start of a text in such a language is found part by part.
-/

namespace ComputeShader.Lexer

open scoped Computability

/-! ## Languages of classes of characters -/

/-- One character of a class. -/
def oneOf (s : Set Char) : Language Char := {w | ∃ c ∈ s, w = [c]}

/-- Any number of characters of a class. -/
def run (s : Set Char) : Language Char := (oneOf s)∗

/-- At least one character of a class. -/
def many (s : Set Char) : Language Char := oneOf s * run s

def maybe (l : Language Char) : Language Char := 1 + l

/-- A single text. -/
def literal (w : List Char) : Language Char := {v | v = w}

theorem mem_run {s : Set Char} {w : List Char} : w ∈ run s ↔ ∀ c ∈ w, c ∈ s := by
  constructor
  · intro member c inside
    obtain ⟨parts, rfl, single⟩ := Language.mem_kstar.1 member
    obtain ⟨part, listed, within⟩ := List.mem_flatten.1 inside
    obtain ⟨d, holds, rfl⟩ := single part listed
    rwa [List.mem_singleton.1 within]
  · intro all
    have cut : w = (w.map ([·])).flatten := by
      induction w with
      | nil => rfl
      | cons c w ih => exact congrArg (c :: ·) (ih fun d inside => all d (List.mem_cons_of_mem _ inside))
    refine Language.mem_kstar.2 ⟨_, cut, fun part listed => ?_⟩
    obtain ⟨c, inside, rfl⟩ := List.mem_map.1 listed
    exact ⟨c, all c inside, rfl⟩

theorem mem_many {s : Set Char} {w : List Char} : w ∈ many s ↔ w ≠ [] ∧ ∀ c ∈ w, c ∈ s := by
  constructor
  · rintro ⟨_, ⟨c, holds, rfl⟩, rest, others, rfl⟩
    exact ⟨List.cons_ne_nil _ _, List.forall_mem_cons.2 ⟨holds, mem_run.1 others⟩⟩
  · rintro ⟨some, all⟩
    cases w with
    | nil => exact absurd rfl some
    | cons c w =>
      obtain ⟨holds, others⟩ := List.forall_mem_cons.1 all
      exact ⟨[c], ⟨c, holds, rfl⟩, w, mem_run.2 others, rfl⟩

theorem nil_notMem_oneOf_mul (s : Set Char) (l : Language Char) : [] ∉ oneOf s * l := by
  rintro ⟨_, ⟨c, -, rfl⟩, rest, -, equal⟩
  cases equal

theorem mem_run_of_mem_many {s : Set Char} {w : List Char} (member : w ∈ many s) : w ∈ run s :=
  mem_run.2 (mem_many.1 member).2

/-! ## First characters -/

/-- The characters that the texts of a language begin with. -/
def heads (l : Language Char) : Set Char := {c | ∃ w, c :: w ∈ l}

theorem heads_add (l m : Language Char) : heads (l + m) = heads l ∪ heads m := by
  ext c
  exact exists_or

theorem heads_one : heads 1 = ∅ := by
  ext c
  exact iff_of_false (fun ⟨_, equal⟩ => List.cons_ne_nil _ _ equal) id

theorem heads_oneOf_mul (s : Set Char) (l : Language Char) : heads (oneOf s * l) ⊆ s := by
  rintro c ⟨w, v, ⟨d, holds, rfl⟩, rest, -, equal⟩
  cases equal
  exact holds

theorem heads_maybe (l : Language Char) : heads (maybe l) = heads l := by
  rw [maybe, heads_add, heads_one, Set.empty_union]

/-- Whether no text of a language begins with a character of a class. -/
def Apart (l : Language Char) (s : Set Char) : Prop := ∀ c ∈ heads l, c ∉ s

theorem heads_many (s : Set Char) : heads (many s) ⊆ s := heads_oneOf_mul s _

/-! ## Starts of a text -/

/-- The lengths of the starts of a text that are in a language. -/
def starts (l : Language Char) (text : List Char) : Set ℕ :=
  {n | n ≤ text.length ∧ text.take n ∈ l}

theorem length_mem_starts {l : Language Char} {w text : List Char} (member : w ∈ l) (start : w <+: text) :
    w.length ∈ starts l text := by
  obtain ⟨rest, rfl⟩ := start
  exact ⟨by simp, by simpa using member⟩

theorem starts_nil {l : Language Char} (apart : [] ∉ l) : starts l [] = ∅ :=
  Set.eq_empty_of_forall_notMem fun _ start => apart (by simpa using start.2)

theorem starts_add (l m : Language Char) (text : List Char) :
    starts (l + m) text = starts l text ∪ starts m text := by
  ext n
  exact and_or_left

theorem starts_one (text : List Char) : starts 1 text = {0} := by
  ext n
  constructor
  · rintro ⟨within, none⟩
    have short := congrArg List.length ((Language.mem_one _).1 none)
    rw [List.length_take, Nat.min_eq_left within] at short
    exact short
  · rintro rfl
    exact ⟨Nat.zero_le _, Language.nil_mem_one⟩

theorem mem_starts_mul {l m : Language Char} {text : List Char} {n : ℕ} :
    n ∈ starts (l * m) text ↔ ∃ i ∈ starts l text, ∃ j ∈ starts m (text.drop i), i + j = n := by
  constructor
  · rintro ⟨within, v, first, w, second, equal⟩
    change v ++ w = text.take n at equal
    have whole : v ++ (w ++ text.drop n) = text := by
      rw [← List.append_assoc, equal, List.take_append_drop]
    have total := congrArg List.length equal
    rw [List.length_append, List.length_take, Nat.min_eq_left within] at total
    have behind : w <+: text.drop v.length := by
      rw [← whole, List.drop_left]
      exact ⟨_, rfl⟩
    exact ⟨v.length, length_mem_starts first ⟨_, whole⟩, w.length, length_mem_starts second behind, total⟩
  · rintro ⟨i, ⟨within, first⟩, j, ⟨within', second⟩, rfl⟩
    rw [List.length_drop] at within'
    refine ⟨by omega, ?_⟩
    rw [List.take_add]
    exact Language.append_mem_mul first second

theorem mem_starts_literal {w text : List Char} {n : ℕ} :
    n ∈ starts (literal w) text ↔ n = w.length ∧ w <+: text := by
  constructor
  · rintro ⟨within, equal⟩
    subst equal
    rw [List.length_take, Nat.min_eq_left within]
    exact ⟨rfl, List.take_prefix _ _⟩
  · rintro ⟨rfl, start⟩
    exact length_mem_starts rfl start

theorem mem_starts_oneOf {s : Set Char} {text : List Char} {n : ℕ} :
    n ∈ starts (oneOf s) text ↔ n = 1 ∧ ∃ c ∈ s, text.head? = some c := by
  constructor
  · rintro ⟨within, c, holds, equal⟩
    have length := congrArg List.length equal
    rw [List.length_take, Nat.min_eq_left within] at length
    obtain rfl : n = 1 := length
    cases text with
    | nil => cases equal
    | cons d text =>
      cases equal
      exact ⟨rfl, c, holds, rfl⟩
  · rintro ⟨rfl, c, holds, first⟩
    obtain ⟨rest, rfl⟩ := List.head?_eq_some_iff.1 first
    exact ⟨by simp, c, holds, rfl⟩

theorem starts_oneOf_eq_empty {s : Set Char} {text : List Char} (others : ∀ c ∈ text.head?, c ∉ s) :
    starts (oneOf s) text = ∅ := by
  refine Set.eq_empty_of_forall_notMem fun n start => ?_
  obtain ⟨-, c, holds, first⟩ := mem_starts_oneOf.1 start
  exact others c first holds

theorem starts_oneOf_mul (s : Set Char) (l : Language Char) {c : Char} (holds : c ∈ s) (text : List Char) :
    starts (oneOf s * l) (c :: text) = (· + 1) '' starts l text := by
  ext n
  rw [mem_starts_mul]
  constructor
  · rintro ⟨i, first, j, second, rfl⟩
    obtain ⟨rfl, -⟩ := mem_starts_oneOf.1 first
    exact ⟨j, second, Nat.add_comm j 1⟩
  · rintro ⟨j, second, rfl⟩
    exact ⟨1, mem_starts_oneOf.2 ⟨rfl, c, holds, rfl⟩, j, second, Nat.add_comm 1 j⟩

/-- A text has no start in a language of texts that all begin otherwise. -/
theorem starts_eq_empty {l : Language Char} {text : List Char} (apart : [] ∉ l)
    (others : ∀ c ∈ text.head?, c ∉ heads l) : starts l text = ∅ := by
  cases text with
  | nil => exact starts_nil apart
  | cons c text =>
    refine Set.eq_empty_of_forall_notMem fun n start => ?_
    obtain ⟨-, member⟩ := start
    cases n with
    | zero => exact apart member
    | succ n => exact others c rfl ⟨_, member⟩

/-! ## Longest starts -/

theorem starts_mono {l m : Language Char} (within : ∀ w ∈ l, w ∈ m) (text : List Char) :
    starts l text ⊆ starts m text :=
  fun _ start => ⟨start.1, within _ start.2⟩

theorem starts_many_mul_subset (s : Set Char) (l : Language Char) (text : List Char) :
    starts (many s * l) text ⊆ starts (run s * l) text := by
  apply starts_mono
  rintro _ ⟨v, first, w, second, rfl⟩
  exact ⟨v, mem_run_of_mem_many first, w, second, rfl⟩

theorem starts_mul_eq_empty {l : Language Char} {text : List Char} (none : starts l text = ∅)
    (m : Language Char) : starts (l * m) text = ∅ := by
  refine Set.eq_empty_of_forall_notMem fun n start => ?_
  obtain ⟨i, first, -⟩ := mem_starts_mul.1 start
  exact Set.eq_empty_iff_forall_notMem.1 none i first

/-! A text that may be left out has a longest start, of no characters where there is none. -/

theorem isGreatest_starts_maybe {l : Language Char} {text : List Char} {n : ℕ}
    (greatest : IsGreatest (starts l text) n) : IsGreatest (starts (maybe l) text) n := by
  rw [maybe, starts_add, starts_one]
  refine ⟨.inr greatest.1, ?_⟩
  rintro k (none | start)
  · exact none.le.trans (Nat.zero_le n)
  · exact greatest.2 start

theorem isGreatest_starts_maybe_zero {l : Language Char} {text : List Char} (none : starts l text = ∅) :
    IsGreatest (starts (maybe l) text) 0 := by
  rw [maybe, starts_add, starts_one, none, Set.union_empty]
  exact isGreatest_singleton

theorem isGreatest_starts_of_maybe {l : Language Char} {text : List Char} {n : ℕ}
    (greatest : IsGreatest (starts (maybe l) text) n) (some : 0 < n) : IsGreatest (starts l text) n := by
  rw [maybe, starts_add, starts_one] at greatest
  refine ⟨greatest.1.resolve_left some.ne', fun k start => greatest.2 (.inr start)⟩

theorem starts_eq_empty_of_maybe {l : Language Char} (apart : [] ∉ l) {text : List Char}
    (greatest : IsGreatest (starts (maybe l) text) 0) : starts l text = ∅ := by
  rw [maybe, starts_add] at greatest
  refine Set.eq_empty_of_forall_notMem fun n start => ?_
  obtain rfl := Nat.le_zero.1 (greatest.2 (.inr start))
  exact apart start.2

theorem isGreatest_starts_add {l m : Language Char} {text : List Char} {n : ℕ}
    (first : IsGreatest (starts l text) n) (second : ∀ k ∈ starts m text, k ≤ n) :
    IsGreatest (starts (l + m) text) n := by
  rw [starts_add]
  refine ⟨.inl first.1, ?_⟩
  rintro k (longer | longer)
  · exact first.2 longer
  · exact second k longer

theorem starts_oneOf_mul_eq_empty {s : Set Char} {l : Language Char} {text : List Char}
    (none : ∀ c rest, text = c :: rest → c ∈ s → starts l rest = ∅) : starts (oneOf s * l) text = ∅ := by
  by_cases first : ∃ c ∈ s, text.head? = some c
  · obtain ⟨c, holds, first⟩ := first
    obtain ⟨rest, rfl⟩ := List.head?_eq_some_iff.1 first
    rw [starts_oneOf_mul s l holds, none c rest rfl holds, Set.image_empty]
  · apply starts_mul_eq_empty
    apply starts_oneOf_eq_empty
    intro c head holds
    exact first ⟨c, holds, head⟩

theorem isGreatest_starts_oneOf_mul {s : Set Char} {l : Language Char} {c : Char} (holds : c ∈ s)
    {text : List Char} {n : ℕ} (greatest : IsGreatest (starts l text) n) :
    IsGreatest (starts (oneOf s * l) (c :: text)) (n + 1) := by
  rw [starts_oneOf_mul s l holds]
  exact Monotone.map_isGreatest (fun _ _ le => Nat.succ_le_succ le) greatest

theorem le_span_iff {p : Char → Bool} {text : List Char} {n : ℕ} :
    n ≤ span p text ↔ n ≤ text.length ∧ ∀ c ∈ text.take n, p c := by
  induction text generalizing n with
  | nil => simp [span]
  | cons c text ih =>
    cases n with
    | zero => simp
    | succ n =>
      unfold span at ih ⊢
      cases holds : p c with
      | false => simp [holds]
      | true => simp [holds, ih]

theorem drop_eq_cons_of_lt_span {p : Char → Bool} {text : List Char} {i : ℕ} (before : i < span p text) :
    ∃ c rest, text.drop i = c :: rest ∧ p c := by
  obtain ⟨within, all⟩ := le_span_iff.1 (Nat.succ_le_of_lt before)
  have next : text.drop i = text[i] :: text.drop (i + 1) := List.drop_eq_getElem_cons within
  refine ⟨_, _, next, all _ ?_⟩
  rw [Nat.succ_eq_add_one, List.take_add, List.mem_append, next]
  exact .inr List.mem_cons_self

theorem not_of_mem_head?_drop_span {p : Char → Bool} {text : List Char} {c : Char}
    (next : c ∈ (text.drop (span p text)).head?) : ¬ p c := by
  intro holds
  obtain ⟨rest, after⟩ := List.head?_eq_some_iff.1 next
  obtain ⟨within, all⟩ := le_span_iff.1 (le_refl (span p text))
  have beyond := congrArg List.length after
  rw [List.length_drop, List.length_cons] at beyond
  have longer : span p text + 1 ≤ span p text := by
    refine le_span_iff.2 ⟨by omega, fun d member => ?_⟩
    rw [List.take_add, after, List.mem_append] at member
    obtain member | member := member
    · exact all d member
    · rwa [List.mem_singleton.1 member]
  omega

section

variable {p : Char → Bool} {s : Set Char} (decides : ∀ c, p c ↔ c ∈ s)

include decides

theorem starts_run (text : List Char) : starts (run s) text = Set.Iic (span p text) := by
  ext n
  rw [Set.mem_Iic, le_span_iff]
  simp only [decides]
  exact and_congr_right fun _ => mem_run

theorem starts_many (text : List Char) : starts (many s) text = Set.Ioc 0 (span p text) := by
  ext n
  have counts : n ≤ text.length → (text.take n ≠ [] ↔ 0 < n) := by
    intro within
    rw [← List.length_pos_iff, List.length_take, Nat.min_eq_left within]
  rw [Set.mem_Ioc, le_span_iff, and_left_comm]
  simp only [decides]
  refine and_congr_right fun within => ?_
  rw [← counts within]
  exact mem_many

/-- What is behind the class begins otherwise, so the class is left at its end only. -/
theorem mem_starts_run_mul {l : Language Char} (apart : Apart l s) {text : List Char} {n : ℕ}
    (start : n ∈ starts (run s * l) text) :
    (∃ k ∈ starts l (text.drop (span p text)), span p text + k = n) ∨ [] ∈ l ∧ n ≤ span p text := by
  obtain ⟨i, within, j, ⟨fits, member⟩, rfl⟩ := mem_starts_mul.1 start
  rw [starts_run decides, Set.mem_Iic] at within
  obtain rfl | before := Nat.eq_or_lt_of_le within
  · exact .inl ⟨j, ⟨fits, member⟩, rfl⟩
  · cases j with
    | zero => exact .inr ⟨member, within⟩
    | succ j =>
      -- Left early, the class still holds the character that the other text begins with.
      obtain ⟨c, rest, next, holds⟩ := drop_eq_cons_of_lt_span before
      rw [next] at member
      exact absurd ((decides c).1 holds) (apart c ⟨_, member⟩)

theorem isGreatest_starts_run_mul {l : Language Char} (apart : Apart l s) {text : List Char} {n : ℕ}
    (greatest : IsGreatest (starts l (text.drop (span p text))) n) :
    IsGreatest (starts (run s * l) text) (span p text + n) := by
  constructor
  · have whole : span p text ∈ starts (run s) text := by
      rw [starts_run decides]
      exact Set.mem_Iic.2 le_rfl
    exact mem_starts_mul.2 ⟨_, whole, n, greatest.1, rfl⟩
  · intro k start
    obtain ⟨j, behind, rfl⟩ | ⟨-, within⟩ := mem_starts_run_mul decides apart start
    · exact Nat.add_le_add_left (greatest.2 behind) _
    · omega

theorem starts_run_mul_eq_empty {l : Language Char} (apart : Apart l s) {text : List Char}
    (none : starts l (text.drop (span p text)) = ∅) : starts (run s * l) text = ∅ := by
  refine Set.eq_empty_of_forall_notMem fun n start => ?_
  obtain ⟨j, behind, -⟩ | ⟨blank, -⟩ := mem_starts_run_mul decides apart start
  · rw [none] at behind
    exact behind
  · exact Set.eq_empty_iff_forall_notMem.1 none 0 ⟨Nat.zero_le _, blank⟩

theorem isGreatest_starts_many_mul {l : Language Char} (apart : Apart l s) {text : List Char} {n : ℕ}
    (some : 0 < span p text) (greatest : IsGreatest (starts l (text.drop (span p text))) n) :
    IsGreatest (starts (many s * l) text) (span p text + n) := by
  constructor
  · have whole : span p text ∈ starts (many s) text := by
      rw [starts_many decides]
      exact ⟨some, le_rfl⟩
    exact mem_starts_mul.2 ⟨_, whole, n, greatest.1, rfl⟩
  · intro k start
    have within := starts_many_mul_subset s l text start
    exact (isGreatest_starts_run_mul decides apart greatest).2 within

theorem starts_many_mul_eq_empty {l : Language Char} (apart : Apart l s) {text : List Char}
    (none : starts l (text.drop (span p text)) = ∅) : starts (many s * l) text = ∅ := by
  have within := starts_many_mul_subset s l text
  rw [starts_run_mul_eq_empty decides apart none] at within
  exact Set.subset_empty_iff.1 within

/-- An optional mark is read off before what begins otherwise. -/
theorem starts_maybe_oneOf_mul {l : Language Char} (apart : Apart l s) (some : [] ∉ l)
    (text : List Char) : starts (maybe (oneOf s) * l) text =
      (· + optional p text) '' starts l (text.drop (optional p text)) := by
  rw [maybe, add_mul, one_mul, starts_add]
  cases text with
  | nil =>
    have none : starts (oneOf s) [] = ∅ := starts_oneOf_eq_empty nofun
    rw [starts_mul_eq_empty none, Set.union_empty]
    exact (Set.image_id _).symm
  | cons c text =>
    cases holds : p c with
    | false =>
      have none : starts (oneOf s) (c :: text) = ∅ := by
        apply starts_oneOf_eq_empty
        rintro d ⟨⟩
        rw [← decides, holds]
        exact Bool.false_ne_true
      rw [starts_mul_eq_empty none, Set.union_empty, optional, holds]
      exact (Set.image_id _).symm
    | true =>
      have held := (decides c).1 holds
      have none : starts l (c :: text) = ∅ := by
        apply starts_eq_empty some
        rintro d ⟨⟩ begins
        exact apart c begins held
      rw [none, Set.empty_union, starts_oneOf_mul s l held, optional, holds]
      rfl

theorem isGreatest_starts_maybe_oneOf (text : List Char) :
    IsGreatest (starts (maybe (oneOf s)) text) (optional p text) := by
  rw [maybe, starts_add, starts_one]
  constructor
  · cases text with
    | nil => exact .inl rfl
    | cons c text =>
      cases holds : p c with
      | false => exact .inl (by simp [optional, holds])
      | true => exact .inr (mem_starts_oneOf.2 ⟨by simp [optional, holds], c, (decides c).1 holds, rfl⟩)
  · rintro k (none | single)
    · exact none.le.trans (Nat.zero_le _)
    · obtain ⟨rfl, c, holds, first⟩ := mem_starts_oneOf.1 single
      obtain ⟨rest, rfl⟩ := List.head?_eq_some_iff.1 first
      simp [optional, (decides c).2 holds]

/-- A mark behind a shorter start does not make up for what it lacks. -/
theorem isGreatest_starts_mul_mark {l : Language Char} {text : List Char} {n : ℕ}
    (greatest : IsGreatest (starts l text) n) :
    IsGreatest (starts (l * maybe (oneOf s)) text) (n + optional p (text.drop n)) := by
  have mark := isGreatest_starts_maybe_oneOf decides (text.drop n)
  constructor
  · exact mem_starts_mul.2 ⟨n, greatest.1, _, mark.1, rfl⟩
  · intro k start
    obtain ⟨i, first, j, second, rfl⟩ := mem_starts_mul.1 start
    obtain rfl | shorter := Nat.eq_or_lt_of_le (greatest.2 first)
    · exact Nat.add_le_add_left (mark.2 second) _
    · -- A character less and at most one more.
      have short : j ≤ 1 := by
        rw [maybe, starts_add, starts_one] at second
        obtain none | single := second
        · exact none.le.trans zero_le_one
        · exact (mem_starts_oneOf.1 single).1.le
      omega

end

end ComputeShader.Lexer
