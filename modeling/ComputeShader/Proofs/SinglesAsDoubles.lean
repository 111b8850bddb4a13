import ComputeShader.Proofs.FloatDifference

/-! # Singles as doubles

Every single is a double: its significand has fewer bits and its exponent lies well inside the range,
so that nothing is rounded. Hence different numbers remain different, and two singles have the
difference zero only if both are zero or their patterns are the same.
-/

namespace ComputeShader

namespace BinaryFormat

/-! ## Exact ratios -/

theorem divNearestEven_mul (q : Nat) {d : Nat} (positive : 0 < d) : divNearestEven (q * d) d = q := by
  simp [divNearestEven, Nat.mul_div_cancel _ positive, positive]

theorem log2_mul_twoPow {s : Nat} (positive : 0 < s) (k : Nat) :
    (s * twoPow k).log2 = s.log2 + k := by
  have nonzero := Nat.ne_of_gt positive
  rw [Nat.log2_eq_iff (Nat.ne_of_gt (Nat.mul_pos positive (twoPow_pos k)))]
  obtain ⟨above, below⟩ := (Nat.log2_eq_iff nonzero).1 (rfl : s.log2 = s.log2)
  constructor
  · rw [Nat.pow_add]
    exact Nat.mul_le_mul_right _ above
  · rw [Nat.add_right_comm, Nat.pow_add]
    exact Nat.mul_lt_mul_of_pos_right below (twoPow_pos k)

theorem ratioExponent_whole {s : Nat} (positive : 0 < s) (k : Nat) :
    ratioExponent (s * twoPow k) 1 = s.log2 + k := by
  have reached : 1 * twoPow (s.log2 + k) ≤ s * twoPow k := by
    rw [Nat.one_mul, twoPow, Nat.pow_eq, Nat.pow_add]
    exact Nat.mul_le_mul_right _ (Nat.log2_self_le (Nat.ne_of_gt positive))
  have guess : (((s * twoPow k).log2 : Int) - (1 : Nat).log2) = .ofNat (s.log2 + k) := by
    rw [log2_mul_twoPow positive]
    exact Int.sub_zero _
  rw [ratioExponent]
  simp only [guess, reached]
  rfl

theorem ratioExponent_fraction {s : Nat} (positive : 0 < s) (k : Nat) :
    ratioExponent s (twoPow k) = (s.log2 : Int) - k := by
  have above : 2 ^ s.log2 ≤ s := Nat.log2_self_le (Nat.ne_of_gt positive)
  have log2 : (twoPow k).log2 = k := Nat.log2_two_pow
  rw [ratioExponent, log2]
  cases guess : (s.log2 : Int) - k with
  | ofNat j =>
    have reached : twoPow k * twoPow j ≤ s := by
      refine Nat.le_trans (Nat.le_of_eq ?_) above
      rw [twoPow, twoPow, Nat.pow_eq, Nat.pow_eq, ← Nat.pow_add]
      congr 1
      have := Int.ofNat_eq_natCast j
      omega
    simp only [reached]
    rfl
  | negSucc j =>
    have reached : twoPow k ≤ s * twoPow (j + 1) := by
      refine Nat.le_trans (Nat.le_of_eq ?_) (Nat.mul_le_mul_right (twoPow (j + 1)) above)
      rw [twoPow, twoPow, Nat.pow_eq, Nat.pow_eq, ← Nat.pow_add]
      congr 1
      omega
    simp only [reached]
    rfl

/-- A ratio that is a multiple of its quantum is not rounded. -/
theorem ofRatio_exact (negative : Bool) {num den n : Nat} {q : Int} (positive : 0 < num)
    (divides : 0 < den) (quantum : max (ratioExponent num den - 52) (-1074) = q)
    (whole : ∀ k : Nat, q = .ofNat k → num = n * (den * twoPow k))
    (fraction : ∀ k : Nat, q = .negSucc k → num * twoPow (k + 1) = n * den) :
    double.ofRatio negative num den =
      double.withSign negative (min ((q + 1074).toNat * 2 ^ 52 + n) double.infinity) := by
  have least : double.leastExponent = -1074 := rfl
  have bits : ((double.fractionBits : Nat) : Int) = 52 := rfl
  have shifted : q - -1074 = q + 1074 := Int.sub_neg ..
  simp only [ofRatio, Nat.ne_of_gt positive, if_false, least, bits, quantum, shifted]
  cases q with
  | ofNat k =>
    dsimp only
    rw [whole k rfl, divNearestEven_mul n (Nat.mul_pos divides (twoPow_pos k))]
    rfl
  | negSucc k =>
    dsimp only
    rw [fraction k rfl, divNearestEven_mul n divides]
    rfl

/-- A significand of at most 53 bits with its leading bit moved to the 53rd place. -/
def leading (s : Nat) : Nat := s * 2 ^ (52 - s.log2)

theorem log2_lt {s : Nat} (positive : 0 < s) (few : s < 2 ^ 24) : s.log2 < 24 :=
  (Nat.log2_lt (Nat.ne_of_gt positive)).2 few

theorem leading_bounds {s : Nat} (positive : 0 < s) (few : s < 2 ^ 24) :
    2 ^ 52 ≤ leading s ∧ leading s < 2 ^ 53 := by
  have short := log2_lt positive few
  have split (k : Nat) : 2 ^ (s.log2 + k) * 2 ^ (52 - s.log2) = 2 ^ (52 + k) := by
    rw [← Nat.pow_add]
    congr 1
    omega
  have above : 2 ^ s.log2 ≤ s := Nat.log2_self_le (Nat.ne_of_gt positive)
  have below : s < 2 ^ (s.log2 + 1) := Nat.lt_log2_self
  constructor
  · exact split 0 ▸ Nat.mul_le_mul_right _ above
  · exact split 1 ▸ Nat.mul_lt_mul_of_pos_right below (Nat.two_pow_pos _)

/-- A ratio that is a number of 53 bits is written as this number. -/
theorem ofRatio_leading (negative : Bool) {num den s : Nat} {e : Int} (some : 0 < num)
    (divides : 0 < den) (fits : leading s < 2 ^ 53) (exponent : ratioExponent num den = s.log2 + e)
    (low : -149 ≤ s.log2 + e) (high : s.log2 + e ≤ 127)
    (value : ∀ i j : Nat, (i : Int) - j = s.log2 + e - 52 →
      num * twoPow j = leading s * (den * twoPow i)) :
    double.ofRatio negative num den =
      double.withSign negative ((s.log2 + e + 1022).toNat * 2 ^ 52 + leading s) := by
  have quantum : max (ratioExponent num den - 52) (-1074) = s.log2 + e - 52 := by
    rw [exponent]
    omega
  rw [ofRatio_exact negative some divides (n := leading s) quantum ?whole ?fraction]
  case whole =>
    intro k same
    simpa [twoPow] using value k 0 (by rw [same]; rfl)
  case fraction =>
    intro k same
    simpa [twoPow] using value 0 (k + 1) (by rw [same]; omega)
  have shifted : ((s.log2 : Int) + e - 52 + 1074).toNat = ((s.log2 : Int) + e + 1022).toNat := by omega
  have limit : double.infinity = 2047 * 2 ^ 52 := rfl
  rw [shifted, limit, Nat.min_eq_left (by omega)]

/-- Numbers of few bits and a moderate exponent are written as they are. -/
theorem encode_finite (negative : Bool) {s : Nat} {e : Int} (positive : 0 < s) (few : s < 2 ^ 24)
    (low : -149 ≤ s.log2 + e) (high : s.log2 + e ≤ 127) :
    double.encode (.finite negative s e) =
      double.withSign negative ((s.log2 + e + 1022).toNat * 2 ^ 52 + leading s) := by
  have short := log2_lt positive few
  have fits := (leading_bounds positive few).2
  cases e with
  | ofNat k =>
    refine ofRatio_leading negative (Nat.mul_pos positive (twoPow_pos k)) Nat.one_pos fits
      (ratioExponent_whole positive k) low high fun i j same => ?_
    simp only [leading, twoPow, Nat.pow_eq, Nat.one_mul, Nat.mul_assoc, ← Nat.pow_add]
    congr 2
    have := Int.ofNat_eq_natCast k
    omega
  | negSucc k =>
    refine ofRatio_leading negative positive (twoPow_pos (k + 1)) fits
      (ratioExponent_fraction positive (k + 1)) low high fun i j same => ?_
    simp only [leading, twoPow, Nat.pow_eq, Nat.mul_assoc, ← Nat.pow_add]
    congr 2
    omega

end BinaryFormat

/-! ## Singles -/

/-- A single is the number of a sign, a significand and an exponent: the significand has 24 bits, or
fewer at the least exponent, and the pattern is made of the three. -/
structure Single.IsNumber (x : Single) (negative : Bool) (s : Nat) (e : Int) : Prop where
  few : s < 2 ^ 24
  low : -149 ≤ e
  high : e ≤ 104
  full : 2 ^ 23 ≤ s ∨ e = -149
  pattern : x.bits.toNat = (if negative then 2 ^ 31 else 0) + ((e + 149).toNat * 2 ^ 23 + s)

/-- What a single stands for. -/
inductive Single.Reads (x : Single) : BinaryDatum → Prop
  | nan (negative : Bool) : Reads x (.nan negative)
  | infinite (negative : Bool) : Reads x (.infinite negative)
  | finite {negative : Bool} {s : Nat} {e : Int} :
      x.IsNumber negative s e → Reads x (.finite negative s e)

theorem Single.reads (x : Single) : x.Reads x.datum := by
  have bound : x.bits.toNat < 2 ^ 32 := x.bits.toNat_lt
  have signed : x.bits.toNat / 2 ^ 31 * 2 ^ 31 =
      if (x.bits.toNat / 2 ^ 31 % 2 == 1) = true then 2 ^ 31 else 0 := by
    simp only [beq_iff_eq]
    split <;> omega
  have low : BinaryFormat.single.leastExponent = -149 := rfl
  rw [datum]
  unfold BinaryFormat.decode
  rw [low]
  show Reads x (if x.bits.toNat / 2 ^ 23 % 2 ^ 8 = 255 then _
    else if x.bits.toNat / 2 ^ 23 % 2 ^ 8 = 0 then
      .finite (x.bits.toNat / 2 ^ 31 % 2 == 1) (x.bits.toNat % 2 ^ 23) (-149)
    else .finite (x.bits.toNat / 2 ^ 31 % 2 == 1) (2 ^ 23 + x.bits.toNat % 2 ^ 23)
      (-149 + (x.bits.toNat / 2 ^ 23 % 2 ^ 8 - 1 : Nat)))
  split
  · split
    · exact .infinite _
    · exact .nan _
  · split
    · exact .finite ⟨by omega, by omega, by omega, .inr rfl, by omega⟩
    · exact .finite ⟨by omega, by omega, by omega, .inl (by omega), by omega⟩

theorem Single.magnitude_eq_zero_iff (x : Single) :
    x.magnitude = 0 ↔ x.bits.toNat % 2 ^ 31 = 0 := by
  rw [← UInt32.toNat_inj]
  show x.bits.toNat &&& (2 ^ 31 - 1) = 0 ↔ _
  rw [Nat.and_two_pow_sub_one_eq_mod]

namespace Double

theorem magnitude_eq_zero_iff_toNat (x : Double) :
    x.magnitude = 0 ↔ x.bits.toNat % 2 ^ 63 = 0 := by
  rw [magnitude_eq_zero_iff, blank_iff]
  rfl

section Numbers

variable {x y : Single} {negative negative' : Bool} {s s' : Nat} {e e' : Int}

/-- Where the leading bit of a number stands, and the significand moved there. -/
theorem bounds_of_isNumber (number : x.IsNumber negative s e) (positive : 0 < s) :
    (-149 ≤ s.log2 + e ∧ s.log2 + e ≤ 127) ∧
      2 ^ 52 ≤ BinaryFormat.leading s ∧ BinaryFormat.leading s < 2 ^ 53 := by
  obtain ⟨few, low, high, -, -⟩ := number
  have short := BinaryFormat.log2_lt positive few
  exact ⟨by omega, BinaryFormat.leading_bounds positive few⟩

/-- The pattern of the same number as a double. -/
theorem toNat_of_isNumber (number : x.IsNumber negative s e) (positive : 0 < s) :
    (ofDatum (.finite negative s e)).bits.toNat = (if negative then 2 ^ 63 else 0) +
      ((s.log2 + e + 1022).toNat * 2 ^ 52 + BinaryFormat.leading s) := by
  obtain ⟨⟨low, high⟩, -, fits⟩ := bounds_of_isNumber number positive
  have signBit : BinaryFormat.double.signBit = 2 ^ 63 := rfl
  rw [ofDatum, UInt64.toNat_ofNat', BinaryFormat.encode_finite negative positive number.few low high,
    BinaryFormat.withSign, signBit]
  split <;> omega

/-- No single but zero is zero as a double. -/
theorem magnitude_of_ofSingle (zero : (ofSingle x).magnitude = 0) : x.magnitude = 0 := by
  rw [ofSingle] at zero
  have reads := x.reads
  generalize x.datum = d at zero reads
  cases reads with
  | nan negative => cases negative <;> exact absurd zero (by decide)
  | infinite negative => cases negative <;> exact absurd zero (by decide)
  | @finite negative s e number =>
    rcases Nat.eq_zero_or_pos s with rfl | positive
    · obtain ⟨-, -, -, full, pattern⟩ := number
      rw [Single.magnitude_eq_zero_iff, pattern]
      split <;> omega
    · obtain ⟨⟨low, high⟩, some, fits⟩ := bounds_of_isNumber number positive
      rw [magnitude_eq_zero_iff_toNat, toNat_of_isNumber number positive] at zero
      split at zero <;> omega

/-- Of two numbers with the leading bit at the same place none has a longer significand. -/
theorem log2_le_of_same_place (number : x.IsNumber negative s e) (number' : y.IsNumber negative' s' e')
    (positive : 0 < s) (positive' : 0 < s') (same : s.log2 + e = s'.log2 + e') :
    s'.log2 ≤ s.log2 := by
  refine Nat.not_lt.1 fun longer => ?_
  have short := BinaryFormat.log2_lt positive' number'.few
  have low := number'.low
  have large : 2 ^ 23 ≤ s := number.full.resolve_right (by omega)
  have log2 : 23 ≤ s.log2 := (Nat.le_log2 (Nat.ne_of_gt positive)).2 large
  omega

/-- Different numbers remain different. -/
theorem eq_of_isNumber (number : x.IsNumber negative s e) (number' : y.IsNumber negative' s' e')
    (positive : 0 < s) (positive' : 0 < s')
    (same : ofDatum (.finite negative s e) = ofDatum (.finite negative' s' e')) : x = y := by
  have bits := congrArg (fun x => x.bits.toNat) same
  simp only [toNat_of_isNumber number positive, toNat_of_isNumber number' positive'] at bits
  obtain ⟨⟨low, high⟩, some, fits⟩ := bounds_of_isNumber number positive
  obtain ⟨⟨low', high'⟩, some', fits'⟩ := bounds_of_isNumber number' positive'
  have signs : negative = negative' := by
    cases negative <;> cases negative' <;> simp only [Bool.false_eq_true, if_true, if_false] at bits <;>
      first | rfl | omega
  subst signs
  have place : (s.log2 : Int) + e = s'.log2 + e' := by omega
  have log2 : s.log2 = s'.log2 := Nat.le_antisymm
    (log2_le_of_same_place number' number positive' positive place.symm)
    (log2_le_of_same_place number number' positive positive' place)
  have significands : BinaryFormat.leading s = BinaryFormat.leading s' := by omega
  rw [BinaryFormat.leading, BinaryFormat.leading, log2] at significands
  have significand := Nat.eq_of_mul_eq_mul_right (Nat.two_pow_pos _) significands
  have exponent : e = e' := by omega
  have pattern : x.bits.toNat = y.bits.toNat := by
    rw [number.pattern, number'.pattern, significand, exponent]
  cases x
  cases y
  exact congrArg Single.mk (UInt32.toNat_inj.1 pattern)

end Numbers

/-- A single that is a number other than zero as a double is one by itself. -/
theorem isNumber_of_unpacked {x : Single}
    (number : ∃ s m e positive, (ofSingle x).unpacked = .finite s m e positive) :
    ∃ negative s e, x.IsNumber negative s e ∧ 0 < s ∧ ofSingle x = ofDatum (.finite negative s e) := by
  obtain ⟨sign, m, e, positive, number⟩ := number
  rw [ofSingle] at number ⊢
  have reads := x.reads
  generalize x.datum = d at number reads ⊢
  cases reads with
  | nan negative => cases negative <;> cases number
  | infinite negative => cases negative <;> cases number
  | @finite negative s e finite =>
    rcases Nat.eq_zero_or_pos s with rfl | positive
    · obtain rfl : e = -149 := finite.full.resolve_left (by decide)
      cases negative <;> cases number
    · exact ⟨negative, s, e, finite, positive, rfl⟩

/-- The difference of two singles is zero only if both are zero or they are the same. -/
theorem eq_of_ofSingle_sub {x y : Single}
    (zero : ((ofSingle x).sub (ofSingle y)).magnitude = 0) :
    (x.magnitude = 0 ∧ y.magnitude = 0) ∨ x = y := by
  rcases eq_of_magnitude_sub zero with ⟨left, right⟩ | ⟨same, number⟩
  · exact .inl ⟨magnitude_of_ofSingle left, magnitude_of_ofSingle right⟩
  · obtain ⟨negative, s, e, number', positive, left⟩ := isNumber_of_unpacked number
    obtain ⟨negative', s', e', number'', positive', right⟩ := isNumber_of_unpacked (same ▸ number)
    exact .inr (eq_of_isNumber number' number'' positive positive' (left ▸ right ▸ same))

end Double

end ComputeShader
