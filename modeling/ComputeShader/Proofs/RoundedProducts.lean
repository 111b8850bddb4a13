import ComputeShader.Proofs.SinglesAsDoubles

/-! # Rounded products

Rounding to nearest never passes a number of the format. So the product of a number with a factor of
magnitude at most one is, also after rounding, at most as large as the number.
-/

namespace ComputeShader

open Float.Model (Format UnpackedFloat totalExponent)
open Float.Model.UnpackedFloat

/-! ## Rounding a mantissa -/

theorem roundedMantissa_le (x : ExtendedMantissa) : x.roundedMantissa ≤ x.mantissa + 1 := by
  obtain ⟨m, r, s⟩ := x
  cases r <;> cases s <;> simp only [ExtendedMantissa.roundedMantissa, ExtendedMantissa.accuracy,
    Accuracy.roundToNearestEven] <;> omega

/-- Nothing is left to round of a multiple of what is shifted out. -/
theorem shiftRight_of_multiple (n k : Nat) :
    (⟨n * 2 ^ k, false, false⟩ : ExtendedMantissa) >>> k = ⟨n, false, false⟩ := by
  induction k generalizing n with
  | zero =>
    rw [Nat.pow_zero, Nat.mul_one]
    rfl
  | succ k ih =>
    have last : (⟨n * 2 ^ (k + 1), false, false⟩ : ExtendedMantissa) >>> (k + 1) =
        ((⟨n * 2 * 2 ^ k, false, false⟩ : ExtendedMantissa) >>> k).shiftRightOne := by
      rw [Nat.mul_assoc, ← Nat.pow_succ']
      rfl
    rw [last, ih]
    simp [ExtendedMantissa.shiftRightOne]

/-- What is at most a whole number is rounded to at most this number. -/
theorem roundedMantissa_shiftRight_le {m n k : Nat} (bound : m ≤ n * 2 ^ k) :
    ((⟨m, false, false⟩ : ExtendedMantissa) >>> k).roundedMantissa ≤ n := by
  rcases Nat.eq_or_lt_of_le bound with rfl | below
  · rw [shiftRight_of_multiple]
    exact Nat.le_refl n
  · have short : m / 2 ^ k < n := Nat.div_lt_of_lt_mul (Nat.mul_comm n _ ▸ below)
    have rounded := roundedMantissa_le ((⟨m, false, false⟩ : ExtendedMantissa) >>> k)
    rw [mantissa_shiftRight] at rounded
    exact Nat.le_trans rounded short

/-! ## Rounding a number -/

section Rounding

variable {spec : Format} {m n : Nat} {e t : Int}

/-- A number of the format, given by a mantissa and an exponent `t`, is not passed by a shift that rounds:
the exponent stays at most `t`, and the mantissa at most that of the number at the new exponent. -/
theorem shiftToTarget_le (few : n < 2 ^ spec.mantissaBits) (low : spec.minExponent ≤ t) (below : e ≤ t)
    (bound : m ≤ n * 2 ^ (t - e).toNat) :
    let shifted := shiftToTargetExponent spec m e .exact
    spec.minExponent ≤ shifted.2 ∧ shifted.2 ≤ t ∧
      shifted.1.roundedMantissa ≤ n * 2 ^ (t - shifted.2).toNat := by
  have leading : (m.log2 : Int) + 1 + e - spec.mantissaBits ≤ t := by
    rcases Nat.eq_zero_or_pos m with rfl | positive
    · have some : 1 ≤ spec.mantissaBits := Nat.le_add_right 1 _
      rw [Nat.log2_zero]
      omega
    · have large : m < 2 ^ (spec.mantissaBits + (t - e).toNat) := by
        rw [Nat.pow_add]
        exact Nat.lt_of_le_of_lt bound (Nat.mul_lt_mul_of_pos_right few (Nat.two_pow_pos _))
      have := (Nat.log2_lt (Nat.ne_of_gt positive)).2 large
      omega
  intro shifted
  have target : spec.targetExponent (totalExponent m e) ≤ t := max_le leading low
  have least : spec.minExponent ≤ spec.targetExponent (totalExponent m e) := le_max_right _ _
  have exponent : shifted.2 = e + (spec.targetExponent (totalExponent m e) - e).toNat := rfl
  have mantissa : shifted.1 = (⟨m, false, false⟩ : ExtendedMantissa) >>>
      (spec.targetExponent (totalExponent m e) - e).toNat := rfl
  generalize spec.targetExponent (totalExponent m e) = t' at *
  refine ⟨by omega, by omega, ?_⟩
  rw [mantissa]
  apply roundedMantissa_shiftRight_le
  rw [Nat.mul_assoc, ← Nat.pow_add]
  have split : (t - shifted.2).toNat + (t' - e).toNat = (t - e).toNat := by omega
  rwa [split]

/-- What is at most a number of the format is rounded to at most this number. -/
theorem roundWithAccuracy_le (s : Sign) (few : n < 2 ^ spec.mantissaBits) (low : spec.minExponent ≤ t)
    (below : e ≤ t) (bound : m ≤ n * 2 ^ (t - e).toNat) :
    roundWithAccuracy spec s m e .exact = .zero s ∨
      ∃ m' e' positive, roundWithAccuracy spec s m e .exact = .finite s m' e' positive ∧
        spec.minExponent ≤ e' ∧ e' ≤ t ∧ m' ≤ n * 2 ^ (t - e').toNat := by
  obtain ⟨low₁, below₁, bound₁⟩ := shiftToTarget_le few low below bound
  obtain ⟨low₂, below₂, bound₂⟩ := shiftToTarget_le few low below₁ bound₁
  have rounded := Nat.le_trans (mantissa_le_rounded _) bound₂
  simp only [roundWithAccuracy]
  split
  · exact .inl rfl
  · next some => exact .inr ⟨_, _, Nat.pos_of_ne_zero some, rfl, low₂, below₂, rounded⟩

end Rounding

/-! ## Patterns of 32 bits -/

section Patterns

variable {b : BitVec Format.binary32.numBits} {s : Nat} {e : Int}

theorem toNat_fraction : (unpackMantissa b).toNat = b.toNat % 2 ^ 23 := toNat_unpackMantissa b

theorem toNat_field : (unpackExponent b).toNat = b.toNat / 2 ^ 23 % 2 ^ 8 := toNat_unpackExponent b

/-- A pattern made of a significand and an exponent is unpacked to the two. -/
theorem unpack_of_parts (few : s < 2 ^ 24) (low : -149 ≤ e) (high : e ≤ 104)
    (full : 2 ^ 23 ≤ s ∨ e = -149) (pattern : b.toNat % 2 ^ 31 = (e + 149).toNat * 2 ^ 23 + s) :
    (∃ sign, unpack Format.binary32 b = .zero sign) ∨
      ∃ sign positive, unpack Format.binary32 b = .finite sign s e positive := by
  have fraction := @toNat_fraction b
  have field := @toNat_field b
  fun_cases UnpackedFloat.unpack Format.binary32 b with
  | case1 _ _ _ _ special | case2 _ _ special =>
    have special : (unpackExponent b).toNat = 255 := congrArg BitVec.toNat special
    omega
  | case3 => exact .inl ⟨_, rfl⟩
  | case4 _ _ _ _ _ _ zero =>
    have zero : (unpackExponent b).toNat = 0 := congrArg BitVec.toNat zero
    obtain rfl : s = (unpackMantissa b).toNat := by omega
    obtain rfl : e = ((unpackExponent b).toNat : Int) - 150 + 1 := by omega
    exact .inr ⟨_, _, rfl⟩
  | case5 _ _ _ _ _ _ some =>
    have some : (unpackExponent b).toNat ≠ 0 := fun zero => some (BitVec.eq_of_toNat_eq zero)
    have implicit : (1#1 ++ unpackMantissa b).toNat = 2 ^ 23 + (unpackMantissa b).toNat :=
      toNat_implicit _
    obtain rfl : s = (1#1 ++ unpackMantissa b).toNat := by omega
    obtain rfl : e = ((unpackExponent b).toNat : Int) - 150 := by omega
    exact .inr ⟨_, _, rfl⟩

/-- The fields of the patterns beyond infinity: all bits of the exponent, and some of the fraction. -/
theorem fields_of_special (special : 255 * 2 ^ 23 < b.toNat % 2 ^ 31) :
    unpackExponent b = -1#8 ∧ unpackMantissa b ≠ 0#23 := by
  have fraction := @toNat_fraction b
  have field := @toNat_field b
  have full : b.toNat / 2 ^ 23 % 2 ^ 8 = 255 := by omega
  refine ⟨BitVec.eq_of_toNat_eq (field.trans full), fun none => ?_⟩
  have none : (unpackMantissa b).toNat = 0 := congrArg BitVec.toNat none
  omega

theorem unpack_of_special (special : 255 * 2 ^ 23 < b.toNat % 2 ^ 31) :
    unpack Format.binary32 b = .notANumber :=
  unpack_eq_notANumber (decide_eq_true (fields_of_special special))

theorem toNat_packComponents (sign : Sign) (field : BitVec 8) (fraction : BitVec 23) :
    (packComponents Format.binary32 sign field fraction).toNat % 2 ^ 31 =
      field.toNat * 2 ^ 23 + fraction.toNat := by
  have on_field := @toNat_field (packComponents Format.binary32 sign field fraction)
  have on_fraction := @toNat_fraction (packComponents Format.binary32 sign field fraction)
  rw [unpackExponent_packComponents] at on_field
  rw [unpackMantissa_packComponents] at on_fraction
  omega

/-- The pattern of a packed number without its sign is at most that of a number of the format which the
packed one does not pass. -/
theorem pack_le (sign : Sign) {m : Nat} {e' : Int} (positive : 0 < m) (high : e ≤ 104)
    (full : 2 ^ 23 ≤ s ∨ e = -149) (low : -149 ≤ e') (below : e' ≤ e)
    (bound : m ≤ s * 2 ^ (e - e').toNat) :
    (pack Format.binary32 (.finite sign m e' positive)).toNat % 2 ^ 31 ≤ (e + 149).toNat * 2 ^ 23 + s := by
  have same_place (same : e' = e) : m ≤ s := by simpa [same] using bound
  have biased : e' + (Format.binary32.exponentBias : Int) +
      (Format.binary32.mantissaBitsWithoutImplicit : Int) = e' + 150 := by
    change e' + 127 + 23 = e' + 150
    omega
  have fits : ¬ 2 ^ Format.binary32.exponentBits ≤ (e' + 150).toNat + 1 := by
    change ¬ 256 ≤ _
    omega
  simp only [UnpackedFloat.pack, biased, if_neg fits]
  split
  · next normal =>
    have leading : m.log2 = 23 := Nat.succ.inj normal
    obtain ⟨large, small⟩ := (Nat.log2_eq_iff (Nat.ne_of_gt positive)).1 leading
    rw [toNat_packComponents, BitVec.toNat_ofNat, BitVec.toNat_ofNat]
    omega
  · rw [toNat_packComponents, BitVec.toNat_ofNat, BitVec.toNat_ofNat]
    omega

end Patterns

/-! ## Singles -/

namespace Single

variable {x y : Single} {negative : Bool} {s : Nat} {e : Int}

/-- The unpacked float of a single. -/
def unpacked (x : Single) : UnpackedFloat := unpack Format.binary32 x.bits.toBitVec

theorem toBitVec_mul (x y : Single) : (x.mul y).bits.toBitVec =
    pack Format.binary32 (UnpackedFloat.mul Format.binary32 x.unpacked y.unpacked) := by
  have kept (w : UInt32) : (Float32.ofBits w).toModel.unpack = unpack Format.binary32 w.toBitVec :=
    @unpack_pack_unpack Format.binary32 (by decide) w.toBitVec
  rw [unpacked, unpacked, ← kept, ← kept]
  rfl

theorem toNat_magnitude (x : Single) : x.magnitude.toNat = x.bits.toNat % 2 ^ 31 :=
  Nat.and_two_pow_sub_one_eq_mod x.bits.toNat 31

theorem special_of_isNaN (special : x.isNaN) : 255 * 2 ^ 23 < x.bits.toNat % 2 ^ 31 := by
  have large : 255 * 2 ^ 23 < x.magnitude.toNat := of_decide_eq_true special
  rwa [toNat_magnitude] at large

/-- Whatever the operands are, there is one NaN that an operation of the float unit gives. -/
theorem bits_lift₂_of_isNaN {op : Float32 → Float32 → Float32} (special : (lift₂ op x y).isNaN) :
    (lift₂ op x y).bits = 0x7fc00000 := by
  obtain ⟨full, some⟩ := fields_of_special (special_of_isNaN special)
  have packed := (op (Float32.ofBits x.bits) (Float32.ofBits y.bits)).toModel.valid.eq_packedNaN full some
  exact UInt32.toBitVec_inj.1 packed

/-- The magnitude of a number. -/
theorem IsNumber.toNat_magnitude (number : x.IsNumber negative s e) :
    x.magnitude.toNat = (e + 149).toNat * 2 ^ 23 + s := by
  obtain ⟨few, low, high, -, pattern⟩ := number
  rw [Single.toNat_magnitude, pattern]
  split <;> omega

/-- The unpacked float of a number. -/
theorem IsNumber.unpacked (number : x.IsNumber negative s e) :
    (∃ sign, x.unpacked = .zero sign) ∨ ∃ sign positive, x.unpacked = .finite sign s e positive :=
  unpack_of_parts number.few number.low number.high number.full
    (x.toNat_magnitude.symm.trans number.toNat_magnitude)

theorem exists_isNumber (small : x.magnitude.toNat < 255 * 2 ^ 23) :
    ∃ negative s e, x.IsNumber negative s e := by
  have bound := x.bits.toNat_lt
  rw [Single.toNat_magnitude] at small
  have signed : (if decide (2 ^ 31 ≤ x.bits.toNat) = true then 2 ^ 31 else 0) + x.bits.toNat % 2 ^ 31 =
      x.bits.toNat := by
    simp only [decide_eq_true_eq]
    split <;> omega
  refine ⟨decide (2 ^ 31 ≤ x.bits.toNat), ?_⟩
  by_cases subnormal : x.bits.toNat % 2 ^ 31 < 2 ^ 23
  · exact ⟨x.bits.toNat % 2 ^ 31, -149, by omega, by omega, by omega, .inr rfl, by omega⟩
  · exact ⟨2 ^ 23 + x.bits.toNat % 2 ^ 23, ((x.bits.toNat % 2 ^ 31 / 2 ^ 23 : Nat) : Int) - 150,
      by omega, by omega, by omega, .inl (by omega), by omega⟩

/-- A number of magnitude at most one. -/
theorem IsNumber.le_one (number : x.IsNumber negative s e) (small : x.magnitude ≤ one.magnitude) :
    e ≤ -23 ∧ s ≤ 2 ^ (-e).toNat := by
  have small : x.magnitude.toNat ≤ 127 * 2 ^ 23 := small
  rw [number.toNat_magnitude] at small
  obtain ⟨few, low, high, full, -⟩ := number
  have below : e ≤ -23 := by omega
  refine ⟨below, ?_⟩
  rcases Int.lt_or_eq_of_le below with smaller | rfl
  · apply Nat.le_of_lt
    apply Nat.lt_of_lt_of_le few
    exact Nat.pow_le_pow_right Nat.two_pos (by omega)
  · change s ≤ 2 ^ 23
    omega

theorem toNat_packedZero (sign : Sign) :
    (pack Format.binary32 (.zero sign)).toNat % 2 ^ 31 = 0 := by
  cases sign <;> rfl

/-- The product with a factor of magnitude at most one is at most as large as the other factor. -/
theorem magnitude_mul_le (small : x.magnitude ≤ one.magnitude) (finite : y.magnitude.toNat < 255 * 2 ^ 23) :
    (x.mul y).magnitude.toNat ≤ y.magnitude.toNat := by
  have small' : x.magnitude.toNat ≤ 127 * 2 ^ 23 := small
  obtain ⟨_, m, e, factor⟩ := x.exists_isNumber (by omega)
  obtain ⟨_, n, t, number⟩ := y.exists_isNumber finite
  obtain ⟨below, most⟩ := factor.le_one small
  have bits : (x.mul y).magnitude.toNat = (pack Format.binary32
      (UnpackedFloat.mul Format.binary32 x.unpacked y.unpacked)).toNat % 2 ^ 31 := by
    rw [Single.toNat_magnitude, ← toBitVec_mul]
    rfl
  rw [bits, number.toNat_magnitude]
  have zero (sign : Sign) : (pack Format.binary32 (.zero sign)).toNat % 2 ^ 31 ≤
      (t + 149).toNat * 2 ^ 23 + n := toNat_packedZero sign ▸ Nat.zero_le _
  rcases factor.unpacked with ⟨sign, left⟩ | ⟨sign, positive, left⟩ <;>
    rcases number.unpacked with ⟨sign', right⟩ | ⟨sign', positive', right⟩ <;> rw [left, right]
  · exact zero _
  · exact zero _
  · exact zero _
  · have bound : m * n ≤ n * 2 ^ (t - (e + t)).toNat := by
      have shift : (t - (e + t)).toNat = (-e).toNat := by omega
      rw [shift, Nat.mul_comm]
      exact Nat.mul_le_mul_left n most
    have rounds := @roundWithAccuracy_le Format.binary32 (m * n) n (e + t) t (sign * sign') number.few
      number.low (by omega) bound
    rw [UnpackedFloat.mul]
    rcases rounds with rounded | ⟨m', e', positive, rounded, low, high, bound⟩ <;> rw [rounded]
    · exact zero _
    · exact pack_le _ positive number.high number.full low high bound

end Single

end ComputeShader
