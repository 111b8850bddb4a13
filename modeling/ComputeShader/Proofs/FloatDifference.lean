import Mathlib
import ComputeShader.Numeric.Double

/-! # Differences of floats

The difference of two doubles is zero only if they are the same number: subtraction is exact before it
is rounded, and no number but zero is rounded to zero, since every double is a multiple of the least
one.
-/

namespace ComputeShader

open Float.Model (Format UnpackedFloat totalExponent)
open Float.Model.UnpackedFloat

/-- Whether a mantissa and an exponent are those of a double: the mantissa has 53 bits, or fewer at the
least exponent. -/
def CanonicalDouble (m : Nat) (e : Int) : Prop :=
  m < 2 ^ 53 ∧ (-1074 : Int) ≤ e ∧ (2 ^ 52 ≤ m ∨ e = -1074)

/-! ## Rounding -/

theorem targetExponent_binary64 (m : Nat) (e : Int) :
    Format.binary64.targetExponent (totalExponent m e) =
      max ((m.log2 : Int) + 1 + e - 53) (-1074) := by
  simp only [Format.targetExponent, totalExponent]
  rfl

theorem mantissa_shiftRight (x : ExtendedMantissa) (k : Nat) :
    (x >>> k).mantissa = x.mantissa / 2 ^ k := by
  induction k with
  | zero => exact (Nat.div_one _).symm
  | succ k ih =>
    have last : (x >>> (k + 1)).mantissa = (x >>> k).mantissa / 2 := rfl
    rw [last, ih, Nat.div_div_eq_div_mul, Nat.pow_succ]

theorem mantissa_le_rounded (x : ExtendedMantissa) : x.mantissa ≤ x.roundedMantissa := by
  obtain ⟨m, r, s⟩ := x
  cases r <;> cases s <;> simp [ExtendedMantissa.roundedMantissa, ExtendedMantissa.accuracy,
    Accuracy.roundToNearestEven]

/-- Shifting to the target exponent leaves a mantissa of at most 53 bits, and not nothing of it. -/
theorem shiftToTarget_bounds {m : Nat} {e : Int} (positive : 0 < m) (low : -1074 ≤ e) (a : Accuracy) :
    let shifted := shiftToTargetExponent Format.binary64 m e a
    0 < shifted.1.mantissa ∧ shifted.1.mantissa < 2 ^ 53 ∧ -1074 ≤ shifted.2 := by
  have held : (ExtendedMantissa.ofMantissaAndAccuracy m a).mantissa = m := by
    cases a with
    | exact => rfl
    | inexact o => cases o <;> rfl
  simp only [shiftToTargetExponent, shiftToExponent, mantissa_shiftRight, held,
    targetExponent_binary64]
  have above : 2 ^ m.log2 ≤ m := Nat.log2_self_le (Nat.ne_of_gt positive)
  have below : m < 2 ^ (m.log2 + 1) := Nat.lt_log2_self
  generalize m.log2 = l at above below ⊢
  refine ⟨?_, ?_, by omega⟩
  · refine Nat.div_pos (Nat.le_trans (Nat.pow_le_pow_right Nat.two_pos ?_) above)
      (Nat.two_pow_pos _)
    omega
  · refine Nat.div_lt_of_lt_mul (Nat.lt_of_lt_of_le below ?_)
    rw [← Nat.pow_add]
    exact Nat.pow_le_pow_right Nat.two_pos (by omega)

/-- A positive number is not rounded to zero. -/
theorem exists_round (s : Sign) {m : Nat} {e : Int} (positive : 0 < m) (low : -1074 ≤ e) :
    ∃ m' e' positive', UnpackedFloat.round Format.binary64 s m e = .finite s m' e' positive' ∧
      m' < 2 ^ 53 ∧ -1074 ≤ e' := by
  have decreased : 0 < (decreaseExponent m e
      (Format.binary64.targetExponent (totalExponent m e))).1 := by
    simp only [decreaseExponent, Nat.shiftLeft_eq]
    exact Nat.mul_pos positive (Nat.two_pow_pos _)
  have low' : -1074 ≤ (decreaseExponent m e
      (Format.binary64.targetExponent (totalExponent m e))).2 := by
    simp only [decreaseExponent, targetExponent_binary64]
    omega
  obtain ⟨left, -, low₁⟩ := shiftToTarget_bounds decreased low' .exact
  have rounded := Nat.lt_of_lt_of_le left (mantissa_le_rounded _)
  obtain ⟨left', few, low₂⟩ := shiftToTarget_bounds rounded low₁ .exact
  exact ⟨_, _, left', dif_neg (Nat.ne_of_gt left'), few, low₂⟩

/-! ## Packing -/

theorem toNat_unpackMantissa {spec : Format} (b : BitVec spec.numBits) :
    (unpackMantissa b).toNat = b.toNat % 2 ^ spec.mantissaBitsWithoutImplicit := by
  simp [unpackMantissa_def, BitVec.extractLsb'_toNat]

theorem toNat_unpackExponent {spec : Format} (b : BitVec spec.numBits) :
    (unpackExponent b).toNat =
      b.toNat / 2 ^ spec.mantissaBitsWithoutImplicit % 2 ^ spec.exponentBits := by
  simp [unpackExponent_def, BitVec.extractLsb'_toNat, Nat.shiftRight_eq_div_pow]

/-- The mantissa of a normal number has an implicit leading bit. -/
theorem toNat_implicit {w : Nat} (f : BitVec w) : (1#1 ++ f).toNat = 2 ^ w + f.toNat := by
  rw [BitVec.toNat_append, ← Nat.shiftLeft_add_eq_or_of_lt f.isLt, Nat.shiftLeft_eq]
  exact congrArg (· + f.toNat) (Nat.one_mul _)

theorem unpack_eq_notANumber {spec : Format} {b : BitVec spec.numBits} (special : isNaNBits b) :
    unpack spec b = .notANumber := by
  simp only [isNaNBits, decide_eq_true_eq] at special
  simp [unpack, special]

/-- Packing gives back the pattern of a number. -/
theorem pack_unpack_of_number {spec : Format} (exponents : 2 ≤ spec.exponentBits)
    {b : BitVec spec.numBits} (number : unpack spec b ≠ .notANumber) :
    pack spec (unpack spec b) = b := by
  rw [UnpackedFloat.pack_unpack b exponents]
  exact if_neg fun special => number (unpack_eq_notANumber special)

/-- Packing loses no more than the payload of a NaN. -/
theorem unpack_pack_unpack {spec : Format} (exponents : 2 ≤ spec.exponentBits)
    (b : BitVec spec.numBits) : unpack spec (pack spec (unpack spec b)) = unpack spec b := by
  by_cases number : unpack spec b = .notANumber
  · rw [number]
    exact unpack_packedNaN
  · rw [pack_unpack_of_number exponents number]

section Packing

variable {b : BitVec Format.binary64.numBits}

/-- The float of a pattern, by its exponent field and its fraction. -/
inductive Unpacks (b : BitVec Format.binary64.numBits) : UnpackedFloat → Prop
  | infinite : unpackExponent b = -1#11 → unpackMantissa b = 0#52 →
      Unpacks b (.infinity (Sign.ofBitVec (unpackSign b)))
  | nan : unpackExponent b = -1#11 → unpackMantissa b ≠ 0#52 → Unpacks b .notANumber
  | zero : unpackExponent b = 0#11 → unpackMantissa b = 0#52 →
      Unpacks b (.zero (Sign.ofBitVec (unpackSign b)))
  | subnormal {m : Nat} {e : Int} (positive : 0 < m) : unpackExponent b = 0#11 →
      m = (unpackMantissa b).toNat → e = -1074 →
      Unpacks b (.finite (Sign.ofBitVec (unpackSign b)) m e positive)
  | normal {m : Nat} {e : Int} (positive : 0 < m) : (unpackExponent b).toNat ≠ 0 →
      (unpackExponent b).toNat < 2047 → m = 2 ^ 52 + (unpackMantissa b).toNat →
      e = (unpackExponent b).toNat - 1075 →
      Unpacks b (.finite (Sign.ofBitVec (unpackSign b)) m e positive)

theorem unpacks (b : BitVec Format.binary64.numBits) :
    Unpacks b (UnpackedFloat.unpack Format.binary64 b) := by
  fun_cases UnpackedFloat.unpack Format.binary64 b with
  | case1 => exact .infinite ‹_› ‹_›
  | case2 => exact .nan ‹_› ‹_›
  | case3 => exact .zero ‹_› ‹_›
  | case4 _ _ _ _ _ special field some =>
    have none : (unpackExponent b).toNat = 0 := congrArg BitVec.toNat field
    refine .subnormal _ field rfl ?_
    show ((unpackExponent b).toNat : Int) - 1075 + 1 = -1074
    omega
  | case5 _ _ _ _ _ special field =>
    have below : (unpackExponent b).toNat ≠ 2047 := fun full => special (BitVec.eq_of_toNat_eq full)
    have bound := (unpackExponent b).isLt
    refine .normal _ (fun none => field (BitVec.eq_of_toNat_eq none)) ?_ (toNat_implicit _) rfl
    exact Nat.lt_of_le_of_ne (Nat.le_of_lt_succ bound) below

theorem canonical_unpack {s : Sign} {m : Nat} {e : Int} {positive : 0 < m}
    (unpacked : UnpackedFloat.unpack Format.binary64 b = .finite s m e positive) :
    CanonicalDouble m e := by
  have fraction : (unpackMantissa b).toNat < 2 ^ 52 := (unpackMantissa b).isLt
  have unpacks := unpacks b
  rw [unpacked] at unpacks
  cases unpacks with
  | subnormal _ _ mantissa least => exact ⟨by omega, by omega, .inr least⟩
  | normal _ _ _ mantissa exponent => exact ⟨by omega, by omega, .inl (by omega)⟩

/-- Packing puts the exponent field beside the fraction, unless the number is too large. -/
theorem pack_finite (s : Sign) {m : Nat} {e : Int} (positive : 0 < m) (few : m < 2 ^ 53) :
    UnpackedFloat.pack Format.binary64 (.finite s m e positive) =
      if 971 < e then packedInfinity Format.binary64 s
      else packComponents Format.binary64 s
        (if 2 ^ 52 ≤ m then BitVec.ofNat 11 (e + 1075).toNat else 0#11) (BitVec.ofNat 52 m) := by
  have biased : e + (Format.binary64.exponentBias : Int) +
      (Format.binary64.mantissaBitsWithoutImplicit : Int) = e + 1075 := by
    show e + 1023 + 52 = e + 1075
    omega
  have full : m.log2 + 1 = Format.binary64.mantissaBits ↔ 2 ^ 52 ≤ m := by
    have below : m.log2 < 53 := (Nat.log2_lt (Nat.ne_of_gt positive)).2 few
    rw [← Nat.le_log2 (Nat.ne_of_gt positive)]
    show m.log2 + 1 = 53 ↔ _
    omega
  have large : 2 ^ Format.binary64.exponentBits ≤ (e + 1075).toNat + 1 ↔ 971 < e := by
    show 2048 ≤ _ ↔ _
    omega
  simp only [UnpackedFloat.pack, biased, full, large]
  split
  · rfl
  · split <;> rfl

end Packing

/-! ## Zero -/

/-- Whether a pattern has no bits but the sign. -/
def Blank (b : BitVec Format.binary64.numBits) : Prop := unpackExponent b = 0#11 ∧ unpackMantissa b = 0#52

theorem blank_iff {b : BitVec Format.binary64.numBits} : Blank b ↔ b.toNat % 2 ^ 63 = 0 := by
  rw [Blank, ← BitVec.toNat_inj, ← BitVec.toNat_inj, toNat_unpackExponent, toNat_unpackMantissa]
  show b.toNat / 2 ^ 52 % 2 ^ 11 = 0 ∧ b.toNat % 2 ^ 52 = 0 ↔ _
  omega

theorem Double.magnitude_eq_zero_iff (x : Double) : x.magnitude = 0 ↔ Blank x.bits.toBitVec := by
  rw [blank_iff, ← UInt64.toNat_inj]
  show x.bits.toNat &&& (2 ^ 63 - 1) = 0 ↔ x.bits.toNat % 2 ^ 63 = 0
  rw [Nat.and_two_pow_sub_one_eq_mod]

/-- A number other than zero is packed with some bits. -/
theorem not_blank_finite (s : Sign) {m : Nat} {e : Int} (positive : 0 < m) (few : m < 2 ^ 53)
    (low : -1074 ≤ e) : ¬ Blank (UnpackedFloat.pack Format.binary64 (.finite s m e positive)) := by
  rintro ⟨exponent, mantissa⟩
  rw [pack_finite s positive few] at exponent mantissa
  split at exponent
  · rw [packedInfinity, unpackExponent_packComponents] at exponent
    cases exponent
  · next small =>
    rw [if_neg small, unpackMantissa_packComponents] at mantissa
    rw [unpackExponent_packComponents] at exponent
    split at exponent
    · have field := congrArg BitVec.toNat exponent
      rw [BitVec.toNat_ofNat, BitVec.toNat_ofNat] at field
      omega
    · have fraction := congrArg BitVec.toNat mantissa
      rw [BitVec.toNat_ofNat, BitVec.toNat_ofNat] at fraction
      omega

/-- A number has one mantissa and one exponent. -/
theorem exponent_le_of_same_value {m m' : Nat} {e e' : Int} (canonical : CanonicalDouble m e)
    (canonical' : CanonicalDouble m' e')
    (same : m * 2 ^ (e - min e e').toNat = m' * 2 ^ (e' - min e e').toNat) : e' ≤ e := by
  obtain ⟨few, low, -⟩ := canonical
  obtain ⟨-, -, full⟩ := canonical'
  refine Int.not_lt.1 fun below => ?_
  have left : (e - min e e').toNat = 0 := by omega
  have right : 1 ≤ (e' - min e e').toNat := by omega
  have large : m' * 2 ≤ m' * 2 ^ (e' - min e e').toNat :=
    Nat.mul_le_mul_left m' (Nat.pow_le_pow_right Nat.two_pos right)
  rw [left] at same
  omega

theorem eq_of_same_value {m m' : Nat} {e e' : Int} (canonical : CanonicalDouble m e)
    (canonical' : CanonicalDouble m' e')
    (same : m * 2 ^ (e - min e e').toNat = m' * 2 ^ (e' - min e e').toNat) : m = m' ∧ e = e' := by
  have le := exponent_le_of_same_value canonical canonical' same
  have ge := exponent_le_of_same_value canonical' canonical (by rw [Int.min_comm]; exact same.symm)
  obtain rfl : e = e' := Int.le_antisymm ge le
  simpa using same

/-- A rounded number is blank only if it was zero. -/
theorem blank_normalize {n : Int} {e : Int} {s : Sign} (low : -1074 ≤ e)
    (blank : Blank (UnpackedFloat.pack Format.binary64
      (UnpackedFloat.normalize Format.binary64 n e s))) : n = 0 := by
  unfold UnpackedFloat.normalize at blank
  split at blank
  · next negative =>
    have below := Int.compare_eq_lt.1 negative
    obtain ⟨m, e', positive, rounded, few, low'⟩ :=
      exists_round .negative (m := (-n).toNat) (by omega) low
    rw [rounded] at blank
    exact (not_blank_finite _ positive few low' blank).elim
  · next zero => exact Int.compare_eq_eq.1 zero
  · next positive =>
    have above := Int.compare_eq_gt.1 positive
    obtain ⟨m, e', positive, rounded, few, low'⟩ :=
      exists_round .positive (m := n.toNat) (by omega) low
    rw [rounded] at blank
    exact (not_blank_finite _ positive few low' blank).elim

theorem not_blank_infinity (s : Sign) :
    ¬ Blank (UnpackedFloat.pack Format.binary64 (.infinity s)) := by
  rintro ⟨exponent, -⟩
  cases s <;> exact absurd exponent (by decide)

theorem not_blank_notANumber : ¬ Blank (UnpackedFloat.pack Format.binary64 .notANumber) := by
  rintro ⟨exponent, -⟩
  exact absurd exponent (by decide)

/-- Only equal numbers have the difference zero. -/
theorem eq_of_blank_sub {b b' : BitVec Format.binary64.numBits}
    (blank : Blank (UnpackedFloat.pack Format.binary64 (sub Format.binary64
      (UnpackedFloat.unpack Format.binary64 b) (UnpackedFloat.unpack Format.binary64 b')))) :
    (∃ s s', UnpackedFloat.unpack Format.binary64 b = .zero s ∧
      UnpackedFloat.unpack Format.binary64 b' = .zero s') ∨
    ∃ s m e positive, UnpackedFloat.unpack Format.binary64 b = .finite s m e positive ∧
      UnpackedFloat.unpack Format.binary64 b' = .finite s m e positive := by
  have canonical {s m e positive} := @canonical_unpack b s m e positive
  have canonical' {s m e positive} := @canonical_unpack b' s m e positive
  generalize UnpackedFloat.unpack Format.binary64 b = u at blank canonical ⊢
  generalize UnpackedFloat.unpack Format.binary64 b' = u' at blank canonical' ⊢
  cases u with
  | notANumber => exact (not_blank_notANumber blank).elim
  | infinity s =>
    cases u' with
    | notANumber => exact (not_blank_notANumber blank).elim
    | infinity s' =>
      simp only [sub] at blank
      split at blank
      · exact (not_blank_infinity s blank).elim
      · exact (not_blank_notANumber blank).elim
    | zero | finite => exact (not_blank_infinity s blank).elim
  | zero s =>
    cases u' with
    | notANumber => exact (not_blank_notANumber blank).elim
    | infinity s' => exact (not_blank_infinity _ blank).elim
    | zero s' => exact .inl ⟨s, s', rfl, rfl⟩
    | finite s' m e positive =>
      obtain ⟨few, low, -⟩ := canonical' rfl
      exact (not_blank_finite _ positive few low blank).elim
  | finite s m e positive =>
    obtain ⟨few, low, -⟩ := canonical rfl
    cases u' with
    | notANumber => exact (not_blank_notANumber blank).elim
    | infinity s' => exact (not_blank_infinity _ blank).elim
    | zero s' => exact (not_blank_finite _ positive few low blank).elim
    | finite s' m' e' positive' =>
      obtain ⟨-, low', -⟩ := canonical' rfl
      have difference := blank_normalize (by omega) blank
      simp only [Nat.shiftLeft_eq] at difference
      have some : 0 < m * 2 ^ (e - min e e').toNat := Nat.mul_pos positive (Nat.two_pow_pos _)
      have some' : 0 < m' * 2 ^ (e' - min e e').toNat := Nat.mul_pos positive' (Nat.two_pow_pos _)
      obtain ⟨rfl, same⟩ : s = s' ∧
          m * 2 ^ (e - min e e').toNat = m' * 2 ^ (e' - min e e').toNat := by
        generalize m * 2 ^ (e - min e e').toNat = n at some difference ⊢
        generalize m' * 2 ^ (e' - min e e').toNat = n' at some' difference ⊢
        cases s <;> cases s' <;> simp only [Sign.apply] at difference <;>
          first | exact ⟨rfl, by omega⟩ | omega
      obtain ⟨rfl, rfl⟩ := eq_of_same_value (canonical rfl) (canonical' rfl) same
      exact .inr ⟨s, m, e, positive, rfl, rfl⟩

namespace Double

/-- The unpacked float of a double. -/
def unpacked (x : Double) : UnpackedFloat := UnpackedFloat.unpack Format.binary64 x.bits.toBitVec

theorem unpack_ofBits (w : UInt64) : (Float.ofBits w).toModel.unpack =
    UnpackedFloat.unpack Format.binary64 w.toBitVec :=
  @unpack_pack_unpack Format.binary64 (by decide) w.toBitVec

theorem toBitVec_sub (x y : Double) : (x.sub y).bits.toBitVec =
    UnpackedFloat.pack Format.binary64 (UnpackedFloat.sub Format.binary64 x.unpacked y.unpacked) := by
  rw [unpacked, unpacked, ← unpack_ofBits, ← unpack_ofBits]
  rfl

/-- Only equal numbers have the difference zero. -/
theorem eq_of_magnitude_sub {x y : Double} (zero : (x.sub y).magnitude = 0) :
    (x.magnitude = 0 ∧ y.magnitude = 0) ∨
      (x = y ∧ ∃ s m e positive, x.unpacked = .finite s m e positive) := by
  rw [magnitude_eq_zero_iff, toBitVec_sub] at zero
  have packed {z : Double} {u : UnpackedFloat} (same : z.unpacked = u) (number : u ≠ .notANumber) :
      z.bits.toBitVec = UnpackedFloat.pack Format.binary64 u := by
    subst same
    exact (pack_unpack_of_number (by decide) number).symm
  rcases eq_of_blank_sub zero with ⟨s, s', left, right⟩ | ⟨s, m, e, positive, left, right⟩
  · have blank (s : Sign) : Blank (UnpackedFloat.pack Format.binary64 (.zero s)) := by
      cases s <;> exact ⟨by decide, by decide⟩
    rw [magnitude_eq_zero_iff, magnitude_eq_zero_iff, packed left nofun, packed right nofun]
    exact .inl ⟨blank s, blank s'⟩
  · have same : x.bits = y.bits :=
      UInt64.toBitVec_inj.1 ((packed left nofun).trans (packed right nofun).symm)
    refine .inr ⟨?_, s, m, e, positive, left⟩
    cases x
    cases y
    exact congrArg Double.mk same

end Double

end ComputeShader
