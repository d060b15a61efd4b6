import Mathlib

/-!
Contract: rounding to binary64 numbers.

A mantissa with a round bit and a sticky bit behind it locates a value exactly enough to round
it to nearest, ties to even. Shifts to the right keep what is located.

Owns: the meaning of the two bits, rounding to nearest, the exponent that is chosen for a
value, and the number that a value is rounded to.
-/

set_option autoImplicit false

namespace FormLang.Numeric

open Float.Model (Format UnpackedFloat totalExponent)
open Float.Model.UnpackedFloat

/-! ## Powers of two -/

theorem lt_of_two_zpow_lt {low high : Int} (less : (2 : ℚ) ^ low < 2 ^ high) : low < high :=
  (zpow_lt_zpow_iff_right₀ (by norm_num)).mp less

/-- The binary logarithm of a number, rounded down, is the exponent of the power below it. -/
theorem two_zpow_log2_le {number : Nat} (positive : 0 < number) :
    (2 : ℚ) ^ (number.log2 : Int) ≤ number := by
  rw [zpow_natCast]
  exact_mod_cast Nat.log2_self_le positive.ne'

theorem add_one_le_two_zpow_log2 (number : Nat) :
    (number + 1 : ℚ) ≤ 2 ^ ((number.log2 : Int) + 1) := by
  have above : number + 1 ≤ 2 ^ (number.log2 + 1) := Nat.lt_log2_self
  exact_mod_cast above

/-- A value in places that are smaller by some powers of two. -/
theorem div_two_zpow (value : ℚ) (exponent : Int) (places : Nat) :
    value / 2 ^ exponent = value / 2 ^ (exponent - places) / 2 ^ places := by
  rw [div_div, ← zpow_natCast, ← zpow_add₀ (by norm_num), sub_add_cancel]

theorem le_div_two_zpow {value : ℚ} {exponent : Int} (places : Nat) :
    (2 : ℚ) ^ places ≤ value / 2 ^ exponent ↔ (2 : ℚ) ^ (places + exponent) ≤ value := by
  rw [le_div_iff₀ (by positivity), zpow_add₀ (by norm_num), zpow_natCast]

theorem div_two_zpow_lt {value : ℚ} {exponent : Int} (places : Nat) :
    value / 2 ^ exponent < (2 : ℚ) ^ places ↔ value < (2 : ℚ) ^ (places + exponent) := by
  rw [div_lt_iff₀ (by positivity), zpow_add₀ (by norm_num), zpow_natCast]

/-! ## Mantissas with the bits behind them -/

/-- The bits behind the mantissa tell where the value lies in the unit above it. -/
def Locates (extended : ExtendedMantissa) (value : ℚ) : Prop :=
  match extended.roundBit, extended.stickyBit with
  | false, false => value = extended.mantissa
  | false, true => extended.mantissa < value ∧ value < extended.mantissa + 1 / 2
  | true, false => value = extended.mantissa + 1 / 2
  | true, true => extended.mantissa + 1 / 2 < value ∧ value < extended.mantissa + 1

/-- The value is nearest to the number, or in the middle between it and another one and the
number is even. -/
def RoundsTo (value : ℚ) (number : Nat) : Prop :=
  (number - 1 / 2 < value ∧ value < number + 1 / 2) ∨
    (number % 2 = 0 ∧ (value = number - 1 / 2 ∨ value = number + 1 / 2))

variable {extended : ExtendedMantissa} {value : ℚ} {number : Nat}

theorem Locates.bounds (locates : Locates extended value) :
    extended.mantissa ≤ value ∧ value < extended.mantissa + 1 := by
  obtain ⟨mantissa, roundBit, stickyBit⟩ := extended
  cases roundBit <;> cases stickyBit <;> simp only [Locates] at locates ⊢ <;>
    constructor <;> linarith

/-- The rounded mantissa is what the value rounds to. -/
theorem Locates.roundsTo (locates : Locates extended value) :
    RoundsTo value extended.roundedMantissa := by
  obtain ⟨mantissa, roundBit, stickyBit⟩ := extended
  cases roundBit with
  | false =>
      have same : (ExtendedMantissa.mk mantissa false stickyBit).roundedMantissa = mantissa := by
        cases stickyBit <;> rfl
      rw [same]
      cases stickyBit <;> simp only [Locates] at locates <;>
        exact .inl ⟨by linarith, by linarith⟩
  | true =>
      cases stickyBit with
      | false =>
          -- A tie goes to the even one of the two neighbours.
          have half : value = mantissa + 1 / 2 := locates
          have same : (ExtendedMantissa.mk mantissa true false).roundedMantissa =
            mantissa + mantissa % 2 := rfl
          rw [same]
          rcases Nat.mod_two_eq_zero_or_one mantissa with even | odd
          · rw [even, Nat.add_zero]
            exact .inr ⟨even, .inr half⟩
          · rw [odd]
            refine .inr ⟨by omega, .inl ?_⟩
            rw [half]
            push_cast
            ring
      | true =>
          obtain ⟨above, below⟩ : (mantissa : ℚ) + 1 / 2 < value ∧ value < mantissa + 1 := locates
          have same : (ExtendedMantissa.mk mantissa true true).roundedMantissa = mantissa + 1 := rfl
          rw [same]
          refine .inl ⟨?_, ?_⟩ <;> push_cast <;> linarith

/-- A value rounds to one number only. -/
theorem RoundsTo.unique {other : Nat} (rounds : RoundsTo value number)
    (rounds' : RoundsTo value other) : number = other := by
  have near : ∀ left right : Nat, (left : ℚ) < right + 1 → (right : ℚ) < left + 1 →
      left = right := by
    intro left right below above
    have below : left < right + 1 := by exact_mod_cast below
    have above : right < left + 1 := by exact_mod_cast above
    omega
  have ties : ∀ left right : Nat, left % 2 = 0 → right % 2 = 0 → (left : ℚ) ≤ right + 1 →
      (right : ℚ) ≤ left + 1 → left = right := by
    intro left right even even' below above
    have below : left ≤ right + 1 := by exact_mod_cast below
    have above : right ≤ left + 1 := by exact_mod_cast above
    omega
  rcases rounds with ⟨above, below⟩ | ⟨even, tie⟩
  · rcases rounds' with ⟨above', below'⟩ | ⟨-, tie'⟩
    · exact near _ _ (by linarith) (by linarith)
    · rcases tie' with tie' | tie' <;> exact near _ _ (by linarith) (by linarith)
  · rcases rounds' with ⟨above', below'⟩ | ⟨even', tie'⟩
    · rcases tie with tie | tie <;> exact near _ _ (by linarith) (by linarith)
    · rcases tie with tie | tie <;> rcases tie' with tie' | tie' <;>
        exact ties _ _ even even' (by linarith) (by linarith)

/-- Halving the value moves its last bit behind the mantissa. -/
theorem Locates.shiftRightOne (locates : Locates extended value) :
    Locates extended.shiftRightOne (value / 2) := by
  obtain ⟨mantissa, roundBit, stickyBit⟩ := extended
  have halves : (mantissa : ℚ) = 2 * (mantissa / 2 : Nat) + (mantissa % 2 : Nat) := by
    exact_mod_cast (Nat.div_add_mod mantissa 2).symm
  rcases Nat.mod_two_eq_zero_or_one mantissa with even | odd
  · rw [even] at halves
    cases roundBit <;> cases stickyBit <;>
      simp [Locates, ExtendedMantissa.shiftRightOne, even] at locates halves ⊢ <;>
      (try constructor) <;> linarith
  · rw [odd] at halves
    cases roundBit <;> cases stickyBit <;>
      simp [Locates, ExtendedMantissa.shiftRightOne, odd] at locates halves ⊢ <;>
      (try constructor) <;> linarith

theorem Locates.shiftRight (locates : Locates extended value) (places : Nat) :
    Locates (extended >>> places) (value / 2 ^ places) := by
  change Locates (places.repeat ExtendedMantissa.shiftRightOne extended) _
  induction places with
  | zero => simpa [Nat.repeat] using locates
  | succ places inductionHypothesis =>
      rw [Nat.repeat, pow_succ, ← div_div]
      exact inductionHypothesis.shiftRightOne

theorem locates_exact (mantissa : Nat) :
    Locates (ExtendedMantissa.ofMantissaAndAccuracy mantissa .exact) mantissa := rfl

theorem locates_fraction (numerator : Nat) {denominator : Nat} (positive : 0 < denominator) :
    Locates
      (ExtendedMantissa.ofMantissaAndAccuracy (numerator / denominator)
        (accuracyOfFraction (numerator % denominator) denominator))
      (numerator / denominator) := by
  have split : (numerator : ℚ) =
      denominator * (numerator / denominator : Nat) + (numerator % denominator : Nat) := by
    exact_mod_cast (Nat.div_add_mod numerator denominator).symm
  have below : numerator % denominator < denominator := Nat.mod_lt _ positive
  generalize numerator / denominator = quotient at *
  generalize numerator % denominator = remainder at *
  have positive : (0 : ℚ) < denominator := by exact_mod_cast positive
  have value : (numerator : ℚ) / denominator = quotient + remainder / denominator := by
    rw [split]
    field_simp
  rw [accuracyOfFraction, value]
  split_ifs with zero
  · rw [zero]
    simp [Locates, ExtendedMantissa.ofMantissaAndAccuracy]
  · have some : (0 : ℚ) < remainder / denominator := by
      have : 0 < remainder := Nat.pos_of_ne_zero zero
      positivity
    have most : (remainder / denominator : ℚ) < 1 := by
      rw [div_lt_one positive]
      exact_mod_cast below
    rcases lt_trichotomy (2 * remainder) denominator with less | equal | more
    · have small : (remainder / denominator : ℚ) < 1 / 2 := by
        rw [div_lt_div_iff₀ positive (by norm_num)]
        have : (2 * remainder : ℚ) < denominator := by exact_mod_cast less
        linarith
      rw [Nat.compare_eq_lt.mpr less]
      change (quotient : ℚ) < _ ∧ _ < (quotient : ℚ) + 1 / 2
      exact ⟨by linarith, by linarith⟩
    · have half : (remainder / denominator : ℚ) = 1 / 2 := by
        rw [div_eq_div_iff positive.ne' (by norm_num)]
        have : (2 * remainder : ℚ) = denominator := by exact_mod_cast equal
        linarith
      rw [Nat.compare_eq_eq.mpr equal, half]
      rfl
    · have large : 1 / 2 < (remainder / denominator : ℚ) := by
        rw [div_lt_div_iff₀ (by norm_num) positive]
        have : (denominator : ℚ) < 2 * remainder := by exact_mod_cast more
        linarith
      rw [Nat.compare_eq_gt.mpr more]
      change (quotient : ℚ) + 1 / 2 < _ ∧ _ < (quotient : ℚ) + 1
      exact ⟨by linarith, by linarith⟩

/-! ## Rounding to a number of 53 bits -/

theorem targetExponent_eq (mantissa : Nat) (exponent : Int) :
    Format.binary64.targetExponent (totalExponent mantissa exponent) =
      max (mantissa.log2 + exponent - 52) (-1074) := by
  change max ((mantissa.log2 : Int) + 1 + exponent - 53) (-1074) = _
  omega

section Round

variable {mantissa : Nat} {exponent target : Int} {accuracy : Accuracy}

/-- The exponent that is chosen for a value between two powers of two. -/
theorem targetExponent_of_bounds
    (locates : Locates (ExtendedMantissa.ofMantissaAndAccuracy mantissa accuracy)
      (value / 2 ^ exponent))
    (least : -1074 ≤ target) (lower : target = -1074 ∨ (2 : ℚ) ^ (52 + target) ≤ value)
    (upper : value < (2 : ℚ) ^ (53 + target)) (fine : exponent ≤ target) :
    Format.binary64.targetExponent (totalExponent mantissa exponent) = target := by
  have kept : (ExtendedMantissa.ofMantissaAndAccuracy mantissa accuracy).mantissa = mantissa := by
    cases accuracy with
    | exact => rfl
    | inexact order => cases order <;> rfl
  obtain ⟨floor, ceiling⟩ := locates.bounds
  rw [kept] at floor ceiling
  have unit : (0 : ℚ) < 2 ^ exponent := by positivity
  rw [le_div_iff₀ unit] at floor
  rw [div_lt_iff₀ unit] at ceiling
  rw [targetExponent_eq]
  -- Zero has the same logarithm as one, but is below all powers of two.
  by_cases zero : mantissa = 0
  · subst zero
    rcases lower with rfl | lower
    · change max ((0 : Int) + exponent - 52) (-1074) = -1074
      omega
    · rw [Nat.cast_zero, zero_add, one_mul] at ceiling
      have bounded := lt_of_two_zpow_lt (lower.trans_lt ceiling)
      omega
  · have low := mul_le_mul_of_nonneg_right (two_zpow_log2_le (Nat.pos_of_ne_zero zero)) unit.le
    have high := mul_le_mul_of_nonneg_right (add_one_le_two_zpow_log2 mantissa) unit.le
    rw [← zpow_add₀ (by norm_num)] at low high
    have below := lt_of_two_zpow_lt ((low.trans floor).trans_lt upper)
    rcases lower with rfl | lower
    · omega
    · have above := lt_of_two_zpow_lt (lower.trans_lt (ceiling.trans_le high))
      omega

/-- The first shift leaves what locates the value at the chosen exponent. -/
theorem shiftToTargetExponent_locates
    (locates : Locates (ExtendedMantissa.ofMantissaAndAccuracy mantissa accuracy)
      (value / 2 ^ exponent))
    (chosen : Format.binary64.targetExponent (totalExponent mantissa exponent) = target)
    (fine : exponent ≤ target) :
    Locates (shiftToTargetExponent Format.binary64 mantissa exponent accuracy).1
        (value / 2 ^ target) ∧
      (shiftToTargetExponent Format.binary64 mantissa exponent accuracy).2 = target := by
  have places : exponent + ((target - exponent).toNat : Int) = target := by omega
  have scale : value / 2 ^ target = value / 2 ^ exponent / 2 ^ (target - exponent).toNat := by
    rw [div_div, ← zpow_natCast, ← zpow_add₀ (by norm_num), places]
  rw [shiftToTargetExponent, chosen, scale]
  exact ⟨locates.shiftRight _, places⟩

/-- A mantissa that fits stays as it is. -/
theorem shiftToTargetExponent_fitting (fits : mantissa < 2 ^ 53) (least : -1074 ≤ exponent) :
    shiftToTargetExponent Format.binary64 mantissa exponent .exact =
      (⟨mantissa, false, false⟩, exponent) := by
  have short : mantissa.log2 < 53 := by
    by_cases zero : mantissa = 0
    · subst zero
      decide
    · exact (Nat.log2_lt zero).mpr fits
  have places : (Format.binary64.targetExponent (totalExponent mantissa exponent) -
      exponent).toNat = 0 := by
    rw [targetExponent_eq]
    omega
  rw [shiftToTargetExponent, shiftToExponent, places]
  simp [HShiftRight.hShiftRight, Nat.repeat, ExtendedMantissa.ofMantissaAndAccuracy]

/-- A mantissa with one bit too many is halved. -/
theorem shiftToTargetExponent_carry (least : -1074 ≤ exponent) :
    shiftToTargetExponent Format.binary64 (2 ^ 53) exponent .exact =
      (⟨2 ^ 52, false, false⟩, exponent + 1) := by
  have places : (Format.binary64.targetExponent (totalExponent (2 ^ 53) exponent) -
      exponent).toNat = 1 := by
    rw [targetExponent_eq, Nat.log2_two_pow]
    omega
  rw [shiftToTargetExponent, shiftToExponent, places]
  rfl

/-- A value is rounded to the number nearest to it, in the places that it has at its size. -/
theorem roundWithAccuracy_eq (sign : Sign)
    (locates : Locates (ExtendedMantissa.ofMantissaAndAccuracy mantissa accuracy)
      (value / 2 ^ exponent))
    (least : -1074 ≤ target) (lower : target = -1074 ∨ (2 : ℚ) ^ (52 + target) ≤ value)
    (upper : value < (2 : ℚ) ^ (53 + target)) (fine : exponent ≤ target)
    (rounds : RoundsTo (value / 2 ^ target) number) (positive : 0 < number) :
    (number < 2 ^ 53 → roundWithAccuracy Format.binary64 sign mantissa exponent accuracy =
        .finite sign number target positive) ∧
      (number = 2 ^ 53 → roundWithAccuracy Format.binary64 sign mantissa exponent accuracy =
        .finite sign (2 ^ 52) (target + 1) (by decide)) := by
  have chosen := targetExponent_of_bounds locates least lower upper fine
  obtain ⟨shifted, exponents⟩ := shiftToTargetExponent_locates locates chosen fine
  have rounded := shifted.roundsTo.unique rounds
  rw [roundWithAccuracy]
  simp only [rounded, exponents]
  constructor
  · intro fits
    simp only [shiftToTargetExponent_fitting fits least]
    rw [dif_neg (Nat.ne_of_gt positive)]
  · intro carry
    subst carry
    simp only [shiftToTargetExponent_carry least]
    rfl

end Round

/-- What is rounded is some number. -/
theorem isNaN_roundWithAccuracy (sign : Sign) (mantissa : Nat) (exponent : Int)
    (accuracy : Accuracy) :
    (roundWithAccuracy Format.binary64 sign mantissa exponent accuracy).isNaN = false := by
  rw [roundWithAccuracy]
  simp only
  split <;> rfl

end FormLang.Numeric
