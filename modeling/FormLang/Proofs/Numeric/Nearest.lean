import FormLang.Numeric.PlainText
import FormLang.Proofs.Numeric.Packing
import FormLang.Proofs.Numeric.Rounding

/-!
Contract: the reals that round to a binary64 number.

They lie around the number, up to half of its last place away. Just above a power of two the
places are wider than just below it, so below the power itself they lie only a quarter of its
last place away. The two ends belong to them where the mantissa is even.

Owns: these reals, that the test on a grid of decimals tells whether a decimal is one of them,
and that rounding any of them gives the number.
-/

set_option autoImplicit false

namespace FormLang.Numeric

open Float.Model (Format)
open Float.Model.UnpackedFloat

/-- The value of a positive number, with the gap below it. -/
def binaryValue (mantissa : Nat) (exponent : Int) : BinaryValue :=
  ⟨mantissa, exponent, mantissa == leastNormalMantissa && leastExponent < exponent⟩

/-- The real rounds to the value: in quarters of the last place it lies between the two ends,
or is one of them and the mantissa is even. -/
def BinaryValue.Reaches (value : BinaryValue) (real : ℚ) : Prop :=
  let quarters := real / 2 ^ (value.exponent - 2)
  (value.lowerQuarters < quarters ∧ quarters < value.upperQuarters) ∨
    (value.mantissa % 2 = 0 ∧
      (value.lowerQuarters = quarters ∨ quarters = value.upperQuarters))

theorem BinaryValue.quarter_pos (value : BinaryValue) (power : Int) :
    0 < (value.grid power).quarter := by
  simp only [BinaryValue.grid, Nat.pow_eq]
  positivity

/-- A step of the grid is as many units as a quarter of the last place is quarters. -/
theorem BinaryValue.grid_scale (value : BinaryValue) (power : Int) :
    ((value.grid power).quarter : ℚ) * 10 ^ power =
      (value.grid power).unit * 2 ^ (value.exponent - 2) := by
  have split : ∀ (base : ℚ) (whole : Int), base ≠ 0 →
      base ^ whole.toNat = base ^ whole * base ^ (-whole).toNat := by
    intro base whole nonzero
    rw [← zpow_natCast, ← zpow_natCast, ← zpow_add₀ nonzero]
    congr 1
    omega
  have twos := split 2 (value.exponent - 2) (by norm_num)
  have tens := split 10 power (by norm_num)
  rw [neg_sub] at twos
  simp only [BinaryValue.grid, Nat.pow_eq]
  push_cast
  rw [twos, tens]
  ring

/-- The test on a grid tells whether a decimal rounds to the value. -/
theorem BinaryValue.holds_iff (value : BinaryValue) (power : Int) (digits : Nat) :
    value.Holds power digits ↔ value.Reaches (digits * 10 ^ power) := by
  have quarter : (0 : ℚ) < (value.grid power).quarter := by
    exact_mod_cast value.quarter_pos power
  have place : (0 : ℚ) < 2 ^ (value.exponent - 2) := by positivity
  have point : (digits * 10 ^ power : ℚ) / 2 ^ (value.exponent - 2) =
      (digits * (value.grid power).unit : Nat) / (value.grid power).quarter := by
    rw [div_eq_div_iff place.ne' quarter.ne', mul_assoc, mul_comm (10 ^ power),
      value.grid_scale power]
    push_cast
    ring
  simp only [BinaryValue.Holds, BinaryValue.Reaches, point, lt_div_iff₀ quarter,
    div_lt_iff₀ quarter, eq_div_iff quarter.ne', div_eq_iff quarter.ne']
  norm_cast

/-! ## Rounding what rounds to a value -/

section Round

variable {sign : Sign} {mantissa approximation : Nat} {exponent scale : Int} {accuracy : Accuracy}
  {real : ℚ}

/-- A quarter of a last place below a power of two is as much as half of one of the smaller
places there, and it is not that far anywhere else. -/
theorem lowerQuarters_eq (exponent : Int) (positive : 0 < mantissa) :
    ((binaryValue mantissa exponent).lowerQuarters : ℚ) =
      if mantissa = 2 ^ 52 ∧ -1074 < exponent then 4 * (mantissa : ℚ) - 1
      else 4 * (mantissa : ℚ) - 2 := by
  have narrow : (binaryValue mantissa exponent).narrowBelow = true ↔
      mantissa = 2 ^ 52 ∧ -1074 < exponent := by
    simp only [binaryValue, Bool.and_eq_true, beq_iff_eq, decide_eq_true_eq]
    rfl
  simp only [BinaryValue.lowerQuarters, narrow]
  split
  · rw [Nat.cast_sub (by change 1 ≤ 4 * mantissa; omega)]
    push_cast
    rfl
  · rw [Nat.cast_sub (by change 2 ≤ 4 * mantissa; omega)]
    push_cast
    rfl

/-- In the last place of the number, the real rounds to its mantissa. -/
theorem BinaryValue.Reaches.roundsTo (positive : 0 < mantissa)
    (reaches : (binaryValue mantissa exponent).Reaches real) :
    RoundsTo (real / 2 ^ exponent) mantissa := by
  have whole : real / 2 ^ exponent = real / 2 ^ (exponent - 2) / 4 := by
    rw [div_two_zpow real exponent 2]
    norm_num
  have lower := lowerQuarters_eq exponent positive
  have upper : ((binaryValue mantissa exponent).upperQuarters : ℚ) = 4 * (mantissa : ℚ) + 2 := by
    simp [BinaryValue.upperQuarters, binaryValue]
  have even : (binaryValue mantissa exponent).mantissa = mantissa := rfl
  have place : (binaryValue mantissa exponent).exponent = exponent := rfl
  simp only [BinaryValue.Reaches, upper, lower, even, place] at reaches
  rw [whole]
  generalize real / 2 ^ (exponent - 2) = quarters at *
  split_ifs at reaches with narrow
  · rcases reaches with ⟨above, below⟩ | ⟨even, low | high⟩
    · exact .inl ⟨by linarith, by linarith⟩
    · exact .inl ⟨by linarith, by linarith⟩
    · exact .inr ⟨even, .inr (by linarith)⟩
  · rcases reaches with ⟨above, below⟩ | ⟨even, low | high⟩
    · exact .inl ⟨by linarith, by linarith⟩
    · exact .inr ⟨even, .inl (by linarith)⟩
    · exact .inr ⟨even, .inr (by linarith)⟩

theorem RoundsTo.bounds {value : ℚ} {number : Nat} (rounds : RoundsTo value number) :
    (number : ℚ) - 1 / 2 ≤ value ∧ value ≤ number + 1 / 2 := by
  rcases rounds with ⟨above, below⟩ | ⟨-, low | high⟩
  · exact ⟨above.le, below.le⟩
  · exact ⟨low.ge, by linarith⟩
  · exact ⟨by linarith, high.le⟩

theorem BinaryValue.Reaches.lower_le {value : BinaryValue} (reaches : value.Reaches real) :
    (value.lowerQuarters : ℚ) ≤ real / 2 ^ (value.exponent - 2) := by
  have ends : (value.lowerQuarters : ℚ) ≤ value.upperQuarters := by
    have ends : value.lowerQuarters ≤ value.upperQuarters := by
      unfold BinaryValue.lowerQuarters BinaryValue.upperQuarters
      split <;> omega
    exact_mod_cast ends
  rcases reaches with ⟨above, -⟩ | ⟨-, low | high⟩
  · exact above.le
  · exact low.le
  · exact ends.trans high.ge

/-- Just below a power of two, the real rounds to that power in the smaller places there. -/
theorem BinaryValue.Reaches.roundsTo_below
    (reaches : (binaryValue (2 ^ 52) exponent).Reaches real) (narrow : -1074 < exponent)
    (below : real < 2 ^ (52 + exponent)) :
    RoundsTo (real / 2 ^ (exponent - 1)) (2 ^ 53) ∧
      (2 : ℚ) ^ (52 + (exponent - 1)) ≤ real := by
  have half : real / 2 ^ (exponent - 1) = real / 2 ^ (exponent - 2) / 2 := by
    rw [div_two_zpow real (exponent - 1) 1]
    norm_num [sub_sub]
  have lower := lowerQuarters_eq exponent (Nat.two_pow_pos 52)
  rw [if_pos ⟨rfl, narrow⟩] at lower
  have low : (4 * 2 ^ 52 - 1 : ℚ) ≤ real / 2 ^ (exponent - 2) := by
    have low := reaches.lower_le
    rw [lower] at low
    exact_mod_cast low
  have high : real / 2 ^ (exponent - 1) < 2 ^ 53 := by
    refine (div_two_zpow_lt 53).mpr ?_
    rwa [show ((53 : Nat) : Int) + (exponent - 1) = 52 + exponent by push_cast; ring]
  refine ⟨?_, (le_div_two_zpow 52).mp ?_⟩
  · rcases lt_or_eq_of_le low with strict | tie
    · exact .inl ⟨by push_cast; linarith, by push_cast; linarith⟩
    · exact .inr ⟨by decide, .inl (by push_cast; linarith)⟩
  · rw [half]
    linarith

/-- A number is among the reals that round to it. -/
theorem reaches_self (exponent : Int) (positive : 0 < mantissa) :
    (binaryValue mantissa exponent).Reaches (mantissa * 2 ^ exponent) := by
  have quarters : (mantissa * 2 ^ exponent : ℚ) / 2 ^ (exponent - 2) = 4 * mantissa := by
    rw [mul_div_assoc, ← zpow_sub₀ (by norm_num), sub_sub_cancel]
    norm_num
    ring
  have some : (1 : ℚ) ≤ mantissa := by exact_mod_cast positive
  refine .inl ?_
  change _ < (mantissa * 2 ^ exponent : ℚ) / 2 ^ (exponent - 2) ∧
    (mantissa * 2 ^ exponent : ℚ) / 2 ^ (exponent - 2) < ((4 * mantissa + 2 : Nat) : ℚ)
  rw [quarters, lowerQuarters_eq exponent positive]
  refine ⟨?_, by push_cast; linarith⟩
  split <;> linarith

/-- What rounds to a positive number is positive. -/
theorem BinaryValue.Reaches.pos (positive : 0 < mantissa)
    (reaches : (binaryValue mantissa exponent).Reaches real) : 0 < real := by
  have some : (1 : ℚ) ≤ mantissa := by exact_mod_cast positive
  have above := (reaches.roundsTo positive).bounds.1
  have quotient : 0 < real / 2 ^ exponent := by linarith
  exact (div_pos_iff_of_pos_right (by positivity)).mp quotient

/-- What rounds to a finite number is neither nearer to zero than to the least number nor
above all numbers. -/
theorem BinaryValue.Reaches.range (reaches : (binaryValue mantissa exponent).Reaches real)
    (canonical : Canonical mantissa exponent) :
    (2 : ℚ) ^ (-1075 : Int) ≤ real ∧ real < (2 : ℚ) ^ (1024 : Int) := by
  obtain ⟨positive, fits, least, most, leading⟩ := canonical
  obtain ⟨atLeast, atMost⟩ := (reaches.roundsTo positive).bounds
  constructor
  · have some : (1 : ℚ) ≤ mantissa := by exact_mod_cast positive
    have half : (1 / 2 : ℚ) ≤ real / 2 ^ exponent := by linarith
    rw [le_div_iff₀ (by positivity)] at half
    have smallest : (2 : ℚ) ^ (-1074 : Int) ≤ 2 ^ exponent :=
      zpow_le_zpow_right₀ (by norm_num) least
    refine le_trans ?_ half
    rw [show (-1075 : Int) = -1 + -1074 by rfl, zpow_add₀ (by norm_num),
      show (2 : ℚ) ^ (-1 : Int) = 1 / 2 by norm_num]
    exact mul_le_mul_of_nonneg_left smallest (by norm_num)
  · have few : (mantissa + 1 : ℚ) ≤ 2 ^ 53 := by exact_mod_cast fits
    have below : real < 2 ^ ((53 : Nat) + exponent) := (div_two_zpow_lt 53).mp (by linarith)
    exact below.trans_le (zpow_le_zpow_right₀ (by norm_num) (by push_cast; omega))

/-- A real that rounds to a number is rounded to it, if it is known finely enough. -/
theorem roundWithAccuracy_of_reaches (canonical : Canonical mantissa exponent)
    (reaches : (binaryValue mantissa exponent).Reaches real)
    (locates : Locates (ExtendedMantissa.ofMantissaAndAccuracy approximation accuracy)
      (real / 2 ^ scale))
    (fine : ∀ target, -1074 ≤ target → real < 2 ^ (53 + target) → scale ≤ target) :
    roundWithAccuracy Format.binary64 sign approximation scale accuracy =
      .finite sign mantissa exponent canonical.positive := by
  obtain ⟨positive, fits, least, most, leading⟩ := canonical
  have rounds := reaches.roundsTo positive
  obtain ⟨atLeast, atMost⟩ := rounds.bounds
  by_cases below : mantissa = 2 ^ 52 ∧ -1074 < exponent ∧ real < 2 ^ (52 + exponent)
  · -- In the smaller places below the power of two, rounding carries over to it.
    obtain ⟨rfl, narrow, below⟩ := below
    obtain ⟨rounds, atLeast⟩ := reaches.roundsTo_below narrow below
    have upper : real < 2 ^ (53 + (exponent - 1)) := by
      rwa [show (53 : Int) + (exponent - 1) = 52 + exponent by ring]
    have least : -1074 ≤ exponent - 1 := by omega
    have carry := (roundWithAccuracy_eq sign locates least (.inr atLeast) upper
      (fine _ least upper) rounds (by decide)).2 rfl
    rw [sub_add_cancel] at carry
    exact carry
  · have upper : real < 2 ^ (53 + exponent) := by
      refine (div_two_zpow_lt 53).mp ?_
      have : (mantissa + 1 : ℚ) ≤ 2 ^ 53 := by exact_mod_cast fits
      linarith
    have lower : exponent = -1074 ∨ (2 : ℚ) ^ (52 + exponent) ≤ real := by
      rcases leading with normal | subnormal
      · rcases eq_or_lt_of_le normal with power | larger
        · rcases eq_or_lt_of_le least with subnormal | narrow
          · exact .inl subnormal.symm
          · exact .inr (not_lt.mp fun under => below ⟨power.symm, narrow, under⟩)
        · refine .inr ((le_div_two_zpow 52).mp ?_)
          have : (2 ^ 52 + 1 : ℚ) ≤ mantissa := by exact_mod_cast larger
          linarith
      · exact .inl subnormal
    have fitting := (roundWithAccuracy_eq sign locates least lower upper (fine _ least upper)
      rounds positive).1
    exact fitting fits

end Round

end FormLang.Numeric
