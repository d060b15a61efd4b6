import FormLang.Numeric.Residue
import FormLang.Proofs.Numeric.Packing

/-!
Contract: the numbers that have no residue.

Owns: how the threshold compares with the distance of a number from zero, and that clearing
residue takes nothing from exactly the numbers that it leaves.
-/

set_option autoImplicit false

namespace FormLang.Numeric

open Float.Model (Format UnpackedFloat)

/-- Clearing residue leaves the number as it is. -/
def Cleared (number : Float) : Prop :=
  clearResidue number = number

/-- The distance of a finite number from zero. -/
def distance? (number : Float) : Option ℚ :=
  match number.toModel.unpack with
  | .zero _ => some 0
  | .finite _ mantissa exponent _ => some (mantissa * 2 ^ exponent)
  | _ => none

/-! ## Comparing unpacked numbers -/

section Comparing

variable {left right : Float} {mantissa mantissa' : Nat} {exponent exponent' : Int}
variable {positive : 0 < mantissa} {positive' : 0 < mantissa'}

theorem lt_iff_unpack : left < right ↔ left.toModel.unpack.lt right.toModel.unpack = true := by
  change Float.lt left right = true ↔ _
  unfold Float.lt
  exact decide_eq_true_iff

theorem le_iff_unpack : left ≤ right ↔ left.toModel.unpack.le right.toModel.unpack = true := by
  change Float.le left right = true ↔ _
  unfold Float.le
  exact decide_eq_true_iff

theorem lt_finite_iff :
    (UnpackedFloat.finite .positive mantissa exponent positive).lt
        (.finite .positive mantissa' exponent' positive') = true ↔
      exponent < exponent' ∨ exponent = exponent' ∧ mantissa < mantissa' := by
  simp [UnpackedFloat.lt, UnpackedFloat.compare, Ordering.then_eq_lt, compare_lt_iff_lt]

theorem le_finite_iff :
    (UnpackedFloat.finite .positive mantissa exponent positive).le
        (.finite .positive mantissa' exponent' positive') = true ↔
      ¬ (exponent' < exponent ∨ exponent' = exponent ∧ mantissa' < mantissa) := by
  simp only [UnpackedFloat.le, UnpackedFloat.compare, Option.any_some, Ordering.isLE_iff_ne_gt,
    Ordering.then_eq_gt, compare_gt_iff_gt, compare_eq_iff_eq, eq_comm (a := exponent)]

/-- A number without its sign unpacks to what the number unpacks to, without its sign. -/
theorem unpack_abs (number : Float) :
    number.abs.toModel.unpack = number.toModel.unpack.abs := by
  change (Float.Model.pack number.toModel.unpack.abs).unpack = number.toModel.unpack.abs
  cases unpacked : number.toModel.unpack with
  | notANumber => rfl
  | infinity sign =>
      change (Float.Model.pack (.infinity .positive)).unpack = .infinity .positive
      rfl
  | zero sign =>
      change (Float.Model.pack (.zero .positive)).unpack = .zero .positive
      rfl
  | finite sign mantissa exponent positive =>
      exact (canonical_of_unpack unpacked).unpack_pack .positive

end Comparing

/-! ## The threshold -/

section Threshold

variable {number : Float} {mantissa : Nat} {exponent : Int}

theorem unpack_threshold :
    threshold.toModel.unpack = .finite .positive (2 ^ 52) (-104) (by decide) := by
  change UnpackedFloat.unpack Format.binary64
    (UnpackedFloat.packComponents Format.binary64 .positive 0x3CB#11 0#52) = _
  exact unpack_normal (by decide) (by decide)

/-- Above `2 ^ -52` are the greater exponents, and the greater mantissas with the same one. -/
theorem Canonical.above_iff (canonical : Canonical mantissa exponent) :
    (2 : ℚ) ^ (-52 : Int) < mantissa * 2 ^ exponent ↔
      -104 < exponent ∨ -104 = exponent ∧ 2 ^ 52 < mantissa := by
  have split : (2 : ℚ) ^ (-52 : Int) = 2 ^ 52 * 2 ^ (-104 : Int) := by norm_num
  rcases lt_trichotomy exponent (-104) with below | rfl | above
  · have fits : (mantissa : ℚ) ≤ 2 ^ 53 := by exact_mod_cast canonical.fits.le
    have small : (2 : ℚ) ^ exponent ≤ 2 ^ (-105 : Int) :=
      zpow_le_zpow_right₀ (by norm_num) (by omega)
    have bounded : (mantissa : ℚ) * 2 ^ exponent ≤ 2 ^ (-52 : Int) := by
      calc (mantissa : ℚ) * 2 ^ exponent ≤ 2 ^ 53 * 2 ^ (-105 : Int) := by gcongr
        _ = 2 ^ (-52 : Int) := by norm_num
    exact iff_of_false bounded.not_gt (by omega)
  · rw [split, mul_lt_mul_iff_of_pos_right (by positivity)]
    norm_cast
    simp
  · have leading : (2 : ℚ) ^ 52 ≤ mantissa := by
      exact_mod_cast canonical.leading.resolve_right (by omega)
    have large : (2 : ℚ) ^ (-104 : Int) < 2 ^ exponent := zpow_lt_zpow_right₀ (by norm_num) above
    refine iff_of_true ?_ (.inl above)
    rw [split]
    exact mul_lt_mul' leading large (by positivity) (by positivity)

/-- Above the threshold are the infinite numbers and those further from zero than `2 ^ -52`. -/
theorem threshold_lt_abs_iff :
    threshold < number.abs ↔
      number.isInf = true ∨ ∃ distance ∈ distance? number, (2 : ℚ) ^ (-52 : Int) < distance := by
  rw [lt_iff_unpack, unpack_threshold, unpack_abs, distance?]
  change _ ↔ number.toModel.unpack.isInf = true ∨ _
  cases unpacked : number.toModel.unpack with
  | notANumber => exact iff_of_false Bool.false_ne_true (by simp [UnpackedFloat.isInf])
  | infinity sign => exact iff_of_true rfl (.inl rfl)
  | zero sign => exact iff_of_false Bool.false_ne_true (by simp [UnpackedFloat.isInf])
  | finite sign mantissa exponent positive =>
      have above := (canonical_of_unpack unpacked).above_iff
      rw [UnpackedFloat.abs, lt_finite_iff, ← above]
      simp [UnpackedFloat.isInf]

/-- At most the threshold are the finite numbers that are no further from zero than
`2 ^ -52`. -/
theorem abs_le_threshold_iff :
    number.abs ≤ threshold ↔
      ∃ distance ∈ distance? number, distance ≤ (2 : ℚ) ^ (-52 : Int) := by
  rw [le_iff_unpack, unpack_threshold, unpack_abs, distance?]
  cases unpacked : number.toModel.unpack with
  | notANumber => exact iff_of_false Bool.false_ne_true (by simp)
  | infinity sign => exact iff_of_false Bool.false_ne_true (by simp)
  | zero sign =>
      have inside : (0 : ℚ) ≤ 2 ^ (-52 : Int) := by positivity
      exact iff_of_true rfl ⟨0, rfl, inside⟩
  | finite sign mantissa exponent positive =>
      have above := (canonical_of_unpack unpacked).above_iff
      rw [UnpackedFloat.abs, le_finite_iff, ← above]
      simp

end Threshold

/-! ## Clearing -/

section Clearing

variable (number : Float)

/-- A number is none, or at most the threshold away from zero, or further away. -/
theorem abs_cases :
    number.isNaN = true ∧ ¬ number.abs ≤ threshold ∧ ¬ threshold < number.abs ∨
      number.isNaN = false ∧ number.abs ≤ threshold ∧ ¬ threshold < number.abs ∨
      number.isNaN = false ∧ ¬ number.abs ≤ threshold ∧ threshold < number.abs := by
  rw [threshold_lt_abs_iff, abs_le_threshold_iff, distance?]
  change number.toModel.unpack.isNaN = true ∧ _ ∧ ¬ (number.toModel.unpack.isInf = true ∨ _) ∨
    number.toModel.unpack.isNaN = false ∧ _ ∧ ¬ (number.toModel.unpack.isInf = true ∨ _) ∨
    number.toModel.unpack.isNaN = false ∧ _ ∧ (number.toModel.unpack.isInf = true ∨ _)
  cases number.toModel.unpack with
  | notANumber => simp [UnpackedFloat.isNaN, UnpackedFloat.isInf]
  | infinity sign => simp [UnpackedFloat.isNaN, UnpackedFloat.isInf]
  | zero sign => simp [UnpackedFloat.isNaN, UnpackedFloat.isInf]
  | finite sign mantissa exponent positive =>
      simpa [UnpackedFloat.isNaN, UnpackedFloat.isInf] using
        le_or_gt ((mantissa : ℚ) * 2 ^ exponent) (2 ^ (-52 : Int))

/-- Without residue are those that are no numbers, the positive zero, and the numbers beyond
the threshold. -/
theorem cleared_iff {number : Float} :
    Cleared number ↔ number.isNaN = true ∨ number = 0 ∨ threshold < number.abs := by
  unfold Cleared clearResidue
  rcases abs_cases number with ⟨none, above, -⟩ | ⟨some, within, below⟩ | ⟨-, above, beyond⟩
  · rw [if_neg above]
    exact iff_of_true rfl (.inl none)
  · rw [if_pos within]
    simp only [some, below, Bool.false_eq_true, or_false, false_or, eq_comm]
  · rw [if_neg above]
    exact iff_of_true rfl (.inr (.inr beyond))

/-- What is left when residue is cleared has none. -/
theorem cleared_clearResidue : Cleared (clearResidue number) := by
  unfold Cleared clearResidue
  split
  · rfl
  · rfl

end Clearing

end FormLang.Numeric
