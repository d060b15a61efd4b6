import FormLang.Proofs.Numeric.Nearest

/-!
Contract: decimals as binary64 numbers.

A decimal `digits * 10 ^ power` is converted by one multiplication or division. Where the
digits and the power of ten are numbers themselves it is that of the numbers, and otherwise
it is carried out on mantissas of any length. Either way there is one rounding, so that a
decimal that rounds to a number becomes this number.

Owns: multiplication, division and conversion where the exact result rounds to a number, and
the number that a decimal stands for.
-/

set_option autoImplicit false

namespace FormLang.Numeric

open Float.Model (Format UnpackedFloat totalExponent)
open Float.Model.UnpackedFloat

variable {mantissa : Nat} {exponent : Int}

/-! ## Multiplication and division -/

section Operations

variable {sign sign' : Sign} {left right : Nat} {exponent' exponent'' : Int}

/-- The product of two numbers is rounded once, if it has enough bits. -/
theorem mul_of_reaches (canonical : Canonical mantissa exponent) (positive : 0 < left)
    (positive' : 0 < right)
    (reaches : (binaryValue mantissa exponent).Reaches
      (left * right * 2 ^ (exponent' + exponent'')))
    (fine : ∀ target, -1074 ≤ target →
      (left * right * 2 ^ (exponent' + exponent'') : ℚ) < 2 ^ (53 + target) →
        exponent' + exponent'' ≤ target) :
    mul Format.binary64 (.finite sign left exponent' positive)
        (.finite sign' right exponent'' positive') =
      .finite (sign * sign') mantissa exponent canonical.positive := by
  rw [mul]
  refine roundWithAccuracy_of_reaches canonical reaches ?_ fine
  rw [mul_div_cancel_right₀ _ (by positivity)]
  exact_mod_cast locates_exact (left * right)

theorem two_zpow_lt_quotient (positive : 0 < left) (positive' : 0 < right) :
    (2 : ℚ) ^ ((left.log2 : Int) - (right.log2 + 1)) < left / right := by
  have denominator : (0 : ℚ) < right := by exact_mod_cast positive'
  have high : (right : ℚ) < 2 ^ ((right.log2 : Int) + 1) :=
    (lt_add_one _).trans_le (add_one_le_two_zpow_log2 right)
  rw [lt_div_iff₀ denominator, zpow_sub₀ (by norm_num), div_mul_eq_mul_div,
    div_lt_iff₀ (by positivity)]
  have low := two_zpow_log2_le positive
  exact mul_lt_mul' low high denominator.le (by positivity)

/-- The quotient of two numbers is rounded once: it always has enough bits. -/
theorem div_of_reaches (canonical : Canonical mantissa exponent) (positive : 0 < left)
    (positive' : 0 < right)
    (reaches : (binaryValue mantissa exponent).Reaches
      (left / right * 2 ^ (exponent' - exponent''))) :
    div Format.binary64 (.finite sign left exponent' positive)
        (.finite sign' right exponent'' positive') =
      .finite (sign / sign') mantissa exponent canonical.positive := by
  have chosen : Format.binary64.targetExponent
      (totalExponent left exponent' - totalExponent right exponent'') =
        max (left.log2 + exponent' - right.log2 - exponent'' - 53) (-1074) := by
    change max ((left.log2 : Int) + 1 + exponent' - (right.log2 + 1 + exponent'') - 53) (-1074) = _
    omega
  rw [div, divCore, chosen]
  simp only
  generalize scaled : min (exponent' - exponent'')
    (max (left.log2 + exponent' - right.log2 - exponent'' - 53) (-1074)) = scale
  refine roundWithAccuracy_of_reaches canonical reaches ?_ ?_
  · have quotient : (left / right * 2 ^ (exponent' - exponent'') : ℚ) / 2 ^ scale =
        ((left <<< (exponent' - exponent'' - scale).toNat : Nat) : ℚ) / right := by
      obtain ⟨places, shift⟩ : ∃ places : Nat, exponent' - exponent'' = places + scale :=
        ⟨(exponent' - exponent'' - scale).toNat, by omega⟩
      rw [shift, add_sub_cancel_right, Int.toNat_natCast, Nat.shiftLeft_eq,
        zpow_add₀ (by norm_num), zpow_natCast]
      push_cast
      field_simp
    rw [quotient]
    exact locates_fraction _ positive'
  · intro target least below
    have above := mul_lt_mul_of_pos_right (two_zpow_lt_quotient positive positive')
      (show (0 : ℚ) < 2 ^ (exponent' - exponent'') by positivity)
    rw [← zpow_add₀ (by norm_num)] at above
    have less := lt_of_two_zpow_lt (above.trans below)
    omega

end Operations

/-! ## Decimals -/

theorem two_zpow_le_ten_zpow {power : Int} (nonnegative : 0 ≤ power) :
    (2 : ℚ) ^ power ≤ 10 ^ power ∧ (10 : ℚ) ^ (-power) ≤ 2 ^ (-power) := by
  obtain ⟨power, rfl⟩ := Int.eq_ofNat_of_zero_le nonnegative
  have less : (2 : ℚ) ^ (power : Int) ≤ 10 ^ (power : Int) := by
    rw [zpow_natCast, zpow_natCast]
    exact pow_le_pow_left₀ (by norm_num) (by norm_num) power
  exact ⟨less, by rw [zpow_neg, zpow_neg]; exact inv_anti₀ (by positivity) less⟩

/-- A decimal that rounds to a number has neither a huge nor a tiny power of ten. -/
theorem power_bounds {digits : Nat} {power : Int} (canonical : Canonical mantissa exponent)
    (reaches : (binaryValue mantissa exponent).Reaches (digits * 10 ^ power))
    (positive : 0 < digits) : power < 1024 ∧ -1076 - (digits.log2 : Int) < power := by
  obtain ⟨atLeast, below⟩ := reaches.range canonical
  have some : (1 : ℚ) ≤ digits := by exact_mod_cast positive
  have few : (digits : ℚ) < 2 ^ ((digits.log2 : Int) + 1) :=
    (lt_add_one _).trans_le (add_one_le_two_zpow_log2 digits)
  constructor
  · by_contra huge
    have tens := (two_zpow_le_ten_zpow (show 0 ≤ power by omega)).1
    have whole : (10 : ℚ) ^ power ≤ digits * 10 ^ power :=
      le_mul_of_one_le_left (by positivity) some
    exact huge (lt_of_two_zpow_lt (tens.trans_lt (whole.trans_lt below)))
  · by_contra tiny
    have tens := (two_zpow_le_ten_zpow (show 0 ≤ -power by omega)).2
    rw [neg_neg] at tens
    have scaled : (digits * 10 ^ power : ℚ) < 2 ^ ((digits.log2 : Int) + 1) * 2 ^ power :=
      mul_lt_mul few tens (by positivity) (by positivity)
    rw [← zpow_add₀ (by norm_num)] at scaled
    have bounded := lt_of_two_zpow_lt (atLeast.trans_lt scaled)
    omega

/-- The digits of a decimal that rounds to a positive number are not all zeros. -/
theorem digits_pos {digits : Nat} {power : Int} (canonical : Canonical mantissa exponent)
    (reaches : (binaryValue mantissa exponent).Reaches (digits * 10 ^ power)) : 0 < digits := by
  have positive := reaches.pos canonical.positive
  rw [mul_pos_iff_of_pos_right (by positivity)] at positive
  exact_mod_cast positive

/-- A decimal that rounds to a number is converted to that number. -/
theorem ofScientific_of_reaches {digits : Nat} {power : Int}
    (canonical : Canonical mantissa exponent)
    (reaches : (binaryValue mantissa exponent).Reaches (digits * 10 ^ power)) :
    ofScientific Format.binary64 digits power =
      .finite .positive mantissa exponent canonical.positive := by
  have positive := digits_pos canonical reaches
  obtain ⟨above, below⟩ := power_bounds canonical reaches positive
  -- Outside of these bounds the conversion would not look at the digits any more.
  have notHuge : ¬ power > 2 ^ Format.binary64.exponentBits := by
    change ¬ power > 2048
    omega
  have notTiny : ¬ power < -((2 ^ Format.binary64.exponentBits : Int) + digits.log2) := by
    change ¬ power < -((2048 : Int) + digits.log2)
    omega
  rw [ofScientific, dif_neg positive.ne', if_neg notHuge, if_neg notTiny]
  split
  · next nonnegative =>
      -- The zero bits behind the digits make the product fine enough to be rounded.
      have product : ((digits <<< 53 : Nat) * (10 ^ power.toNat : Nat) * 2 ^ (-53 + 0 : Int) : ℚ) =
          digits * 10 ^ power := by
        obtain ⟨power, rfl⟩ := Int.eq_ofNat_of_zero_le nonnegative
        rw [Nat.shiftLeft_eq, Int.toNat_natCast, zpow_natCast]
        push_cast
        rw [show (2 : ℚ) ^ (-53 : Int) = 1 / 9007199254740992 by norm_num]
        ring
      refine mul_of_reaches canonical _ _ (product.symm ▸ reaches) fun target _ bounded => ?_
      have some : (1 : ℚ) ≤ digits := by exact_mod_cast positive
      have whole : (2 : ℚ) ^ (0 : Int) ≤ digits * 10 ^ power :=
        one_le_mul_of_one_le_of_one_le some (one_le_zpow₀ (by norm_num) nonnegative)
      have sized := lt_of_two_zpow_lt (whole.trans_lt (product ▸ bounded))
      change (-53 : Int) + 0 ≤ target
      omega
  · next negative =>
      have quotient : (digits / (10 ^ (-power).toNat : Nat) * 2 ^ (0 - 0 : Int) : ℚ) =
          digits * 10 ^ power := by
        obtain ⟨places, shape⟩ := Int.eq_ofNat_of_zero_le (show 0 ≤ -power by omega)
        rw [shape, Int.toNat_natCast, ← neg_neg power, shape, zpow_neg, zpow_natCast]
        push_cast
        rw [mul_one, div_eq_mul_inv]
      exact div_of_reaches canonical _ _ (quotient.symm ▸ reaches)

/-! ## Decimals of few digits -/

/-- The number is positive, normal and has the real as its value. -/
def HasValue (number : Float) (value : ℚ) : Prop :=
  ∃ mantissa exponent, ∃ positive : 0 < mantissa,
    number.toModel.unpack = .finite .positive mantissa exponent positive ∧
      2 ^ 52 ≤ mantissa ∧ (mantissa * 2 ^ exponent : ℚ) = value

/-- A natural number that rounds to a number is converted to that number. -/
theorem ofNat_of_reaches {number : Nat} (canonical : Canonical mantissa exponent)
    (reaches : (binaryValue mantissa exponent).Reaches number) :
    ofNat Format.binary64 number = .finite .positive mantissa exponent canonical.positive := by
  have positive : 0 < number := by exact_mod_cast reaches.pos canonical.positive
  have order : compare (number : Int) 0 = .gt := Int.compare_eq_gt.mpr (by omega)
  rw [ofNat, ofInt, UnpackedFloat.normalize, order]
  simp only [Int.toNat_natCast]
  rw [UnpackedFloat.round, targetExponent_eq, decreaseExponent]
  simp only
  generalize chosen : max ((number.log2 : Int) + 0 - 52) (-1074) = target
  refine roundWithAccuracy_of_reaches canonical reaches ?_ ?_
  · have scaled : (number : ℚ) / 2 ^ (0 - ((0 - target).toNat : Int)) =
        (number <<< (0 - target).toNat : Nat) := by
      rw [Nat.shiftLeft_eq, zero_sub, zpow_neg, zpow_natCast, div_inv_eq_mul]
      push_cast
      rfl
    rw [scaled]
    exact locates_exact _
  · intro other _ below
    have low := two_zpow_log2_le positive
    have bounded := lt_of_two_zpow_lt (low.trans_lt below)
    omega

/-- A natural number of 53 bits, with some zero bits behind them, is one of the numbers. -/
theorem ofNat_hasValue {bits places : Nat} (positive : 0 < bits) (fits : bits < 2 ^ 53)
    (few : places ≤ 900) :
    HasValue (.ofModel (.ofNat (bits * 2 ^ places))) ((bits * 2 ^ places : Nat) : ℚ) := by
  have short : bits.log2 < 53 := (Nat.log2_lt positive.ne').mpr fits
  obtain ⟨spare, log⟩ : ∃ spare, bits.log2 + spare = 52 := ⟨52 - bits.log2, by omega⟩
  have low : 2 ^ 52 ≤ bits * 2 ^ spare := by
    rw [← log, Nat.pow_add]
    exact Nat.mul_le_mul_right _ (Nat.log2_self_le positive.ne')
  have high : bits * 2 ^ spare < 2 ^ 53 := by
    rw [show 53 = bits.log2 + 1 + spare by omega, Nat.pow_add]
    exact Nat.mul_lt_mul_of_pos_right Nat.lt_log2_self (Nat.two_pow_pos spare)
  have canonical : Canonical (bits * 2 ^ spare) (places - spare) :=
    ⟨by omega, high, by omega, by omega, .inl low⟩
  have value : ((bits * 2 ^ spare : Nat) * 2 ^ (places - spare : Int) : ℚ) =
      (bits * 2 ^ places : Nat) := by
    rw [zpow_sub₀ (by norm_num), zpow_natCast, zpow_natCast]
    push_cast
    field_simp
  refine ⟨_, _, canonical.positive, ?_, low, value⟩
  have converted := ofNat_of_reaches canonical (value ▸ reaches_self _ canonical.positive)
  change (Float.Model.pack (ofNat Format.binary64 (bits * 2 ^ places))).unpack = _
  rw [converted, canonical.unpack_pack]

/-- The powers of ten that are looked up are what they stand for. -/
theorem powerOfTen_hasValue {power : Nat} (few : power < 23) :
    HasValue (Float.exactlyRepresentablePowersOfTen[power]) (10 ^ power : Nat) := by
  have converted : ∀ power : Fin 23, Float.exactlyRepresentablePowersOfTen[power] =
      .ofModel (.ofNat (5 ^ power.val * 2 ^ power.val)) := by
    decide +kernel
  have same := converted ⟨power, few⟩
  have factors : 5 ^ power * 2 ^ power = 10 ^ power := (Nat.mul_pow 5 2 power).symm
  have small : 5 ^ power < 2 ^ 53 :=
    (Nat.pow_le_pow_right (by decide) (Nat.le_of_lt_succ few)).trans_lt (by decide)
  have hasValue := ofNat_hasValue (Nat.pow_pos (by decide)) small (show power ≤ 900 by omega)
  rw [← factors]
  exact same ▸ hasValue

section Values

variable {left right : Float} {value value' : ℚ}

/-- The product of two numbers is rounded once. -/
theorem HasValue.mul (hasValue : HasValue left value) (hasValue' : HasValue right value')
    (canonical : Canonical mantissa exponent)
    (reaches : (binaryValue mantissa exponent).Reaches (value * value')) :
    left * right = .ofModel (.pack (.finite .positive mantissa exponent canonical.positive)) := by
  obtain ⟨mantissa', exponent', positive', unpacked', normal', rfl⟩ := hasValue
  obtain ⟨mantissa'', exponent'', positive'', unpacked'', normal'', rfl⟩ := hasValue'
  change Float.ofModel (.pack (UnpackedFloat.mul Format.binary64 left.toModel.unpack
    right.toModel.unpack)) = _
  rw [unpacked', unpacked'']
  have product : (mantissa' * 2 ^ exponent' * (mantissa'' * 2 ^ exponent'') : ℚ) =
      mantissa' * mantissa'' * 2 ^ (exponent' + exponent'') := by
    rw [zpow_add₀ (by norm_num)]
    ring
  rw [product] at reaches
  rw [mul_of_reaches canonical positive' positive'' reaches fun target _ below => ?_]
  · rfl
  · have wide : ((2 ^ 52 * 2 ^ 52 : Nat) : ℚ) ≤ mantissa' * mantissa'' := by
      exact_mod_cast Nat.mul_le_mul normal' normal''
    have above := mul_le_mul_of_nonneg_right wide
      (show (0 : ℚ) ≤ 2 ^ (exponent' + exponent'') by positivity)
    rw [← Nat.pow_add, Nat.cast_pow, Nat.cast_ofNat, ← zpow_natCast,
      ← zpow_add₀ (by norm_num)] at above
    have bounded := lt_of_two_zpow_lt (above.trans_lt below)
    omega

/-- The quotient of two numbers is rounded once. -/
theorem HasValue.div (hasValue : HasValue left value) (hasValue' : HasValue right value')
    (canonical : Canonical mantissa exponent)
    (reaches : (binaryValue mantissa exponent).Reaches (value / value')) :
    left / right = .ofModel (.pack (.finite .positive mantissa exponent canonical.positive)) := by
  obtain ⟨mantissa', exponent', positive', unpacked', normal', rfl⟩ := hasValue
  obtain ⟨mantissa'', exponent'', positive'', unpacked'', normal'', rfl⟩ := hasValue'
  change Float.ofModel (.pack (UnpackedFloat.div Format.binary64 left.toModel.unpack
    right.toModel.unpack)) = _
  rw [unpacked', unpacked'']
  have quotient : (mantissa' * 2 ^ exponent' / (mantissa'' * 2 ^ exponent'') : ℚ) =
      mantissa' / mantissa'' * 2 ^ (exponent' - exponent'') := by
    rw [zpow_sub₀ (by norm_num)]
    field_simp
  rw [quotient] at reaches
  rw [div_of_reaches canonical positive' positive'' reaches]
  rfl

end Values

/-- A decimal that rounds to a number is that number. -/
theorem floatOfScientific_of_reaches {digits places : Nat} {negative : Bool}
    (canonical : Canonical mantissa exponent)
    (reaches : (binaryValue mantissa exponent).Reaches
      (digits * 10 ^ (if negative then -(places : Int) else places))) :
    Float.ofScientific digits negative places =
      .ofModel (.pack (.finite .positive mantissa exponent canonical.positive)) := by
  unfold Float.ofScientific
  split
  · next few =>
      -- Few digits and a small power: both are numbers, and one operation rounds.
      obtain ⟨fewDigits, smallPower⟩ := few
      have positive := digits_pos canonical reaches
      have converted : digits.toUInt64.toFloat = .ofModel (.ofNat (digits * 2 ^ 0)) := by
        have word : digits.toUInt64.toNat = digits :=
          UInt64.toNat_ofNat_of_lt' (by change digits < 2 ^ 64; omega)
        change Float.ofModel (.ofNat digits.toUInt64.toNat) = _
        rw [word, Nat.pow_zero, Nat.mul_one]
      have hasValue := ofNat_hasValue positive fewDigits (Nat.zero_le 900)
      rw [← converted, Nat.pow_zero, Nat.mul_one] at hasValue
      have hasValue' := powerOfTen_hasValue (Nat.lt_succ_of_le smallPower)
      push_cast at hasValue'
      cases negative with
      | true =>
          rw [if_pos rfl, zpow_neg, zpow_natCast, ← div_eq_mul_inv] at reaches
          exact hasValue.div hasValue' canonical reaches
      | false =>
          rw [if_neg (by decide), zpow_natCast] at reaches
          exact hasValue.mul hasValue' canonical reaches
  · have signed : (if negative then Int.negOfNat places else Int.ofNat places) =
        if negative then -(places : Int) else places := by
      cases negative with
      | true => exact Int.negOfNat_eq
      | false => rfl
    simp only [signed]
    change Float.ofModel (.pack (ofScientific Format.binary64 digits _)) = _
    rw [ofScientific_of_reaches canonical reaches]

/-! ## Decimals are numbers -/

theorem isNaN_mul {left : UnpackedFloat} (someNumber : left.isNaN = false) (sign : Sign)
    (exponent : Int) (positive : 0 < mantissa) :
    (mul Format.binary64 left (.finite sign mantissa exponent positive)).isNaN = false := by
  cases left with
  | notANumber => cases someNumber
  | infinity sign => rfl
  | zero sign => rfl
  | finite sign mantissa exponent positive => exact isNaN_roundWithAccuracy _ _ _ _

theorem isNaN_div {left : UnpackedFloat} (someNumber : left.isNaN = false) (sign : Sign)
    (exponent : Int) (positive : 0 < mantissa) :
    (div Format.binary64 left (.finite sign mantissa exponent positive)).isNaN = false := by
  cases left with
  | notANumber => cases someNumber
  | infinity sign => rfl
  | zero sign => rfl
  | finite sign mantissa exponent positive => exact isNaN_roundWithAccuracy _ _ _ _

theorem isNaN_ofScientific (digits : Nat) (power : Int) :
    (ofScientific Format.binary64 digits power).isNaN = false := by
  rw [ofScientific]
  split
  · rfl
  split
  · rfl
  split
  · rfl
  split
  · exact isNaN_mul rfl _ _ _
  · exact isNaN_div rfl _ _ _

theorem isNaN_ofNat (number : Nat) : (ofNat Format.binary64 number).isNaN = false := by
  rw [ofNat, ofInt, UnpackedFloat.normalize]
  split
  · exact isNaN_roundWithAccuracy _ _ _ _
  · rfl
  · exact isNaN_roundWithAccuracy _ _ _ _

theorem HasValue.isNaN_mul {left right : Float} {value : ℚ} (hasValue : HasValue right value)
    (someNumber : left.isNaN = false) :
    (left * right).isNaN = false := by
  obtain ⟨mantissa, exponent, positive, unpacked, -, -⟩ := hasValue
  change (Float.Model.pack (UnpackedFloat.mul Format.binary64 left.toModel.unpack
    right.toModel.unpack)).unpack.isNaN = false
  rw [unpacked]
  exact isNaN_pack (Numeric.isNaN_mul someNumber _ _ _)

theorem HasValue.isNaN_div {left right : Float} {value : ℚ} (hasValue : HasValue right value)
    (someNumber : left.isNaN = false) :
    (left / right).isNaN = false := by
  obtain ⟨mantissa, exponent, positive, unpacked, -, -⟩ := hasValue
  change (Float.Model.pack (UnpackedFloat.div Format.binary64 left.toModel.unpack
    right.toModel.unpack)).unpack.isNaN = false
  rw [unpacked]
  exact isNaN_pack (Numeric.isNaN_div someNumber _ _ _)

/-- A decimal is always some number. -/
theorem isNaN_floatOfScientific (digits : Nat) (negative : Bool) (places : Nat) :
    (Float.ofScientific digits negative places).isNaN = false := by
  unfold Float.ofScientific
  split
  · next few =>
      have hasValue := powerOfTen_hasValue (Nat.lt_succ_of_le few.2)
      have someNumber : digits.toUInt64.toFloat.isNaN = false :=
        isNaN_pack (isNaN_ofNat digits.toUInt64.toNat)
      cases negative with
      | true => exact hasValue.isNaN_div someNumber
      | false => exact hasValue.isNaN_mul someNumber
  · exact isNaN_pack (isNaN_ofScientific digits _)

end FormLang.Numeric
