import FormLang.Proofs.Numeric.Order
import FormLang.Proofs.Numeric.ReadBack

/-!
Contract: what rounding keeps of the order of the binary64 numbers.

A value is rounded to a number that stands on the same side of every number as the value does.
So a sum with a number that is not negative is not less than the other number, though it may be
the same, and a natural number from one on is converted to a number from one on.

Owns: the place of a rounded value, the order of sums, which sums, differences, products and
quotients are numbers, and that natural numbers have no residue.
-/

set_option autoImplicit false

namespace FormLang.Numeric

open Float.Model (Format UnpackedFloat totalExponent)
open Float.Model.UnpackedFloat

/-! ## Packed numbers -/

section Packed

variable {mantissa : Nat} {exponent : Int}

theorem unpack_packedInfinity (sign : Sign) :
    (Float.Model.pack (.infinity sign)).unpack = .infinity sign := by
  cases sign <;> rfl

/-- A mantissa of 53 bits with an exponent that is too large is packed as an infinite number. -/
theorem pack_overflow (sign : Sign) (positive : 0 < mantissa) (large : 971 < exponent) :
    (Float.Model.pack (.finite sign mantissa exponent positive)).unpack = .infinity sign := by
  have packed : pack Format.binary64 (.finite sign mantissa exponent positive) =
      packedInfinity Format.binary64 sign := by
    rw [pack]
    exact if_pos (show 2 ^ 11 ≤ (exponent + 1023 + 52).toNat + 1 by omega)
  show unpack Format.binary64 (pack Format.binary64 _) = _
  rw [packed]
  exact unpack_packedInfinity sign

end Packed

/-! ## The place of a rounded value -/

section Round

variable {mantissa number : Nat} {exponent target : Int} {value : ℚ}

/-- A number that is not above a value has no larger exponent than the one chosen for the value,
and with the same exponent no larger mantissa than the rounded one. -/
theorem Canonical.atMost_rounded (canonical : Canonical mantissa exponent) (least : -1074 ≤ target)
    (upper : value < (2 : ℚ) ^ (53 + target)) (rounds : RoundsTo (value / 2 ^ target) number)
    (below : (mantissa * 2 ^ exponent : ℚ) ≤ value) :
    exponent ≤ target ∧ (exponent = target → mantissa ≤ number) := by
  constructor
  · rcases canonical.leading with normal | subnormal
    · have leading : (2 : ℚ) ^ (52 : Nat) ≤ mantissa := by exact_mod_cast normal
      have power : (2 : ℚ) ^ ((52 : Nat) + exponent) ≤ mantissa * 2 ^ exponent := by
        rw [zpow_add₀ (by norm_num), zpow_natCast]
        exact mul_le_mul_of_nonneg_right leading (by positivity)
      have less := lt_of_two_zpow_lt ((power.trans below).trans_lt upper)
      omega
    · omega
  · rintro rfl
    have whole : (mantissa : ℚ) ≤ value / 2 ^ exponent := by
      rwa [le_div_iff₀ (by positivity)]
    have near := rounds.bounds.2
    have close : (mantissa : ℚ) < number + 1 := by linarith
    exact Nat.lt_succ_iff.mp (by exact_mod_cast close)

/-- A number that is not below a value has no smaller exponent than the one chosen for the value,
and with the same exponent no smaller mantissa than the rounded one. -/
theorem Canonical.atLeast_rounded (canonical : Canonical mantissa exponent)
    (lower : target = -1074 ∨ (2 : ℚ) ^ (52 + target) ≤ value)
    (rounds : RoundsTo (value / 2 ^ target) number)
    (above : value ≤ (mantissa * 2 ^ exponent : ℚ)) :
    target ≤ exponent ∧ (exponent = target → number ≤ mantissa) := by
  constructor
  · rcases lower with rfl | lower
    · exact canonical.least
    · have few : (mantissa : ℚ) < 2 ^ (53 : Nat) := by exact_mod_cast canonical.fits
      have power : (mantissa * 2 ^ exponent : ℚ) < 2 ^ ((53 : Nat) + exponent) := by
        rw [zpow_add₀ (by norm_num), zpow_natCast]
        exact mul_lt_mul_of_pos_right few (by positivity)
      have less := lt_of_two_zpow_lt ((lower.trans above).trans_lt power)
      omega
  · rintro rfl
    have whole : value / 2 ^ exponent ≤ mantissa := by
      rwa [div_le_iff₀ (by positivity)]
    have near := rounds.bounds.1
    have close : (number : ℚ) < mantissa + 1 := by linarith
    exact Nat.lt_succ_iff.mp (by exact_mod_cast close)

/-- What rounding makes of a mantissa that is rounded at the chosen exponent. -/
theorem roundWithAccuracy_cases (positive : 0 < mantissa)
    (chosen : max ((mantissa.log2 : Int) + exponent - 52) (-1074) = target)
    (fine : exponent ≤ target) :
    (-1074 ≤ target ∧ (target = -1074 ∨ (2 : ℚ) ^ (52 + target) ≤ mantissa * 2 ^ exponent) ∧
      (mantissa * 2 ^ exponent : ℚ) < 2 ^ (53 + target)) ∧
    ∃ number, RoundsTo (mantissa * 2 ^ exponent / 2 ^ target) number ∧ ∀ sign,
      (number = 0 →
        roundWithAccuracy Format.binary64 sign mantissa exponent .exact = .zero sign) ∧
      ∀ some : 0 < number,
        (number < 2 ^ 53 → roundWithAccuracy Format.binary64 sign mantissa exponent .exact =
          .finite sign number target some) ∧
        (number = 2 ^ 53 → roundWithAccuracy Format.binary64 sign mantissa exponent .exact =
          .finite sign (2 ^ 52) (target + 1) (by decide)) := by
  have unit : (0 : ℚ) < 2 ^ exponent := by positivity
  have least : -1074 ≤ target := by omega
  have low := mul_le_mul_of_nonneg_right (two_zpow_log2_le positive) unit.le
  have high := mul_lt_mul_of_pos_right
    ((lt_add_one (mantissa : ℚ)).trans_le (add_one_le_two_zpow_log2 mantissa)) unit
  rw [← zpow_add₀ (by norm_num)] at low high
  have lower : target = -1074 ∨ (2 : ℚ) ^ (52 + target) ≤ mantissa * 2 ^ exponent := by
    by_cases subnormal : target = -1074
    · exact .inl subnormal
    · refine .inr (le_trans ?_ low)
      exact zpow_le_zpow_right₀ (by norm_num) (by omega)
  have upper : (mantissa * 2 ^ exponent : ℚ) < 2 ^ (53 + target) :=
    high.trans_le (zpow_le_zpow_right₀ (by norm_num) (by omega))
  have locates : Locates (ExtendedMantissa.ofMantissaAndAccuracy mantissa .exact)
      (mantissa * 2 ^ exponent / 2 ^ exponent) := by
    rw [mul_div_cancel_right₀ _ unit.ne']
    exact locates_exact mantissa
  refine ⟨⟨least, lower, upper⟩, ?_⟩
  obtain ⟨shifted, exponents⟩ := shiftToTargetExponent_locates locates
    ((targetExponent_eq mantissa exponent).trans chosen) fine
  refine ⟨_, shifted.roundsTo, fun sign => ⟨fun zero => ?_, fun some =>
    roundWithAccuracy_eq sign locates least lower upper fine shifted.roundsTo some⟩⟩
  rw [roundWithAccuracy]
  simp only [zero, exponents, shiftToTargetExponent_fitting (Nat.two_pow_pos 53) least]
  rfl

/-- What a value is rounded to, with either sign, stands between the numbers that the value lies
between. -/
structure PlacedAt (value : ℚ) (rounded : Sign → UnpackedFloat) (found : Int) : Prop where
  nonneg : 0 ≤ found
  placed : ∀ sign, placeOf (Float.Model.pack (rounded sign)).unpack = sign.apply found
  atLeast : ∀ {mantissa : Nat} {exponent : Int}, Canonical mantissa exponent →
    (mantissa * 2 ^ exponent : ℚ) ≤ value → magnitudePlace mantissa exponent ≤ found
  atMost : ∀ {mantissa : Nat} {exponent : Int}, Canonical mantissa exponent →
    value ≤ (mantissa * 2 ^ exponent : ℚ) → found ≤ magnitudePlace mantissa exponent

section Placed

variable {rounded : Sign → UnpackedFloat}

theorem placedAt_zero (isRounded : ∀ sign, rounded sign = .zero sign)
    (beyond : ∀ {mantissa : Nat} {exponent : Int}, Canonical mantissa exponent →
      ¬ (mantissa * 2 ^ exponent : ℚ) ≤ value) : PlacedAt value rounded 0 where
  nonneg := le_refl 0
  placed sign := by
    rw [isRounded]
    cases sign <;> rfl
  atLeast canonical below := absurd below (beyond canonical)
  atMost canonical _ := canonical.place_bounds.1.le

theorem placedAt_finite (canonical : Canonical mantissa exponent)
    (isRounded : ∀ sign, rounded sign = .finite sign mantissa exponent canonical.positive)
    (bounds : ∀ {mantissa' : Nat} {exponent' : Int}, Canonical mantissa' exponent' →
      ((mantissa' * 2 ^ exponent' : ℚ) ≤ value →
        magnitudePlace mantissa' exponent' ≤ magnitudePlace mantissa exponent) ∧
      (value ≤ (mantissa' * 2 ^ exponent' : ℚ) →
        magnitudePlace mantissa exponent ≤ magnitudePlace mantissa' exponent')) :
    PlacedAt value rounded (magnitudePlace mantissa exponent) where
  nonneg := canonical.place_bounds.1.le
  placed sign := by
    rw [isRounded, canonical.unpack_pack]
    rfl
  atLeast canonical' := (bounds canonical').1
  atMost canonical' := (bounds canonical').2

theorem placedAt_infinite (positive : 0 < mantissa) (large : 971 < exponent)
    (isRounded : ∀ sign, rounded sign = .finite sign mantissa exponent positive)
    (beyond : ∀ {mantissa' : Nat} {exponent' : Int}, Canonical mantissa' exponent' →
      ¬ value ≤ (mantissa' * 2 ^ exponent' : ℚ)) : PlacedAt value rounded (2 ^ 64) where
  nonneg := by norm_num
  placed sign := by
    rw [isRounded, pack_overflow sign positive large]
    rfl
  atLeast canonical _ := canonical.place_bounds.2.le
  atMost canonical above := absurd above (beyond canonical)

end Placed

/-- The rounded mantissa has 53 bits, or one more, and all of them but for the least exponent. -/
theorem rounded_bounds (lower : target = -1074 ∨ (2 : ℚ) ^ (52 + target) ≤ value)
    (upper : value < (2 : ℚ) ^ (53 + target)) (rounds : RoundsTo (value / 2 ^ target) number) :
    number ≤ 2 ^ 53 ∧ (2 ^ 52 ≤ number ∨ target = -1074) := by
  constructor
  · have below : value / 2 ^ target < (2 : ℚ) ^ 53 :=
      (div_two_zpow_lt 53).mpr (by exact_mod_cast upper)
    have near := rounds.bounds.1
    have close : (number : ℚ) < 2 ^ 53 + 1 := by linarith
    exact Nat.lt_succ_iff.mp (by exact_mod_cast close)
  · rcases lower with subnormal | normal
    · exact .inr subnormal
    · have above : (2 : ℚ) ^ 52 ≤ value / 2 ^ target :=
        (le_div_two_zpow 52).mpr (by exact_mod_cast normal)
      have near := rounds.bounds.2
      have close : (2 ^ 52 : ℚ) < number + 1 := by linarith
      exact .inl (Nat.lt_succ_iff.mp (by exact_mod_cast close))

/-- Rounding keeps the order. -/
theorem exists_placedAt_roundWithAccuracy (positive : 0 < mantissa)
    (fine : exponent ≤ max ((mantissa.log2 : Int) + exponent - 52) (-1074)) :
    ∃ found, PlacedAt (mantissa * 2 ^ exponent)
      (fun sign => roundWithAccuracy Format.binary64 sign mantissa exponent .exact) found := by
  obtain ⟨target, chosen⟩ :
      ∃ target, max ((mantissa.log2 : Int) + exponent - 52) (-1074) = target := ⟨_, rfl⟩
  rw [chosen] at fine
  obtain ⟨⟨least, lower, upper⟩, number, rounds, rounded⟩ :=
    roundWithAccuracy_cases positive chosen fine
  obtain ⟨short, leading⟩ := rounded_bounds lower upper rounds
  have atMost {mantissa' : Nat} {exponent' : Int} (canonical : Canonical mantissa' exponent') :=
    canonical.atMost_rounded least upper rounds
  have atLeast {mantissa' : Nat} {exponent' : Int} (canonical : Canonical mantissa' exponent') :=
    canonical.atLeast_rounded lower rounds
  rcases Nat.eq_zero_or_pos number with zero | some
  · -- Only a value in front of half of the least number is rounded to zero.
    refine ⟨0, placedAt_zero (fun sign => (rounded sign).1 zero) fun canonical below => ?_⟩
    have := atMost canonical below
    have := canonical.positive
    have := canonical.least
    omega
  rcases Nat.lt_or_ge number (2 ^ 53) with fits | full
  · have isRounded sign := ((rounded sign).2 some).1 fits
    by_cases large : 971 < target
    · refine ⟨_, placedAt_infinite some large isRounded fun canonical above => ?_⟩
      have := atLeast canonical above
      have := canonical.most
      omega
    · refine ⟨_, placedAt_finite ⟨some, fits, least, by omega, leading⟩ isRounded
        fun canonical => ⟨fun below => ?_, fun above => ?_⟩⟩
      · have := atMost canonical below
        have := canonical.fits
        unfold magnitudePlace
        omega
      · have := atLeast canonical above
        unfold magnitudePlace
        omega
  · -- The rounded mantissa has one bit too many, which moves it to the next exponent.
    have isRounded sign := ((rounded sign).2 some).2 (le_antisymm short full)
    by_cases large : 971 < target + 1
    · refine ⟨_, placedAt_infinite _ large isRounded fun canonical above => ?_⟩
      have := atLeast canonical above
      have := canonical.most
      have := canonical.fits
      omega
    · refine ⟨_, placedAt_finite ⟨by decide, by decide, by omega, by omega, .inl le_rfl⟩ isRounded
        fun canonical => ⟨fun below => ?_, fun above => ?_⟩⟩
      · have := atMost canonical below
        have := canonical.fits
        unfold magnitudePlace
        omega
      · have := atLeast canonical above
        have := canonical.fits
        have := canonical.leading
        unfold magnitudePlace
        omega

/-- Smaller places, with zero bits behind the mantissa, stand for the same value. -/
theorem decreaseExponent_value (mantissa : Nat) (exponent target : Int) :
    ((decreaseExponent mantissa exponent target).1 *
      2 ^ (decreaseExponent mantissa exponent target).2 : ℚ) = mantissa * 2 ^ exponent := by
  show ((mantissa <<< (exponent - target).toNat : Nat) *
    2 ^ (exponent - (exponent - target).toNat) : ℚ) = _
  rw [Nat.shiftLeft_eq, zpow_sub₀ (by norm_num), zpow_natCast]
  push_cast
  field_simp

/-- The same with a mantissa that may have too few bits. -/
theorem exists_placedAt_round (positive : 0 < mantissa) (exponent : Int) :
    ∃ found, PlacedAt (mantissa * 2 ^ exponent)
      (fun sign => UnpackedFloat.round Format.binary64 sign mantissa exponent) found := by
  obtain ⟨places, chosen⟩ : ∃ places,
      (exponent - max ((mantissa.log2 : Int) + exponent - 52) (-1074)).toNat = places := ⟨_, rfl⟩
  have value := decreaseExponent_value mantissa exponent
    (max ((mantissa.log2 : Int) + exponent - 52) (-1074))
  have more : 0 < mantissa <<< places := by
    rw [Nat.shiftLeft_eq]
    positivity
  have bits : (mantissa <<< places).log2 = mantissa.log2 + places := by
    rw [Nat.log2_eq_iff more.ne', Nat.shiftLeft_eq, Nat.pow_add, Nat.add_right_comm, Nat.pow_add]
    exact ⟨Nat.mul_le_mul_right _ (Nat.log2_self_le positive.ne'),
      Nat.mul_lt_mul_of_pos_right Nat.lt_log2_self (Nat.two_pow_pos places)⟩
  have fine : exponent - (places : Int) ≤
      max (((mantissa <<< places).log2 : Int) + (exponent - places) - 52) (-1074) := by
    rw [bits]
    push_cast
    omega
  have found := exists_placedAt_roundWithAccuracy more fine
  rw [decreaseExponent, chosen] at value
  rw [value] at found
  simpa only [UnpackedFloat.round, targetExponent_eq, decreaseExponent, chosen] using found

end Round

/-! ## Sums -/

section Sums

variable {left right : UnpackedFloat}

theorem unpack_zero : (0 : Float).toModel.unpack = .zero .positive := by
  rfl

/-- Packing moves no number. -/
theorem placeOf_pack (known : IsUnpacked left) :
    placeOf (Float.Model.pack left).unpack = placeOf left := by
  cases left with
  | notANumber => rfl
  | infinity sign => cases sign <;> rfl
  | zero sign => cases sign <;> rfl
  | finite sign mantissa exponent positive => rw [known.unpack_pack]

theorem isNaN_round (sign : Sign) (mantissa : Nat) (exponent : Int) :
    (UnpackedFloat.round Format.binary64 sign mantissa exponent).isNaN = false :=
  isNaN_roundWithAccuracy _ _ _ _

theorem isNaN_normalize (mantissa exponent : Int) (sign : Sign) :
    (UnpackedFloat.normalize Format.binary64 mantissa exponent sign).isNaN = false := by
  rw [UnpackedFloat.normalize]
  split
  · exact isNaN_round _ _ _
  · rfl
  · exact isNaN_round _ _ _

/-- A sum that is rounded does not fall below a number if its exact value does not. -/
theorem place_normalize {sign : Sign} {mantissa : Nat} {exponent scale sum : Int}
    (canonical : Canonical mantissa exponent)
    (atLeast : ((sign.apply mantissa : Int) * 2 ^ exponent : ℚ) ≤ sum * 2 ^ scale) :
    sign.apply (magnitudePlace mantissa exponent) ≤ placeOf (Float.Model.pack
      (UnpackedFloat.normalize Format.binary64 sum scale .positive)).unpack := by
  have unit : (0 : ℚ) < 2 ^ scale := by positivity
  have above := canonical.place_bounds.1
  have some : (0 : ℚ) < mantissa * 2 ^ exponent := by
    have := canonical.positive
    positivity
  rw [UnpackedFloat.normalize]
  rcases lt_trichotomy sum 0 with negative | rfl | positive
  · rw [show compare sum 0 = .lt from Int.compare_eq_lt.mpr negative]
    obtain ⟨size, rfl⟩ : ∃ size : Nat, sum = -size := ⟨sum.natAbs, by omega⟩
    obtain ⟨found, placedAt⟩ := exists_placedAt_round (show 0 < size by omega) scale
    have opposite : (-(-(size : Int))).toNat = size := by omega
    simp only [opposite, placedAt.placed]
    push_cast at atLeast
    cases sign with
    | positive =>
        have below : (0 : ℚ) ≤ size * 2 ^ scale := by positivity
        simp only [Sign.apply, Int.cast_natCast] at atLeast
        linarith
    | negative =>
        simp only [Sign.apply] at atLeast ⊢
        push_cast at atLeast
        have := placedAt.atMost canonical (by linarith)
        omega
  · rw [show compare (0 : Int) 0 = .eq from rfl]
    cases sign with
    | positive =>
        simp only [Sign.apply, Int.cast_natCast, Int.cast_zero, zero_mul] at atLeast
        linarith
    | negative =>
        show -magnitudePlace mantissa exponent ≤
          placeOf (Float.Model.pack (.zero .positive)).unpack
        rw [show placeOf (Float.Model.pack (.zero .positive)).unpack = 0 from rfl]
        omega
  · rw [show compare sum 0 = .gt from Int.compare_eq_gt.mpr positive]
    obtain ⟨size, rfl⟩ := Int.eq_ofNat_of_zero_le positive.le
    obtain ⟨found, placedAt⟩ := exists_placedAt_round (show 0 < size by omega) scale
    have nonneg := placedAt.nonneg
    simp only [Int.toNat_natCast, placedAt.placed]
    cases sign with
    | positive =>
        simp only [Sign.apply, Int.cast_natCast] at atLeast ⊢
        exact placedAt.atLeast canonical atLeast
    | negative =>
        simp only [Sign.apply]
        omega

/-- What is not negative unpacks to a zero, to a finite number with a positive sign, or to the
infinite one. -/
theorem unpack_of_nonneg {number : Float} (nonneg : 0 ≤ number) :
    (∃ sign, number.toModel.unpack = .zero sign) ∨
      number.toModel.unpack = .infinity .positive ∨
      ∃ mantissa exponent, ∃ positive : 0 < mantissa,
        number.toModel.unpack = .finite .positive mantissa exponent positive := by
  obtain ⟨⟨-, isNumber⟩, atLeast⟩ := le_iff_place.mp nonneg
  have known := isUnpacked number
  simp only [place, unpack_zero, placeOf] at atLeast
  cases unpacked : number.toModel.unpack with
  | notANumber =>
      change number.toModel.unpack.isNaN = false at isNumber
      rw [unpacked] at isNumber
      cases isNumber
  | infinity sign =>
      rw [unpacked] at atLeast
      cases sign with
      | positive => exact .inr (.inl rfl)
      | negative => exact absurd atLeast (by decide)
  | zero sign => exact .inl ⟨sign, rfl⟩
  | finite sign mantissa exponent positive =>
      rw [unpacked] at atLeast known
      have above := known.place_bounds.1
      cases sign with
      | positive => exact .inr (.inr ⟨mantissa, exponent, positive, rfl⟩)
      | negative =>
          simp only [Sign.apply] at atLeast
          omega

theorem isNaN_add (finite : left.isFinite = true) (isNumber : right.isNaN = false) :
    (add Format.binary64 left right).isNaN = false := by
  cases left with
  | notANumber => cases finite
  | infinity sign => cases finite
  | zero sign =>
      cases right with
      | zero sign' => cases sign <;> cases sign' <;> rfl
      | _ => exact isNumber
  | finite sign mantissa exponent positive =>
      cases right with
      | finite sign' mantissa' exponent' positive' => exact isNaN_normalize _ _ _
      | notANumber => cases isNumber
      | _ => rfl

theorem isNaN_sub (finite : left.isFinite = true) (finite' : right.isFinite = true) :
    (sub Format.binary64 left right).isNaN = false := by
  cases left with
  | notANumber => cases finite
  | infinity sign => cases finite
  | zero sign =>
      cases right with
      | zero sign' => cases sign <;> cases sign' <;> rfl
      | finite sign' mantissa' exponent' positive' => rfl
      | notANumber => cases finite'
      | infinity sign' => cases finite'
  | finite sign mantissa exponent positive =>
      cases right with
      | zero sign' => rfl
      | finite sign' mantissa' exponent' positive' => exact isNaN_normalize _ _ _
      | notANumber => cases finite'
      | infinity sign' => cases finite'

/-- Adding a positive mantissa does not make a sum smaller. -/
theorem place_add {sign : Sign} {mantissa mantissa' : Nat} {exponent exponent' : Int}
    {positive : 0 < mantissa} (canonical : Canonical mantissa exponent)
    (positive' : 0 < mantissa') :
    placeOf (.finite sign mantissa exponent positive) ≤ placeOf (Float.Model.pack
      (add Format.binary64 (.finite sign mantissa exponent positive)
        (.finite .positive mantissa' exponent' positive'))).unpack := by
  have value := decreaseExponent_value mantissa exponent (min exponent exponent')
  have value' := decreaseExponent_value mantissa' exponent' (min exponent exponent')
  have some : (0 : ℚ) ≤ mantissa' * 2 ^ exponent' := by positivity
  simp only [decreaseExponent,
    show exponent - ((exponent - min exponent exponent').toNat : Int) = min exponent exponent' by
      omega,
    show exponent' - ((exponent' - min exponent exponent').toNat : Int) = min exponent exponent' by
      omega] at value value'
  refine place_normalize canonical ?_
  generalize mantissa <<< (exponent - min exponent exponent').toNat = shifted at value ⊢
  generalize mantissa' <<< (exponent' - min exponent exponent').toNat = shifted' at value' ⊢
  cases sign with
  | positive =>
      simp only [Sign.apply]
      push_cast
      linarith
  | negative =>
      simp only [Sign.apply]
      push_cast
      linarith

theorem isNaN_of_isFinite {number : Float} (finite : number.isFinite = true) :
    number.isNaN = false := by
  change number.toModel.unpack.isFinite = true at finite
  show number.toModel.unpack.isNaN = false
  cases unpacked : number.toModel.unpack with
  | notANumber =>
      rw [unpacked] at finite
      cases finite
  | _ => rfl

/-- A sum with a number that is not negative is not less than the other number. -/
theorem le_add_of_nonneg {number other : Float} (finite : number.isFinite = true)
    (nonneg : 0 ≤ other) : number ≤ number + other := by
  obtain ⟨⟨-, isOther⟩, -⟩ := le_iff_place.mp nonneg
  rw [le_iff_place]
  refine ⟨⟨isNaN_of_isFinite finite, isNaN_pack (isNaN_add finite isOther)⟩, ?_⟩
  have known := isUnpacked number
  have known' := isUnpacked other
  show placeOf number.toModel.unpack ≤ placeOf (Float.Model.pack
    (add Format.binary64 number.toModel.unpack other.toModel.unpack)).unpack
  change number.toModel.unpack.isFinite = true at finite
  generalize number.toModel.unpack = left at known finite ⊢
  rcases unpack_of_nonneg nonneg with ⟨sign', zero⟩ | infinite |
    ⟨mantissa', exponent', positive', some⟩
  · rw [zero]
    cases left with
    | notANumber => cases finite
    | infinity sign => cases finite
    | zero sign => cases sign <;> cases sign' <;> exact le_rfl
    | finite sign mantissa exponent positive => exact (placeOf_pack known).ge
  · rw [infinite]
    cases left with
    | notANumber => cases finite
    | infinity sign => cases finite
    | zero sign =>
        show 0 ≤ placeOf (Float.Model.pack (.infinity .positive)).unpack
        rw [unpack_packedInfinity]
        decide
    | finite sign mantissa exponent positive =>
        show _ ≤ placeOf (Float.Model.pack (.infinity .positive)).unpack
        rw [unpack_packedInfinity]
        exact (placeOf_bounds sign positive known).2.le
  · rw [some] at known' ⊢
    cases left with
    | notANumber => cases finite
    | infinity sign => cases finite
    | zero sign => exact known'.place_bounds.1.le.trans (placeOf_pack known').ge
    | finite sign mantissa exponent positive => exact place_add known positive'

end Sums

/-! ## Operations on numbers -/

section Operations

variable {number other : Float}

theorem isNaN_add_of_isFinite (finite : number.isFinite = true) (isOther : other.isNaN = false) :
    (number + other).isNaN = false :=
  isNaN_pack (isNaN_add finite isOther)

theorem isNaN_sub_of_isFinite (finite : number.isFinite = true) (finite' : other.isFinite = true) :
    (number - other).isNaN = false :=
  isNaN_pack (isNaN_sub finite finite')

/-- What is positive and finite unpacks to a finite number with a positive sign. -/
theorem unpack_of_pos (finite : number.isFinite = true) (positive : 0 < number) :
    ∃ mantissa exponent, ∃ positive : 0 < mantissa,
      number.toModel.unpack = .finite .positive mantissa exponent positive := by
  obtain ⟨numbers, less⟩ := lt_iff_place.mp positive
  change number.toModel.unpack.isFinite = true at finite
  rcases unpack_of_nonneg (le_iff_place.mpr ⟨numbers, less.le⟩) with ⟨sign, zero⟩ | infinite | some
  · rw [place, place, unpack_zero, zero] at less
    exact absurd less (lt_irrefl 0)
  · rw [infinite] at finite
    cases finite
  · exact some

theorem isNaN_mul_of_pos (isNumber : number.isNaN = false) (finite : other.isFinite = true)
    (positive : 0 < other) : (number * other).isNaN = false := by
  obtain ⟨mantissa, exponent, some, unpacked⟩ := unpack_of_pos finite positive
  show (Float.Model.pack (UnpackedFloat.mul Format.binary64 number.toModel.unpack
    other.toModel.unpack)).unpack.isNaN = false
  rw [unpacked]
  exact isNaN_pack (isNaN_mul isNumber _ _ _)

theorem isNaN_div_of_pos (isNumber : number.isNaN = false) (finite : other.isFinite = true)
    (positive : 0 < other) : (number / other).isNaN = false := by
  obtain ⟨mantissa, exponent, some, unpacked⟩ := unpack_of_pos finite positive
  show (Float.Model.pack (UnpackedFloat.div Format.binary64 number.toModel.unpack
    other.toModel.unpack)).unpack.isNaN = false
  rw [unpacked]
  exact isNaN_pack (isNaN_div isNumber _ _ _)

theorem zero_mul_of_pos (finite : number.isFinite = true) (positive : 0 < number) :
    0 * number = 0 := by
  obtain ⟨mantissa, exponent, some, unpacked⟩ := unpack_of_pos finite positive
  show Float.ofModel (.pack (UnpackedFloat.mul Format.binary64 (0 : Float).toModel.unpack
    number.toModel.unpack)) = 0
  rw [unpacked, unpack_zero]
  rfl

/-- Adding zero changes no number but the negative zero, which is a residue. -/
theorem Cleared.add_zero (cleared : Cleared number) : number + 0 = number := by
  refine eq_of_unpack_eq ?_
  show (Float.Model.pack (UnpackedFloat.add Format.binary64 number.toModel.unpack
    (0 : Float).toModel.unpack)).unpack = number.toModel.unpack
  have known := isUnpacked number
  rw [unpack_zero]
  cases unpacked : number.toModel.unpack with
  | notANumber => rfl
  | infinity sign => exact unpack_packedInfinity sign
  | zero sign =>
      rcases cleared_iff.mp cleared with noNumber | rfl | beyond
      · change number.toModel.unpack.isNaN = true at noNumber
        rw [unpacked] at noNumber
        cases noNumber
      · rw [unpack_zero] at unpacked
        rw [← unpacked]
        rfl
      · rw [lt_iff_unpack, unpack_threshold, unpack_abs, unpacked] at beyond
        cases beyond
  | finite sign mantissa exponent positive =>
      rw [unpacked] at known
      exact known.unpack_pack sign

end Operations

/-! ## Natural numbers -/

theorem isNaN_toFloat (number : Nat) : number.toFloat.isNaN = false :=
  isNaN_floatOfScientific _ _ _

/-- A number behind the threshold has no residue. -/
theorem cleared_of_place {number : Float} (behind : place threshold < place number) :
    Cleared number := by
  have known := isUnpacked number
  rw [place, place, unpack_threshold] at behind
  rw [cleared_iff, lt_iff_unpack, unpack_threshold, unpack_abs]
  cases unpacked : number.toModel.unpack with
  | notANumber => exact .inl (congrArg isNaN unpacked)
  | infinity sign => exact .inr (.inr rfl)
  | zero sign =>
      rw [unpacked] at behind
      simp only [placeOf, Sign.apply, magnitudePlace] at behind
      omega
  | finite sign mantissa exponent positive =>
      rw [unpacked] at behind known
      refine .inr (.inr ?_)
      rw [UnpackedFloat.abs, lt_finite_iff]
      have least := known.least
      have fits := known.fits
      cases sign with
      | positive =>
          simp only [placeOf, Sign.apply, magnitudePlace] at behind
          omega
      | negative =>
          simp only [placeOf, Sign.apply, magnitudePlace] at behind
          omega

/-- A number of 53 bits is converted to itself. -/
theorem distance?_toFloat {number : Nat} (positive : 0 < number) (fits : number < 2 ^ 53) :
    distance? number.toFloat = some (number : ℚ) := by
  obtain ⟨mantissa, exponent, some, unpacked, -, value⟩ :=
    ofNat_hasValue positive fits (Nat.zero_le 900)
  rw [Nat.pow_zero, Nat.mul_one] at value
  have canonical := canonical_of_unpack unpacked
  have converted : number.toFloat = .ofModel (.pack (.finite .positive mantissa exponent some)) := by
    refine floatOfScientific_of_reaches canonical ?_
    rw [if_neg Bool.false_ne_true, Nat.cast_zero, zpow_zero, mul_one, ← value]
    exact reaches_self exponent some
  rw [distance?, converted, canonical.unpack_pack]
  exact congrArg Option.some value

/-- What has more bits is rounded, but not to a number below one. -/
theorem place_toFloat {number : Nat} (long : 2 ^ 53 ≤ number) :
    magnitudePlace (2 ^ 52) (-52) ≤ place number.toFloat := by
  have positive : 0 < number <<< 53 := by
    rw [Nat.shiftLeft_eq]
    omega
  have bits : 53 ≤ (number <<< 53).log2 := by
    rw [Nat.le_log2 positive.ne', Nat.shiftLeft_eq]
    omega
  have converted : ofScientific Format.binary64 number 0 =
      roundWithAccuracy Format.binary64 .positive (number <<< 53) (-53) .exact := by
    have notTiny : ¬ (0 : Int) < -((2 ^ Format.binary64.exponentBits : Int) + number.log2) := by
      change ¬ (0 : Int) < -((2048 : Int) + number.log2)
      omega
    rw [ofScientific, dif_neg (by omega), if_neg (by decide), if_neg notTiny, if_pos le_rfl]
    show roundWithAccuracy Format.binary64 .positive (number <<< 53 * 1) (-53) .exact = _
    rw [Nat.mul_one]
  have value : ((number <<< 53 : Nat) * 2 ^ (-53 : Int) : ℚ) = number := by
    rw [Nat.shiftLeft_eq]
    push_cast
    norm_num
    ring
  have one : ((2 ^ 52 : Nat) * 2 ^ (-52 : Int) : ℚ) ≤ (number <<< 53 : Nat) * 2 ^ (-53 : Int) := by
    rw [value]
    norm_num
    omega
  have fine : (-53 : Int) ≤ max (((number <<< 53).log2 : Int) + -53 - 52) (-1074) := by omega
  obtain ⟨found, placedAt⟩ := exists_placedAt_roundWithAccuracy positive fine
  have canonical : Canonical (2 ^ 52) (-52) :=
    ⟨by decide, by decide, by decide, by decide, .inl le_rfl⟩
  have large : ¬ (number < 2 ^ 53 ∧ 0 ≤ 22) := by omega
  rw [place, Nat.toFloat, Float.ofNat]
  show _ ≤ placeOf (Float.ofScientific number false 0).toModel.unpack
  rw [Float.ofScientific, dif_neg large]
  show _ ≤ placeOf (Float.Model.pack (ofScientific Format.binary64 number 0)).unpack
  rw [converted, placedAt.placed .positive]
  exact placedAt.atLeast canonical one

/-- A natural number is converted to a number without residue. -/
theorem cleared_toFloat (number : Nat) : Cleared number.toFloat := by
  rcases Nat.eq_zero_or_pos number with rfl | positive
  · exact cleared_iff.mpr (.inr (.inl rfl))
  rcases Nat.lt_or_ge number (2 ^ 53) with fits | long
  · have some : (1 : ℚ) ≤ number := by exact_mod_cast positive
    refine cleared_iff.mpr (.inr (.inr (threshold_lt_abs_iff.mpr (.inr ⟨number, ?_, ?_⟩))))
    · exact distance?_toFloat positive fits
    · exact lt_of_lt_of_le (by norm_num) some
  · refine cleared_of_place (lt_of_lt_of_le ?_ (place_toFloat long))
    rw [place, unpack_threshold]
    decide
end FormLang.Numeric
