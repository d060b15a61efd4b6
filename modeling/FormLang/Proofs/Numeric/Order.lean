import FormLang.Proofs.Numeric.Residue

/-!
Contract: the order of the binary64 numbers.

All that are numbers stand on one line. Behind zero come the mantissas of the least exponent, then
those of every other exponent in turn, and behind them the infinite number; the negative numbers
stand in the same way in front of zero. Two numbers compare as their places do, and what is no
number compares with nothing.

Owns: the places, comparison by places, and the laws of the order that follow.
-/

set_option autoImplicit false

namespace FormLang.Numeric

open Float.Model (Format UnpackedFloat)
open Float.Model.UnpackedFloat

/-! ## Places -/

/-- The place of a finite number behind zero. Each exponent has room for all mantissas. -/
def magnitudePlace (mantissa : Nat) (exponent : Int) : Int :=
  (exponent + 1075) * 2 ^ 53 + mantissa

/-- The place of an unpacked number, zero for what is none. -/
def placeOf : UnpackedFloat → Int
  | .notANumber => 0
  | .infinity sign => sign.apply (2 ^ 64)
  | .zero _ => 0
  | .finite sign mantissa exponent _ => sign.apply (magnitudePlace mantissa exponent)

def place (number : Float) : Int :=
  placeOf number.toModel.unpack

/-- The mantissa and the exponent, if there are any, are those of a number. -/
def IsUnpacked : UnpackedFloat → Prop
  | .finite _ mantissa exponent _ => Canonical mantissa exponent
  | _ => True

theorem isUnpacked (number : Float) : IsUnpacked number.toModel.unpack := by
  cases unpacked : number.toModel.unpack with
  | finite sign mantissa exponent positive => exact canonical_of_unpack unpacked
  | notANumber => trivial
  | infinity sign => trivial
  | zero sign => trivial

section Canonical

variable {mantissa mantissa' : Nat} {exponent exponent' : Int}

theorem Canonical.place_bounds (canonical : Canonical mantissa exponent) :
    0 < magnitudePlace mantissa exponent ∧ magnitudePlace mantissa exponent < 2 ^ 64 := by
  obtain ⟨positive, fits, least, most, -⟩ := canonical
  unfold magnitudePlace
  omega

/-- The exponents decide, and between equal exponents the mantissas. -/
theorem Canonical.compare_eq (canonical : Canonical mantissa exponent)
    (canonical' : Canonical mantissa' exponent') :
    (compare exponent exponent').then (compare mantissa mantissa') =
      compare (magnitudePlace mantissa exponent) (magnitudePlace mantissa' exponent') := by
  have fits := canonical.fits
  have fits' := canonical'.fits
  unfold magnitudePlace
  rcases lt_trichotomy exponent exponent' with less | rfl | more
  · rw [Int.compare_eq_lt.mpr less]
    exact (Int.compare_eq_lt.mpr (by omega)).symm
  · rw [show compare exponent exponent = .eq from Int.compare_eq_eq.mpr rfl]
    rcases lt_trichotomy mantissa mantissa' with less | rfl | more
    · rw [Nat.compare_eq_lt.mpr less]
      exact (Int.compare_eq_lt.mpr (by omega)).symm
    · rw [show compare mantissa mantissa = .eq from Nat.compare_eq_eq.mpr rfl]
      exact (Int.compare_eq_eq.mpr rfl).symm
    · rw [Nat.compare_eq_gt.mpr more]
      exact (Int.compare_eq_gt.mpr (by omega)).symm
  · rw [Int.compare_eq_gt.mpr more]
    exact (Int.compare_eq_gt.mpr (by omega)).symm

end Canonical

/-! ## Comparison -/

theorem some_lt_eq {low high : Int} (below : low < high) :
    some Ordering.lt = some (compare low high) := by
  rw [Int.compare_eq_lt.mpr below]

theorem some_gt_eq {low high : Int} (below : low < high) :
    some Ordering.gt = some (compare high low) := by
  rw [Int.compare_eq_gt.mpr below]

theorem compare_neg (left right : Int) : (compare left right).swap = compare (-left) (-right) := by
  rw [Int.compare_swap]
  rcases lt_trichotomy left right with less | rfl | more
  · rw [Int.compare_eq_gt.mpr less, Int.compare_eq_gt.mpr (by omega)]
  · rw [Int.compare_eq_eq.mpr rfl, Int.compare_eq_eq.mpr rfl]
  · rw [Int.compare_eq_lt.mpr more, Int.compare_eq_lt.mpr (by omega)]

/-- Finite numbers stand between the infinite ones. -/
theorem placeOf_bounds (sign : Sign) {mantissa : Nat} {exponent : Int} (positive : 0 < mantissa)
    (canonical : Canonical mantissa exponent) :
    -2 ^ 64 < placeOf (.finite sign mantissa exponent positive) ∧
      placeOf (.finite sign mantissa exponent positive) < 2 ^ 64 := by
  have bounds := canonical.place_bounds
  cases sign <;> simp only [placeOf, Sign.apply] <;> omega

/-- Unpacked numbers compare as their places do. -/
theorem compare_placeOf {left right : UnpackedFloat} (known : IsUnpacked left)
    (known' : IsUnpacked right) (someLeft : left.isNaN = false) (someRight : right.isNaN = false) :
    left.compare right = some (compare (placeOf left) (placeOf right)) := by
  -- The library compares by cases on both, so there is one case for each pair of kinds and signs.
  cases left with
  | notANumber => cases someLeft
  | infinity sign =>
      cases right with
      | notANumber => cases someRight
      | infinity sign' => cases sign <;> cases sign' <;> rfl
      | zero sign' => cases sign <;> rfl
      | finite sign' mantissa exponent positive =>
          obtain ⟨low, high⟩ := placeOf_bounds sign' positive known'
          cases sign with
          | positive => exact some_gt_eq high
          | negative => exact some_lt_eq low
  | zero sign =>
      cases right with
      | notANumber => cases someRight
      | infinity sign' => cases sign' <;> rfl
      | zero sign' => rfl
      | finite sign' mantissa exponent positive =>
          have above := known'.place_bounds.1
          cases sign' with
          | positive => exact some_lt_eq above
          | negative => exact some_gt_eq (Int.neg_neg_of_pos above)
  | finite sign mantissa exponent positive =>
      have above := known.place_bounds.1
      obtain ⟨low, high⟩ := placeOf_bounds sign positive known
      cases right with
      | notANumber => cases someRight
      | infinity sign' =>
          cases sign' with
          | positive => cases sign <;> exact some_lt_eq high
          | negative => cases sign <;> exact some_gt_eq low
      | zero sign' =>
          cases sign with
          | positive => exact some_gt_eq above
          | negative => exact some_lt_eq (Int.neg_neg_of_pos above)
      | finite sign' mantissa' exponent' positive' =>
          have above' := known'.place_bounds.1
          have same := Canonical.compare_eq known known'
          cases sign with
          | positive =>
              cases sign' with
              | positive => exact congrArg some same
              | negative => exact some_gt_eq ((Int.neg_neg_of_pos above').trans above)
          | negative =>
              cases sign' with
              | positive => exact some_lt_eq ((Int.neg_neg_of_pos above).trans above')
              | negative => exact congrArg some ((congrArg _ same).trans (compare_neg _ _))

/-- What is no number compares with nothing. -/
theorem compare_of_isNaN {left right : UnpackedFloat}
    (noNumber : left.isNaN = true ∨ right.isNaN = true) : left.compare right = none := by
  rcases noNumber with noNumber | noNumber
  · cases left with
    | notANumber => rfl
    | infinity sign => cases noNumber
    | zero sign => cases noNumber
    | finite sign mantissa exponent positive => cases noNumber
  · cases right with
    | notANumber => cases left <;> rfl
    | infinity sign => cases noNumber
    | zero sign => cases noNumber
    | finite sign mantissa exponent positive => cases noNumber

/-! ## The order -/

section Order

variable {number other third : Float}

/-- Two numbers compare as their places do. -/
theorem compare_eq_some (isNumber : number.isNaN = false) (isOther : other.isNaN = false) :
    number.toModel.unpack.compare other.toModel.unpack =
      some (compare (place number) (place other)) :=
  compare_placeOf (isUnpacked number) (isUnpacked other) isNumber isOther

theorem compare_eq_none (noNumber : ¬ (number.isNaN = false ∧ other.isNaN = false)) :
    number.toModel.unpack.compare other.toModel.unpack = none := by
  rw [not_and_or, Bool.not_eq_false, Bool.not_eq_false] at noNumber
  exact compare_of_isNaN noNumber

theorem le_iff_place :
    number ≤ other ↔
      (number.isNaN = false ∧ other.isNaN = false) ∧ place number ≤ place other := by
  rw [le_iff_unpack, UnpackedFloat.le]
  by_cases numbers : number.isNaN = false ∧ other.isNaN = false
  · rw [compare_eq_some numbers.1 numbers.2, Option.any_some, Int.isLE_compare, and_iff_right numbers]
  · rw [compare_eq_none numbers]
    exact iff_of_false Bool.false_ne_true fun holds => numbers holds.1

theorem lt_iff_place :
    number < other ↔
      (number.isNaN = false ∧ other.isNaN = false) ∧ place number < place other := by
  rw [lt_iff_unpack, UnpackedFloat.lt]
  by_cases numbers : number.isNaN = false ∧ other.isNaN = false
  · rw [compare_eq_some numbers.1 numbers.2, beq_iff_eq, Option.some_inj, Int.compare_eq_lt,
      and_iff_right numbers]
  · rw [compare_eq_none numbers]
    exact iff_of_false Bool.false_ne_true fun holds => numbers holds.1

theorem not_le_iff_lt (isNumber : number.isNaN = false) (isOther : other.isNaN = false) :
    ¬ number ≤ other ↔ other < number := by
  rw [le_iff_place, lt_iff_place, and_iff_right ⟨isNumber, isOther⟩,
    and_iff_right ⟨isOther, isNumber⟩, not_le]

theorem not_lt_iff_le (isNumber : number.isNaN = false) (isOther : other.isNaN = false) :
    ¬ number < other ↔ other ≤ number := by
  rw [le_iff_place, lt_iff_place, and_iff_right ⟨isNumber, isOther⟩,
    and_iff_right ⟨isOther, isNumber⟩, not_lt]

theorem le_trans_of_lt (below : number < other) (atMost : other ≤ third) : number ≤ third := by
  rw [lt_iff_place] at below
  rw [le_iff_place] at atMost ⊢
  exact ⟨⟨below.1.1, atMost.1.2⟩, below.2.le.trans atMost.2⟩

end Order

end FormLang.Numeric
