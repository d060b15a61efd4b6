import FormLang.Proofs.Numeric.Sums

/-!
Contract: closeness of two numbers.

Two differences of the same numbers, in either order, stand at the same distance from zero on
opposite sides of it, also where they are rounded. So the order of two numbers makes no difference
for their closeness. The difference of a finite number and itself is zero, and that of any other
number and itself is none.

Owns: the places of differences, that closeness is symmetric, and which numbers are close to
themselves.
-/

set_option autoImplicit false

namespace FormLang.Numeric

open Float.Model (Format UnpackedFloat)
open Float.Model.UnpackedFloat

/-! ## Differences -/

section Unpacked

variable {left right : UnpackedFloat}

/-- A sum with the opposite sign is rounded to the opposite place. -/
theorem placeOf_normalize_neg (sum scale : Int) :
    placeOf (Float.Model.pack
      (UnpackedFloat.normalize Format.binary64 (-sum) scale .positive)).unpack =
      -placeOf (Float.Model.pack
        (UnpackedFloat.normalize Format.binary64 sum scale .positive)).unpack := by
  -- One of the two sums is positive, so it is enough to have the law for this one.
  have mirrored {size : Nat} (positive : 0 < size) :
      placeOf (Float.Model.pack
        (UnpackedFloat.normalize Format.binary64 (-size) scale .positive)).unpack =
        -placeOf (Float.Model.pack
          (UnpackedFloat.normalize Format.binary64 size scale .positive)).unpack := by
    obtain ⟨found, placedAt⟩ := exists_placedAt_round positive scale
    have below : compare (-(size : Int)) 0 = .lt := Int.compare_eq_lt.mpr (by omega)
    have above : compare (size : Int) 0 = .gt := Int.compare_eq_gt.mpr (by omega)
    rw [UnpackedFloat.normalize, UnpackedFloat.normalize, below, above]
    simp only [neg_neg, Int.toNat_natCast, placedAt.placed]
    rfl
  rcases lt_trichotomy sum 0 with negative | rfl | positive
  · obtain ⟨size, rfl⟩ : ∃ size : Nat, sum = -size := ⟨sum.natAbs, by omega⟩
    rw [mirrored (by omega), neg_neg, neg_neg]
  · have zero : placeOf (Float.Model.pack
        (UnpackedFloat.normalize Format.binary64 0 scale .positive)).unpack = 0 := by
      simp only [UnpackedFloat.normalize, show compare (0 : Int) 0 = .eq from rfl]
      rfl
    rw [neg_zero, zero, neg_zero]
  · obtain ⟨size, rfl⟩ := Int.eq_ofNat_of_zero_le positive.le
    exact mirrored (by omega)

/-- Without a mantissa on one side nothing is rounded, and the other difference is the number on
the opposite side of zero. -/
theorem sub_exact (known : IsUnpacked right)
    (noMantissa : ∀ sign mantissa exponent positive,
      left ≠ .finite sign mantissa exponent positive) :
    IsUnpacked (sub Format.binary64 left right) ∧ IsUnpacked (sub Format.binary64 right left) ∧
      placeOf (sub Format.binary64 left right) = -placeOf (sub Format.binary64 right left) := by
  cases left with
  | finite sign mantissa exponent positive => exact absurd rfl (noMantissa _ _ _ _)
  | notANumber => cases right <;> exact ⟨trivial, trivial, rfl⟩
  | infinity sign =>
      cases right with
      | notANumber => exact ⟨trivial, trivial, rfl⟩
      | infinity sign' => cases sign <;> cases sign' <;> exact ⟨trivial, trivial, rfl⟩
      | zero sign' => cases sign <;> exact ⟨trivial, trivial, rfl⟩
      | finite sign' mantissa exponent positive =>
          cases sign <;> exact ⟨trivial, trivial, rfl⟩
  | zero sign =>
      cases right with
      | notANumber => exact ⟨trivial, trivial, rfl⟩
      | infinity sign' => cases sign' <;> exact ⟨trivial, trivial, rfl⟩
      | zero sign' => cases sign <;> cases sign' <;> exact ⟨trivial, trivial, rfl⟩
      | finite sign' mantissa exponent positive =>
          refine ⟨known, known, ?_⟩
          cases sign' <;> simp [sub, placeOf, Sign.apply]

theorem placeOf_sub_of_noMantissa (known : IsUnpacked right)
    (noMantissa : ∀ sign mantissa exponent positive,
      left ≠ .finite sign mantissa exponent positive) :
    placeOf (Float.Model.pack (sub Format.binary64 left right)).unpack =
      -placeOf (Float.Model.pack (sub Format.binary64 right left)).unpack := by
  obtain ⟨exact, exact', opposite⟩ := sub_exact known noMantissa
  rw [placeOf_pack exact, placeOf_pack exact', opposite]

theorem placeOf_sub_comm (known : IsUnpacked left) (known' : IsUnpacked right) :
    placeOf (Float.Model.pack (sub Format.binary64 left right)).unpack =
      -placeOf (Float.Model.pack (sub Format.binary64 right left)).unpack := by
  by_cases mantissas : ∃ sign mantissa exponent positive,
      left = .finite sign mantissa exponent positive
  · obtain ⟨sign, mantissa, exponent, positive, rfl⟩ := mantissas
    by_cases mantissas' : ∃ sign mantissa exponent positive,
        right = .finite sign mantissa exponent positive
    · obtain ⟨sign', mantissa', exponent', positive', rfl⟩ := mantissas'
      simp only [sub]
      rw [← placeOf_normalize_neg, neg_sub, min_comm exponent exponent']
    · push Not at mantissas'
      rw [placeOf_sub_of_noMantissa known mantissas', neg_neg]
  · push Not at mantissas
    exact placeOf_sub_of_noMantissa known' mantissas

/-- A difference is no number if one side is none, or both are the same infinite number. -/
theorem isNaN_sub_comm : (sub Format.binary64 left right).isNaN =
    (sub Format.binary64 right left).isNaN := by
  cases left with
  | notANumber => cases right <;> rfl
  | infinity sign =>
      cases right with
      | infinity sign' => cases sign <;> cases sign' <;> rfl
      | _ => rfl
  | zero sign =>
      cases right with
      | zero sign' => cases sign <;> cases sign' <;> rfl
      | _ => rfl
  | finite sign mantissa exponent positive =>
      cases right with
      | finite sign' mantissa' exponent' positive' =>
          simp only [sub, isNaN_normalize]
      | _ => rfl

theorem isNaN_sub_self (notFinite : left.isFinite = false) :
    (sub Format.binary64 left left).isNaN = true := by
  cases left with
  | notANumber => rfl
  | infinity sign => cases sign <;> rfl
  | zero sign => cases notFinite
  | finite sign mantissa exponent positive => cases notFinite

end Unpacked

/-! ## Closeness -/

section Close

variable {number left right : Float}

theorem place_abs (number : Float) : place number.abs = |place number| := by
  have known := isUnpacked number
  rw [place, place, unpack_abs]
  cases unpacked : number.toModel.unpack with
  | notANumber => rfl
  | infinity sign => cases sign <;> rfl
  | zero sign => rfl
  | finite sign mantissa exponent positive =>
      rw [unpacked] at known
      have above := known.place_bounds.1
      cases sign with
      | positive => exact (abs_of_pos above).symm
      | negative => exact ((abs_neg _).trans (abs_of_pos above)).symm

theorem isNaN_abs (number : Float) : number.abs.isNaN = number.isNaN := by
  change number.abs.toModel.unpack.isNaN = number.toModel.unpack.isNaN
  rw [unpack_abs]
  cases number.toModel.unpack <;> rfl

/-- Two numbers are close if their difference is a number that stands within the threshold. -/
theorem close_iff : close left right = true ↔
    (left - right).isNaN = false ∧ |place (left - right)| ≤ place threshold := by
  have isNumber : threshold.isNaN = false := by decide +kernel
  rw [close, Bool.and_eq_true, decide_eq_true_iff, Bool.not_eq_true', le_iff_place, isNaN_abs,
    place_abs]
  grind

theorem isNaN_sub_eq (left right : Float) : (left - right).isNaN =
    (sub Format.binary64 left.toModel.unpack right.toModel.unpack).isNaN := by
  change (Float.Model.pack (sub Format.binary64 left.toModel.unpack
    right.toModel.unpack)).unpack.isNaN = _
  cases difference : sub Format.binary64 left.toModel.unpack right.toModel.unpack with
  | notANumber => rfl
  | _ => exact isNaN_pack rfl

theorem place_sub_comm (left right : Float) : place (left - right) = -place (right - left) :=
  placeOf_sub_comm (isUnpacked left) (isUnpacked right)

/-- Closeness is symmetric. -/
theorem close_comm (left right : Float) : close left right = close right left := by
  rw [Bool.eq_iff_iff, close_iff, close_iff, place_sub_comm, abs_neg, isNaN_sub_eq, isNaN_sub_eq,
    isNaN_sub_comm]

/-- Exactly the finite numbers are close to themselves. -/
theorem close_self_iff : close number number = true ↔ number.isFinite = true := by
  rw [close_iff]
  cases finite : number.isFinite with
  | true =>
      have opposite := place_sub_comm number number
      have zero : place (number - number) = 0 := by omega
      refine iff_of_true ⟨isNaN_sub_of_isFinite finite finite, ?_⟩ rfl
      rw [zero, abs_zero]
      decide +kernel
  | false =>
      have none : (number - number).isNaN = true := by
        rw [isNaN_sub_eq]
        exact isNaN_sub_self finite
      rw [none]
      exact iff_of_false (fun close => Bool.noConfusion close.1) Bool.false_ne_true

example : close 0 threshold = true ∧ close threshold (threshold + threshold) = true ∧
    close 0 (threshold + threshold) = false := by decide +kernel

end Close

end FormLang.Numeric
