import FormLang.Numeric.PlainText
import FormLang.Proofs.Numeric.Spelling
import Mathlib.Algebra.Order.Field.Power
import Mathlib.Algebra.Order.Ring.Rat
import Mathlib.Tactic.Ring

/-!
Contract: the text of a decimal and the literal that it is.

Owns: the digits that a decimal is written with, their value, and that the text of a decimal
with a sign in front of it is read as a literal of these digits.
-/

set_option autoImplicit false

namespace FormLang.Numeric

open Float.Model.UnpackedFloat (Sign)

/-! ## Digits -/

section Digits

variable {digits integral fraction : List Char}

theorem isDigit_toDigits (number : Nat) : ∀ digit ∈ Nat.toDigits 10 number, digit.isDigit = true :=
  fun _ member => Nat.isDigit_of_mem_toDigits (by decide) (by decide) member

theorem isDigit_zeros (places : Nat) :
    ∀ digit ∈ List.replicate places '0', digit.isDigit = true := by
  intro digit member
  rw [List.eq_of_mem_replicate member]
  rfl

theorem digitsValue_toDigits (number : Nat) : digitsValue (Nat.toDigits 10 number) = number :=
  Nat.ofDigitChars_toDigits (by decide) (by decide)

theorem digitsValue_append_zeros (places : Nat) :
    digitsValue (digits ++ List.replicate places '0') = digitsValue digits * 10 ^ places := by
  induction places with
  | zero => rw [List.replicate_zero, List.append_nil, Nat.pow_zero, Nat.mul_one]
  | succ places inductionHypothesis =>
      rw [List.replicate_succ', ← List.append_assoc, digitsValue, List.foldl_append,
        ← digitsValue, inductionHypothesis, Nat.pow_succ]
      change 10 * (digitsValue digits * 10 ^ places) + 0 = _
      ring

theorem digitsValue_zeros_append (places : Nat) :
    digitsValue (List.replicate places '0' ++ digits) = digitsValue digits := by
  induction places with
  | zero => rfl
  | succ places inductionHypothesis => exact inductionHypothesis

/-- A decimal as it is written: digits, and a point and digits behind them if there are any. -/
def pointed (integral fraction : List Char) : List Char :=
  integral ++ if fraction.isEmpty then [] else '.' :: fraction

/-- The digits that a decimal is written with, in front of the point and behind it. -/
structure Decimal.WrittenAs (decimal : Decimal) (integral fraction : List Char) : Prop where
  nonempty : integral ≠ []
  integralDigits : ∀ digit ∈ integral, digit.isDigit = true
  fractionDigits : ∀ digit ∈ fraction, digit.isDigit = true
  text : decimal.plain.toList = pointed integral fraction
  value : (digitsValue (integral ++ fraction) * 10 ^ (-(fraction.length : Int)) : ℚ) =
    decimal.digits * 10 ^ decimal.power

theorem Decimal.writtenAs_whole (decimal : Decimal) (nonnegative : 0 ≤ decimal.power) :
    decimal.WrittenAs
      (Nat.toDigits 10 decimal.digits ++ List.replicate decimal.power.toNat '0') [] where
  nonempty := List.append_ne_nil_of_left_ne_nil Nat.toDigits_ne_nil _
  integralDigits := List.forall_mem_append.mpr
    ⟨isDigit_toDigits decimal.digits, isDigit_zeros decimal.power.toNat⟩
  fractionDigits := fun _ member => absurd member List.not_mem_nil
  text := by
    rw [Decimal.plain]
    simp only [nonnegative, if_true, String.toList_ofList]
    exact (List.append_nil _).symm
  value := by
    obtain ⟨zeros, shape⟩ := Int.eq_ofNat_of_zero_le nonnegative
    rw [List.append_nil, digitsValue_append_zeros, digitsValue_toDigits, shape, Int.toNat_natCast]
    push_cast
    simp

theorem Decimal.writtenAs_point (decimal : Decimal) (negative : decimal.power < 0) :
    ∃ integral fraction, decimal.WrittenAs integral fraction := by
  obtain ⟨places, shape⟩ := Int.eq_ofNat_of_zero_le (show 0 ≤ -decimal.power by omega)
  obtain ⟨padded, padding⟩ : ∃ padded, padded =
      List.replicate (places + 1 - (Nat.toDigits 10 decimal.digits).length) '0' ++
        Nat.toDigits 10 decimal.digits := ⟨_, rfl⟩
  have paddedDigits : ∀ digit ∈ padded, digit.isDigit = true := by
    rw [padding]
    exact List.forall_mem_append.mpr ⟨isDigit_zeros _, isDigit_toDigits decimal.digits⟩
  have length : places < padded.length := by
    rw [padding, List.length_append, List.length_replicate]
    omega
  have behind : (padded.drop (padded.length - places)).length = places := by
    rw [List.length_drop]
    omega
  refine ⟨padded.take (padded.length - places), padded.drop (padded.length - places), ?_,
    fun digit member => paddedDigits digit (List.mem_of_mem_take member),
    fun digit member => paddedDigits digit (List.mem_of_mem_drop member), ?_, ?_⟩
  · rw [← List.length_pos_iff, List.length_take]
    omega
  · have some : (padded.drop (padded.length - places)).isEmpty = false := by
      rw [List.isEmpty_eq_false_iff, ← List.length_pos_iff, behind]
      omega
    have below : ¬ 0 ≤ decimal.power := by omega
    rw [Decimal.plain, pointed, some]
    simp only [below, if_false, String.toList_ofList, shape, Int.toNat_natCast, ← padding]
    rfl
  · rw [List.take_append_drop, behind, ← shape, neg_neg, padding, digitsValue_zeros_append,
      digitsValue_toDigits]

theorem Decimal.exists_writtenAs (decimal : Decimal) :
    ∃ integral fraction, decimal.WrittenAs integral fraction := by
  rcases Int.lt_or_le decimal.power 0 with negative | nonnegative
  · exact decimal.writtenAs_point negative
  · exact ⟨_, _, decimal.writtenAs_whole nonnegative⟩

end Digits

/-! ## Reading a decimal -/

section Reading

variable {integral fraction : List Char}

/-- A decimal is written in one of the ways in which digits with a point are spelled. -/
theorem spells_pointed (integralDigits : AreDigits integral) (fractionDigits : AreDigits fraction) :
    SpellsDecimals (pointed integral fraction) integral fraction := by
  cases fraction with
  | nil =>
      rw [pointed, List.isEmpty_nil, if_pos rfl, List.append_nil]
      exact .whole integralDigits
  | cons first others => exact .pointed integralDigits fractionDigits

theorem spells_signText (sign : Sign) :
    SpellsSign (signText sign).toList (sign == .negative) := by
  cases sign with
  | negative => exact .minus
  | positive => exact .none

/-- The text of a decimal, with a sign in front, is read as the digits it is written with. -/
theorem Decimal.WrittenAs.read? {decimal : Decimal} (written : decimal.WrittenAs integral fraction)
    (sign : Sign) :
    Literal.read? (signText sign ++ decimal.plain).toList =
      some ⟨sign == .negative, integral, fraction, 0⟩ := by
  have spelled := Literal.Spelled.parts (spells_signText sign)
    (spells_pointed written.integralDigits written.fractionDigits) (.inl written.nonempty) .absent
  rw [List.append_nil] at spelled
  rw [String.toList_append, written.text]
  exact Literal.read?_eq_some_iff.mpr spelled

end Reading

end FormLang.Numeric
