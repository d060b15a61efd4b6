import FormLang.Proofs.Numeric.Scientific
import FormLang.Proofs.Numeric.Written

/-!
Contract: the text of a number, read again.

Owns: that the text of a finite number is read as that number, the characters that the text of
a number is made of, that no two numbers have one text, and that every literal stands for a
number, which can be infinite.
-/

set_option autoImplicit false

namespace FormLang.Numeric

open Float.Model (UnpackedFloat)
open Float.Model.UnpackedFloat

/-! ## Reading the text of a number -/

theorem BinaryValue.onGrid_holds {value : BinaryValue} {power : Int} {decimal : Decimal}
    (found : value.onGrid power = some decimal) : value.Holds decimal.power decimal.digits := by
  unfold BinaryValue.onGrid at found
  simp only at found
  split at found
  · next below =>
      split at found
      · next above =>
          cases found
          exact above.1
      · cases found
        exact below
  · split at found
    · next above =>
        cases found
        exact above
    · cases found

section Text

variable {mantissa : Nat} {exponent : Int}

theorem exact_value (mantissa : Nat) (exponent : Int) :
    ((binaryValue mantissa exponent).exact.digits *
      10 ^ (binaryValue mantissa exponent).exact.power : ℚ) = mantissa * 2 ^ exponent := by
  rcases Int.lt_or_le exponent 0 with negative | nonnegative
  · obtain ⟨places, rfl⟩ : ∃ places : Nat, exponent = -places := ⟨exponent.natAbs, by omega⟩
    have exact : (binaryValue mantissa (-places)).exact = ⟨mantissa * 5 ^ places, -places⟩ := by
      have below : ¬ 0 ≤ (binaryValue mantissa (-places)).exponent := not_le.mpr negative
      rw [BinaryValue.exact, if_neg below]
      simp [binaryValue]
    rw [exact, zpow_neg, zpow_neg, zpow_natCast, zpow_natCast,
      show (10 : ℚ) = 5 * 2 by norm_num, mul_pow]
    push_cast
    field_simp
  · obtain ⟨places, rfl⟩ := Int.eq_ofNat_of_zero_le nonnegative
    have exact : (binaryValue mantissa places).exact = ⟨mantissa * 2 ^ places, 0⟩ := by
      have above : 0 ≤ (binaryValue mantissa places).exponent := nonnegative
      rw [BinaryValue.exact, if_pos above]
      simp [binaryValue]
    rw [exact]
    push_cast
    simp

/-- The decimal that a number is written as rounds to it. -/
theorem reaches_shortest (exponent : Int) (positive : 0 < mantissa) :
    (binaryValue mantissa exponent).Reaches
      ((binaryValue mantissa exponent).shortest.digits *
        10 ^ (binaryValue mantissa exponent).shortest.power) := by
  unfold BinaryValue.shortest
  cases found : (List.range BinaryValue.gridCount).findSome? fun (refinement : Nat) =>
      (binaryValue mantissa exponent).onGrid
        ((binaryValue mantissa exponent).firstPower - refinement) with
  | none =>
      rw [Option.getD_none, exact_value]
      exact reaches_self exponent positive
  | some decimal =>
      obtain ⟨refinement, -, onGrid⟩ := List.exists_of_findSome?_eq_some found
      rw [Option.getD_some]
      exact (BinaryValue.holds_iff _ _ _).mp (BinaryValue.onGrid_holds onGrid)

/-- A literal that rounds to a number has this number as its value. -/
theorem value_of_reaches (canonical : Canonical mantissa exponent) (sign : Sign)
    {integral fraction : List Char}
    (reaches : (binaryValue mantissa exponent).Reaches
      (digitsValue (integral ++ fraction) * 10 ^ (-(fraction.length : Int)))) :
    Literal.value ⟨sign == .negative, integral, fraction, 0⟩ =
      .ofModel (.pack (.finite sign mantissa exponent canonical.positive)) := by
  have power : (if decide ((0 : Int) - fraction.length < 0)
      then -(((0 : Int) - fraction.length).natAbs : Int)
      else ((0 : Int) - fraction.length).natAbs) = -(fraction.length : Int) := by
    simp only [decide_eq_true_eq]
    split <;> omega
  rw [← power] at reaches
  have magnitude := floatOfScientific_of_reaches canonical reaches
  cases sign with
  | positive => exact magnitude
  | negative =>
      change -Float.ofScientific _ _ _ = _
      rw [magnitude]
      change Float.ofModel (.pack (UnpackedFloat.neg (Float.Model.pack _).unpack)) = _
      rw [canonical.unpack_pack]
      rfl

/-- The text of a finite number is read as that number. -/
theorem readNumber?_plainText {number : Float} (finite : number.isFinite = true) :
    readNumber? (plainText number) = some number := by
  obtain ⟨model⟩ := number
  have packed := model_pack_unpack model
  change model.unpack.isFinite = true at finite
  rw [plainText]
  simp only
  cases unpacked : model.unpack with
  | notANumber =>
      rw [unpacked] at finite
      cases finite
  | infinity sign =>
      rw [unpacked] at finite
      cases finite
  | zero sign =>
      rw [← packed, unpacked]
      cases sign with
      | positive => decide +kernel
      | negative => decide +kernel
  | finite sign mantissa exponent positive =>
      have canonical := canonical_of_unpack unpacked
      obtain ⟨integral, fraction, written⟩ :=
        (binaryValue mantissa exponent).shortest.exists_writtenAs
      have reaches := reaches_shortest exponent positive
      rw [← written.value] at reaches
      rw [readNumber?]
      change (Literal.read?
        (signText sign ++ (binaryValue mantissa exponent).shortest.plain).toList).map _ = _
      rw [written.read? sign, Option.map_some, value_of_reaches canonical sign reaches, ← packed,
        unpacked]

end Text

/-! ## The characters of the text of a number -/

section Characters

variable {number : Float} {character : Char}

theorem Decimal.plain_characters (decimal : Decimal) (member : character ∈ decimal.plain.toList) :
    character.isAlphanum = true ∨ character = '.' ∨ character = '-' := by
  obtain ⟨integral, fraction, written⟩ := decimal.exists_writtenAs
  have digits : ∀ digit : Char, digit.isDigit = true → digit.isAlphanum = true := by
    intro digit isDigit
    rw [Char.isAlphanum, isDigit, Bool.or_true]
  rw [written.text, pointed] at member
  rcases List.mem_append.mp member with front | back
  · exact .inl (digits character (written.integralDigits character front))
  · split at back
    · cases back
    · rcases List.mem_cons.mp back with rfl | last
      · exact .inr (.inl rfl)
      · exact .inl (digits character (written.fractionDigits character last))

/-- The text of a number is made of letters and digits, points and minus signs. -/
theorem plainText_characters (member : character ∈ (plainText number).toList) :
    character.isAlphanum = true ∨ character = '.' ∨ character = '-' := by
  have constant : ∀ {text : String}, character ∈ text.toList →
      text.toList.all Char.isAlphanum = true → character.isAlphanum = true :=
    fun inside all => List.all_eq_true.mp all character inside
  have behind : ∀ {sign : Sign} {text : String}, character ∈ (signText sign ++ text).toList →
      character = '-' ∨ character ∈ text.toList := by
    intro sign text inside
    rw [String.toList_append] at inside
    rcases List.mem_append.mp inside with front | back
    · cases sign with
      | positive => cases front
      | negative => exact .inl (List.mem_singleton.mp front)
    · exact .inr back
  unfold plainText at member
  split at member
  · exact .inl (constant member (by decide))
  · rcases behind member with minus | inside
    · exact .inr (.inr minus)
    · exact .inl (constant inside (by decide))
  · rcases behind member with minus | inside
    · exact .inr (.inr minus)
    · exact .inl (constant inside (by decide))
  · rcases behind member with minus | inside
    · exact .inr (.inr minus)
    · exact Decimal.plain_characters _ inside

/-- A character that is neither a letter nor a digit, nor a point or a minus sign, stands in
no text of a number. -/
theorem not_mem_plainText (number : Float)
    (outside : (character.isAlphanum || character == '.' || character == '-') = false) :
    character ∉ (plainText number).toList := by
  intro member
  rw [Bool.or_eq_false_iff, Bool.or_eq_false_iff] at outside
  obtain ⟨⟨noAlphanumeric, noPoint⟩, noMinus⟩ := outside
  rcases plainText_characters member with alphanumeric | rfl | rfl
  · exact absurd (noAlphanumeric.symm.trans alphanumeric) (by decide)
  · cases noPoint
  · cases noMinus

theorem plainText_ne_nil (number : Float) : (plainText number).toList ≠ [] := by
  unfold plainText
  split
  · decide
  · rw [String.toList_append]
    exact List.append_ne_nil_of_right_ne_nil _ (by decide)
  · rw [String.toList_append]
    exact List.append_ne_nil_of_right_ne_nil _ (by decide)
  · next sign mantissa exponent _ _ =>
      obtain ⟨integral, fraction, written⟩ :=
        (binaryValue mantissa exponent).shortest.exists_writtenAs
      rw [String.toList_append]
      refine List.append_ne_nil_of_right_ne_nil _ ?_
      change (binaryValue mantissa exponent).shortest.plain.toList ≠ []
      rw [written.text]
      exact List.append_ne_nil_of_left_ne_nil written.nonempty _

theorem plainText_of_isInf (infinite : number.isInf = true) :
    plainText number = "inf" ∨ plainText number = "-inf" := by
  change number.toModel.unpack.isInf = true at infinite
  unfold plainText
  split
  · next nan =>
      rw [nan] at infinite
      cases infinite
  · next sign _ =>
      cases sign with
      | positive => exact .inl rfl
      | negative => exact .inr rfl
  · next zero =>
      rw [zero] at infinite
      cases infinite
  · next finite =>
      rw [finite] at infinite
      cases infinite

theorem isFinite_of_not_isInf (bounded : number.isInf = false) (someNumber : number.isNaN = false) :
    number.isFinite = true := by
  change number.toModel.unpack.isInf = false at bounded
  change number.toModel.unpack.isNaN = false at someNumber
  change number.toModel.unpack.isFinite = true
  cases unpacked : number.toModel.unpack <;> simp_all [isInf, isNaN, isFinite]

end Characters

/-! ## Numbers with one text -/

section Injective

variable {number other : Float}

/-- A number that is not finite is written as a word, which is no literal. -/
theorem plainText_of_not_isFinite (unbounded : number.isFinite = false) :
    (number.toModel.unpack = .notANumber ∧ plainText number = "NaN" ∨
      ∃ sign, number.toModel.unpack = .infinity sign ∧ plainText number = signText sign ++ "inf") ∧
    readNumber? (plainText number) = none := by
  change number.toModel.unpack.isFinite = false at unbounded
  unfold plainText
  cases unpacked : number.toModel.unpack with
  | notANumber => exact ⟨.inl ⟨rfl, rfl⟩, by decide +kernel⟩
  | infinity sign =>
      refine ⟨.inr ⟨sign, rfl, rfl⟩, ?_⟩
      cases sign <;> decide +kernel
  | zero sign =>
      rw [unpacked] at unbounded
      cases unbounded
  | finite sign mantissa exponent positive =>
      rw [unpacked] at unbounded
      cases unbounded

/-- The word for nothing is no text of a number. -/
theorem plainText_ne_nothing (number : Float) : plainText number ≠ "NONE" := by
  intro same
  cases finite : number.isFinite with
  | true =>
      have noLiteral : readNumber? "NONE" = none := by decide +kernel
      rw [← same, readNumber?_plainText finite] at noLiteral
      cases noLiteral
  | false =>
      obtain ⟨⟨-, text⟩ | ⟨sign, -, text⟩, -⟩ := plainText_of_not_isFinite finite
      · exact absurd (text.symm.trans same) (by decide)
      · cases sign <;> exact absurd (text.symm.trans same) (by decide)

theorem eq_of_unpack_eq (same : number.toModel.unpack = other.toModel.unpack) :
    number = other := by
  have models : number.toModel = other.toModel := by
    rw [← model_pack_unpack number.toModel, same, model_pack_unpack]
  cases number
  cases other
  exact congrArg Float.ofModel models

theorem signText_injective {sign sign' : Sign} (same : signText sign = signText sign') :
    sign = sign' := by
  match sign, sign' with
  | .positive, .positive => rfl
  | .negative, .negative => rfl
  | .positive, .negative => exact absurd same (by decide)
  | .negative, .positive => exact absurd same (by decide)

/-- The text of a number is a literal exactly if the number is finite. -/
theorem isSome_readNumber?_plainText (number : Float) :
    (readNumber? (plainText number)).isSome = number.isFinite := by
  cases finite : number.isFinite with
  | true => rw [readNumber?_plainText finite, Option.isSome_some]
  | false => rw [(plainText_of_not_isFinite finite).2, Option.isSome_none]

/-- The text of a number tells which number it is. -/
theorem plainText_injective (same : plainText number = plainText other) : number = other := by
  have kinds : number.isFinite = other.isFinite := by
    rw [← isSome_readNumber?_plainText, same, isSome_readNumber?_plainText]
  cases finite : number.isFinite with
  | true =>
      have read := readNumber?_plainText finite
      rw [same, readNumber?_plainText (kinds.symm.trans finite)] at read
      exact (Option.some.inj read).symm
  | false =>
      obtain ⟨⟨nan, text⟩ | ⟨sign, infinite, text⟩, -⟩ := plainText_of_not_isFinite finite
      all_goals obtain ⟨⟨otherNan, otherText⟩ | ⟨otherSign, otherInfinite, otherText⟩, -⟩ :=
        plainText_of_not_isFinite (kinds.symm.trans finite)
      all_goals rw [text, otherText] at same
      · exact eq_of_unpack_eq (nan.trans otherNan.symm)
      · cases otherSign <;> exact absurd same (by decide)
      · cases sign <;> exact absurd same (by decide)
      · rw [String.append_left_inj] at same
        exact eq_of_unpack_eq (by rw [infinite, otherInfinite, signText_injective same])

end Injective

theorem isNaN_neg {number : Float} (someNumber : number.isNaN = false) :
    (-number).isNaN = false := by
  change (Float.Model.pack number.toModel.unpack.neg).unpack.isNaN = false
  refine isNaN_pack ?_
  change number.toModel.unpack.isNaN = false at someNumber
  revert someNumber
  cases number.toModel.unpack <;> exact id

/-- A literal always stands for some number. -/
theorem readNumber?_isNaN {text : String} {number : Float}
    (read : readNumber? text = some number) : number.isNaN = false := by
  obtain ⟨literal, -, value⟩ := Option.map_eq_some_iff.mp read
  rw [← value, Literal.value]
  split
  · exact isNaN_neg (isNaN_floatOfScientific _ _ _)
  · exact isNaN_floatOfScientific _ _ _

end FormLang.Numeric
