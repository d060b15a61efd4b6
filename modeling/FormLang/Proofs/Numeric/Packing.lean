import Mathlib

/-!
Contract: binary64 numbers as bit patterns and as mantissas with exponents.

A pattern is a sign, an exponent of eleven bits and a mantissa of 52 bits. Where the exponent
is neither all zeros nor all ones the number is normal, and its mantissa has an implicit bit
on top. The other finite numbers have the least exponent.

Owns: the mantissas and exponents of finite numbers, that these are the ones that patterns
unpack to, and that packing keeps them. Packing an unpacked pattern is the library's.
-/

set_option autoImplicit false

namespace FormLang.Numeric

open Float.Model (Format UnpackedFloat)
open Float.Model.UnpackedFloat

/-! ## The parts of a pattern -/

section Components

variable {sign : Sign} {exponent : BitVec 11} {mantissa : BitVec 52}

theorem toNat_implicit (mantissa : BitVec 52) :
    (1#1 ++ mantissa).toNat = 2 ^ 52 + mantissa.toNat := by
  rw [BitVec.toNat_append, ← Nat.shiftLeft_add_eq_or_of_lt mantissa.isLt]
  rfl

theorem unpack_subnormal (positive : 0 < mantissa.toNat) :
    unpack Format.binary64 (packComponents Format.binary64 sign 0#11 mantissa) =
      .finite sign mantissa.toNat (-1074) positive := by
  have nonzero : mantissa ≠ 0#52 := fun zero => by
    rw [zero] at positive
    exact absurd positive (by decide)
  rw [unpack]
  simp only [unpackExponent_packComponents, unpackMantissa_packComponents,
    unpackSign_packComponents, Sign.ofBitVec_toBitVec, nonzero]
  rfl

theorem unpack_normal (notZeros : exponent ≠ 0#11) (notOnes : exponent ≠ -1#11) :
    unpack Format.binary64 (packComponents Format.binary64 sign exponent mantissa) =
      .finite sign (2 ^ 52 + mantissa.toNat) (exponent.toNat - 1075)
        (Nat.add_pos_left (by decide) _) := by
  rw [unpack]
  simp only [unpackExponent_packComponents, unpackMantissa_packComponents,
    unpackSign_packComponents, Sign.ofBitVec_toBitVec, notZeros, notOnes, toNat_implicit]
  rfl

/-- Only an exponent of all ones makes a pattern no number. -/
theorem isNaN_unpack_components (notOnes : exponent ≠ -1#11) :
    (unpack Format.binary64 (packComponents Format.binary64 sign exponent mantissa)).isNaN =
      false := by
  by_cases zeros : exponent = 0#11
  · subst zeros
    by_cases zero : mantissa = 0#52
    · subst zero
      exact congrArg isNaN unpack_packedZero
    · exact congrArg isNaN
        (unpack_subnormal (Nat.pos_of_ne_zero fun same => zero (BitVec.eq_of_toNat_eq same)))
  · rw [unpack_normal zeros notOnes]
    rfl

end Components

/-! ## Finite numbers -/

/-- The mantissa and the exponent are those of a finite binary64 number. -/
structure Canonical (mantissa : Nat) (exponent : Int) : Prop where
  positive : 0 < mantissa
  fits : mantissa < 2 ^ 53
  least : -1074 ≤ exponent
  most : exponent ≤ 971
  leading : 2 ^ 52 ≤ mantissa ∨ exponent = -1074

section Finite

variable {sign : Sign} {mantissa : Nat} {exponent : Int}

/-- A pattern that unpacks to a finite number has a canonical mantissa and exponent. -/
theorem canonical_of_unpack {bits : BitVec Format.binary64.numBits} {positive : 0 < mantissa}
    (unpacked : unpack Format.binary64 bits = .finite sign mantissa exponent positive) :
    Canonical mantissa exponent := by
  obtain ⟨sign, high, low, rfl⟩ : ∃ (sign : Sign) (high : BitVec 11) (low : BitVec 52),
      bits = packComponents Format.binary64 sign high low :=
    ⟨_, _, _, (packComponents_unpackSign_unpackExponent_unpackMantissa bits).symm⟩
  have inside := low.isLt
  by_cases ones : high = -1#11
  · by_cases zero : low = 0#52 <;> simp [unpack, ones, zero] at unpacked
  · by_cases zeros : high = 0#11
    · subst zeros
      by_cases zero : low = 0#52
      · subst zero
        change unpack Format.binary64 (packedZero Format.binary64 sign) = _ at unpacked
        rw [unpack_packedZero] at unpacked
        cases unpacked
      · rw [unpack_subnormal
          (Nat.pos_of_ne_zero fun same => zero (BitVec.eq_of_toNat_eq same))] at unpacked
        cases unpacked
        exact ⟨positive, by omega, Int.le_refl _, by decide, .inr rfl⟩
    · rw [unpack_normal zeros ones] at unpacked
      cases unpacked
      have above : high.toNat ≠ 0 := fun same => zeros (BitVec.eq_of_toNat_eq same)
      have below : high.toNat ≠ 2047 := fun same => ones (BitVec.eq_of_toNat_eq same)
      have bounded := high.isLt
      exact ⟨positive, by omega, by omega, by omega, .inl (by omega)⟩

/-- A canonical mantissa and exponent are those of a pattern. -/
theorem Canonical.exists_unpack (canonical : Canonical mantissa exponent) (sign : Sign) :
    ∃ bits, Format.binary64.Valid bits ∧
      unpack Format.binary64 bits = .finite sign mantissa exponent canonical.positive := by
  obtain ⟨positive, fits, least, most, leading⟩ := canonical
  by_cases normal : 2 ^ 52 ≤ mantissa
  · obtain ⟨low, rfl⟩ : ∃ low : BitVec 52, mantissa = 2 ^ 52 + low.toNat :=
      ⟨BitVec.ofNat 52 mantissa, by rw [BitVec.toNat_ofNat]; omega⟩
    obtain ⟨high, rfl⟩ : ∃ high : BitVec 11, exponent = high.toNat - 1075 :=
      ⟨BitVec.ofNat 11 (exponent + 1075).toNat, by rw [BitVec.toNat_ofNat]; omega⟩
    have notZeros : high ≠ 0#11 := fun zeros => by
      rw [zeros] at least
      exact absurd least (by decide)
    have notOnes : high ≠ -1#11 := fun ones => by
      rw [ones] at most
      exact absurd most (by decide)
    refine ⟨packComponents Format.binary64 sign high low, ⟨fun ones => ?_⟩,
      unpack_normal notZeros notOnes⟩
    exact absurd (unpackExponent_packComponents.symm.trans ones) notOnes
  · obtain rfl := leading.resolve_left normal
    obtain ⟨low, rfl⟩ : ∃ low : BitVec 52, mantissa = low.toNat :=
      ⟨BitVec.ofNat 52 mantissa, by rw [BitVec.toNat_ofNat]; omega⟩
    refine ⟨packComponents Format.binary64 sign 0#11 low, ⟨fun ones => ?_⟩,
      unpack_subnormal positive⟩
    exact absurd (unpackExponent_packComponents.symm.trans ones) (by decide)

/-- Packing keeps a finite number. -/
theorem Canonical.unpack_pack (canonical : Canonical mantissa exponent) (sign : Sign) :
    (Float.Model.pack (.finite sign mantissa exponent canonical.positive)).unpack =
      .finite sign mantissa exponent canonical.positive := by
  obtain ⟨bits, valid, unpacked⟩ := canonical.exists_unpack sign
  change unpack Format.binary64 (pack Format.binary64 _) = _
  rw [← unpacked, pack_unpack_of_valid valid]

end Finite

theorem model_pack_unpack (model : Float.Model) : Float.Model.pack model.unpack = model := by
  obtain ⟨bits, valid⟩ := model
  simp only [Float.Model.pack, Float.Model.unpack, pack_unpack_of_valid valid]

/-- What is packed is no number only if it was none before. -/
theorem isNaN_pack {unpacked : UnpackedFloat} (someNumber : unpacked.isNaN = false) :
    (Float.Model.pack unpacked).unpack.isNaN = false := by
  change (unpack Format.binary64 (pack Format.binary64 unpacked)).isNaN = false
  have infinite : ∀ sign, (unpack Format.binary64 (packedInfinity Format.binary64 sign)).isNaN =
      false := by
    intro sign
    cases sign <;> decide +kernel
  cases unpacked with
  | notANumber => cases someNumber
  | infinity sign => exact infinite sign
  | zero sign => exact congrArg isNaN unpack_packedZero
  | finite sign mantissa exponent positive =>
      rw [pack]
      simp only
      split
      · exact infinite sign
      · next bounded =>
          split
          · refine isNaN_unpack_components fun ones => bounded ?_
            have biased := congrArg BitVec.toNat ones
            rw [BitVec.toNat_ofNat] at biased
            change _ = 2047 at biased
            omega
          · exact isNaN_unpack_components (by decide)

end FormLang.Numeric
