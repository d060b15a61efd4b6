/-!
Contract: floating point residue and closeness.

Results closer to zero than the spacing of the numbers at one are residue of
rounding and count as zero. Two numbers no further apart than that count as the
same number.

Owns: the threshold, the removal of residue and the closeness test.
-/

set_option autoImplicit false

namespace FormLang.Numeric

/-- The spacing of the binary64 numbers at one, `2 ^ -52`. -/
def threshold : Float := Float.ofBits 0x3CB0000000000000

/-- A number without residue: anything at most `threshold` away from zero becomes
the positive zero, and every other number stays as it is. -/
def clearResidue (number : Float) : Float :=
  if number.abs ≤ threshold then 0 else number

/-- The two numbers differ by at most `threshold`. A difference that is no number,
as between two equal infinities, is not small. -/
def close (left right : Float) : Bool :=
  let difference := (left - right).abs
  !difference.isNaN && decide (difference ≤ threshold)

end FormLang.Numeric
