import FormLang.Numeric.Shortest

/-!
Contract: the text of a binary64 number.

A number is written with the fewest digits that read back as it, always
positionally: no exponent, no point after an integer, a minus sign in front of
every negative number and of the negative zero. The values that are no finite
number are written `NaN`, `inf` and `-inf`.

Owns: the layout of a decimal and the text of a `Float`.
Does not own: the choice of the digits.
-/

set_option autoImplicit false

namespace FormLang.Numeric

/-- Positional text of `digits * 10 ^ power`. -/
def Decimal.plain (decimal : Decimal) : String :=
  let digits := Nat.toDigits 10 decimal.digits
  if 0 ≤ decimal.power then
    String.ofList (digits ++ List.replicate decimal.power.toNat '0')
  else
    let places := (-decimal.power).toNat
    let padded := List.replicate (places + 1 - digits.length) '0' ++ digits
    let integral := padded.take (padded.length - places)
    let fraction := padded.drop (padded.length - places)
    String.ofList (integral ++ '.' :: fraction)

/-- The mantissa of the least normal number; a binary value with this mantissa
lies just above a power of two. -/
def leastNormalMantissa : Nat := Nat.pow 2 52

/-- The least exponent of a binary64 number, that of the subnormal ones. -/
def leastExponent : Int := -1074

def positiveText (mantissa : Nat) (exponent : Int) : String :=
  let narrowBelow := mantissa == leastNormalMantissa && leastExponent < exponent
  (BinaryValue.shortest ⟨mantissa, exponent, narrowBelow⟩).plain

def signText : Float.Model.UnpackedFloat.Sign → String
  | .positive => ""
  | .negative => "-"

/-- Text of a number: the fewest digits that read back as it, positionally. -/
def plainText (number : Float) : String :=
  match number.toModel.unpack with
  | .notANumber => "NaN"
  | .infinity sign => signText sign ++ "inf"
  | .zero sign => signText sign ++ "0"
  | .finite sign mantissa exponent _ => signText sign ++ positiveText mantissa exponent

end FormLang.Numeric
