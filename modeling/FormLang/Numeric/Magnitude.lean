/-!
Contract: the length of a vector of two binary64 components.

The sum of the squares is formed exactly over a common exponent, so nothing
overflows or underflows on the way and only the root is rounded, once.

Owns: `hypotenuse`, the infinite number, and the tests of a sign and of an
integral value that complex arithmetic needs.
-/

set_option autoImplicit false

namespace FormLang.Numeric

def infinity : Float := Float.ofBits 0x7FF0000000000000

def notANumber : Float := Float.ofBits 0x7FF8000000000000

/-- The sign bit of the number is set; the negative zero has it set too. -/
def isSignNegative (number : Float) : Bool :=
  number.toBits >>> 63 == 1

/-- The number is finite and has no fractional part. -/
def isIntegral (number : Float) : Bool :=
  number.isFinite && number.floor == number

/-- Mantissa and exponent of the absolute value of a finite number, `0 * 2 ^ 0`
for anything else. -/
def absoluteParts (number : Float) : Nat × Int :=
  match number.toModel.unpack with
  | .finite _ mantissa exponent _ => (mantissa, exponent)
  | _ => (0, 0)

/-- The square root of `radicand * 2 ^ (2 * exponent)`, rounded to nearest. -/
def rootOf (radicand : Nat) (exponent : Int) : Float :=
  if positive : 0 < radicand then
    .ofModel (.pack (.sqrt .binary64 (.finite .positive radicand (2 * exponent) positive)))
  else
    0

/-- Length of the vector with the two components: infinite if one of them is, no
number if otherwise one of them is none, and else the exact length rounded to
nearest. -/
def hypotenuse (first second : Float) : Float :=
  if first.isInf || second.isInf then
    infinity
  else if first.isNaN || second.isNaN then
    notANumber
  else
    let (mantissa, exponent) := absoluteParts first
    let (mantissa', exponent') := absoluteParts second
    let least := min exponent exponent'
    let scaled := mantissa * Nat.pow 2 (exponent - least).toNat
    let scaled' := mantissa' * Nat.pow 2 (exponent' - least).toNat
    rootOf (scaled * scaled + scaled' * scaled') least

end FormLang.Numeric
