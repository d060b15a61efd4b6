import FormLang.Numeric.Residue
import FormLang.Numeric.Magnitude

/-!
Contract: complex numbers with binary64 components.

Every operation is given by its formula on the components, and the formulas are
those of the `num-complex` library. In the arithmetic each component operation
rounds once and none are fused. That does not fix every bit: polar forms,
arguments, logarithms and exponentials rest on library functions of binary64, and
a component that is no number has no sign of its own, though the square root asks
for it. No general theorem rests on what the formulas compute: proofs open residue
and closeness only, component by component.

Owns: the type, its arithmetic, square root, logarithm, exponential and power,
and residue and closeness component by component.
Does not own: the length of a vector.
-/

set_option autoImplicit false

namespace FormLang

open Numeric

structure Complex where
  re : Float
  im : Float
deriving DecidableEq, Repr

namespace Complex

def ofReal (number : Float) : Complex := ⟨number, 0⟩

def unit : Complex := ⟨0, 1⟩

def add (left right : Complex) : Complex :=
  ⟨left.re + right.re, left.im + right.im⟩

def sub (left right : Complex) : Complex :=
  ⟨left.re - right.re, left.im - right.im⟩

def neg (number : Complex) : Complex :=
  ⟨-number.re, -number.im⟩

def conj (number : Complex) : Complex :=
  ⟨number.re, -number.im⟩

def mul (left right : Complex) : Complex :=
  ⟨left.re * right.re - left.im * right.im, left.re * right.im + left.im * right.re⟩

def normSquared (number : Complex) : Float :=
  number.re * number.re + number.im * number.im

def div (left right : Complex) : Complex :=
  ⟨(left.re * right.re + left.im * right.im) / right.normSquared,
    (left.im * right.re - left.re * right.im) / right.normSquared⟩

def inv (number : Complex) : Complex :=
  ⟨number.re / number.normSquared, -number.im / number.normSquared⟩

def magnitude (number : Complex) : Float :=
  hypotenuse number.re number.im

def argument (number : Complex) : Float :=
  Float.atan2 number.im number.re

/-- The number at a distance from zero and an angle against the real axis. -/
def ofPolar (distance angle : Float) : Complex :=
  ⟨distance * angle.cos, distance * angle.sin⟩

/-- The principal square root. On the axes it is exact in the real root; the sign
of a zero imaginary part picks the side of the branch cut. -/
def sqrt (number : Complex) : Complex :=
  if number.im == 0 then
    if isSignNegative number.re then
      let root := (-number.re).sqrt
      ⟨0, if isSignNegative number.im then -root else root⟩
    else
      ⟨number.re.sqrt, number.im⟩
  else if number.re == 0 then
    let root := (number.im.abs / 2).sqrt
    ⟨root, if isSignNegative number.im then -root else root⟩
  else
    ofPolar number.magnitude.sqrt (number.argument / 2)

def log (number : Complex) : Complex :=
  ⟨number.magnitude.log, number.argument⟩

/-- The exponential. Where the real part is infinite or no number, the limit is
taken if there is one. -/
def exp (number : Complex) : Complex :=
  if number.re.isInf && number.re < 0 && !number.im.isFinite then
    ⟨0, 0⟩
  else if number.re.isInf && 0 < number.re && (number.im == 0 || !number.im.isFinite) then
    ⟨number.re, if number.im.isInf then notANumber else number.im⟩
  else if number.re.isNaN && number.im == 0 then
    number
  else
    ofPolar number.re.exp number.im

/-- The power, through the principal logarithm of the base; the power of zero is one. -/
def pow (base exponent : Complex) : Complex :=
  if exponent.re == 0 && exponent.im == 0 then
    ⟨1, 0⟩
  else
    (exponent.mul base.log).exp

def clearResidue (number : Complex) : Complex :=
  ⟨Numeric.clearResidue number.re, Numeric.clearResidue number.im⟩

def close (left right : Complex) : Bool :=
  Numeric.close left.re right.re && Numeric.close left.im right.im

end Complex

end FormLang
