import FormLang.Procedure.Arithmetic
import FormLang.Procedure.Lists

/-!
Contract: the call of a procedure with evaluated operands.

Owns: `Procedure.apply`.
-/

set_option autoImplicit false

namespace FormLang

open Numeric

/-- Call a procedure. The outcome depends on the operands only. -/
def Procedure.apply : Procedure → List Expr → Except Failure Expr
  | .add => applyAdd
  | .subtract => applySubtract
  | .multiply => applyMultiply
  | .divide => applyDivide
  | .squareRoot => applySquareRoot
  | .power => applyPower
  | .logarithm => applyLogarithm
  | .sine => applyReal .sine Float.sin
  | .cosine => applyReal .cosine Float.cos
  | .tangent => applyReal .tangent Float.tan
  | .realPart => applyComplexPart .realPart Complex.re
  | .imaginaryPart => applyComplexPart .imaginaryPart Complex.im
  | .magnitude => applyComplexPart .magnitude Complex.magnitude
  | .argument => applyComplexPart .argument Complex.argument
  | .conjugate => applyConjugate
  | .first => applyFirst
  | .rest => applyRest
  | .length => applyLength
  | .append => applyAppend
  | .join => applyJoin
  | .range => applyRange

end FormLang
