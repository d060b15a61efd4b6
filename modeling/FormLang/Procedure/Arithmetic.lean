import FormLang.Procedure.Operands

/-!
Contract: the arithmetic procedures.

Sum, difference, product and quotient stay real as long as every operand is real and
are complex as soon as one operand is. A square root leaves the real numbers below
zero, and a power leaves them for a negative base under an exponent with a
fractional part.

Owns: sums, products, differences, quotients, square roots, powers, the real
functions, and the parts of a complex number.
-/

set_option autoImplicit false

namespace FormLang.Procedure

open Numeric

/-- The sum of the numbers, from zero on and from left to right. -/
def applyAdd (operands : List Expr) : Except Failure Expr := do
  match ← numbers .add operands with
  | .real values => .ok (.ofNumber (values.foldl (· + ·) 0))
  | .complex values => .ok (.ofComplex (values.foldl Complex.add ⟨0, 0⟩))

/-- The product of the numbers, from one on and from left to right. -/
def applyMultiply (operands : List Expr) : Except Failure Expr := do
  match ← numbers .multiply operands with
  | .real values => .ok (.ofNumber (values.foldl (· * ·) 1))
  | .complex values => .ok (.ofComplex (values.foldl Complex.mul ⟨1, 0⟩))

/-- One value under a unary operation, or two under a binary one. -/
def unaryOrBinary {α : Type} (procedure : Procedure) (operands : List Expr)
    (unary : α → α) (binary : α → α → α) : List α → Except Failure α
  | [value] => .ok (unary value)
  | [left, right] => .ok (binary left right)
  | _ => refuseCount procedure .oneOrTwo operands

def applySubtract (operands : List Expr) : Except Failure Expr := do
  match ← numbers .subtract operands with
  | .real values =>
      return .ofNumber (← unaryOrBinary .subtract operands (- ·) (· - ·) values)
  | .complex values =>
      return .ofComplex (← unaryOrBinary .subtract operands Complex.neg Complex.sub values)

def applyDivide (operands : List Expr) : Except Failure Expr := do
  match ← numbers .divide operands with
  | .real values =>
      return .ofNumber (← unaryOrBinary .divide operands (1 / ·) (· / ·) values)
  | .complex values =>
      return .ofComplex (← unaryOrBinary .divide operands Complex.inv Complex.div values)

/-- The square root: real for a real number from zero on, else complex. -/
def applySquareRoot (operands : List Expr) : Except Failure Expr := do
  let operand ← single .squareRoot operands
  match operand.head with
  | .number value =>
      if 0 ≤ value then .ok (.ofNumber value.sqrt)
      else .ok (.ofComplex (Complex.ofReal value).sqrt)
  | .complex value => .ok (.ofComplex value.sqrt)
  | _ => refuseKind .squareRoot .number

/-- The power of two real numbers if it is real for certain: the base is not
negative or the exponent is integral. -/
def realPower? (base exponent : Atom) : Option Float := do
  let base ← base.number?
  let exponent ← exponent.number?
  if 0 ≤ base || isIntegral exponent then some (base.pow exponent) else none

/-- The power: real if `realPower?` gives it, else complex. -/
def applyPower (operands : List Expr) : Except Failure Expr :=
  match operands with
  | [base, exponent] =>
      match realPower? base.head exponent.head with
      | some value => .ok (.ofNumber value)
      | none =>
          match base.head.complex?, exponent.head.complex? with
          | some base, some exponent => .ok (.ofComplex (base.pow exponent))
          | _, _ => refuseKind .power .number
  | _ => refuseCount .power (.exactly 2) operands

/-- The natural logarithm of a real number that is not negative. -/
def applyLogarithm (operands : List Expr) : Except Failure Expr := do
  let value ← realOperand .logarithm operands
  if value < 0 then refuseDomain .logarithm .negativeLogarithm
  else .ok (.ofNumber value.log)

/-- A function of one real number. -/
def applyReal (procedure : Procedure) (function : Float → Float) (operands : List Expr) :
    Except Failure Expr :=
  (realOperand procedure operands).map fun value => .ofNumber (function value)

/-- A real function of one complex number. -/
def applyComplexPart (procedure : Procedure) (part : Complex → Float)
    (operands : List Expr) : Except Failure Expr :=
  (complexOperand procedure operands).map fun value => .ofNumber (part value)

def applyConjugate (operands : List Expr) : Except Failure Expr :=
  (complexOperand .conjugate operands).map fun value => .ofComplex value.conj

end FormLang.Procedure
