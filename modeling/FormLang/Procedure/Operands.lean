import FormLang.Data.Expr
import FormLang.Failure

/-!
Contract: what the procedures demand of their operands.

Owns: the checks of number and kind that several procedures share. Each names the
procedure in the failure and hands out the content that the procedure works on.
-/

set_option autoImplicit false

namespace FormLang.Procedure

open Numeric

def refuseCount {α : Type} (procedure : Procedure) (expected : OperandCount)
    (operands : List Expr) : Except Failure α :=
  .error (.wrongCount (.procedure procedure) expected operands.length)

def refuseKind {α : Type} (procedure : Procedure) (requirement : Requirement) :
    Except Failure α :=
  .error (.wrongKind (.procedure procedure) requirement)

def refuseDomain {α : Type} (procedure : Procedure) (limit : DomainLimit) :
    Except Failure α :=
  .error (.outsideDomain (.procedure procedure) limit)

def single (procedure : Procedure) (operands : List Expr) : Except Failure Expr :=
  match operands with
  | [operand] => .ok operand
  | _ => refuseCount procedure (.exactly 1) operands

/-- The content of the only operand, a real number. -/
def realOperand (procedure : Procedure) (operands : List Expr) : Except Failure Float := do
  let operand ← single procedure operands
  match operand.head.number? with
  | some value => .ok value
  | none => refuseKind procedure .realNumber

/-- The content of the only operand, a complex number. A real number is none. -/
def complexOperand (procedure : Procedure) (operands : List Expr) : Except Failure Complex := do
  let operand ← single procedure operands
  match operand.head with
  | .complex value => .ok value
  | _ => refuseKind procedure .complexNumber

/-- The items of a list operand. -/
def listItems (procedure : Procedure) (operand : Expr) : Except Failure (List Expr) :=
  if operand.isList then .ok operand.tail else refuseKind procedure .list

/-- The contents of numeric operands: real numbers as long as none is complex, and
complex numbers throughout as soon as one is. -/
inductive Numbers where
  | real (values : List Float)
  | complex (values : List Complex)
deriving DecidableEq, Repr

/-- The contents of operands that all have to be numbers. -/
def numbers (procedure : Procedure) (operands : List Expr) : Except Failure Numbers :=
  match operands.mapM fun operand => operand.head.number? with
  | some values => .ok (.real values)
  | none =>
      match operands.mapM fun operand => operand.head.complex? with
      | some values => .ok (.complex values)
      | none => refuseKind procedure .number

end FormLang.Procedure
