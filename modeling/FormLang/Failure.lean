import FormLang.Data.Atom
import FormLang.Operator
import FormLang.Source.SyntaxError

/-!
Contract: the ways in which an evaluation fails.

A failure is a cause with what a message needs to name it. A call violates its
operator's demands by the number of the operands, by their kind, or by a value
outside the domain; everything else goes wrong in the evaluation itself.

Owns: the causes, their classes and their messages, and the failure of a program
that may already fail to parse.
-/

set_option autoImplicit false

namespace FormLang

inductive OperandCount where
  | exactly (count : Nat)
  | oneOrTwo
deriving DecidableEq, Repr

inductive Requirement where
  | number
  | realNumber
  | complexNumber
  | list
  | stringKey
deriving DecidableEq, Repr

inductive DomainLimit where
  | negativeLogarithm
  | emptyList
  | boundsNotFinite
  | emptyInterval
  | incrementNotPositive
  | tooManyItems (limit : Nat)
deriving DecidableEq, Repr

inductive Failure where
  /-- An operator was called with a number of operands that it does not accept. -/
  | wrongCount (operator : Operator) (expected : OperandCount) (given : Nat)
  /-- An operand is not of the kind that its operator requires. -/
  | wrongKind (operator : Operator) (requirement : Requirement)
  /-- An operand is of the right kind, but outside the domain. -/
  | outsideDomain (operator : Operator) (limit : DomainLimit)
  /-- A symbol that names a procedure stands where a value is needed. -/
  | procedureAsValue (name : String)
  /-- The operands of `apply` or `map` are not in a list. -/
  | operandsNotList (form : SpecialForm)
  | unknownSymbol (name : String)
  /-- The head of an application is bound to nothing. -/
  | unknownProcedure (name : String)
  /-- A leaf of nothing stands where a value is needed. -/
  | nothingAsValue
  | emptySequence
  /-- What a definition is to bind is no bare symbol. -/
  | definedNotSymbol
  | parameterNotSymbol
  /-- A parameter has the name of a procedure or of a special form. -/
  | parameterReserved (name : String)
  | redefinedForm (name : String)
  | redefinedProcedure (name : String)
  | redefinedSymbol (name : String)
  /-- What `apply` or `map` is to call is no procedure. -/
  | calleeNotProcedure (form : SpecialForm)
  /-- The head of an application is no procedure. -/
  | headNotProcedure (head : Atom)
  | noProgram
deriving DecidableEq, Repr

/-- The classes of failures, by which callers tell them apart. -/
inductive FailureClass where
  | arity
  | kind
  | domain
  | unknownSymbol
  | redefinition
  | malformedForm
  | notAProcedure
  | noProgram
deriving DecidableEq, Repr

def OperandCount.message : OperandCount → String
  | .exactly count => Nat.repr count
  | .oneOrTwo => "1 or 2"

def Requirement.message : Requirement → String
  | .number => "argument not a number"
  | .realNumber => "argument not a real number"
  | .complexNumber => "argument not a complex number"
  | .list => "argument not a list"
  | .stringKey => "first argument not a string"

def DomainLimit.message : DomainLimit → String
  | .negativeLogarithm => "cannot take the natural log of a negative number"
  | .emptyList => "argument is an empty list"
  | .boundsNotFinite => "bounds and increment must be finite"
  | .emptyInterval => "begin greater than or equal to end"
  | .incrementNotPositive => "negative or zero increment"
  | .tooManyItems limit => "more than " ++ Nat.repr limit ++ " elements"

namespace Failure

def callPreamble (operator : Operator) : String :=
  "Error in call to " ++ operator.name ++ ": "

def evaluationPreamble : String := "Error during evaluation: "

def quote (name : String) : String :=
  "`" ++ name ++ "`"

def message : Failure → String
  | .wrongCount operator expected given =>
      callPreamble operator ++ "wrong number of arguments, expected " ++ expected.message ++
        " but got " ++ Nat.repr given
  | .wrongKind operator requirement =>
      callPreamble operator ++ "wrong argument kind, " ++ requirement.message
  | .outsideDomain operator limit =>
      callPreamble operator ++ "value out of domain, " ++ limit.message
  | .procedureAsValue name =>
      evaluationPreamble ++ "procedure " ++ quote name ++ " used as a value"
  | .operandsNotList form =>
      evaluationPreamble ++ "second argument to " ++ form.name ++ " not a list"
  | .unknownSymbol name => evaluationPreamble ++ "unknown symbol " ++ quote name
  | .unknownProcedure name => evaluationPreamble ++ "unknown procedure " ++ quote name
  | .nothingAsValue => evaluationPreamble ++ "invalid type in terminal expression"
  | .emptySequence => evaluationPreamble ++ "zero arguments to begin"
  | .definedNotSymbol => evaluationPreamble ++ "first argument to define not a symbol"
  | .parameterNotSymbol => evaluationPreamble ++ "lambda parameters must be symbols"
  | .parameterReserved name =>
      evaluationPreamble ++ "lambda parameter " ++ quote name ++
        " names a procedure or special form"
  | .redefinedForm name =>
      evaluationPreamble ++ "attempt to redefine special form " ++ quote name
  | .redefinedProcedure name =>
      evaluationPreamble ++ "attempt to redefine built-in procedure " ++ quote name
  | .redefinedSymbol name =>
      evaluationPreamble ++ "attempt to redefine symbol " ++ quote name
  | .calleeNotProcedure form =>
      evaluationPreamble ++ "first argument to " ++ form.name ++ " not a procedure"
  | .headNotProcedure head =>
      evaluationPreamble ++ quote (head.render .quoted) ++ " is not a procedure"
  | .noProgram => evaluationPreamble ++ "no program has been parsed"

def failureClass : Failure → FailureClass
  | .wrongCount .. => .arity
  | .wrongKind .. => .kind
  | .outsideDomain .. => .domain
  | .procedureAsValue _ => .kind
  | .operandsNotList _ => .kind
  | .unknownSymbol _ => .unknownSymbol
  | .unknownProcedure _ => .unknownSymbol
  | .nothingAsValue => .malformedForm
  | .emptySequence => .malformedForm
  | .definedNotSymbol => .malformedForm
  | .parameterNotSymbol => .malformedForm
  | .parameterReserved _ => .malformedForm
  | .redefinedForm _ => .redefinition
  | .redefinedProcedure _ => .redefinition
  | .redefinedSymbol _ => .redefinition
  | .calleeNotProcedure _ => .notAProcedure
  | .headNotProcedure _ => .notAProcedure
  | .noProgram => .noProgram

end Failure

/-- Why a program text has no value: it is no program, or its evaluation fails. -/
inductive ProgramError where
  | syntactic (error : SyntaxError)
  | semantic (failure : Failure)
deriving DecidableEq, Repr

def ProgramError.message : ProgramError → String
  | .syntactic error => "Invalid Expression. Could not parse: " ++ error.message
  | .semantic failure => failure.message

end FormLang
