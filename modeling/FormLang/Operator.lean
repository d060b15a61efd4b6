/-!
Contract: the names that stand for operations.

A special form decides itself which of its operands are evaluated. A procedure is
called with evaluated arguments. No name stands for both.

Owns: the eight special forms, the twenty-one procedures, their names, and the
search for a special form by its name.
Does not own: what the operations do.
-/

set_option autoImplicit false

namespace FormLang

inductive SpecialForm where
  | sequence
  | define
  | list
  | lambda
  | apply
  | map
  | setProperty
  | getProperty
deriving DecidableEq, Repr

def SpecialForm.name : SpecialForm → String
  | .sequence => "begin"
  | .define => "define"
  | .list => "list"
  | .lambda => "lambda"
  | .apply => "apply"
  | .map => "map"
  | .setProperty => "set-property"
  | .getProperty => "get-property"

def SpecialForm.all : List SpecialForm :=
  [.sequence, .define, .list, .lambda, .apply, .map, .setProperty, .getProperty]

def SpecialForm.named? (name : String) : Option SpecialForm :=
  SpecialForm.all.find? fun form => form.name == name

inductive Procedure where
  | add
  | subtract
  | multiply
  | divide
  | squareRoot
  | power
  | logarithm
  | sine
  | cosine
  | tangent
  | realPart
  | imaginaryPart
  | magnitude
  | argument
  | conjugate
  | first
  | rest
  | length
  | append
  | join
  | range
deriving DecidableEq, Repr

def Procedure.name : Procedure → String
  | .add => "+"
  | .subtract => "-"
  | .multiply => "*"
  | .divide => "/"
  | .squareRoot => "sqrt"
  | .power => "^"
  | .logarithm => "ln"
  | .sine => "sin"
  | .cosine => "cos"
  | .tangent => "tan"
  | .realPart => "real"
  | .imaginaryPart => "imag"
  | .magnitude => "mag"
  | .argument => "arg"
  | .conjugate => "conj"
  | .first => "first"
  | .rest => "rest"
  | .length => "length"
  | .append => "append"
  | .join => "join"
  | .range => "range"

def Procedure.all : List Procedure :=
  [.add, .subtract, .multiply, .divide, .squareRoot, .power, .logarithm, .sine, .cosine,
    .tangent, .realPart, .imaginaryPart, .magnitude, .argument, .conjugate, .first, .rest,
    .length, .append, .join, .range]

/-- Anything that is called by name with operands. -/
inductive Operator where
  | form (specialForm : SpecialForm)
  | procedure (builtIn : Procedure)
deriving DecidableEq, Repr

def Operator.name : Operator → String
  | .form specialForm => specialForm.name
  | .procedure builtIn => builtIn.name

end FormLang
