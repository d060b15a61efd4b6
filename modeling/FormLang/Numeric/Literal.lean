/-!
Contract: decimal literals and the numbers they stand for.

A literal is an optional sign, digits with at most one point among, before or
after them, and optionally an exponent: `e` or `E`, an optional sign and digits.
There is at least one digit in front of the exponent and at least one in it.

Owns: the reading of a literal and its value, rounded to the nearest binary64
number (infinite above the range, zero below it).
-/

set_option autoImplicit false

namespace FormLang.Numeric

/-- A decimal literal taken apart: its value is
`± (integral fraction as one integer) * 10 ^ (exponent - number of fraction digits)`. -/
structure Literal where
  negative : Bool
  integral : List Char
  fraction : List Char
  exponent : Int
deriving DecidableEq, Repr

/-- Take an optional sign off the front. The flag tells whether it is a minus sign. -/
def takeSign : List Char → Bool × List Char
  | '-' :: rest => (true, rest)
  | '+' :: rest => (false, rest)
  | characters => (false, characters)

def digitsValue (digits : List Char) : Nat :=
  digits.foldl (fun value digit => 10 * value + (digit.toNat - '0'.toNat)) 0

/-- The digits with their optional point, and what follows them. -/
def takeDecimals (characters : List Char) : List Char × List Char × List Char :=
  let integral := characters.takeWhile Char.isDigit
  match characters.dropWhile Char.isDigit with
  | '.' :: rest => (integral, rest.takeWhile Char.isDigit, rest.dropWhile Char.isDigit)
  | rest => (integral, [], rest)

/-- An optional exponent that ends the literal; an absent one is zero. -/
def readExponent : List Char → Option Int
  | [] => some 0
  | mark :: rest =>
      let (negative, digits) := takeSign rest
      if (mark = 'e' ∨ mark = 'E') ∧ digits ≠ [] ∧ digits.all Char.isDigit then
        some (if negative then -(digitsValue digits : Int) else digitsValue digits)
      else
        none

def Literal.read? (characters : List Char) : Option Literal :=
  let (negative, unsigned) := takeSign characters
  let (integral, fraction, rest) := takeDecimals unsigned
  if integral = [] ∧ fraction = [] then
    none
  else
    (readExponent rest).map fun exponent => { negative, integral, fraction, exponent }

def Literal.value (literal : Literal) : Float :=
  let power := literal.exponent - literal.fraction.length
  let magnitude :=
    Float.ofScientific (digitsValue (literal.integral ++ literal.fraction))
      (decide (power < 0)) power.natAbs
  if literal.negative then -magnitude else magnitude

/-- The number that a text denotes, if it is a decimal literal. -/
def readNumber? (text : String) : Option Float :=
  (Literal.read? text.toList).map Literal.value

end FormLang.Numeric
