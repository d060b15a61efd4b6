import FormLang.Numeric.Complex
import FormLang.Numeric.PlainText

/-!
Contract: atoms, the smallest data of the language.

Owns: the five kinds of atoms, the constructors that remove residue from numeric
content, the agreement of two atoms, and their text.
Does not own: how a lexeme of a program becomes an atom.
-/

set_option autoImplicit false

namespace FormLang

open Numeric

/-- The smallest data: nothing, a real number, a complex number, a symbol, or a
string, which is kept without its quotes. -/
inductive Atom where
  | none
  | number (value : Float)
  | complex (value : Complex)
  | symbol (name : String)
  | string (content : String)
deriving DecidableEq, Repr

/-- Whether the text of a string is written between its quotes. -/
inductive Quoting where
  | quoted
  | bare
deriving DecidableEq, Repr

namespace Atom

/-- The atom of a real number, without residue. -/
def ofNumber (value : Float) : Atom :=
  .number (clearResidue value)

/-- The atom of a complex number, without residue in either component. -/
def ofComplex (value : Complex) : Atom :=
  .complex value.clearResidue

def number? : Atom → Option Float
  | .number value => some value
  | _ => Option.none

/-- The content of a number of either kind, as a complex number. -/
def complex? : Atom → Option Complex
  | .number value => some (.ofReal value)
  | .complex value => some value
  | _ => Option.none

def symbol? : Atom → Option String
  | .symbol name => some name
  | _ => Option.none

def string? : Atom → Option String
  | .string content => some content
  | _ => Option.none

/-- Two atoms agree if they are of one kind and their contents are the same, where
numeric contents only have to be close. A real number never agrees with a complex
one, and no atom with a number that is infinite or none agrees with itself. -/
def agrees : Atom → Atom → Bool
  | .none, .none => true
  | .number left, .number right => close left right
  | .complex left, .complex right => left.close right
  | .symbol left, .symbol right => left == right
  | .string left, .string right => left == right
  | _, _ => false

def render (quoting : Quoting) : Atom → String
  | .none => "NONE"
  | .number value => plainText value
  | .complex value => plainText value.re ++ "," ++ plainText value.im
  | .symbol name => name
  | .string content =>
      match quoting with
      | .quoted => "\"" ++ content ++ "\""
      | .bare => content

end Atom

end FormLang
