import FormLang.Data.Atom
import FormLang.Numeric.Literal
import FormLang.Source.SyntaxError

/-!
Contract: the atom that a lexeme stands for.

A decimal literal is a number. Any other lexeme that starts like a number, with an
optional sign, an optional point and a digit, is an error. A lexeme between two
quotes with no further quote is a string, and every other lexeme is a symbol.

Owns: `classify`, with the tests it is made of.
-/

set_option autoImplicit false

namespace FormLang.Source

open Numeric

/-- Drop one leading character if it is in the class. -/
def dropLeading (inClass : Char → Bool) : List Char → List Char
  | [] => []
  | character :: rest => if inClass character then rest else character :: rest

/-- The lexeme starts with an optional sign, an optional point and a digit. -/
def startsLikeNumber (characters : List Char) : Bool :=
  let unsigned := dropLeading (fun character => character == '+' || character == '-') characters
  match dropLeading (· == '.') unsigned with
  | [] => false
  | character :: _ => character.isDigit

/-- What stands between the quote at the front and the quote at the end, if these
are two quotes and the only ones. -/
def unquote? : List Char → Option (List Char)
  | '"' :: rest =>
      match rest.reverse with
      | '"' :: reversed => if '"' ∈ reversed then none else some reversed.reverse
      | _ => none
  | _ => none

def classify (lexeme : String) : Except SyntaxError Atom :=
  match readNumber? lexeme with
  | some value => .ok (.ofNumber value)
  | none =>
      if startsLikeNumber lexeme.toList then
        .error (.malformedNumber lexeme)
      else
        match unquote? lexeme.toList with
        | some content => .ok (.string (String.ofList content))
        | none => .ok (.symbol lexeme)

end FormLang.Source
