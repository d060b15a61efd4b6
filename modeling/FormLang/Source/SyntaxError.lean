/-!
Contract: the ways in which a program text fails to be a program.

Owns: the causes and their messages.
-/

set_option autoImplicit false

namespace FormLang

/-- Why a text is no program. -/
inductive SyntaxError where
  | emptyInput
  /-- The text starts with a lexeme in place of a parenthesis. -/
  | bareAtom (lexeme : String)
  | unbalanced
  | emptyForm
  | formHead
  | trailingInput
  /-- A lexeme starts like a number and is none. -/
  | malformedNumber (lexeme : String)
  /-- A piece of text belongs to no token. -/
  | invalidToken (piece : String)
  | unreadable (reason : String)
deriving DecidableEq, Repr

def SyntaxError.message : SyntaxError → String
  | .emptyInput => "no program to parse"
  | .bareAtom lexeme =>
      "top-level expression must be parenthesized, found `" ++ lexeme ++ "`"
  | .unbalanced => "unbalanced parentheses"
  | .emptyForm => "empty expression `()`"
  | .formHead => "expression head must be an atom"
  | .trailingInput => "unexpected input after a complete expression"
  | .malformedNumber lexeme => "malformed number `" ++ lexeme ++ "`"
  | .invalidToken piece => "unrecognized input `" ++ piece ++ "`"
  | .unreadable reason => "could not read program: " ++ reason

end FormLang
