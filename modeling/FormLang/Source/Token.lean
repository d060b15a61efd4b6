/-!
Contract: the tokens of a program text.

Owns: the token type and the character classes that separate tokens.
-/

set_option autoImplicit false

namespace FormLang.Source

/-- A token: a parenthesis or a lexeme, the text of an atom. -/
inductive Token where
  | opening
  | closing
  | lexeme (text : String)
deriving DecidableEq, Repr

def Token.text : Token → String
  | .opening => "("
  | .closing => ")"
  | .lexeme text => text

/-- The blank characters that end a quoted span: all but the space. -/
def isBreak (character : Char) : Bool :=
  character == '\t' || character == '\r' || character == '\n' || character == '\x0c'

/-- The blank characters: space, tab, carriage return, line feed and form feed.
Any other white space is an ordinary character of a lexeme. -/
def isBlank (character : Char) : Bool :=
  character == ' ' || isBreak character

end FormLang.Source
