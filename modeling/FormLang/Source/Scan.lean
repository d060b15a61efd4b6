import FormLang.Source.Token

/-!
Contract: cutting a program text into tokens.

Blanks separate tokens, and a semicolon starts a comment that runs to the end of
the line. A parenthesis is a token of its own. Everything else belongs to lexemes.
A lexeme is a word, or an optional word followed by a quoted span: inside a span
spaces are kept, a second quote ends span and lexeme, and a parenthesis, a
semicolon or any other blank ends them before it.

Owns: `tokenize`, which always succeeds.
-/

set_option autoImplicit false

namespace FormLang.Source

/-- What the scanner stands in. A lexeme under way is kept in reverse. -/
inductive Mode where
  | gap
  | comment
  | word (reversed : List Char)
  | span (reversed : List Char)
deriving DecidableEq, Repr

def lexemeOf (reversed : List Char) : Token :=
  .lexeme (String.ofList reversed.reverse)

/-- The token that is complete when the text ends in the given mode. -/
def Mode.pending : Mode → List Token
  | .gap => []
  | .comment => []
  | .word reversed => [lexemeOf reversed]
  | .span reversed => [lexemeOf reversed]

/-- Read one character between lexemes: the tokens it completes and the new mode. -/
def Mode.start (character : Char) : List Token × Mode :=
  if isBlank character then ([], .gap)
  else if character = ';' then ([], .comment)
  else if character = '(' then ([.opening], .gap)
  else if character = ')' then ([.closing], .gap)
  else if character = '"' then ([], .span [character])
  else ([], .word [character])

def endsWord (character : Char) : Bool :=
  isBlank character || character == ';' || character == '(' || character == ')'

/-- The character ends a quoted span without belonging to it. -/
def endsSpan (character : Char) : Bool :=
  isBreak character || character == ';' || character == '(' || character == ')'

/-- Read one character: the tokens it completes and the new mode. A character that
ends a lexeme is then read as between lexemes. -/
def Mode.step (mode : Mode) (character : Char) : List Token × Mode :=
  match mode with
  | .gap => Mode.start character
  | .comment => if character = '\n' then ([], .gap) else ([], .comment)
  | .word reversed =>
      if endsWord character then
        let (tokens, next) := Mode.start character
        (lexemeOf reversed :: tokens, next)
      else if character = '"' then
        ([], .span (character :: reversed))
      else
        ([], .word (character :: reversed))
  | .span reversed =>
      if endsSpan character then
        let (tokens, next) := Mode.start character
        (lexemeOf reversed :: tokens, next)
      else if character = '"' then
        ([lexemeOf (character :: reversed)], .gap)
      else
        ([], .span (character :: reversed))

/-- The tokens of the remaining characters, read from a mode. -/
def scan (mode : Mode) : List Char → List Token
  | [] => mode.pending
  | character :: rest =>
      let (tokens, next) := mode.step character
      tokens ++ scan next rest

def tokenize (text : String) : List Token :=
  scan .gap text.toList

end FormLang.Source
