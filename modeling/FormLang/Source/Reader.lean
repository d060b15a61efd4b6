import FormLang.Data.Expr
import FormLang.Source.Lexeme
import FormLang.Source.Scan

/-!
Contract: reading a program text as an expression.

A program is exactly one form. A form is a parenthesis, a lexeme as its head, any
number of lexemes and forms as its tail, and the closing parenthesis. A lexeme in a
tail and a form of that lexeme alone read as the same leaf.

Owns: `read`. Tokens are consumed from left to right, with the forms that are still
open on a stack, so the first violation in reading order is the one reported.
-/

set_option autoImplicit false

namespace FormLang.Source

/-- A form whose closing parenthesis has not been read yet. -/
structure OpenForm where
  head : Atom
  /-- The tail read so far, last child first. -/
  reversed : List Expr

def OpenForm.add (form : OpenForm) (child : Expr) : OpenForm :=
  { form with reversed := child :: form.reversed }

def OpenForm.close (form : OpenForm) : Expr :=
  .form form.head form.reversed.reverse

mutual

/-- Read on behind an opening parenthesis, inside the `outer` forms. -/
def readHead (outer : List OpenForm) : List Token → Except SyntaxError Expr
  | [] => .error .unbalanced
  | .closing :: _ => .error .emptyForm
  | .opening :: _ => .error .formHead
  | .lexeme text :: rest =>
      match classify text with
      | .error error => .error error
      | .ok head => readTail ⟨head, []⟩ outer rest

/-- Read on behind the head or a child of a form, inside the `outer` forms. -/
def readTail (form : OpenForm) (outer : List OpenForm) :
    List Token → Except SyntaxError Expr
  | [] => .error .unbalanced
  | .opening :: rest => readHead (form :: outer) rest
  | .lexeme text :: rest =>
      match classify text with
      | .error error => .error error
      | .ok atom => readTail (form.add (.leaf atom)) outer rest
  | .closing :: rest =>
      match outer with
      | [] => if rest.isEmpty then .ok form.close else .error .trailingInput
      | parent :: outer => readTail (parent.add form.close) outer rest

end

def readTokens : List Token → Except SyntaxError Expr
  | [] => .error .emptyInput
  | .lexeme text :: _ => .error (.bareAtom text)
  | .closing :: _ => .error .unbalanced
  | .opening :: rest => readHead [] rest

def read (text : String) : Except SyntaxError Expr :=
  readTokens (tokenize text)

end FormLang.Source
