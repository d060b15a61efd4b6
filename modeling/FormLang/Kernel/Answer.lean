import FormLang.Data.Rendering
import FormLang.Session

/-!
Contract: answers, what a front end gets for a program.

Owns: the answer of a session to a program, sessions prepared by a startup program,
and the answer of a session that is used for one program only.
-/

set_option autoImplicit false

namespace FormLang

/-- The answer to a program: its value, or the message of the error. -/
inductive Answer where
  | value (expression : Expr)
  | failure (message : String)
deriving DecidableEq

def Answer.ofOutcome : Except ProgramError Expr → Answer
  | .ok expression => .value expression
  | .error error => .failure error.message

namespace Session

def respond (budget : Nat) (session : Session) (program : String) :
    Option (Answer × Session) :=
  (session.run budget program).map fun (outcome, left) => (Answer.ofOutcome outcome, left)

/-- A fresh session in which the startup program has run, if there is one. Neither
its value nor its failure is answered; what it defined before a failure stays. -/
def prepared (budget : Nat) (startup : Option String) : Option Session :=
  match startup with
  | none => some fresh
  | some program => (fresh.run budget program).map Prod.snd

/-- The answer of a session that is prepared for this program and then dropped. -/
def answerOnce (budget : Nat) (startup : Option String) (program : String) :
    Option Answer := do
  let session ← prepared budget startup
  let (answer, _) ← session.respond budget program
  return answer

end Session

end FormLang
