import FormLang.Evaluation.Evaluate
import FormLang.Source.Reader

/-!
Contract: a session, one environment that programs are evaluated in one by one.

A session keeps the program that was read last. Reading replaces it, and a text that
is no program leaves none behind. Definitions of one program are visible to every
later one until the session is reset.

Owns: reading, evaluating, both in one, and the reset.
-/

set_option autoImplicit false

namespace FormLang

/-- An environment and the program that waits for evaluation. -/
structure Session where
  environment : Environment
  program : Option Expr
deriving DecidableEq

/-- What a source of program text yields. -/
inductive SourceText where
  | text (content : String)
  /-- The text could not be obtained, for the given reason. -/
  | unreadable (reason : String)
deriving DecidableEq, Repr

def notText : String := "stream did not contain valid UTF-8"

/-- The text that bytes encode. -/
def SourceText.ofBytes (bytes : ByteArray) : SourceText :=
  match String.fromUTF8? bytes with
  | some content => .text content
  | none => .unreadable notText

namespace Session

def fresh : Session := ⟨.initial, none⟩

def load (session : Session) (text : String) : Except SyntaxError Unit × Session :=
  match Source.read text with
  | .ok program => (.ok (), { session with program := some program })
  | .error error => (.error error, { session with program := none })

def loadFrom (session : Session) : SourceText → Except SyntaxError Unit × Session
  | .text content => session.load content
  | .unreadable reason => (.error (.unreadable reason), { session with program := none })

def evaluate (budget : Nat) (session : Session) :
    Option (Except Failure Expr × Session) :=
  match session.program with
  | none => some (.error .noProgram, session)
  | some program =>
      (FormLang.evaluate budget program session.environment).map
        fun (outcome, environment) => (outcome, { session with environment })

def run (budget : Nat) (session : Session) (text : String) :
    Option (Except ProgramError Expr × Session) :=
  match session.load text with
  | (.error error, loaded) => some (.error (.syntactic error), loaded)
  | (.ok (), loaded) =>
      (loaded.evaluate budget).map fun (outcome, left) =>
        (outcome.mapError ProgramError.semantic, left)

def reset (_ : Session) : Session := fresh

end Session

end FormLang
