import FormLang.Console.Blank
import FormLang.Console.Interrupts
import FormLang.Console.Lines
import FormLang.Kernel.Worker

/-!
Contract: the dialogue of a user with a kernel, line by line.

Before each line the interrupts are cleared and the prompt is written. A line is
blank, a command to the kernel or a program. A program goes to the kernel as it
stands, and the next answer that is due is written: a value to the output, an error
to the errors. Two interrupts in a row end the dialogue in place of the answer.

Owns: the commands, one turn of the dialogue, and the whole of it.
-/

set_option autoImplicit false

namespace FormLang.Console

def prompt : String := "plotscript> "

def notRunning : String := "interpreter kernel not running"

def errorLine (message : String) : String :=
  "Error: " ++ message ++ "\n"

/-- What a line asks for. -/
inductive Request where
  | nothing
  | start
  | stop
  | reset
  | exit
  | program
deriving DecidableEq, Repr

/-- What a line asks for, by its text without the white space around it. -/
def Request.ofLine (line : String) : Request :=
  match trim line with
  | "" => .nothing
  | "%start" => .start
  | "%stop" => .stop
  | "%reset" => .reset
  | "%exit" => .exit
  | _ => .program

/-- Why a dialogue ended. -/
inductive Exit where
  | endOfInput
  | exitCommand
  | interrupted
  /-- A line was no text. -/
  | notText
deriving DecidableEq, Repr

/-- What the reading of one line led to: the kernel, the interrupts, what was
written after the prompt, and the end of the dialogue if it was the end. -/
structure Turn where
  kernel : Kernel
  interrupts : Interrupts
  output : String
  errors : String
  exit : Option Exit
deriving DecidableEq

def Turn.silent (kernel : Kernel) (interrupts : Interrupts) (exit : Option Exit) : Turn :=
  ⟨kernel, interrupts, "", "", exit⟩

/-- Write the next answer of the kernel. -/
def writeAnswer (kernel : Kernel) (interrupts : Interrupts) : Turn :=
  match kernel.receive? with
  | some (.value expression, left) => ⟨left, interrupts, expression.text ++ "\n", "", none⟩
  | some (.failure message, left) => ⟨left, interrupts, "", errorLine message, none⟩
  | none => ⟨kernel, interrupts, "", errorLine notRunning, none⟩

/-- Submit a program and, unless the user asks for the end, write the next answer.
Without a worker the program is refused. -/
def submitProgram (budget : Nat) (kernel : Kernel) (interrupts : Interrupts)
    (program : String) : Option Turn :=
  if kernel.isActive then
    ((kernel.submit program).settle budget).map fun settled =>
      if interrupts.exitRequested then .silent settled interrupts (some .interrupted)
      else writeAnswer settled interrupts
  else
    some ⟨kernel, interrupts, "", errorLine notRunning, none⟩

def takeTurn (budget : Nat) (kernel : Kernel) (line : Line) : Option Turn :=
  let interrupts := Interrupts.cleared.deliverMany line.interrupts
  match line.text with
  | none => some (.silent kernel interrupts (some .notText))
  | some text =>
      match Request.ofLine text with
      | .nothing => some (.silent kernel interrupts none)
      | .start =>
          (kernel.start.settle budget).map fun started => .silent started interrupts none
      | .stop =>
          (kernel.stop budget).map fun stopped => .silent stopped interrupts none
      | .reset => do
          let fresh ← kernel.reset budget
          let settled ← fresh.settle budget
          return .silent settled interrupts none
      | .exit => some (.silent kernel interrupts (some .exitCommand))
      | .program => submitProgram budget kernel interrupts text

/-- A dialogue that has ended: all that was written, and what is left. -/
structure Transcript where
  output : String
  errors : String
  exit : Exit
  kernel : Kernel
  interrupts : Interrupts
deriving DecidableEq

/-- The dialogue over the lines of an input. -/
def dialogue (budget : Nat) (kernel : Kernel) : List Line → Option Transcript
  | [] => some ⟨prompt, "", .endOfInput, kernel, .cleared⟩
  | line :: rest => do
      let turn ← takeTurn budget kernel line
      match turn.exit with
      | some exit =>
          return ⟨prompt ++ turn.output, turn.errors, exit, turn.kernel, turn.interrupts⟩
      | none =>
          let following ← dialogue budget turn.kernel rest
          return { following with
            output := prompt ++ turn.output ++ following.output
            errors := turn.errors ++ following.errors }

end FormLang.Console
