import FormLang.CommandLine.Report

/-!
Contract: the program itself.

Owns: the reading of standard input, files and arguments, and the writing of what
the command line reports. Everything that is decided is decided elsewhere.
-/

set_option autoImplicit false

namespace FormLang.CommandLine

/-- How deeply evaluations may be nested. -/
def evaluationBudget : Nat := 50000

/-- What is reported when the budget does not suffice. -/
def exhaustedReport : Report :=
  .failed "evaluation is nested too deeply"

/-- The fault that an error of the system stands for. -/
def faultOf : IO.Error → ReadFault
  | .noFileOrDirectory .. => .missing
  | .inappropriateType _ code details =>
      if code = 21 then .directory
      else if code = 20 then .notDirectory
      else .other details
  | .invalidArgument _ code details => if code = 36 then .nameTooLong else .other details
  | error => .other (toString error)

def readFile (path : String) : IO (Except ReadFault ByteArray) := do
  try
    return .ok (← IO.FS.readBinFile path)
  catch error =>
    return .error (faultOf error)

def writeReport (report : Report) : IO UInt32 := do
  IO.print report.output
  IO.eprint report.errors
  return report.code

/-- Read the next line of the standard input, none at its end. -/
def readLine (input : IO.FS.Stream) : IO (Option Console.Line) := do
  try
    let line ← input.getLine
    return (Console.linesOf [⟨line.toUTF8, 0⟩]).head?
  catch _ =>
    return some ⟨none, 0⟩

/-- Hold the dialogue line by line, so that each answer is written before the next
line is read. -/
partial def converse (input : IO.FS.Stream) (kernel : Kernel) : IO UInt32 := do
  IO.print Console.prompt
  (← IO.getStdout).flush
  match ← readLine input with
  | none => return success
  | some line =>
      match Console.takeTurn evaluationBudget kernel line with
      | none => writeReport exhaustedReport
      | some turn =>
          IO.print turn.output
          IO.eprint turn.errors
          match turn.exit with
          | none => converse input turn.kernel
          | some .notText => writeReport (.failed notText)
          | some _ => return success

def perform (arguments : List String) : IO UInt32 := do
  match Invocation.ofArguments arguments with
  | .dialogue => converse (← IO.getStdin) (Kernel.create none).start
  | .program text => writeReport ((answerProgram evaluationBudget text).getD exhaustedReport)
  | .file path =>
      let contents ← readFile path
      writeReport ((answerFile evaluationBudget path contents).getD exhaustedReport)
  | .misuse => writeReport .misuse

end FormLang.CommandLine

def main (arguments : List String) : IO UInt32 :=
  FormLang.CommandLine.perform arguments
