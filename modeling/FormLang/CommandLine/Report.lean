import FormLang.CommandLine.Folder
import FormLang.Console.Dialogue

/-!
Contract: the command line.

Without arguments the program holds a dialogue over the standard input. With `-e`
and a program, or with the path of a file that holds one, it answers that program
alone. Anything else is a misuse.

Owns: what the arguments ask for, and what is written and returned for it.
-/

set_option autoImplicit false

namespace FormLang.CommandLine

/-- What the arguments ask for. -/
inductive Invocation where
  | dialogue
  | program (text : String)
  | file (path : String)
  | misuse
deriving DecidableEq, Repr

def Invocation.ofArguments : List String → Invocation
  | [] => .dialogue
  | ["-e", text] => .program text
  | [path] => .file path
  | _ => .misuse

/-- What a run of the program writes, and the code that it returns. -/
structure Report where
  code : UInt32
  output : String
  errors : String
deriving DecidableEq, Repr

def success : UInt32 := 0

def failure : UInt32 := 1

def usage : String := "usage: plotscript [<file> | -e <program>]"

def Report.failed (message : String) : Report :=
  ⟨failure, "", Console.errorLine message⟩

def Report.misuse : Report :=
  ⟨failure, "", Console.errorLine "incorrect number of command line arguments" ++ usage ++ "\n"⟩

def Report.ofAnswer : Answer → Report
  | .value expression => ⟨success, expression.text ++ "\n", ""⟩
  | .failure message => .failed message

def answerProgram (budget : Nat) (text : String) : Option Report :=
  (Session.answerOnce budget none text).map Report.ofAnswer

/-- The message for a file that cannot be read as text. -/
def unopened (path reason : String) : String :=
  "could not open " ++ path ++ " for reading: " ++ reason

/-- Answer the program in a file. -/
def answerFile (budget : Nat) (path : String) (contents : Except ReadFault ByteArray) :
    Option Report :=
  match contents with
  | .error fault => some (.failed (unopened path fault.message))
  | .ok bytes =>
      match SourceText.ofBytes bytes with
      | .unreadable reason => some (.failed (unopened path reason))
      | .text content => answerProgram budget content

def Report.ofTranscript (transcript : Console.Transcript) : Report :=
  match transcript.exit with
  | .notText =>
      ⟨failure, transcript.output, transcript.errors ++ Console.errorLine notText⟩
  | _ => ⟨success, transcript.output, transcript.errors⟩

/-- Hold a dialogue with a kernel that was just started. -/
def holdDialogue (budget : Nat) (input : ByteArray) : Option Report :=
  (Console.dialogue budget (Kernel.create none).start (Console.linesOf [⟨input, 0⟩])).map
    Report.ofTranscript

/-- Run the program with a standard input and a way to read files. -/
def run (budget : Nat) (readFile : String → Except ReadFault ByteArray) (input : ByteArray)
    (arguments : List String) : Option Report :=
  match Invocation.ofArguments arguments with
  | .dialogue => holdDialogue budget input
  | .program text => answerProgram budget text
  | .file path => answerFile budget path (readFile path)
  | .misuse => some .misuse

end FormLang.CommandLine
