import FormLang.CommandLine.Report
import FormLang.Proofs.Console.DueAnswers
import FormLang.Proofs.Source.Lines

/-!
Contract: all front ends give the same answer to a program.

A program on one line is answered by a fresh session. So is a program that is submitted to a new
kernel, given as an argument, read from a file, or typed as the only line of a dialogue, where
the end of the line is cut off first.

Owns: what a line leaves of a program, what is reported for an answer, and the theorem about all
front ends.
-/

set_option autoImplicit false

namespace FormLang

/-! ## The end of a line -/

theorem Source.read_return (text : String) : Source.read (text ++ "\r") = Source.read text := by
  rw [read, tokenize_return, ← read]

/-- A carriage return behind a program changes neither its answer nor the session. -/
theorem Session.respond_return (budget : Nat) (session : Session) (program : String) :
    session.respond budget (program ++ "\r") = session.respond budget program := by
  unfold respond run load
  rw [Source.read_return]

/-- What a fresh session answers to a program. -/
def Session.freshAnswer (budget : Nat) (program : String) : Option Answer :=
  (fresh.run budget program).map fun (outcome, _) => Answer.ofOutcome outcome

theorem Session.respond_fresh (budget : Nat) (program : String) :
    (fresh.respond budget program).map Prod.fst = freshAnswer budget program := by
  rw [respond, Option.map_map]
  rfl

theorem Session.answerOnce_none (budget : Nat) (program : String) :
    answerOnce budget none program = freshAnswer budget program := by
  rw [← respond_fresh, answerOnce, prepared, Option.bind_eq_bind, Option.bind_some]
  cases fresh.respond budget program <;> rfl

theorem Session.freshAnswer_return (budget : Nat) (program : String) :
    freshAnswer budget (program ++ "\r") = freshAnswer budget program := by
  rw [← respond_fresh, ← respond_fresh, respond_return]

namespace Console

/-- The white space around a line includes a carriage return behind it. -/
theorem trim_return (line : String) : trim (line ++ "\r") = trim line := by
  have characters : (line ++ "\r").toList = line.toList ++ ['\r'] := String.toList_append
  have white : isWhiteSpace '\r' = true := by decide
  unfold trim
  dsimp only
  rw [characters, List.dropWhile_append]
  by_cases blank : (line.toList.dropWhile isWhiteSpace).isEmpty = true
  · rw [if_pos blank, List.isEmpty_iff.mp blank]
    rfl
  · rw [if_neg blank, List.reverse_append, List.reverse_singleton, List.singleton_append,
      List.dropWhile_cons_of_pos white]

theorem ofLine_return (line : String) : Request.ofLine (line ++ "\r") = Request.ofLine line := by
  unfold Request.ofLine
  rw [trim_return]

/-- A line is a program unless it is blank or one of the commands. -/
theorem ofLine_eq_program {line : String}
    (isProgram : trim line ∉ ["", "%start", "%stop", "%reset", "%exit"]) :
    Request.ofLine line = .program := by
  unfold Request.ofLine
  generalize trim line = trimmed at isProgram ⊢
  split
  · exact absurd (by simp) isProgram
  · exact absurd (by simp) isProgram
  · exact absurd (by simp) isProgram
  · exact absurd (by simp) isProgram
  · exact absurd (by simp) isProgram
  · rfl

/-- A line with a program on it is not empty. -/
theorem ne_empty_of_program {line : String} (request : Request.ofLine line = .program) :
    line ≠ "" := by
  rintro rfl
  exact absurd request (by decide)

end Console

/-! ## A new kernel -/

namespace Kernel

/-- A new kernel that has been started. -/
def started : Kernel := (create none).start

/-- The first program of a new kernel is answered by a fresh session. -/
theorem settle_first (budget : Nat) (program : String) :
    (started.submit program).settle budget =
      (Session.fresh.respond budget program).map fun (answer, left) =>
        working none [] [answer] left .fetching := by
  have submitted : started.submit program = working none [program] [] .fresh .preparing := rfl
  rw [submitted, settle_preparing, Session.prepared, Option.bind_some, Session.respondEach]
  cases Session.fresh.respond budget program <;> rfl

/-- However the worker proceeds, the first answer is that of a session for this program only. -/
theorem first_answer {startup : Option String} {program : String} {waited left : Kernel}
    {answer : Answer} (works : ((create startup).start.submit program).WorksOn waited)
    (taken : waited.receive? = some (answer, left)) :
    ∃ budget, Session.answerOnce budget startup program = some answer := by
  obtain ⟨course, leads, kernel, submitted, received⟩ : ∃ course,
      Course.Leads (.create startup) course ∧
        course.kernel = (create startup).start.submit program ∧
        course.submitted = [program] ∧ course.received = [] :=
    ⟨_, (Relation.ReflTransGen.single (.start rfl)).tail (.submit _ program), rfl, rfl, rfl⟩
  rw [← kernel] at works
  obtain ⟨later, worked, rfl⟩ := Course.worksOn_leads works
  have answered := (leads.trans worked.leads).tail (.receive taken)
  have inOrder := (Course.Lawful.leads answered).answeredInOrder.front
  rw [Course.leads_startup answered] at inOrder
  dsimp only at inOrder
  rw [worked.submitted, worked.received, submitted, received] at inOrder
  exact inOrder.answerOnce

end Kernel

namespace CommandLine

/-- What is reported for a dialogue in which one program is answered. -/
def Report.inDialogue (answer : Answer) : Report :=
  ⟨success, Console.prompt ++ (Report.ofAnswer answer).output ++ Console.prompt,
    (Report.ofAnswer answer).errors⟩

/-- A single argument is the path of a file, whatever it is. -/
theorem ofArguments_single (path : String) : Invocation.ofArguments [path] = .file path := by
  unfold Invocation.ofArguments
  split
  · next impossible => cases impossible
  · next impossible => cases impossible
  · next same => rw [List.singleton_inj.mp same]
  · next notSingle => exact absurd rfl (notSingle path)

/-- A dialogue whose only line is a program. -/
theorem dialogue_program {line : String} (request : Console.Request.ofLine line = .program)
    (budget : Nat) :
    (Console.dialogue budget Kernel.started [.quiet line]).map Report.ofTranscript =
      (Session.freshAnswer budget line).map Report.inDialogue := by
  have running : Kernel.started.isActive = true := rfl
  rw [Console.dialogue, Console.takeTurn, Console.Line.quiet, ← Session.respond_fresh]
  dsimp only
  rw [request, Console.cleared_deliverMany, Console.submitProgram, if_pos running,
    Kernel.settle_first, Console.cleared_exitRequested]
  cases Session.fresh.respond budget line with
  | none => rfl
  | some ending =>
      obtain ⟨answer, left⟩ := ending
      cases answer with
      | value expression => rfl
      | failure message =>
          exact congrArg (fun errors => some (Report.mk success _ errors)) String.append_empty

/-- A conversation whose only line is a program, whatever the worker does meanwhile. -/
theorem converses_program {line : String} (request : Console.Request.ofLine line = .program)
    {prompts : List Kernel} {written : List Console.Written} {exit : Console.Exit}
    (converses : Console.Converses Kernel.started [line] prompts written exit) :
    exit = .endOfInput ∧ ∃ budget answer, Session.freshAnswer budget line = some answer ∧
      written = [.ofAnswer answer] := by
  have leads : Kernel.Course.Leads (.create none) (Kernel.Course.create none).start :=
    .single (.start rfl)
  obtain ⟨courses, recounts, -⟩ := Console.converses_recounts leads rfl converses
  have isReady : Session.prepared 0 none = some .fresh := rfl
  obtain ⟨budget, direct⟩ := recounts.directly isReady leads rfl rfl
    (Console.keeps_first isReady leads rfl rfl)
  have running : (Kernel.Course.create none).start.kernel.isActive = true := rfl
  rw [if_pos running, Console.directly_program [] request] at direct
  obtain ⟨⟨outcome, left⟩, ran, same⟩ := Option.bind_eq_some_iff.mp direct
  cases same
  exact ⟨rfl, budget, .ofOutcome outcome, by rw [Session.freshAnswer, ran]; rfl, rfl⟩

/-- All front ends give the same answer to a program on one line, or none where it has no end:
a fresh session, a session for this program only, a new kernel, and the command line with the
program as an argument, in a file, or as the only line of the input, with and without a line feed
behind it. However the worker proceeds, the first answer of a kernel and what is written for the
line are no other. The command line writes a value to the output or a message to the errors,
and the dialogue writes the same there, between two prompts. -/
theorem front_ends_agree {program : String} (noLineFeed : '\n' ∉ program.toList)
    (isProgram : Console.trim program ∉ ["", "%start", "%stop", "%reset", "%exit"]) :
    (∀ budget,
      Session.answerOnce budget none program = Session.freshAnswer budget program ∧
      (((Kernel.started.submit program).settle budget).bind fun settled =>
        settled.receive?.map Prod.fst) = Session.freshAnswer budget program ∧
      ∀ readFile input,
        run budget readFile input ["-e", program] =
          (Session.freshAnswer budget program).map Report.ofAnswer ∧
        (∀ path, readFile path = .ok program.toUTF8 → run budget readFile input [path] =
          (Session.freshAnswer budget program).map Report.ofAnswer) ∧
        run budget readFile program.toUTF8 [] =
          (Session.freshAnswer budget program).map Report.inDialogue ∧
        run budget readFile (program ++ "\n").toUTF8 [] =
          (Session.freshAnswer budget program).map Report.inDialogue) ∧
    (∀ waited left answer, (Kernel.started.submit program).WorksOn waited →
      waited.receive? = some (answer, left) →
        ∃ budget, Session.freshAnswer budget program = some answer) ∧
    (∀ line prompts written exit, program = line ∨ program = line ++ "\r" →
      Console.Converses Kernel.started [line] prompts written exit →
        exit = .endOfInput ∧ ∃ budget answer, Session.freshAnswer budget program = some answer ∧
          written = [.ofAnswer answer]) ∧
    (∀ expression,
      Report.ofAnswer (.value expression) = ⟨0, expression.text ++ "\n", ""⟩) ∧
    ∀ message, Report.ofAnswer (.failure message) = ⟨1, "", "Error: " ++ message ++ "\n"⟩ := by
  have request := Console.ofLine_eq_program isProgram
  -- What is left of the program when its line is read is answered in the same way.
  have ofLine : ∀ line, program = line ∨ program = line ++ "\r" →
      Console.Request.ofLine line = .program ∧
        ∀ budget, Session.freshAnswer budget line = Session.freshAnswer budget program := by
    rintro line (rfl | rfl)
    · exact ⟨request, fun _ => rfl⟩
    · exact ⟨(Console.ofLine_return line).symm.trans request,
        fun budget => (Session.freshAnswer_return budget line).symm⟩
  have dialogueOf : ∀ budget input line, Console.linesOf [⟨input, 0⟩] = [.quiet line] →
      (program = line ∨ program = line ++ "\r") →
      holdDialogue budget input = (Session.freshAnswer budget program).map Report.inDialogue := by
    intro budget input line lines same
    obtain ⟨lineRequest, sameAnswer⟩ := ofLine line same
    rw [holdDialogue, lines, ← sameAnswer budget]
    exact dialogue_program lineRequest budget
  refine ⟨fun budget => ⟨Session.answerOnce_none budget program, ?_, fun readFile input =>
    ⟨?_, ?_, ?_, ?_⟩⟩, ?_, ?_, fun _ => rfl, fun _ => rfl⟩
  · rw [Kernel.settle_first, ← Session.respond_fresh]
    cases Session.fresh.respond budget program <;> rfl
  · rw [← Session.answerOnce_none]
    rfl
  · intro path contents
    rw [run, ofArguments_single]
    dsimp only
    rw [contents, answerFile, SourceText.ofBytes_toUTF8, ← Session.answerOnce_none]
    rfl
  · exact dialogueOf budget _ program
      (Console.linesOf_text noLineFeed (Console.ne_empty_of_program request)) (.inl rfl)
  · obtain ⟨line, lines, same⟩ := Console.linesOf_ended noLineFeed
    exact dialogueOf budget _ line lines same
  · intro waited left answer works taken
    obtain ⟨budget, answered⟩ := Kernel.first_answer works taken
    exact ⟨budget, (Session.answerOnce_none budget program).symm.trans answered⟩
  · intro line prompts written exit same converses
    obtain ⟨lineRequest, sameAnswer⟩ := ofLine line same
    obtain ⟨ended, budget, answer, answered, wrote⟩ := converses_program lineRequest converses
    exact ⟨ended, budget, answer, (sameAnswer budget).symm.trans answered, wrote⟩

/-- A program with blanks around it, a comment and a carriage return at its end. -/
def nestedText : String := "\t(list (list)) ; nested\r"

/-- The command line and the dialogue write the same line for it. -/
theorem nestedText_answered_alike :
    '\n' ∉ nestedText.toList ∧
    Console.trim nestedText ∉ ["", "%start", "%stop", "%reset", "%exit"] ∧
    ∀ readFile input,
      run 2 readFile input ["-e", nestedText] = some ⟨0, "(())\n", ""⟩ ∧
      run 2 (fun _ => .ok nestedText.toUTF8) input ["nested"] = some ⟨0, "(())\n", ""⟩ ∧
      run 2 readFile (nestedText ++ "\n").toUTF8 [] =
        some ⟨0, "plotscript> (())\nplotscript> ", ""⟩ := by
  have noLineFeed : '\n' ∉ nestedText.toList := by decide
  have isProgram : Console.trim nestedText ∉ ["", "%start", "%stop", "%reset", "%exit"] := by
    decide +kernel
  have answered : Session.freshAnswer 2 nestedText = some (.value (.list [.list []])) := by
    decide +kernel
  refine ⟨noLineFeed, isProgram, fun readFile input => ?_⟩
  have alone : (Session.freshAnswer 2 nestedText).map Report.ofAnswer =
      some ⟨0, "(())\n", ""⟩ := by
    rw [answered]
    decide +kernel
  have inDialogue : (Session.freshAnswer 2 nestedText).map Report.inDialogue =
      some ⟨0, "plotscript> (())\nplotscript> ", ""⟩ := by
    rw [answered]
    decide +kernel
  obtain ⟨-, -, reports⟩ := (front_ends_agree noLineFeed isProgram).1 2
  obtain ⟨asArgument, -, -, asLine⟩ := reports readFile input
  obtain ⟨-, inFile, -, -⟩ := reports (fun _ => .ok nestedText.toUTF8) input
  exact ⟨asArgument.trans alone, (inFile "nested" rfl).trans alone, asLine.trans inDialogue⟩

end CommandLine

end FormLang
