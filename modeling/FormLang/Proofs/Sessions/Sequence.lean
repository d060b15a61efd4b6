import FormLang.Proofs.Sessions
import FormLang.Proofs.Source.Grammar
import FormLang.Proofs.Source.Lines
import Mathlib.Data.List.Forall2

/-!
Contract: programs one by one, and the one program that evaluates them in order.

A session that runs program after program and stops at the first failure does what it does
with a single program: a sequence whose items are the texts of the programs, each on lines of
its own. What the texts contain does not matter, since a line feed ends what a text leaves open.

Owns: runs of several programs, the text of their sequence, how that text is read, and the
theorem that both come to the same.
-/

set_option autoImplicit false

namespace FormLang

namespace Source

/-- The text of a program that evaluates the programs of other texts in order. -/
def sequenceText (texts : List String) : String :=
  String.intercalate "\n" ("(begin" :: texts ++ [")"])

/-- Programs are read from the tokens of forms. -/
theorem exists_phrases {texts : List String} {programs : List Expr}
    (reads : List.Forall₂ (fun text program => read text = .ok program) texts programs) :
    ∃ phrases, Phrase.tokensOfEach phrases = texts.flatMap tokenize ∧
      Phrase.treeOfEach phrases = .ok programs := by
  induction reads with
  | nil => exact ⟨[], rfl, rfl⟩
  | cons first _ inductionHypothesis =>
      obtain ⟨head, items, tokens, tree⟩ := readTokens_eq_ok_iff.mp first
      obtain ⟨phrases, others, trees⟩ := inductionHypothesis
      refine ⟨.form head items :: phrases, ?_, ?_⟩
      · rw [Phrase.tokensOfEach, tokens, others, List.flatMap_cons]
      · rw [Phrase.treeOfEach, tree, trees]
        rfl

/-- The text of a sequence is read as the sequence of the programs. -/
theorem read_sequenceText {texts : List String} {programs : List Expr}
    (reads : List.Forall₂ (fun text program => read text = .ok program) texts programs) :
    read (sequenceText texts) = .ok (.form (.symbol SpecialForm.sequence.name) programs) := by
  obtain ⟨phrases, tokens, trees⟩ := exists_phrases reads
  refine readTokens_eq_ok_iff.mpr ⟨SpecialForm.sequence.name, phrases, ?_, ?_⟩
  · have opening : tokenize "(begin" = [.opening, .lexeme "begin"] := by decide +kernel
    have closing : tokenize ")" = [.closing] := by decide +kernel
    rw [sequenceText, tokenize_lines, List.cons_append, List.flatMap_cons, List.flatMap_append,
      ← tokens, opening, List.flatMap_cons, closing]
    rfl
  · have head : classify SpecialForm.sequence.name = .ok (.symbol SpecialForm.sequence.name) := by
      decide +kernel
    rw [Phrase.tree, head, trees]
    rfl

end Source

namespace Evaluation

/-- A sequence evaluates its items within the budget that is left. -/
theorem evaluate_sequence (budget : Nat) (programs : List Expr) :
    evaluate (budget + 1) (.form (.symbol SpecialForm.sequence.name) programs) =
      evaluateSequence (evaluate budget) programs := rfl

end Evaluation

namespace Session

open Evaluation

/-- Run programs one after another. The first one that fails ends the whole. -/
def runEach (budget : Nat) (session : Session) (first : String) :
    List String → Option (Except ProgramError Expr × Session)
  | [] => session.run budget first
  | next :: others =>
      match session.run budget first with
      | some (.ok _, left) => left.runEach budget next others
      | ending => ending

/-- An outcome and the environment that is left, without the program that was read last. -/
def answer (ending : Except ProgramError Expr × Session) :
    Except ProgramError Expr × Environment :=
  (ending.1, ending.2.environment)

/-- The answer to a program whose evaluation ends. -/
def evaluated (ending : Except Failure Expr × Environment) :
    Except ProgramError Expr × Environment :=
  (ending.1.mapError .semantic, ending.2)

/-- What a program that can be read is answered. -/
theorem answer_run {text : String} {program : Expr} (read : Source.read text = .ok program)
    (budget : Nat) (session : Session) :
    (session.run budget text).map answer =
      (FormLang.evaluate budget program session.environment).map evaluated := by
  rw [run_of_read read, Option.map_map]
  rfl

/-- Programs one after another are answered like their expressions in a sequence. -/
theorem answer_runEach {first : String} {program : Expr} {others : List String}
    {programs : List Expr} (read : Source.read first = .ok program)
    (reads : List.Forall₂ (fun text program => Source.read text = .ok program) others programs)
    (budget : Nat) (session : Session) :
    (session.runEach budget first others).map answer =
      (evaluateSequence (FormLang.evaluate budget) (program :: programs)
        session.environment).map evaluated := by
  induction reads generalizing first program session with
  | nil => exact answer_run read budget session
  | @cons next nextProgram others programs nextRead _ inductionHypothesis =>
      have inOrder : evaluateSequence (FormLang.evaluate budget)
          (program :: nextProgram :: programs) = (do
            let _ ← FormLang.evaluate budget program
            evaluateSequence (FormLang.evaluate budget) (nextProgram :: programs)) := rfl
      rw [runEach, run_of_read read, inOrder, Computation.bind_apply]
      cases FormLang.evaluate budget program session.environment with
      | none => rfl
      | some ending =>
          obtain ⟨outcome, left⟩ := ending
          cases outcome with
          | error failure => rfl
          | ok value => exact inductionHypothesis nextRead ⟨left, some program⟩

/-- A session equals one sequence. From any session, running texts that are all programs one
after another up to the first failure is answered exactly as the one text that puts them into a
sequence: with the same value of the last program or the same failure, and with the same
environment, or not at all. The sequence takes one more level of nesting. -/
theorem run_sequenceText {first : String} {others : List String}
    (programs : ∀ text ∈ first :: others, ∃ program, Source.read text = .ok program)
    (budget : Nat) (session : Session) :
    (session.run (budget + 1) (Source.sequenceText (first :: others))).map answer =
      (session.runEach budget first others).map answer := by
  choose! program read using programs
  have reads : List.Forall₂ (fun text program => Source.read text = .ok program) others
      (others.map program) :=
    List.forall₂_map_right_iff.mpr (List.forall₂_same.mpr fun text member =>
      read text (List.mem_cons_of_mem first member))
  have firstRead := read first List.mem_cons_self
  rw [answer_run (Source.read_sequenceText (.cons firstRead reads)),
    Evaluation.evaluate_sequence, answer_runEach firstRead reads]

/-- The text of a program, with a comment that opens a parenthesis. -/
def commentedDefinition : String := "(define a \"one\") ; (begin"

/-- The text of a program with a span that is left open. The symbol in it is unbound. -/
def openSpan : String := "(list a \"two\n)"

/-- Neither the comment nor the open span of one program reaches into the next, and nothing
behind the failure of the second is evaluated. -/
theorem sequence_stops_at_failure :
    (∀ text ∈ [commentedDefinition, openSpan, "(define c \"three\")"],
        ∃ program, Source.read text = .ok program) ∧
      (Session.fresh.run 4 (Source.sequenceText
        [commentedDefinition, openSpan, "(define c \"three\")"])).map answer =
        some (.error (.semantic (.unknownSymbol "\"two")),
          Environment.initial.bind "a" (.leaf (.string "one"))) := by
  have first : Source.read commentedDefinition = .ok (.form (.symbol "define")
      [.leaf (.symbol "a"), .leaf (.string "one")]) := by
    decide +kernel
  have second : Source.read openSpan = .ok (.form (.symbol "list")
      [.leaf (.symbol "a"), .leaf (.symbol "\"two")]) := by
    decide +kernel
  have third : Source.read "(define c \"three\")" = .ok (.form (.symbol "define")
      [.leaf (.symbol "c"), .leaf (.string "three")]) := by
    decide +kernel
  have programs : ∀ text ∈ [commentedDefinition, openSpan, "(define c \"three\")"],
      ∃ program, Source.read text = .ok program := by
    simp only [List.forall_mem_cons]
    exact ⟨⟨_, first⟩, ⟨_, second⟩, ⟨_, third⟩, fun _ member => absurd member List.not_mem_nil⟩
  refine ⟨programs, ?_⟩
  rw [run_sequenceText programs, runEach, run_of_read first]
  change (runEach 3 ⟨Environment.initial.bind "a" (.leaf (.string "one")), _⟩ openSpan
    ["(define c \"three\")"]).map answer = _
  rw [runEach, run_of_read second]
  rfl

end Session

end FormLang
