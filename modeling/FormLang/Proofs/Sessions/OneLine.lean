import FormLang.Kernel.Answer
import FormLang.Proofs.Evaluation.Atoms
import FormLang.Proofs.Source.Errors

/-!
Contract: every answer is one line.

Lexemes have no line breaks, and the texts of numbers have none either. So no atom of a
session has one, and neither has the text of an expression or the message of an error, which
add fixed words, digits and spaces.

Owns: the texts without line breaks, that the texts of atoms, expressions and errors are such,
and that the answers of a session are.
-/

set_option autoImplicit false

namespace FormLang

/-- There is neither a line feed nor a carriage return in the text. -/
def OneLine (text : String) : Prop :=
  ∀ character ∈ text.toList, character ≠ '\n' ∧ character ≠ '\r'

namespace OneLine

variable {left right : String}

/-- A fixed text is one line if its characters pass the test. -/
theorem fixed {characters : List Char}
    (passes : characters.all (fun character => character != '\n' && character != '\r') = true) :
    OneLine (String.ofList characters) := by
  intro character member
  rw [String.toList_ofList] at member
  simpa using List.all_eq_true.mp passes character member

theorem append (leftLine : OneLine left) (rightLine : OneLine right) : OneLine (left ++ right) := by
  intro character member
  rw [String.toList_append] at member
  rcases List.mem_append.mp member with front | back
  · exact leftLine character front
  · exact rightLine character back

theorem repr (number : Nat) : OneLine (Nat.repr number) := by
  intro character member
  rw [Nat.toList_repr] at member
  have digit := Nat.isDigit_of_mem_toDigits (by decide) (by decide) member
  constructor <;> rintro rfl <;> exact absurd digit (by decide)

theorem intercalate {separator : String} {texts : List String} (separates : OneLine separator)
    (each : ∀ text ∈ texts, OneLine text) : OneLine (String.intercalate separator texts) := by
  induction texts with
  | nil => exact .fixed rfl
  | cons first rest inductionHypothesis =>
      obtain ⟨firstLine, others⟩ := List.forall_mem_cons.mp each
      cases rest with
      | nil => rwa [String.intercalate_singleton]
      | cons second more =>
          rw [String.intercalate_cons_cons]
          exact (firstLine.append separates).append (inductionHypothesis others)

/-- A lexeme is part of one line. -/
theorem ofLexeme {text : String} (isLexeme : Source.IsLexeme text.toList) : OneLine text := by
  have word : ∀ character, Source.isWordCharacter character = true →
      character ≠ '\n' ∧ character ≠ '\r' := by
    intro character plain
    constructor <;> rintro rfl <;> exact absurd plain (by decide)
  have span : ∀ character, Source.isSpanCharacter character = true →
      character ≠ '\n' ∧ character ≠ '\r' := by
    intro character inside
    constructor <;> rintro rfl <;> exact absurd inside (by decide)
  have quote : ('"' : Char) ≠ '\n' ∧ ('"' : Char) ≠ '\r' := by decide
  unfold OneLine
  generalize text.toList = characters at isLexeme
  cases isLexeme with
  | word _ plain => exact fun character member => word character (plain character member)
  | unclosed plain inside =>
      rw [List.forall_mem_append, List.forall_mem_cons]
      exact ⟨fun character member => word character (plain character member), quote,
        fun character member => span character (inside character member)⟩
  | closed plain inside =>
      rw [List.forall_mem_append, List.forall_mem_cons, List.forall_mem_append,
        List.forall_mem_singleton]
      exact ⟨fun character member => word character (plain character member), quote,
        fun character member => span character (inside character member), quote⟩

end OneLine

/-! ## Atoms and expressions -/

/-- The text of the atom is part of one line. -/
def Atom.InLine (atom : Atom) : Prop :=
  OneLine (atom.render .quoted)

theorem Atom.closed_inLine : Atom.Closed Atom.InLine :=
  Atom.closed_legible.mono fun _ => OneLine.ofLexeme

theorem Atom.InLine.headText {head : Atom} (inLine : head.InLine) (hasTail : Bool) :
    OneLine (Expr.headText .quoted head hasTail) := by
  unfold Expr.headText
  split
  · exact .fixed rfl
  · split
    · exact OneLine.append inLine (.fixed rfl)
    · exact inLine

/-- The text of an expression is one line if its atoms are. -/
theorem Expr.oneLine_text {expression : Expr} (madeOf : expression.MadeOf Atom.InLine) :
    OneLine expression.text := by
  induction madeOf with
  | @node expression here _ _ children _ =>
      cases expression with
      | node head tail properties =>
          have tailLine : OneLine (String.intercalate " " (Expr.renderEach .quoted tail)) := by
            rw [Expr.renderEach_eq_map]
            exact .intercalate (.fixed rfl) (List.forall_mem_map.mpr children)
          rw [Expr.text, Expr.render]
          exact (((OneLine.fixed rfl).append (Atom.InLine.headText here _)).append tailLine).append
            (.fixed rfl)

/-! ## Messages -/

theorem Operator.oneLine_name (operator : Operator) : OneLine operator.name := by
  cases operator with
  | form specialForm => cases specialForm <;> exact .fixed rfl
  | procedure builtIn => cases builtIn <;> exact .fixed rfl

namespace Failure

theorem oneLine_callPreamble (operator : Operator) : OneLine (callPreamble operator) :=
  ((OneLine.fixed rfl).append operator.oneLine_name).append (.fixed rfl)

theorem oneLine_evaluationPreamble : OneLine evaluationPreamble :=
  .fixed rfl

theorem oneLine_quote {name : String} (line : OneLine name) : OneLine (quote name) :=
  ((OneLine.fixed rfl).append line).append (.fixed rfl)

/-- The beginning of a message about an evaluation. -/
theorem oneLine_begins {text : String} (line : OneLine text) :
    OneLine (evaluationPreamble ++ text) :=
  oneLine_evaluationPreamble.append line

theorem oneLine_message {failure : Failure} (names : failure.Names Atom.InLine) :
    OneLine failure.message := by
  have symbol : ∀ {name : String}, failure.atom? = some (.symbol name) →
      OneLine (quote name) := fun named => oneLine_quote (names _ named)
  have form : ∀ form : SpecialForm, OneLine form.name := fun form =>
    (Operator.form form).oneLine_name
  cases failure with
  | wrongCount operator expected given =>
      have count : OneLine expected.message := by
        cases expected with
        | exactly count => exact .repr count
        | oneOrTwo => exact .fixed rfl
      exact ((((oneLine_callPreamble operator).append (.fixed rfl)).append count).append
        (.fixed rfl)).append (.repr given)
  | wrongKind operator requirement =>
      have kind : OneLine requirement.message := by cases requirement <;> exact .fixed rfl
      exact ((oneLine_callPreamble operator).append (.fixed rfl)).append kind
  | outsideDomain operator limit =>
      have domain : OneLine limit.message := by
        cases limit with
        | tooManyItems limit => exact ((OneLine.fixed rfl).append (.repr limit)).append (.fixed rfl)
        | _ => exact .fixed rfl
      exact ((oneLine_callPreamble operator).append (.fixed rfl)).append domain
  | procedureAsValue _ =>
      exact ((oneLine_begins (.fixed rfl)).append (symbol rfl)).append (.fixed rfl)
  | parameterReserved _ =>
      exact ((oneLine_begins (.fixed rfl)).append (symbol rfl)).append (.fixed rfl)
  | operandsNotList other =>
      exact ((oneLine_begins (.fixed rfl)).append (form other)).append (.fixed rfl)
  | calleeNotProcedure other =>
      exact ((oneLine_begins (.fixed rfl)).append (form other)).append (.fixed rfl)
  | unknownSymbol _ => exact (oneLine_begins (.fixed rfl)).append (symbol rfl)
  | unknownProcedure _ => exact (oneLine_begins (.fixed rfl)).append (symbol rfl)
  | redefinedForm _ => exact (oneLine_begins (.fixed rfl)).append (symbol rfl)
  | redefinedProcedure _ => exact (oneLine_begins (.fixed rfl)).append (symbol rfl)
  | redefinedSymbol _ => exact (oneLine_begins (.fixed rfl)).append (symbol rfl)
  | headNotProcedure head =>
      exact (oneLine_begins (oneLine_quote (names head rfl))).append (.fixed rfl)
  | nothingAsValue => exact oneLine_begins (.fixed rfl)
  | emptySequence => exact oneLine_begins (.fixed rfl)
  | definedNotSymbol => exact oneLine_begins (.fixed rfl)
  | parameterNotSymbol => exact oneLine_begins (.fixed rfl)
  | noProgram => exact oneLine_begins (.fixed rfl)

end Failure

/-- The message about a text that is no program is one line, whatever the text. -/
theorem SyntaxError.oneLine_message {text : String} {error : SyntaxError}
    (refused : Source.read text = .error error) : OneLine error.message := by
  have quoted : ∀ {piece : String}, error.quoted? = some piece → OneLine piece :=
    fun names => .ofLexeme (Source.tokenize_lexemes (Source.read_quotes names refused))
  cases error with
  | bareAtom lexeme => exact ((OneLine.fixed rfl).append (quoted rfl)).append (.fixed rfl)
  | malformedNumber lexeme => exact ((OneLine.fixed rfl).append (quoted rfl)).append (.fixed rfl)
  | invalidToken piece => exact ((OneLine.fixed rfl).append (quoted rfl)).append (.fixed rfl)
  | unreadable reason => exact (OneLine.fixed rfl).append (quoted rfl)
  | _ => exact .fixed rfl

/-! ## Answers -/

/-- What is printed of an answer: the text of the value, or the message. -/
def Answer.text : Answer → String
  | .value expression => expression.text
  | .failure message => message

namespace Session

variable {session left : Session} {budget : Nat} {text : String}

/-- The answer to a program is one line, and so is every later one. -/
theorem run_oneLine {outcome : Except ProgramError Expr} (madeOf : session.MadeOf Atom.InLine)
    (ran : session.run budget text = some (outcome, left)) :
    left.MadeOf Atom.InLine ∧ OneLine (Answer.ofOutcome outcome).text := by
  obtain ⟨next, outcomeMadeOf⟩ := Evaluation.run_madeOf Atom.closed_inLine madeOf ran
  refine ⟨next, ?_⟩
  rcases run_cases ran with ⟨error, refused, rfl, -⟩ | ⟨program, ending, -, -, same, -⟩
  · exact OneLine.append (.fixed rfl) (SyntaxError.oneLine_message refused)
  · obtain ⟨ended, environment⟩ := ending
    cases ended with
    | ok value =>
        cases same
        exact Expr.oneLine_text (outcomeMadeOf.value value rfl)
    | error failure =>
        cases same
        exact Failure.oneLine_message (outcomeMadeOf.failure failure rfl)

theorem respond_oneLine {answer : Answer} (madeOf : session.MadeOf Atom.InLine)
    (responded : session.respond budget text = some (answer, left)) :
    left.MadeOf Atom.InLine ∧ OneLine answer.text := by
  obtain ⟨⟨outcome, last⟩, ran, same⟩ := Option.map_eq_some_iff.mp responded
  cases same
  exact run_oneLine madeOf ran

theorem prepared_inLine {startup : Option String} (ready : prepared budget startup = some session) :
    session.MadeOf Atom.InLine := by
  have fresh := Evaluation.fresh_madeOf Atom.closed_inLine
  cases startup with
  | none =>
      cases ready
      exact fresh
  | some program =>
      obtain ⟨⟨outcome, last⟩, ran, rfl⟩ := Option.map_eq_some_iff.mp ready
      exact (run_oneLine fresh ran).1

/-- All answers to a sequence of programs are one line. -/
theorem runs_oneLine {outcomes : List (String × Except ProgramError Expr)} {last : Session}
    (madeOf : session.MadeOf Atom.InLine) (runs : session.Runs outcomes last) :
    ∀ text outcome, (text, outcome) ∈ outcomes → OneLine (Answer.ofOutcome outcome).text :=
  (runs.keep (fun (_ : True) => run_oneLine) (fun _ _ _ => trivial) madeOf).2

/-- The answer of a session for one program is one line. -/
theorem answerOnce_oneLine {startup : Option String} {program : String} {answer : Answer}
    (answered : answerOnce budget startup program = some answer) : OneLine answer.text := by
  obtain ⟨session, ready, responds⟩ := Option.bind_eq_some_iff.mp answered
  obtain ⟨ending, responded, same⟩ := Option.bind_eq_some_iff.mp responds
  cases same
  exact (respond_oneLine (prepared_inLine ready) responded).2

end Session

end FormLang
