import FormLang.Session
import Mathlib.Logic.Relation

/-!
Contract: what happens to a session between two resets.

Owns: the single operations, their sequences, the runs of programs with their answers, and
that these keep what evaluations keep.
-/

set_option autoImplicit false

namespace FormLang.Session

variable {session left last : Session}

/-- Reading a text replaces the program, by the one that is read or by none. -/
theorem load_eq (session : Session) (text : String) :
    session.load text = ((Source.read text).map fun _ => (),
      ⟨session.environment, (Source.read text).toOption⟩) := by
  unfold load
  cases Source.read text <;> rfl

/-- Reading a text and evaluating it either fails at the text, or is the evaluation of the
program that was read. -/
theorem run_cases {budget : Nat} {text : String} {outcome : Except ProgramError Expr}
    (ran : session.run budget text = some (outcome, left)) :
    (∃ error, Source.read text = .error error ∧ outcome = .error (.syntactic error) ∧
      left = ⟨session.environment, none⟩) ∨
    (∃ program ending, Source.read text = .ok program ∧
      FormLang.evaluate budget program session.environment = some ending ∧
      outcome = ending.1.mapError .semantic ∧ left = ⟨ending.2, some program⟩) := by
  unfold run load at ran
  cases read : Source.read text with
  | error error =>
      rw [read] at ran
      cases ran
      exact .inl ⟨error, rfl, rfl, rfl⟩
  | ok program =>
      rw [read] at ran
      obtain ⟨whole, evaluated, same⟩ := Option.map_eq_some_iff.mp ran
      obtain ⟨ending, ended, rfl⟩ := Option.map_eq_some_iff.mp evaluated
      cases same
      exact .inr ⟨program, ending, rfl, ended, rfl, rfl⟩

/-- A program that can be read is evaluated in the environment of the session. -/
theorem run_of_read {text : String} {program : Expr} (read : Source.read text = .ok program)
    (budget : Nat) (session : Session) :
    session.run budget text =
      (FormLang.evaluate budget program session.environment).map fun ending =>
        (ending.1.mapError .semantic, ⟨ending.2, some program⟩) := by
  unfold run load
  rw [read]
  exact Option.map_map _ _ _

/-- A run keeps what the evaluation of its program keeps, and its result is as the evaluation
makes it. -/
theorem run_keeps {holds : Environment → Prop} {accepted : Expr → Prop} {budget : Nat}
    {text : String} {outcome : Except ProgramError Expr}
    (evaluates : ∀ {program ending}, Source.read text = .ok program →
      FormLang.evaluate budget program session.environment = some ending →
      holds ending.2 ∧ ∀ value, ending.1 = .ok value → accepted value)
    (kept : holds session.environment)
    (ran : session.run budget text = some (outcome, left)) :
    holds left.environment ∧ ∀ value, outcome = .ok value → accepted value := by
  rcases run_cases ran with ⟨error, -, rfl, rfl⟩ | ⟨program, ending, read, ended, rfl, rfl⟩
  · exact ⟨kept, fun value impossible => by cases impossible⟩
  · obtain ⟨keptLeft, results⟩ := evaluates read ended
    refine ⟨keptLeft, fun value same => ?_⟩
    cases shape : ending.1 with
    | error failure =>
        rw [shape] at same
        cases same
    | ok result =>
        rw [shape] at same
        cases same
        exact results value shape

/-- What can happen to a session apart from a reset. -/
inductive Advances : Session → Session → Prop where
  | load (session : Session) (text : String) : Advances session (session.load text).2
  | loadFrom (session : Session) (source : SourceText) :
      Advances session (session.loadFrom source).2
  | evaluate {session left : Session} {outcome : Except Failure Expr} (budget : Nat)
      (ended : session.evaluate budget = some (outcome, left)) : Advances session left
  | run {session left : Session} {outcome : Except ProgramError Expr} (budget : Nat)
      (text : String) (ended : session.run budget text = some (outcome, left)) :
      Advances session left

/-- A session later on, without a reset in between. -/
def Continues : Session → Session → Prop :=
  Relation.ReflTransGen Advances

/-- A sequence of programs that a session reads and evaluates, with their outcomes. -/
inductive Runs : Session → List (String × Except ProgramError Expr) → Session → Prop where
  | none (session : Session) : Runs session [] session
  | program {session left last : Session} {text : String}
      {outcome : Except ProgramError Expr} {others : List (String × Except ProgramError Expr)}
      (budget : Nat) (ran : session.run budget text = some (outcome, left))
      (rest : Runs left others last) : Runs session ((text, outcome) :: others) last

/-- What every run of such a text keeps of a session is kept over a sequence of them, and
every outcome is as a single run makes it. -/
theorem Runs.keep {reads : String → Prop} {holds : Session → Prop}
    {answers : Except ProgramError Expr → Prop}
    {outcomes : List (String × Except ProgramError Expr)}
    (keeps : ∀ {session left budget text outcome}, reads text → holds session →
      session.run budget text = some (outcome, left) → holds left ∧ answers outcome)
    (known : ∀ text outcome, (text, outcome) ∈ outcomes → reads text)
    (kept : holds session) (runs : session.Runs outcomes left) :
    holds left ∧ ∀ text outcome, (text, outcome) ∈ outcomes → answers outcome := by
  induction runs with
  | none session => exact ⟨kept, fun text outcome member => absurd member List.not_mem_nil⟩
  | program budget ran rest inductionHypothesis =>
      obtain ⟨keptNext, first⟩ := keeps (known _ _ List.mem_cons_self) kept ran
      obtain ⟨keptLast, others⟩ := inductionHypothesis
        (fun text outcome member => known text outcome (List.mem_cons_of_mem _ member)) keptNext
      refine ⟨keptLast, fun text outcome member => ?_⟩
      rcases List.mem_cons.mp member with same | later
      · cases same
        exact first
      · exact others text outcome later

/-- What every evaluation keeps of an environment is kept over all programs of a session. -/
theorem Runs.keeps {holds : Environment → Prop}
    {outcomes : List (String × Except ProgramError Expr)}
    (evaluates : ∀ {budget program environment outcome left}, holds environment →
      FormLang.evaluate budget program environment = some (outcome, left) → holds left)
    (kept : holds session.environment) (runs : session.Runs outcomes left) :
    holds left.environment := by
  have every {session left : Session} {budget : Nat} {text : String}
      {outcome : Except ProgramError Expr} (_ : True) (begins : holds session.environment)
      (ran : session.run budget text = some (outcome, left)) : holds left.environment ∧ True :=
    ⟨(run_keeps (fun _ ended => ⟨evaluates begins ended, fun _ _ => trivial⟩) begins ran).1,
      trivial⟩
  exact (runs.keep every (fun _ _ _ => trivial) kept).1

end FormLang.Session
