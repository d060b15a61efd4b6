import FormLang.Proofs.Evaluation.Invariant
import Mathlib.Logic.Relation

/-!
Contract: what goes on inside an evaluation.

An evaluation evaluates other expressions in its scope and calls, and the call of a
function evaluates its body in a scope of its own. Nothing in the language catches a
failure. So an activity takes place within an evaluation exactly if its failure, were
it to fail, would be the failure of the evaluation, whatever that failure is. This also
holds of an evaluation that never ends.

Owns: activities, which of them starts which, and the theorem that invariants reach
from an activity to all activities within it.
-/

set_option autoImplicit false

namespace FormLang.Evaluation

open Correspondence

/-- What an evaluator does: evaluate an expression, or call with evaluated operands. -/
inductive Activity where
  | evaluation (expression : Expr) (environment : Environment)
  | call (callee : Callee) (operands : List Expr) (environment : Environment)
deriving DecidableEq

/-- The evaluator that fails on one expression in one environment. -/
def evaluateFailing (evaluate : Evaluator) (expression : Expr) (environment : Environment)
    (failure : Failure) : Evaluator :=
  fun other current =>
    if other = expression ∧ current = environment then some (.error failure, current)
    else evaluate other current

/-- The way of calling that fails for one callee and its operands in one environment. -/
def callFailing (call : Caller) (callee : Callee) (operands : List Expr)
    (environment : Environment) (failure : Failure) : Caller :=
  fun other others current =>
    if other = callee ∧ others = operands ∧ current = environment then
      some (.error failure, current)
    else call other others current

/-- An evaluation ends with every failure that is put in its way, where it was put. -/
def Surfaces (current : Environment)
    (attempt : Failure → Option (Except Failure Expr × Environment)) : Prop :=
  ∀ failure, attempt failure = some (.error failure, current)

/-- An evaluation on which no failure has an effect is not in the way of any. -/
theorem Surfaces.not_constant {current : Environment}
    {attempt : Failure → Option (Except Failure Expr × Environment)}
    {ending : Option (Except Failure Expr × Environment)}
    (unaffected : ∀ failure, attempt failure = ending) : ¬ Surfaces current attempt := by
  intro surfaces
  have first := (unaffected .noProgram).symm.trans (surfaces .noProgram)
  have second := (unaffected .emptySequence).symm.trans (surfaces .emptySequence)
  rw [first] at second
  cases second

/-- One activity takes place directly within another. -/
inductive Starts : Activity → Activity → Prop where
  | evaluation {outer inner : Expr} {environment current : Environment} (budget : Nat)
      (surfaces : Surfaces current fun failure =>
        step (evaluateFailing (evaluate budget) inner current failure) (callLinked budget)
          outer environment) :
      Starts (.evaluation outer environment) (.evaluation inner current)
  | call {outer : Expr} {environment current : Environment} {callee : Callee}
      {operands : List Expr} (budget : Nat)
      (surfaces : Surfaces current fun failure =>
        step (evaluate budget) (callFailing (callLinked budget) callee operands current failure)
          outer environment) :
      Starts (.evaluation outer environment) (.call callee operands current)
  | body {parameters : List String} {body : Expr} {operands : List Expr}
      {environment : Environment} (fits : parameters.length = operands.length) :
      Starts (.call (.lambda parameters body) operands environment)
        (.evaluation body (environment.enter parameters operands))

/-- One activity takes place within another, at any depth, or is that activity. -/
def Within : Activity → Activity → Prop :=
  Relation.ReflTransGen Starts

/-- The ending of an activity, if the budget suffices. -/
def Activity.ending (budget : Nat) : Activity → Option (Except Failure Expr × Environment)
  | .evaluation expression environment => evaluate budget expression environment
  | .call callee operands environment => callLinked budget callee operands environment

variable {World : Type} {invariant : Invariant World} {world : World}

/-- A sound activity, with its world. -/
def Invariant.KeepsIn (invariant : Invariant World) (world : World) : Activity → Prop
  | .evaluation expression environment =>
      invariant.expressions world expression ∧ invariant.environments world environment
  | .call callee operands environment =>
      invariant.Callees callee ∧ (∀ operand ∈ operands, invariant.values operand) ∧
        invariant.environments world environment

/-- What fails with every failure that is put in its way cannot match an ending that does
not know the failure. -/
theorem Invariant.not_surfaces (ending : Option (Except Failure Expr × Environment))
    {current : Environment} {attempt : Failure → Option (Except Failure Expr × Environment)}
    (outcomes : ∀ failure, invariant.diagonal.Outcomes False world invariant.diagonal.values ending
      (attempt failure)) : ¬ Surfaces current attempt := by
  intro surfaces
  have every (failure : Failure) : ∃ left, ending = some (.error failure, left) := by
    have matched := outcomes failure
    rw [surfaces failure] at matched
    revert matched
    generalize ending = known
    intro matched
    cases matched with
    | ended checks environments =>
        cases checks with
        | error failures => exact ⟨_, by rw [failures.1]⟩
    | lagging allowed => exact allowed.elim
  obtain ⟨left, first⟩ := every .noProgram
  obtain ⟨left', second⟩ := every .emptySequence
  rw [first] at second
  cases second

/-- What is known about an expression, and in which world its operands are sound, decides how
sound the evaluations are that start within its scope. -/
theorem Invariant.starts_evaluation_of_admits (laws : invariant.Laws) {outer inner : Expr}
    {environment current : Environment}
    (starts : Starts (.evaluation outer environment) (.evaluation inner current))
    (admits : invariant.diagonal.Admits world outer outer)
    (environments : invariant.environments world environment) :
    invariant.KeepsIn world (.evaluation inner current) := by
  cases starts with
  | evaluation budget surfaces =>
      by_contra outside
      have outcomes (failure : Failure) :
          invariant.diagonal.Outcomes False world invariant.diagonal.values
            (step (evaluate budget) (callLinked budget) outer environment)
            (step (evaluateFailing (evaluate budget) inner current failure) (callLinked budget)
              outer environment) := by
        refine step_matches (diagonal_laws laws) (matching (diagonal_laws laws) False) ?_
          (callLinked_matches laws budget) admits environment environment ⟨rfl, environments⟩
        rintro other _ ⟨rfl, soundOther⟩ scope _ ⟨rfl, scopes⟩
        -- The obstacle lies outside of the invariant, so it is never met.
        have missed : ¬ (other = inner ∧ scope = current) := by
          rintro ⟨rfl, rfl⟩
          exact outside ⟨soundOther, scopes⟩
        unfold evaluateFailing
        rw [if_neg missed]
        exact evaluate_matches laws budget ⟨rfl, soundOther⟩ scope scope ⟨rfl, scopes⟩
      exact not_surfaces _ outcomes surfaces

/-- An evaluation that starts within the same scope is as sound as the outer one. -/
theorem Invariant.starts_evaluation (laws : invariant.Laws) {outer inner : Expr}
    {environment current : Environment}
    (starts : Starts (.evaluation outer environment) (.evaluation inner current))
    (keeps : invariant.KeepsIn world (.evaluation outer environment)) :
    invariant.KeepsIn world (.evaluation inner current) :=
  starts_evaluation_of_admits laws starts (diagonal_admits laws keeps.1) keeps.2

/-- A call that a sound evaluation starts is sound. -/
theorem Invariant.starts_call (laws : invariant.Laws) {outer : Expr} {callee : Callee}
    {operands : List Expr} {environment current : Environment}
    (starts : Starts (.evaluation outer environment) (.call callee operands current))
    (keeps : invariant.KeepsIn world (.evaluation outer environment)) :
    invariant.KeepsIn world (.call callee operands current) := by
  obtain ⟨sound, environments⟩ := keeps
  cases starts with
  | call budget surfaces =>
      by_contra outside
      have outcomes (failure : Failure) :
          invariant.diagonal.Outcomes False world invariant.diagonal.values
            (step (evaluate budget) (callLinked budget) outer environment)
            (step (evaluate budget)
              (callFailing (callLinked budget) callee operands current failure)
              outer environment) := by
        refine step_matches (diagonal_laws laws) (matching (diagonal_laws laws) False)
          (evaluate_matches laws budget) ?_ (diagonal_admits laws sound) environment environment
          ⟨rfl, environments⟩
        rintro other other' others others' callees belong scope _ ⟨rfl, scopes⟩
        obtain ⟨rfl, soundOthers⟩ := diagonal_forall₂.mp belong
        obtain ⟨rfl, soundCallee⟩ : other = other' ∧ invariant.Callees other := by
          cases callees with
          | procedure builtIn => exact ⟨rfl, trivial⟩
          | lambda parameters functions => exact ⟨by rw [functions.1], functions.2⟩
        have missed : ¬ (other = callee ∧ others = operands ∧ scope = current) := by
          rintro ⟨rfl, rfl, rfl⟩
          exact outside ⟨soundCallee, soundOthers, scopes⟩
        unfold callFailing
        rw [if_neg missed]
        exact callLinked_matches laws budget callees belong scope scope ⟨rfl, scopes⟩
      exact not_surfaces _ outcomes surfaces

/-- An invariant reaches from an activity to those that it starts, in some world. -/
theorem Invariant.starts_keeps (laws : invariant.Laws) {outer inner : Activity}
    (starts : Starts outer inner) (keeps : invariant.KeepsIn world outer) :
    ∃ innerWorld, invariant.KeepsIn innerWorld inner := by
  cases outer with
  | evaluation expression environment =>
      cases inner with
      | evaluation expression' environment' => exact ⟨world, starts_evaluation laws starts keeps⟩
      | call callee operands current => exact ⟨world, starts_call laws starts keeps⟩
  | call callee operands environment =>
      obtain ⟨soundCallee, soundOperands, environments⟩ := keeps
      cases starts with
      | body fits =>
          obtain ⟨inner, scope, soundBody⟩ := laws.enter soundCallee environments soundOperands fits
          exact ⟨inner, soundBody, scope⟩

/-- An invariant reaches from an activity to everything within it. -/
theorem Invariant.within_keeps (laws : invariant.Laws) {outer inner : Activity}
    (within : Within outer inner) (keeps : invariant.KeepsIn world outer) :
    ∃ innerWorld, invariant.KeepsIn innerWorld inner := by
  induction within with
  | refl => exact ⟨world, keeps⟩
  | tail _ starts inductionHypothesis =>
      obtain ⟨middle, kept⟩ := inductionHypothesis
      exact starts_keeps laws starts kept

/-- A sound activity ends soundly. -/
theorem Invariant.ending_ends (laws : invariant.Laws) {activity : Activity} {budget : Nat}
    {ending : Except Failure Expr × Environment} (keeps : invariant.KeepsIn world activity)
    (ended : activity.ending budget = some ending) : invariant.Ends world ending := by
  cases activity with
  | evaluation expression environment => exact evaluate_ends laws keeps.1 keeps.2 ended
  | call callee operands environment =>
      exact call_ends laws keeps.1 keeps.2.1 keeps.2.2 ended

end FormLang.Evaluation
