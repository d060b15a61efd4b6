import FormLang.Proofs.Evaluation.Applications
import FormLang.Proofs.Evaluation.Formation
import FormLang.Proofs.Evaluation.Mapping
import FormLang.Proofs.Procedures
import FormLang.Proofs.Procedures.Demands

/-!
Contract: how the call of a procedure fails.

The class of a failure says which demand the call violates, and the message names the procedure
and has the words of the class. The call itself writes nothing, so a program that it ends leaves
the environment to what the operands have made of it.

Owns: the words of each class, which calls fail in which class, where such a failure leaves a
program, and the theorem that collects them.
-/

set_option autoImplicit false

namespace FormLang

/-- The words for the failure of a call, by its class. -/
def FailureClass.phrase? : FailureClass → Option String
  | .arity => some "wrong number of arguments"
  | .kind => some "wrong argument kind"
  | .domain => some "value out of domain"
  | _ => none

/-- A message names the operator in front of its words. -/
theorem Failure.callPreamble_words (operator : Operator) {words phrase start : String}
    (split : words = phrase ++ (", " ++ start)) (detail : String) :
    callPreamble operator ++ words ++ detail =
      "Error in call to " ++ operator.name ++ ": " ++ phrase ++ ", " ++ (start ++ detail) := by
  rw [split]
  unfold callPreamble
  simp only [String.append_assoc]

/-- The message of a call's failure names the operator, and has the words of its class. -/
theorem Failure.OfCall.message {operator : Operator} {failure : Failure}
    (ofCall : failure.OfCall operator) :
    ∃ phrase detail, failure.failureClass.phrase? = some phrase ∧
      failure.message =
        "Error in call to " ++ operator.name ++ ": " ++ phrase ++ ", " ++ detail := by
  cases ofCall with
  | count expected given =>
      have shape : (Failure.wrongCount operator expected given).message =
          Failure.callPreamble operator ++ "wrong number of arguments, expected " ++
            (expected.message ++ " but got " ++ Nat.repr given) := by
        simp only [Failure.message, String.append_assoc]
      exact ⟨_, "expected " ++ (expected.message ++ " but got " ++ Nat.repr given), rfl,
        shape.trans (Failure.callPreamble_words operator (by decide) _)⟩
  | kind requirement =>
      exact ⟨_, "" ++ requirement.message, rfl,
        Failure.callPreamble_words operator (by decide) requirement.message⟩
  | domain limit =>
      exact ⟨_, "" ++ limit.message, rfl,
        Failure.callPreamble_words operator (by decide) limit.message⟩

namespace Procedure

/-! ## The class of a failure -/

/-- A call fails, and its failure is of this class. -/
def FailsAs (procedure : Procedure) (operands : List Expr) (failureClass : FailureClass) : Prop :=
  ∃ failure, procedure.apply operands = .error failure ∧ failure.failureClass = failureClass

section Classes

variable {procedure : Procedure} {operands : List Expr}

theorem OutsideDomain.takes (outside : procedure.OutsideDomain operands) :
    procedure.Takes operands.length := by
  cases outside <;> exact (takes_iff rfl _).mpr rfl

theorem OutsideDomain.fits (outside : procedure.OutsideDomain operands) :
    ¬ procedure.Misfit operands := by
  cases outside with
  | logarithm head negative =>
      rw [misfit_single_iff, not_not]
      exact Requirement.met_realNumber_iff.mpr ⟨_, head⟩
  | first list empty =>
      rw [misfit_single_iff, not_not]
      exact Requirement.met_list_iff.mpr list
  | rest list empty =>
      rw [misfit_single_iff, not_not]
      exact Requirement.met_list_iff.mpr list
  | range startHead finishHead incrementHead refused =>
      rintro ⟨operand, member, unmet⟩
      refine unmet (Requirement.met_realNumber_iff.mpr ?_)
      simp only [demanded, List.mem_cons, List.not_mem_nil, or_false] at member
      rcases member with rfl | rfl | rfl
      · exact ⟨_, startHead⟩
      · exact ⟨_, finishHead⟩
      · exact ⟨_, incrementHead⟩

theorem not_takes {expected : OperandCount} {given : Nat}
    (demands : procedure.demandedCount? = some expected) (refused : ¬ expected.Admits given) :
    ¬ procedure.Takes given :=
  fun takes => refused (takes expected demands)

theorem failsAs_arity_iff :
    procedure.FailsAs operands .arity ↔
      ¬ procedure.Takes operands.length ∧ (procedure.KindsFirst → ¬ procedure.Misfit operands) := by
  have verdict := apply_verdict procedure operands
  unfold FailsAs
  generalize procedure.apply operands = outcome at verdict ⊢
  cases verdict with
  | count demands refused fits =>
      exact iff_of_true ⟨_, rfl, rfl⟩ ⟨not_takes demands refused, fits⟩
  | kind misfit first =>
      refine iff_of_false (by rintro ⟨_, ⟨⟩, ⟨⟩⟩) ?_
      rintro ⟨refused, fits⟩
      exact first.elim refused fun kindsFirst => fits kindsFirst misfit
  | domain outside limit =>
      exact iff_of_false (by rintro ⟨_, ⟨⟩, ⟨⟩⟩) fun ⟨refused, _⟩ => refused outside.takes
  | value takes fits inside value =>
      exact iff_of_false (by rintro ⟨_, ⟨⟩, ⟨⟩⟩) fun ⟨refused, _⟩ => refused takes

theorem failsAs_kind_iff :
    procedure.FailsAs operands .kind ↔
      procedure.Misfit operands ∧ (procedure.Takes operands.length ∨ procedure.KindsFirst) := by
  have verdict := apply_verdict procedure operands
  unfold FailsAs
  generalize procedure.apply operands = outcome at verdict ⊢
  cases verdict with
  | count demands refused fits =>
      refine iff_of_false (by rintro ⟨_, ⟨⟩, ⟨⟩⟩) ?_
      rintro ⟨misfit, first⟩
      exact first.elim (not_takes demands refused) fun kindsFirst => fits kindsFirst misfit
  | kind misfit first => exact iff_of_true ⟨_, rfl, rfl⟩ ⟨misfit, first⟩
  | domain outside limit =>
      exact iff_of_false (by rintro ⟨_, ⟨⟩, ⟨⟩⟩) fun ⟨misfit, _⟩ => outside.fits misfit
  | value takes fits inside value =>
      exact iff_of_false (by rintro ⟨_, ⟨⟩, ⟨⟩⟩) fun ⟨misfit, _⟩ => fits misfit

theorem failsAs_domain_iff :
    procedure.FailsAs operands .domain ↔ procedure.OutsideDomain operands := by
  have verdict := apply_verdict procedure operands
  unfold FailsAs
  generalize procedure.apply operands = outcome at verdict ⊢
  cases verdict with
  | count demands refused fits =>
      refine iff_of_false (by rintro ⟨_, ⟨⟩, ⟨⟩⟩) fun outside => ?_
      exact not_takes demands refused outside.takes
  | kind misfit first =>
      exact iff_of_false (by rintro ⟨_, ⟨⟩, ⟨⟩⟩) fun outside => outside.fits misfit
  | domain outside limit => exact iff_of_true ⟨_, rfl, rfl⟩ outside
  | value takes fits inside value => exact iff_of_false (by rintro ⟨_, ⟨⟩, ⟨⟩⟩) inside

end Classes

/-! ## Calls in a program -/

section Programs

open Evaluation

variable {procedure : Procedure} {environment left final : Environment} {name : String}
variable {arguments operands before behind : List Expr} {first second item : Expr}
variable {failure : Failure} {outcome : Except Failure Expr}

/-- The call of a procedure is its application to the operands. -/
theorem calls_iff : Calls (.procedure procedure) operands environment outcome ↔
    outcome = procedure.apply operands := by
  constructor
  · rintro ⟨left, budget, ended⟩
    cases ended
    rfl
  · rintro rfl
    exact ⟨environment, 0, rfl⟩

/-- The operands evaluate to these values, in their order. -/
def OperandsEnd (arguments : List Expr) (environment : Environment) (operands : List Expr)
    (left : Environment) : Prop :=
  Budgeted.Ends (fun budget => evaluateEach (evaluate budget) arguments) environment
    (.ok operands) left

/-- An application of a procedure calls it with the values of its operands. -/
theorem application_ends (found : environment.lookup name = some (.procedure procedure))
    (ordinary : SpecialForm.named? name = none) (nonempty : arguments ≠ [])
    (operandsEnd : OperandsEnd arguments environment operands left) :
    Ends (.form (.symbol name) arguments) environment (procedure.apply operands) left := by
  obtain ⟨budget, ended⟩ := operandsEnd
  change evaluateEach (evaluate budget) arguments environment = _ at ended
  refine ⟨budget + 1, ?_⟩
  change evaluate (budget + 1) (.form (.symbol name) arguments) environment = _
  rw [evaluate_application (.procedure found) ordinary nonempty, Computation.bind_apply, ended]
  rfl

/-- An evaluation ends in one way only. -/
theorem ends_iff_of_ends {expression : Expr} {outcome' : Except Failure Expr}
    (ends : Ends expression environment outcome left) :
    Ends expression environment outcome' final ↔ outcome' = outcome ∧ final = left := by
  constructor
  · exact fun ends' => ends'.unique (stable_evaluate expression) ends
  · rintro ⟨rfl, rfl⟩
    exact ends

/-- Where a program calls a procedure that fails, it fails likewise, and leaves the environment as
the operands have left it. So it is for an application, for `apply`, and for `map` with the first
item for which the call fails. -/
structure FailsInPlace (procedure : Procedure) : Prop where
  application : ∀ {environment left final : Environment} {name : String}
    {arguments operands : List Expr} {failure : Failure} {outcome : Except Failure Expr},
    environment.lookup name = some (.procedure procedure) → SpecialForm.named? name = none →
    arguments ≠ [] → OperandsEnd arguments environment operands left →
    procedure.apply operands = .error failure →
    (Ends (.form (.symbol name) arguments) environment outcome final ↔
      outcome = .error failure ∧ final = left)
  applied : ∀ {environment left final : Environment} {first second : Expr} {operands : List Expr}
    {failure : Failure} {outcome : Except Failure Expr},
    Prepares first second environment (.procedure procedure) operands left →
    procedure.apply operands = .error failure →
    (Ends (Evaluation.applied first second) environment outcome final ↔
      outcome = .error failure ∧ final = left)
  mapped : ∀ {environment left final : Environment} {first second item : Expr}
    {before behind : List Expr} {failure : Failure} {outcome : Except Failure Expr},
    Prepares first second environment (.procedure procedure) (before ++ item :: behind) left →
    (∀ earlier ∈ before, ∃ result, procedure.apply [earlier] = .ok result) →
    procedure.apply [item] = .error failure →
    (Ends (Evaluation.mapped first second) environment outcome final ↔
      outcome = .error failure ∧ final = left)

theorem failsInPlace (procedure : Procedure) : procedure.FailsInPlace where
  application found ordinary nonempty operandsEnd failed := by
    have ends := application_ends found ordinary nonempty operandsEnd
    rw [failed] at ends
    exact ends_iff_of_ends ends
  applied prepares failed := by
    rw [ends_applied_iff prepares, calls_iff, failed]
  mapped {environment left final first second item before behind failure outcome} prepares
      succeed failed := by
    refine ends_iff_of_ends
      ((mapped_error_iff prepares).mpr ⟨rfl, before, item, behind, rfl, ?_, ?_⟩)
    · intro earlier member
      obtain ⟨result, made⟩ := succeed earlier member
      exact ⟨result, calls_iff.mpr made.symm⟩
    · exact calls_iff.mpr failed.symm

end Programs

/-- How the calls of a procedure with these operands fail. -/
structure CallLaws (procedure : Procedure) (operands : List Expr) : Prop where
  /-- A failure names the procedure, in front of the words for its class. -/
  named : (∃ value, procedure.apply operands = .ok value) ∨
    ∃ failure phrase detail, procedure.apply operands = .error failure ∧
      failure.failureClass.phrase? = some phrase ∧
      failure.message =
        "Error in call to " ++ procedure.name ++ ": " ++ phrase ++ ", " ++ detail
  arity : procedure.FailsAs operands .arity ↔
    ¬ procedure.Takes operands.length ∧ (procedure.KindsFirst → ¬ procedure.Misfit operands)
  kind : procedure.FailsAs operands .kind ↔
    procedure.Misfit operands ∧ (procedure.Takes operands.length ∨ procedure.KindsFirst)
  domain : procedure.FailsAs operands .domain ↔ procedure.OutsideDomain operands

/-- The calls of every procedure fail by the first demand that they violate, in the name that the
procedure is bound to, and without a trace. -/
theorem calls_fail_exactly (procedure : Procedure) :
    (∀ operands, procedure.CallLaws operands) ∧
      (∀ name, Environment.initial.lookup name = some (.procedure procedure) ↔
        name = procedure.name) ∧
      procedure.FailsInPlace := by
  refine ⟨fun operands => ⟨?_, failsAs_arity_iff, failsAs_kind_iff, failsAs_domain_iff⟩,
    fun name => ⟨?_, ?_⟩, failsInPlace procedure⟩
  · cases outcome : procedure.apply operands with
    | ok value => exact .inl ⟨value, rfl⟩
    | error failure =>
        have refuses : procedure.Refuses (procedure.apply operands) := apply_refuses procedure
        obtain ⟨phrase, detail, words, message⟩ := (refuses failure outcome).message
        exact .inr ⟨failure, phrase, detail, rfl, words, message⟩
  · exact fun found => (Environment.OwnNames.initial name procedure found).symm
  · rintro rfl
    exact Environment.KeepsReserved.initial.procedure procedure

/-- `(- (define x "first") 2 3)` has too many operands, one of which is no number, and fails for
the latter. What the operand has defined stays. -/
theorem misfit_difference_fails :
    let arguments : List Expr :=
      [.form (.symbol "define") [.leaf (.symbol "x"), .leaf (.string "first")],
        .leaf (.number 2), .leaf (.number 3)]
    Evaluation.Ends (.form (.symbol "-") arguments) .initial
        (.error (.wrongKind (.procedure .subtract) .number))
        (Environment.initial.bind "x" (.leaf (.string "first"))) ∧
      Procedure.subtract.FailsAs
        [.leaf (.string "first"), .leaf (.number 2), .leaf (.number 3)] .kind := by
  intro arguments
  obtain ⟨laws, bound, inPlace⟩ := calls_fail_exactly .subtract
  have operandsEnd : OperandsEnd arguments .initial
      [.leaf (.string "first"), .leaf (.number 2), .leaf (.number 3)]
      (Environment.initial.bind "x" (.leaf (.string "first"))) := ⟨2, rfl⟩
  have misfit : Procedure.subtract.Misfit
      [.leaf (.string "first"), .leaf (.number 2), .leaf (.number 3)] :=
    ⟨_, List.mem_cons_self, fun met => by cases met⟩
  have found := (bound "-").mpr rfl
  refine ⟨?_, (laws _).kind.mpr ⟨misfit, .inr (.inl rfl)⟩⟩
  exact (inPlace.application found rfl (List.cons_ne_nil _ _) operandsEnd rfl).mpr ⟨rfl, rfl⟩

end Procedure

end FormLang
