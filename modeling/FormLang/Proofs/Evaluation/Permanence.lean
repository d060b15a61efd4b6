import FormLang.Proofs.Evaluation.Order
import FormLang.Proofs.Sessions

/-!
Contract: bindings are permanent.

Owns: the names that cannot be defined, the definitions that are refused for that, and the
theorem that over a session no binding is lost or replaced, so that a name is defined at most
once.
-/

set_option autoImplicit false

namespace FormLang

namespace Evaluation

/-- A definition of a name, with one expression for its value. -/
def Defines (name : String) (expression : Expr) : Prop :=
  expression.head = .symbol SpecialForm.define.name ∧
    ∃ target value, expression.tail = [target, value] ∧ target.bareSymbol? = some name

/-- The evaluation fails as a redefinition and does nothing else: it starts nothing, and how
expressions are evaluated and functions are called makes no difference. -/
def Refused (expression : Expr) (environment : Environment) : Prop :=
  ∃ failure : Failure, failure.failureClass = .redefinition ∧
    (∀ budget, evaluate (budget + 1) expression environment = some (.error failure, environment)) ∧
    (∀ evaluate call, step evaluate call expression environment =
      some (.error failure, environment)) ∧
    ∀ activity, ¬ Starts (.evaluation expression environment) activity

variable {name : String} {expression target value : Expr} {environment : Environment}

/-- Where the head says so, a definition is evaluated. -/
theorem step_eq_evaluateDefine (evaluate : Evaluator) (call : Caller)
    (head : expression.head = .symbol SpecialForm.define.name) :
    step evaluate call expression = evaluateDefine evaluate expression.tail := by
  have special : specialForm? expression = some .define := by
    unfold specialForm?
    rw [head]
    rfl
  unfold step
  rw [special]

theorem step_define (evaluate : Evaluator) (call : Caller)
    (head : expression.head = .symbol SpecialForm.define.name)
    (tail : expression.tail = [target, value]) (bare : target.bareSymbol? = some name) :
    step evaluate call expression environment =
      (Computation.check (checkDefinable name environment) >>= fun _ =>
        evaluate value >>= bindNew name) environment := by
  rw [step_eq_evaluateDefine evaluate call head, tail]
  simp only [evaluateDefine, bare]
  rfl

/-- Why a name cannot be defined, and how its definition fails. A special form comes first,
whatever its name stands for. -/
inductive Undefinable (name : String) (environment : Environment) : Failure → Prop where
  | specialForm {form : SpecialForm} (special : SpecialForm.named? name = some form) :
      Undefinable name environment (.redefinedForm name)
  | procedure {builtIn : Procedure} (ordinary : SpecialForm.named? name = none)
      (found : environment.lookup name = some (.procedure builtIn)) :
      Undefinable name environment (.redefinedProcedure name)
  | value {bound : Expr} (ordinary : SpecialForm.named? name = none)
      (found : environment.lookup name = some (.value bound)) :
      Undefinable name environment (.redefinedSymbol name)

/-- The check refuses a name for these reasons and no other. -/
theorem checkDefinable_eq_error_iff {failure : Failure} :
    checkDefinable name environment = .error failure ↔ Undefinable name environment failure := by
  constructor
  · intro refused
    unfold checkDefinable at refused
    cases special : SpecialForm.named? name with
    | some form =>
        rw [special] at refused
        cases refused
        exact .specialForm special
    | none =>
        rw [special] at refused
        cases found : environment.lookup name with
        | none =>
            rw [found] at refused
            cases refused
        | some binding =>
            rw [found] at refused
            cases binding with
            | value bound =>
                cases refused
                exact .value special found
            | procedure builtIn =>
                cases refused
                exact .procedure special found
  · intro reason
    unfold checkDefinable
    cases reason with
    | specialForm special =>
        rw [special]
        rfl
    | procedure ordinary found =>
        rw [ordinary, found]
        rfl
    | value ordinary found =>
        rw [ordinary, found]
        rfl

/-- The definition of a name that stands for something is a redefinition. -/
theorem checkDefinable_refuses (bound : environment.lookup name ≠ none) :
    ∃ failure, checkDefinable name environment = .error failure ∧
      failure.failureClass = .redefinition := by
  cases special : SpecialForm.named? name with
  | some form => exact ⟨_, checkDefinable_eq_error_iff.mpr (.specialForm special), rfl⟩
  | none =>
      cases found : environment.lookup name with
      | none => exact absurd found bound
      | some binding =>
          cases binding with
          | value value =>
              exact ⟨_, checkDefinable_eq_error_iff.mpr (.value special found), rfl⟩
          | procedure builtIn =>
              exact ⟨_, checkDefinable_eq_error_iff.mpr (.procedure special found), rfl⟩

/-- What always fails in the same way starts nothing. -/
theorem not_starts_of_fails {failure : Failure}
    (fails : ∀ evaluate call, step evaluate call expression environment =
      some (.error failure, environment)) (activity : Activity) :
    ¬ Starts (.evaluation expression environment) activity := by
  intro starts
  cases starts with
  | evaluation budget surfaces => exact Surfaces.not_constant (fun _ => fails _ _) surfaces
  | call budget surfaces => exact Surfaces.not_constant (fun _ => fails _ _) surfaces

/-- A definition of a name that stands for something is refused. -/
theorem refused_of_bound (defines : Defines name expression)
    (bound : environment.lookup name ≠ none) : Refused expression environment := by
  obtain ⟨head, target, value, tail, bare⟩ := defines
  obtain ⟨failure, refused, redefinition⟩ := checkDefinable_refuses bound
  have fails (evaluate : Evaluator) (call : Caller) :
      step evaluate call expression environment = some (.error failure, environment) := by
    rw [step_define evaluate call head tail bare, refused]
    rfl
  exact ⟨failure, redefinition, fun budget => fails _ _, fails, not_starts_of_fails fails⟩

/-- A definition that succeeds binds a name that stood for nothing, before and after its
value was evaluated. -/
theorem evaluate_defined {budget : Nat} {result : Expr} {left : Environment}
    (head : expression.head = .symbol SpecialForm.define.name)
    (tail : expression.tail = [target, value]) (bare : target.bareSymbol? = some name)
    (ended : evaluate (budget + 1) expression environment = some (.ok result, left)) :
    ∃ middle, evaluate budget value environment = some (.ok result, middle) ∧
      environment.lookup name = none ∧ middle.lookup name = none ∧
      left = middle.bind name result := by
  change step (evaluate budget) (callLinked budget) expression environment = _ at ended
  rw [step_define _ _ head tail bare] at ended
  have unbound : environment.lookup name = none := by
    by_contra bound
    obtain ⟨failure, refused, -⟩ := checkDefinable_refuses bound
    rw [refused] at ended
    cases ended
  obtain ⟨_, current, accepted, ended⟩ := Computation.bind_eq_ok ended
  obtain ⟨-, rfl⟩ := Prod.mk.inj (Option.some.inj accepted)
  obtain ⟨found, middle, inner, ended⟩ := Computation.bind_eq_ok ended
  unfold bindNew at ended
  obtain ⟨_, _, reading, ended⟩ := Computation.bind_eq_ok ended
  cases reading
  obtain ⟨extended, _, checked, ended⟩ := Computation.bind_eq_ok ended
  rw [Environment.define_eq] at checked
  cases free : middle.lookup name with
  | some binding =>
      rw [free] at checked
      cases checked
  | none =>
      rw [free] at checked
      cases checked
      cases ended
      exact ⟨middle, inner, unbound, free, rfl⟩

/-! ## Definitions within definitions -/

/-- An evaluation that takes place directly within another one of the same scope. -/
def StartsInScope (outer inner : Expr × Environment) : Prop :=
  Starts (.evaluation outer.1 outer.2) (.evaluation inner.1 inner.2)

/-- A definition evaluates nothing but its value, and that where it is evaluated itself. -/
theorem starts_define {inner : Expr} {current : Environment}
    (head : expression.head = .symbol SpecialForm.define.name)
    (tail : expression.tail = [target, value]) (bare : target.bareSymbol? = some name)
    (starts : StartsInScope (expression, environment) (inner, current)) :
    (inner, current) = (value, environment) := by
  by_contra elsewhere
  have missed : ¬ (value = inner ∧ environment = current) := by
    rintro ⟨rfl, rfl⟩
    exact elsewhere rfl
  cases starts with
  | evaluation budget surfaces =>
      have unaffected (failure : Failure) :
          step (evaluateFailing (evaluate budget) inner current failure) (callLinked budget)
            expression environment =
          step (evaluate budget) (callLinked budget) expression environment := by
        rw [step_define _ _ head tail bare, step_define _ _ head tail bare]
        have sameValue : evaluateFailing (evaluate budget) inner current failure value environment =
            evaluate budget value environment := if_neg missed
        cases checkDefinable name environment with
        | error refusal => rfl
        | ok accepted =>
            change (evaluateFailing (evaluate budget) inner current failure value >>= bindNew name)
              environment = (evaluate budget value >>= bindNew name) environment
            rw [Computation.bind_apply, Computation.bind_apply, sameValue]
      exact Surfaces.not_constant unaffected surfaces

/-- However an evaluation ends, it leaves what has grown out of everything that is left
within it, at any depth. -/
theorem grows_of_within {outer inner : Expr × Environment} {mark : Environment}
    (within : Relation.ReflTransGen StartsInScope outer inner)
    (passes : ∀ {budget outcome left}, evaluate budget inner.1 inner.2 = some (outcome, left) →
      mark.Grows left)
    {budget : Nat} {outcome : Except Failure Expr} {final : Environment}
    (ended : evaluate budget outer.1 outer.2 = some (outcome, final)) : mark.Grows final := by
  induction within using Relation.ReflTransGen.head_induction_on
    generalizing budget outcome final with
  | refl => exact passes ended
  | head starts _ inductionHypothesis => exact starts_grows starts inductionHypothesis ended

/-- A definition does not succeed if a definition of the same name succeeds within it. -/
theorem define_fails_around {outer inner : Expr} {current left : Environment} {budget : Nat}
    {result : Expr} (outerDefines : Defines name outer) (innerDefines : Defines name inner)
    (within : Relation.TransGen StartsInScope (outer, environment) (inner, current))
    (succeeded : evaluate budget inner current = some (.ok result, left))
    (enough : Nat) (result' : Expr) (final : Environment) :
    evaluate enough outer environment ≠ some (.ok result', final) := by
  intro ended
  obtain ⟨head, target, value, tail, bare⟩ := outerDefines
  obtain ⟨⟨first, scope⟩, starts, rest⟩ := Relation.TransGen.head'_iff.mp within
  cases starts_define head tail bare starts
  obtain _ | enough := enough
  · cases ended
  · obtain ⟨middle, valued, -, free, -⟩ := evaluate_defined head tail bare ended
    have grows : left.Grows middle := by
      refine grows_of_within rest (fun again => ?_) valued
      cases evaluate_unique succeeded again
      exact .refl left
    obtain ⟨head', target', value', tail', bare'⟩ := innerDefines
    obtain _ | budget := budget
    · cases succeeded
    · obtain ⟨middle', -, -, -, rfl⟩ := evaluate_defined head' tail' bare' succeeded
      refine grows.bound ?_ free
      rw [Environment.lookup_bind_same]
      exact Option.some_ne_none _

/-! ## Sessions -/

theorem load_environment (session : Session) (text : String) :
    (session.load text).2.environment = session.environment := by
  rw [Session.load_eq]

theorem evaluate_later {session left : Session} {outcome : Except Failure Expr} {budget : Nat}
    (ended : session.evaluate budget = some (outcome, left)) :
    Later session.environment left.environment := by
  unfold Session.evaluate at ended
  cases waiting : session.program with
  | none =>
      rw [waiting] at ended
      cases ended
      exact .refl
  | some program =>
      rw [waiting] at ended
      obtain ⟨ending, evaluated, same⟩ := Option.map_eq_some_iff.mp ended
      cases same
      exact .single (.ended budget evaluated)

theorem advances_later {session left : Session} (advances : session.Advances left) :
    Later session.environment left.environment := by
  cases advances with
  | load text => rw [load_environment]; exact .refl
  | loadFrom source =>
      cases source with
      | text content =>
          rw [Session.loadFrom, load_environment]
          exact .refl
      | unreadable reason => exact .refl
  | evaluate budget ended => exact evaluate_later ended
  | run budget text ran =>
      rcases Session.run_cases ran with ⟨_, -, -, rfl⟩ | ⟨program, ending, -, ended, -, rfl⟩
      · exact .refl
      · exact .single (.ended budget ended)

/-- The environment of a session comes to later moments of one scope. -/
theorem continues_later {session later : Session} (continues : session.Continues later) :
    Later session.environment later.environment := by
  induction continues with
  | refl => exact .refl
  | tail _ advances inductionHypothesis =>
      exact inductionHypothesis.trans (advances_later advances)

/-- Bindings are permanent. Every evaluation, however it ends, lets its environment grow,
and a call leaves it as it was. The environments of a session grow over all moments of
their evaluations, and as soon as a name stands for something, every definition of it is
refused. So a definition that succeeds is the first one of its name and the last one, also
among the definitions around it. -/
theorem bindings_permanent :
    (∀ {budget expression environment outcome left},
      evaluate budget expression environment = some (outcome, left) → environment.Grows left) ∧
    (∀ {budget callee operands environment outcome left},
      callLinked budget callee operands environment = some (outcome, left) →
      left = environment) ∧
    (∀ {session later : Session}, session.Continues later →
      Later session.environment later.environment) ∧
    (∀ {earlier later}, Later earlier later → earlier.Grows later ∧
      ∀ {name again}, earlier.lookup name ≠ none → Defines name again → Refused again later) ∧
    (∀ {name expression environment budget value left}, Defines name expression →
      evaluate budget expression environment = some (.ok value, left) →
      environment.lookup name = none ∧ left.lookup name = some (.value value) ∧
      (∀ {later again}, Later left later → Defines name again → Refused again later) ∧
      ∀ {outer scope}, Defines name outer →
        Relation.TransGen StartsInScope (outer, scope) (expression, environment) →
        ∀ enough result final, evaluate enough outer scope ≠ some (.ok result, final)) := by
  have refused {earlier later : Environment} {name : String} {again : Expr}
      (order : Later earlier later) (bound : earlier.lookup name ≠ none)
      (defines : Defines name again) : Refused again later :=
    refused_of_bound defines (order.grows.bound bound)
  refine ⟨evaluate_grows, call_keeps, continues_later,
    fun order => ⟨order.grows, refused order⟩, ?_⟩
  intro name expression environment budget value left defines ended
  obtain _ | budget := budget
  · cases ended
  · obtain ⟨head, target, body, tail, bare⟩ := id defines
    obtain ⟨middle, -, unbound, -, rfl⟩ := evaluate_defined head tail bare ended
    have found := middle.lookup_bind_same name value
    refine ⟨unbound, found, fun order => refused order ?_, fun outerDefines within =>
      define_fails_around outerDefines defines within ended⟩
    rw [found]
    exact Option.some_ne_none _

/-- `(define x "first")` -/
def firstDefinition : Expr :=
  .form (.symbol "define") [.leaf (.symbol "x"), .leaf (.string "first")]

/-- `(define x (define x "first"))` -/
def nestedDefinition : Expr :=
  .form (.symbol "define") [.leaf (.symbol "x"), firstDefinition]

/-- The initial environment with what the definition binds. -/
def afterFirst : Environment :=
  Environment.initial.bind "x" (.leaf (.string "first"))

/-- The first definition of a session succeeds, is refused from then on, and keeps the
definition around it from succeeding. -/
theorem first_definition_permanent :
    Environment.initial.Grows afterFirst ∧
      Later Environment.initial afterFirst ∧
      Environment.initial.lookup "x" = none ∧
      Refused firstDefinition afterFirst ∧
      (∀ enough result final,
        evaluate enough nestedDefinition .initial ≠ some (.ok result, final)) ∧
      (callLinked 3 (.lambda ["y"] nestedDefinition) [.leaf .none] .initial).map Prod.snd =
        some Environment.initial := by
  obtain ⟨grows, calls, sessions, moments, definitions⟩ := bindings_permanent
  have defines : Defines "x" firstDefinition := ⟨rfl, _, _, rfl, rfl⟩
  have ended : evaluate 2 firstDefinition .initial =
      some (.ok (.leaf (.string "first")), afterFirst) := rfl
  have continues : Session.Continues ⟨.initial, some firstDefinition⟩
      ⟨afterFirst, some firstDefinition⟩ := .single (.evaluate 2 rfl)
  have order : Later Environment.initial afterFirst := sessions continues
  have within : StartsInScope (nestedDefinition, .initial) (firstDefinition, .initial) :=
    .evaluation 1 fun failure => rfl
  obtain ⟨unbound, found, refused, around⟩ := definitions defines ended
  have bound : afterFirst.lookup "x" ≠ none := by
    rw [found]
    exact Option.some_ne_none _
  obtain ⟨outcome, left, called⟩ : ∃ outcome left,
      callLinked 3 (.lambda ["y"] nestedDefinition) [.leaf .none] .initial =
        some (outcome, left) := ⟨_, _, rfl⟩
  refine ⟨grows ended, order, unbound, (moments .refl).2 bound defines,
    around ⟨rfl, _, _, rfl, rfl⟩ (.single within), ?_⟩
  rw [called, ← calls called]
  rfl

end Evaluation

end FormLang
