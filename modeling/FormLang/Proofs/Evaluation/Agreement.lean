import FormLang.Proofs.Evaluation.Matching

/-!
Contract: evaluations of one expression that differ in their environments only.

Owns: the correspondence in which expressions, values and failures are the same on both
sides, its laws as soon as the environments let every name stand for the same, and the
independence of an evaluation from a budget that suffices.
-/

set_option autoImplicit false

namespace FormLang

namespace Evaluation

open Correspondence

variable {World : Type}

/-- Everything is the same on both sides except for the environments. -/
def agreement (environments : World → Environment → Environment → Prop) :
    Correspondence World where
  environments := environments
  expressions _ := Eq
  values := Eq
  functions _ := Eq
  failures := Eq
  writable _ _ := True
  atoms _ := True

variable {environments : World → Environment → Environment → Prop} {world : World}

/-- In environments with the same procedures of these names, parameters are accepted and
refused alike. -/
theorem checkParameters_congr {environment environment' : Environment}
    {names : List (Option String)}
    (same : ∀ name, some name ∈ names → environment.procedure? name = environment'.procedure? name) :
    checkParameters environment names = checkParameters environment' names := by
  induction names with
  | nil => rfl
  | cons first rest inductionHypothesis =>
      have others := inductionHypothesis fun name member =>
        same name (List.mem_cons_of_mem first member)
      cases first with
      | none => rfl
      | some name => rw [checkParameters, checkParameters, others, same name List.mem_cons_self]

theorem agreement_bindings {binding binding' : Option Binding} (same : binding = binding') :
    (agreement environments).Bindings binding binding' := by
  subst same
  cases binding with
  | none => exact .unbound
  | some binding =>
      cases binding with
      | value expression => exact .value rfl
      | procedure builtIn => exact .procedure builtIn

theorem agreement_functions {parts parts' : Option (List String × Expr)} (same : parts = parts') :
    (agreement environments).Functions parts parts' := by
  subst same
  cases parts with
  | none => exact .none
  | some parts => exact .some parts.1 rfl

theorem agreement_callees {callee callee' : Callee}
    (callees : (agreement environments).Callees callee callee') : callee = callee' := by
  cases callees with
  | procedure builtIn => rfl
  | lambda parameters functions => exact congrArg (Callee.lambda parameters) functions

theorem agreement_checks {α : Type} {outcome outcome' : Except Failure α}
    (same : outcome = outcome') : (agreement environments).Checks Eq outcome outcome' := by
  subst same
  cases outcome with
  | ok value => exact .ok rfl
  | error failure => exact .error rfl

theorem agreement_shows
    (lookups : ∀ {world environment environment'}, environments world environment environment' →
      ∀ name, environment.lookup name = environment'.lookup name)
    (expression : Expr) :
    (agreement environments).Shows world expression expression where
  head := rfl
  isLeaf := rfl
  atom := trivial
  lookup name _ _ _ belong := agreement_bindings (lookups belong name)

theorem agreement_laws
    (lookups : ∀ {world environment environment'}, environments world environment environment' →
      ∀ name, environment.lookup name = environment'.lookup name)
    (define : ∀ {world environment environment' name} (value : Expr),
      environments world environment environment' → environment.lookup name = none →
      environments world (environment.bind name value) (environment'.bind name value))
    (annotate : ∀ {world environment environment' name bound} (key : String) (entry : Expr),
      environments world environment environment' →
      environment.lookup name = some (.value bound) →
      environments world (environment.bind name (bound.setProperty key entry))
        (environment'.bind name (bound.setProperty key entry))) :
    (agreement environments).Laws where
  shows := by
    intro world expression expression' same
    subst same
    exact agreement_shows lookups expression
  literal _ _ := rfl
  list items := congrArg Expr.list (List.forall₂_eq_eq_eq ▸ items)
  isList := by
    intro value value' same
    rw [same]
  items := by
    intro value value' same _
    subst same
    exact List.forall₂_same.mpr fun _ _ => rfl
  lambdaParts := by
    intro value value' same
    subst same
    exact agreement_functions rfl
  string := by
    intro value value' same
    rw [same]
  setProperty := by
    intro value value' entry entry' key same sameEntry
    exact congrArg₂ (Expr.setProperty · key) same sameEntry
  failure _ := rfl
  define := by
    intro world environment environment' name value value' _ belong same _ unbound _
    subst same
    exact define value belong unbound
  annotate := by
    intro world environment environment' name bound bound' entry entry' key _ belong same
      sameEntry found _
    subst same sameEntry
    exact annotate key entry belong found

theorem agreement_admits
    (lookups : ∀ {world environment environment'}, environments world environment environment' →
      ∀ name, environment.lookup name = environment'.lookup name)
    (expression : Expr) :
    (agreement environments).Admits world expression expression where
  shows := agreement_shows lookups expression
  operands _ := List.forall₂_same.mpr fun _ _ => rfl
  isLambda _ := rfl
  function _ := rfl
  makes _ _ := by
    refine ⟨rfl, ?_⟩
    intro names body names' body' shape shape' environment environment' belong
    obtain ⟨rfl, rfl⟩ : names = names' ∧ body = body' := by
      rw [shape] at shape'
      simpa using shape'
    rw [checkParameters_congr fun name _ => Environment.procedure?_congr (lookups belong name)]
    cases checkParameters environment' (names.head.symbol? :: names.tail.map Expr.bareSymbol?) with
    | ok accepted => exact .ok rfl
    | error failure => exact .error rfl
  defines _ _ _ := trivial
  annotates _ _ _ := trivial
  reads := by
    intro value value' key _ same
    exact congrArg (Expr.property · key) same

theorem agreement_calls {enter enter' : Entry}
    (entries : ∀ {world environment environment'} (parameters : List String)
      (operands : List Expr), environments world environment environment' →
      ∃ inner, environments inner (enter environment parameters operands)
        (enter' environment' parameters operands)) :
    (agreement environments).Calls enter enter' where
  procedure builtIn operands operands' same :=
    agreement_checks (congrArg builtIn.apply (List.forall₂_eq_eq_eq ▸ same))
  enter := by
    intro world environment environment' parameters body body' operands operands' bodies belong
      same _
    subst bodies
    obtain rfl : operands = operands' := List.forall₂_eq_eq_eq ▸ same
    obtain ⟨inner, scopes⟩ := entries parameters operands belong
    exact ⟨inner, scopes, rfl⟩

/-! ## Budgets -/

/-- The environments are the same, too. -/
def SameEnvironment (_ : Unit) (environment environment' : Environment) : Prop :=
  environment = environment'

theorem SameEnvironment.lookup {environment environment' : Environment}
    (same : SameEnvironment () environment environment') (name : String) :
    environment.lookup name = environment'.lookup name := by
  rw [same]

theorem same_laws : (agreement SameEnvironment).Laws :=
  agreement_laws (fun same => same.lookup)
    (by rintro _ environment _ name value rfl _; rfl)
    (by rintro _ environment _ name bound key entry rfl _; rfl)

theorem same_calls (enter : Entry) : (agreement SameEnvironment).Calls enter enter :=
  agreement_calls (by rintro _ environment _ parameters operands rfl; exact ⟨(), rfl⟩)

theorem same_admits {expression expression' : Expr} (same : expression = expression') :
    (agreement SameEnvironment).Admits () expression expression' := by
  subst same
  exact agreement_admits (fun same => same.lookup) expression

/-- Every ending belongs together with itself. -/
theorem same_outcomes {α : Type} {lags : Prop}
    (ending : Option (Except Failure α × Environment)) :
    (agreement SameEnvironment).Outcomes lags () Eq ending ending := by
  cases ending with
  | none => exact .stalled
  | some ending => exact .ended (agreement_checks rfl) rfl

/-- An ending belongs together with no other one. -/
theorem same_of_outcomes {α : Type} {lags : Prop} {ending : Except Failure α × Environment}
    {ending' : Option (Except Failure α × Environment)}
    (outcomes : (agreement SameEnvironment).Outcomes lags () Eq (some ending) ending') :
    ending' = some ending := by
  cases outcomes with
  | ended checks left =>
      cases left
      cases checks with
      | ok same => cases same; rfl
      | error same => cases same; rfl

/-- Within a greater budget the same evaluations end, in the same ways. -/
theorem evaluateBy_covered {enter : Entry} {budget budget' : Nat} (covered : budget ≤ budget')
    {expression expression' : Expr} (same : expression = expression') :
    (agreement SameEnvironment).Matches True () Eq (evaluateBy enter budget expression)
      (evaluateBy enter budget' expression') :=
  evaluateBy_matches same_laws (same_calls enter) same_admits covered (fun _ => trivial) same

/-- An evaluation that ends within a budget ends in the same way within any greater one. -/
theorem evaluateBy_mono {enter : Entry} {budget budget' : Nat} (covered : budget ≤ budget')
    {expression : Expr} {environment : Environment}
    {ending : Except Failure Expr × Environment}
    (ended : evaluateBy enter budget expression environment = some ending) :
    evaluateBy enter budget' expression environment = some ending := by
  have results : (agreement SameEnvironment).Matches True () Eq
      (evaluateBy enter budget expression) (evaluateBy enter budget' expression) :=
    evaluateBy_covered covered rfl
  have outcomes := results environment environment rfl
  rw [ended] at outcomes
  exact same_of_outcomes outcomes

theorem evaluate_mono {budget budget' : Nat} (covered : budget ≤ budget')
    {expression : Expr} {environment : Environment}
    {ending : Except Failure Expr × Environment}
    (ended : evaluate budget expression environment = some ending) :
    evaluate budget' expression environment = some ending :=
  evaluateBy_mono covered ended

/-- An evaluation ends in at most one way. -/
theorem evaluate_unique {budget budget' : Nat} {expression : Expr} {environment : Environment}
    {ending ending' : Except Failure Expr × Environment}
    (ended : evaluate budget expression environment = some ending)
    (ended' : evaluate budget' expression environment = some ending') : ending = ending' := by
  have first := evaluate_mono (Nat.le_max_left budget budget') ended
  have second := evaluate_mono (Nat.le_max_right budget budget') ended'
  rw [first] at second
  exact Option.some.inj second

end Evaluation

end FormLang
