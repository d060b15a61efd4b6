import FormLang.Proofs.Evaluation.Rules

/-!
Contract: evaluations that end alike.

Two computations match if, from environments that belong together, both end with results
or failures and environments that belong together, or neither ends. The left one may also
be given too small a budget, where that is allowed.

Owns: matching as a comparison, matching with the certainty that the computations end as
another one, and the theorem that whole evaluations of expressions that belong together match.
-/

set_option autoImplicit false

namespace FormLang.Evaluation

variable {World α β γ δ : Type}

namespace Correspondence

/-- Endings that belong together. With `lags`, the left one may be missing. -/
inductive Outcomes (relation : Correspondence World) (lags : Prop) (world : World)
    (results : α → β → Prop) :
    Option (Except Failure α × Environment) → Option (Except Failure β × Environment) → Prop where
  | ended {outcome : Except Failure α} {outcome' : Except Failure β} {left left' : Environment}
      (checks : relation.Checks results outcome outcome')
      (environments : relation.environments world left left') :
      Outcomes relation lags world results (some (outcome, left)) (some (outcome', left'))
  | stalled : Outcomes relation lags world results none none
  | lagging (allowed : lags) (ending : Option (Except Failure β × Environment)) :
      Outcomes relation lags world results none ending

/-- Without lag, both endings are there and belong together, or both are missing. -/
theorem Outcomes.rel {relation : Correspondence World} {world : World} {results : α → β → Prop}
    {ending : Option (Except Failure α × Environment)}
    {ending' : Option (Except Failure β × Environment)}
    (outcomes : relation.Outcomes False world results ending ending') :
    Option.Rel (fun left right => relation.Checks results left.1 right.1 ∧
      relation.environments world left.2 right.2) ending ending' := by
  cases outcomes with
  | ended checks environments => exact .some ⟨checks, environments⟩
  | stalled => exact .none
  | lagging allowed => exact allowed.elim

/-- Computations that end alike in environments that belong together. -/
def Matches (relation : Correspondence World) (lags : Prop) (world : World)
    (results : α → β → Prop) (computation : Computation α) (computation' : Computation β) : Prop :=
  ∀ environment environment', relation.environments world environment environment' →
    relation.Outcomes lags world results (computation environment) (computation' environment')

namespace Matches

variable {relation : Correspondence World} {lags : Prop} {world inner : World}
  {results : α → β → Prop} {results' : γ → δ → Prop}

theorem check {outcome : Except Failure α} {outcome' : Except Failure β}
    (checks : relation.Checks results outcome outcome') :
    relation.Matches lags world results (.check outcome) (.check outcome') :=
  fun _ _ environments => .ended checks environments

theorem succeed {value : α} {value' : β} (values : results value value') :
    relation.Matches lags world results (pure value) (pure value') :=
  check (.ok values)

theorem fail {failure failure' : Failure} (failures : relation.failures failure failure') :
    relation.Matches lags world results (.fail failure) (.fail failure') :=
  check (.error failures)

theorem andThen {first : Computation α} {first' : Computation β} {next : α → Computation γ}
    {next' : β → Computation δ} (firsts : relation.Matches lags world results first first')
    (nexts : ∀ value value', results value value' →
      relation.Matches lags world results' (next value) (next' value')) :
    relation.Matches lags world results' (first >>= next) (first' >>= next') := by
  intro environment environment' environments
  have outcomes := firsts environment environment' environments
  rw [Computation.bind_apply, Computation.bind_apply]
  revert outcomes
  generalize first environment = ending
  generalize first' environment' = ending'
  intro outcomes
  cases outcomes with
  | ended checks lefts =>
      cases checks with
      | ok values => exact nexts _ _ values _ _ lefts
      | error failures => exact .ended (.error failures) lefts
  | stalled => exact .stalled
  | lagging allowed ending => exact .lagging allowed _

theorem reading {next : Environment → Computation α} {next' : Environment → Computation β}
    (nexts : ∀ environment environment', relation.environments world environment environment' →
      relation.Matches lags world results (next environment) (next' environment')) :
    relation.Matches lags world results (Computation.environment >>= next)
      (Computation.environment >>= next') :=
  fun environment environment' environments =>
    nexts environment environment' environments environment environment' environments

theorem replace {next next' : Environment}
    (environments : relation.environments world next next') :
    relation.Matches lags world (fun _ _ => True) (.replace next) (.replace next') :=
  fun _ _ _ => .ended (.ok trivial) environments

/-- Where a computation runs in another scope, its own scope is left as it was. -/
theorem inside {scope scope' : Environment} {computation : Computation α}
    {computation' : Computation β} (scopes : relation.environments inner scope scope')
    (computations : relation.Matches lags inner results computation computation') :
    relation.Matches lags world results (.inside scope computation)
      (.inside scope' computation') := by
  intro environment environment' environments
  have outcomes := computations scope scope' scopes
  unfold Computation.inside
  revert outcomes
  generalize computation scope = ending
  generalize computation' scope' = ending'
  intro outcomes
  cases outcomes with
  | ended checks _ => exact .ended checks environments
  | stalled => exact .stalled
  | lagging allowed ending => exact .lagging allowed _

/-- A new name is bound on both sides or refused on both. -/
theorem bindNew (laws : relation.Laws) {name : String} {value value' : Expr}
    (known : relation.atoms (.symbol name)) (writable : relation.writable world name)
    (ordinary : SpecialForm.named? name = none)
    (lookups : ∀ environment environment', relation.environments world environment environment' →
      relation.Bindings (environment.lookup name) (environment'.lookup name))
    (values : relation.values value value') :
    relation.Matches lags world relation.values (bindNew name value) (bindNew name value') := by
  refine reading fun environment environment' environments => ?_
  have extends? : relation.Checks (relation.environments world)
      (environment.define name value) (environment'.define name value') := by
    rw [Environment.define_eq, Environment.define_eq]
    rcases (lookups environment environment' environments).kinds with
      ⟨left, right⟩ | ⟨builtIn, left, right⟩ | ⟨bound, bound', left, right, -⟩
    · have extended := laws.define writable environments values ordinary left right
      rw [left, right]
      exact .ok extended
    · rw [left, right]
      exact .error (laws.headFailure rfl known)
    · rw [left, right]
      exact .error (laws.headFailure rfl known)
  refine andThen (check extends?) fun extended extended' scopes => ?_
  exact andThen (replace scopes) fun _ _ _ => succeed values

/-- A name is annotated on both sides, or on neither. -/
theorem annotateOr (laws : relation.Laws) {target : Option String} {key : String}
    {entry entry' : Expr} {otherwise otherwise' : Computation Expr}
    (writable : ∀ name, target = some name → relation.writable world name ∧
      ∀ environment environment', relation.environments world environment environment' →
        relation.Bindings (environment.lookup name) (environment'.lookup name))
    (entries : relation.values entry entry')
    (others : relation.Matches lags world relation.values otherwise otherwise') :
    relation.Matches lags world relation.values (annotateOr target key entry otherwise)
      (annotateOr target key entry' otherwise') := by
  refine reading fun environment environment' environments => ?_
  cases target with
  | none => exact others
  | some name =>
      obtain ⟨allowed, lookups⟩ := writable name rfl
      simp only [Option.bind_some]
      rw [Environment.annotate?_eq, Environment.annotate?_eq]
      rcases (lookups environment environment' environments).kinds with
        ⟨left, right⟩ | ⟨builtIn, left, right⟩ | ⟨bound, bound', left, right, values⟩
      · rw [left, right]
        exact others
      · rw [left, right]
        exact others
      · have updated := laws.annotate key allowed environments values entries left right
        rw [left, right]
        exact andThen (replace updated) fun _ _ _ => succeed (laws.setProperty key values entries)

end Matches

end Correspondence

/-- Matching is a comparison. -/
def matching {relation : Correspondence World} (laws : relation.Laws) (lags : Prop) :
    Comparison relation where
  Matches := relation.Matches lags
  succeed := .succeed
  fail := .fail
  check := .check
  andThen := .andThen
  reading := .reading
  bindNew := .bindNew laws
  annotateOr := .annotateOr laws

/-! ## Computations that end -/

namespace Correspondence

/-- Computations that end alike, and do end. -/
def Finish (relation : Correspondence World) (world : World) (results : α → β → Prop)
    (computation : Computation α) (computation' : Computation β) : Prop :=
  relation.Matches False world results computation computation' ∧
    ∀ environment environment', relation.environments world environment environment' →
      (computation environment).isSome = true

namespace Finish

variable {relation : Correspondence World} {world : World}
variable {results : α → β → Prop} {results' : γ → δ → Prop}

theorem andThen {first : Computation α} {first' : Computation β} {next : α → Computation γ}
    {next' : β → Computation δ} (firsts : relation.Finish world results first first')
    (nexts : ∀ value value', results value value' →
      relation.Finish world results' (next value) (next' value')) :
    relation.Finish world results' (first >>= next) (first' >>= next') := by
  refine ⟨.andThen firsts.1 fun value value' values => (nexts value value' values).1, ?_⟩
  intro environment environment' environments
  have outcomes := firsts.1 environment environment' environments
  have ends := firsts.2 environment environment' environments
  rw [Computation.bind_apply]
  revert outcomes ends
  generalize first environment = ending
  generalize first' environment' = ending'
  intro outcomes ends
  cases outcomes with
  | ended checks lefts =>
      cases checks with
      | ok values => exact (nexts _ _ values).2 _ _ lefts
      | error failures => rfl
  | stalled => cases ends
  | lagging allowed ending => exact allowed.elim

theorem reading {next : Environment → Computation α} {next' : Environment → Computation β}
    (nexts : ∀ environment environment', relation.environments world environment environment' →
      relation.Finish world results (next environment) (next' environment')) :
    relation.Finish world results (Computation.environment >>= next)
      (Computation.environment >>= next') :=
  ⟨.reading fun environment environment' environments =>
      (nexts environment environment' environments).1,
    fun environment environment' environments =>
      (nexts environment environment' environments).2 environment environment' environments⟩

theorem annotateOr (laws : relation.Laws) {target : Option String} {key : String}
    {entry entry' : Expr} {otherwise otherwise' : Computation Expr}
    (writable : ∀ name, target = some name → relation.writable world name ∧
      ∀ environment environment', relation.environments world environment environment' →
        relation.Bindings (environment.lookup name) (environment'.lookup name))
    (entries : relation.values entry entry')
    (others : relation.Finish world relation.values otherwise otherwise') :
    relation.Finish world relation.values (annotateOr target key entry otherwise)
      (annotateOr target key entry' otherwise') := by
  refine ⟨.annotateOr laws writable entries others.1, ?_⟩
  intro environment environment' environments
  rw [Evaluation.annotateOr, Computation.bind_apply]
  simp only [Computation.environment]
  cases target.bind fun name => environment.annotate? name key entry with
  | none => exact others.2 environment environment' environments
  | some pair => rfl

end Finish

end Correspondence

/-- Binding a new name ends, with the value or with a refusal. -/
theorem bindNew_isSome (name : String) (value : Expr) (environment : Environment) :
    (bindNew name value environment).isSome = true := by
  have shape : bindNew name value environment =
      (Computation.check (environment.define name value) >>= fun extended => do
        Computation.replace extended
        return value : Computation Expr) environment := rfl
  rw [shape, Computation.bind_apply, Computation.check]
  cases environment.define name value <;> rfl

/-- Matching with the certainty of an end is a comparison. -/
def finishing {relation : Correspondence World} (laws : relation.Laws) : Comparison relation where
  Matches := relation.Finish
  succeed values := ⟨.succeed values, fun _ _ _ => rfl⟩
  fail failures := ⟨.fail failures, fun _ _ _ => rfl⟩
  check checks := ⟨.check checks, fun _ _ _ => rfl⟩
  andThen := .andThen
  reading := .reading
  bindNew known writable ordinary lookups values :=
    ⟨.bindNew laws known writable ordinary lookups values,
      fun environment _ _ => bindNew_isSome _ _ environment⟩
  annotateOr := .annotateOr laws

/-! ## Whole evaluations -/

section Whole

variable {relation : Correspondence World} (laws : relation.Laws) {lags : Prop} {world : World}
variable {enter enter' : Entry} (entries : relation.Calls enter enter')

include laws entries

/-- A call keeps the correspondence if the bodies of functions do. -/
theorem call_matches {evaluate evaluate' : Evaluator}
    (evaluates : ∀ {inner expression expression'},
      relation.expressions inner expression expression' →
      relation.Matches lags inner relation.values (evaluate expression) (evaluate' expression'))
    {callee callee' : Callee} {operands operands' : List Expr}
    (callees : relation.Callees callee callee')
    (values : List.Forall₂ relation.values operands operands') :
    relation.Matches lags world relation.values (call enter evaluate callee operands)
      (call enter' evaluate' callee' operands') := by
  cases callees with
  | procedure builtIn => exact .check (entries.procedure builtIn values)
  | lambda parameters functions =>
      simp only [call]
      rw [← values.length_eq]
      by_cases fits : parameters.length = operands.length
      · rw [if_pos fits, if_pos fits]
        refine .reading fun _ _ environments => ?_
        obtain ⟨inner, scopes, bodies⟩ := entries.enter functions environments values fits
        exact .inside scopes (evaluates bodies)
      · rw [if_neg fits, if_neg fits]
        exact .fail (laws.plainFailure rfl)

/-- Evaluations of expressions that belong together match, whatever the budgets, as long
as the left one is not the greater. -/
theorem evaluateBy_matches
    (admits : ∀ {world expression expression'},
      relation.expressions world expression expression' →
      relation.Admits world expression expression')
    {budget budget' : Nat} (covered : budget ≤ budget') (lag : budget < budget' → lags)
    {expression expression' : Expr} (belong : relation.expressions world expression expression') :
    relation.Matches lags world relation.values (evaluateBy enter budget expression)
      (evaluateBy enter' budget' expression') := by
  induction budget generalizing budget' world expression expression' with
  | zero =>
      intro environment environment' environments
      cases budget' with
      | zero => exact .stalled
      | succ budget' => exact .lagging (lag (Nat.succ_pos budget')) _
  | succ budget inductionHypothesis =>
      obtain _ | budget' := budget'
      · exact absurd covered (Nat.not_succ_le_zero budget)
      · have evaluates : ∀ {inner expression expression'},
            relation.expressions inner expression expression' →
            relation.Matches lags inner relation.values (evaluateBy enter budget expression)
              (evaluateBy enter' budget' expression') :=
          fun belong => inductionHypothesis (Nat.le_of_succ_le_succ covered)
            (fun less => lag (Nat.succ_lt_succ less)) belong
        exact step_matches laws (matching laws lags) evaluates
          (fun callees values => call_matches laws entries evaluates callees values)
          (admits belong)

/-- Within one budget, neither of the evaluations lags behind. -/
theorem evaluateBy_matches_evenly
    (admits : ∀ {world expression expression'},
      relation.expressions world expression expression' →
      relation.Admits world expression expression')
    (budget : Nat) {expression expression' : Expr}
    (belong : relation.expressions world expression expression') :
    relation.Matches False world relation.values (evaluateBy enter budget expression)
      (evaluateBy enter' budget expression') :=
  evaluateBy_matches laws entries admits (Nat.le_refl budget)
    (fun less => absurd less (Nat.lt_irrefl budget)) belong

end Whole

end FormLang.Evaluation
