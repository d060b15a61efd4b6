import FormLang.Proofs.Evaluation.Matching
import FormLang.Proofs.Procedures

/-!
Contract: what one evaluation keeps.

An invariant is a correspondence of an evaluation with itself: it says which
environments, expressions, values and failures are sound.

Owns: the invariants, their laws, those that concern environments only, and the theorem
that an evaluation of a sound expression in a sound environment ends soundly.
-/

set_option autoImplicit false

namespace FormLang.Evaluation

open Correspondence

/-- The call of `evaluate`: the scope of a function is linked to its caller's. -/
def callLinked (budget : Nat) : Caller :=
  call Environment.enter (evaluate budget)

/-- What is sound in an evaluation. -/
structure Invariant (World : Type) where
  environments : World → Environment → Prop
  expressions : World → Expr → Prop
  values : Expr → Prop
  functions : List String → Expr → Prop
  failures : Failure → Prop
  writable : World → String → Prop
  atoms : Atom → Prop

namespace Invariant

variable {World : Type}

/-- The outcome of a check is sound, a result by `accepted`. -/
def Checks {α : Type} (invariant : Invariant World) (accepted : α → Prop) :
    Except Failure α → Prop
  | .ok value => accepted value
  | .error failure => invariant.failures failure

/-- A result that is there is accepted. -/
theorem Checks.result {α : Type} {invariant : Invariant World} {accepted : α → Prop}
    {outcome : Except Failure α} (checks : invariant.Checks accepted outcome) :
    ∀ value, outcome = .ok value → accepted value := by
  rintro value rfl
  exact checks

/-- Where every failure is sound, only the result counts. -/
theorem checks_of_yields {α : Type} {invariant : Invariant World} {accepted : α → Prop}
    {outcome : Except Failure α} (failures : ∀ failure, invariant.failures failure)
    (yields : Procedure.Yields accepted outcome) : invariant.Checks accepted outcome := by
  cases outcome with
  | ok value => exact yields value rfl
  | error failure => exact failures failure

/-- A sound callee: every procedure, and functions with sound bodies. -/
def Callees (invariant : Invariant World) : Callee → Prop
  | .procedure _ => True
  | .lambda parameters body => invariant.functions parameters body

/-- What an invariant has to fulfil for evaluations to keep it. -/
structure Laws (invariant : Invariant World) : Prop where
  atom : ∀ {world expression}, invariant.expressions world expression →
    invariant.atoms expression.head
  lookup : ∀ {world expression name environment value},
    invariant.expressions world expression → expression.head = .symbol name →
    invariant.environments world environment → environment.lookup name = some (.value value) →
    invariant.values value
  operands : ∀ {world expression}, invariant.expressions world expression →
    expression.head ≠ .symbol Expr.lambdaTag →
    ∀ operand ∈ expression.tail, invariant.expressions world operand
  function : ∀ {world expression}, invariant.expressions world expression →
    expression.isLambda = true → invariant.values expression
  parameters : ∀ {world expression names body environment},
    invariant.expressions world expression → expression.head = .symbol Expr.lambdaTag →
    expression.isLambda = false → expression.tail = [names, body] →
    invariant.environments world environment →
    invariant.Checks (fun accepted => invariant.values (.lambda accepted body))
      (checkParameters environment (names.head.symbol? :: names.tail.map Expr.bareSymbol?))
  defines : ∀ {world expression target value name}, invariant.expressions world expression →
    expression.head = .symbol SpecialForm.define.name → expression.tail = [target, value] →
    target.bareSymbol? = some name → invariant.writable world name
  annotates : ∀ {world expression key value target name},
    invariant.expressions world expression →
    expression.head = .symbol SpecialForm.setProperty.name →
    expression.tail = [key, value, target] → target.bareSymbol? = some name →
    invariant.writable world name
  reads : ∀ {world expression value} (key : String), invariant.expressions world expression →
    expression.head = .symbol SpecialForm.getProperty.name → invariant.values value →
    invariant.values (value.property key)
  literal : ∀ {head}, invariant.atoms head → head.symbol? = none → invariant.values (.leaf head)
  list : ∀ {items}, (∀ item ∈ items, invariant.values item) → invariant.values (.list items)
  items : ∀ {value}, invariant.values value → value.isList = true →
    ∀ item ∈ value.tail, invariant.values item
  lambdaParts : ∀ {value parameters body}, invariant.values value →
    value.lambdaParts? = some (parameters, body) → invariant.functions parameters body
  setProperty : ∀ {value entry} (key : String), invariant.values value → invariant.values entry →
    invariant.values (value.setProperty key entry)
  failure : ∀ {failure : Failure}, (∀ atom, failure.atom? = some atom → invariant.atoms atom) →
    invariant.failures failure
  define : ∀ {world environment name value}, invariant.writable world name →
    invariant.environments world environment → invariant.values value →
    SpecialForm.named? name = none → environment.lookup name = none →
    invariant.environments world (environment.bind name value)
  annotate : ∀ {world environment name bound entry} (key : String),
    invariant.writable world name → invariant.environments world environment →
    invariant.values bound → invariant.values entry →
    environment.lookup name = some (.value bound) →
    invariant.environments world (environment.bind name (bound.setProperty key entry))
  procedure : ∀ (builtIn : Procedure) {operands},
    (∀ operand ∈ operands, invariant.values operand) →
    invariant.Checks invariant.values (builtIn.apply operands)
  enter : ∀ {world environment parameters body operands},
    invariant.functions parameters body → invariant.environments world environment →
    (∀ operand ∈ operands, invariant.values operand) → parameters.length = operands.length →
    ∃ inner, invariant.environments inner (environment.enter parameters operands) ∧
      invariant.expressions inner body

/-! ## Environments only -/

/-- Any expression may be evaluated, but only in these environments. -/
def ofEnvironments (environments : World → Environment → Prop) : Invariant World where
  environments := environments
  expressions _ _ := True
  values _ := True
  functions _ _ := True
  failures _ := True
  writable _ _ := True
  atoms _ := True

/-- Environments are kept if every write keeps them, and if the scope of a call is one of
them again. -/
theorem ofEnvironments_laws {environments : World → Environment → Prop}
    (define : ∀ {world environment name} (value : Expr), environments world environment →
      SpecialForm.named? name = none → environment.lookup name = none →
      environments world (environment.bind name value))
    (annotate : ∀ {world environment name bound} (key : String) (entry : Expr),
      environments world environment → environment.lookup name = some (.value bound) →
      environments world (environment.bind name (bound.setProperty key entry)))
    (enter : ∀ {world environment} (parameters : List String) (operands : List Expr),
      environments world environment →
      ∃ inner, environments inner (environment.enter parameters operands)) :
    (ofEnvironments environments).Laws where
  atom _ := trivial
  lookup _ _ _ _ := trivial
  operands _ _ _ _ := trivial
  function _ _ := trivial
  parameters _ _ _ _ _ := checks_of_yields (fun _ => trivial) (.any _)
  defines _ _ _ _ := trivial
  annotates _ _ _ _ := trivial
  reads _ _ _ _ := trivial
  literal _ _ := trivial
  list _ := trivial
  items _ _ _ _ := trivial
  lambdaParts _ _ := trivial
  setProperty _ _ _ := trivial
  failure _ := trivial
  define _ kept _ special unbound := define _ kept special unbound
  annotate key _ kept _ _ found := annotate key _ kept found
  procedure _ _ _ := checks_of_yields (fun _ => trivial) (.any _)
  enter _ kept _ _ := by
    obtain ⟨inner, scope⟩ := enter _ _ kept
    exact ⟨inner, scope, trivial⟩

/-! ## An invariant as a correspondence -/

/-- The correspondence of everything sound with itself. -/
def diagonal (invariant : Invariant World) : Correspondence World where
  environments world environment environment' :=
    environment = environment' ∧ invariant.environments world environment
  expressions world expression expression' :=
    expression = expression' ∧ invariant.expressions world expression
  values value value' := value = value' ∧ invariant.values value
  functions parameters body body' := body = body' ∧ invariant.functions parameters body
  failures failure failure' := failure = failure' ∧ invariant.failures failure
  writable := invariant.writable
  atoms := invariant.atoms

variable {invariant : Invariant World} {world : World}

/-- Lists that belong together item by item are one sound list. -/
theorem diagonal_forall₂ {α : Type} {sound : α → Prop} {left right : List α} :
    List.Forall₂ (fun item item' => item = item' ∧ sound item) left right ↔
      left = right ∧ ∀ item ∈ left, sound item := by
  constructor
  · intro belong
    induction belong with
    | nil => exact ⟨rfl, fun item member => absurd member List.not_mem_nil⟩
    | cons first _ inductionHypothesis =>
        refine ⟨by rw [first.1, inductionHypothesis.1], ?_⟩
        intro item member
        rcases List.mem_cons.mp member with same | later
        · exact same ▸ first.2
        · exact inductionHypothesis.2 item later
  · intro whole
    obtain ⟨rfl, sound⟩ := whole
    exact List.forall₂_same.mpr fun item member => ⟨rfl, sound item member⟩

theorem diagonal_checks {α : Type} {sound : α → Prop} {outcome : Except Failure α}
    (checks : invariant.Checks sound outcome) :
    invariant.diagonal.Checks (fun value value' => value = value' ∧ sound value)
      outcome outcome := by
  cases outcome with
  | ok value => exact .ok ⟨rfl, checks⟩
  | error failure => exact .error ⟨rfl, checks⟩

theorem diagonal_shows (laws : invariant.Laws) {expression : Expr}
    (sound : invariant.expressions world expression) :
    invariant.diagonal.Shows world expression expression where
  head := rfl
  isLeaf := rfl
  atom := laws.atom sound
  lookup := by
    intro name environment environment' head belong
    obtain ⟨rfl, environments⟩ := belong
    cases found : environment.lookup name with
    | none => exact .unbound
    | some binding =>
        cases binding with
        | procedure builtIn => exact .procedure builtIn
        | value value => exact .value ⟨rfl, laws.lookup sound head environments found⟩

theorem diagonal_laws (laws : invariant.Laws) : invariant.diagonal.Laws where
  shows := by
    intro world expression expression' belong
    obtain ⟨rfl, sound⟩ := belong
    exact diagonal_shows laws sound
  literal known plain := ⟨rfl, laws.literal known plain⟩
  list belong := by
    obtain ⟨rfl, sound⟩ := diagonal_forall₂.mp belong
    exact ⟨rfl, laws.list sound⟩
  isList := by
    intro value value' belong
    rw [belong.1]
  items := by
    intro value value' belong tagged
    obtain ⟨rfl, sound⟩ := belong
    exact diagonal_forall₂.mpr ⟨rfl, laws.items sound tagged⟩
  lambdaParts := by
    intro value value' belong
    obtain ⟨rfl, sound⟩ := belong
    cases parts : value.lambdaParts? with
    | none => exact .none
    | some pair => exact .some pair.1 ⟨rfl, laws.lambdaParts sound parts⟩
  string := by
    intro value value' belong
    rw [belong.1]
  setProperty := by
    intro value value' entry entry' key belong entries
    obtain ⟨rfl, sound⟩ := belong
    obtain ⟨rfl, soundEntry⟩ := entries
    exact ⟨rfl, laws.setProperty key sound soundEntry⟩
  failure named := ⟨rfl, laws.failure named⟩
  define := by
    intro world environment environment' name value value' writable scopes belong ordinary
      unbound _
    obtain ⟨rfl, environments⟩ := scopes
    obtain ⟨rfl, sound⟩ := belong
    exact ⟨rfl, laws.define writable environments sound ordinary unbound⟩
  annotate := by
    intro world environment environment' name bound bound' entry entry' key writable scopes belong
      entries found _
    obtain ⟨rfl, environments⟩ := scopes
    obtain ⟨rfl, sound⟩ := belong
    obtain ⟨rfl, soundEntry⟩ := entries
    exact ⟨rfl, laws.annotate key writable environments sound soundEntry found⟩

theorem diagonal_admits (laws : invariant.Laws) {expression : Expr}
    (sound : invariant.expressions world expression) :
    invariant.diagonal.Admits world expression expression where
  shows := diagonal_shows laws sound
  operands ordinary := diagonal_forall₂.mpr ⟨rfl, laws.operands sound ordinary⟩
  isLambda _ := rfl
  function isFunction := ⟨rfl, laws.function sound isFunction⟩
  makes head plain := by
    refine ⟨rfl, ?_⟩
    intro names body names' body' shape shape' environment environment' scopes
    obtain ⟨rfl, environments⟩ := scopes
    obtain ⟨rfl, rfl⟩ : names = names' ∧ body = body' := by
      rw [shape] at shape'
      simpa using shape'
    have checks := laws.parameters sound head plain shape environments
    revert checks
    generalize checkParameters environment _ = outcome
    intro checks
    cases outcome with
    | ok accepted => exact .ok ⟨rfl, checks⟩
    | error failure => exact .error ⟨rfl, checks⟩
  defines := laws.defines sound
  annotates := laws.annotates sound
  reads := by
    intro value value' key head belong
    obtain ⟨rfl, soundValue⟩ := belong
    exact ⟨rfl, laws.reads key sound head soundValue⟩

theorem diagonal_calls (laws : invariant.Laws) :
    invariant.diagonal.Calls Environment.enter Environment.enter where
  procedure builtIn operands operands' belong := by
    obtain ⟨rfl, sound⟩ := diagonal_forall₂.mp belong
    exact diagonal_checks (laws.procedure builtIn sound)
  enter := by
    intro world environment environment' parameters body body' operands operands' bodies scopes
      belong fits
    obtain ⟨rfl, sound⟩ := bodies
    obtain ⟨rfl, environments⟩ := scopes
    obtain ⟨rfl, soundOperands⟩ := diagonal_forall₂.mp belong
    obtain ⟨inner, scope, soundBody⟩ := laws.enter sound environments soundOperands fits
    exact ⟨inner, ⟨rfl, scope⟩, ⟨rfl, soundBody⟩⟩

/-- Evaluations of sound expressions match themselves. -/
theorem evaluate_matches (laws : invariant.Laws) (budget : Nat) {expression expression' : Expr}
    (sound : invariant.diagonal.expressions world expression expression') :
    invariant.diagonal.Matches False world invariant.diagonal.values (evaluate budget expression)
      (evaluate budget expression') :=
  evaluateBy_matches_evenly (diagonal_laws laws) (diagonal_calls laws)
    (by rintro world expression _ ⟨rfl, sound⟩; exact diagonal_admits laws sound) budget sound

/-- Calls of sound callees with sound operands match themselves. -/
theorem callLinked_matches (laws : invariant.Laws) (budget : Nat) {callee callee' : Callee}
    {operands operands' : List Expr} (callees : invariant.diagonal.Callees callee callee')
    (values : List.Forall₂ invariant.diagonal.values operands operands') :
    invariant.diagonal.Matches False world invariant.diagonal.values
      (callLinked budget callee operands) (callLinked budget callee' operands') :=
  call_matches (diagonal_laws laws) (diagonal_calls laws)
    (fun belong => evaluate_matches laws budget belong) callees values

/-! ## What is kept -/

/-- An ending that is sound: the environment that is left, and the value or failure. -/
def Ends (invariant : Invariant World) (world : World)
    (ending : Except Failure Expr × Environment) : Prop :=
  invariant.Checks invariant.values ending.1 ∧ invariant.environments world ending.2

theorem ends_of_outcomes {ending : Except Failure Expr × Environment}
    {ending' : Option (Except Failure Expr × Environment)}
    (outcomes : invariant.diagonal.Outcomes False world invariant.diagonal.values (some ending)
      ending') :
    ending' = some ending ∧ invariant.Ends world ending := by
  obtain ⟨outcome, left⟩ := ending
  cases outcomes with
  | ended checks environments =>
      obtain ⟨rfl, sound⟩ := environments
      cases checks with
      | ok values => obtain ⟨rfl, soundValue⟩ := values; exact ⟨rfl, soundValue, sound⟩
      | error failures => obtain ⟨rfl, soundFailure⟩ := failures; exact ⟨rfl, soundFailure, sound⟩

/-- An evaluation of a sound expression in a sound environment ends soundly. -/
theorem evaluate_ends (laws : invariant.Laws) {budget : Nat} {expression : Expr}
    {environment : Environment} {ending : Except Failure Expr × Environment}
    (sound : invariant.expressions world expression)
    (environments : invariant.environments world environment)
    (ended : evaluate budget expression environment = some ending) :
    invariant.Ends world ending := by
  have outcomes := evaluate_matches laws budget ⟨rfl, sound⟩ environment environment
    ⟨rfl, environments⟩
  rw [ended] at outcomes
  exact (ends_of_outcomes outcomes).2

/-- A call of a sound callee with sound operands ends soundly. -/
theorem call_ends (laws : invariant.Laws) {budget : Nat} {callee : Callee}
    {operands : List Expr} {environment : Environment}
    {ending : Except Failure Expr × Environment} (sound : invariant.Callees callee)
    (soundOperands : ∀ operand ∈ operands, invariant.values operand)
    (environments : invariant.environments world environment)
    (ended : callLinked budget callee operands environment = some ending) :
    invariant.Ends world ending := by
  have callees : invariant.diagonal.Callees callee callee := by
    cases callee with
    | procedure builtIn => exact .procedure builtIn
    | lambda parameters body => exact .lambda parameters ⟨rfl, sound⟩
  have outcomes := callLinked_matches laws budget callees
    (diagonal_forall₂.mpr ⟨rfl, soundOperands⟩) environment environment ⟨rfl, environments⟩
  rw [ended] at outcomes
  exact (ends_of_outcomes outcomes).2

end Invariant

end FormLang.Evaluation
