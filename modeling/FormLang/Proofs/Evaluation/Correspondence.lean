import FormLang.Evaluation.Evaluate
import FormLang.Proofs.Scopes
import Mathlib.Data.List.Forall2

/-!
Contract: comparing two evaluations step by step.

A correspondence says which environments, expressions, values and failures of two
evaluations belong together. What it demands of the environments depends on a world,
which stays the same within a scope and is chosen anew for the scope of a call.

Owns: the correspondences and their laws, what has to be known of two expressions that
are evaluated, and the comparisons of computations that respect a correspondence.
Does not own: the rules of evaluation, and any particular comparison.
-/

set_option autoImplicit false

namespace FormLang

/-- The atom of the program that a failure names, if it names one. -/
def Failure.atom? : Failure → Option Atom
  | .procedureAsValue name => some (.symbol name)
  | .unknownSymbol name => some (.symbol name)
  | .unknownProcedure name => some (.symbol name)
  | .parameterReserved name => some (.symbol name)
  | .redefinedForm name => some (.symbol name)
  | .redefinedProcedure name => some (.symbol name)
  | .redefinedSymbol name => some (.symbol name)
  | .headNotProcedure head => some head
  | _ => none

namespace Evaluation

/-- What belongs together in two evaluations. -/
structure Correspondence (World : Type) where
  /-- Environments of one scope. -/
  environments : World → Environment → Environment → Prop
  /-- Expressions that are evaluated in corresponding environments. -/
  expressions : World → Expr → Expr → Prop
  values : Expr → Expr → Prop
  /-- Bodies of function values, under common parameters. -/
  functions : List String → Expr → Expr → Prop
  failures : Failure → Failure → Prop
  /-- The names that the expressions of a scope may define or annotate. -/
  writable : World → String → Prop
  /-- The atoms that the expressions may have as heads. -/
  atoms : Atom → Prop

variable {World α β γ δ : Type}

namespace Correspondence

/-- Bindings that belong together. -/
inductive Bindings (relation : Correspondence World) :
    Option Binding → Option Binding → Prop where
  | unbound : Bindings relation none none
  | procedure (builtIn : Procedure) :
      Bindings relation (some (.procedure builtIn)) (some (.procedure builtIn))
  | value {value value' : Expr} (values : relation.values value value') :
      Bindings relation (some (.value value)) (some (.value value'))

/-- Bindings that belong together are of one kind. -/
theorem Bindings.kinds {relation : Correspondence World} {binding binding' : Option Binding}
    (bindings : relation.Bindings binding binding') :
    (binding = none ∧ binding' = none) ∨
    (∃ builtIn, binding = some (.procedure builtIn) ∧ binding' = some (.procedure builtIn)) ∨
    (∃ value value', binding = some (.value value) ∧ binding' = some (.value value') ∧
      relation.values value value') := by
  cases bindings with
  | unbound => exact Or.inl ⟨rfl, rfl⟩
  | procedure builtIn => exact Or.inr (Or.inl ⟨builtIn, rfl, rfl⟩)
  | value values => exact Or.inr (Or.inr ⟨_, _, rfl, rfl, values⟩)

/-- Parts of function values that belong together. -/
inductive Functions (relation : Correspondence World) :
    Option (List String × Expr) → Option (List String × Expr) → Prop where
  | none : Functions relation none none
  | some (parameters : List String) {body body' : Expr}
      (functions : relation.functions parameters body body') :
      Functions relation (some (parameters, body)) (some (parameters, body'))

/-- Parts of function values that belong together are both there or both missing. -/
theorem Functions.kinds {relation : Correspondence World}
    {parts parts' : Option (List String × Expr)} (functions : relation.Functions parts parts') :
    (parts = Option.none ∧ parts' = Option.none) ∨
    (∃ parameters body body', parts = Option.some (parameters, body) ∧
      parts' = Option.some (parameters, body') ∧ relation.functions parameters body body') := by
  cases functions with
  | none => exact Or.inl ⟨rfl, rfl⟩
  | some parameters functions => exact Or.inr ⟨parameters, _, _, rfl, rfl, functions⟩

/-- Callees that belong together. -/
inductive Callees (relation : Correspondence World) : Callee → Callee → Prop where
  | procedure (builtIn : Procedure) :
      Callees relation (.procedure builtIn) (.procedure builtIn)
  | lambda (parameters : List String) {body body' : Expr}
      (functions : relation.functions parameters body body') :
      Callees relation (.lambda parameters body) (.lambda parameters body')

/-- Results of checks that belong together, the accepted ones by `accepted`. -/
inductive Checks (relation : Correspondence World) (accepted : α → β → Prop) :
    Except Failure α → Except Failure β → Prop where
  | ok {value : α} {value' : β} (values : accepted value value') :
      Checks relation accepted (.ok value) (.ok value')
  | error {failure failure' : Failure} (failures : relation.failures failure failure') :
      Checks relation accepted (.error failure) (.error failure')

/-! ## The laws -/

/-- What two expressions that belong together show of themselves: their heads, whether
they are leaves, and what their heads stand for. -/
structure Shows (relation : Correspondence World) (world : World)
    (expression expression' : Expr) : Prop where
  head : expression'.head = expression.head
  isLeaf : expression'.isLeaf = expression.isLeaf
  atom : relation.atoms expression.head
  lookup : ∀ name environment environment', expression.head = .symbol name →
    relation.environments world environment environment' →
    relation.Bindings (environment.lookup name) (environment'.lookup name)

/-- What a correspondence has to fulfil for the rules of evaluation to keep it. -/
structure Laws (relation : Correspondence World) : Prop where
  shows : ∀ {world expression expression'}, relation.expressions world expression expression' →
    relation.Shows world expression expression'
  literal : ∀ {head}, relation.atoms head → head.symbol? = none →
    relation.values (.leaf head) (.leaf head)
  list : ∀ {items items'}, List.Forall₂ relation.values items items' →
    relation.values (.list items) (.list items')
  isList : ∀ {value value'}, relation.values value value' → value'.isList = value.isList
  items : ∀ {value value'}, relation.values value value' → value.isList = true →
    List.Forall₂ relation.values value.tail value'.tail
  lambdaParts : ∀ {value value'}, relation.values value value' →
    relation.Functions value.lambdaParts? value'.lambdaParts?
  string : ∀ {value value'}, relation.values value value' →
    value'.head.string? = value.head.string?
  setProperty : ∀ {value value' entry entry'} (key : String), relation.values value value' →
    relation.values entry entry' →
    relation.values (value.setProperty key entry) (value'.setProperty key entry')
  failure : ∀ {failure : Failure}, (∀ atom, failure.atom? = some atom → relation.atoms atom) →
    relation.failures failure failure
  define : ∀ {world environment environment' name value value'},
    relation.writable world name → relation.environments world environment environment' →
    relation.values value value' → SpecialForm.named? name = none →
    environment.lookup name = none → environment'.lookup name = none →
    relation.environments world (environment.bind name value) (environment'.bind name value')
  annotate : ∀ {world environment environment' name bound bound' entry entry'} (key : String),
    relation.writable world name → relation.environments world environment environment' →
    relation.values bound bound' → relation.values entry entry' →
    environment.lookup name = some (.value bound) →
    environment'.lookup name = some (.value bound') →
    relation.environments world (environment.bind name (bound.setProperty key entry))
      (environment'.bind name (bound'.setProperty key entry'))

/-- What a correspondence has to fulfil for calls: procedures keep it, and the scope of
a function has a world in which the body belongs to itself. -/
structure Calls (relation : Correspondence World) (enter enter' : Entry) : Prop where
  procedure : ∀ (builtIn : Procedure) {operands operands'},
    List.Forall₂ relation.values operands operands' →
    relation.Checks relation.values (builtIn.apply operands) (builtIn.apply operands')
  enter : ∀ {world environment environment' parameters body body' operands operands'},
    relation.functions parameters body body' →
    relation.environments world environment environment' →
    List.Forall₂ relation.values operands operands' → parameters.length = operands.length →
    ∃ inner, relation.environments inner (enter environment parameters operands)
        (enter' environment' parameters operands') ∧
      relation.expressions inner body body'

/-- What the parameters of a form that makes a function lead to in environments that
belong together. -/
def Parameters (relation : Correspondence World) (world : World) (operands operands' : List Expr) :
    Prop :=
  ∀ names body names' body', operands = [names, body] → operands' = [names', body'] →
    ∀ environment environment', relation.environments world environment environment' →
    relation.Checks
      (fun accepted accepted' => relation.values (.lambda accepted body) (.lambda accepted' body'))
      (checkParameters environment (names.head.symbol? :: names.tail.map Expr.bareSymbol?))
      (checkParameters environment' (names'.head.symbol? :: names'.tail.map Expr.bareSymbol?))

/-- What is known about two expressions that are evaluated: their operands belong
together, and each special form finds what it needs. -/
structure Admits (relation : Correspondence World) (world : World)
    (expression expression' : Expr) : Prop where
  shows : relation.Shows world expression expression'
  operands : expression.head ≠ .symbol Expr.lambdaTag →
    List.Forall₂ (relation.expressions world) expression.tail expression'.tail
  isLambda : expression.head = .symbol Expr.lambdaTag →
    expression'.isLambda = expression.isLambda
  function : expression.isLambda = true → relation.values expression expression'
  makes : expression.head = .symbol Expr.lambdaTag → expression.isLambda = false →
    expression.tail.length = expression'.tail.length ∧
      relation.Parameters world expression.tail expression'.tail
  defines : ∀ {target value name}, expression.head = .symbol SpecialForm.define.name →
    expression.tail = [target, value] → target.bareSymbol? = some name →
    relation.writable world name
  annotates : ∀ {key value target name},
    expression.head = .symbol SpecialForm.setProperty.name →
    expression.tail = [key, value, target] → target.bareSymbol? = some name →
    relation.writable world name
  reads : ∀ {value value'} (key : String),
    expression.head = .symbol SpecialForm.getProperty.name →
    relation.values value value' → relation.values (value.property key) (value'.property key)

end Correspondence

/-! ## Computations -/

/-- Bind a new name to a value, which is the result. -/
def bindNew (name : String) (value : Expr) : Computation Expr := do
  let extended ← Computation.check ((← Computation.environment).define name value)
  Computation.replace extended
  return value

/-- Annotate the value that a name is bound to, or else go on otherwise. -/
def annotateOr (target : Option String) (key : String) (entry : Expr)
    (otherwise : Computation Expr) : Computation Expr := do
  let environment ← Computation.environment
  match target.bind fun name => environment.annotate? name key entry with
  | some (annotated, updated) =>
      Computation.replace updated
      return annotated
  | none => otherwise

/-- A way of comparing computations under a correspondence that respects how the rules of
evaluation put computations together. -/
structure Comparison (relation : Correspondence World) where
  Matches : {α β : Type} → World → (α → β → Prop) → Computation α → Computation β → Prop
  succeed : ∀ {α β : Type} {world : World} {results : α → β → Prop} {value : α} {value' : β},
    results value value' → Matches world results (pure value) (pure value')
  fail : ∀ {α β : Type} {world : World} {results : α → β → Prop} {failure failure' : Failure},
    relation.failures failure failure' →
    Matches world results (.fail failure) (.fail failure')
  check : ∀ {α β : Type} {world : World} {results : α → β → Prop}
    {outcome : Except Failure α} {outcome' : Except Failure β},
    relation.Checks results outcome outcome' →
    Matches world results (.check outcome) (.check outcome')
  andThen : ∀ {α β γ δ : Type} {world : World} {results : α → β → Prop}
    {results' : γ → δ → Prop} {first : Computation α} {first' : Computation β}
    {next : α → Computation γ} {next' : β → Computation δ},
    Matches world results first first' →
    (∀ value value', results value value' → Matches world results' (next value) (next' value')) →
    Matches world results' (first >>= next) (first' >>= next')
  reading : ∀ {α β : Type} {world : World} {results : α → β → Prop}
    {next : Environment → Computation α} {next' : Environment → Computation β},
    (∀ environment environment', relation.environments world environment environment' →
      Matches world results (next environment) (next' environment')) →
    Matches world results (Computation.environment >>= next) (Computation.environment >>= next')
  bindNew : ∀ {world : World} {name : String} {value value' : Expr},
    relation.atoms (.symbol name) → relation.writable world name →
    SpecialForm.named? name = none →
    (∀ environment environment', relation.environments world environment environment' →
      relation.Bindings (environment.lookup name) (environment'.lookup name)) →
    relation.values value value' →
    Matches world relation.values (bindNew name value) (bindNew name value')
  annotateOr : ∀ {world : World} {target : Option String} {key : String} {entry entry' : Expr}
    {otherwise otherwise' : Computation Expr},
    (∀ name, target = some name → relation.writable world name ∧
      ∀ environment environment', relation.environments world environment environment' →
        relation.Bindings (environment.lookup name) (environment'.lookup name)) →
    relation.values entry entry' →
    Matches world relation.values otherwise otherwise' →
    Matches world relation.values (annotateOr target key entry otherwise)
      (annotateOr target key entry' otherwise')

end Evaluation

end FormLang
