import FormLang.Proofs.Evaluation.Agreement
import FormLang.Proofs.Stripping

/-!
Contract: properties are metadata that the evaluator does not look into.

Properties are written by one form and read by another. Everything else passes them on, or
leaves them behind, without a look at them. So a program without the form that reads them
takes the same course whatever properties there are, and only the properties differ in the
end.

Owns: trees that never read a property, trees and environments that differ in nothing but
properties, and the theorem that evaluations in which nothing else differs cannot be told
apart without a look at the properties.
-/

set_option autoImplicit false

namespace FormLang

/-- No node of a tree, the properties left out, has the form that reads properties as its
head. -/
def Expr.NeverReads (expression : Expr) : Prop :=
  SpecialForm.getProperty.name ∉ expression.strip.symbols

namespace Expr.NeverReads

variable {expression body : Expr} {head : Atom} {tail : List Expr}

theorem here (unread : expression.NeverReads) :
    expression.head ≠ .symbol SpecialForm.getProperty.name := by
  rw [← Expr.head_strip]
  exact (Expr.not_mem_symbols_iff.mp unread).here

theorem children (unread : expression.NeverReads) :
    ∀ child ∈ expression.tail, child.NeverReads :=
  fun _ member => Expr.not_mem_symbols_strip_child unread member

theorem form (here : head ≠ .symbol SpecialForm.getProperty.name)
    (children : ∀ child ∈ tail, child.NeverReads) : (Expr.form head tail).NeverReads := by
  unfold NeverReads
  rw [Expr.strip_form]
  refine Expr.not_mem_symbols_iff.mpr (.form here fun child member => ?_)
  obtain ⟨original, known, rfl⟩ := List.mem_map.mp member
  exact Expr.not_mem_symbols_iff.mp (children original known)

theorem leaf (here : head ≠ .symbol SpecialForm.getProperty.name) :
    (Expr.leaf head).NeverReads :=
  form here fun _ member => absurd member List.not_mem_nil

theorem list {items : List Expr} (children : ∀ item ∈ items, item.NeverReads) :
    (Expr.list items).NeverReads :=
  form (by decide) children

theorem lambda {names : List String}
    (different : ∀ name ∈ names, name ≠ SpecialForm.getProperty.name) (unread : body.NeverReads) :
    (Expr.lambda names body).NeverReads := by
  unfold NeverReads
  rw [Expr.strip_lambda]
  refine Expr.not_mem_symbols_iff.mpr (.lambda (by decide) (fun _ => by decide) ?_
    (Expr.not_mem_symbols_iff.mp unread))
  exact fun name member same => different name member (Atom.symbol.inj same)

theorem functionBody {names : List String} (unread : expression.NeverReads)
    (parts : expression.lambdaParts? = some (names, body)) : body.NeverReads :=
  unread.children body (Expr.body_mem_tail parts)

end Expr.NeverReads

namespace Evaluation

open Correspondence

/-- Two trees that differ in nothing but properties and never read any. -/
structure Alike (expression expression' : Expr) : Prop where
  same : expression.strip = expression'.strip
  unread : expression.NeverReads

namespace Alike

variable {expression expression' body body' : Expr}

theorem head (alike : Alike expression expression') : expression'.head = expression.head := by
  rw [← Expr.head_strip, ← alike.same, Expr.head_strip]

theorem isLeaf (alike : Alike expression expression') :
    expression'.isLeaf = expression.isLeaf := by
  rw [← Expr.isLeaf_strip, ← alike.same, Expr.isLeaf_strip]

theorem forall₂_iff {children children' : List Expr} :
    List.Forall₂ Alike children children' ↔
      (∀ child ∈ children, child.NeverReads) ∧
        children.map Expr.strip = children'.map Expr.strip := by
  have split : Alike = fun left right => left.NeverReads ∧ left.strip = right.strip := by
    funext left right
    exact propext ⟨fun alike => ⟨alike.unread, alike.same⟩, fun both => ⟨both.2, both.1⟩⟩
  rw [split, List.forall₂_and_left, ← List.forall₂_eq_eq_eq, List.forall₂_map_left_iff,
    List.forall₂_map_right_iff]

theorem children (alike : Alike expression expression') :
    List.Forall₂ Alike expression.tail expression'.tail := by
  refine forall₂_iff.mpr ⟨alike.unread.children, ?_⟩
  rw [← Expr.tail_strip, alike.same, Expr.tail_strip]

theorem list {items items' : List Expr} (alike : List.Forall₂ Alike items items') :
    Alike (.list items) (.list items') := by
  obtain ⟨unread, same⟩ := forall₂_iff.mp alike
  refine ⟨?_, .list unread⟩
  rw [Expr.strip_list, Expr.strip_list, same]

theorem lambda {names : List String}
    (different : ∀ name ∈ names, name ≠ SpecialForm.getProperty.name) (alike : Alike body body') :
    Alike (.lambda names body) (.lambda names body') := by
  refine ⟨?_, .lambda different alike.unread⟩
  rw [Expr.strip_lambda, Expr.strip_lambda, alike.same]

/-- What is set as a property does not count, and may read whatever it likes. -/
theorem setProperty (alike : Alike expression expression') (key : String) (entry entry' : Expr) :
    Alike (expression.setProperty key entry) (expression'.setProperty key entry') := by
  refine ⟨?_, ?_⟩
  · rw [Expr.strip_setProperty, Expr.strip_setProperty, alike.same]
  · unfold Expr.NeverReads
    rw [Expr.strip_setProperty]
    exact alike.unread

end Alike

/-- Two environments that differ in nothing but properties, and in which no value in sight
ever reads any. -/
structure AlikeScopes (world : Unit) (environment environment' : Environment) : Prop where
  same : environment.strip = environment'.strip
  unread : environment.Sees fun _ value => value.NeverReads

/-- Everything may differ in properties, and nothing reads them. -/
def unreading : Correspondence Unit where
  environments := AlikeScopes
  expressions _ := Alike
  values := Alike
  functions _ := Alike
  failures := Eq
  writable _ _ := True
  atoms _ := True

namespace AlikeScopes

variable {world : Unit} {environment environment' : Environment} {name : String}

theorem lookup (scopes : AlikeScopes world environment environment') (name : String) :
    unreading.Bindings (environment.lookup name) (environment'.lookup name) := by
  have same : (environment.lookup name).map Binding.strip =
      (environment'.lookup name).map Binding.strip := by
    rw [← Environment.lookup_strip, scopes.same, Environment.lookup_strip]
  have unread := scopes.unread name
  revert same unread
  generalize environment.lookup name = binding
  generalize environment'.lookup name = binding'
  intro same unread
  match binding, binding' with
  | none, none => exact .unbound
  | some (.procedure builtIn), some (.procedure builtIn') =>
      cases same
      exact .procedure builtIn
  | some (.value value), some (.value value') =>
      exact .value ⟨Binding.value.inj (Option.some.inj same), unread value rfl⟩

theorem procedure? (scopes : AlikeScopes world environment environment') (name : String) :
    environment.procedure? name = environment'.procedure? name := by
  rw [← Environment.procedure?_strip, scopes.same, Environment.procedure?_strip]

theorem bind {value value' : Expr} (scopes : AlikeScopes world environment environment')
    (alike : Alike value value') :
    AlikeScopes world (environment.bind name value) (environment'.bind name value') where
  same := by rw [Environment.strip_bind, Environment.strip_bind, scopes.same, alike.same]
  unread := scopes.unread.bind alike.unread

theorem enter {operands operands' : List Expr}
    (scopes : AlikeScopes world environment environment') (parameters : List String)
    (alike : List.Forall₂ Alike operands operands') :
    AlikeScopes world (environment.enter parameters operands)
      (environment'.enter parameters operands') := by
  obtain ⟨unread, same⟩ := Alike.forall₂_iff.mp alike
  refine ⟨?_, scopes.unread.enter parameters fun _ => unread⟩
  rw [Environment.strip_enter, Environment.strip_enter, scopes.same, same]

end AlikeScopes

section Laws

variable {world : Unit} {expression expression' : Expr}

theorem unreading_shows (alike : Alike expression expression') :
    unreading.Shows world expression expression' where
  head := alike.head
  isLeaf := alike.isLeaf
  atom := trivial
  lookup name _ _ _ scopes := scopes.lookup name

theorem unreading_functions (alike : Alike expression expression') :
    unreading.Functions expression.lambdaParts? expression'.lambdaParts? := by
  have same := congrArg Expr.lambdaParts? alike.same
  rw [Expr.lambdaParts?_strip, Expr.lambdaParts?_strip] at same
  have unread : ∀ names body, expression.lambdaParts? = some (names, body) → body.NeverReads :=
    fun _ _ => alike.unread.functionBody
  revert same unread
  generalize expression.lambdaParts? = parts
  generalize expression'.lambdaParts? = parts'
  intro same unread
  match parts, parts' with
  | none, none => exact .none
  | some (names, body), some (names', body') =>
      obtain ⟨rfl, bodies⟩ := Prod.mk.inj (Option.some.inj same)
      exact .some names ⟨bodies, unread names body rfl⟩

theorem unreading_laws : unreading.Laws where
  shows := unreading_shows
  literal _ plain := ⟨rfl, .leaf (by rintro rfl; cases plain)⟩
  list := .list
  isList alike := by rw [← Expr.isList_strip, ← alike.same, Expr.isList_strip]
  items alike _ := alike.children
  lambdaParts := unreading_functions
  string alike := by rw [alike.head]
  setProperty key alike _ := alike.setProperty key _ _
  failure _ := rfl
  define _ scopes alike _ _ _ := scopes.bind alike
  annotate key _ scopes alike _ _ _ := scopes.bind (alike.setProperty key _ _)

/-- Parameters are checked by their names alone. -/
theorem unreading_parameters (alike : Alike expression expression') :
    unreading.Parameters world expression.tail expression'.tail := by
  intro names body names' body' shape shape' environment environment' scopes
  have children := alike.children
  rw [shape, shape'] at children
  obtain ⟨nameLists, bodies, -⟩ : Alike names names' ∧ Alike body body' ∧ True := by
    simpa using children
  have parameters : names'.tail.map Expr.bareSymbol? = names.tail.map Expr.bareSymbol? := by
    have same := congrArg (List.map Expr.bareSymbol?) (Alike.forall₂_iff.mp nameLists.children).2
    simpa [Function.comp_def] using same.symm
  rw [nameLists.head, parameters, checkParameters_congr fun name _ => scopes.procedure? name]
  cases checked : checkParameters environment'
      (names.head.symbol? :: names.tail.map Expr.bareSymbol?) with
  | error failure => exact .error rfl
  | ok accepted =>
      refine .ok (.lambda (fun name member => ?_) bodies)
      rintro rfl
      exact absurd ((checkParameters_eq_ok checked).2 _ member).1 (by decide)

theorem unreading_admits (alike : Alike expression expression') :
    unreading.Admits world expression expression' where
  shows := unreading_shows alike
  operands _ := alike.children
  isLambda _ := by rw [← Expr.isLambda_strip, ← alike.same, Expr.isLambda_strip]
  function _ := alike
  makes _ _ := ⟨alike.children.length_eq, unreading_parameters alike⟩
  defines _ _ _ := trivial
  annotates _ _ _ := trivial
  reads _ head _ := absurd head alike.unread.here

theorem unreading_calls : unreading.Calls Environment.enter Environment.enter where
  procedure builtIn operands operands' alike := by
    obtain ⟨unread, same⟩ := Alike.forall₂_iff.mp alike
    have outcomes : (builtIn.apply operands).map Expr.strip =
        (builtIn.apply operands').map Expr.strip := by
      rw [← Procedure.apply_strip, same, Procedure.apply_strip]
    have items : ∀ {value : Expr}, value.NeverReads → value.isList = true →
        ∀ item ∈ value.tail, item.NeverReads := fun unread _ => unread.children
    have computed : ∀ {head : Atom}, head.Computed → (Expr.leaf head).NeverReads :=
      fun number => .leaf (by rintro rfl; cases number.symbol?)
    have yields := Procedure.apply_yields items computed Expr.NeverReads.list unread builtIn
    revert outcomes yields
    generalize builtIn.apply operands = outcome
    generalize builtIn.apply operands' = outcome'
    intro outcomes yields
    match outcome, outcome' with
    | .ok value, .ok value' => exact .ok ⟨Except.ok.inj outcomes, yields value rfl⟩
    | .error failure, .error failure' => exact .error (Except.error.inj outcomes)
  enter bodies scopes alike _ := ⟨(), scopes.enter _ alike, bodies⟩

end Laws

/-- Evaluations of trees that differ in nothing but properties match, if nothing reads any. -/
theorem evaluate_matches_unreading {expression expression' : Expr}
    (alike : Alike expression expression') (budget : Nat) :
    unreading.Matches False () Alike (evaluate budget expression) (evaluate budget expression') :=
  evaluateBy_matches_evenly unreading_laws unreading_calls unreading_admits budget alike

/-- An ending without properties, both in the value and in the environment that is left. -/
def stripEnding (ending : Except Failure Expr × Environment) : Except Failure Expr × Environment :=
  (ending.1.map Expr.strip, ending.2.strip)

/-- Without properties, all endings of expressions and environments that differ in nothing
but properties are the same. -/
theorem stripEnding_congr {expression expression' : Expr} {environment environment' : Environment}
    (alike : Alike expression expression') (scopes : AlikeScopes () environment environment')
    (budget : Nat) :
    (evaluate budget expression environment).map stripEnding =
      (evaluate budget expression' environment').map stripEnding := by
  have outcomes := evaluate_matches_unreading alike budget environment environment' scopes
  revert outcomes
  generalize evaluate budget expression environment = ending
  generalize evaluate budget expression' environment' = ending'
  intro outcomes
  cases outcomes with
  | stalled => rfl
  | lagging allowed => exact allowed.elim
  | ended checks lefts =>
      apply congrArg some
      cases checks with
      | ok values => exact congrArg₂ Prod.mk (congrArg Except.ok values.same) lefts.same
      | error failures => exact congrArg₂ Prod.mk (congrArg Except.error failures) lefts.same

/-- Properties are opaque metadata. Let the form that reads properties occur neither in an
expression nor in any value in sight, their properties left out. Then the expression and the
environment can be stripped of all properties: both evaluations fail for the same reason, or
both succeed with values that are the same without properties, or both run out of the budget,
and the environments that are left are the same without properties. So it makes no difference
which properties are added, changed or removed anywhere in the expression or in the
environment. -/
theorem properties_unnoticed {expression : Expr} {environment : Environment}
    (unread : SpecialForm.getProperty.name ∉ expression.strip.symbols)
    (boundUnread : ∀ name value, environment.lookup name = some (.value value) →
      SpecialForm.getProperty.name ∉ value.strip.symbols)
    (budget : Nat) :
    (evaluate budget expression environment).map stripEnding =
        (evaluate budget expression.strip environment.strip).map stripEnding ∧
      ∀ expression' environment', expression'.strip = expression.strip →
        environment'.strip = environment.strip →
        (evaluate budget expression' environment').map stripEnding =
          (evaluate budget expression environment).map stripEnding := by
  have every : ∀ expression' environment', expression'.strip = expression.strip →
      environment'.strip = environment.strip →
      (evaluate budget expression environment).map stripEnding =
        (evaluate budget expression' environment').map stripEnding :=
    fun _ _ same sameScopes =>
      stripEnding_congr ⟨same.symm, unread⟩ ⟨sameScopes.symm, boundUnread⟩ budget
  refine ⟨every _ _ expression.strip_strip environment.strip_strip, ?_⟩
  exact fun _ _ same sameScopes => (every _ _ same sameScopes).symm

/-- `(begin (set-property "source" "log" a) (join a (list "two")))` -/
def joiningProgram : Expr :=
  .form (.symbol "begin")
    [.form (.symbol "set-property")
        [.leaf (.string "source"), .leaf (.string "log"), .leaf (.symbol "a")],
      .form (.symbol "join") [.leaf (.symbol "a"), .form (.symbol "list") [.leaf (.string "two")]]]

/-- An environment in which `a` is a list with a property that would read one itself, and with
an item that has a property. -/
def annotatedScope : Environment :=
  Environment.initial.bind "a"
    ((Expr.list [(Expr.leaf (.string "one")).setProperty "unit" (.leaf (.string "m"))]).setProperty
      "hint" (.form (.symbol "get-property") [.leaf (.string "unit"), .leaf (.symbol "a")]))

/-- Lists are joined alike with and without properties, and with the property that the program
sets itself. -/
theorem joined_despite_properties :
    ∃ outcome left, evaluate 4 joiningProgram annotatedScope = some (outcome, left) ∧
      outcome.map Expr.strip =
        .ok (.list [.leaf (.string "one"), .leaf (.string "two")]) := by
  have literal : ∀ {head : Atom}, head.symbol? = none → (Expr.leaf head).NeverReads :=
    fun plain => .leaf (by rintro rfl; cases plain)
  have binds : annotatedScope.Binds Expr.NeverReads :=
    (Environment.initial_binds literal).bind "a" (by unfold Expr.NeverReads; decide)
  have unread : SpecialForm.getProperty.name ∉ joiningProgram.strip.symbols := by decide
  obtain ⟨left, ended⟩ : ∃ left, evaluate 4 joiningProgram.strip annotatedScope.strip =
      some (.ok (.list [.leaf (.string "one"), .leaf (.string "two")]), left) := ⟨_, rfl⟩
  have alike := (properties_unnoticed unread (fun _ _ found => binds.lookup found) 4).1
  rw [ended] at alike
  obtain ⟨⟨outcome, left'⟩, evaluated, same⟩ := Option.map_eq_some_iff.mp alike
  exact ⟨outcome, left', evaluated, (Prod.mk.inj same).1⟩

end Evaluation

end FormLang
