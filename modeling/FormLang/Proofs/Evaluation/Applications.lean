import FormLang.Proofs.Evaluation.Order
import FormLang.Proofs.Values

/-!
Contract: the two ways of calling what a name stands for.

An application evaluates its operands first and looks up its head then; `apply` finds out what
to call first, and evaluates the list of the operands then. What the operands do in between
cannot matter, since a name that can be called stands for the same callee ever after.

Owns: what it means that a name can be called, that this is permanent, and the theorem that an
application ends like the `apply` of its head to the list of its operands.
-/

set_option autoImplicit false

namespace FormLang

/-- What the parts of a function are depends on its head and its tail only. -/
theorem Expr.lambdaParts?_congr {left right : Expr} (head : left.head = right.head)
    (tail : left.tail = right.tail) : left.lambdaParts? = right.lambdaParts? := by
  unfold Expr.lambdaParts?
  rw [head, tail]

namespace Evaluation

open Correspondence

/-- A name stands for something that can be called: a procedure, or a function. -/
inductive StandsFor (environment : Environment) (name : String) : Callee → Prop where
  | procedure {builtIn : Procedure}
      (found : environment.lookup name = some (.procedure builtIn)) :
      StandsFor environment name (.procedure builtIn)
  | function {value body : Expr} {parameters : List String}
      (found : environment.lookup name = some (.value value))
      (parts : value.lambdaParts? = some (parameters, body)) :
      StandsFor environment name (.lambda parameters body)

variable {environment later : Environment} {name : String} {callee : Callee}
variable {operands : List Expr}

/-- What can be called by a name stays what it is. -/
theorem StandsFor.grows (stands : StandsFor environment name callee)
    (grows : environment.Grows later) : StandsFor later name callee := by
  cases stands with
  | procedure found => exact .procedure (grows.procedure found)
  | function found parts =>
      obtain ⟨value', found', head, tail⟩ := grows.value found
      exact .function found' ((Expr.lambdaParts?_congr head tail).trans parts)

/-- An application finds what its head stands for. -/
theorem StandsFor.headCallee (stands : StandsFor environment name callee) :
    headCallee environment (.symbol name) = .ok callee := by
  cases stands with
  | procedure found =>
      simp only [Evaluation.headCallee, Atom.symbol?, found]
  | function found parts =>
      simp only [Evaluation.headCallee, Atom.symbol?, found, parts]

/-- A bare symbol that is no special form evaluates to the value that it is bound to. -/
theorem evaluate_symbol {value : Expr} (ordinary : SpecialForm.named? name = none)
    (found : environment.lookup name = some (.value value)) (budget : Nat) :
    evaluate (budget + 1) (.leaf (.symbol name)) environment = some (.ok value, environment) := by
  have plain : specialForm? (.leaf (.symbol name)) = none := ordinary
  change step (evaluate budget) (callLinked budget) (.leaf (.symbol name)) environment = _
  unfold step
  rw [plain]
  change evaluateLeaf (.symbol name) environment = _
  simp only [evaluateLeaf, Computation.bind_apply, Computation.environment, found]
  rfl

/-- What is to be called is found under the name, too, where it is resolved in advance. -/
theorem StandsFor.resolveCallee (stands : StandsFor environment name callee)
    (ordinary : SpecialForm.named? name = none) (form : SpecialForm) (budget : Nat) :
    resolveCallee (evaluate (budget + 1)) form (.leaf (.symbol name)) environment =
      some (.ok callee, environment) := by
  have bare : (Expr.leaf (.symbol name)).bareSymbol? = some name := rfl
  unfold Evaluation.resolveCallee
  rw [Computation.bind_apply, bare]
  simp only [Computation.environment, Option.bind_some, Environment.procedure?]
  cases stands with
  | procedure found =>
      rw [found]
      rfl
  | function found parts =>
      rw [found]
      simp only [Computation.bind_apply, evaluate_symbol ordinary found, parts]
      rfl

/-- The items of a list that is written down are the values of its operands. -/
theorem evaluateItems_list (budget : Nat) (form : SpecialForm) (operands : List Expr) :
    evaluateItems (evaluate (budget + 1)) form (.list operands) =
      evaluateEach (evaluate budget) operands := by
  funext environment
  change (evaluateList (evaluate budget) operands >>= fun value =>
    if value.isList then pure value.tail else .fail (.operandsNotList form)) environment = _
  unfold evaluateList
  rw [Computation.bind_apply, Computation.bind_apply]
  cases evaluateEach (evaluate budget) operands environment with
  | none => rfl
  | some ending =>
      obtain ⟨outcome, left⟩ := ending
      cases outcome <;> rfl

/-- The environment grows while operands are evaluated. -/
theorem evaluateEach_grows {budget : Nat} {left : Environment}
    {outcome : Except Failure (List Expr)}
    (ended : evaluateEach (evaluate budget) operands environment = some (outcome, left)) :
    environment.Grows left := by
  have listed : evaluate (budget + 1) (.list operands) environment =
      some (outcome.map Expr.list, left) := by
    change evaluateList (evaluate budget) operands environment = _
    unfold evaluateList
    rw [Computation.bind_apply, ended]
    cases outcome <;> rfl
  exact evaluate_grows listed

/-- An application evaluates its operands and calls what its head stands for. -/
theorem evaluate_application (stands : StandsFor environment name callee)
    (ordinary : SpecialForm.named? name = none) (nonempty : operands ≠ []) (budget : Nat) :
    evaluate (budget + 1) (.form (.symbol name) operands) environment =
      (evaluateEach (evaluate budget) operands >>= callLinked budget callee) environment := by
  have plain : specialForm? (.form (.symbol name) operands) = none := ordinary
  have inner : (Expr.form (.symbol name) operands).isLeaf = false := by
    cases operands with
    | nil => exact absurd rfl nonempty
    | cons first rest => rfl
  change step (evaluate budget) (callLinked budget) (.form (.symbol name) operands) environment = _
  unfold step
  simp only [plain, inner]
  change evaluateApplication (evaluate budget) (callLinked budget) (.symbol name) operands
    environment = _
  unfold evaluateApplication
  rw [Computation.bind_apply, Computation.bind_apply]
  cases evaluated : evaluateEach (evaluate budget) operands environment with
  | none => rfl
  | some ending =>
      obtain ⟨outcome, left⟩ := ending
      cases outcome with
      | error failure => rfl
      | ok values =>
          -- The head is looked up behind the operands, and still stands for the same.
          have found := (stands.grows (evaluateEach_grows evaluated)).headCallee
          simp only [Computation.bind_apply, Computation.environment, found]
          rfl

/-- `(apply name (list operand ...))` -/
def appliedToList (name : String) (operands : List Expr) : Expr :=
  .form (.symbol SpecialForm.apply.name) [.leaf (.symbol name), .list operands]

/-- `apply` evaluates the operands and calls what its first operand stands for. -/
theorem evaluate_appliedToList (stands : StandsFor environment name callee)
    (ordinary : SpecialForm.named? name = none) (operands : List Expr) (budget : Nat) :
    evaluate (budget + 2) (appliedToList name operands) environment =
      (evaluateEach (evaluate budget) operands >>= callLinked (budget + 1) callee)
        environment := by
  change (resolveCallee (evaluate (budget + 1)) .apply (.leaf (.symbol name)) >>= fun callee =>
    evaluateItems (evaluate (budget + 1)) .apply (.list operands) >>=
      callLinked (budget + 1) callee) environment = _
  rw [Computation.bind_apply, stands.resolveCallee ordinary, evaluateItems_list]

/-- Operands that are evaluated and a call that ends do so within greater budgets, too. -/
theorem called_mono {budget budget' enough enough' : Nat} (operandsCovered : budget ≤ budget')
    (callCovered : enough ≤ enough') {ending : Except Failure Expr × Environment}
    (ended : (evaluateEach (evaluate budget) operands >>= callLinked enough callee) environment =
      some ending) :
    (evaluateEach (evaluate budget') operands >>= callLinked enough' callee) environment =
      some ending := by
  have each : (agreement SameEnvironment).Matches True () (List.Forall₂ Eq)
      (evaluateEach (evaluate budget) operands) (evaluateEach (evaluate budget') operands) :=
    evaluateEach_matches (matching same_laws True) (evaluateBy_covered operandsCovered)
      (List.forall₂_same.mpr fun _ _ => rfl)
  have whole : (agreement SameEnvironment).Matches True () Eq
      (evaluateEach (evaluate budget) operands >>= callLinked enough callee)
      (evaluateEach (evaluate budget') operands >>= callLinked enough' callee) := by
    refine each.andThen fun values values' same => ?_
    refine call_matches same_laws (same_calls Environment.enter) (evaluateBy_covered callCovered)
      ?_ same
    cases callee with
    | procedure builtIn => exact .procedure builtIn
    | lambda parameters body => exact .lambda parameters rfl
  have outcomes := whole environment environment rfl
  rw [ended] at outcomes
  exact same_of_outcomes outcomes

/-- An application ends like the `apply` of its head to the list of its operands: with the same
value or failure, and leaving the same environment, or not at all. This holds for every name
that can be called and is no special form, whatever the operands do, be it to the name itself. -/
theorem application_iff_apply (stands : StandsFor environment name callee)
    (ordinary : SpecialForm.named? name = none) (nonempty : operands ≠ [])
    (ending : Except Failure Expr × Environment) :
    (∃ budget, evaluate budget (.form (.symbol name) operands) environment = some ending) ↔
      ∃ budget, evaluate budget (appliedToList name operands) environment = some ending := by
  constructor
  · rintro ⟨budget, ended⟩
    obtain _ | budget := budget
    · cases ended
    · rw [evaluate_application stands ordinary nonempty] at ended
      refine ⟨budget + 2, ?_⟩
      rw [evaluate_appliedToList stands ordinary]
      exact called_mono (Nat.le_refl budget) (Nat.le_succ budget) ended
  · rintro ⟨budget, ended⟩
    -- Two levels are used up before the operands are evaluated.
    have enough : evaluate (budget + 2) (appliedToList name operands) environment = some ending :=
      evaluate_mono (Nat.le_add_right budget 2) ended
    rw [evaluate_appliedToList stands ordinary] at enough
    refine ⟨budget + 2, ?_⟩
    rw [evaluate_application stands ordinary nonempty]
    exact called_mono (Nat.le_succ budget) (Nat.le_refl (budget + 1)) enough

/-- `(lambda (x y) (list y x))` -/
def swappingFunction : Expr :=
  .lambda ["x", "y"] (.list [.leaf (.symbol "y"), .leaf (.symbol "x")])

/-- An environment in which `f` is that function. -/
def beforeSwap : Environment :=
  Environment.initial.bind "f" swappingFunction

/-- The function with the property that the first operand sets. -/
def markedFunction : Expr :=
  swappingFunction.setProperty "k" (.leaf (.string "first"))

/-- `(set-property "k" "first" f) (define z "second")` -/
def writingOperands : List Expr :=
  [.form (.symbol "set-property")
      [.leaf (.string "k"), .leaf (.string "first"), .leaf (.symbol "f")],
    .form (.symbol "define") [.leaf (.symbol "z"), .leaf (.string "second")]]

/-- The operands annotate the function that is to be called, and define a name. Called directly
or by `apply`, it gives back the same values, and leaves the same environment. -/
theorem marked_function_applied :
    StandsFor beforeSwap "f" (.lambda ["x", "y"] (.list [.leaf (.symbol "y"), .leaf (.symbol "x")])) ∧
      SpecialForm.named? "f" = none ∧ writingOperands ≠ [] ∧
      ∃ budget, evaluate budget (appliedToList "f" writingOperands) beforeSwap =
        some (.ok (.list [.leaf (.string "second"), markedFunction]),
          (beforeSwap.bind "f" markedFunction).bind "z" (.leaf (.string "second"))) := by
  have stands : StandsFor beforeSwap "f"
      (.lambda ["x", "y"] (.list [.leaf (.symbol "y"), .leaf (.symbol "x")])) :=
    .function (Environment.initial.lookup_bind_same "f" swappingFunction) rfl
  have ordinary : SpecialForm.named? "f" = none := by decide
  have nonempty : writingOperands ≠ [] := List.cons_ne_nil _ _
  exact ⟨stands, ordinary, nonempty,
    (application_iff_apply stands ordinary nonempty _).mp ⟨4, rfl⟩⟩

end Evaluation

end FormLang
