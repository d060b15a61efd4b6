import FormLang.Proofs.Evaluation.Agreement

/-!
Contract: linked scopes behave like copies.

The reference is an evaluator whose environments have a single scope. It starts from a
copy of all that is visible, and at every call of a function it copies the caller's
bindings and overwrites those of the parameters, where `evaluate` links a new scope to
the caller's.

Owns: the copy of an environment, the reference, and its agreement with `evaluate`.
-/

set_option autoImplicit false

namespace FormLang

/-- A table over another one: an entry above covers the entry of the same name below. -/
def Table.over {α : Type} (above below : Table α) : Table α :=
  above.foldr (fun (name, entry) covered => Table.set name entry covered) below

theorem Table.lookup_over {α : Type} (name : String) (above below : Table α) :
    List.lookup name (above.over below) = (List.lookup name above).or (List.lookup name below) := by
  induction above with
  | nil => rfl
  | cons first rest inductionHypothesis =>
      obtain ⟨present, entry⟩ := first
      change List.lookup name (Table.set present entry (Table.over rest below)) = _
      rw [List.lookup_cons]
      by_cases same : name = present
      · rw [same, Table.lookup_set_same, beq_self_eq_true]
        rfl
      · rw [Table.lookup_set_other entry _ same, inductionHypothesis, beq_false_of_ne same]

namespace Environment

/-- A single scope that binds all that is visible, the nearest binding of each name. -/
def visible (environment : Environment) : Scope :=
  environment.scopes.foldr Table.over []

/-- The environment as a copy by value: one scope and no caller. -/
def copied (environment : Environment) : Environment :=
  ⟨environment.visible, []⟩

/-- Enter a function by copying the caller's bindings and overwriting the parameters. -/
def enterCopy (environment : Environment) (parameters : List String) (operands : List Expr) :
    Environment :=
  environment.copied.bindAll (parameters.zip operands)

@[simp] theorem lookup_copied (environment : Environment) (name : String) :
    environment.copied.lookup name = environment.lookup name := by
  have nearest (scopes : List Scope) :
      List.lookup name (scopes.foldr Table.over []) = scopes.findSome? (List.lookup name) := by
    induction scopes with
    | nil => rfl
    | cons first rest inductionHypothesis =>
        rw [List.foldr_cons, Table.lookup_over, inductionHypothesis, List.findSome?_cons]
        cases List.lookup name first <;> rfl
  rw [lookup_eq_or, lookup]
  change (List.lookup name environment.visible).or none = _
  rw [Option.or_none]
  exact nearest environment.scopes

@[simp] theorem callers_bindAll (environment : Environment) (bindings : List (String × Expr)) :
    (environment.bindAll bindings).callers = environment.callers := by
  induction bindings generalizing environment with
  | nil => rfl
  | cons first rest inductionHypothesis =>
      rw [bindAll_cons, inductionHypothesis, callers_bind]

end Environment

/-- The reference evaluator, which copies environments by value. -/
def evaluateByValue (budget : Nat) (expression : Expr) : Computation Expr :=
  evaluateBy Environment.enterCopy budget expression

namespace Evaluation

open Correspondence

/-- An environment and a single scope in which every name stands for the same. -/
def SameNames (_ : Unit) (environment copy : Environment) : Prop :=
  (∀ name, environment.lookup name = copy.lookup name) ∧ copy.callers = []

theorem SameNames.bind {environment copy : Environment} (same : SameNames () environment copy)
    (name : String) (value : Expr) :
    SameNames () (environment.bind name value) (copy.bind name value) := by
  refine ⟨fun other => ?_, same.2⟩
  rw [Environment.lookup_bind, Environment.lookup_bind, same.1 other]

theorem SameNames.enter {environment copy : Environment} (same : SameNames () environment copy)
    (parameters : List String) (operands : List Expr) :
    SameNames () (environment.enter parameters operands) (copy.enterCopy parameters operands) := by
  constructor
  · rw [Environment.enter_eq_bindAll]
    intro name
    apply Environment.lookup_bindAll_congr
    rw [Environment.lookup_frame, Environment.lookup_copied, same.1 name]
  · exact Environment.callers_bindAll _ _

/-- Linked scopes and copies by value give matching evaluations. -/
theorem evaluate_matches_byValue (budget : Nat) (expression : Expr) :
    (agreement SameNames).Matches False () Eq (evaluate budget expression)
      (evaluateByValue budget expression) := by
  have lookups : ∀ {world environment copy}, SameNames world environment copy →
      ∀ name, environment.lookup name = copy.lookup name := fun same => same.1
  have laws : (agreement SameNames).Laws :=
    agreement_laws lookups (fun value same _ => same.bind _ value)
      (fun _ _ same _ => same.bind _ _)
  have calls : (agreement SameNames).Calls Environment.enter Environment.enterCopy :=
    agreement_calls fun parameters operands same => ⟨(), same.enter parameters operands⟩
  exact evaluateBy_matches_evenly laws calls
    (by rintro world expression _ rfl; exact agreement_admits lookups expression) budget rfl

/-- Evaluating in a chain of scopes and evaluating by value in a copy of what is visible
there either both run out of the budget, or both end with the same value or failure and
leave environments in which every name stands for the same. The copies never have a
caller. -/
theorem evaluate_eq_byValue (budget : Nat) (expression : Expr) (environment : Environment) :
    match evaluate budget expression environment,
      evaluateByValue budget expression environment.copied with
    | some (outcome, left), some (outcome', left') =>
        outcome = outcome' ∧ (∀ name, left.lookup name = left'.lookup name) ∧ left'.callers = []
    | none, none => True
    | _, _ => False := by
  have same : SameNames () environment environment.copied :=
    ⟨fun name => (environment.lookup_copied name).symm, rfl⟩
  have outcomes := evaluate_matches_byValue budget expression _ _ same
  revert outcomes
  generalize evaluate budget expression environment = ending
  generalize evaluateByValue budget expression environment.copied = ending'
  intro outcomes
  cases outcomes with
  | ended checks left =>
      cases checks with
      | ok values => exact ⟨congrArg Except.ok values, left⟩
      | error failures => exact ⟨congrArg Except.error failures, left⟩
  | stalled => trivial
  | lagging allowed => exact allowed.elim

end Evaluation

end FormLang
