import FormLang.Proofs.Evaluation.Effects
import FormLang.Proofs.Evaluation.Permanence

/-!
Contract: definitions that fail.

A definition checks its name, evaluates its value in the current scope, and binds the name if
it is still free. There is no way back from what the value has written on its way. So a
definition that fails has written nothing itself, but what it leaves is what the evaluation of
its value has left.

Owns: the reasons for which a definition is refused, how else it fails, what it leaves then,
and a definition that fails and leaves a name behind.
-/

set_option autoImplicit false

namespace FormLang

namespace Evaluation

variable {name : String} {definition : Expr} {environment left : Environment}
variable {failure : Failure} {budget : Nat}

/-! ## Refusals -/

/-- Why a definition is refused before its value is evaluated, and how it fails then. -/
inductive RefusedDefinition (definition : Expr) (environment : Environment) :
    Failure → Prop where
  /-- It does not have two operands. -/
  | operands (count : definition.tail.length ≠ 2) :
      RefusedDefinition definition environment
        (.wrongCount (.form .define) (.exactly 2) definition.tail.length)
  /-- What it is to bind is no bare symbol. -/
  | target {target value : Expr} (tail : definition.tail = [target, value])
      (notBare : target.bareSymbol? = none) :
      RefusedDefinition definition environment .definedNotSymbol
  /-- It is to bind a name that cannot be defined. -/
  | name {name : String} {target value : Expr} {failure : Failure}
      (tail : definition.tail = [target, value]) (bare : target.bareSymbol? = some name)
      (undefinable : Undefinable name environment failure) :
      RefusedDefinition definition environment failure

/-- Operands that are not two are refused by their number. -/
theorem evaluateDefine_eq_refuseCount (evaluate : Evaluator) {operands : List Expr}
    (count : operands.length ≠ 2) :
    evaluateDefine evaluate operands = refuseCount .define 2 operands := by
  rcases operands with _ | ⟨target, _ | ⟨value, _ | ⟨further, others⟩⟩⟩
  · rfl
  · rfl
  · exact absurd rfl count
  · rfl

/-- A definition that is refused fails whatever its value does, and changes nothing. -/
theorem RefusedDefinition.fails (head : definition.head = .symbol SpecialForm.define.name)
    (reason : RefusedDefinition definition environment failure)
    (evaluate : Evaluator) (call : Caller) :
    step evaluate call definition environment = some (.error failure, environment) := by
  cases reason with
  | operands count =>
      rw [step_eq_evaluateDefine evaluate call head,
        evaluateDefine_eq_refuseCount evaluate count]
      rfl
  | target tail notBare =>
      rw [step_eq_evaluateDefine evaluate call head, tail]
      simp only [evaluateDefine, notBare]
      rfl
  | name tail bare undefinable =>
      rw [step_define evaluate call head tail bare,
        checkDefinable_eq_error_iff.mpr undefinable]
      rfl

/-- A definition is refused, or it has a name that can be defined. -/
theorem definition_cases (definition : Expr) (environment : Environment) :
    (∃ failure, RefusedDefinition definition environment failure) ∨
    ∃ target value name, definition.tail = [target, value] ∧ target.bareSymbol? = some name ∧
      checkDefinable name environment = .ok () := by
  by_cases count : definition.tail.length = 2
  · obtain ⟨target, value, tail⟩ := List.length_eq_two.mp count
    cases bare : target.bareSymbol? with
    | none => exact .inl ⟨_, .target tail bare⟩
    | some name =>
        cases checked : checkDefinable name environment with
        | error failure =>
            exact .inl ⟨failure, .name tail bare (checkDefinable_eq_error_iff.mp checked)⟩
        | ok accepted => exact .inr ⟨target, value, name, tail, bare, checked⟩
  · exact .inl ⟨_, .operands count⟩

/-! ## Failures -/

/-- How a definition fails, and with which environment. -/
inductive FailsToDefine (definition : Expr) (environment : Environment) :
    Failure → Environment → Prop where
  /-- It is refused for one of these reasons, and nothing is evaluated. -/
  | refused {failure : Failure} (reason : RefusedDefinition definition environment failure)
      (fails : ∀ evaluate call, step evaluate call definition environment =
        some (.error failure, environment)) :
      FailsToDefine definition environment failure environment
  /-- Its name can be defined, but its value fails. -/
  | value {name : String} {target value : Expr} {failure : Failure} {left : Environment}
      (budget : Nat) (tail : definition.tail = [target, value])
      (bare : target.bareSymbol? = some name) (free : checkDefinable name environment = .ok ())
      (failed : evaluate budget value environment = some (.error failure, left)) :
      FailsToDefine definition environment failure left
  /-- Its value is there, but its name was bound on the way. -/
  | bound {name : String} {target value result : Expr} {left : Environment}
      (budget : Nat) (tail : definition.tail = [target, value])
      (bare : target.bareSymbol? = some name) (free : checkDefinable name environment = .ok ())
      (ended : evaluate budget value environment = some (.ok result, left))
      (taken : left.lookup name ≠ none) :
      FailsToDefine definition environment (.redefinedSymbol name) left

/-- Binding a name fails only where it stands for something, and changes nothing then. -/
theorem bindNew_fails {value : Expr}
    (failed : bindNew name value environment = some (.error failure, left)) :
    environment.lookup name ≠ none ∧ failure = .redefinedSymbol name ∧ left = environment := by
  change (Computation.check (environment.define name value) >>= fun extended => do
    Computation.replace extended
    return value) environment = _ at failed
  rw [Environment.define_eq] at failed
  cases found : environment.lookup name with
  | none =>
      rw [found] at failed
      cases failed
  | some binding =>
      rw [found] at failed
      cases failed
      exact ⟨Option.some_ne_none binding, rfl, rfl⟩

/-- A definition that fails does so in one of three ways. -/
theorem evaluate_define_fails (head : definition.head = .symbol SpecialForm.define.name)
    (failed : evaluate budget definition environment = some (.error failure, left)) :
    FailsToDefine definition environment failure left := by
  obtain _ | budget := budget
  · cases failed
  change step (evaluate budget) (callLinked budget) definition environment = _ at failed
  rcases definition_cases definition environment with
    ⟨refusal, reason⟩ | ⟨target, value, name, tail, bare, free⟩
  · rw [reason.fails head] at failed
    cases failed
    exact .refused reason (reason.fails head)
  · rw [step_define _ _ head tail bare, free] at failed
    change (evaluate budget value >>= bindNew name) environment = _ at failed
    rw [Computation.bind_apply] at failed
    cases evaluated : evaluate budget value environment with
    | none =>
        rw [evaluated] at failed
        cases failed
    | some ending =>
        obtain ⟨outcome, middle⟩ := ending
        rw [evaluated] at failed
        cases outcome with
        | error refusal =>
            cases failed
            exact .value budget tail bare free evaluated
        | ok result =>
            obtain ⟨taken, rfl, rfl⟩ := bindNew_fails failed
            exact .bound budget tail bare free evaluated taken

/-- What is left by a definition that fails was left by its refusal, or by its value. -/
theorem FailsToDefine.left_cases (fails : FailsToDefine definition environment failure left) :
    left = environment ∨ ∃ value ∈ definition.tail, ∃ budget outcome,
      evaluate budget value environment = some (outcome, left) := by
  cases fails with
  | refused _ _ => exact .inl rfl
  | value budget tail _ _ failed =>
      exact .inr ⟨_, by simp [tail], budget, _, failed⟩
  | bound budget tail _ _ ended _ =>
      exact .inr ⟨_, by simp [tail], budget, _, ended⟩

/-- A definition that fails has written nothing itself. It was refused before anything was
evaluated, and the environment is what it was; or its value failed, or had its name bound on
the way, and the environment is the one that the evaluation of the value has left. So every
name that is no write target of the value stands for what it stood for before, and if there is
no such target the environment is what it was. -/
theorem failed_definition_writes_nothing {failure : Failure}
    (head : definition.head = .symbol SpecialForm.define.name)
    (failed : evaluate budget definition environment = some (.error failure, left)) :
    FailsToDefine definition environment failure left ∧
      (∀ name, name ∉ writeTargetsOfEach definition.tail →
        left.lookup name = environment.lookup name) ∧
      (writeTargetsOfEach definition.tail = [] → left = environment) := by
  have fails := evaluate_define_fails head failed
  refine ⟨fails, fun name untouched => ?_, fun none => ?_⟩
  · rcases fails.left_cases with rfl | ⟨value, member, enough, outcome, ended⟩
    · rfl
    · have holds : (Protection.only name (environment.lookup name)).Holds environment := rfl
      refine evaluate_protects holds (fun target written => ?_) ended
      change name ≠ target
      rintro rfl
      exact untouched (mem_writeTargetsOfEach member written)
  · rcases fails.left_cases with rfl | ⟨value, member, enough, outcome, ended⟩
    · rfl
    · have holds : (Protection.everything environment).Holds environment := rfl
      refine evaluate_protects holds (fun target written => ?_) ended
      have listed := mem_writeTargetsOfEach member written
      rw [none] at listed
      exact absurd listed List.not_mem_nil

/-- `(define x (begin (define y "first") (z)))` -/
def brokenDefinition : Expr :=
  .form (.symbol "define") [.leaf (.symbol "x"),
    .form (.symbol "begin")
      [.form (.symbol "define") [.leaf (.symbol "y"), .leaf (.string "first")],
        .leaf (.symbol "z")]]

/-- The initial environment with the name that is defined on the way. -/
def afterBroken : Environment :=
  Environment.initial.bind "y" (.leaf (.string "first"))

/-- The definition fails since `z` stands for nothing, and nothing is bound to `x`. -/
theorem broken_definition_binds_nothing :
    evaluate 4 brokenDefinition .initial = some (.error (.unknownSymbol "z"), afterBroken) ∧
      FailsToDefine brokenDefinition .initial (.unknownSymbol "z") afterBroken ∧
      afterBroken.lookup "x" = Environment.initial.lookup "x" := by
  have failed : evaluate 4 brokenDefinition .initial =
      some (.error (.unknownSymbol "z"), afterBroken) := rfl
  obtain ⟨fails, others, -⟩ := failed_definition_writes_nothing rfl failed
  exact ⟨failed, fails, others "x" (by decide)⟩

/-- Not every definition that fails leaves all names as they were: what was defined on the way
to its value stays defined. -/
theorem failed_definition_leaves_names :
    ¬ ∀ budget definition environment failure left,
      definition.head = .symbol SpecialForm.define.name →
      evaluate budget definition environment = some (.error failure, left) →
        ∀ name, left.lookup name = environment.lookup name := by
  intro claimed
  have failed : evaluate 4 brokenDefinition .initial =
      some (.error (.unknownSymbol "z"), afterBroken) := rfl
  have same := claimed 4 brokenDefinition .initial _ afterBroken rfl failed "y"
  have unbound : Environment.initial.lookup "y" = none := by decide +kernel
  have bound : afterBroken.lookup "y" = some (.value (.leaf (.string "first"))) :=
    Environment.initial.lookup_bind_same "y" _
  rw [bound, unbound] at same
  cases same

end Evaluation

end FormLang
