import FormLang.Proofs.Evaluation.Effects
import FormLang.Proofs.Evaluation.Endings
import Mathlib.Data.List.Forall2

/-!
Contract: the calls that `map` makes.

`map` finds out what to call, evaluates its second operand to a list, and calls once for each
item, from left to right. Every call runs in a scope of its own, which is dropped with all that
was defined and annotated in it. So each call is made in the environment that the operands have
left, and no call knows of those before it.

Owns: what `apply` and `map` prepare before they call, the calls for the items of a list, and
the theorem that `map` gives what a call for each item alone would give.
-/

set_option autoImplicit false

namespace FormLang

namespace Evaluation

variable {β : Type}

/-! ## The operands of `apply` and `map` -/

/-- What the first operand gives to be called, and the environment that it leaves: the procedure
that it names as a bare symbol, or the function that it evaluates to. -/
inductive Resolves (expression : Expr) (environment : Environment) : Callee → Environment → Prop where
  | procedure {name : String} {builtIn : Procedure} (bare : expression.bareSymbol? = some name)
      (found : environment.lookup name = some (.procedure builtIn)) :
      Resolves expression environment (.procedure builtIn) environment
  | function {value body : Expr} {parameters : List String} {left : Environment}
      (evaluated : Ends expression environment (.ok value) left)
      (parts : value.lambdaParts? = some (parameters, body)) :
      Resolves expression environment (.lambda parameters body) left

/-- The first operand gives something to be called and then the second one a list, with these
items. -/
def Prepares (first second : Expr) (environment : Environment) (callee : Callee)
    (items : List Expr) (left : Environment) : Prop :=
  ∃ middle value, Resolves first environment callee middle ∧
    Ends second middle (.ok value) left ∧ value.isList = true ∧ value.tail = items

section Operands

variable {first second expression : Expr} {environment left final : Environment}
variable {callee : Callee} {items : List Expr} {form : SpecialForm}

/-- What names a procedure does not evaluate to a function. -/
theorem not_function_of_procedure {name : String} {builtIn : Procedure} {value : Expr}
    (bare : expression.bareSymbol? = some name)
    (found : environment.lookup name = some (.procedure builtIn))
    (evaluated : Ends expression environment (.ok value) left) : value.lambdaParts? = none := by
  have head : expression.head = .symbol name := head_of_bareSymbol? bare
  have isLeaf : expression.isLeaf = true := by
    by_contra inner
    rw [Expr.bareSymbol?, if_neg inner] at bare
    cases bare
  have tail : expression.tail = [] := List.isEmpty_iff.mp isLeaf
  have notLambda : expression.isLambda = false := by
    unfold Expr.isLambda Expr.lambdaParts?
    rw [tail]
    split <;> rfl
  obtain ⟨budget, ended⟩ := evaluated
  obtain _ | budget := budget
  · cases ended
  change step (evaluate budget) (callLinked budget) expression environment = _ at ended
  unfold step at ended
  rw [tail, notLambda, isLeaf, head] at ended
  -- A special form without operands is refused or an empty list, and a leaf is looked up.
  cases special : specialForm? expression with
  | none =>
      rw [special] at ended
      change evaluateLeaf (.symbol name) environment = _ at ended
      simp only [evaluateLeaf, Computation.bind_apply, Computation.environment, found] at ended
      cases ended
  | some form =>
      rw [special] at ended
      cases form with
      | list =>
          cases ended
          rfl
      | _ => cases ended

theorem stable_resolveCallee (form : SpecialForm) (expression : Expr) :
    Budgeted.Stable fun budget => resolveCallee (evaluate budget) form expression := by
  -- Whether a procedure is named does not depend on the budget, so the cases come first.
  intro budget budget' covered environment ending ended
  unfold resolveCallee at ended ⊢
  simp only [Computation.bind_apply, Computation.environment] at ended ⊢
  cases named : expression.bareSymbol?.bind environment.procedure? with
  | some builtIn =>
      rw [named] at ended
      exact ended
  | none =>
      rw [named] at ended
      exact ((stable_evaluate expression).andThen fun _ => Budgeted.stable_const _) budget budget'
        covered environment ending ended

theorem stable_evaluateItems (form : SpecialForm) (expression : Expr) :
    Budgeted.Stable fun budget => evaluateItems (evaluate budget) form expression :=
  (stable_evaluate expression).andThen fun _ => Budgeted.stable_const _

theorem Resolves.ends (resolves : Resolves expression environment callee left) :
    Budgeted.Ends (fun budget => resolveCallee (evaluate budget) form expression) environment
      (.ok callee) left := by
  cases resolves with
  | procedure bare found =>
      refine ⟨0, ?_⟩
      unfold resolveCallee
      simp only [Computation.bind_apply, Computation.environment, bare, Option.bind_some,
        Environment.procedure?, found]
      rfl
  | @function value body parameters _ evaluated parts =>
      obtain ⟨budget, ended⟩ := evaluated
      refine ⟨budget, ?_⟩
      have unnamed : expression.bareSymbol?.bind environment.procedure? = none := by
        by_contra named
        obtain ⟨builtIn, found⟩ := Option.ne_none_iff_exists'.mp named
        obtain ⟨name, bare, procedure⟩ := Option.bind_eq_some_iff.mp found
        have lookup : environment.lookup name = some (.procedure builtIn) := by
          unfold Environment.procedure? at procedure
          split at procedure
          · rename_i known
            rw [known, Option.some.inj procedure]
          · cases procedure
        rw [not_function_of_procedure bare lookup ⟨budget, ended⟩] at parts
        cases parts
      unfold resolveCallee
      simp only [Computation.bind_apply, Computation.environment, unnamed, ended, parts]
      rfl

/-- Both operands are evaluated, and then put to use. -/
def preparing (form : SpecialForm) (first second : Expr)
    (use : Callee → List Expr → Budgeted β) : Budgeted β :=
  Budgeted.andThen (fun budget => resolveCallee (evaluate budget) form first) fun callee =>
    Budgeted.andThen (fun budget => evaluateItems (evaluate budget) form second) (use callee)

/-- Behind its operands, `apply` or `map` ends like the use that it makes of them. -/
theorem Prepares.ends_iff {use : Callee → List Expr → Budgeted β} {outcome : Except Failure β}
    (prepares : Prepares first second environment callee items left)
    (stables : ∀ callee items, (use callee items).Stable) :
    (preparing form first second use).Ends environment outcome final ↔
      (use callee items).Ends left outcome final := by
  obtain ⟨middle, value, resolves, evaluated, tagged, rfl⟩ := prepares
  have itemsThere : Budgeted.Ends (fun budget => evaluateItems (evaluate budget) form second)
      middle (.ok value.tail) left := by
    obtain ⟨budget, ended⟩ := evaluated
    refine ⟨budget, ?_⟩
    unfold evaluateItems
    simp only [Computation.bind_apply, ended, tagged]
    rfl
  have itemsStable := stable_evaluateItems form second
  unfold preparing
  rw [Budgeted.ends_andThen_of_ok (stable_resolveCallee form first)
    (fun callee => itemsStable.andThen (stables callee)) resolves.ends]
  exact Budgeted.ends_andThen_of_ok itemsStable (stables callee) itemsThere

end Operands

/-! ## One call for each item -/

section Calls

variable {callee : Callee} {items results : List Expr}
variable {environment left : Environment}

/-- The calls for the items of a list. -/
def callsEach (callee : Callee) (items : List Expr) : Budgeted (List Expr) :=
  fun budget => callEach (callLinked budget) callee items

theorem callsEach_cons (callee : Callee) (first : Expr) (rest : List Expr) :
    callsEach callee (first :: rest) =
      Budgeted.andThen (fun budget => callLinked budget callee [first]) fun result =>
        (callsEach callee rest).andThen fun others _ => pure (result :: others) :=
  rfl

theorem stable_callsEach (callee : Callee) (items : List Expr) :
    (callsEach callee items).Stable := by
  induction items with
  | nil => exact Budgeted.stable_const _
  | cons first rest inductionHypothesis =>
      rw [callsEach_cons]
      exact (stable_callLinked callee [first]).andThen fun _ =>
        inductionHypothesis.andThen fun _ => Budgeted.stable_const _

/-- All calls succeed if each one does, made alone. -/
theorem callsEach_ok_iff :
    (callsEach callee items).Ends environment (.ok results) left ↔
      left = environment ∧ List.Forall₂
        (fun item result => Calls callee [item] environment (.ok result)) items results := by
  induction items generalizing results with
  | nil =>
      change Budgeted.Ends (fun _ => pure []) environment (.ok results) left ↔ _
      rw [Budgeted.ends_const_iff, Computation.pure_apply, List.forall₂_nil_left_iff]
      grind
  | cons first rest inductionHypothesis =>
      have others := stable_callsEach callee rest
      rw [callsEach_cons, Budgeted.ends_andThen_ok_iff (stable_callLinked callee [first])
        fun _ => others.andThen fun _ => Budgeted.stable_const _]
      simp only [callLinked_ends_iff,
        Budgeted.ends_andThen_ok_iff others fun _ => Budgeted.stable_const _,
        Budgeted.ends_const_iff, Computation.pure_apply, List.forall₂_cons_left_iff]
      constructor
      · rintro ⟨result, _, ⟨calls, rfl⟩, others, middle, ends, same⟩
        cases same
        obtain ⟨rfl, each⟩ := inductionHypothesis.mp ends
        exact ⟨rfl, result, others, calls, each, rfl⟩
      · rintro ⟨rfl, result, others, calls, each, rfl⟩
        exact ⟨result, left, ⟨calls, rfl⟩, others, left, inductionHypothesis.mpr ⟨rfl, each⟩, rfl⟩

/-- The calls fail with the failure of the first one that fails, made alone. -/
theorem callsEach_error_iff {failure : Failure} :
    (callsEach callee items).Ends environment (.error failure) left ↔
      left = environment ∧ ∃ before item behind, items = before ++ item :: behind ∧
        (∀ earlier ∈ before, ∃ result, Calls callee [earlier] environment (.ok result)) ∧
        Calls callee [item] environment (.error failure) := by
  induction items with
  | nil =>
      change Budgeted.Ends (fun _ => pure []) environment (.error failure) left ↔ _
      rw [Budgeted.ends_const_iff, Computation.pure_apply]
      constructor
      · intro ended
        cases ended
      · rintro ⟨-, before, item, behind, shape, -⟩
        exact absurd shape.symm (by simp)
  | cons first rest inductionHypothesis =>
      have others := stable_callsEach callee rest
      rw [callsEach_cons, Budgeted.ends_andThen_error_iff (stable_callLinked callee [first])
        fun _ => others.andThen fun _ => Budgeted.stable_const _]
      simp only [callLinked_ends_iff,
        Budgeted.ends_andThen_error_iff others fun _ => Budgeted.stable_const _,
        Budgeted.ends_const_iff, Computation.pure_apply]
      constructor
      · rintro (⟨calls, rfl⟩ | ⟨result, _, ⟨calls, rfl⟩, ends | ⟨_, _, _, impossible⟩⟩)
        · exact ⟨rfl, [], first, rest, rfl, fun _ member => absurd member List.not_mem_nil, calls⟩
        · obtain ⟨rfl, before, item, behind, rfl, succeed, fails⟩ := inductionHypothesis.mp ends
          refine ⟨rfl, first :: before, item, behind, rfl, ?_, fails⟩
          exact List.forall_mem_cons.mpr ⟨⟨result, calls⟩, succeed⟩
        · cases impossible
      · rintro ⟨rfl, before, item, behind, shape, succeed, fails⟩
        cases before with
        | nil =>
            obtain ⟨rfl, rfl⟩ := List.cons.inj shape
            exact .inl ⟨fails, rfl⟩
        | cons earlier before =>
            obtain ⟨rfl, rfl⟩ := List.cons.inj shape
            obtain ⟨⟨result, calls⟩, later⟩ := List.forall_mem_cons.mp succeed
            exact .inr ⟨result, left, ⟨calls, rfl⟩,
              .inl (inductionHypothesis.mpr ⟨rfl, before, item, behind, rfl, later, fails⟩)⟩

/-- There are results for all items if there is one for each. -/
theorem exists_results_iff :
    (∃ results, List.Forall₂ (fun item result => Calls callee [item] environment (.ok result))
      items results) ↔ ∀ item ∈ items, ∃ result, Calls callee [item] environment (.ok result) := by
  induction items with
  | nil => simp
  | cons first rest inductionHypothesis =>
      rw [List.forall_mem_cons, ← inductionHypothesis]
      constructor
      · rintro ⟨_, each⟩
        cases each with
        | cons calls others => exact ⟨⟨_, calls⟩, _, others⟩
      · rintro ⟨⟨result, calls⟩, results, others⟩
        exact ⟨result :: results, .cons calls others⟩

end Calls

/-! ## The calls of `apply` and `map` -/

/-- `(apply first second)` -/
def applied (first second : Expr) : Expr :=
  .form (.symbol SpecialForm.apply.name) [first, second]

/-- `(map first second)` -/
def mapped (first second : Expr) : Expr :=
  .form (.symbol SpecialForm.map.name) [first, second]

section Forms

variable {first second : Expr} {environment left final : Environment}
variable {callee : Callee} {items results : List Expr}

/-- `apply` makes one call. -/
theorem ends_applied_iff {outcome : Except Failure Expr}
    (prepares : Prepares first second environment callee items left) :
    Ends (applied first second) environment outcome final ↔
      Calls callee items left outcome ∧ final = left := by
  have steps (budget : Nat) :
      step (evaluate budget) (callLinked budget) (applied first second) =
        preparing .apply first second (fun callee items budget => callLinked budget callee items)
          budget := rfl
  rw [ends_iff_step steps, prepares.ends_iff stable_callLinked, callLinked_ends_iff]

/-- `map` makes the calls for all items, and gives the list of their results. -/
theorem ends_mapped_iff {outcome : Except Failure Expr}
    (prepares : Prepares first second environment callee items left) :
    Ends (mapped first second) environment outcome final ↔
      ((callsEach callee items).andThen fun results _ => pure (.list results)).Ends left outcome
        final := by
  have steps (budget : Nat) :
      step (evaluate budget) (callLinked budget) (mapped first second) =
        preparing .map first second
          (fun callee items => (callsEach callee items).andThen fun results _ =>
            pure (.list results)) budget := rfl
  rw [ends_iff_step steps, prepares.ends_iff fun callee items =>
    (stable_callsEach callee items).andThen fun _ => Budgeted.stable_const _]

theorem mapped_ok_iff {result : Expr}
    (prepares : Prepares first second environment callee items left) :
    Ends (mapped first second) environment (.ok result) final ↔
      final = left ∧ ∃ results, result = .list results ∧
        List.Forall₂ (fun item result => Calls callee [item] left (.ok result)) items results := by
  rw [ends_mapped_iff prepares, Budgeted.ends_andThen_ok_iff (stable_callsEach callee items)
    fun _ => Budgeted.stable_const _]
  simp only [callsEach_ok_iff, Budgeted.ends_const_iff, Computation.pure_apply]
  constructor
  · rintro ⟨results, _, ⟨rfl, each⟩, same⟩
    cases same
    exact ⟨rfl, results, rfl, each⟩
  · rintro ⟨rfl, results, rfl, each⟩
    exact ⟨results, final, ⟨rfl, each⟩, rfl⟩

theorem mapped_error_iff {failure : Failure}
    (prepares : Prepares first second environment callee items left) :
    Ends (mapped first second) environment (.error failure) final ↔
      final = left ∧ ∃ before item behind, items = before ++ item :: behind ∧
        (∀ earlier ∈ before, ∃ result, Calls callee [earlier] left (.ok result)) ∧
        Calls callee [item] left (.error failure) := by
  rw [ends_mapped_iff prepares, Budgeted.ends_andThen_error_iff (stable_callsEach callee items)
    fun _ => Budgeted.stable_const _, callsEach_error_iff, or_iff_left]
  rintro ⟨results, middle, -, impossible⟩
  cases Budgeted.ends_const_iff.mp impossible

/-- The results for items that are mapped together are those for each part of them. -/
theorem mapped_append_iff {first₁ first₂ second₁ second₂ : Expr}
    {environment₁ environment₂ : Environment} {items₁ items₂ : List Expr}
    (prepares : Prepares first second environment callee (items₁ ++ items₂) left)
    (prepares₁ : Prepares first₁ second₁ environment₁ callee items₁ left)
    (prepares₂ : Prepares first₂ second₂ environment₂ callee items₂ left) :
    Ends (mapped first second) environment (.ok (.list results)) left ↔
      ∃ results₁ results₂, results = results₁ ++ results₂ ∧
        Ends (mapped first₁ second₁) environment₁ (.ok (.list results₁)) left ∧
        Ends (mapped first₂ second₂) environment₂ (.ok (.list results₂)) left := by
  have items_of_list {results results' : List Expr} (same : Expr.list results = .list results') :
      results = results' := congrArg Expr.tail same
  rw [mapped_ok_iff prepares]
  simp only [mapped_ok_iff prepares₁, mapped_ok_iff prepares₂, true_and]
  constructor
  · rintro ⟨whole, same, each⟩
    obtain rfl := items_of_list same
    refine ⟨results.take items₁.length, results.drop items₁.length,
      (List.take_append_drop _ _).symm, ⟨_, rfl, ?_⟩, ⟨_, rfl, ?_⟩⟩
    · simpa using List.forall₂_take items₁.length each
    · simpa using List.forall₂_drop items₁.length each
  · rintro ⟨results₁, results₂, rfl, ⟨_, same₁, each₁⟩, ⟨_, same₂, each₂⟩⟩
    obtain rfl := items_of_list same₁
    obtain rfl := items_of_list same₂
    exact ⟨_, rfl, List.rel_append each₁ each₂⟩

/-- What `map` gives is what one call for each item gives, where all these calls are made in the
environment that the operands have left. It succeeds exactly if each of the calls does, with
the list of their results in order, and otherwise fails with the failure of the first call
that fails. It leaves that environment as it is, whatever the calls define and annotate. So
the results for two lists in one are the results for the first and then for the second one, and
the result for an item is what `apply` gives for the list of this item alone. -/
theorem map_pointwise (prepares : Prepares first second environment callee items left) :
    (∀ result final, Ends (mapped first second) environment (.ok result) final ↔
      final = left ∧ ∃ results, result = .list results ∧
        List.Forall₂ (fun item result => Calls callee [item] left (.ok result)) items results) ∧
    ((∃ result final, Ends (mapped first second) environment (.ok result) final) ↔
      ∀ item ∈ items, ∃ result, Calls callee [item] left (.ok result)) ∧
    (∀ failure final, Ends (mapped first second) environment (.error failure) final ↔
      final = left ∧ ∃ before item behind, items = before ++ item :: behind ∧
        (∀ earlier ∈ before, ∃ result, Calls callee [earlier] left (.ok result)) ∧
        Calls callee [item] left (.error failure)) ∧
    (∀ first₁ second₁ environment₁ items₁ first₂ second₂ environment₂ items₂,
      Prepares first₁ second₁ environment₁ callee items₁ left →
      Prepares first₂ second₂ environment₂ callee items₂ left → items = items₁ ++ items₂ →
      ∀ results, Ends (mapped first second) environment (.ok (.list results)) left ↔
        ∃ results₁ results₂, results = results₁ ++ results₂ ∧
          Ends (mapped first₁ second₁) environment₁ (.ok (.list results₁)) left ∧
          Ends (mapped first₂ second₂) environment₂ (.ok (.list results₂)) left) ∧
    ∀ item first' second' environment', Prepares first' second' environment' callee [item] left →
      ∀ outcome final, Ends (applied first' second') environment' outcome final ↔
        Calls callee [item] left outcome ∧ final = left := by
  refine ⟨fun result final => mapped_ok_iff prepares, ?_,
    fun failure final => mapped_error_iff prepares, ?_, ?_⟩
  · rw [← exists_results_iff]
    simp only [mapped_ok_iff prepares]
    constructor
    · rintro ⟨_, _, -, results, -, each⟩
      exact ⟨results, each⟩
    · rintro ⟨results, each⟩
      exact ⟨_, left, rfl, results, rfl, each⟩
  · rintro first₁ second₁ environment₁ items₁ first₂ second₂ environment₂ items₂ prepares₁
      prepares₂ rfl results
    exact mapped_append_iff prepares prepares₁ prepares₂
  · intro item first' second' environment' prepares' outcome final
    exact ends_applied_iff prepares'

end Forms

/-- `(list "second" "third")` -/
def writtenItems : Expr :=
  .list [.leaf (.string "second"), .leaf (.string "third")]

/-- The string that `a` is bound to, annotated by a call for an item. -/
def annotatedBy (item : String) : Expr :=
  (Expr.leaf (.string "first")).setProperty "k" (.leaf (.string item))

/-- What is called where the function is. -/
def writingCallee : Callee :=
  .lambda ["x"] (.form (.symbol "begin")
    [.form (.symbol "define") [.leaf (.symbol "y"), .leaf (.symbol "x")],
      .form (.symbol "set-property")
        [.leaf (.string "k"), .leaf (.symbol "x"), .leaf (.symbol "a")]])

/-- `(map f (list "second" "third"))`, where `f` defines `y` and annotates `a`. The second call
defines `y` once more, gets `a` as it was, and leaves no trace either. -/
theorem writing_function_mapped :
    Prepares (.leaf (.symbol "f")) writtenItems beforeCall writingCallee
        [.leaf (.string "second"), .leaf (.string "third")] beforeCall ∧
      Ends (mapped (.leaf (.symbol "f")) writtenItems) beforeCall
        (.ok (.list [annotatedBy "second", annotatedBy "third"])) beforeCall := by
  have evaluated : Ends (.leaf (.symbol "f")) beforeCall (.ok writingFunction) beforeCall :=
    ⟨1, rfl⟩
  have prepares : Prepares (.leaf (.symbol "f")) writtenItems beforeCall writingCallee
      [.leaf (.string "second"), .leaf (.string "third")] beforeCall :=
    ⟨beforeCall, writtenItems, .function evaluated rfl, ⟨2, rfl⟩, rfl, rfl⟩
  have second : Calls writingCallee [.leaf (.string "second")] beforeCall
      (.ok (annotatedBy "second")) := ⟨beforeCall, 3, rfl⟩
  have third : Calls writingCallee [.leaf (.string "third")] beforeCall
      (.ok (annotatedBy "third")) := ⟨beforeCall, 3, rfl⟩
  exact ⟨prepares, ((map_pointwise prepares).1 _ _).mpr
    ⟨rfl, _, rfl, .cons second (.cons third .nil)⟩⟩

end Evaluation

end FormLang
