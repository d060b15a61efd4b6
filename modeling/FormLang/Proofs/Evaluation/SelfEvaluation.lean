import FormLang.Evaluation.Evaluate
import FormLang.Proofs.Trees

/-!
Contract: values, evaluated as programs.

What an evaluation yields can be evaluated again, by `apply` or as an operand that was put into
a program. A literal stands for itself, a list is the form that makes it, and a function is kept
as it is, so that its body is not touched. Nothing of the environment takes part.

Owns: what a value settles to, which values hold nothing where a value is needed, and the theorem
that evaluations of values end in this way in every environment.
-/

set_option autoImplicit false

namespace FormLang

namespace Expr

/-! ## What values settle to -/

mutual

/-- A value without the properties of its literals and of its lists. A function is kept with
all of its properties. -/
def settle : Expr → Expr
  | .node head tail properties =>
      if head = .symbol listTag then .list (settleEach tail)
      else if (node head tail properties).isLambda then .node head tail properties
      else .form head tail

def settleEach : List Expr → List Expr
  | [] => []
  | first :: rest => first.settle :: settleEach rest

end

theorem settleEach_eq_map (items : List Expr) : settleEach items = items.map settle := by
  induction items with
  | nil => rfl
  | cons first rest inductionHypothesis => rw [settleEach, inductionHypothesis, List.map_cons]

@[simp] theorem settle_list (items : List Expr) (properties : Table Expr) :
    (node (.symbol listTag) items properties).settle = list (items.map settle) := by
  rw [settle, if_pos rfl, settleEach_eq_map]

theorem settle_literal {head : Atom} (plain : head.symbol? = none) (properties : Table Expr) :
    (node head [] properties).settle = leaf head := by
  have unlisted : head ≠ .symbol listTag := by
    rintro rfl
    cases plain
  have unmarked : (node head [] properties).isLambda = false := by
    rw [isLambda, lambdaParts?, Expr.head, plain]
    rfl
  rw [settle, if_neg unlisted, unmarked]
  rfl

theorem settle_function {value : Expr} (isFunction : value.isLambda = true) :
    value.settle = value := by
  obtain ⟨⟨names, body⟩, parts⟩ := Option.isSome_iff_exists.mp isFunction
  obtain ⟨_, marked, _⟩ := lambdaParts?_eq_some parts
  cases value with
  | node head tail properties =>
      cases (marked : head = .symbol lambdaTag)
      rw [settle, if_neg (by decide), if_pos isFunction]

theorem settle_tagged {parameters body : Expr} {properties : Table Expr}
    (tagged : parameters.isList = true)
    (names : ∀ parameter ∈ parameters.tail, parameter.bareSymbol?.isSome = true) :
    (node (.symbol lambdaTag) [parameters, body] properties).settle =
      node (.symbol lambdaTag) [parameters, body] properties :=
  settle_function (isLambda_of_tagged body properties tagged names)

/-! ## Nothing among values -/

/-- A leaf of nothing is the value, or one of its items, at any depth of lists. What stands in
a function or in a property does not count. -/
inductive ReachesNothing : Expr → Prop where
  | nothing (properties : Table Expr) : ReachesNothing (.node .none [] properties)
  | item {item : Expr} {items : List Expr} {properties : Table Expr} (member : item ∈ items)
      (reaches : item.ReachesNothing) : ReachesNothing (.node (.symbol listTag) items properties)

theorem reachesNothing_list_iff {items : List Expr} {properties : Table Expr} :
    (node (.symbol listTag) items properties).ReachesNothing ↔
      ∃ item ∈ items, item.ReachesNothing := by
  constructor
  · intro reaches
    cases reaches with
    | item member reaches => exact ⟨_, member, reaches⟩
  · rintro ⟨item, member, reaches⟩
    exact .item member reaches

theorem reachesNothing_literal_iff {head : Atom} {properties : Table Expr}
    (plain : head.symbol? = none) :
    (node head [] properties).ReachesNothing ↔ head = .none := by
  constructor
  · intro reaches
    cases reaches with
    | nothing => rfl
    | item member reaches => cases plain
  · rintro rfl
    exact .nothing properties

theorem not_reachesNothing_function {tail : List Expr} {properties : Table Expr} :
    ¬ (node (.symbol lambdaTag) tail properties).ReachesNothing := by
  generalize marked : node (.symbol lambdaTag) tail properties = function
  intro reaches
  cases reaches with
  | nothing => cases marked
  | item _ _ =>
      have same : lambdaTag = listTag := Atom.symbol.inj (congrArg head marked)
      exact absurd same (by decide)

/-! ## Settled values -/

section Settled

variable {value : Expr}

theorem IsValue.settle (isValue : value.IsValue) : value.settle.IsValue := by
  induction isValue with
  | literal plain _ _ =>
      rw [settle_literal plain]
      exact ValueOver.leaf plain
  | list _ _ inductionHypothesis _ =>
      rw [settle_list]
      exact ValueOver.ofItems (List.forall_mem_map.mpr inductionHypothesis)
  | function tagged names _ entries _ =>
      rw [settle_tagged tagged names]
      exact .function tagged names trivial entries

/-- What has settled stays as it is. -/
theorem IsValue.settle_settle (isValue : value.IsValue) : value.settle.settle = value.settle := by
  induction isValue with
  | literal plain _ _ =>
      rw [settle_literal plain]
      exact settle_literal plain []
  | list _ _ inductionHypothesis _ =>
      rw [settle_list, list, form, settle_list, List.map_map]
      exact congrArg list (List.map_congr_left inductionHypothesis)
  | function tagged names _ _ _ =>
      rw [settle_tagged tagged names, settle_tagged tagged names]

theorem IsValue.reachesNothing_settle_iff (isValue : value.IsValue) :
    value.settle.ReachesNothing ↔ value.ReachesNothing := by
  induction isValue with
  | literal plain _ _ =>
      rw [settle_literal plain, leaf, reachesNothing_literal_iff plain,
        reachesNothing_literal_iff plain]
  | list _ _ inductionHypothesis _ =>
      rw [settle_list, list, form, reachesNothing_list_iff, reachesNothing_list_iff]
      constructor
      · rintro ⟨_, mapped, reaches⟩
        obtain ⟨item, member, rfl⟩ := List.mem_map.mp mapped
        exact ⟨item, member, (inductionHypothesis item member).mp reaches⟩
      · rintro ⟨item, member, reaches⟩
        exact ⟨item.settle, List.mem_map_of_mem member, (inductionHypothesis item member).mpr reaches⟩
  | function tagged names _ _ _ => rw [settle_tagged tagged names]

theorem IsValue.depth_settle_le (isValue : value.IsValue) : value.settle.depth ≤ value.depth := by
  induction isValue with
  | literal plain _ _ =>
      rw [settle_literal plain, leaf, depth, depth, depthOfProperties]
      omega
  | @list items _ _ _ inductionHypothesis _ =>
      have lower : depthOfTail (items.map Expr.settle) ≤ depthOfTail items :=
        depthOfTail_le_iff.mpr (List.forall_mem_map.mpr fun item member =>
          Nat.le_trans (inductionHypothesis item member)
            (depthOfTail_le_iff.mp (Nat.le_refl _) item member))
      rw [settle_list, list, form, depth, depth, depthOfProperties]
      omega
  | function tagged names _ _ _ => exact Nat.le_of_eq (by rw [settle_tagged tagged names])

end Settled

end Expr

namespace Evaluation

open FormLang.Expr

/-! ## Evaluation -/

section Operands

variable {evaluate : Evaluator} {environment : Environment} {items : List Expr}

/-- Operands that leave the environment as it is have their values, one by one. -/
theorem evaluateEach_unchanged {result : Expr → Expr}
    (each : ∀ item ∈ items, evaluate item environment = some (.ok (result item), environment)) :
    evaluateEach evaluate items environment = some (.ok (items.map result), environment) := by
  induction items with
  | nil => rfl
  | cons first rest inductionHypothesis =>
      obtain ⟨firstEnded, restEnded⟩ := List.forall_mem_cons.mp each
      rw [evaluateEach, Computation.bind_apply, firstEnded]
      simp only [Computation.bind_apply, inductionHypothesis restEnded]
      rfl

/-- Where some of the operands fail in one way, and all of them leave the environment as it is,
their evaluation fails in that way. -/
theorem evaluateEach_fails {failure : Failure} {fails : Expr → Prop} {result : Expr → Expr}
    (failing : ∀ item ∈ items, fails item →
      evaluate item environment = some (.error failure, environment))
    (others : ∀ item ∈ items, ¬ fails item →
      evaluate item environment = some (.ok (result item), environment))
    (someFails : ∃ item ∈ items, fails item) :
    evaluateEach evaluate items environment = some (.error failure, environment) := by
  induction items with
  | nil =>
      obtain ⟨item, member, -⟩ := someFails
      exact absurd member List.not_mem_nil
  | cons first rest inductionHypothesis =>
      obtain ⟨firstFailing, restFailing⟩ := List.forall_mem_cons.mp failing
      obtain ⟨firstOther, restOthers⟩ := List.forall_mem_cons.mp others
      rw [evaluateEach, Computation.bind_apply]
      by_cases firstFails : fails first
      · rw [firstFailing firstFails]
      · have behind : ∃ item ∈ rest, fails item := by simpa [firstFails] using someFails
        rw [firstOther firstFails]
        simp only [Computation.bind_apply, inductionHypothesis restFailing restOthers behind]

end Operands

section Values

variable {value : Expr} {budget : Nat}

theorem evaluate_literal {head : Atom} (plain : head.symbol? = none) (properties : Table Expr) :
    evaluate (budget + 1) (.node head [] properties) = evaluateLeaf head := by
  have ordinary : specialForm? (.node head [] properties) = none := by
    rw [specialForm?, Expr.head, plain]
    rfl
  rw [evaluate, evaluateBy, step]
  simp only [ordinary]
  rfl

theorem evaluate_function (isFunction : value.isLambda = true) :
    evaluate (budget + 1) value = pure value := by
  obtain ⟨⟨names, body⟩, parts⟩ := Option.isSome_iff_exists.mp isFunction
  obtain ⟨_, marked, _⟩ := lambdaParts?_eq_some parts
  have special : specialForm? value = some .lambda := by
    rw [specialForm?, marked]
    rfl
  rw [evaluate, evaluateBy, step]
  simp only [special, isFunction]
  rfl

/-- The form that makes a list evaluates its items within the budget that is left. -/
theorem evaluate_list (items : List Expr) (properties : Table Expr) :
    evaluate (budget + 1) (.node (.symbol listTag) items properties) =
      evaluateList (evaluate budget) items := rfl

variable (environment : Environment)

theorem evaluateLeaf_literal {head : Atom} (plain : head.symbol? = none) (known : head ≠ .none) :
    evaluateLeaf head environment = some (.ok (.leaf head), environment) := by
  cases head with
  | none => exact absurd rfl known
  | symbol name => cases plain
  | number value => rfl
  | complex value => rfl
  | string content => rfl

/-- A value without nothing evaluates to what it settles to. -/
theorem evaluate_settles (isValue : value.IsValue) (whole : ¬ value.ReachesNothing)
    (enough : value.depth ≤ budget) :
    evaluate budget value environment = some (.ok value.settle, environment) := by
  induction isValue generalizing budget with
  | @literal head properties plain _ _ =>
      obtain ⟨budget, rfl, -⟩ := exists_budget_behind enough
      rw [evaluate_literal plain, settle_literal plain]
      exact evaluateLeaf_literal environment plain
        fun nothing => whole ((reachesNothing_literal_iff plain).mpr nothing)
  | @list items properties _ _ inductionHypothesis _ =>
      obtain ⟨budget, rfl, enoughBehind⟩ := exists_budget_behind enough
      have each : ∀ item ∈ items,
          evaluate budget item environment = some (.ok item.settle, environment) := by
        intro item member
        have itemWhole : ¬ item.ReachesNothing := fun reaches => whole (.item member reaches)
        exact inductionHypothesis item member itemWhole (enoughBehind item member)
      rw [evaluate_list, evaluateList, Computation.bind_apply, evaluateEach_unchanged each,
        settle_list]
      rfl
  | @function parameters body properties tagged names _ _ _ =>
      obtain ⟨budget, rfl, -⟩ := exists_budget_behind enough
      have isFunction := isLambda_of_tagged body properties tagged names
      rw [evaluate_function isFunction, settle_function isFunction]
      rfl

/-- A value that reaches nothing is refused, also where other items of its lists are not. -/
theorem evaluate_refuses (isValue : value.IsValue) (reaches : value.ReachesNothing)
    (enough : value.depth ≤ budget) :
    evaluate budget value environment = some (.error .nothingAsValue, environment) := by
  induction isValue generalizing budget with
  | @literal head properties plain _ _ =>
      obtain ⟨budget, rfl, -⟩ := exists_budget_behind enough
      rw [evaluate_literal plain, (reachesNothing_literal_iff plain).mp reaches]
      rfl
  | @list items properties values _ inductionHypothesis _ =>
      obtain ⟨budget, rfl, enoughBehind⟩ := exists_budget_behind enough
      have refused := evaluateEach_fails
        (fun item member itemReaches =>
          inductionHypothesis item member itemReaches (enoughBehind item member))
        (fun item member itemWhole =>
          evaluate_settles environment (values item member) itemWhole (enoughBehind item member))
        (reachesNothing_list_iff.mp reaches)
      rw [evaluate_list, evaluateList, Computation.bind_apply, refused]
  | function _ _ _ _ _ => exact absurd reaches not_reachesNothing_function

end Values

/-- A value in which no leaf of nothing can be reached through lists evaluates to itself, without
the properties of its literals and lists, and what it evaluates to evaluates to itself as it is.
Where a leaf of nothing can be reached, the form is malformed. Neither depends on the environment
or changes it. -/
theorem values_evaluate_to_themselves {value : Expr} (isValue : value.IsValue) :
    (¬ value.ReachesNothing → ∀ environment budget, value.depth ≤ budget →
      evaluate budget value environment = some (.ok value.settle, environment) ∧
      evaluate budget value.settle environment = some (.ok value.settle, environment)) ∧
    (value.ReachesNothing → ∀ environment budget, value.depth ≤ budget →
      evaluate budget value environment = some (.error .nothingAsValue, environment)) ∧
    Failure.nothingAsValue.failureClass = .malformedForm := by
  refine ⟨fun whole environment budget enough => ⟨?_, ?_⟩, fun reaches environment budget enough =>
    ?_, rfl⟩
  · exact evaluate_settles environment isValue whole enough
  · have again := evaluate_settles environment isValue.settle
      (whole ∘ isValue.reachesNothing_settle_iff.mp) (Nat.le_trans isValue.depth_settle_le enough)
    rwa [isValue.settle_settle] at again
  · exact evaluate_refuses environment isValue reaches enough

/-- A string with a property. -/
def annotatedUnit : Expr := .node (.string "m") [] [("of", .leaf (.string "length"))]

/-- A function with a property, whose body cannot be evaluated. -/
def annotatedFunction : Expr :=
  (Expr.lambda ["x"] (.form (.symbol "y") [.leaf .none])).setProperty "unit" annotatedUnit

/-- A list of these and of the empty list, each with properties. -/
def annotatedList : Expr :=
  .node (.symbol listTag)
    [annotatedUnit, .node (.symbol listTag) [] [("unit", annotatedUnit)], annotatedFunction]
    [("unit", annotatedUnit)]

/-- The list loses its own property and those of its string and its empty list, while its
function keeps what it has. With a leaf of nothing as another item it is refused. -/
theorem annotated_list_settles :
    annotatedList.IsValue ∧ ¬ annotatedList.ReachesNothing ∧
      evaluate 5 annotatedList .initial =
        some (.ok (.list [.leaf (.string "m"), .list [], annotatedFunction]), .initial) ∧
      (Expr.list [annotatedList, .list [.leaf .none]]).ReachesNothing ∧
      evaluate 6 (.list [annotatedList, .list [.leaf .none]]) .initial =
        some (.error .nothingAsValue, .initial) := by
  have unitIsValue : annotatedUnit.IsValue := by
    refine .literal rfl fun entry member => ?_
    obtain rfl := List.mem_singleton.mp member
    exact ValueOver.leaf rfl
  have unitEntries : ∀ entry ∈ [("unit", annotatedUnit)], entry.2.IsValue :=
    List.forall_mem_singleton.mpr unitIsValue
  have functionIsValue : annotatedFunction.IsValue :=
    ValueOver.setProperty "unit" (ValueOver.ofBody ["x"] trivial) unitIsValue
  have emptyIsValue : (Expr.node (.symbol listTag) [] [("unit", annotatedUnit)]).IsValue :=
    .list (fun _ member => absurd member List.not_mem_nil) unitEntries
  have isValue : annotatedList.IsValue := by
    refine .list (fun item member => ?_) unitEntries
    simp only [List.mem_cons, List.not_mem_nil, or_false] at member
    obtain rfl | rfl | rfl := member
    · exact unitIsValue
    · exact emptyIsValue
    · exact functionIsValue
  have whole : ¬ annotatedList.ReachesNothing := by
    rw [annotatedList, reachesNothing_list_iff]
    rintro ⟨item, member, reaches⟩
    simp only [List.mem_cons, List.not_mem_nil, or_false] at member
    obtain rfl | rfl | rfl := member
    · exact absurd ((reachesNothing_literal_iff rfl).mp reaches) (by decide)
    · obtain ⟨_, member, _⟩ := reachesNothing_list_iff.mp reaches
      exact absurd member List.not_mem_nil
    · exact not_reachesNothing_function reaches
  have hollowIsValue : (Expr.list [annotatedList, .list [.leaf .none]]).IsValue := by
    refine ValueOver.ofItems fun item member => ?_
    simp only [List.mem_cons, List.not_mem_nil, or_false] at member
    obtain rfl | rfl := member
    · exact isValue
    · exact ValueOver.ofItems (List.forall_mem_singleton.mpr (ValueOver.leaf rfl))
  have reaches : (Expr.list [annotatedList, .list [.leaf .none]]).ReachesNothing :=
    .item (List.mem_cons_of_mem _ List.mem_cons_self) (.item List.mem_cons_self (.nothing []))
  refine ⟨isValue, whole, ?_, reaches, ?_⟩
  · exact ((values_evaluate_to_themselves isValue).1 whole .initial 5 (by decide)).1
  · exact (values_evaluate_to_themselves hollowIsValue).2.1 reaches .initial 6 (by decide)

end Evaluation

end FormLang
