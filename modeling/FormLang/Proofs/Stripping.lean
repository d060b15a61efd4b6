import FormLang.Proofs.Procedures
import FormLang.Proofs.Trees

/-!
Contract: trees, environments and procedures without properties.

Owns: stripping trees and environments of all properties, at every depth, what the operations
on them make of stripped ones, and the theorem that procedures take no notice of properties.
-/

set_option autoImplicit false

namespace FormLang

/-! ## Trees -/

mutual

/-- The tree without the properties of any of its nodes. -/
def Expr.strip : Expr → Expr
  | .node head tail _ => .form head (stripEach tail)

def Expr.stripEach : List Expr → List Expr
  | [] => []
  | first :: rest => first.strip :: stripEach rest

end

namespace Expr

theorem stripEach_eq_map (children : List Expr) : stripEach children = children.map strip := by
  induction children with
  | nil => rfl
  | cons first rest inductionHypothesis => rw [stripEach, inductionHypothesis, List.map_cons]

@[simp] theorem head_strip (expression : Expr) : expression.strip.head = expression.head := by
  cases expression
  rw [strip]
  rfl

@[simp] theorem tail_strip (expression : Expr) :
    expression.strip.tail = expression.tail.map strip := by
  cases expression
  rw [strip]
  exact stripEach_eq_map _

/-- What occurs nowhere in a stripped tree occurs nowhere in its stripped children. -/
theorem not_mem_symbols_strip_child {expression child : Expr} {name : String}
    (absent : name ∉ expression.strip.symbols) (member : child ∈ expression.tail) :
    name ∉ child.strip.symbols := by
  have stripped : child.strip ∈ expression.strip.tail := by
    rw [tail_strip]
    exact List.mem_map_of_mem member
  exact not_mem_symbols_iff.mpr ((not_mem_symbols_iff.mp absent).children child.strip stripped)

@[simp] theorem strip_node (head : Atom) (tail : List Expr) (properties : Table Expr) :
    (node head tail properties).strip = form head (tail.map strip) := by
  rw [strip, stripEach_eq_map]

@[simp] theorem strip_form (head : Atom) (tail : List Expr) :
    (form head tail).strip = form head (tail.map strip) :=
  strip_node head tail []

/-- A budget for a stripped tree is enough for each of its stripped children behind one level. -/
theorem exists_budget_behind_strip {expression : Expr} {budget : Nat}
    (enough : expression.strip.depth ≤ budget) :
    ∃ behind, budget = behind + 1 ∧ ∀ child ∈ expression.tail, child.strip.depth ≤ behind := by
  cases expression with
  | node head tail properties =>
      rw [strip_node] at enough
      obtain ⟨behind, same, items⟩ := exists_budget_behind enough
      exact ⟨behind, same, List.forall_mem_map.mp items⟩

/-- A tree that was stripped has nothing left to lose. -/
@[simp] theorem strip_strip (expression : Expr) : expression.strip.strip = expression.strip := by
  induction expression using Expr.induct with
  | node expression children _ =>
      cases expression with
      | node head tail properties =>
          rw [strip_node, strip_form, List.map_map]
          exact congrArg (form head) (List.map_congr_left children)

@[simp] theorem strip_leaf (head : Atom) : (leaf head).strip = leaf head :=
  strip_form head []

@[simp] theorem strip_list (items : List Expr) : (list items).strip = list (items.map strip) :=
  strip_form _ items

@[simp] theorem strip_setProperty (expression : Expr) (key : String) (entry : Expr) :
    (expression.setProperty key entry).strip = expression.strip := by
  cases expression
  rw [strip_node]
  exact strip_node _ _ _

/-- The parameters of a function have no properties, but its body may have some. -/
@[simp] theorem strip_lambda (names : List String) (body : Expr) :
    (lambda names body).strip = lambda names body.strip := by
  have parameters : (names.map fun name => leaf (.symbol name)).map strip =
      names.map fun name => leaf (.symbol name) := by
    rw [List.map_map]
    exact List.map_congr_left fun name _ => strip_leaf (.symbol name)
  unfold lambda
  rw [strip_form, List.map_cons, List.map_cons, strip_list, parameters, List.map_nil]

@[simp] theorem isLeaf_strip (expression : Expr) : expression.strip.isLeaf = expression.isLeaf := by
  unfold isLeaf
  rw [tail_strip, List.isEmpty_map]

@[simp] theorem bareSymbol?_strip (expression : Expr) :
    expression.strip.bareSymbol? = expression.bareSymbol? := by
  unfold bareSymbol?
  rw [isLeaf_strip, head_strip]

@[simp] theorem isList_strip (expression : Expr) : expression.strip.isList = expression.isList := by
  unfold isList
  rw [head_strip]

/-- A stripped function has a stripped body under the same parameters. -/
theorem lambdaParts?_strip (expression : Expr) :
    expression.strip.lambdaParts? =
      expression.lambdaParts?.map fun (names, body) => (names, body.strip) := by
  have names (children : List Expr) :
      (children.map strip).mapM bareSymbol? = children.mapM bareSymbol? := by
    rw [List.mapM_map]
    exact congrArg (List.mapM · children) (funext bareSymbol?_strip)
  unfold lambdaParts?
  rw [head_strip, tail_strip]
  by_cases tagged : expression.head.symbol? = some lambdaTag
  · rw [if_pos tagged, if_pos tagged]
    match expression.tail with
    | [parameters, body] =>
        simp only [List.map_cons, List.map_nil, isList_strip, tail_strip, names]
        by_cases isList : parameters.isList = true
        · simp only [if_pos isList, Option.map_map]
          rfl
        · simp only [if_neg isList]
          rfl
    | [] => rfl
    | [_] => rfl
    | _ :: _ :: _ :: _ => rfl
  · rw [if_neg tagged, if_neg tagged]
    rfl

theorem isLambda_strip (expression : Expr) :
    expression.strip.isLambda = expression.isLambda := by
  unfold isLambda
  rw [lambdaParts?_strip, Option.isSome_map]

end Expr

/-! ## Environments -/

namespace Table

variable {α β : Type} (function : α → β)

/-- The table with another entry for each of its own. -/
def mapEntries (table : Table α) : Table β :=
  table.map fun (name, entry) => (name, function entry)

theorem lookup_mapEntries (name : String) (table : Table α) :
    List.lookup name (table.mapEntries function) = (List.lookup name table).map function := by
  induction table with
  | nil => rfl
  | cons first rest inductionHypothesis =>
      obtain ⟨present, entry⟩ := first
      change List.lookup name ((present, function entry) :: mapEntries function rest) = _
      rw [List.lookup_cons, List.lookup_cons, inductionHypothesis]
      cases name == present <;> rfl

theorem mapEntries_set (name : String) (entry : α) (table : Table α) :
    (set name entry table).mapEntries function =
      set name (function entry) (table.mapEntries function) := by
  induction table with
  | nil => rfl
  | cons first rest inductionHypothesis =>
      obtain ⟨present, old⟩ := first
      change _ = set name (function entry) ((present, function old) :: mapEntries function rest)
      by_cases same : present = name
      · rw [set, set, if_pos same, if_pos same]
        rfl
      · rw [set, set, if_neg same, if_neg same, ← inductionHypothesis]
        rfl

end Table

/-- A procedure has no properties to lose. -/
def Binding.strip : Binding → Binding
  | .value expression => .value expression.strip
  | .procedure builtIn => .procedure builtIn

namespace Environment

variable {environment : Environment}

/-- The environment without the properties of any value that is bound in any scope. -/
def strip (environment : Environment) : Environment :=
  ⟨Table.mapEntries Binding.strip environment.current,
    environment.callers.map (Table.mapEntries Binding.strip)⟩

theorem lookup_strip (environment : Environment) (name : String) :
    environment.strip.lookup name = (environment.lookup name).map Binding.strip := by
  have entries : List.lookup name ∘ Table.mapEntries Binding.strip =
      Option.map Binding.strip ∘ List.lookup name :=
    funext (Table.lookup_mapEntries Binding.strip name)
  change (environment.scopes.map (Table.mapEntries Binding.strip)).findSome? _ = _
  rw [List.findSome?_map, entries, lookup, List.map_findSome?]

@[simp] theorem strip_strip (environment : Environment) :
    environment.strip.strip = environment.strip := by
  have scope (entries : Scope) : Table.mapEntries Binding.strip
      (Table.mapEntries Binding.strip entries) = Table.mapEntries Binding.strip entries := by
    unfold Table.mapEntries
    rw [List.map_map]
    refine List.map_congr_left ?_
    rintro ⟨name, binding⟩ -
    cases binding with
    | value expression => exact congrArg (fun value => (name, Binding.value value)) expression.strip_strip
    | procedure builtIn => rfl
  unfold strip
  rw [scope, List.map_map]
  congr 1
  exact List.map_congr_left fun entries _ => scope entries

theorem procedure?_strip (environment : Environment) (name : String) :
    environment.strip.procedure? name = environment.procedure? name := by
  unfold procedure?
  rw [lookup_strip]
  cases environment.lookup name with
  | none => rfl
  | some binding => cases binding <;> rfl

theorem strip_bind (environment : Environment) (name : String) (value : Expr) :
    (environment.bind name value).strip = environment.strip.bind name value.strip := by
  unfold bind strip
  rw [Table.mapEntries_set]
  rfl

theorem strip_bindAll (environment : Environment) (bindings : List (String × Expr)) :
    (environment.bindAll bindings).strip =
      environment.strip.bindAll (Table.mapEntries Expr.strip bindings) := by
  induction bindings generalizing environment with
  | nil => rfl
  | cons first rest inductionHypothesis =>
      rw [bindAll_cons, inductionHypothesis, strip_bind]
      rfl

theorem strip_enter (environment : Environment) (parameters : List String)
    (operands : List Expr) :
    (environment.enter parameters operands).strip =
      environment.strip.enter parameters (operands.map Expr.strip) := by
  rw [enter_eq_bindAll, enter_eq_bindAll, strip_bindAll, List.zip_map_right]
  rfl

end Environment

/-! ## Procedures -/

namespace Procedure

open Numeric

variable {α β γ δ : Type} {operands : List Expr}

/-- What is made of an outcome can be changed behind the steps that follow. -/
theorem bind_map {outcome : Except Failure α} {change : α → β} {change' : γ → δ}
    {next : α → Except Failure γ} {next' : β → Except Failure δ}
    (steps : ∀ value, next' (change value) = (next value).map change') :
    outcome.map change >>= next' = (outcome >>= next).map change' := by
  cases outcome with
  | error failure => rfl
  | ok value => exact steps value

/-- Steps that take no notice of properties do not need them. -/
theorem bind_strip {outcome : Except Failure Expr} {next : Expr → Except Failure α}
    (steps : ∀ value, next value.strip = next value) :
    outcome.map Expr.strip >>= next = outcome >>= next := by
  cases outcome with
  | error failure => rfl
  | ok value => exact steps value

theorem refuseCount_strip (procedure : Procedure) (expected : OperandCount) :
    (refuseCount procedure expected (operands.map Expr.strip) : Except Failure α) =
      refuseCount procedure expected operands := by
  unfold refuseCount
  rw [List.length_map]

theorem single_strip (procedure : Procedure) :
    single procedure (operands.map Expr.strip) = (single procedure operands).map Expr.strip := by
  match operands with
  | [] => rfl
  | [_] => rfl
  | _ :: _ :: _ => exact refuseCount_strip procedure (.exactly 1)

theorem listItems_strip (procedure : Procedure) (operand : Expr) :
    listItems procedure operand.strip =
      (listItems procedure operand).map (List.map Expr.strip) := by
  unfold listItems
  rw [Expr.isList_strip, Expr.tail_strip]
  cases operand.isList <;> rfl

/-- The contents of numbers are in their heads. -/
theorem numbers_strip (procedure : Procedure) :
    numbers procedure (operands.map Expr.strip) = numbers procedure operands := by
  unfold numbers
  simp only [List.mapM_map, Function.comp_def, Expr.head_strip]

theorem realOperand_strip (procedure : Procedure) :
    realOperand procedure (operands.map Expr.strip) = realOperand procedure operands := by
  unfold realOperand
  rw [single_strip]
  exact bind_strip fun operand => by rw [Expr.head_strip]

theorem complexOperand_strip (procedure : Procedure) :
    complexOperand procedure (operands.map Expr.strip) = complexOperand procedure operands := by
  unfold complexOperand
  rw [single_strip]
  exact bind_strip fun operand => by rw [Expr.head_strip]

theorem unaryOrBinary_strip (procedure : Procedure) (unary : α → α) (binary : α → α → α)
    (values : List α) :
    unaryOrBinary procedure (operands.map Expr.strip) unary binary values =
      unaryOrBinary procedure operands unary binary values := by
  match values with
  | [_] => rfl
  | [_, _] => rfl
  | [] => exact refuseCount_strip procedure .oneOrTwo
  | _ :: _ :: _ :: _ => exact refuseCount_strip procedure .oneOrTwo

theorem applySquareRoot_strip :
    applySquareRoot (operands.map Expr.strip) = applySquareRoot operands := by
  unfold applySquareRoot
  rw [single_strip]
  exact bind_strip fun operand => by rw [Expr.head_strip]

theorem applyPower_strip : applyPower (operands.map Expr.strip) = applyPower operands := by
  match operands with
  | [base, exponent] =>
      simp only [applyPower, List.map_cons, List.map_nil, Expr.head_strip]
  | [] => rfl
  | [_] => rfl
  | _ :: _ :: _ :: _ => exact refuseCount_strip .power (.exactly 2)

theorem applyRange_strip : applyRange (operands.map Expr.strip) = applyRange operands := by
  match operands with
  | [start, finish, increment] =>
      simp only [applyRange, List.map_cons, List.map_nil, Expr.head_strip]
  | [] => rfl
  | [_] => rfl
  | [_, _] => rfl
  | _ :: _ :: _ :: _ :: _ => exact refuseCount_strip .range (.exactly 3)

theorem applyFirst_strip :
    applyFirst (operands.map Expr.strip) = (applyFirst operands).map Expr.strip := by
  unfold applyFirst
  rw [single_strip]
  refine bind_map fun operand => ?_
  rw [listItems_strip]
  refine bind_map fun items => ?_
  cases items <;> rfl

theorem applyRest_strip :
    applyRest (operands.map Expr.strip) = (applyRest operands).map Expr.strip := by
  unfold applyRest
  rw [single_strip]
  refine bind_map fun operand => ?_
  rw [listItems_strip]
  refine bind_map fun items => ?_
  cases items with
  | nil => rfl
  | cons item rest => exact congrArg Except.ok (Expr.strip_list rest).symm

theorem applyLength_strip :
    applyLength (operands.map Expr.strip) = (applyLength operands).map Expr.strip := by
  unfold applyLength
  rw [single_strip]
  refine bind_map fun operand => ?_
  rw [listItems_strip]
  refine bind_map fun items => ?_
  rw [List.length_map]
  exact congrArg Except.ok (Expr.strip_leaf _).symm

theorem applyAppend_strip :
    applyAppend (operands.map Expr.strip) = (applyAppend operands).map Expr.strip := by
  match operands with
  | [operand, item] =>
      simp only [applyAppend, List.map_cons, List.map_nil, listItems_strip]
      refine bind_map fun items => congrArg Except.ok ?_
      rw [Expr.strip_list, List.map_append]
      rfl
  | [] => rfl
  | [_] => rfl
  | _ :: _ :: _ :: _ => exact refuseCount_strip .append (.exactly 2)

theorem applyJoin_strip :
    applyJoin (operands.map Expr.strip) = (applyJoin operands).map Expr.strip := by
  match operands with
  | [left, right] =>
      simp only [applyJoin, List.map_cons, List.map_nil, listItems_strip]
      refine bind_map fun items => bind_map fun items' => congrArg Except.ok ?_
      rw [Expr.strip_list, List.map_append]
  | [] => rfl
  | [_] => rfl
  | _ :: _ :: _ :: _ => exact refuseCount_strip .join (.exactly 2)

/-- What procedures make of operands without properties has none either. -/
theorem apply_map_strip (builtIn : Procedure) :
    (builtIn.apply (operands.map Expr.strip)).map Expr.strip =
      builtIn.apply (operands.map Expr.strip) := by
  have bare : Yields (fun value => value.strip = value) (builtIn.apply (operands.map Expr.strip)) := by
    refine apply_yields ?_ (fun _ => Expr.strip_leaf _) ?_ ?_ builtIn
    · intro value same _ item member
      rw [← same, Expr.tail_strip] at member
      obtain ⟨original, -, rfl⟩ := List.mem_map.mp member
      exact original.strip_strip
    · intro items same
      rw [Expr.strip_list, List.map_congr_left same, List.map_id']
    · intro operand member
      obtain ⟨original, -, rfl⟩ := List.mem_map.mp member
      exact original.strip_strip
  cases outcome : builtIn.apply (operands.map Expr.strip) with
  | error failure => rfl
  | ok value => exact congrArg Except.ok (bare value outcome)

/-- A procedure that works on the contents of its operands alone makes no properties. -/
theorem apply_strip_of_same {builtIn : Procedure}
    (same : builtIn.apply (operands.map Expr.strip) = builtIn.apply operands) :
    builtIn.apply (operands.map Expr.strip) = (builtIn.apply operands).map Expr.strip := by
  rw [← same, apply_map_strip]

/-- Procedures take no notice of properties: stripping the operands strips the outcome. -/
theorem apply_strip (builtIn : Procedure) (operands : List Expr) :
    builtIn.apply (operands.map Expr.strip) = (builtIn.apply operands).map Expr.strip := by
  cases builtIn with
  | first => exact applyFirst_strip
  | rest => exact applyRest_strip
  | length => exact applyLength_strip
  | append => exact applyAppend_strip
  | join => exact applyJoin_strip
  | squareRoot => exact apply_strip_of_same applySquareRoot_strip
  | power => exact apply_strip_of_same applyPower_strip
  | range => exact apply_strip_of_same applyRange_strip
  | add => exact apply_strip_of_same (by simp only [apply, applyAdd, numbers_strip])
  | multiply => exact apply_strip_of_same (by simp only [apply, applyMultiply, numbers_strip])
  | subtract =>
      exact apply_strip_of_same (by
        simp only [apply, applySubtract, numbers_strip, unaryOrBinary_strip])
  | divide =>
      exact apply_strip_of_same (by
        simp only [apply, applyDivide, numbers_strip, unaryOrBinary_strip])
  | logarithm =>
      exact apply_strip_of_same (by simp only [apply, applyLogarithm, realOperand_strip])
  | sine => exact apply_strip_of_same (by simp only [apply, applyReal, realOperand_strip])
  | cosine => exact apply_strip_of_same (by simp only [apply, applyReal, realOperand_strip])
  | tangent => exact apply_strip_of_same (by simp only [apply, applyReal, realOperand_strip])
  | realPart =>
      exact apply_strip_of_same (by simp only [apply, applyComplexPart, complexOperand_strip])
  | imaginaryPart =>
      exact apply_strip_of_same (by simp only [apply, applyComplexPart, complexOperand_strip])
  | magnitude =>
      exact apply_strip_of_same (by simp only [apply, applyComplexPart, complexOperand_strip])
  | argument =>
      exact apply_strip_of_same (by simp only [apply, applyComplexPart, complexOperand_strip])
  | conjugate =>
      exact apply_strip_of_same (by simp only [apply, applyConjugate, complexOperand_strip])

end Procedure

end FormLang
