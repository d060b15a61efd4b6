import FormLang.Procedure.Apply

/-!
Contract: what the procedures make of their operands.

A procedure makes numbers, lists, and lists of what it finds in lists. So whatever holds
of the numbers without residue, of lists of what it holds of, and of the items of the lists
it holds of, is kept by every procedure. And what a procedure refuses, it refuses in its own
name.

Owns: these two theorems, each with one lemma for each shape of procedure.
-/

set_option autoImplicit false

namespace FormLang

/-- A number that a procedure has computed, of either kind: its residue is cleared. -/
inductive Atom.Computed : Atom → Prop where
  | number (value : Float) : Computed (.ofNumber value)
  | complex (value : Complex) : Computed (.ofComplex value)

theorem Atom.Computed.symbol? {atom : Atom} (computed : atom.Computed) :
    atom.symbol? = Option.none := by
  cases computed <;> rfl

/-- A failure that the call of an operator is to blame for: its operands are of a wrong
number, of a wrong kind or outside of the domain. -/
inductive Failure.OfCall (operator : Operator) : Failure → Prop where
  | count (expected : OperandCount) (given : Nat) :
      OfCall operator (.wrongCount operator expected given)
  | kind (requirement : Requirement) : OfCall operator (.wrongKind operator requirement)
  | domain (limit : DomainLimit) : OfCall operator (.outsideDomain operator limit)

namespace Procedure

open Numeric

variable {α β : Type}

/-- A result, if there is one, is accepted. -/
def Yields (accepted : α → Prop) (outcome : Except Failure α) : Prop :=
  ∀ value, outcome = .ok value → accepted value

namespace Yields

variable {accepted : α → Prop} {accepted' : β → Prop}

theorem ok {value : α} (holds : accepted value) : Yields accepted (.ok value) := by
  rintro _ ⟨⟩
  exact holds

theorem error {failure : Failure} : Yields accepted (.error failure) := by
  rintro _ ⟨⟩

theorem bind {outcome : Except Failure α} {next : α → Except Failure β}
    (first : Yields accepted outcome)
    (rest : ∀ value, accepted value → Yields accepted' (next value)) :
    Yields accepted' (outcome >>= next) := by
  cases outcome with
  | error failure => exact error
  | ok value => exact rest value (first value rfl)

theorem map {outcome : Except Failure α} {function : α → β}
    (holds : ∀ value, accepted' (function value)) : Yields accepted' (outcome.map function) := by
  cases outcome with
  | error failure => exact error
  | ok value => exact ok (holds value)

theorem any (outcome : Except Failure α) : Yields (fun _ => True) outcome :=
  fun _ _ => trivial

end Yields

section Keeping

variable {accepted : Expr → Prop} {operands : List Expr}

theorem single_yields (procedure : Procedure) (known : ∀ operand ∈ operands, accepted operand) :
    Yields accepted (single procedure operands) := by
  match operands with
  | [] => exact .error
  | [operand] => exact .ok (known operand List.mem_cons_self)
  | _ :: _ :: _ => exact .error

variable (items : ∀ {value}, accepted value → value.isList = true →
  ∀ item ∈ value.tail, accepted item)

include items in
theorem listItems_yields (procedure : Procedure) {operand : Expr} (known : accepted operand) :
    Yields (fun found => ∀ item ∈ found, accepted item) (listItems procedure operand) := by
  unfold listItems
  cases tagged : operand.isList with
  | true => exact .ok (items known tagged)
  | false => exact .error

variable (computed : ∀ {head : Atom}, head.Computed → accepted (.leaf head))

include computed in
/-- A sum, a product, or what else is made of a list of numbers of either kind. -/
theorem numbers_yields (procedure : Procedure) {result : Numbers → Except Failure Expr}
    (leaves : ∀ found, Yields (fun value => ∃ head : Atom, head.Computed ∧
      value = .leaf head) (result found)) :
    Yields accepted (numbers procedure operands >>= result) := by
  refine .bind (.any _) fun found _ => ?_
  intro value made
  obtain ⟨head, number, rfl⟩ := leaves found value made
  exact computed number

include computed in
theorem applySquareRoot_yields : Yields accepted (applySquareRoot operands) := by
  refine .bind (.any _) fun operand _ => ?_
  cases operand.head with
  | number value =>
      by_cases positive : 0 ≤ value
      · simp only [if_pos positive]
        exact .ok (computed (.number _))
      · simp only [if_neg positive]
        exact .ok (computed (.complex _))
  | complex value => exact .ok (computed (.complex _))
  | none => exact .error
  | symbol name => exact .error
  | string content => exact .error

include computed in
theorem applyPower_yields : Yields accepted (applyPower operands) := by
  match operands with
  | [base, exponent] =>
      simp only [applyPower]
      cases realPower? base.head exponent.head with
      | some value => exact .ok (computed (.number _))
      | none =>
          cases base.head.complex? with
          | none => exact .error
          | some base =>
              cases exponent.head.complex? with
              | none => exact .error
              | some exponent => exact .ok (computed (.complex _))
  | [] => exact .error
  | [_] => exact .error
  | _ :: _ :: _ :: _ => exact .error

include computed in
theorem applyLogarithm_yields : Yields accepted (applyLogarithm operands) := by
  refine .bind (.any _) fun value _ => ?_
  by_cases negative : value < 0
  · simp only [if_pos negative]
    exact .error
  · simp only [if_neg negative]
    exact .ok (computed (.number _))

variable (list : ∀ {items : List Expr}, (∀ item ∈ items, accepted item) → accepted (.list items))

include computed list in
theorem applyRange_yields : Yields accepted (applyRange operands) := by
  match operands with
  | [start, finish, increment] =>
      simp only [applyRange]
      cases start.head.number? with
      | none => exact .error
      | some start =>
          cases finish.head.number? with
          | none => exact .error
          | some finish =>
              cases increment.head.number? with
              | none => exact .error
              | some increment =>
                  cases violated : rangeViolation? start finish increment with
                  | some limit =>
                      simp only [violated]
                      exact .error
                  | none =>
                      simp only [violated]
                      refine .ok (list fun item member => ?_)
                      obtain ⟨value, -, rfl⟩ := List.mem_map.mp member
                      exact computed (.number _)
  | [] => exact .error
  | [_] => exact .error
  | [_, _] => exact .error
  | _ :: _ :: _ :: _ :: _ => exact .error

variable (known : ∀ operand ∈ operands, accepted operand)

include items known in
theorem applyFirst_yields : Yields accepted (applyFirst operands) := by
  refine .bind (single_yields .first known) fun operand holds => ?_
  refine .bind (listItems_yields items .first holds) fun found all => ?_
  cases found with
  | nil => exact .error
  | cons item rest => exact .ok (all item List.mem_cons_self)

include items list known in
theorem applyRest_yields : Yields accepted (applyRest operands) := by
  refine .bind (single_yields .rest known) fun operand holds => ?_
  refine .bind (listItems_yields items .rest holds) fun found all => ?_
  cases found with
  | nil => exact .error
  | cons item rest =>
      exact .ok (list fun other member => all other (List.mem_cons_of_mem item member))

include items list known in
theorem applyAppend_yields : Yields accepted (applyAppend operands) := by
  match operands, known with
  | [operand, item], known =>
      refine .bind (listItems_yields items .append (known operand List.mem_cons_self))
        fun found all => .ok (list fun other member => ?_)
      rcases List.mem_append.mp member with old | new
      · exact all other old
      · rw [List.mem_singleton.mp new]
        exact known item (List.mem_cons_of_mem operand List.mem_cons_self)
  | [], _ => exact .error
  | [_], _ => exact .error
  | _ :: _ :: _ :: _, _ => exact .error

include items list known in
theorem applyJoin_yields : Yields accepted (applyJoin operands) := by
  match operands, known with
  | [left, right], known =>
      refine .bind (listItems_yields items .join (known left List.mem_cons_self))
        fun first firsts => ?_
      refine .bind (listItems_yields items .join
        (known right (List.mem_cons_of_mem left List.mem_cons_self))) fun second seconds => ?_
      refine .ok (list fun item member => ?_)
      rcases List.mem_append.mp member with early | late
      · exact firsts item early
      · exact seconds item late
  | [], _ => exact .error
  | [_], _ => exact .error
  | _ :: _ :: _ :: _, _ => exact .error

include items computed list known in
/-- Every procedure keeps what holds of computed numbers, of lists, and of the items of lists. -/
theorem apply_yields (builtIn : Procedure) : Yields accepted (builtIn.apply operands) := by
  cases builtIn with
  | add =>
      refine numbers_yields computed .add fun found => ?_
      cases found with
      | real values => exact .ok ⟨_, .number _, rfl⟩
      | complex values => exact .ok ⟨_, .complex _, rfl⟩
  | multiply =>
      refine numbers_yields computed .multiply fun found => ?_
      cases found with
      | real values => exact .ok ⟨_, .number _, rfl⟩
      | complex values => exact .ok ⟨_, .complex _, rfl⟩
  | subtract =>
      refine numbers_yields computed .subtract fun found => ?_
      cases found with
      | real values => exact .bind (.any _) fun _ _ => .ok ⟨_, .number _, rfl⟩
      | complex values => exact .bind (.any _) fun _ _ => .ok ⟨_, .complex _, rfl⟩
  | divide =>
      refine numbers_yields computed .divide fun found => ?_
      cases found with
      | real values => exact .bind (.any _) fun _ _ => .ok ⟨_, .number _, rfl⟩
      | complex values => exact .bind (.any _) fun _ _ => .ok ⟨_, .complex _, rfl⟩
  | squareRoot => exact applySquareRoot_yields computed
  | power => exact applyPower_yields computed
  | logarithm => exact applyLogarithm_yields computed
  | sine => exact .map fun _ => computed (.number _)
  | cosine => exact .map fun _ => computed (.number _)
  | tangent => exact .map fun _ => computed (.number _)
  | realPart => exact .map fun _ => computed (.number _)
  | imaginaryPart => exact .map fun _ => computed (.number _)
  | magnitude => exact .map fun _ => computed (.number _)
  | argument => exact .map fun _ => computed (.number _)
  | conjugate => exact .map fun _ => computed (.complex _)
  | first => exact applyFirst_yields items known
  | rest => exact applyRest_yields items list known
  | length =>
      refine .bind (.any _) fun operand _ => ?_
      exact .bind (.any _) fun found _ => .ok (computed (.number _))
  | append => exact applyAppend_yields items list known
  | join => exact applyJoin_yields items list known
  | range => exact applyRange_yields computed list

end Keeping

/-! ## Refusals -/

/-- A failure, if there is one, is that of a call of the procedure. -/
def Refuses (procedure : Procedure) (outcome : Except Failure α) : Prop :=
  ∀ failure, outcome = .error failure → failure.OfCall (.procedure procedure)

namespace Refuses

variable {procedure : Procedure}

theorem ok {value : α} : procedure.Refuses (.ok value : Except Failure α) := by
  rintro _ ⟨⟩

theorem count (expected : OperandCount) (operands : List Expr) :
    procedure.Refuses (refuseCount procedure expected operands : Except Failure α) := by
  rintro _ ⟨⟩
  exact .count expected operands.length

theorem kind (requirement : Requirement) :
    procedure.Refuses (refuseKind procedure requirement : Except Failure α) := by
  rintro _ ⟨⟩
  exact .kind requirement

theorem domain (limit : DomainLimit) :
    procedure.Refuses (refuseDomain procedure limit : Except Failure α) := by
  rintro _ ⟨⟩
  exact .domain limit

theorem bind {outcome : Except Failure α} {next : α → Except Failure β}
    (first : procedure.Refuses outcome) (rest : ∀ value, procedure.Refuses (next value)) :
    procedure.Refuses (outcome >>= next) := by
  cases outcome with
  | error failure =>
      rintro _ ⟨⟩
      exact first failure rfl
  | ok value => exact rest value

theorem map {outcome : Except Failure α} (function : α → β) (first : procedure.Refuses outcome) :
    procedure.Refuses (outcome.map function) := by
  cases outcome with
  | error failure =>
      rintro _ ⟨⟩
      exact first failure rfl
  | ok value => exact ok

end Refuses

section Refusing

variable (procedure : Procedure) (operands : List Expr)

theorem single_refuses : procedure.Refuses (single procedure operands) := by
  match operands with
  | [] => exact .count _ _
  | [_] => exact .ok
  | _ :: _ :: _ => exact .count _ _

theorem realOperand_refuses : procedure.Refuses (realOperand procedure operands) := by
  refine .bind (single_refuses procedure operands) fun operand => ?_
  cases operand.head.number? with
  | none => exact .kind _
  | some value => exact .ok

theorem complexOperand_refuses : procedure.Refuses (complexOperand procedure operands) := by
  refine .bind (single_refuses procedure operands) fun operand => ?_
  cases operand.head with
  | complex value => exact .ok
  | none => exact .kind _
  | number value => exact .kind _
  | symbol name => exact .kind _
  | string content => exact .kind _

theorem listItems_refuses (operand : Expr) : procedure.Refuses (listItems procedure operand) := by
  unfold listItems
  cases operand.isList with
  | true => exact .ok
  | false => exact .kind _

theorem numbers_refuses : procedure.Refuses (numbers procedure operands) := by
  unfold numbers
  cases operands.mapM fun operand => operand.head.number? with
  | some values => exact .ok
  | none =>
      cases operands.mapM fun operand => operand.head.complex? with
      | some values => exact .ok
      | none => exact .kind _

theorem unaryOrBinary_refuses (unary : α → α) (binary : α → α → α) (values : List α) :
    procedure.Refuses (unaryOrBinary procedure operands unary binary values) := by
  match values with
  | [] => exact .count _ _
  | [_] => exact .ok
  | [_, _] => exact .ok
  | _ :: _ :: _ :: _ => exact .count _ _

variable {operands}

theorem applySquareRoot_refuses : Procedure.squareRoot.Refuses (applySquareRoot operands) := by
  refine .bind (single_refuses _ operands) fun operand => ?_
  cases operand.head with
  | number value =>
      by_cases positive : 0 ≤ value
      · simp only [if_pos positive]
        exact .ok
      · simp only [if_neg positive]
        exact .ok
  | complex value => exact .ok
  | none => exact .kind _
  | symbol name => exact .kind _
  | string content => exact .kind _

theorem applyPower_refuses : Procedure.power.Refuses (applyPower operands) := by
  match operands with
  | [base, exponent] =>
      simp only [applyPower]
      cases realPower? base.head exponent.head with
      | some value => exact .ok
      | none =>
          cases base.head.complex? with
          | none => exact .kind _
          | some base =>
              cases exponent.head.complex? with
              | none => exact .kind _
              | some exponent => exact .ok
  | [] => exact .count _ _
  | [_] => exact .count _ _
  | _ :: _ :: _ :: _ => exact .count _ _

theorem applyLogarithm_refuses : Procedure.logarithm.Refuses (applyLogarithm operands) := by
  refine .bind (realOperand_refuses _ operands) fun value => ?_
  by_cases negative : value < 0
  · simp only [if_pos negative]
    exact .domain _
  · simp only [if_neg negative]
    exact .ok

theorem applyRange_refuses : Procedure.range.Refuses (applyRange operands) := by
  match operands with
  | [start, finish, increment] =>
      simp only [applyRange]
      cases start.head.number? with
      | none => exact .kind _
      | some start =>
          cases finish.head.number? with
          | none => exact .kind _
          | some finish =>
              cases increment.head.number? with
              | none => exact .kind _
              | some increment =>
                  cases violated : rangeViolation? start finish increment with
                  | some limit =>
                      simp only [violated]
                      exact .domain _
                  | none =>
                      simp only [violated]
                      exact .ok
  | [] => exact .count _ _
  | [_] => exact .count _ _
  | [_, _] => exact .count _ _
  | _ :: _ :: _ :: _ :: _ => exact .count _ _

theorem applyAppend_refuses : Procedure.append.Refuses (applyAppend operands) := by
  match operands with
  | [operand, item] => exact .bind (listItems_refuses _ operand) fun _ => .ok
  | [] => exact .count _ _
  | [_] => exact .count _ _
  | _ :: _ :: _ :: _ => exact .count _ _

theorem applyJoin_refuses : Procedure.join.Refuses (applyJoin operands) := by
  match operands with
  | [left, right] =>
      exact .bind (listItems_refuses _ left) fun _ =>
        .bind (listItems_refuses _ right) fun _ => .ok
  | [] => exact .count _ _
  | [_] => exact .count _ _
  | _ :: _ :: _ :: _ => exact .count _ _

/-- Whatever a procedure refuses, it refuses in its own name. -/
theorem apply_refuses (builtIn : Procedure) : builtIn.Refuses (builtIn.apply operands) := by
  cases builtIn with
  | add =>
      refine .bind (numbers_refuses _ operands) fun found => ?_
      cases found <;> exact .ok
  | multiply =>
      refine .bind (numbers_refuses _ operands) fun found => ?_
      cases found <;> exact .ok
  | subtract =>
      refine .bind (numbers_refuses _ operands) fun found => ?_
      cases found <;> exact .bind (unaryOrBinary_refuses _ operands _ _ _) fun _ => .ok
  | divide =>
      refine .bind (numbers_refuses _ operands) fun found => ?_
      cases found <;> exact .bind (unaryOrBinary_refuses _ operands _ _ _) fun _ => .ok
  | squareRoot => exact applySquareRoot_refuses
  | power => exact applyPower_refuses
  | logarithm => exact applyLogarithm_refuses
  | sine => exact .map _ (realOperand_refuses _ operands)
  | cosine => exact .map _ (realOperand_refuses _ operands)
  | tangent => exact .map _ (realOperand_refuses _ operands)
  | realPart => exact .map _ (complexOperand_refuses _ operands)
  | imaginaryPart => exact .map _ (complexOperand_refuses _ operands)
  | magnitude => exact .map _ (complexOperand_refuses _ operands)
  | argument => exact .map _ (complexOperand_refuses _ operands)
  | conjugate => exact .map _ (complexOperand_refuses _ operands)
  | first =>
      refine .bind (single_refuses _ operands) fun operand => ?_
      refine .bind (listItems_refuses _ operand) fun found => ?_
      cases found with
      | nil => exact .domain _
      | cons item items => exact .ok
  | rest =>
      refine .bind (single_refuses _ operands) fun operand => ?_
      refine .bind (listItems_refuses _ operand) fun found => ?_
      cases found with
      | nil => exact .domain _
      | cons item items => exact .ok
  | length =>
      refine .bind (single_refuses _ operands) fun operand => ?_
      exact .bind (listItems_refuses _ operand) fun _ => .ok
  | append => exact applyAppend_refuses
  | join => exact applyJoin_refuses
  | range => exact applyRange_refuses

end Refusing

end Procedure

end FormLang
