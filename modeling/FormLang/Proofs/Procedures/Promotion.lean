import FormLang.Procedure.Apply
import Mathlib.Data.List.Forall2

/-!
Contract: arithmetic on real and complex numbers together.

As soon as one operand is complex, the real operands count as the complex numbers on the real
axis, so it makes no difference which of them are written as such. Without a complex operand
sums, differences, products and quotients are those of real numbers.

Owns: the operands as numbers of one kind, the operations that a procedure stands for on either
kind, and that a complex operand decides between them.
-/

set_option autoImplicit false

namespace FormLang.Procedure

open Numeric

/-! ## The operations -/

/-- What a procedure computes of complex numbers, if it takes so many. -/
def complexArithmetic? : Procedure → List Complex → Option Complex
  | .add, values => some (values.foldl Complex.add ⟨0, 0⟩)
  | .multiply, values => some (values.foldl Complex.mul ⟨1, 0⟩)
  | .subtract, [value] => some value.neg
  | .subtract, [left, right] => some (left.sub right)
  | .divide, [value] => some value.inv
  | .divide, [left, right] => some (left.div right)
  | .power, [base, exponent] => some (base.pow exponent)
  | _, _ => none

/-- What a procedure computes of real numbers, if it takes so many. -/
def realArithmetic? : Procedure → List Float → Option Float
  | .add, values => some (values.foldl (· + ·) 0)
  | .multiply, values => some (values.foldl (· * ·) 1)
  | .subtract, [value] => some (-value)
  | .subtract, [left, right] => some (left - right)
  | .divide, [value] => some (1 / value)
  | .divide, [left, right] => some (left / right)
  | _, _ => none

/-- How many operands a procedure that does not take any number of them expects. -/
def arithmeticCount : Procedure → OperandCount
  | .power => .exactly 2
  | _ => .oneOrTwo

/-- What a procedure makes of the result of its operation, or of a number of operands for which
there is none. -/
def arithmeticOutcome {α : Type} (procedure : Procedure) (result : α → Expr) (given : Nat) :
    Option α → Except Failure Expr
  | some value => .ok (result value)
  | none => .error (.wrongCount (.procedure procedure) (arithmeticCount procedure) given)

/-! ## Operands of one kind -/

section Contents

variable {α : Type} {operands operands' : List Expr} {values : List Complex}

/-- The contents of the operands, in their order, as complex numbers. -/
def Contents (operands : List Expr) (values : List Complex) : Prop :=
  List.Forall₂ (fun operand value => operand.head.complex? = some value) operands values

/-- One of the operands is complex. -/
def HasComplex (operands : List Expr) : Prop :=
  ∃ operand ∈ operands, ∃ value, operand.head = .complex value

/-- An operand in the place of another: itself, or for a real number the complex number on the
real axis. -/
inductive Promotes (operand : Expr) : Expr → Prop where
  | same : Promotes operand operand
  | widened {value : Float} {operand' : Expr} (real : operand.head = .number value)
      (complex : operand'.head = .complex ⟨value, 0⟩) : Promotes operand operand'

theorem mapM_of_contents {content : Expr → Option α} {values : List α}
    (contents : List.Forall₂ (fun operand value => content operand = some value) operands values) :
    operands.mapM content = some values := by
  induction contents with
  | nil => rfl
  | cons first rest inductionHypothesis =>
      rw [List.mapM_cons, first, inductionHypothesis]
      rfl

theorem mapM_of_none {content : Expr → Option α} {operand : Expr} (member : operand ∈ operands)
    (nothing : content operand = none) : operands.mapM content = none := by
  induction operands with
  | nil => exact absurd member List.not_mem_nil
  | cons first rest inductionHypothesis =>
      rw [List.mapM_cons]
      rcases List.mem_cons.mp member with rfl | later
      · rw [nothing]
        rfl
      · rw [inductionHypothesis later]
        cases content first <;> rfl

/-- One complex operand makes all of them complex. -/
theorem numbers_of_complex (procedure : Procedure) (contents : Contents operands values)
    (complex : HasComplex operands) : numbers procedure operands = .ok (.complex values) := by
  obtain ⟨operand, member, value, head⟩ := complex
  have noNumber : operand.head.number? = none := by
    rw [head]
    rfl
  rw [numbers, mapM_of_none member noNumber, mapM_of_contents contents]

/-- Without a complex operand all of them are real. -/
theorem numbers_of_real (procedure : Procedure) (contents : Contents operands values)
    (real : ¬ HasComplex operands) :
    numbers procedure operands = .ok (.real (values.map Complex.re)) := by
  have reals : operands.mapM (fun operand => operand.head.number?) =
      some (values.map Complex.re) := by
    have noComplex : ∀ operand ∈ operands, ¬ ∃ value, operand.head = .complex value :=
      fun operand member found => real ⟨operand, member, found⟩
    refine mapM_of_contents (List.forall₂_map_right_iff.mpr
      (((List.forall₂_and_left _ _).mpr ⟨noComplex, contents⟩).imp ?_))
    rintro operand value ⟨plain, content⟩
    cases head : operand.head with
    | number real =>
        rw [head] at content
        cases content
        rfl
    | complex other => exact absurd ⟨other, head⟩ plain
    | _ =>
        rw [head] at content
        cases content
  rw [numbers, reals]

/-- Promotion keeps what an operand counts as, and a complex operand itself. -/
theorem Promotes.complex? {operand operand' : Expr} (promotes : Promotes operand operand') :
    operand'.head.complex? = operand.head.complex? ∧
      ∀ value, operand.head = .complex value → operand'.head = .complex value := by
  cases promotes with
  | same => exact ⟨rfl, fun _ head => head⟩
  | widened real complex =>
      rw [real, complex]
      exact ⟨rfl, fun _ head => by cases head⟩

/-- Promotion keeps the contents. -/
theorem Contents.promote (contents : Contents operands values)
    (promotes : List.Forall₂ Promotes operands operands') : Contents operands' values := by
  induction promotes generalizing values with
  | nil => exact contents
  | cons first rest inductionHypothesis =>
      cases contents with
      | cons content others =>
          exact .cons (first.complex?.1.trans content) (inductionHypothesis others)

theorem HasComplex.promote (complex : HasComplex operands)
    (promotes : List.Forall₂ Promotes operands operands') : HasComplex operands' := by
  obtain ⟨operand, member, value, head⟩ := complex
  induction promotes with
  | nil => exact absurd member List.not_mem_nil
  | cons first rest inductionHypothesis =>
      rcases List.mem_cons.mp member with rfl | later
      · exact ⟨_, List.mem_cons_self, value, first.complex?.2 value head⟩
      · obtain ⟨operand', member', found⟩ := inductionHypothesis later
        exact ⟨operand', List.mem_cons_of_mem _ member', found⟩

end Contents

/-! ## The procedures -/

section Apply

variable {procedure : Procedure} {operands operands' : List Expr} {values : List Complex}

/-- The procedures that promote their operands. -/
def arithmeticProcedures : List Procedure :=
  [.add, .subtract, .multiply, .divide, .power]

/-- A power has no real result if one of the operands is complex. -/
theorem realPower?_of_complex {base exponent : Expr} (complex : HasComplex [base, exponent]) :
    realPower? base.head exponent.head = none := by
  obtain ⟨operand, member, value, head⟩ := complex
  rcases List.mem_pair.mp member with rfl | rfl
  · rw [realPower?, head]
    rfl
  · rw [realPower?, head]
    cases base.head <;> rfl

/-- With a complex operand the operation is the complex one. -/
theorem apply_of_complex (arithmetic : procedure ∈ arithmeticProcedures)
    (contents : Contents operands values) (complex : HasComplex operands) :
    procedure.apply operands =
      arithmeticOutcome procedure .ofComplex operands.length
        (complexArithmetic? procedure values) := by
  have read (procedure : Procedure) := numbers_of_complex procedure contents complex
  simp only [arithmeticProcedures, List.mem_cons, List.not_mem_nil, or_false] at arithmetic
  rcases arithmetic with rfl | rfl | rfl | rfl | rfl
  · rw [Procedure.apply, applyAdd, read]
    rfl
  · rw [Procedure.apply, applySubtract, read]
    match values with
    | [] | [_] | [_, _] | _ :: _ :: _ :: _ => rfl
  · rw [Procedure.apply, applyMultiply, read]
    rfl
  · rw [Procedure.apply, applyDivide, read]
    match values with
    | [] | [_] | [_, _] | _ :: _ :: _ :: _ => rfl
  · match contents with
    | .nil => rfl
    | .cons _ .nil => rfl
    | .cons base (.cons exponent .nil) =>
        rw [Procedure.apply, applyPower, realPower?_of_complex complex]
        simp only [base, exponent]
        rfl
    | .cons _ (.cons _ (.cons _ _)) => rfl

/-- Without a complex operand the operation is the real one. -/
theorem apply_of_real (arithmetic : procedure ∈ arithmeticProcedures)
    (noPower : procedure ≠ .power) (contents : Contents operands values)
    (real : ¬ HasComplex operands) :
    procedure.apply operands = arithmeticOutcome procedure .ofNumber operands.length
      (realArithmetic? procedure (values.map Complex.re)) := by
  have read (procedure : Procedure) := numbers_of_real procedure contents real
  simp only [arithmeticProcedures, List.mem_cons, List.not_mem_nil, or_false] at arithmetic
  rcases arithmetic with rfl | rfl | rfl | rfl | rfl
  · rw [Procedure.apply, applyAdd, read]
    rfl
  · rw [Procedure.apply, applySubtract, read]
    match values with
    | [] | [_] | [_, _] | _ :: _ :: _ :: _ => rfl
  · rw [Procedure.apply, applyMultiply, read]
    rfl
  · rw [Procedure.apply, applyDivide, read]
    match values with
    | [] | [_] | [_, _] | _ :: _ :: _ :: _ => rfl
  · exact absurd rfl noPower

end Apply

/-- With a complex operand, wherever it stands, the result is that of the complex operation, and
writing any of the real operands as complex numbers makes no difference. Without one the result
is that of the real operation. -/
theorem mixed_arithmetic {procedure : Procedure} (arithmetic : procedure ∈ arithmeticProcedures)
    {operands : List Expr} {values : List Complex} (contents : Contents operands values) :
    (HasComplex operands →
      procedure.apply operands = arithmeticOutcome procedure .ofComplex operands.length
        (complexArithmetic? procedure values) ∧
      ∀ operands', List.Forall₂ Promotes operands operands' →
        procedure.apply operands' = procedure.apply operands) ∧
    (¬ HasComplex operands → procedure ≠ .power →
      procedure.apply operands = arithmeticOutcome procedure .ofNumber operands.length
        (realArithmetic? procedure (values.map Complex.re))) := by
  refine ⟨fun complex => ⟨apply_of_complex arithmetic contents complex, ?_⟩,
    fun real noPower => apply_of_real arithmetic noPower contents real⟩
  intro operands' promotes
  rw [apply_of_complex arithmetic contents complex,
    apply_of_complex arithmetic (contents.promote promotes) (complex.promote promotes),
    promotes.length_eq]

/-- A complex operand between two real ones, of which the first is promoted. -/
theorem mixed_arithmetic_product :
    let operands : List Expr :=
      [.leaf (.number 2), .leaf (.complex ⟨0, 1⟩), .leaf (.number 3)]
    let promoted : List Expr :=
      [.leaf (.complex ⟨2, 0⟩), .leaf (.complex ⟨0, 1⟩), .leaf (.number 3)]
    Procedure.multiply.apply promoted = Procedure.multiply.apply operands ∧
      Procedure.multiply.apply operands = .ok (.leaf (.complex ⟨0, 6⟩)) := by
  intro operands promoted
  have contents : Contents operands [⟨2, 0⟩, ⟨0, 1⟩, ⟨3, 0⟩] :=
    .cons rfl (.cons rfl (.cons rfl .nil))
  have complex : HasComplex operands := ⟨.leaf (.complex ⟨0, 1⟩), by decide +kernel, ⟨0, 1⟩, rfl⟩
  have promotes : List.Forall₂ Promotes operands promoted :=
    .cons (.widened rfl rfl) (.cons .same (.cons .same .nil))
  have arithmetic : Procedure.multiply ∈ arithmeticProcedures := by decide
  obtain ⟨outcome, same⟩ := (mixed_arithmetic arithmetic contents).1 complex
  exact ⟨same promoted promotes, by rw [outcome]; decide +kernel⟩

end FormLang.Procedure
