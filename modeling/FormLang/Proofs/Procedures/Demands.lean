import FormLang.Proofs.Procedures.Lists
import FormLang.Proofs.Procedures.Promotion
import FormLang.Proofs.Procedures.Ranges

/-!
Contract: what the procedures demand, and in which order.

A procedure demands a number of operands and a kind of them, and some procedures have a domain
besides. The demands are checked in this order, except that differences and quotients look at
the kinds before they count. So the first demand that is violated decides how a call fails.

Owns: the demands of every procedure, and the verdict on a call by the first of them that it
violates.
Does not own: what a procedure makes of operands that it takes.
-/

set_option autoImplicit false

namespace FormLang

/-! ## Demands -/

/-- The numbers of operands that are accepted. -/
def OperandCount.Admits : OperandCount → Nat → Prop
  | .exactly count, given => given = count
  | .oneOrTwo, given => given = 1 ∨ given = 2

/-- A head of the kind that is required. -/
inductive Requirement.Met : Requirement → Atom → Prop where
  | real (value : Float) : Met .number (.number value)
  | complex (value : Complex) : Met .number (.complex value)
  | realNumber (value : Float) : Met .realNumber (.number value)
  | complexNumber (value : Complex) : Met .complexNumber (.complex value)
  | list : Met .list (.symbol Expr.listTag)
  | stringKey (content : String) : Met .stringKey (.string content)

namespace Requirement

variable {head : Atom} {operand : Expr}

theorem met_number_iff : Met .number head ↔ ∃ value, head.complex? = some value := by
  constructor
  · intro met
    cases met with
    | real value => exact ⟨.ofReal value, rfl⟩
    | complex value => exact ⟨value, rfl⟩
  · rintro ⟨value, content⟩
    cases head with
    | number value => exact .real value
    | complex value => exact .complex value
    | none => cases content
    | symbol name => cases content
    | string content' => cases content

theorem contents_of_not_met (unmet : ¬ Met .number head) :
    head.complex? = none ∧ head.number? = none := by
  cases head with
  | number value => exact absurd (.real value) unmet
  | complex value => exact absurd (.complex value) unmet
  | _ => exact ⟨rfl, rfl⟩

theorem met_realNumber_iff : Met .realNumber head ↔ ∃ value, head = .number value := by
  constructor
  · intro met
    cases met with
    | realNumber value => exact ⟨value, rfl⟩
  · rintro ⟨value, rfl⟩
    exact .realNumber value

theorem met_complexNumber_iff : Met .complexNumber head ↔ ∃ value, head = .complex value := by
  constructor
  · intro met
    cases met with
    | complexNumber value => exact ⟨value, rfl⟩
  · rintro ⟨value, rfl⟩
    exact .complexNumber value

theorem met_list_iff : Met .list operand.head ↔ operand.isList = true := by
  have symbol : Met .list operand.head ↔ operand.head = .symbol Expr.listTag := by
    constructor
    · intro met
      generalize operand.head = head at met
      cases met with
      | list => rfl
    · intro same
      rw [same]
      exact .list
  rw [symbol, Expr.isList, beq_iff_eq]
  cases operand.head <;> simp [Atom.symbol?]

end Requirement

namespace Procedure

/-- How many operands a procedure demands. Sums and products take any number of them. -/
def demandedCount? : Procedure → Option OperandCount
  | .add | .multiply => none
  | .subtract | .divide => some .oneOrTwo
  | .power | .append | .join => some (.exactly 2)
  | .range => some (.exactly 3)
  | _ => some (.exactly 1)

/-- A procedure takes this many operands. -/
def Takes (procedure : Procedure) (given : Nat) : Prop :=
  ∀ expected, procedure.demandedCount? = some expected → expected.Admits given

/-- The kind of operands that a procedure demands. -/
def requirement : Procedure → Requirement
  | .add | .subtract | .multiply | .divide | .squareRoot | .power => .number
  | .logarithm | .sine | .cosine | .tangent | .range => .realNumber
  | .realPart | .imaginaryPart | .magnitude | .argument | .conjugate => .complexNumber
  | .first | .rest | .length | .append | .join => .list

/-- The operands that have to be of this kind: all of them, except for the item that is
appended to a list. -/
def demanded : Procedure → List Expr → List Expr
  | .append, operands => operands.take 1
  | _, operands => operands

/-- One of the operands is not of the kind that the procedure demands. -/
def Misfit (procedure : Procedure) (operands : List Expr) : Prop :=
  ∃ operand ∈ procedure.demanded operands, ¬ procedure.requirement.Met operand.head

/-- The procedures that look at the kinds of their operands before they count them. -/
def KindsFirst (procedure : Procedure) : Prop :=
  procedure = .subtract ∨ procedure = .divide

/-- The operands are of the right number and kinds, but outside of the domain. -/
inductive OutsideDomain : Procedure → List Expr → Prop where
  | logarithm {operand : Expr} {value : Float} (head : operand.head = .number value)
      (negative : value < 0) : OutsideDomain .logarithm [operand]
  | first {operand : Expr} (list : operand.isList = true) (empty : operand.tail = []) :
      OutsideDomain .first [operand]
  | rest {operand : Expr} (list : operand.isList = true) (empty : operand.tail = []) :
      OutsideDomain .rest [operand]
  | range {start finish increment : Expr} {first last step : Float}
      (startHead : start.head = .number first) (finishHead : finish.head = .number last)
      (incrementHead : increment.head = .number step)
      (refused : ¬ TakenByRange first last step) :
      OutsideDomain .range [start, finish, increment]

/-- What a call comes to by the first demand that it violates, or without a violation. -/
inductive Verdict (procedure : Procedure) (operands : List Expr) :
    Except Failure Expr → Prop where
  | count {expected : OperandCount} (demands : procedure.demandedCount? = some expected)
      (refused : ¬ expected.Admits operands.length)
      (fits : procedure.KindsFirst → ¬ procedure.Misfit operands) :
      Verdict procedure operands (refuseCount procedure expected operands)
  | kind (misfit : procedure.Misfit operands)
      (first : procedure.Takes operands.length ∨ procedure.KindsFirst) :
      Verdict procedure operands (refuseKind procedure procedure.requirement)
  | domain (outside : procedure.OutsideDomain operands) (limit : DomainLimit) :
      Verdict procedure operands (refuseDomain procedure limit)
  | value (takes : procedure.Takes operands.length) (fits : ¬ procedure.Misfit operands)
      (inside : ¬ procedure.OutsideDomain operands) (value : Expr) :
      Verdict procedure operands (.ok value)

/-! ## Checks in a row -/

section Checks

variable {α β : Type} (procedure : Procedure) (next : α → Except Failure β)

theorem ok_bind (value : α) : (Except.ok value >>= next) = next value := rfl

theorem refuseKind_bind (requirement : Requirement) :
    (refuseKind procedure requirement >>= next) = refuseKind procedure requirement := rfl

end Checks

/-! ## The procedures that count first -/

section Counting

variable {procedure : Procedure} {count : Nat} {operand : Expr} {operands : List Expr}

theorem takes_iff (demands : procedure.demandedCount? = some (.exactly count)) (given : Nat) :
    procedure.Takes given ↔ given = count := by
  constructor
  · exact fun takes => takes _ demands
  · rintro rfl expected demands'
    rw [demands] at demands'
    cases demands'
    rfl

theorem not_kindsFirst (demands : procedure.demandedCount? = some (.exactly count)) :
    ¬ procedure.KindsFirst := by
  rintro (rfl | rfl) <;> cases demands

/-- The procedure makes something of the operands, or they are outside of its domain. -/
def Settles (procedure : Procedure) (operands : List Expr) : Prop :=
  (∃ value, procedure.apply operands = .ok value ∧ ¬ procedure.OutsideDomain operands) ∨
    ∃ limit, procedure.apply operands = refuseDomain procedure limit ∧
      procedure.OutsideDomain operands

/-- The procedure checks its demands in the usual order. -/
structure Orderly (procedure : Procedure) (count : Nat) : Prop where
  demands : procedure.demandedCount? = some (.exactly count)
  counts : ∀ operands : List Expr, operands.length ≠ count →
    procedure.apply operands = refuseCount procedure (.exactly count) operands
  refuses : ∀ operands : List Expr, operands.length = count → procedure.Misfit operands →
    procedure.apply operands = refuseKind procedure procedure.requirement
  settles : ∀ operands : List Expr, operands.length = count → ¬ procedure.Misfit operands →
    procedure.Settles operands

theorem Orderly.verdict (orderly : Orderly procedure count) (operands : List Expr) :
    procedure.Verdict operands (procedure.apply operands) := by
  have ordinary := not_kindsFirst orderly.demands
  by_cases counted : operands.length = count
  · have takes : procedure.Takes operands.length := (takes_iff orderly.demands _).mpr counted
    by_cases misfit : procedure.Misfit operands
    · rw [orderly.refuses operands counted misfit]
      exact .kind misfit (.inl takes)
    · rcases orderly.settles operands counted misfit with
        ⟨value, made, inside⟩ | ⟨limit, refused, outside⟩
      · rw [made]
        exact .value takes misfit inside value
      · rw [refused]
        exact .domain outside limit
  · rw [orderly.counts operands counted]
    exact .count orderly.demands counted fun first => absurd first ordinary

/-- Operands that fit are of the kind that is demanded. -/
theorem met_of_fits (fits : ¬ procedure.Misfit operands)
    (member : operand ∈ procedure.demanded operands) :
    procedure.requirement.Met operand.head :=
  not_not.mp fun unmet => fits ⟨operand, member, unmet⟩

/-- Of a single operand every procedure demands its kind. -/
theorem misfit_single_iff :
    procedure.Misfit [operand] ↔ ¬ procedure.requirement.Met operand.head := by
  have only : procedure.demanded [operand] = [operand] := by
    cases procedure <;> rfl
  simp only [Misfit, only, List.mem_singleton, exists_eq_left]

/-- A procedure of one operand is orderly if it is for this one. -/
theorem orderly_of_single (demands : procedure.demandedCount? = some (.exactly 1))
    (noOperand : procedure.apply [] = refuseCount procedure (.exactly 1) [])
    (several : ∀ one another others, procedure.apply (one :: another :: others) =
      refuseCount procedure (.exactly 1) (one :: another :: others))
    (refuses : ∀ operand : Expr, ¬ procedure.requirement.Met operand.head →
      procedure.apply [operand] = refuseKind procedure procedure.requirement)
    (settles : ∀ operand : Expr, procedure.requirement.Met operand.head →
      procedure.Settles [operand]) : Orderly procedure 1 where
  demands := demands
  counts operands different := by
    match operands with
    | [] => exact noOperand
    | [_] => exact absurd rfl different
    | one :: another :: others => exact several one another others
  refuses operands counted misfit := by
    obtain ⟨operand, rfl⟩ := List.length_eq_one_iff.mp counted
    exact refuses operand (misfit_single_iff.mp misfit)
  settles operands counted fits := by
    obtain ⟨operand, rfl⟩ := List.length_eq_one_iff.mp counted
    exact settles operand (not_not.mp (mt misfit_single_iff.mpr fits))

/-- A procedure of two operands is orderly if it is for these two. -/
theorem orderly_of_pair (demands : procedure.demandedCount? = some (.exactly 2))
    (noOperand : procedure.apply [] = refuseCount procedure (.exactly 2) [])
    (one : ∀ operand : Expr,
      procedure.apply [operand] = refuseCount procedure (.exactly 2) [operand])
    (several : ∀ one another third others, procedure.apply (one :: another :: third :: others) =
      refuseCount procedure (.exactly 2) (one :: another :: third :: others))
    (refuses : ∀ left right : Expr, procedure.Misfit [left, right] →
      procedure.apply [left, right] = refuseKind procedure procedure.requirement)
    (settles : ∀ left right : Expr, ¬ procedure.Misfit [left, right] →
      procedure.Settles [left, right]) : Orderly procedure 2 where
  demands := demands
  counts operands different := by
    match operands with
    | [] => exact noOperand
    | [operand] => exact one operand
    | [_, _] => exact absurd rfl different
    | left :: right :: third :: others => exact several left right third others
  refuses operands counted misfit := by
    obtain ⟨left, right, rfl⟩ := List.length_eq_two.mp counted
    exact refuses left right misfit
  settles operands counted fits := by
    obtain ⟨left, right, rfl⟩ := List.length_eq_two.mp counted
    exact settles left right fits

end Counting

/-! ## One operand -/

section Single

variable {procedure : Procedure} {operand : Expr} {operands : List Expr}

/-- Only four procedures have a domain. -/
theorem not_outsideDomain (total : procedure ∉ [.logarithm, .first, .rest, .range]) :
    ¬ procedure.OutsideDomain operands := by
  intro outside
  cases outside <;> exact total (by decide)

theorem settles_of_ok {value : Expr} (total : procedure ∉ [.logarithm, .first, .rest, .range])
    (made : procedure.apply operands = .ok value) : procedure.Settles operands :=
  .inl ⟨value, made, not_outsideDomain total⟩

theorem realOperand_of_number {value : Float} (head : operand.head = .number value) :
    realOperand procedure [operand] = .ok value := by
  rw [realOperand, single, ok_bind, head]
  rfl

theorem realOperand_of_not_met (unmet : ¬ Requirement.realNumber.Met operand.head) :
    realOperand procedure [operand] = refuseKind procedure .realNumber := by
  rw [realOperand, single, ok_bind]
  cases head : operand.head with
  | number value => exact absurd (Requirement.met_realNumber_iff.mpr ⟨value, head⟩) unmet
  | _ => rfl

theorem complexOperand_of_complex {value : Complex} (head : operand.head = .complex value) :
    complexOperand procedure [operand] = .ok value := by
  rw [complexOperand, single, ok_bind, head]

theorem complexOperand_of_not_met (unmet : ¬ Requirement.complexNumber.Met operand.head) :
    complexOperand procedure [operand] = refuseKind procedure .complexNumber := by
  rw [complexOperand, single, ok_bind]
  cases head : operand.head with
  | complex value => exact absurd (Requirement.met_complexNumber_iff.mpr ⟨value, head⟩) unmet
  | _ => rfl

theorem orderly_applyReal {function : Float → Float}
    (apply : procedure.apply = applyReal procedure function)
    (demands : procedure.demandedCount? = some (.exactly 1))
    (requires : procedure.requirement = .realNumber)
    (total : procedure ∉ [.logarithm, .first, .rest, .range]) : Orderly procedure 1 := by
  refine orderly_of_single demands ?_ ?_ ?_ ?_
  · rw [apply]
    rfl
  · intro one another others
    rw [apply]
    rfl
  · intro operand unmet
    rw [requires] at unmet ⊢
    rw [apply, applyReal, realOperand_of_not_met unmet]
    rfl
  · intro operand met
    rw [requires, Requirement.met_realNumber_iff] at met
    obtain ⟨value, head⟩ := met
    have made : procedure.apply [operand] = .ok (.ofNumber (function value)) := by
      rw [apply, applyReal, realOperand_of_number head]
      rfl
    exact settles_of_ok total made

theorem orderly_complex {result : Complex → Expr}
    (apply : ∀ operands, procedure.apply operands =
      (complexOperand procedure operands).map result)
    (demands : procedure.demandedCount? = some (.exactly 1))
    (requires : procedure.requirement = .complexNumber)
    (total : procedure ∉ [.logarithm, .first, .rest, .range]) : Orderly procedure 1 := by
  refine orderly_of_single demands ?_ ?_ ?_ ?_
  · rw [apply]
    rfl
  · intro one another others
    rw [apply]
    rfl
  · intro operand unmet
    rw [requires] at unmet ⊢
    rw [apply, complexOperand_of_not_met unmet]
    rfl
  · intro operand met
    rw [requires, Requirement.met_complexNumber_iff] at met
    obtain ⟨value, head⟩ := met
    have made : procedure.apply [operand] = .ok (result value) := by
      rw [apply, complexOperand_of_complex head]
      rfl
    exact settles_of_ok total made

theorem orderly_squareRoot : Orderly .squareRoot 1 := by
  refine orderly_of_single rfl rfl (fun _ _ _ => rfl) ?_ ?_
  · intro operand unmet
    rw [Procedure.apply, applySquareRoot, single, ok_bind]
    cases head : operand.head with
    | number value => exact absurd (head ▸ .real value) unmet
    | complex value => exact absurd (head ▸ .complex value) unmet
    | _ => rfl
  · intro operand met
    have made : ∃ value, Procedure.squareRoot.apply [operand] = .ok value := by
      rw [Procedure.apply, applySquareRoot, single, ok_bind]
      generalize operand.head = head at met
      cases met with
      | real value =>
          by_cases positive : 0 ≤ value
          · exact ⟨_, if_pos positive⟩
          · exact ⟨_, if_neg positive⟩
      | complex value => exact ⟨_, rfl⟩
    obtain ⟨value, made⟩ := made
    exact settles_of_ok (by decide) made

theorem orderly_logarithm : Orderly .logarithm 1 := by
  refine orderly_of_single rfl rfl (fun _ _ _ => rfl) ?_ ?_
  · intro operand unmet
    rw [Procedure.apply, applyLogarithm, realOperand_of_not_met unmet]
    rfl
  · intro operand met
    obtain ⟨value, head⟩ := Requirement.met_realNumber_iff.mp met
    have applied : Procedure.logarithm.apply [operand] =
        if value < 0 then refuseDomain .logarithm .negativeLogarithm
        else .ok (.ofNumber value.log) := by
      rw [Procedure.apply, applyLogarithm, realOperand_of_number head, ok_bind]
    by_cases negative : value < 0
    · exact .inr ⟨_, applied.trans (if_pos negative), .logarithm head negative⟩
    · refine .inl ⟨_, applied.trans (if_neg negative), ?_⟩
      rintro (@⟨_, value', head', negative'⟩)
      rw [head] at head'
      cases head'
      exact negative negative'

end Single

/-! ## Lists -/

section Lists

variable {procedure : Procedure} {operand : Expr} {operands : List Expr}

theorem listItems_of_not_met (unmet : ¬ Requirement.list.Met operand.head) :
    listItems procedure operand = refuseKind procedure .list :=
  listItems_of_not_isList (Bool.eq_false_iff.mpr (mt Requirement.met_list_iff.mpr unmet))

/-- What is made of the first item and the others settles all lists. -/
theorem orderly_split (result : Expr → List Expr → Expr)
    (apply : ∀ operands, procedure.apply operands = do
      match ← listItems procedure (← single procedure operands) with
      | [] => refuseDomain procedure .emptyList
      | item :: others => .ok (result item others))
    (demands : procedure.demandedCount? = some (.exactly 1))
    (requires : procedure.requirement = .list)
    (empties : ∀ operand : Expr, procedure.OutsideDomain [operand] ↔
      operand.isList = true ∧ operand.tail = []) : Orderly procedure 1 := by
  refine orderly_of_single demands ?_ ?_ ?_ ?_
  · rw [apply]
    rfl
  · intro one another others
    rw [apply]
    rfl
  · intro operand unmet
    rw [requires] at unmet ⊢
    rw [apply, single, ok_bind, listItems_of_not_met unmet, refuseKind_bind]
  · intro operand met
    rw [requires, Requirement.met_list_iff] at met
    rw [Settles, apply, single, ok_bind, listItems_of_isList met, ok_bind, empties]
    cases items : operand.tail with
    | nil => exact .inr ⟨.emptyList, rfl, met, rfl⟩
    | cons item others => exact .inl ⟨result item others, rfl, fun outside => by cases outside.2⟩

theorem orderly_first : Orderly .first 1 := by
  refine orderly_split (fun item _ => item) (fun _ => rfl) rfl rfl fun operand => ?_
  constructor
  · rintro (_ | ⟨list, empty⟩)
    exact ⟨list, empty⟩
  · rintro ⟨list, empty⟩
    exact .first list empty

theorem orderly_rest : Orderly .rest 1 := by
  refine orderly_split (fun _ others => .list others) (fun _ => rfl) rfl rfl fun operand => ?_
  constructor
  · rintro (_ | _ | ⟨list, empty⟩)
    exact ⟨list, empty⟩
  · rintro ⟨list, empty⟩
    exact .rest list empty

theorem orderly_length : Orderly .length 1 := by
  refine orderly_of_single rfl rfl (fun _ _ _ => rfl) ?_ ?_
  · intro operand unmet
    rw [Procedure.apply, applyLength, single, ok_bind, listItems_of_not_met unmet]
    rfl
  · intro operand met
    exact settles_of_ok (by decide) (apply_length (Requirement.met_list_iff.mp met))

theorem orderly_append : Orderly .append 2 := by
  refine orderly_of_pair rfl rfl (fun _ => rfl) (fun _ _ _ _ => rfl) ?_ ?_
  · intro operand item misfit
    obtain ⟨demanded, member, unmet⟩ := misfit
    obtain rfl : demanded = operand := List.mem_singleton.mp member
    rw [Procedure.apply, applyAppend, listItems_of_not_met unmet]
    rfl
  · intro operand item fits
    have list : operand.isList = true :=
      Requirement.met_list_iff.mp (met_of_fits fits (List.mem_singleton_self operand))
    exact settles_of_ok (by decide) (apply_append list item)

theorem orderly_join : Orderly .join 2 := by
  refine orderly_of_pair rfl rfl (fun _ => rfl) (fun _ _ _ _ => rfl) ?_ ?_
  · intro left right misfit
    obtain ⟨operand, member, unmet⟩ := misfit
    rw [Procedure.apply, applyJoin]
    rcases List.mem_pair.mp member with rfl | rfl
    · rw [listItems_of_not_met unmet]
      rfl
    · -- The list in front may be no list either, and is refused in the same words then.
      rw [listItems_of_not_met unmet, listItems]
      cases left.isList <;> rfl
  · intro left right fits
    have list (operand : Expr) (member : operand ∈ [left, right]) : operand.isList = true :=
      Requirement.met_list_iff.mp (met_of_fits fits member)
    exact settles_of_ok (by decide) (apply_join (list left (by simp)) (list right (by simp)))

end Lists

/-! ## Powers and ranges -/

section Several

theorem realPower?_of_not_met {base exponent : Expr}
    (unmet : ∃ operand ∈ [base, exponent], ¬ Requirement.number.Met operand.head) :
    realPower? base.head exponent.head = none := by
  obtain ⟨operand, member, unmet⟩ := unmet
  rcases List.mem_pair.mp member with rfl | rfl
  · cases head : operand.head with
    | number value => exact absurd (head ▸ .real value) unmet
    | _ => rfl
  · cases head : operand.head with
    | number value => exact absurd (head ▸ .real value) unmet
    | _ => cases base.head <;> rfl

theorem orderly_power : Orderly .power 2 := by
  refine orderly_of_pair rfl rfl (fun _ => rfl) (fun _ _ _ _ => rfl) ?_ ?_
  · intro base exponent misfit
    rw [Procedure.apply, applyPower, realPower?_of_not_met misfit]
    obtain ⟨operand, member, unmet⟩ := misfit
    obtain ⟨nothing, -⟩ := Requirement.contents_of_not_met unmet
    rcases List.mem_pair.mp member with rfl | rfl
    · simp only [nothing]
      rfl
    · cases content : base.head.complex? <;> simp only [nothing] <;> rfl
  · intro base exponent fits
    have content (operand : Expr) (member : operand ∈ [base, exponent]) :
        ∃ value, operand.head.complex? = some value :=
      Requirement.met_number_iff.mp (met_of_fits fits member)
    obtain ⟨left, leftContent⟩ := content base (by simp)
    obtain ⟨right, rightContent⟩ := content exponent (by simp)
    have made : ∃ value, Procedure.power.apply [base, exponent] = .ok value := by
      rw [Procedure.apply, applyPower]
      cases realPower? base.head exponent.head with
      | some value => exact ⟨_, rfl⟩
      | none =>
          simp only [leftContent, rightContent]
          exact ⟨_, rfl⟩
    obtain ⟨value, made⟩ := made
    exact settles_of_ok (by decide) made

theorem orderly_range : Orderly .range 3 where
  demands := rfl
  counts operands different := by
    match operands with
    | [] => rfl
    | [_] => rfl
    | [_, _] => rfl
    | [_, _, _] => exact absurd rfl different
    | _ :: _ :: _ :: _ :: _ => rfl
  refuses operands counted misfit := by
    obtain ⟨start, finish, increment, rfl⟩ := List.length_eq_three.mp counted
    obtain ⟨operand, member, unmet⟩ := misfit
    have nothing : operand.head.number? = none := by
      cases head : operand.head with
      | number value => exact absurd (head ▸ .realNumber value) unmet
      | _ => rfl
    rw [Procedure.apply, applyRange]
    split
    · next startContent finishContent incrementContent =>
        change operand ∈ [start, finish, increment] at member
        simp only [List.mem_cons, List.not_mem_nil, or_false] at member
        rcases member with rfl | rfl | rfl
        · rw [nothing] at startContent
          cases startContent
        · rw [nothing] at finishContent
          cases finishContent
        · rw [nothing] at incrementContent
          cases incrementContent
    · rfl
  settles operands counted fits := by
    obtain ⟨start, finish, increment, rfl⟩ := List.length_eq_three.mp counted
    have content (operand : Expr) (member : operand ∈ [start, finish, increment]) :
        ∃ value, operand.head = .number value :=
      Requirement.met_realNumber_iff.mp (met_of_fits fits member)
    obtain ⟨first, startHead⟩ := content start (by simp)
    obtain ⟨last, finishHead⟩ := content finish (by simp)
    obtain ⟨step, incrementHead⟩ := content increment (by simp)
    rw [Settles, Procedure.apply, applyRange, startHead, finishHead, incrementHead]
    simp only [Atom.number?]
    cases violated : rangeViolation? first last step with
    | some limit =>
        refine .inr ⟨limit, rfl, .range startHead finishHead incrementHead ?_⟩
        intro taken
        rw [rangeViolation?_eq_none_iff.mpr taken] at violated
        cases violated
    | none =>
        refine .inl ⟨_, rfl, ?_⟩
        rintro (_ | _ | _ | ⟨startHead', finishHead', incrementHead', refused⟩)
        rw [startHead] at startHead'
        rw [finishHead] at finishHead'
        rw [incrementHead] at incrementHead'
        cases startHead'
        cases finishHead'
        cases incrementHead'
        exact refused (rangeViolation?_eq_none_iff.mp violated)

end Several

/-! ## Sums, products, differences and quotients -/

/-- The procedures that look at the kinds of all operands before anything else. -/
inductive Numeral : Procedure → Prop where
  | add : Numeral .add
  | subtract : Numeral .subtract
  | multiply : Numeral .multiply
  | divide : Numeral .divide

section Arithmetic

variable {procedure : Procedure} {operands : List Expr}

theorem numbers_of_not_met (procedure : Procedure) {operand : Expr} (member : operand ∈ operands)
    (unmet : ¬ Requirement.number.Met operand.head) :
    numbers procedure operands = refuseKind procedure .number := by
  obtain ⟨nothing, noReal⟩ := Requirement.contents_of_not_met unmet
  rw [numbers, mapM_of_none member noReal, mapM_of_none member nothing]

/-- Numbers of either kind have contents. -/
theorem exists_contents (met : ∀ operand ∈ operands, Requirement.number.Met operand.head) :
    ∃ values, Contents operands values := by
  induction operands with
  | nil => exact ⟨[], .nil⟩
  | cons operand others inductionHypothesis =>
      obtain ⟨values, contents⟩ :=
        inductionHypothesis fun other member => met other (List.mem_cons_of_mem operand member)
      obtain ⟨value, content⟩ := Requirement.met_number_iff.mp (met operand List.mem_cons_self)
      exact ⟨value :: values, .cons content contents⟩

namespace Numeral

theorem misfit_iff (numeral : procedure.Numeral) :
    procedure.Misfit operands ↔ ∃ operand ∈ operands, ¬ Requirement.number.Met operand.head := by
  cases numeral <;> exact Iff.rfl

theorem inside (numeral : procedure.Numeral) : ¬ procedure.OutsideDomain operands := by
  cases numeral <;> exact not_outsideDomain (by decide)

/-- Sums and products take any number of operands, and the other two do not count first. -/
theorem takes_or_kindsFirst (numeral : procedure.Numeral) (given : Nat) :
    procedure.Takes given ∨ procedure.KindsFirst := by
  cases numeral with
  | add => exact .inl fun _ demands => by cases demands
  | subtract => exact .inr (.inl rfl)
  | multiply => exact .inl fun _ demands => by cases demands
  | divide => exact .inr (.inr rfl)

theorem apply_of_misfit (numeral : procedure.Numeral) (misfit : procedure.Misfit operands) :
    procedure.apply operands = refuseKind procedure procedure.requirement := by
  obtain ⟨operand, member, unmet⟩ := numeral.misfit_iff.mp misfit
  have refused (procedure : Procedure) := numbers_of_not_met procedure member unmet
  cases numeral with
  | add => rw [Procedure.apply, applyAdd, refused, refuseKind_bind, requirement]
  | subtract => rw [Procedure.apply, applySubtract, refused, refuseKind_bind, requirement]
  | multiply => rw [Procedure.apply, applyMultiply, refused, refuseKind_bind, requirement]
  | divide => rw [Procedure.apply, applyDivide, refused, refuseKind_bind, requirement]

/-- There is an operation for the numbers of operands that a procedure takes. -/
theorem computes_iff (numeral : procedure.Numeral) (values : List Complex) :
    ((complexArithmetic? procedure values).isSome ↔ procedure.Takes values.length) ∧
      ((realArithmetic? procedure (values.map Complex.re)).isSome ↔
        procedure.Takes values.length) := by
  cases numeral with
  | add => simp [complexArithmetic?, realArithmetic?, Takes, demandedCount?]
  | subtract =>
      match values with
      | [] | [_] | [_, _] | _ :: _ :: _ :: _ =>
          simp [complexArithmetic?, realArithmetic?, Takes, demandedCount?, OperandCount.Admits]
  | multiply => simp [complexArithmetic?, realArithmetic?, Takes, demandedCount?]
  | divide =>
      match values with
      | [] | [_] | [_, _] | _ :: _ :: _ :: _ =>
          simp [complexArithmetic?, realArithmetic?, Takes, demandedCount?, OperandCount.Admits]

/-- The number of operands is the last demand. -/
theorem verdict_of_fits (numeral : procedure.Numeral) {α : Type} {computed : Option α}
    (result : α → Expr) (fits : ¬ procedure.Misfit operands)
    (computes : computed.isSome ↔ procedure.Takes operands.length) :
    procedure.Verdict operands
      (arithmeticOutcome procedure result operands.length computed) := by
  cases computed with
  | some value => exact .value (computes.mp rfl) fits numeral.inside (result value)
  | none =>
      have refused : ¬ procedure.Takes operands.length := fun takes => by cases computes.mpr takes
      have counted (demands : procedure.demandedCount? = some .oneOrTwo) :
          ¬ OperandCount.oneOrTwo.Admits operands.length := by
        refine fun admits => refused fun expected demands' => ?_
        cases demands.symm.trans demands'
        exact admits
      cases numeral with
      | add => exact absurd (fun _ demands => by cases demands) refused
      | subtract => exact .count rfl (counted rfl) fun _ => fits
      | multiply => exact absurd (fun _ demands => by cases demands) refused
      | divide => exact .count rfl (counted rfl) fun _ => fits

theorem verdict (numeral : procedure.Numeral) (operands : List Expr) :
    procedure.Verdict operands (procedure.apply operands) := by
  by_cases misfit : procedure.Misfit operands
  · rw [numeral.apply_of_misfit misfit]
    exact .kind misfit (numeral.takes_or_kindsFirst operands.length)
  · obtain ⟨values, contents⟩ := exists_contents fun operand member =>
      not_not.mp fun unmet => misfit (numeral.misfit_iff.mpr ⟨operand, member, unmet⟩)
    have promoting : procedure ∈ arithmeticProcedures ∧ procedure ≠ .power := by
      cases numeral <;> decide
    obtain ⟨complex, real⟩ := numeral.computes_iff values
    rw [← contents.length_eq] at complex real
    by_cases hasComplex : HasComplex operands
    · rw [apply_of_complex promoting.1 contents hasComplex]
      exact numeral.verdict_of_fits .ofComplex misfit complex
    · rw [apply_of_real promoting.1 promoting.2 contents hasComplex]
      exact numeral.verdict_of_fits .ofNumber misfit real

end Numeral

end Arithmetic

/-- Every call comes to what the first demand that it violates says. -/
theorem apply_verdict (procedure : Procedure) (operands : List Expr) :
    procedure.Verdict operands (procedure.apply operands) := by
  cases procedure with
  | add => exact Numeral.add.verdict operands
  | subtract => exact Numeral.subtract.verdict operands
  | multiply => exact Numeral.multiply.verdict operands
  | divide => exact Numeral.divide.verdict operands
  | squareRoot => exact orderly_squareRoot.verdict operands
  | power => exact orderly_power.verdict operands
  | logarithm => exact orderly_logarithm.verdict operands
  | sine => exact (orderly_applyReal rfl rfl rfl (by decide)).verdict operands
  | cosine => exact (orderly_applyReal rfl rfl rfl (by decide)).verdict operands
  | tangent => exact (orderly_applyReal rfl rfl rfl (by decide)).verdict operands
  | realPart => exact (orderly_complex (fun _ => rfl) rfl rfl (by decide)).verdict operands
  | imaginaryPart => exact (orderly_complex (fun _ => rfl) rfl rfl (by decide)).verdict operands
  | magnitude => exact (orderly_complex (fun _ => rfl) rfl rfl (by decide)).verdict operands
  | argument => exact (orderly_complex (fun _ => rfl) rfl rfl (by decide)).verdict operands
  | conjugate => exact (orderly_complex (fun _ => rfl) rfl rfl (by decide)).verdict operands
  | first => exact orderly_first.verdict operands
  | rest => exact orderly_rest.verdict operands
  | length => exact orderly_length.verdict operands
  | append => exact orderly_append.verdict operands
  | join => exact orderly_join.verdict operands
  | range => exact orderly_range.verdict operands

end Procedure

end FormLang
