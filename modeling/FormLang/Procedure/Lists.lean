import FormLang.Procedure.Operands

/-!
Contract: the procedures on lists.

The items keep their properties; a list that a procedure makes has none of its own.

Owns: access to the items of a list, its length, the two ways of making a longer
list, and arithmetic progressions.
-/

set_option autoImplicit false

namespace FormLang.Procedure

open Numeric

def applyFirst (operands : List Expr) : Except Failure Expr := do
  match ← listItems .first (← single .first operands) with
  | [] => refuseDomain .first .emptyList
  | item :: _ => .ok item

def applyRest (operands : List Expr) : Except Failure Expr := do
  match ← listItems .rest (← single .rest operands) with
  | [] => refuseDomain .rest .emptyList
  | _ :: items => .ok (.list items)

def applyLength (operands : List Expr) : Except Failure Expr := do
  let items ← listItems .length (← single .length operands)
  return .ofNumber items.length.toFloat

/-- The list with one more item at the end. -/
def applyAppend (operands : List Expr) : Except Failure Expr :=
  match operands with
  | [operand, item] => do return .list ((← listItems .append operand) ++ [item])
  | _ => refuseCount .append (.exactly 2) operands

/-- The items of two lists, one list after the other. -/
def applyJoin (operands : List Expr) : Except Failure Expr :=
  match operands with
  | [left, right] => do
      let items ← listItems .join left
      let items' ← listItems .join right
      return .list (items ++ items')
  | _ => refuseCount .join (.exactly 2) operands

/-- The greatest number of increments between the bounds of a range. -/
def rangeLimit : Nat := Nat.pow 2 20

def progressionItem (start increment : Float) (index : Nat) : Float :=
  start + index.toFloat * increment

/-- The least index from `index` on whose item exceeds the bound, looking at no more
than `remaining` of them. -/
def firstBeyond (start increment bound : Float) (index : Nat) : Nat → Nat
  | 0 => index
  | remaining + 1 =>
      if progressionItem start increment index ≤ bound then
        firstBeyond start increment bound (index + 1) remaining
      else
        index

/-- The items of the progression up to the last bound, with the tolerance of
closeness, and one more than `rangeLimit` of them at most. -/
def progression (start finish increment : Float) : List Float :=
  (List.range (firstBeyond start increment (finish + threshold) 0 (rangeLimit + 1))).map
    (progressionItem start increment)

/-- The limit that the bounds and the increment of a range violate, if they do. -/
def rangeViolation? (start finish increment : Float) : Option DomainLimit :=
  if !(start.isFinite && finish.isFinite && increment.isFinite) then some .boundsNotFinite
  else if finish ≤ start then some .emptyInterval
  else if increment ≤ 0 then some .incrementNotPositive
  else if rangeLimit.toFloat < (finish - start) / increment then
    some (.tooManyItems rangeLimit)
  else none

/-- The list of the progression from a start to an end by an increment. -/
def applyRange (operands : List Expr) : Except Failure Expr :=
  match operands with
  | [start, finish, increment] =>
      match start.head.number?, finish.head.number?, increment.head.number? with
      | some start, some finish, some increment =>
          match rangeViolation? start finish increment with
          | some limit => refuseDomain .range limit
          | none => .ok (.list ((progression start finish increment).map Expr.ofNumber))
      | _, _, _ => refuseKind .range .realNumber
  | _ => refuseCount .range (.exactly 3) operands

end FormLang.Procedure
