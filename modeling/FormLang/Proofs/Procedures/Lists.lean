import FormLang.Procedure.Apply
import FormLang.Proofs.Numeric.Sums

/-!
Contract: the laws of the procedures on lists.

A procedure looks at the items of a list only, and makes lists without properties, so the laws
are those of lists of items, the items with all that belongs to them.

Owns: what each procedure makes of lists, the laws that tie them together, and that each of them
refuses what is no list.
-/

set_option autoImplicit false

namespace FormLang

open Numeric

@[simp] theorem Expr.isList_list (items : List Expr) : (Expr.list items).isList = true := rfl

@[simp] theorem Expr.tail_list (items : List Expr) : (Expr.list items).tail = items := rfl

namespace Procedure

/-! ## One procedure each -/

section Equations

variable {procedure : Procedure} {operand left right item : Expr} {others : List Expr}

theorem listItems_of_isList (isList : operand.isList = true) :
    listItems procedure operand = .ok operand.tail := by
  rw [listItems, if_pos isList]

theorem listItems_of_not_isList (noList : operand.isList = false) :
    listItems procedure operand = refuseKind procedure .list := by
  rw [listItems, noList]
  rfl

theorem apply_join (isLeft : left.isList = true) (isRight : right.isList = true) :
    Procedure.join.apply [left, right] = .ok (.list (left.tail ++ right.tail)) := by
  rw [Procedure.apply, applyJoin, listItems_of_isList isLeft, listItems_of_isList isRight]
  rfl

theorem apply_append (isList : operand.isList = true) (item : Expr) :
    Procedure.append.apply [operand, item] = .ok (.list (operand.tail ++ [item])) := by
  rw [Procedure.apply, applyAppend, listItems_of_isList isList]
  rfl

/-- The number of items has no residue. -/
theorem apply_length (isList : operand.isList = true) :
    Procedure.length.apply [operand] = .ok (.leaf (.number operand.tail.length.toFloat)) := by
  rw [← cleared_toFloat operand.tail.length, Procedure.apply, applyLength, single]
  show (listItems .length operand >>= _) = _
  rw [listItems_of_isList isList]
  rfl

theorem apply_first (isList : operand.isList = true) :
    Procedure.first.apply [operand] = match operand.tail with
      | [] => refuseDomain .first .emptyList
      | item :: _ => .ok item := by
  rw [Procedure.apply, applyFirst, single]
  show (listItems .first operand >>= _) = _
  rw [listItems_of_isList isList]
  rfl

theorem apply_rest (isList : operand.isList = true) :
    Procedure.rest.apply [operand] = match operand.tail with
      | [] => refuseDomain .rest .emptyList
      | _ :: others => .ok (.list others) := by
  rw [Procedure.apply, applyRest, single]
  show (listItems .rest operand >>= _) = _
  rw [listItems_of_isList isList]
  rfl

end Equations

/-! ## The laws -/

/-- What the procedures make of three lists and an item. -/
structure ListLaws (left middle right item : Expr) : Prop where
  joinLeft : (do
      let joined ← Procedure.join.apply [left, middle]
      Procedure.join.apply [joined, right]) =
    .ok (.list (left.tail ++ middle.tail ++ right.tail))
  joinRight : (do
      let joined ← Procedure.join.apply [middle, right]
      Procedure.join.apply [left, joined]) =
    .ok (.list (left.tail ++ middle.tail ++ right.tail))
  joinEmpty : middle.tail = [] →
    Procedure.join.apply [left, middle] = .ok (.list left.tail) ∧
      Procedure.join.apply [middle, left] = .ok (.list left.tail)
  append : Procedure.append.apply [left, item] = Procedure.join.apply [left, .list [item]]
  length : Procedure.length.apply [left] = .ok (.leaf (.number left.tail.length.toFloat))
  joinLength : ∃ joined, Procedure.join.apply [left, middle] = .ok joined ∧
    joined.tail.length = left.tail.length + middle.tail.length
  firstFails : (∃ limit, Procedure.first.apply [left] =
    .error (.outsideDomain (.procedure .first) limit)) ↔ left.tail = []
  restFails : (∃ limit, Procedure.rest.apply [left] =
    .error (.outsideDomain (.procedure .rest) limit)) ↔ left.tail = []
  firstRest : left.tail ≠ [] → (do
      let first ← Procedure.first.apply [left]
      let rest ← Procedure.rest.apply [left]
      Procedure.join.apply [.list [first], rest]) =
    .ok (.list left.tail)
  firstAppend : (do
      let longer ← Procedure.append.apply [left, item]
      Procedure.first.apply [longer]) =
    if left.tail = [] then .ok item else Procedure.first.apply [left]
  restJoin : left.tail ≠ [] → (do
      let joined ← Procedure.join.apply [left, middle]
      Procedure.rest.apply [joined]) =
    (do
      let rest ← Procedure.rest.apply [left]
      Procedure.join.apply [rest, middle])

/-- The procedures refuse an operand in the place of a list, whatever the item beside it is. -/
structure RefusedAsList (operand item : Expr) : Prop where
  first : Procedure.first.apply [operand] = .error (.wrongKind (.procedure .first) .list)
  rest : Procedure.rest.apply [operand] = .error (.wrongKind (.procedure .rest) .list)
  length : Procedure.length.apply [operand] = .error (.wrongKind (.procedure .length) .list)
  append : Procedure.append.apply [operand, item] =
    .error (.wrongKind (.procedure .append) .list)
  joinLeft : Procedure.join.apply [operand, item] = .error (.wrongKind (.procedure .join) .list)
  joinRight : Procedure.join.apply [item, operand] = .error (.wrongKind (.procedure .join) .list)

section Laws

variable {left middle right : Expr}

/-- What is made of the first item and the others fails exactly where there are none. -/
theorem outsideDomain_iff (procedure : Procedure) (result : Expr → List Expr → Expr)
    (items : List Expr) :
    (∃ limit : DomainLimit, (match items with
      | [] => (refuseDomain procedure .emptyList : Except Failure Expr)
      | item :: others => .ok (result item others)) =
        .error (.outsideDomain (.procedure procedure) limit)) ↔ items = [] := by
  cases items with
  | nil => exact iff_of_true ⟨_, rfl⟩ rfl
  | cons item others =>
      refine iff_of_false ?_ (List.cons_ne_nil item others)
      rintro ⟨_, failed⟩
      cases failed

theorem first_fails_iff (isList : left.isList = true) :
    (∃ limit, Procedure.first.apply [left] =
      .error (.outsideDomain (.procedure .first) limit)) ↔ left.tail = [] := by
  rw [apply_first isList]
  exact outsideDomain_iff .first (fun item _ => item) left.tail

theorem rest_fails_iff (isList : left.isList = true) :
    (∃ limit, Procedure.rest.apply [left] =
      .error (.outsideDomain (.procedure .rest) limit)) ↔ left.tail = [] := by
  rw [apply_rest isList]
  exact outsideDomain_iff .rest (fun _ others => .list others) left.tail

/-- The first item and the rest make up the list. -/
theorem join_first_rest (isList : left.isList = true) (some : left.tail ≠ []) :
    (do
      let first ← Procedure.first.apply [left]
      let rest ← Procedure.rest.apply [left]
      Procedure.join.apply [.list [first], rest]) = .ok (.list left.tail) := by
  rw [apply_first isList, apply_rest isList]
  cases items : left.tail with
  | nil => exact absurd items some
  | cons item others =>
      show Procedure.join.apply [.list [item], .list others] = _
      exact apply_join (Expr.isList_list _) (Expr.isList_list _)

/-- A longer list has the same first item, if the list has one. -/
theorem first_append (isList : left.isList = true) (item : Expr) :
    (do
      let longer ← Procedure.append.apply [left, item]
      Procedure.first.apply [longer]) =
      if left.tail = [] then .ok item else Procedure.first.apply [left] := by
  rw [apply_append isList, apply_first isList]
  show Procedure.first.apply [.list (left.tail ++ [item])] = _
  rw [apply_first (Expr.isList_list _), Expr.tail_list]
  cases left.tail <;> rfl

/-- The rest of a joined list is joined from the rest of the left one. -/
theorem rest_join (isLeft : left.isList = true) (isMiddle : middle.isList = true)
    (some : left.tail ≠ []) :
    (do
      let joined ← Procedure.join.apply [left, middle]
      Procedure.rest.apply [joined]) =
      (do
        let rest ← Procedure.rest.apply [left]
        Procedure.join.apply [rest, middle]) := by
  rw [apply_join isLeft isMiddle, apply_rest isLeft]
  show Procedure.rest.apply [.list (left.tail ++ middle.tail)] = _
  rw [apply_rest (Expr.isList_list _), Expr.tail_list]
  cases items : left.tail with
  | nil => exact absurd items some
  | cons item others =>
      show _ = Procedure.join.apply [.list others, middle]
      rw [apply_join (Expr.isList_list _) isMiddle]
      rfl

theorem refusedAsList {operand : Expr} (noList : operand.isList = false) (item : Expr) :
    RefusedAsList operand item := by
  have refused (procedure : Procedure) :
      listItems procedure operand = refuseKind procedure .list :=
    listItems_of_not_isList noList
  refine ⟨?_, ?_, ?_, ?_, ?_, ?_⟩
  · show (listItems .first operand >>= _) = _
    rw [refused]
    rfl
  · show (listItems .rest operand >>= _) = _
    rw [refused]
    rfl
  · show (listItems .length operand >>= _) = _
    rw [refused]
    rfl
  · rw [Procedure.apply, applyAppend, refused]
    rfl
  · rw [Procedure.apply, applyJoin, refused]
    rfl
  · -- The item in front may be no list either, which is refused in the same words.
    rw [Procedure.apply, applyJoin, refused, listItems]
    cases item.isList <;> rfl

end Laws

/-- The procedures on lists obey the laws of lists, and refuse what is no list. -/
theorem list_algebra {left middle right operand : Expr} (isLeft : left.isList = true)
    (isMiddle : middle.isList = true) (isRight : right.isList = true)
    (noList : operand.isList = false) (item : Expr) :
    ListLaws left middle right item ∧ RefusedAsList operand item := by
  refine ⟨⟨?_, ?_, ?_, ?_, apply_length isLeft, ?_, first_fails_iff isLeft, rest_fails_iff isLeft,
    join_first_rest isLeft, first_append isLeft item, rest_join isLeft isMiddle⟩,
    refusedAsList noList item⟩
  · rw [apply_join isLeft isMiddle]
    exact apply_join (Expr.isList_list _) isRight
  · rw [apply_join isMiddle isRight, List.append_assoc]
    exact apply_join isLeft (Expr.isList_list _)
  · intro empty
    rw [apply_join isLeft isMiddle, apply_join isMiddle isLeft, empty, List.append_nil,
      List.nil_append]
    exact ⟨rfl, rfl⟩
  · rw [apply_append isLeft item, apply_join isLeft (Expr.isList_list _), Expr.tail_list]
  · exact ⟨_, apply_join isLeft isMiddle, List.length_append⟩

/-- A list with a property, one with an item that has a property, the empty list, and a number. -/
theorem list_algebra_of_noted_items :
    let noted : Expr := .node (.number 2) [] [("note", .leaf (.symbol "even"))]
    let left : Expr := .node (.symbol Expr.listTag) [.leaf (.number 1)] [("note", noted)]
    ListLaws left (.list [noted]) (.list []) noted ∧ RefusedAsList noted noted ∧
      Procedure.join.apply [left, .list [noted]] = .ok (.list [.leaf (.number 1), noted]) := by
  intro noted left
  have algebra : ListLaws left (.list [noted]) (.list []) noted ∧ RefusedAsList noted noted :=
    list_algebra (by decide) (by decide) (by decide) (by decide) noted
  exact ⟨algebra.1, algebra.2, rfl⟩

end Procedure

end FormLang
