import FormLang.Proofs.Numeric.Closeness
import FormLang.Proofs.Sessions.Residue
import FormLang.Proofs.Source.Grammar
import FormLang.Proofs.Stripping

/-!
Contract: when expressions agree.

Agreement compares two trees node by node, numbers up to the threshold, and looks at no
properties. It is symmetric, but no equivalence: a number that is infinite or none does not agree
with itself, and close numbers need not be close to a third one alike.

Owns: what agreement says about two trees, what it takes no notice of, and which trees agree with
themselves.
-/

set_option autoImplicit false

namespace FormLang

open Numeric

/-! ## Atoms -/

namespace Atom

/-- Two atoms of one kind, whatever their contents are. -/
inductive SameKind : Atom → Atom → Prop where
  | none : SameKind .none .none
  | number (left right : Float) : SameKind (.number left) (.number right)
  | complex (left right : Complex) : SameKind (.complex left) (.complex right)
  | symbol (left right : String) : SameKind (.symbol left) (.symbol right)
  | string (left right : String) : SameKind (.string left) (.string right)

/-- The numbers that the atom consists of are numbers, and not infinite. -/
def Finite (atom : Atom) : Prop :=
  ∀ part ∈ atom.parts, part.isNaN = false ∧ part.isInf = false

variable {left right : Atom}

theorem agrees_comm (left right : Atom) : left.agrees right = right.agrees left := by
  cases left with
  | none => cases right <;> rfl
  | number value =>
      cases right with
      | number value' => exact close_comm value value'
      | _ => rfl
  | complex value =>
      cases right with
      | complex value' =>
          exact congr_arg₂ (· && ·) (close_comm value.re value'.re) (close_comm value.im value'.im)
      | _ => rfl
  | symbol name =>
      cases right with
      | symbol name' => exact Bool.beq_comm
      | _ => rfl
  | string content =>
      cases right with
      | string content' => exact Bool.beq_comm
      | _ => rfl

theorem sameKind_of_agrees (agree : left.agrees right = true) : left.SameKind right := by
  cases left with
  | none =>
      cases right with
      | none => exact .none
      | _ => cases agree
  | number value =>
      cases right with
      | number value' => exact .number value value'
      | _ => cases agree
  | complex value =>
      cases right with
      | complex value' => exact .complex value value'
      | _ => cases agree
  | symbol name =>
      cases right with
      | symbol name' => exact .symbol name name'
      | _ => cases agree
  | string content =>
      cases right with
      | string content' => exact .string content content'
      | _ => cases agree

theorem isFinite_iff {number : Float} :
    number.isFinite = true ↔ number.isNaN = false ∧ number.isInf = false := by
  change number.toModel.unpack.isFinite = true ↔
    number.toModel.unpack.isNaN = false ∧ number.toModel.unpack.isInf = false
  cases number.toModel.unpack <;>
    simp [Float.Model.UnpackedFloat.isFinite, Float.Model.UnpackedFloat.isNaN,
      Float.Model.UnpackedFloat.isInf]

/-- Exactly the finite atoms agree with themselves, and all that are no numbers. -/
theorem agrees_self_iff {atom : Atom} : atom.agrees atom = true ↔ atom.Finite := by
  unfold Finite
  cases atom with
  | none => simp [agrees, parts]
  | number value => simp [agrees, parts, close_self_iff, isFinite_iff]
  | complex value => simp [agrees, parts, Complex.close, close_self_iff, isFinite_iff]
  | symbol name => simp [agrees, parts]
  | string content => simp [agrees, parts]

end Atom

/-! ## Trees -/

namespace Expr

/-- Two trees of one shape, with heads of one kind and tails of one length at every node. -/
inductive SameShape : Expr → Expr → Prop where
  | node {left right : Expr} (heads : left.head.SameKind right.head)
      (lengths : left.tail.length = right.tail.length)
      (children : ∀ pair ∈ left.tail.zip right.tail, SameShape pair.1 pair.2) :
      SameShape left right

mutual

theorem agrees_comm : (left right : Expr) → left.agrees right = right.agrees left
  | .node head tail _, .node head' tail' _ => by
      rw [agrees, agrees, head.agrees_comm, tailsAgree_comm tail tail']

theorem tailsAgree_comm : (lefts rights : List Expr) →
    tailsAgree lefts rights = tailsAgree rights lefts
  | [], [] => rfl
  | [], _ :: _ => rfl
  | _ :: _, [] => rfl
  | first :: rest, first' :: rest' => by
      rw [tailsAgree, tailsAgree, agrees_comm first first', tailsAgree_comm rest rest']

end

mutual

theorem agrees_strip : (left right : Expr) →
    left.strip.agrees right.strip = left.agrees right
  | .node head tail _, .node head' tail' _ => by
      rw [strip, strip, form, form, agrees, agrees, tailsAgree_stripEach tail tail']

theorem tailsAgree_stripEach : (lefts rights : List Expr) →
    tailsAgree (stripEach lefts) (stripEach rights) = tailsAgree lefts rights
  | [], [] => rfl
  | [], _ :: _ => rfl
  | _ :: _, [] => rfl
  | first :: rest, first' :: rest' => by
      rw [stripEach, stripEach, tailsAgree, tailsAgree, agrees_strip first first',
        tailsAgree_stripEach rest rest']

end

mutual

theorem sameShape_of_agrees : (left right : Expr) → left.agrees right = true →
    left.SameShape right
  | .node head tail _, .node head' tail' _, agree => by
      rw [agrees, Bool.and_eq_true] at agree
      obtain ⟨lengths, children⟩ := sameShapes_of_tailsAgree tail tail' agree.2
      exact .node (Atom.sameKind_of_agrees agree.1) lengths children

theorem sameShapes_of_tailsAgree : (lefts rights : List Expr) →
    tailsAgree lefts rights = true →
    lefts.length = rights.length ∧ ∀ pair ∈ lefts.zip rights, SameShape pair.1 pair.2
  | [], [], _ => ⟨rfl, fun _ member => absurd member List.not_mem_nil⟩
  | [], _ :: _, agree => by cases agree
  | _ :: _, [], agree => by cases agree
  | first :: rest, first' :: rest', agree => by
      rw [tailsAgree, Bool.and_eq_true] at agree
      obtain ⟨lengths, children⟩ := sameShapes_of_tailsAgree rest rest' agree.2
      refine ⟨congrArg Nat.succ lengths, fun pair member => ?_⟩
      rcases List.mem_cons.mp member with rfl | later
      · exact sameShape_of_agrees first first' agree.1
      · exact children pair later

end

mutual

theorem agrees_self_iff : (expression : Expr) →
    (expression.agrees expression = true ↔ ∀ node ∈ expression.nodes, node.head.Finite)
  | .node head tail properties => by
      rw [agrees, Bool.and_eq_true, Atom.agrees_self_iff, tailsAgree_self_iff tail, nodes,
        List.forall_mem_cons]
      rfl

theorem tailsAgree_self_iff : (children : List Expr) →
    (tailsAgree children children = true ↔ ∀ node ∈ nodesOfEach children, node.head.Finite)
  | [] => iff_of_true rfl fun _ member => absurd member List.not_mem_nil
  | first :: rest => by
      rw [tailsAgree, Bool.and_eq_true, agrees_self_iff first, tailsAgree_self_iff rest,
        nodesOfEach, List.forall_mem_append]

end

/-- What the agreement of two trees comes to. -/
structure AgreementLaws (left right : Expr) : Prop where
  symmetric : left.agrees right = true ↔ right.agrees left = true
  /-- Other properties, at any node, make no difference. -/
  properties : ∀ left' right' : Expr, left'.strip = left.strip → right'.strip = right.strip →
    left'.agrees right' = left.agrees right
  shape : left.agrees right = true → left.SameShape right
  reflexive : left.agrees left = true ↔
    ∀ node ∈ left.nodes, ∀ part ∈ node.head.parts, part.isNaN = false ∧ part.isInf = false

/-- Agreement is a symmetric comparison of the heads at the nodes, and a tree agrees with itself
exactly if all its numbers are finite. -/
theorem agreement (left right : Expr) : AgreementLaws left right where
  symmetric := by rw [agrees_comm]
  properties left' right' sameLeft sameRight := by
    rw [← agrees_strip, sameLeft, sameRight, agrees_strip]
  shape := sameShape_of_agrees left right
  reflexive := agrees_self_iff left

end Expr

end FormLang
