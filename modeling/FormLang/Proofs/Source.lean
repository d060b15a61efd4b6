import FormLang.Source.Reader

/-!
Contract: the trees that program texts read as.

Owns: plain trees, in which no node has a property, and the theorem that every program is
plain.
-/

set_option autoImplicit false

namespace FormLang

/-- A tree without properties. -/
inductive Expr.Plain : Expr → Prop where
  | node (head : Atom) {tail : List Expr} (children : ∀ child ∈ tail, child.Plain) :
      Plain (.node head tail [])

namespace Expr.Plain

variable {expression : Expr}

theorem leaf (head : Atom) : (Expr.leaf head).Plain :=
  .node head fun _ member => absurd member List.not_mem_nil

theorem tail (plain : expression.Plain) : ∀ child ∈ expression.tail, child.Plain := by
  cases plain with
  | node head children => exact children

theorem properties (plain : expression.Plain) : expression.properties = [] := by
  cases plain with
  | node head children => rfl

end Expr.Plain

namespace Source

/-- What has been read of a form is plain. -/
def OpenForm.Plain (form : OpenForm) : Prop :=
  ∀ child ∈ form.reversed, child.Plain

theorem OpenForm.Plain.add {form : OpenForm} {child : Expr} (formPlain : form.Plain)
    (childPlain : child.Plain) : (form.add child).Plain := by
  intro other member
  rcases List.mem_cons.mp member with rfl | earlier
  · exact childPlain
  · exact formPlain other earlier

theorem OpenForm.Plain.close {form : OpenForm} (formPlain : form.Plain) : form.close.Plain :=
  .node form.head fun child member => formPlain child (List.mem_reverse.mp member)

/-- Reading goes on from plain forms to a plain program, behind an opening parenthesis and
within a form. -/
theorem readHead_readTail_plain (tokens : List Token) :
    (∀ {outer program}, (∀ form ∈ outer, form.Plain) →
      readHead outer tokens = .ok program → program.Plain) ∧
    (∀ {form outer program}, form.Plain → (∀ form ∈ outer, form.Plain) →
      readTail form outer tokens = .ok program → program.Plain) := by
  induction tokens with
  | nil =>
      constructor
      · intro outer program _ read
        cases read
      · intro form outer program _ _ read
        cases read
  | cons token rest inductionHypothesis =>
      obtain ⟨headOfRest, tailOfRest⟩ := inductionHypothesis
      constructor
      · intro outer program outers read
        cases token with
        | opening => cases read
        | closing => cases read
        | lexeme text =>
            simp only [readHead] at read
            cases classified : classify text with
            | error error =>
                rw [classified] at read
                cases read
            | ok head =>
                rw [classified] at read
                exact tailOfRest (fun _ member => absurd member List.not_mem_nil) outers read
      · intro form outer program plain outers read
        cases token with
        | opening =>
            refine headOfRest (fun other member => ?_) read
            rcases List.mem_cons.mp member with rfl | enclosing
            · exact plain
            · exact outers other enclosing
        | lexeme text =>
            simp only [readTail] at read
            cases classified : classify text with
            | error error =>
                rw [classified] at read
                cases read
            | ok atom =>
                rw [classified] at read
                exact tailOfRest (plain.add (.leaf atom)) outers read
        | closing =>
            cases outer with
            | nil =>
                simp only [readTail] at read
                cases ended : rest.isEmpty with
                | false =>
                    rw [ended] at read
                    cases read
                | true =>
                    rw [ended] at read
                    cases read
                    exact plain.close
            | cons parent outer =>
                have parentPlain := outers parent List.mem_cons_self
                exact tailOfRest (parentPlain.add plain.close)
                  (fun other member => outers other (List.mem_cons_of_mem parent member)) read

/-- A program has no properties anywhere. -/
theorem read_plain {text : String} {program : Expr} (read : Source.read text = .ok program) :
    program.Plain := by
  unfold Source.read at read
  revert read
  cases tokenize text with
  | nil => exact fun read => by cases read
  | cons token rest =>
      cases token with
      | lexeme text => exact fun read => by cases read
      | closing => exact fun read => by cases read
      | opening =>
          exact fun read => (readHead_readTail_plain rest).1
            (fun _ member => absurd member List.not_mem_nil) read

end Source

end FormLang
