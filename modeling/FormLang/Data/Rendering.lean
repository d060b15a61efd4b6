import FormLang.Data.Expr

/-!
Contract: the text of an expression.

Every node is written in parentheses: its head and then its tail, separated by
single spaces. A tag is not written, so a sequence is its items in parentheses.
Properties are not written.

Owns: `Expr.render` and `Expr.text`.
-/

set_option autoImplicit false

namespace FormLang.Expr

def isTagged (head : Atom) : Bool :=
  head.symbol? == some listTag || head.symbol? == some lambdaTag

/-- What is written in front of the tail: nothing for a tag, otherwise the head and,
if a tail follows, a space. -/
def headText (quoting : Quoting) (head : Atom) (hasTail : Bool) : String :=
  if isTagged head then ""
  else if hasTail then head.render quoting ++ " "
  else head.render quoting

mutual

def render (quoting : Quoting) : Expr → String
  | .node head tail _ =>
      "(" ++ headText quoting head (!tail.isEmpty) ++
        String.intercalate " " (renderEach quoting tail) ++ ")"

def renderEach (quoting : Quoting) : List Expr → List String
  | [] => []
  | child :: rest => child.render quoting :: renderEach quoting rest

end

theorem renderEach_eq_map (quoting : Quoting) (children : List Expr) :
    renderEach quoting children = children.map (render quoting) := by
  induction children with
  | nil => rfl
  | cons first rest inductionHypothesis =>
      rw [renderEach, inductionHypothesis, List.map_cons]

/-- The text in which an expression is printed, with strings between quotes. -/
def text (expression : Expr) : String :=
  expression.render .quoted

end FormLang.Expr
