import FormLang.Evaluation.Step

/-!
Contract: the evaluation of expressions.

A program may call itself without end, so an evaluation has a budget: the greatest
number of evaluations that are nested in one another at any time. An evaluation that
ends within its budget does not depend on it.

Owns: `evaluateBy`, the recursion over any way of entering a function, and
`evaluate`, where the frame of a call is linked to its caller's scopes.
-/

set_option autoImplicit false

namespace FormLang

/-- The value of an expression, found with at most `budget` nested evaluations, where
`enter` makes the environment of a function's body. -/
def evaluateBy (enter : Evaluation.Entry) : (budget : Nat) → Expr → Computation Expr
  | 0 => fun _ => .exhausted
  | budget + 1 =>
      Evaluation.step (evaluateBy enter budget)
        (Evaluation.call enter (evaluateBy enter budget))

/-- The value of an expression, found with at most `budget` nested evaluations. -/
def evaluate (budget : Nat) (expression : Expr) : Computation Expr :=
  evaluateBy Environment.enter budget expression

end FormLang
