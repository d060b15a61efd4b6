import FormLang.Evaluation.Computation
import FormLang.Procedure.Apply

/-!
Contract: the rules of evaluation, one level at a time.

A special form is recognised by its head symbol before anything else. A leaf that is
no special form stands for itself or, as a symbol, for the value it is bound to. Any
other expression is an application: the operands first, from left to right, then the
head. A function sees the names of its caller at the time of the call, and nothing
that its body defines or annotates outlives the call.

Owns: every rule, each over an arbitrary evaluator for the subexpressions and, where
it calls, an arbitrary way of calling.
Does not own: the recursion.
-/

set_option autoImplicit false

namespace FormLang.Evaluation

abbrev Evaluator := Expr → Computation Expr

inductive Callee where
  | procedure (builtIn : Procedure)
  | lambda (parameters : List String) (body : Expr)
deriving DecidableEq

abbrev Caller := Callee → List Expr → Computation Expr

/-- A way of making the environment of a function's body out of the caller's. -/
abbrev Entry := Environment → List String → List Expr → Environment

def evaluateLeaf : Atom → Computation Expr
  | .none => .fail .nothingAsValue
  | .symbol name => do
      match (← Computation.environment).lookup name with
      | some (.value value) => return value
      | some (.procedure _) => .fail (.procedureAsValue name)
      | none => .fail (.unknownSymbol name)
  | head => return .leaf head

/-- The values of expressions, from left to right. -/
def evaluateEach (evaluate : Evaluator) : List Expr → Computation (List Expr)
  | [] => return []
  | expression :: rest => do
      let value ← evaluate expression
      let values ← evaluateEach evaluate rest
      return value :: values

/-- The value of the last of the expressions, after all others were evaluated. -/
def evaluateSequence (evaluate : Evaluator) : List Expr → Computation Expr
  | [] => .fail .emptySequence
  | [last] => evaluate last
  | expression :: rest => do
      let _ ← evaluate expression
      evaluateSequence evaluate rest

def refuseCount {α : Type} (form : SpecialForm) (expected : Nat) (operands : List Expr) :
    Computation α :=
  .fail (.wrongCount (.form form) (.exactly expected) operands.length)

/-- A name may be defined: it is no special form and stands for nothing. -/
def checkDefinable (name : String) (environment : Environment) : Except Failure Unit :=
  if (SpecialForm.named? name).isSome then .error (.redefinedForm name)
  else
    match environment.lookup name with
    | some (.procedure _) => .error (.redefinedProcedure name)
    | some (.value _) => .error (.redefinedSymbol name)
    | none => .ok ()

/-- `(define name value)`: bind a new name to the value. The name is checked before
the value is evaluated, and again after. -/
def evaluateDefine (evaluate : Evaluator) (operands : List Expr) : Computation Expr :=
  match operands with
  | [target, expression] =>
      match target.bareSymbol? with
      | none => .fail .definedNotSymbol
      | some name => do
          Computation.check (checkDefinable name (← Computation.environment))
          let value ← evaluate expression
          let extended ← Computation.check ((← Computation.environment).define name value)
          Computation.replace extended
          return value
  | _ => refuseCount .define 2 operands

/-- `(list item ...)`: the list of the values. -/
def evaluateList (evaluate : Evaluator) (operands : List Expr) : Computation Expr := do
  return .list (← evaluateEach evaluate operands)

/-- The names of parameters: symbols, none of them the name of a procedure or of a
special form. -/
def checkParameters (environment : Environment) :
    List (Option String) → Except Failure (List String)
  | [] => .ok []
  | none :: _ => .error .parameterNotSymbol
  | some name :: rest =>
      if (SpecialForm.named? name).isSome || (environment.procedure? name).isSome then
        .error (.parameterReserved name)
      else
        (checkParameters environment rest).map (name :: ·)

/-- `(lambda (parameter ...) body)`: a function value over the body as it stands. The
parameter list reads as a form, so its head is the first parameter. -/
def evaluateLambda (operands : List Expr) : Computation Expr :=
  match operands with
  | [parameters, body] => do
      let names ← Computation.check (checkParameters (← Computation.environment)
        (parameters.head.symbol? :: parameters.tail.map Expr.bareSymbol?))
      return .lambda names body
  | _ => refuseCount .lambda 2 operands

/-- Call with evaluated operands. The body of a function runs in an environment of
its own, which is dropped at the end. -/
def call (enter : Entry) (evaluate : Evaluator) (callee : Callee) (operands : List Expr) :
    Computation Expr :=
  match callee with
  | .procedure builtIn => Computation.check (builtIn.apply operands)
  | .lambda parameters body =>
      if parameters.length = operands.length then do
        Computation.inside (enter (← Computation.environment) parameters operands)
          (evaluate body)
      else
        .fail (.wrongCount (.form .lambda) (.exactly parameters.length) operands.length)

/-- Call once for each operand, from left to right, and collect the results. -/
def callEach (call : Caller) (callee : Callee) : List Expr → Computation (List Expr)
  | [] => return []
  | operand :: rest => do
      let result ← call callee [operand]
      let results ← callEach call callee rest
      return result :: results

/-- What `apply` and `map` are to call: the procedure that a bare symbol names, else
the function that the expression evaluates to. -/
def resolveCallee (evaluate : Evaluator) (form : SpecialForm) (expression : Expr) :
    Computation Callee := do
  match expression.bareSymbol?.bind (← Computation.environment).procedure? with
  | some builtIn => return .procedure builtIn
  | none =>
      match (← evaluate expression).lambdaParts? with
      | some (parameters, body) => return .lambda parameters body
      | none => .fail (.calleeNotProcedure form)

/-- The items of the list that the second operand of `apply` and `map` evaluates to. -/
def evaluateItems (evaluate : Evaluator) (form : SpecialForm) (expression : Expr) :
    Computation (List Expr) := do
  let value ← evaluate expression
  if value.isList then return value.tail else .fail (.operandsNotList form)

/-- `(apply callee items)`: one call with the items as its operands. -/
def evaluateApply (evaluate : Evaluator) (call : Caller) (operands : List Expr) :
    Computation Expr :=
  match operands with
  | [callee, items] => do
      let callee ← resolveCallee evaluate .apply callee
      let items ← evaluateItems evaluate .apply items
      call callee items
  | _ => refuseCount .apply 2 operands

/-- `(map callee items)`: the list of the results of one call for each item. -/
def evaluateMap (evaluate : Evaluator) (call : Caller) (operands : List Expr) :
    Computation Expr :=
  match operands with
  | [callee, items] => do
      let callee ← resolveCallee evaluate .map callee
      let items ← evaluateItems evaluate .map items
      return .list (← callEach call callee items)
  | _ => refuseCount .map 2 operands

/-- The key of a property: the content of the string that an expression evaluates to. -/
def evaluateKey (evaluate : Evaluator) (form : SpecialForm) (expression : Expr) :
    Computation String := do
  match (← evaluate expression).head.string? with
  | some key => return key
  | none => .fail (.wrongKind (.form form) .stringKey)

/-- `(set-property key value target)`: the target with the property. A target that is
a bare symbol bound to a value is updated where it is bound. -/
def evaluateSetProperty (evaluate : Evaluator) (operands : List Expr) : Computation Expr :=
  match operands with
  | [key, expression, target] => do
      let key ← evaluateKey evaluate .setProperty key
      let value ← evaluate expression
      let environment ← Computation.environment
      match target.bareSymbol?.bind fun name => environment.annotate? name key value with
      | some (annotated, updated) =>
          Computation.replace updated
          return annotated
      | none => return (← evaluate target).setProperty key value
  | _ => refuseCount .setProperty 3 operands

/-- `(get-property key target)`: the property of the target's value, nothing if it
has none of that key. -/
def evaluateGetProperty (evaluate : Evaluator) (operands : List Expr) : Computation Expr :=
  match operands with
  | [key, target] => do
      let key ← evaluateKey evaluate .getProperty key
      return (← evaluate target).property key
  | _ => refuseCount .getProperty 2 operands

def headCallee (environment : Environment) (head : Atom) : Except Failure Callee :=
  match head.symbol? with
  | none => .error (.headNotProcedure head)
  | some name =>
      match environment.lookup name with
      | some (.procedure builtIn) => .ok (.procedure builtIn)
      | some (.value value) =>
          match value.lambdaParts? with
          | some (parameters, body) => .ok (.lambda parameters body)
          | none => .error (.headNotProcedure head)
      | none => .error (.unknownProcedure name)

/-- `(head operand ...)`: call what the head names after the operands are evaluated. -/
def evaluateApplication (evaluate : Evaluator) (call : Caller) (head : Atom)
    (operands : List Expr) : Computation Expr := do
  let values ← evaluateEach evaluate operands
  let callee ← Computation.check (headCallee (← Computation.environment) head)
  call callee values

def specialForm? (expression : Expr) : Option SpecialForm :=
  expression.head.symbol?.bind SpecialForm.named?

/-- The value of an expression, given an evaluator for the expressions inside it and a
way of calling. -/
def step (evaluate : Evaluator) (call : Caller) (expression : Expr) : Computation Expr :=
  let operands := expression.tail
  match specialForm? expression with
  | some .sequence => evaluateSequence evaluate operands
  | some .define => evaluateDefine evaluate operands
  | some .list => evaluateList evaluate operands
  | some .lambda =>
      if expression.isLambda then return expression else evaluateLambda operands
  | some .apply => evaluateApply evaluate call operands
  | some .map => evaluateMap evaluate call operands
  | some .setProperty => evaluateSetProperty evaluate operands
  | some .getProperty => evaluateGetProperty evaluate operands
  | none =>
      if expression.isLeaf then evaluateLeaf expression.head
      else evaluateApplication evaluate call expression.head operands

end FormLang.Evaluation
