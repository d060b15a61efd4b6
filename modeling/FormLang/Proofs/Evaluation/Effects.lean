import FormLang.Proofs.Evaluation.Invariant

/-!
Contract: what an evaluation writes.

Only two forms write: a definition, and an annotation whose target is a bare symbol. Both
write to their own scope. A function is not evaluated where it stands, and where it is
called its body has a scope of its own. So the writes of an evaluation can be read off the
expression, whatever functions it calls.

Owns: the write targets of an expression, and the theorem that its evaluation leaves all
other names as they were.
-/

set_option autoImplicit false

namespace FormLang

namespace Evaluation

/-- The name that an expression itself defines or annotates. -/
def writeTarget? (expression : Expr) : Option String :=
  match specialForm? expression, expression.tail with
  | some .define, [target, _] => target.bareSymbol?
  | some .setProperty, [_, _, target] => target.bareSymbol?
  | _, _ => none

mutual

/-- The names that an expression and those inside it define or annotate, except for what
stands below a `lambda`. -/
def writeTargets : Expr → List String
  | .node head tail properties =>
      if head = .symbol Expr.lambdaTag then []
      else (writeTarget? (.node head tail properties)).toList ++ writeTargetsOfEach tail

def writeTargetsOfEach : List Expr → List String
  | [] => []
  | first :: rest => writeTargets first ++ writeTargetsOfEach rest

end

theorem mem_writeTargetsOfEach {name : String} {child : Expr} {children : List Expr}
    (member : child ∈ children) (target : name ∈ writeTargets child) :
    name ∈ writeTargetsOfEach children := by
  induction children with
  | nil => exact absurd member List.not_mem_nil
  | cons first rest inductionHypothesis =>
      rw [writeTargetsOfEach, List.mem_append]
      rcases List.mem_cons.mp member with rfl | later
      · exact .inl target
      · exact .inr (inductionHypothesis later)

section Targets

variable {expression operand target key value : Expr} {name : String}

/-- Outside of a `lambda`, the targets are an expression's own and those of its operands. -/
theorem writeTargets_eq (ordinary : expression.head ≠ .symbol Expr.lambdaTag) :
    writeTargets expression =
      (writeTarget? expression).toList ++ writeTargetsOfEach expression.tail := by
  cases expression with
  | node head tail properties =>
      change head ≠ .symbol Expr.lambdaTag at ordinary
      rw [writeTargets, if_neg ordinary]
      rfl

theorem mem_writeTargets_of_operand (ordinary : expression.head ≠ .symbol Expr.lambdaTag)
    (member : operand ∈ expression.tail) (inside : name ∈ writeTargets operand) :
    name ∈ writeTargets expression := by
  rw [writeTargets_eq ordinary]
  exact List.mem_append_right _ (mem_writeTargetsOfEach member inside)

theorem mem_writeTargets_of_own (ordinary : expression.head ≠ .symbol Expr.lambdaTag)
    (own : writeTarget? expression = some name) : name ∈ writeTargets expression := by
  rw [writeTargets_eq ordinary, own]
  exact List.mem_append_left _ List.mem_cons_self

theorem defined_mem_writeTargets (head : expression.head = .symbol SpecialForm.define.name)
    (tail : expression.tail = [target, value]) (bare : target.bareSymbol? = some name) :
    name ∈ writeTargets expression := by
  apply mem_writeTargets_of_own
  · rw [head]
    decide
  · have form : specialForm? expression = some .define := by
      rw [specialForm?, head]
      rfl
    rw [writeTarget?, form, tail]
    exact bare

theorem annotated_mem_writeTargets
    (head : expression.head = .symbol SpecialForm.setProperty.name)
    (tail : expression.tail = [key, value, target]) (bare : target.bareSymbol? = some name) :
    name ∈ writeTargets expression := by
  apply mem_writeTargets_of_own
  · rw [head]
    decide
  · have form : specialForm? expression = some .setProperty := by
      rw [specialForm?, head]
      rfl
    rw [writeTarget?, form, tail]
    exact bare

end Targets

/-! ## Protected scopes -/

/-- What of a scope is not to be written. -/
inductive Protection where
  | nothing
  /-- One name, with what it stands for. -/
  | only (name : String) (binding : Option Binding)
  | everything (original : Environment)

namespace Protection

/-- The environment has what is protected. -/
def Holds : Protection → Environment → Prop
  | .nothing, _ => True
  | .only name binding, environment => environment.lookup name = binding
  | .everything original, environment => environment = original

/-- The name may be written. -/
def Allows : Protection → String → Prop
  | .nothing, _ => True
  | .only name _, other => name ≠ other
  | .everything _, _ => False

theorem Holds.bind {protection : Protection} {environment : Environment} {name : String}
    (holds : protection.Holds environment) (allowed : protection.Allows name) (value : Expr) :
    protection.Holds (environment.bind name value) := by
  cases protection with
  | nothing => trivial
  | only _ _ => exact (environment.lookup_bind_other value allowed).trans holds
  | everything _ => exact allowed.elim

end Protection

/-- Expressions whose targets may all be written are evaluated in scopes that have what is
protected. The scope of a function is new, and nothing of it is protected. -/
def effects : Invariant Protection where
  environments := Protection.Holds
  expressions protection expression := ∀ name ∈ writeTargets expression, protection.Allows name
  values _ := True
  functions _ _ := True
  failures _ := True
  writable := Protection.Allows
  atoms _ := True

theorem effects_laws : effects.Laws where
  atom _ := trivial
  lookup _ _ _ _ := trivial
  operands allowed ordinary operand member name inside :=
    allowed name (mem_writeTargets_of_operand ordinary member inside)
  function _ _ := trivial
  parameters _ _ _ _ _ := Invariant.checks_of_yields (fun _ => trivial) (.any _)
  defines allowed head tail bare := allowed _ (defined_mem_writeTargets head tail bare)
  annotates allowed head tail bare := allowed _ (annotated_mem_writeTargets head tail bare)
  reads _ _ _ _ := trivial
  literal _ _ := trivial
  list _ := trivial
  items _ _ _ _ := trivial
  lambdaParts _ _ := trivial
  setProperty _ _ _ := trivial
  failure _ := trivial
  define allowed holds _ _ _ := holds.bind allowed _
  annotate _ allowed holds _ _ _ := holds.bind allowed _
  procedure _ _ _ := Invariant.checks_of_yields (fun _ => trivial) (.any _)
  enter _ _ _ _ := by
    have unprotected : ∀ name, Protection.nothing.Allows name := fun _ => trivial
    exact ⟨.nothing, trivial, fun name _ => unprotected name⟩

/-- What is protected stays as it is if it is not a target. -/
theorem evaluate_protects {protection : Protection} {budget : Nat} {expression : Expr}
    {environment left : Environment} {outcome : Except Failure Expr}
    (holds : protection.Holds environment)
    (allowed : ∀ name ∈ writeTargets expression, protection.Allows name)
    (ended : evaluate budget expression environment = some (outcome, left)) :
    protection.Holds left :=
  (Invariant.evaluate_ends effects_laws allowed holds ended).2

/-- An evaluation writes only its targets. However it ends, every other name stands for what
it stood for before, and an expression without targets leaves the environment as it was,
scope by scope. -/
theorem writes_only_targets {budget : Nat} {expression : Expr}
    {environment left : Environment} {outcome : Except Failure Expr}
    (ended : evaluate budget expression environment = some (outcome, left)) :
    (∀ name, name ∉ writeTargets expression → left.lookup name = environment.lookup name) ∧
      (writeTargets expression = [] → left = environment) := by
  constructor
  · intro name untouched
    have holds : (Protection.only name (environment.lookup name)).Holds environment := rfl
    refine evaluate_protects holds (fun target member => ?_) ended
    change name ≠ target
    rintro rfl
    exact untouched member
  · intro none
    have holds : (Protection.everything environment).Holds environment := rfl
    refine evaluate_protects holds (fun target member => ?_) ended
    rw [none] at member
    exact absurd member List.not_mem_nil

/-- `(lambda (x) (begin (define y x) (set-property "k" x a)))` -/
def writingFunction : Expr :=
  .lambda ["x"] (.form (.symbol "begin")
    [.form (.symbol "define") [.leaf (.symbol "y"), .leaf (.symbol "x")],
      .form (.symbol "set-property")
        [.leaf (.string "k"), .leaf (.symbol "x"), .leaf (.symbol "a")]])

/-- An environment in which `f` is that function and `a` a string. -/
def beforeCall : Environment :=
  (Environment.initial.bind "f" writingFunction).bind "a" (.leaf (.string "first"))

/-- `(f "second")` -/
def writingCall : Expr :=
  .form (.symbol "f") [.leaf (.string "second")]

/-- What the function defines and annotates is not seen outside of it: a definition by its
call binds its own name and no other, and the call alone leaves the environment as it was. -/
theorem call_writes_nothing_outside :
    (∃ outcome left, evaluate 5 (.form (.symbol "define") [.leaf (.symbol "b"), writingCall])
        beforeCall = some (.ok outcome, left) ∧ left.lookup "y" = none ∧
        left.lookup "a" = some (.value (.leaf (.string "first")))) ∧
      (evaluate 4 writingCall beforeCall).map Prod.snd = some beforeCall := by
  obtain ⟨outcome, left, defined⟩ : ∃ outcome left,
      evaluate 5 (.form (.symbol "define") [.leaf (.symbol "b"), writingCall]) beforeCall =
        some (.ok outcome, left) := ⟨_, _, rfl⟩
  obtain ⟨outcome', left', called⟩ : ∃ outcome left,
      evaluate 4 writingCall beforeCall = some (outcome, left) := ⟨_, _, rfl⟩
  have others := (writes_only_targets defined).1
  refine ⟨⟨outcome, left, defined, ?_, ?_⟩, ?_⟩
  · exact others "y" (by decide)
  · exact others "a" (by decide)
  · rw [called, (writes_only_targets called).2 rfl]
    rfl

end Evaluation

end FormLang
