import FormLang.Proofs.Evaluation.Activity
import FormLang.Proofs.Procedures
import FormLang.Proofs.Sessions
import FormLang.Proofs.Values

/-!
Contract: evaluation only ever produces values.

Owns: the invariant that plain expressions are evaluated among values whose functions have
plain bodies, and the theorem about all that a session produces on its way.
-/

set_option autoImplicit false

namespace FormLang

namespace Evaluation

/-- Plain expressions are evaluated where all that is bound are values with plain bodies. -/
def soundness : Invariant Unit where
  environments _ := Environment.Binds (Expr.ValueOver Expr.Plain)
  expressions _ := Expr.Plain
  values := Expr.ValueOver Expr.Plain
  functions _ := Expr.Plain
  failures _ := True
  writable _ _ := True
  atoms _ := True

variable {expression value : Expr} {environment : Environment}

/-- A function that stands in a program is a value. -/
theorem function_of_plain (plain : expression.Plain) (isFunction : expression.isLambda = true) :
    expression.ValueOver Expr.Plain := by
  obtain ⟨⟨names, body⟩, parts⟩ := Option.isSome_iff_exists.mp isFunction
  obtain ⟨parameters, head, tail, tagged, read⟩ := Expr.lambdaParts?_eq_some parts
  have bare := Expr.bareSymbols_of_mapM read
  have known : body.Plain := by
    apply plain.tail
    rw [tail]
    exact List.mem_cons_of_mem _ List.mem_cons_self
  cases plain with
  | node other children =>
      cases head
      cases tail
      exact .function tagged bare known fun _ member => absurd member List.not_mem_nil

theorem soundness_laws : soundness.Laws where
  atom _ := trivial
  lookup _ _ binds found := binds.lookup found
  operands plain _ := plain.tail
  function := function_of_plain
  parameters := by
    intro _ expression names body environment plain _ _ tail _
    have known : body.Plain := by
      apply plain.tail
      rw [tail]
      exact List.mem_cons_of_mem _ List.mem_cons_self
    exact Invariant.checks_of_yields (fun _ => trivial) fun accepted _ => .ofBody accepted known
  defines _ _ _ _ := trivial
  annotates _ _ _ _ := trivial
  reads key _ _ holds := holds.property key
  literal _ plain := .leaf plain
  list := .ofItems
  items := .items
  lambdaParts holds parts := holds.lambdaBody parts
  setProperty := .setProperty
  failure _ := trivial
  define _ binds holds _ _ := binds.bind _ holds
  annotate key _ binds boundHolds holds _ := binds.bind _ (boundHolds.setProperty key holds)
  procedure builtIn operands known := by
    exact Invariant.checks_of_yields (fun _ => trivial) (Procedure.apply_yields
      Expr.ValueOver.items (fun number => .leaf number.symbol?) Expr.ValueOver.ofItems known builtIn)
  enter plain binds known _ := ⟨(), binds.enter _ known, plain⟩

/-- A program keeps the bindings of a session sound, and its outcome is a value or an
error. -/
theorem run_sound {session left : Session} {budget : Nat} {text : String}
    {outcome : Except ProgramError Expr}
    (binds : session.environment.Binds (Expr.ValueOver Expr.Plain))
    (ran : session.run budget text = some (outcome, left)) :
    left.environment.Binds (Expr.ValueOver Expr.Plain) ∧
      ∀ value, outcome = .ok value → value.ValueOver Expr.Plain := by
  refine Session.run_keeps (fun read ended => ?_) binds ran
  have scope : soundness.environments () session.environment := binds
  obtain ⟨checks, environments⟩ :=
    Invariant.evaluate_ends soundness_laws (Source.read_plain read) scope ended
  exact ⟨environments, checks.result⟩

/-- A sequence of programs keeps the bindings of a session sound, and its outcomes are
values or errors. -/
theorem runs_sound {session left : Session}
    {outcomes : List (String × Except ProgramError Expr)}
    (binds : session.environment.Binds (Expr.ValueOver Expr.Plain))
    (runs : session.Runs outcomes left) :
    left.environment.Binds (Expr.ValueOver Expr.Plain) ∧
      ∀ text value, (text, .ok value) ∈ outcomes → value.ValueOver Expr.Plain := by
  obtain ⟨bindsLast, results⟩ :=
    runs.keep (fun (_ : True) => run_sound) (fun _ _ _ => trivial) binds
  exact ⟨bindsLast, fun text value member => results text (.ok value) member value rfl⟩

/-- All that an activity finds is accepted: what is bound in its scopes, and the operands
of a call. -/
def Activity.Finds (accepted : Expr → Prop) : Activity → Prop
  | .evaluation _ environment => environment.Binds accepted
  | .call _ operands environment =>
      (∀ operand ∈ operands, accepted operand) ∧ environment.Binds accepted

theorem finds_of_keepsIn {activity : Activity} (keeps : soundness.KeepsIn () activity) :
    activity.Finds Expr.IsValue := by
  cases activity with
  | evaluation expression environment =>
      exact keeps.2.mono fun _ holds => Expr.ValueOver.isValue holds
  | call callee operands environment =>
      obtain ⟨-, known, binds⟩ := keeps
      exact ⟨fun operand member => (known operand member).isValue,
        binds.mono fun _ holds => Expr.ValueOver.isValue holds⟩

/-- Evaluation only ever produces values. After any sequence of programs, every outcome is
a value or an error, and all that is bound are values. Within the evaluation of the next
program, every activity finds nothing but values in its scopes and among its operands, and
if it ends, with a value or a failure, it leaves nothing but values behind. -/
theorem produces_values {outcomes : List (String × Except ProgramError Expr)} {session : Session}
    (runs : Session.fresh.Runs outcomes session) :
    (∀ text value, (text, .ok value) ∈ outcomes → value.IsValue) ∧
      session.environment.Binds Expr.IsValue ∧
      ∀ text program, Source.read text = .ok program →
        ∀ activity, Within (.evaluation program session.environment) activity →
          activity.Finds Expr.IsValue ∧
            ∀ budget outcome left, activity.ending budget = some (outcome, left) →
              (∀ value, outcome = .ok value → value.IsValue) ∧ left.Binds Expr.IsValue := by
  have start : Session.fresh.environment.Binds (Expr.ValueOver Expr.Plain) :=
    Environment.initial_binds .leaf
  obtain ⟨binds, results⟩ := runs_sound start runs
  refine ⟨fun text value member => (results text value member).isValue,
    binds.mono fun _ holds => holds.isValue, ?_⟩
  intro text program read activity within
  have sound : soundness.KeepsIn () (.evaluation program session.environment) :=
    ⟨Source.read_plain read, binds⟩
  obtain ⟨⟨⟩, keeps⟩ := Invariant.within_keeps soundness_laws within sound
  refine ⟨finds_of_keepsIn keeps, fun budget outcome left ended => ?_⟩
  obtain ⟨checks, environments⟩ := Invariant.ending_ends soundness_laws keeps ended
  refine ⟨fun value same => ?_, environments.mono fun _ holds => Expr.ValueOver.isValue holds⟩
  subst same
  exact Expr.ValueOver.isValue checks

/-- The function that gives back its operand. -/
def identityFunction : Expr :=
  .lambda ["x"] (.leaf (.symbol "x"))

/-- A session that has defined the function. -/
def identitySession : Session :=
  ⟨Environment.initial.bind "f" identityFunction,
    some (.form (.symbol "define") [.leaf (.symbol "f"),
      .form (.symbol "lambda") [.leaf (.symbol "x"), .leaf (.symbol "x")]])⟩

/-- Defining a function and calling it binds values only, in the session and in the scope
of the call. -/
theorem identity_produces_values :
    identityFunction.IsValue ∧ identitySession.environment.Binds Expr.IsValue ∧
      (Activity.evaluation (.leaf (.symbol "x"))
        (identitySession.environment.enter ["x"] [.leaf (.string "")])).Finds Expr.IsValue := by
  have define : Session.fresh.run 2 "(define f (lambda (x) x))" =
      some (.ok identityFunction, identitySession) := by
    have read : Source.read "(define f (lambda (x) x))" = .ok (.form (.symbol "define")
        [.leaf (.symbol "f"),
          .form (.symbol "lambda") [.leaf (.symbol "x"), .leaf (.symbol "x")]]) := by
      decide +kernel
    unfold Session.run Session.load
    rw [read]
    rfl
  have read : Source.read "(f \"\")" =
      .ok (.form (.symbol "f") [.leaf (.string "")]) := by
    decide +kernel
  obtain ⟨results, binds, within⟩ := produces_values (.program 2 define (.none identitySession))
  have called : Starts (.evaluation (.form (.symbol "f") [.leaf (.string "")])
      identitySession.environment) (.call (.lambda ["x"] (.leaf (.symbol "x")))
        [.leaf (.string "")] identitySession.environment) :=
    .call 1 fun failure => rfl
  refine ⟨results _ _ List.mem_cons_self, binds, ?_⟩
  exact (within _ _ read _ (.tail (.single called) (.body rfl))).1

end Evaluation

end FormLang
