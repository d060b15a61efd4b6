import FormLang.Proofs.Evaluation.Activity
import FormLang.Proofs.Evaluation.Agreement
import FormLang.Proofs.Sessions
import FormLang.Proofs.Stripping

/-!
Contract: programs without functions always end.

What is called is chosen while a program runs: from the bindings, from the items of lists and
from properties. Yet the tag of functions is made by no special form and by no procedure, so
where neither the program nor anything in sight has it, nothing that is called has a body. Then
evaluations are nested along the tree of the program only.

Owns: trees and environments without functions, the invariant that bounds the nesting by the
height of the tree, and the theorem about evaluations and sessions of such programs.
-/

set_option autoImplicit false

namespace FormLang

/-- No node of a tree or of its properties is tagged as a function. -/
def Expr.FunctionFree (expression : Expr) : Prop :=
  lambdaTag ∉ expression.symbols

instance (expression : Expr) : Decidable expression.FunctionFree :=
  inferInstanceAs (Decidable (_ ∉ _))

namespace Expr.FunctionFree

variable {expression entry : Expr} {head : Atom} {items : List Expr}

theorem everywhere_iff :
    expression.FunctionFree ↔ expression.Everywhere fun head _ => head ≠ .symbol lambdaTag :=
  not_mem_symbols_iff

theorem head_ne (free : expression.FunctionFree) : expression.head ≠ .symbol lambdaTag :=
  (everywhere_iff.mp free).here

theorem child (free : expression.FunctionFree) :
    ∀ child ∈ expression.tail, child.FunctionFree :=
  fun child member => everywhere_iff.mpr ((everywhere_iff.mp free).children child member)

theorem leaf (untagged : head ≠ .symbol lambdaTag) : (Expr.leaf head).FunctionFree :=
  everywhere_iff.mpr (.leaf untagged)

theorem literal (plain : head.symbol? = none) : (Expr.leaf head).FunctionFree := by
  apply leaf
  rintro rfl
  cases plain

theorem list (free : ∀ item ∈ items, item.FunctionFree) : (Expr.list items).FunctionFree :=
  everywhere_iff.mpr (.form (by decide) fun item member => everywhere_iff.mp (free item member))

theorem property (free : expression.FunctionFree) (key : String) :
    (expression.property key).FunctionFree :=
  everywhere_iff.mpr ((everywhere_iff.mp free).property (by decide) key)

theorem setProperty (key : String) (free : expression.FunctionFree)
    (entryFree : entry.FunctionFree) : (expression.setProperty key entry).FunctionFree :=
  everywhere_iff.mpr ((everywhere_iff.mp free).setProperty key (everywhere_iff.mp entryFree))

theorem lambdaParts? (free : expression.FunctionFree) : expression.lambdaParts? = none := by
  cases parts : expression.lambdaParts? with
  | none => rfl
  | some pair =>
      obtain ⟨_, tagged, _⟩ := lambdaParts?_eq_some parts
      exact absurd tagged free.head_ne

end Expr.FunctionFree

/-- No value that a name stands for has a function anywhere in it. -/
def Environment.FunctionFree (environment : Environment) : Prop :=
  environment.Sees fun _ value => value.FunctionFree

theorem Environment.Binds.functionFree {environment : Environment}
    (binds : environment.Binds Expr.FunctionFree) : environment.FunctionFree :=
  fun _ _ found => binds.lookup found

theorem Environment.initial_functionFree : Environment.initial.FunctionFree :=
  (initial_binds .literal).functionFree

/-- A text that is a program is one without functions. -/
def Source.FunctionFree (text : String) : Prop :=
  ∀ program, Source.read text = .ok program → program.strip.FunctionFree

namespace Evaluation

open Correspondence

/-! ## What is kept -/

/-- A condition on environments under which no function is in sight, and which binding a
value without functions keeps. -/
structure Bars (holds : Environment → Prop) : Prop where
  lookup : ∀ {environment name value}, holds environment →
    environment.lookup name = some (.value value) → value.FunctionFree
  bind : ∀ {environment value} (name : String), holds environment → value.FunctionFree →
    holds (environment.bind name value)

/-- It is enough to look at what is in sight. -/
theorem bars_functionFree : Bars Environment.FunctionFree where
  lookup free found := free _ _ found
  bind _ free valueFree := Environment.Sees.bind free valueFree

/-- Bindings that are covered by nearer ones may be included. -/
theorem bars_binds : Bars (Environment.Binds Expr.FunctionFree) where
  lookup binds found := binds.lookup found
  bind name binds free := binds.bind name free

/-- Expressions without functions, of a height up to the bound, are evaluated where no function
is in sight. Their own properties do not count: evaluation leaves these behind. -/
def functionFree (holds : Environment → Prop) : Invariant Nat where
  environments _ := holds
  expressions bound expression := expression.strip.FunctionFree ∧ expression.strip.depth ≤ bound
  values := Expr.FunctionFree
  functions _ _ := False
  failures _ := True
  writable _ _ := True
  atoms _ := True

variable {holds : Environment → Prop} {bound : Nat} {expression : Expr}

theorem untagged_of_strip (free : expression.strip.FunctionFree) :
    expression.head ≠ .symbol Expr.lambdaTag := by
  rw [← Expr.head_strip]
  exact free.head_ne

/-- An expression that is evaluated is higher than its operands. -/
theorem operands_below (sound : (functionFree holds).expressions bound expression) :
    ∃ below, bound = below + 1 ∧
      ∀ operand ∈ expression.tail, (functionFree holds).expressions below operand := by
  obtain ⟨free, height⟩ := sound
  obtain ⟨below, same, heights⟩ := Expr.exists_budget_behind_strip height
  exact ⟨below, same, fun operand member =>
    ⟨Expr.not_mem_symbols_strip_child free member, heights operand member⟩⟩

theorem functionFree_laws (bars : Bars holds) : (functionFree holds).Laws where
  atom _ := trivial
  lookup _ _ kept found := bars.lookup kept found
  operands := by
    intro bound expression sound _ operand member
    obtain ⟨below, rfl, operands⟩ := operands_below sound
    obtain ⟨free, height⟩ := operands operand member
    exact ⟨free, Nat.le_succ_of_le height⟩
  function := by
    intro bound expression sound isFunction
    obtain ⟨⟨names, body⟩, parts⟩ := Option.isSome_iff_exists.mp isFunction
    obtain ⟨_, tagged, _⟩ := Expr.lambdaParts?_eq_some parts
    exact absurd tagged (untagged_of_strip sound.1)
  parameters sound tagged _ _ _ := absurd tagged (untagged_of_strip sound.1)
  defines _ _ _ _ := trivial
  annotates _ _ _ _ := trivial
  reads key _ _ free := free.property key
  literal _ plain := .literal plain
  list := .list
  items free _ := free.child
  lambdaParts free parts := by
    rw [free.lambdaParts?] at parts
    cases parts
  setProperty := .setProperty
  failure _ := trivial
  define _ kept free _ _ := bars.bind _ kept free
  annotate key _ kept boundFree free _ := bars.bind _ kept (boundFree.setProperty key free)
  procedure builtIn operands known := by
    exact Invariant.checks_of_yields (fun _ => trivial) (Procedure.apply_yields
      (fun free _ => free.child) (fun number => .literal number.symbol?) .list known builtIn)
  enter impossible := impossible.elim

/-! ## How deep evaluations are nested -/

/-- One level below an expression, only its operands are left to be evaluated. -/
theorem admits_below (bars : Bars holds)
    (sound : (functionFree holds).expressions (bound + 1) expression) :
    (functionFree holds).diagonal.Admits bound expression expression := by
  have admits := Invariant.diagonal_admits (functionFree_laws bars) sound
  obtain ⟨below, same, operands⟩ := operands_below sound
  cases same
  exact {
    shows := ⟨admits.shows.head, admits.shows.isLeaf, admits.shows.atom, admits.shows.lookup⟩
    operands := fun _ => Invariant.diagonal_forall₂.mpr ⟨rfl, operands⟩
    isLambda := admits.isLambda
    function := admits.function
    makes := admits.makes
    defines := admits.defines
    annotates := admits.annotates
    reads := admits.reads }

/-- What an evaluation starts lies one level below it, and is no call of a function. -/
theorem starts_below (bars : Bars holds) {environment : Environment} {inner : Activity}
    (starts : Starts (.evaluation expression environment) inner)
    (keeps : (functionFree holds).KeepsIn bound (.evaluation expression environment)) :
    ∃ below, bound = below + 1 ∧ (functionFree holds).KeepsIn below inner := by
  obtain ⟨below, rfl, operands⟩ := operands_below keeps.1
  refine ⟨below, rfl, ?_⟩
  cases inner with
  | evaluation operand current =>
      exact Invariant.starts_evaluation_of_admits (functionFree_laws bars) starts
        (admits_below bars keeps.1) keeps.2
  | call callee operands current =>
      have called : (functionFree holds).KeepsIn (below + 1) (.call callee operands current) :=
        Invariant.starts_call (functionFree_laws bars) starts keeps
      exact called

/-- A call starts nothing, as it is a call of a procedure. -/
theorem not_starts_of_call {callee : Callee} {operands : List Expr} {environment : Environment}
    {inner : Activity}
    (keeps : (functionFree holds).KeepsIn bound (.call callee operands environment)) :
    ¬ Starts (.call callee operands environment) inner := by
  intro starts
  cases starts with
  | body fits => exact keeps.1

/-- An activity is an evaluation, and no call. -/
def Activity.isEvaluation : Activity → Bool
  | .evaluation _ _ => true
  | .call _ _ _ => false

/-- A chain of activities, each started by the one before, has no more evaluations than there
are levels. -/
theorem evaluations_le_of_isChain (bars : Bars holds) {outer : Activity} {inners : List Activity}
    (keeps : (functionFree holds).KeepsIn bound outer)
    (chain : List.IsChain Starts (outer :: inners)) :
    (outer :: inners).countP Activity.isEvaluation ≤ bound := by
  induction inners generalizing outer bound with
  | nil =>
      cases outer with
      | evaluation expression environment =>
          obtain ⟨below, rfl, -⟩ := operands_below keeps.1
          exact Nat.succ_le_succ (Nat.zero_le below)
      | call callee operands environment => exact Nat.zero_le bound
  | cons inner inners inductionHypothesis =>
      obtain ⟨starts, rest⟩ := List.isChain_cons_cons.mp chain
      cases outer with
      | evaluation expression environment =>
          obtain ⟨below, rfl, keepsInner⟩ := starts_below bars starts keeps
          rw [List.countP_cons_of_pos rfl]
          exact Nat.succ_le_succ (inductionHypothesis keepsInner rest)
      | call callee operands environment => exact absurd starts (not_starts_of_call keeps)

/-! ## Evaluations end -/

/-- A call ends, as it is a call of a procedure. -/
theorem callLinked_finishes (bars : Bars holds) (budget : Nat) {callee callee' : Callee}
    {operands operands' : List Expr}
    (callees : (functionFree holds).diagonal.Callees callee callee')
    (values : List.Forall₂ (functionFree holds).diagonal.values operands operands') :
    (functionFree holds).diagonal.Finish bound (functionFree holds).diagonal.values
      (callLinked budget callee operands) (callLinked budget callee' operands') := by
  refine ⟨Invariant.callLinked_matches (functionFree_laws bars) budget callees values, ?_⟩
  cases callees with
  | procedure builtIn => exact fun _ _ _ => rfl
  | lambda parameters functions => exact functions.2.elim

/-- Evaluations end within a budget of the height of the tree. -/
theorem evaluate_finishes (bars : Bars holds) (bound : Nat) {expression expression' : Expr}
    (belong : (functionFree holds).diagonal.expressions bound expression expression') :
    (functionFree holds).diagonal.Finish bound (functionFree holds).diagonal.values
      (evaluate bound expression) (evaluate bound expression') := by
  have laws := functionFree_laws bars
  refine ⟨Invariant.evaluate_matches laws bound belong, ?_⟩
  induction bound generalizing expression expression' with
  | zero =>
      obtain ⟨below, impossible, -⟩ := operands_below belong.2
      cases impossible
  | succ below inductionHypothesis =>
      obtain ⟨rfl, sound⟩ := belong
      -- The rules only need the end of what lies one level below.
      have level := step_matches (Invariant.diagonal_laws laws)
        (finishing (Invariant.diagonal_laws laws))
        (fun belong => ⟨Invariant.evaluate_matches laws below belong, inductionHypothesis belong⟩)
        (callLinked_finishes bars below) (admits_below bars sound)
      exact level.2

/-- How the evaluation of an expression without functions ends, and that bindings and result
have none either. -/
theorem evaluate_ends_functionFree (bars : Bars holds) {environment : Environment}
    (free : expression.strip.FunctionFree) (kept : holds environment) :
    ∃ outcome left,
      (∀ budget, expression.strip.depth ≤ budget →
        evaluate budget expression environment = some (outcome, left)) ∧
      (∀ value, outcome = .ok value → value.FunctionFree) ∧ holds left := by
  have sound : (functionFree holds).expressions expression.strip.depth expression :=
    ⟨free, Nat.le_refl _⟩
  have finishes := evaluate_finishes bars expression.strip.depth ⟨rfl, sound⟩
  obtain ⟨⟨outcome, left⟩, ended⟩ :=
    Option.isSome_iff_exists.mp (finishes.2 environment environment ⟨rfl, kept⟩)
  obtain ⟨checks, keptLeft⟩ := Invariant.evaluate_ends (functionFree_laws bars) sound kept ended
  refine ⟨outcome, left, fun budget enough => evaluate_mono enough ended, ?_, keptLeft⟩
  rintro value rfl
  exact checks

/-- What is known of the evaluation of an expression in an environment, when no function is
near: it ends, its nesting is bounded by the tree, and no function comes up. The properties of
the expression itself count neither for its height nor for what it holds. -/
structure Contained (expression : Expr) (environment : Environment) : Prop where
  /-- It ends, in one way within every budget that is at least the height of the tree, and
  neither the result nor a visible binding has a function, nor a hidden one if none had one
  before. -/
  ends : ∃ outcome left,
    (∀ budget, expression.strip.depth ≤ budget →
      evaluate budget expression environment = some (outcome, left)) ∧
    (∀ value, outcome = .ok value → value.FunctionFree) ∧ left.FunctionFree ∧
    (environment.Binds Expr.FunctionFree → left.Binds Expr.FunctionFree)
  /-- No more evaluations are nested in one another than the tree is high. -/
  nested : ∀ inners : List Activity,
    List.IsChain Starts (.evaluation expression environment :: inners) →
    (Activity.evaluation expression environment :: inners).countP Activity.isEvaluation ≤
      expression.strip.depth
  /-- Whatever is called on the way is a procedure. -/
  procedures : ∀ {callee operands scope},
    Within (.evaluation expression environment) (.call callee operands scope) →
    ∃ builtIn, callee = .procedure builtIn

theorem contained {environment : Environment} (free : expression.strip.FunctionFree)
    (scope : environment.FunctionFree) : Contained expression environment where
  ends := by
    obtain ⟨outcome, left, ended, result, leftFree⟩ :=
      evaluate_ends_functionFree bars_functionFree free scope
    refine ⟨outcome, left, ended, result, leftFree, fun binds => ?_⟩
    obtain ⟨outcome', left', ended', -, leftBinds⟩ :=
      evaluate_ends_functionFree bars_binds free binds
    have same := (ended _ (Nat.le_refl _)).symm.trans (ended' _ (Nat.le_refl _))
    cases same
    exact leftBinds
  nested inners chain :=
    evaluations_le_of_isChain bars_functionFree ⟨⟨free, Nat.le_refl _⟩, scope⟩ chain
  procedures := by
    intro callee operands current within
    have keeps : (functionFree Environment.FunctionFree).KeepsIn expression.strip.depth
        (.evaluation expression environment) := ⟨⟨free, Nat.le_refl _⟩, scope⟩
    obtain ⟨_, callees, -, -⟩ :=
      Invariant.within_keeps (functionFree_laws bars_functionFree) within keeps
    cases callee with
    | procedure builtIn => exact ⟨builtIn, rfl⟩
    | lambda parameters body => exact callees.elim

/-! ## Sessions -/

section Sessions

variable {session left : Session}

/-- A program without functions ends. -/
theorem run_functionFree {text : String} (reads : Source.FunctionFree text)
    (free : session.environment.FunctionFree) :
    ∃ budget outcome left, session.run budget text = some (outcome, left) := by
  cases read : Source.read text with
  | error error => exact ⟨0, .error (.syntactic error), ⟨session.environment, none⟩, by
      rw [Session.run, Session.load, read]⟩
  | ok program =>
      obtain ⟨outcome, environment, ended, -⟩ :=
        (contained (reads program read) free).ends
      refine ⟨program.strip.depth, outcome.mapError .semantic, ⟨environment, some program⟩, ?_⟩
      rw [Session.run_of_read read, ended _ (Nat.le_refl _)]
      rfl

theorem run_keeps_functionFree {budget : Nat} {text : String}
    {outcome : Except ProgramError Expr} (reads : Source.FunctionFree text)
    (free : session.environment.FunctionFree)
    (ran : session.run budget text = some (outcome, left)) :
    left.environment.FunctionFree ∧ ∀ value, outcome = .ok value → value.FunctionFree := by
  refine Session.run_keeps (fun {program _} read ended => ?_) free ran
  have sound : (functionFree Environment.FunctionFree).expressions program.strip.depth program :=
    ⟨reads program read, Nat.le_refl _⟩
  obtain ⟨checks, kept⟩ :=
    Invariant.evaluate_ends (functionFree_laws bars_functionFree) sound free ended
  exact ⟨kept, checks.result⟩

/-- All programs of a sequence end. -/
theorem exists_runs_functionFree {texts : List String}
    (reads : ∀ text ∈ texts, Source.FunctionFree text)
    (free : session.environment.FunctionFree) :
    ∃ outcomes left, outcomes.map Prod.fst = texts ∧ session.Runs outcomes left := by
  induction texts generalizing session with
  | nil => exact ⟨[], session, rfl, .none session⟩
  | cons text texts inductionHypothesis =>
      obtain ⟨first, others⟩ := List.forall_mem_cons.mp reads
      obtain ⟨budget, outcome, next, ran⟩ := run_functionFree first free
      obtain ⟨nextFree, -⟩ := run_keeps_functionFree first free ran
      obtain ⟨outcomes, left, rfl, runs⟩ := inductionHypothesis others nextFree
      exact ⟨(text, outcome) :: outcomes, left, rfl, .program budget ran runs⟩

end Sessions

/-- Programs without functions always end. Where no visible value has a function in it, the
evaluation of any expression without functions ends, within the height of its tree, without a
call of a function, and leaves no function behind. So in a session all programs without
functions end, one after the other, none of them yields or binds a function, and whatever
expression without functions comes next is contained again. -/
theorem function_free_programs_end {environment : Environment}
    (free : environment.FunctionFree) :
    (∀ expression, expression.strip.FunctionFree → Contained expression environment) ∧
    ∀ session : Session, session.environment = environment →
      ∀ texts, (∀ text ∈ texts, Source.FunctionFree text) →
        (∃ outcomes left, outcomes.map Prod.fst = texts ∧ session.Runs outcomes left) ∧
        ∀ outcomes left, outcomes.map Prod.fst = texts → session.Runs outcomes left →
          (∀ text value, (text, .ok value) ∈ outcomes → value.FunctionFree) ∧
          left.environment.FunctionFree ∧
          ∀ expression, expression.strip.FunctionFree → Contained expression left.environment := by
  refine ⟨fun expression expressionFree => contained expressionFree free, ?_⟩
  rintro session rfl texts reads
  refine ⟨exists_runs_functionFree reads free, ?_⟩
  rintro outcomes left rfl runs
  obtain ⟨leftFree, results⟩ := runs.keep
    run_keeps_functionFree (fun text outcome member => reads text (List.mem_map_of_mem member)) free
  refine ⟨fun text value member => results text (.ok value) member value rfl, leftFree, ?_⟩
  exact fun expression expressionFree => contained expressionFree leftFree

/-- The first items of lists, one of which stands in a property of a definition. -/
def firstItems : List String :=
  ["(define x (set-property \"key\" (list \"a\") \"b\"))",
    "(map first (list (get-property \"key\" x)))"]

/-- The second of these texts, with the list in place. -/
def firstOfList : Expr :=
  .form (.symbol "map") [.leaf (.symbol "first"), .list [.list [.leaf (.string "a")]]]

/-- A procedure that is mapped over a list ends within four levels, and a session ends all the
same where the list comes from a property. -/
theorem first_items_end : Environment.initial.FunctionFree ∧ firstOfList.strip.FunctionFree ∧
    (∀ budget, 4 ≤ budget → evaluate budget firstOfList Environment.initial =
      some (.ok (.list [.leaf (.string "a")]), Environment.initial)) ∧
    ∃ outcomes left, outcomes.map Prod.fst = firstItems ∧ Session.fresh.Runs outcomes left ∧
      left.environment.FunctionFree := by
  have programFree : firstOfList.strip.FunctionFree := by decide
  have reads : ∀ text ∈ firstItems, Source.FunctionFree text := by
    have first : Source.read "(define x (set-property \"key\" (list \"a\") \"b\"))" =
        .ok (.form (.symbol "define") [.leaf (.symbol "x"), .form (.symbol "set-property")
          [.leaf (.string "key"), .list [.leaf (.string "a")], .leaf (.string "b")]]) := by
      decide +kernel
    have second : Source.read "(map first (list (get-property \"key\" x)))" =
        .ok (.form (.symbol "map") [.leaf (.symbol "first"), .list [.form (.symbol "get-property")
          [.leaf (.string "key"), .leaf (.symbol "x")]]]) := by
      decide +kernel
    simp only [firstItems, List.forall_mem_cons, List.not_mem_nil, false_implies, implies_true,
      and_true]
    refine ⟨fun program read => ?_, fun program read => ?_⟩
    · cases first.symm.trans read
      decide
    · cases second.symm.trans read
      decide
  obtain ⟨contains, sessions⟩ := function_free_programs_end Environment.initial_functionFree
  refine ⟨Environment.initial_functionFree, programFree, ?_, ?_⟩
  · obtain ⟨outcome, left, ended, -⟩ := (contains firstOfList programFree).ends
    have known : evaluate 4 firstOfList Environment.initial =
        some (.ok (.list [.leaf (.string "a")]), Environment.initial) := rfl
    cases (ended 4 (by decide)).symm.trans known
    exact ended
  · obtain ⟨⟨outcomes, left, same, runs⟩, keeps⟩ := sessions Session.fresh rfl firstItems reads
    exact ⟨outcomes, left, same, runs, (keeps outcomes left same runs).2.1⟩

end Evaluation

end FormLang
