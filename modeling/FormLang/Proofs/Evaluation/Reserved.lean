import FormLang.Proofs.Evaluation.Activity
import FormLang.Proofs.Procedures
import FormLang.Proofs.Sessions
import FormLang.Proofs.Values

/-!
Contract: what becomes of the names of procedures and special forms.

A definition refuses these names, and the form that makes a function refuses them as
parameters. But an expression that has the shape of a function already is taken as it
stands, with whatever parameters. So the names are safe in the scope of a session, and in
the scope of a call as long as the function called was not written down ready-made.

Owns: the reserved names, the environments that keep them, the programs in which no
ready-made function takes them, and the theorem on which scopes of a session keep them.
-/

set_option autoImplicit false

namespace FormLang

/-- The name of a special form or of a procedure. -/
def IsReserved (name : String) : Prop :=
  (∃ form : SpecialForm, form.name = name) ∨ ∃ builtIn : Procedure, builtIn.name = name

theorem SpecialForm.named?_name (form : SpecialForm) :
    SpecialForm.named? form.name = some form := by
  cases form <;> rfl

/-! ## Environments that keep the reserved names -/

/-- Every procedure's name stands for the procedure, and no special form's name stands for
anything. -/
structure Environment.KeepsReserved (environment : Environment) : Prop where
  procedure : ∀ builtIn : Procedure,
    environment.lookup builtIn.name = some (.procedure builtIn)
  form : ∀ form : SpecialForm, environment.lookup form.name = none

namespace Environment.KeepsReserved

variable {environment : Environment} {name : String}

theorem initial : Environment.initial.KeepsReserved where
  procedure builtIn := by cases builtIn <;> rfl
  form form := by cases form <;> rfl

theorem frame (keeps : environment.KeepsReserved) : environment.frame.KeepsReserved where
  procedure builtIn := by rw [lookup_frame, keeps.procedure]
  form form := by rw [lookup_frame, keeps.form]

theorem bind (keeps : environment.KeepsReserved) (ordinary : ¬ IsReserved name) (value : Expr) :
    (environment.bind name value).KeepsReserved where
  procedure builtIn := by
    have different : builtIn.name ≠ name := fun same => ordinary (.inr ⟨builtIn, same⟩)
    rw [lookup_bind_other environment value different, keeps.procedure]
  form form := by
    have different : form.name ≠ name := fun same => ordinary (.inl ⟨form, same⟩)
    rw [lookup_bind_other environment value different, keeps.form]

theorem bindAll {bindings : List (String × Expr)} (keeps : environment.KeepsReserved)
    (ordinary : ∀ binding ∈ bindings, ¬ IsReserved binding.1) :
    (environment.bindAll bindings).KeepsReserved := by
  induction bindings generalizing environment with
  | nil => exact keeps
  | cons first rest inductionHypothesis =>
      exact inductionHypothesis (keeps.bind (ordinary first List.mem_cons_self) first.2)
        (fun binding member => ordinary binding (List.mem_cons_of_mem first member))

theorem enter {parameters : List String} (keeps : environment.KeepsReserved)
    (ordinary : ∀ name ∈ parameters, ¬ IsReserved name) (operands : List Expr) :
    (environment.enter parameters operands).KeepsReserved := by
  rw [enter_eq_bindAll]
  exact keeps.frame.bindAll fun binding member =>
    ordinary binding.1 (List.of_mem_zip member).1

/-- What can be defined is not reserved. -/
theorem ordinary_of_unbound (keeps : environment.KeepsReserved)
    (special : SpecialForm.named? name = none) (unbound : environment.lookup name = none) :
    ¬ IsReserved name := by
  rintro (⟨form, rfl⟩ | ⟨builtIn, rfl⟩)
  · rw [form.named?_name] at special
    cases special
  · rw [keeps.procedure] at unbound
    cases unbound

/-- What stands for a value is not reserved. -/
theorem ordinary_of_value {value : Expr} (keeps : environment.KeepsReserved)
    (found : environment.lookup name = some (.value value)) : ¬ IsReserved name := by
  rintro (⟨form, rfl⟩ | ⟨builtIn, rfl⟩)
  · rw [keeps.form] at found
    cases found
  · rw [keeps.procedure] at found
    cases found

end Environment.KeepsReserved

/-- Behind a run of bindings, each of their names stands for a value. -/
theorem Environment.lookup_bindAll_of_mem (environment : Environment) {name : String}
    {value : Expr} {bindings : List (String × Expr)} (member : (name, value) ∈ bindings) :
    ∃ last, (environment.bindAll bindings).lookup name = some (.value last) := by
  induction bindings generalizing environment with
  | nil => exact absurd member List.not_mem_nil
  | cons first rest inductionHypothesis =>
      rcases List.mem_cons.mp member with rfl | later
      · rcases lookup_bindAll_cases (environment.bind name value) rest name with
          ⟨last, -, found⟩ | unchanged
        · exact ⟨last, found⟩
        · exact ⟨value, by rw [bindAll_cons, unchanged, lookup_bind_same]⟩
      · exact inductionHypothesis (environment.bind first.1 first.2) later

namespace Evaluation

/-- Parameters that are accepted where the reserved names are kept are not reserved. -/
theorem ordinary_of_checkParameters {environment : Environment}
    (keeps : environment.KeepsReserved) {names : List (Option String)} {accepted : List String}
    (checked : checkParameters environment names = .ok accepted) :
    ∀ name ∈ accepted, ¬ IsReserved name := by
  intro name member
  obtain ⟨special, plain⟩ := (checkParameters_eq_ok checked).2 name member
  rintro (⟨form, rfl⟩ | ⟨builtIn, rfl⟩)
  · rw [form.named?_name] at special
    cases special
  · rw [Environment.procedure?, keeps.procedure] at plain
    cases plain

/-! ## Within a scope the reserved names are kept -/

/-- The reserved names are kept where that is demanded, which it is not in the scopes of
calls. -/
def guarded : Invariant Bool where
  environments demanded environment := demanded = true → environment.KeepsReserved
  expressions _ _ := True
  values _ := True
  functions _ _ := True
  failures _ := True
  writable _ _ := True
  atoms _ := True

theorem guarded_laws : guarded.Laws :=
  Invariant.ofEnvironments_laws
    (fun value keeps special unbound demanded =>
      (keeps demanded).bind ((keeps demanded).ordinary_of_unbound special unbound) value)
    (fun _ _ keeps found demanded =>
      (keeps demanded).bind ((keeps demanded).ordinary_of_value found) _)
    (fun _ _ _ => ⟨false, fun demanded => (Bool.false_ne_true demanded).elim⟩)

/-- The environment in which an activity begins. -/
def Activity.environment : Activity → Environment
  | .evaluation _ environment => environment
  | .call _ _ environment => environment

/-- Where only environments count, an activity is as sound as the one in which it begins. -/
theorem Invariant.keepsIn_ofEnvironments {World : Type}
    {environments : World → Environment → Prop} {world : World} {activity : Activity} :
    (ofEnvironments environments).KeepsIn world activity ↔
      environments world activity.environment := by
  cases activity with
  | evaluation expression environment => exact ⟨And.right, fun sound => ⟨trivial, sound⟩⟩
  | call callee operands environment =>
      refine ⟨fun keeps => keeps.2.2, fun sound => ⟨?_, fun _ _ => trivial, sound⟩⟩
      cases callee <;> trivial

theorem keepsIn_of_keepsReserved {activity : Activity}
    (keeps : activity.environment.KeepsReserved) : guarded.KeepsIn true activity :=
  Invariant.keepsIn_ofEnvironments.mpr fun _ => keeps

/-- An activity leaves the reserved names as it finds them. -/
theorem ending_keepsReserved {activity : Activity} {budget : Nat} {left : Environment}
    {outcome : Except Failure Expr} (keeps : activity.environment.KeepsReserved)
    (ended : activity.ending budget = some (outcome, left)) : left.KeepsReserved :=
  (Invariant.ending_ends guarded_laws (keepsIn_of_keepsReserved keeps) ended).2 rfl

/-- Every reserved name is kept in the whole of an evaluation: wherever an activity within
it begins, and in what each activity leaves. -/
def KeepsThroughout (expression : Expr) (environment : Environment) : Prop :=
  ∀ activity, Within (.evaluation expression environment) activity →
    activity.environment.KeepsReserved ∧
      ∀ budget outcome left, activity.ending budget = some (outcome, left) → left.KeepsReserved

/-- No function that is called within an evaluation has a parameter with a reserved name. -/
def CallsOrdinary (expression : Expr) (environment : Environment) : Prop :=
  ∀ parameters body operands current,
    Within (.evaluation expression environment) (.call (.lambda parameters body) operands current) →
    parameters.length = operands.length → ∀ name ∈ parameters, ¬ IsReserved name

/-- Parameters that are bound where the reserved names are kept are not reserved. -/
theorem ordinary_of_enter {environment : Environment} {parameters : List String}
    {operands : List Expr} (fits : parameters.length = operands.length)
    (keeps : (environment.enter parameters operands).KeepsReserved) :
    ∀ name ∈ parameters, ¬ IsReserved name := by
  intro name member
  rw [← List.map_fst_zip (Nat.le_of_eq fits)] at member
  obtain ⟨⟨name, value⟩, paired, rfl⟩ := List.mem_map.mp member
  rw [Environment.enter_eq_bindAll] at keeps
  obtain ⟨last, found⟩ := environment.frame.lookup_bindAll_of_mem paired
  exact keeps.ordinary_of_value found

/-- From an environment that keeps the reserved names, all environments keep them exactly if
no function that is called takes one of them as a parameter. -/
theorem keepsThroughout_iff {expression : Expr} {environment : Environment}
    (keeps : environment.KeepsReserved) :
    KeepsThroughout expression environment ↔ CallsOrdinary expression environment := by
  constructor
  · intro throughout parameters body operands current within fits
    exact ordinary_of_enter fits (throughout _ (.tail within (.body fits))).1
  · intro ordinary activity within
    have begins : activity.environment.KeepsReserved := by
      induction within with
      | refl => exact keeps
      | @tail outer inner before starts inductionHypothesis =>
          cases starts with
          | evaluation budget surfaces =>
              exact (Invariant.starts_evaluation guarded_laws (.evaluation budget surfaces)
                (keepsIn_of_keepsReserved inductionHypothesis)).2 rfl
          | call budget surfaces =>
              exact (Invariant.starts_call guarded_laws (.call budget surfaces)
                (keepsIn_of_keepsReserved inductionHypothesis)).2.2 rfl
          | body fits =>
              exact inductionHypothesis.enter (ordinary _ _ _ _ before fits) _
    exact ⟨begins, fun _ _ _ ended => ending_keepsReserved begins ended⟩

end Evaluation

/-! ## Functions that spare the reserved names -/

/-- No function in a tree, or in its properties, has a parameter with a reserved name. -/
inductive Expr.SparesReserved : Expr → Prop where
  | node {expression : Expr}
      (parameters : ∀ names body, expression.lambdaParts? = some (names, body) →
        ∀ name ∈ names, ¬ IsReserved name)
      (children : ∀ child ∈ expression.tail, child.SparesReserved)
      (entries : ∀ entry ∈ expression.properties, entry.2.SparesReserved) :
      SparesReserved expression

namespace Expr.SparesReserved

variable {expression entry body : Expr} {names : List String} {name : String}

theorem children (spares : expression.SparesReserved) :
    ∀ child ∈ expression.tail, child.SparesReserved := by
  cases spares with
  | node _ children _ => exact children

theorem entries (spares : expression.SparesReserved) :
    ∀ entry ∈ expression.properties, entry.2.SparesReserved := by
  cases spares with
  | node _ _ entries => exact entries

theorem parameters (spares : expression.SparesReserved)
    (parts : expression.lambdaParts? = some (names, body)) :
    ∀ name ∈ names, ¬ IsReserved name := by
  cases spares with
  | node parameters _ _ => exact parameters names body parts

/-- The body of a function is one of its children. -/
theorem functionBody (spares : expression.SparesReserved)
    (parts : expression.lambdaParts? = some (names, body)) : body.SparesReserved :=
  spares.children body (body_mem_tail parts)

/-- A node without properties that is no function only has to have such children. -/
theorem form {head : Atom} {tail : List Expr}
    (other : (Expr.form head tail).lambdaParts? = none)
    (children : ∀ child ∈ tail, child.SparesReserved) : (Expr.form head tail).SparesReserved := by
  refine .node (fun names body parts => ?_) children fun _ member => absurd member List.not_mem_nil
  rw [other] at parts
  cases parts

theorem leaf (head : Atom) : (Expr.leaf head).SparesReserved :=
  form (lambdaParts?_leaf head) fun _ member => absurd member List.not_mem_nil

theorem list {items : List Expr} (spare : ∀ item ∈ items, item.SparesReserved) :
    (Expr.list items).SparesReserved :=
  form rfl spare

/-- A function with ordinary parameters only has to have such a body. -/
theorem lambda (ordinary : ∀ name ∈ names, ¬ IsReserved name) (spares : body.SparesReserved) :
    (Expr.lambda names body).SparesReserved := by
  refine .node (fun names' body' parts => ?_) (fun child member => ?_)
    fun _ member => absurd member List.not_mem_nil
  · rw [lambdaParts?_lambda] at parts
    cases parts
    exact ordinary
  · rcases List.mem_cons.mp member with rfl | last
    · refine list fun parameter named => ?_
      obtain ⟨name, -, rfl⟩ := List.mem_map.mp named
      exact leaf _
    · rw [List.mem_singleton.mp last]
      exact spares

theorem property (spares : expression.SparesReserved) (key : String) :
    (expression.property key).SparesReserved := by
  rcases expression.property_cases key with nothing | member
  · rw [nothing]
    exact leaf _
  · exact spares.entries _ member

theorem setProperty (key : String) (spares : expression.SparesReserved)
    (entrySpares : entry.SparesReserved) : (expression.setProperty key entry).SparesReserved := by
  refine .node (fun _ _ parts => spares.parameters parts) spares.children ?_
  intro found member
  rcases mem_properties_setProperty member with same | old
  · exact same ▸ entrySpares
  · exact spares.entries found old

end Expr.SparesReserved

namespace Evaluation

/-- The reserved names are kept, and no function takes them. -/
def sparing : Invariant Unit where
  environments _ environment :=
    environment.KeepsReserved ∧ environment.Binds Expr.SparesReserved
  expressions _ := Expr.SparesReserved
  values := Expr.SparesReserved
  functions parameters body := (∀ name ∈ parameters, ¬ IsReserved name) ∧ body.SparesReserved
  failures _ := True
  writable _ _ := True
  atoms _ := True

theorem sparing_laws : sparing.Laws where
  atom _ := trivial
  lookup _ _ sound found := sound.2.lookup found
  operands spares _ := spares.children
  function spares _ := spares
  parameters := by
    intro _ expression names body environment spares _ _ tail sound
    have bodySpares : body.SparesReserved := by
      apply spares.children
      rw [tail]
      exact List.mem_cons_of_mem _ List.mem_cons_self
    cases checked : checkParameters environment
        (names.head.symbol? :: names.tail.map Expr.bareSymbol?) with
    | ok accepted => exact .lambda (ordinary_of_checkParameters sound.1 checked) bodySpares
    | error failure => trivial
  defines _ _ _ _ := trivial
  annotates _ _ _ _ := trivial
  reads key _ _ spares := spares.property key
  literal _ _ := .leaf _
  list := .list
  items spares _ := spares.children
  lambdaParts spares parts := ⟨spares.parameters parts, spares.functionBody parts⟩
  setProperty := .setProperty
  failure _ := trivial
  define _ sound spares special unbound :=
    ⟨sound.1.bind (sound.1.ordinary_of_unbound special unbound) _, sound.2.bind _ spares⟩
  annotate key _ sound boundSpares spares found :=
    ⟨sound.1.bind (sound.1.ordinary_of_value found) _,
      sound.2.bind _ (boundSpares.setProperty key spares)⟩
  procedure builtIn operands known := by
    have items : ∀ {value : Expr}, value.SparesReserved → value.isList = true →
        ∀ item ∈ value.tail, item.SparesReserved := fun spares _ => spares.children
    have computed : ∀ {head : Atom}, head.Computed → (Expr.leaf head).SparesReserved :=
      fun _ => .leaf _
    exact Invariant.checks_of_yields (fun _ => trivial)
      (Procedure.apply_yields items computed Expr.SparesReserved.list known builtIn)
  enter function sound known _ :=
    ⟨(), ⟨sound.1.enter function.1 _, sound.2.enter _ known⟩, function.2⟩

/-! ## Sessions -/

/-- Programs leave the reserved names of a session as they find them. -/
theorem runs_keepsReserved {session left : Session}
    {outcomes : List (String × Except ProgramError Expr)}
    (keeps : session.environment.KeepsReserved) (runs : session.Runs outcomes left) :
    left.environment.KeepsReserved := by
  refine runs.keeps (fun {_ program environment _ _} begins ended => ?_) keeps
  have activity : (Activity.evaluation program environment).environment.KeepsReserved := begins
  exact ending_keepsReserved activity ended

/-- Programs whose ready-made functions spare the reserved names bind only such functions. -/
theorem run_sparing {session left : Session} {budget : Nat} {text : String}
    {outcome : Except ProgramError Expr} (sound : sparing.environments () session.environment)
    (spares : ∀ program, Source.read text = .ok program → program.SparesReserved)
    (ran : session.run budget text = some (outcome, left)) :
    sparing.environments () left.environment := by
  have kept := Session.run_keeps (fun read ended =>
    ⟨(Invariant.evaluate_ends sparing_laws (spares _ read) sound ended).2, fun _ _ => trivial⟩)
    sound ran
  exact kept.1

theorem runs_sparing {session left : Session}
    {outcomes : List (String × Except ProgramError Expr)}
    (sound : sparing.environments () session.environment)
    (spares : ∀ text outcome, (text, outcome) ∈ outcomes →
      ∀ program, Source.read text = .ok program → program.SparesReserved)
    (runs : session.Runs outcomes left) : sparing.environments () left.environment := by
  have every {session left : Session} {budget : Nat} {text : String}
      {outcome : Except ProgramError Expr}
      (spares : ∀ program, Source.read text = .ok program → program.SparesReserved)
      (sound : sparing.environments () session.environment)
      (ran : session.run budget text = some (outcome, left)) :
      sparing.environments () left.environment ∧ True := ⟨run_sparing sound spares ran, trivial⟩
  exact (runs.keep every spares sound).1

theorem initial_sparing : sparing.environments () Environment.initial :=
  ⟨.initial, Environment.initial_binds fun _ => .leaf _⟩

/-- What becomes of the names of procedures and special forms over a session. Between its
programs they always stand for what they stood for at the start. Within a program they do so
exactly if no function that is called has one of them as a parameter. And this is so for all
programs as long as none of them has a ready-made function with such a parameter. -/
theorem reserved_names_kept {outcomes : List (String × Except ProgramError Expr)}
    {session : Session} (runs : Session.fresh.Runs outcomes session) :
    session.environment.KeepsReserved ∧
      (∀ program, KeepsThroughout program session.environment ↔
        CallsOrdinary program session.environment) ∧
      ((∀ text outcome, (text, outcome) ∈ outcomes →
          ∀ program, Source.read text = .ok program → program.SparesReserved) →
        ∀ program, program.SparesReserved → KeepsThroughout program session.environment) := by
  have keeps := runs_keepsReserved Environment.KeepsReserved.initial runs
  refine ⟨keeps, fun program => keepsThroughout_iff keeps, ?_⟩
  intro spares program programSpares
  have sound := runs_sparing initial_sparing spares runs
  rw [keepsThroughout_iff keeps]
  intro parameters body operands current within _
  have start : sparing.KeepsIn () (.evaluation program session.environment) :=
    ⟨programSpares, sound⟩
  obtain ⟨⟨⟩, callee, -, -⟩ := Invariant.within_keeps sparing_laws within start
  exact callee.1

/-- The function that gives back its operand. -/
def giveBack : Expr :=
  .lambda ["x"] (.leaf (.symbol "x"))

/-- `(define f (lambda (x) x))` -/
def giveBackDefinition : Expr :=
  .form (.symbol "define") [.leaf (.symbol "f"),
    .form (.symbol "lambda") [.leaf (.symbol "x"), .leaf (.symbol "x")]]

/-- A session that has defined the function. -/
def giveBackSession : Session :=
  ⟨Environment.initial.bind "f" giveBack, some giveBackDefinition⟩

/-- `(f "first")` -/
def giveBackCall : Expr :=
  .form (.symbol "f") [.leaf (.string "first")]

/-- Where a function was made by its form, its definition and its calls keep the reserved
names. -/
theorem made_function_keeps_reserved_names :
    giveBackSession.environment.KeepsReserved ∧ giveBackCall.SparesReserved ∧
      KeepsThroughout giveBackCall giveBackSession.environment := by
  have read : Source.read "(define f (lambda (x) x))" = .ok giveBackDefinition := by
    decide +kernel
  have ran : Session.fresh.run 2 "(define f (lambda (x) x))" =
      some (.ok giveBack, giveBackSession) := by
    unfold Session.run Session.load
    rw [read]
    rfl
  have leaves : ∀ names : List Atom, ∀ child ∈ names.map Expr.leaf, child.SparesReserved := by
    intro names child member
    obtain ⟨name, -, rfl⟩ := List.mem_map.mp member
    exact .leaf name
  have call : giveBackCall.SparesReserved := .form rfl (leaves [.string "first"])
  have definition : giveBackDefinition.SparesReserved := by
    refine .form rfl fun child member => ?_
    rcases List.mem_cons.mp member with rfl | last
    · exact .leaf _
    · rw [List.mem_singleton.mp last]
      exact .form rfl (leaves [.symbol "x", .symbol "x"])
  obtain ⟨keeps, -, throughout⟩ :=
    reserved_names_kept (.program 2 ran (.none giveBackSession))
  refine ⟨keeps, call, throughout ?_ giveBackCall call⟩
  intro text outcome member program known
  cases List.mem_singleton.mp member
  rw [read] at known
  cases known
  exact definition

/-- `(apply (lambda (list sqrt) sqrt) (list "first"))`: below the `lambda` is a list of bare
symbols, so that this is a function already. -/
def shadowingCall : Expr :=
  .form (.symbol "apply")
    [.lambda ["sqrt"] (.leaf (.symbol "sqrt")),
      .form (.symbol "list") [.leaf (.string "first")]]

/-- Not every program keeps the reserved names: in the scope of a ready-made function the
name of a procedure can stand for an operand. -/
theorem ready_made_function_shadows :
    ¬ ∀ outcomes session, Session.fresh.Runs outcomes session →
      ∀ text program, Source.read text = .ok program →
        KeepsThroughout program session.environment := by
  intro claimed
  have read : Source.read "(apply (lambda (list sqrt) sqrt) (list \"first\"))" =
      .ok shadowingCall := by
    decide +kernel
  have called : Starts (.evaluation shadowingCall Session.fresh.environment)
      (.call (.lambda ["sqrt"] (.leaf (.symbol "sqrt"))) [.leaf (.string "first")]
        Session.fresh.environment) :=
    .call 2 fun failure => rfl
  have keeps := (claimed [] .fresh (.none .fresh) _ _ read _ (.tail (.single called) (.body rfl))).1
  have shadowed : (Activity.evaluation (.leaf (.symbol "sqrt"))
      (Session.fresh.environment.enter ["sqrt"] [.leaf (.string "first")])).environment.lookup
        Procedure.squareRoot.name = some (.value (.leaf (.string "first"))) := rfl
  rw [keeps.procedure] at shadowed
  cases shadowed

end Evaluation

end FormLang
