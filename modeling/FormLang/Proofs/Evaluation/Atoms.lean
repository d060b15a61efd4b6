import FormLang.Proofs.Evaluation.Activity
import FormLang.Proofs.Evaluation.Failures
import FormLang.Proofs.Sessions
import FormLang.Proofs.Source.Reread
import FormLang.Proofs.Trees

/-!
Contract: where the atoms of a session come from.

An atom is nothing, was computed, or is what a lexeme of a program stands for. Evaluation
moves atoms around and computes numbers, but makes up no other atom. So whatever holds of
these atoms holds of every atom that a session reads, binds, finds on its way, or ends with.

Owns: the closure of a condition on atoms under these origins, trees that are made of atoms of
a kind, and the invariant that sessions and all activities within them are.
-/

set_option autoImplicit false

namespace FormLang

/-- Wherever an atom of a session comes from, it is accepted. -/
structure Atom.Closed (accepted : Atom → Prop) : Prop where
  nothing : accepted .none
  computed : ∀ {atom : Atom}, atom.Computed → accepted atom
  fromLexeme : ∀ {atom : Atom}, Source.FromLexeme atom → accepted atom

theorem Atom.Closed.listTag {accepted : Atom → Prop} (closed : Closed accepted) :
    accepted (.symbol Expr.listTag) := by
  have token : .lexeme Expr.listTag ∈ Source.tokenize Expr.listTag := by decide +kernel
  exact closed.fromLexeme ⟨_, Source.tokenize_lexemes token, by decide +kernel⟩

theorem Atom.Closed.lambdaTag {accepted : Atom → Prop} (closed : Closed accepted) :
    accepted (.symbol Expr.lambdaTag) := by
  have token : .lexeme Expr.lambdaTag ∈ Source.tokenize Expr.lambdaTag := by decide +kernel
  exact closed.fromLexeme ⟨_, Source.tokenize_lexemes token, by decide +kernel⟩

theorem Atom.Closed.mono {accepted accepted' : Atom → Prop}
    (implies : ∀ atom, accepted atom → accepted' atom) (closed : Closed accepted) :
    Closed accepted' where
  nothing := implies _ closed.nothing
  computed computed := implies _ (closed.computed computed)
  fromLexeme fromLexeme := implies _ (closed.fromLexeme fromLexeme)

theorem Atom.closed_legible : Atom.Closed Source.Legible where
  nothing := Source.legible_none
  computed computed := by
    cases computed with
    | number value => exact Source.legible_number _
    | complex value => exact Source.legible_complex _
  fromLexeme fromLexeme := fromLexeme.legible

/-- Every atom of the tree and of its properties is accepted. -/
abbrev Expr.MadeOf (accepted : Atom → Prop) : Expr → Prop :=
  Expr.Everywhere fun head _ => accepted head

/-- The atom that a failure names, if it names one, is accepted. -/
def Failure.Names (accepted : Atom → Prop) (failure : Failure) : Prop :=
  ∀ atom, failure.atom? = some atom → accepted atom

/-- The value of a program is made of accepted atoms, and its failure names none but such. -/
structure Outcome.MadeOf (accepted : Atom → Prop) (outcome : Except ProgramError Expr) : Prop where
  value : ∀ value, outcome = .ok value → value.MadeOf accepted
  failure : ∀ failure, outcome = .error (.semantic failure) → failure.Names accepted

/-- All that a session holds is made of accepted atoms: what it binds, and the program that
it has read. -/
structure Session.MadeOf (accepted : Atom → Prop) (session : Session) : Prop where
  binds : session.environment.Binds (Expr.MadeOf accepted)
  program : ∀ program, session.program = some program → program.MadeOf accepted

namespace Evaluation

variable {accepted : Atom → Prop}

/-- All that an activity deals with is made of accepted atoms: what it evaluates or calls, the
operands of a call, and what is bound in its scopes. -/
def Activity.MadeOf (accepted : Atom → Prop) : Activity → Prop
  | .evaluation expression environment =>
      expression.MadeOf accepted ∧ environment.Binds (Expr.MadeOf accepted)
  | .call callee operands environment =>
      (∀ parameters body, callee = .lambda parameters body → body.MadeOf accepted) ∧
        (∀ operand ∈ operands, operand.MadeOf accepted) ∧
          environment.Binds (Expr.MadeOf accepted)

/-! ## Trees -/

/-- A tree without properties is made of its heads. -/
theorem madeOf_of_heads {expression : Expr} (plain : expression.Plain)
    (hold : ∀ head ∈ expression.heads, accepted head) : expression.MadeOf accepted := by
  induction plain with
  | node head children inductionHypothesis =>
      rw [Source.heads_node, List.forall_mem_cons, List.forall_mem_map] at hold
      obtain ⟨here, below⟩ := hold
      refine .form here fun child member => inductionHypothesis child member ?_
      exact List.forall_mem_map.mpr fun node inside =>
        below node (Expr.mem_nodesOfEach_iff.mpr ⟨child, member, inside⟩)

theorem heads_of_madeOf {expression : Expr} (madeOf : expression.MadeOf accepted) :
    ∀ head ∈ expression.heads, accepted head := by
  induction madeOf with
  | @node expression here _ _ children _ =>
      cases expression with
      | node head tail properties =>
          rw [Source.heads_node, List.forall_mem_cons, List.forall_mem_map]
          refine ⟨here, fun node inside => ?_⟩
          obtain ⟨child, member, below⟩ := Expr.mem_nodesOfEach_iff.mp inside
          exact children child member node.head (List.mem_map_of_mem below)

/-- A program is made of what lexemes stand for. -/
theorem read_madeOf (closed : Atom.Closed accepted) {text : String} {program : Expr}
    (read : Source.read text = .ok program) : program.MadeOf accepted :=
  madeOf_of_heads (Source.read_plain read) fun head member =>
    closed.fromLexeme (Source.read_fromLexeme read head member)

/-! ## The invariant -/

/-- Everything is made of accepted atoms. -/
def composition (accepted : Atom → Prop) : Invariant Unit where
  environments _ := Environment.Binds (Expr.MadeOf accepted)
  expressions _ := Expr.MadeOf accepted
  values := Expr.MadeOf accepted
  functions _ := Expr.MadeOf accepted
  failures := Failure.Names accepted
  writable _ _ := True
  atoms := accepted

/-- The symbol that is refused as a parameter is one of the parameters. -/
theorem checkParameters_refuses {environment : Environment} {names : List (Option String)}
    {failure : Failure} (hold : ∀ name, some name ∈ names → accepted (.symbol name))
    (refused : checkParameters environment names = .error failure) : failure.Names accepted := by
  rcases checkParameters_eq_error refused with rfl | ⟨name, member, rfl⟩
  · rintro _ ⟨⟩
  · rintro _ ⟨⟩
    exact hold name member

/-- The symbols among the parameters of a form are accepted. -/
theorem parameters_accepted {names : Expr} (madeOf : names.MadeOf accepted) {name : String}
    (member : some name ∈ names.head.symbol? :: names.tail.map Expr.bareSymbol?) :
    accepted (.symbol name) := by
  rcases List.mem_cons.mp member with first | later
  · have head : names.head = .symbol name := by
      cases shape : names.head <;> rw [shape] at first <;> cases first
      rfl
    exact head ▸ madeOf.here
  · obtain ⟨parameter, isParameter, bare⟩ := List.mem_map.mp later
    exact head_of_bareSymbol? bare ▸ (madeOf.children parameter isParameter).here

/-- A failure of a call names no atom. -/
theorem names_of_ofCall {operator : Operator} {failure : Failure}
    (ofCall : failure.OfCall operator) : failure.Names accepted := by
  cases ofCall <;> rintro _ ⟨⟩

theorem composition_laws (closed : Atom.Closed accepted) : (composition accepted).Laws where
  atom madeOf := madeOf.here
  lookup _ _ binds found := binds.lookup found
  operands madeOf _ := madeOf.children
  function madeOf _ := madeOf
  parameters := by
    intro _ expression names body environment madeOf _ _ tail _
    have children := madeOf.children
    rw [tail] at children
    have namesMadeOf := children names List.mem_cons_self
    have bodyMadeOf := children body (List.mem_cons_of_mem _ List.mem_cons_self)
    cases checked : checkParameters environment
        (names.head.symbol? :: names.tail.map Expr.bareSymbol?) with
    | ok accepted =>
        refine .lambda closed.lambdaTag (fun _ => closed.listTag) (fun name member => ?_) bodyMadeOf
        refine parameters_accepted namesMadeOf ?_
        rw [(checkParameters_eq_ok checked).1]
        exact List.mem_map.mpr ⟨name, member, rfl⟩
    | error failure => exact checkParameters_refuses (fun _ => parameters_accepted namesMadeOf) checked
  defines _ _ _ _ := trivial
  annotates _ _ _ _ := trivial
  reads key _ _ madeOf := madeOf.property closed.nothing key
  literal known _ := .leaf known
  list := .form closed.listTag
  items madeOf _ := madeOf.children
  lambdaParts madeOf parts := madeOf.children _ (Expr.body_mem_tail parts)
  setProperty := .setProperty
  failure named := named
  define _ binds madeOf _ _ := binds.bind _ madeOf
  annotate key _ binds boundMadeOf madeOf _ := binds.bind _ (boundMadeOf.setProperty key madeOf)
  procedure builtIn operands known := by
    have yields : Procedure.Yields (Expr.MadeOf accepted) (builtIn.apply operands) :=
      Procedure.apply_yields (fun madeOf _ => madeOf.children)
        (fun computed => .leaf (closed.computed computed)) (.form closed.listTag) known builtIn
    cases applied : builtIn.apply operands with
    | ok value => exact yields value applied
    | error failure => exact names_of_ofCall (Procedure.apply_refuses builtIn failure applied)
  enter madeOf binds known _ := ⟨(), binds.enter _ known, madeOf⟩

/-! ## Activities -/

/-- What ends soundly ends with accepted atoms. -/
theorem outcome_of_ends {ending : Except Failure Expr × Environment}
    (ends : (composition accepted).Ends () ending) :
    Outcome.MadeOf accepted (ending.1.mapError .semantic) ∧
      ending.2.Binds (Expr.MadeOf accepted) := by
  obtain ⟨outcome, left⟩ := ending
  obtain ⟨checks, binds⟩ := ends
  refine ⟨?_, binds⟩
  cases outcome with
  | ok result =>
      refine ⟨fun value same => ?_, fun failure impossible => (by cases impossible)⟩
      cases same
      exact checks
  | error refusal =>
      refine ⟨fun value impossible => (by cases impossible), fun failure same => ?_⟩
      cases same
      exact checks

theorem keepsIn_composition_iff {activity : Activity} :
    (composition accepted).KeepsIn () activity ↔ activity.MadeOf accepted := by
  cases activity with
  | evaluation expression environment => exact Iff.rfl
  | call callee operands environment =>
      refine and_congr ?_ Iff.rfl
      cases callee with
      | procedure builtIn => exact iff_of_true trivial fun _ _ impossible => by cases impossible
      | lambda parameters body =>
          refine ⟨fun known _ _ same => ?_, fun known => known _ _ rfl⟩
          cases same
          exact known

/-- Whatever takes place within an activity deals with accepted atoms only, if the activity
does. -/
theorem within_madeOf (closed : Atom.Closed accepted) {outer inner : Activity}
    (within : Within outer inner) (madeOf : outer.MadeOf accepted) : inner.MadeOf accepted := by
  obtain ⟨⟨⟩, keeps⟩ := Invariant.within_keeps (composition_laws closed) within
    (keepsIn_composition_iff.mpr madeOf)
  exact keepsIn_composition_iff.mp keeps

theorem ending_madeOf (closed : Atom.Closed accepted) {activity : Activity} {budget : Nat}
    {ending : Except Failure Expr × Environment} (madeOf : activity.MadeOf accepted)
    (ended : activity.ending budget = some ending) :
    Outcome.MadeOf accepted (ending.1.mapError .semantic) ∧
      ending.2.Binds (Expr.MadeOf accepted) :=
  outcome_of_ends
    (Invariant.ending_ends (composition_laws closed) (keepsIn_composition_iff.mpr madeOf) ended)

/-! ## Sessions -/

theorem fresh_madeOf (closed : Atom.Closed accepted) : Session.fresh.MadeOf accepted where
  binds := Environment.initial_binds_computed fun computed => .leaf (closed.computed computed)
  program _ impossible := by cases impossible

/-- A program keeps a session made of accepted atoms, and so is its outcome. -/
theorem run_madeOf (closed : Atom.Closed accepted) {session left : Session} {budget : Nat}
    {text : String} {outcome : Except ProgramError Expr} (madeOf : session.MadeOf accepted)
    (ran : session.run budget text = some (outcome, left)) :
    left.MadeOf accepted ∧ Outcome.MadeOf accepted outcome := by
  rcases Session.run_cases ran with
    ⟨error, -, rfl, rfl⟩ | ⟨program, ending, read, ended, rfl, rfl⟩
  · exact ⟨⟨madeOf.binds, fun _ impossible => (by cases impossible)⟩,
      fun _ impossible => (by cases impossible), fun _ impossible => (by cases impossible)⟩
  · have programMadeOf := read_madeOf closed read
    have start : (Activity.evaluation program session.environment).MadeOf accepted :=
      ⟨programMadeOf, madeOf.binds⟩
    obtain ⟨outcome, binds⟩ := ending_madeOf closed start ended
    refine ⟨⟨binds, fun other same => ?_⟩, outcome⟩
    exact Option.some.inj same ▸ programMadeOf

theorem runs_madeOf (closed : Atom.Closed accepted) {session left : Session}
    {outcomes : List (String × Except ProgramError Expr)} (madeOf : session.MadeOf accepted)
    (runs : session.Runs outcomes left) :
    left.MadeOf accepted ∧
      ∀ text outcome, (text, outcome) ∈ outcomes → Outcome.MadeOf accepted outcome :=
  runs.keep (fun (_ : True) => run_madeOf closed) (fun _ _ _ => trivial) madeOf

end Evaluation

end FormLang
