import FormLang.Proofs.Evaluation.Failures
import FormLang.Proofs.Evaluation.Reserved

/-!
Contract: the form that makes a function.

The form takes the head of its parameter list for the first parameter and the bare symbols
behind it for the others, and refuses the names of special forms and of what stands for a
procedure. But before that, a form that has the shape of a function already is taken as it
stands: below its `lambda` is a list of bare symbols, whose tag would be the first parameter.

Owns: the names that a parameter list declares, which names stand for procedures in the
environments that a session comes to, and the theorem that all forms that are no ready-made
functions make functions of exactly the declared names.
-/

set_option autoImplicit false

namespace FormLang

/-! ## What stands for a procedure -/

/-- No name stands for a procedure but the procedure's own. -/
def Environment.OwnNames (environment : Environment) : Prop :=
  ∀ name builtIn, environment.lookup name = some (.procedure builtIn) → builtIn.name = name

namespace Environment.OwnNames

variable {environment : Environment}

theorem initial : Environment.initial.OwnNames := by
  intro name builtIn found
  obtain ⟨scope, member, bound⟩ := List.exists_of_findSome?_eq_some found
  rw [List.mem_singleton.mp member] at bound
  rcases mem_rootScope (Table.mem_of_lookup bound) with ⟨value, -, same⟩ | ⟨other, named, same⟩
  · cases same
  · cases same
    exact named

theorem bind (own : environment.OwnNames) (name : String) (value : Expr) :
    (environment.bind name value).OwnNames := by
  intro other builtIn found
  rw [lookup_bind] at found
  by_cases same : other = name
  · rw [if_pos same] at found
    cases found
  · rw [if_neg same] at found
    exact own other builtIn found

theorem enter (own : environment.OwnNames) (parameters : List String) (operands : List Expr) :
    (environment.enter parameters operands).OwnNames := by
  intro name builtIn found
  rw [enter_eq_bindAll] at found
  rcases environment.frame.lookup_bindAll_cases (parameters.zip operands) name with
    ⟨operand, -, bound⟩ | unchanged
  · rw [bound] at found
    cases found
  · rw [unchanged, lookup_frame] at found
    exact own name builtIn found

/-- A name that is not reserved is no special form and stands for no procedure. -/
theorem ordinary (own : environment.OwnNames) {name : String} (unreserved : ¬ IsReserved name) :
    SpecialForm.named? name = none ∧ environment.procedure? name = none := by
  constructor
  · cases special : SpecialForm.named? name with
    | none => rfl
    | some form =>
        have named := List.find?_some special
        exact absurd (.inl ⟨form, beq_iff_eq.mp named⟩) unreserved
  · unfold procedure?
    cases found : environment.lookup name with
    | none => rfl
    | some binding =>
        cases binding with
        | value value => rfl
        | procedure builtIn => exact absurd (.inr ⟨builtIn, own name builtIn found⟩) unreserved

end Environment.OwnNames

namespace Evaluation

/-- Procedures stand under their own names only. -/
def naming : Invariant Unit :=
  .ofEnvironments fun _ => Environment.OwnNames

theorem naming_laws : naming.Laws :=
  Invariant.ofEnvironments_laws (fun value own _ _ => own.bind _ value)
    (fun _ _ own _ => own.bind _ _)
    (fun parameters operands own => ⟨(), own.enter parameters operands⟩)

/-- An environment that the evaluation of a program comes to: an activity within it begins
there, or leaves it. -/
def Reaches (program : Expr) (environment reached : Environment) : Prop :=
  ∃ activity, Within (.evaluation program environment) activity ∧
    (activity.environment = reached ∨
      ∃ budget outcome, activity.ending budget = some (outcome, reached))

theorem Reaches.ownNames {program : Expr} {environment reached : Environment}
    (reaches : Reaches program environment reached) (own : environment.OwnNames) :
    reached.OwnNames := by
  obtain ⟨activity, within, place⟩ := reaches
  have start : naming.KeepsIn () (.evaluation program environment) := ⟨trivial, own⟩
  obtain ⟨⟨⟩, keeps⟩ := Invariant.within_keeps naming_laws within start
  rcases place with rfl | ⟨budget, outcome, ended⟩
  · exact Invariant.keepsIn_ofEnvironments.mp keeps
  · exact (Invariant.ending_ends naming_laws keeps ended).2

theorem Reaches.keepsReserved {program : Expr} {environment reached : Environment}
    (reaches : Reaches program environment reached) (keeps : environment.KeepsReserved)
    (ordinary : CallsOrdinary program environment) : reached.KeepsReserved := by
  obtain ⟨activity, within, place⟩ := reaches
  obtain ⟨begins, leaves⟩ := (keepsThroughout_iff keeps).mpr ordinary activity within
  rcases place with rfl | ⟨budget, outcome, ended⟩
  · exact begins
  · exact leaves budget outcome reached ended

/-! ## The form -/

/-- `(lambda parameters body)`, as it is read. -/
def lambdaForm (parameters body : Expr) : Expr :=
  .form (.symbol Expr.lambdaTag) [parameters, body]

/-- A parameter list declares these names, in this order: they are its head and the bare
symbols behind it, which are all that there is, and none of them is reserved. -/
structure Declares (parameters : Expr) (names : List String) : Prop where
  symbols : parameters.head.symbol? :: parameters.tail.map Expr.bareSymbol? = names.map some
  ordinary : ∀ name ∈ names, ¬ IsReserved name

/-- The form makes the function of the declared names over the body as it stands, and is
malformed if no names are declared. In both cases the environment stays as it is. -/
structure FormedExactly (parameters body : Expr) (environment : Environment) : Prop where
  made : ∀ names, Declares parameters names → ∀ budget,
    evaluate (budget + 1) (lambdaForm parameters body) environment =
      some (.ok (.lambda names body), environment)
  malformed : (∀ names, ¬ Declares parameters names) →
    ∃ failure : Failure, failure.failureClass = .malformedForm ∧ ∀ budget,
      evaluate (budget + 1) (lambdaForm parameters body) environment =
        some (.error failure, environment)

variable {environment : Environment} {parameters body : Expr}

/-- Names that are no special forms and stand for no procedures are accepted. -/
theorem checkParameters_ok {names : List String} (ordinary : ∀ name ∈ names,
      SpecialForm.named? name = none ∧ environment.procedure? name = none) :
    checkParameters environment (names.map some) = .ok names := by
  induction names with
  | nil => rfl
  | cons first rest inductionHypothesis =>
      obtain ⟨special, plain⟩ := ordinary first List.mem_cons_self
      have others := inductionHypothesis fun name member =>
        ordinary name (List.mem_cons_of_mem first member)
      rw [List.map_cons, checkParameters, special, plain, others]
      rfl

/-- Whatever is refused as a parameter makes the form malformed. -/
theorem checkParameters_malformed {names : List (Option String)} {failure : Failure}
    (refused : checkParameters environment names = .error failure) :
    failure.failureClass = .malformedForm := by
  rcases checkParameters_eq_error refused with rfl | ⟨_, -, rfl⟩ <;> rfl

/-- A form that is no ready-made function checks its parameters, and does nothing else. -/
theorem evaluate_lambdaForm (unready : (lambdaForm parameters body).isLambda = false)
    (environment : Environment) (budget : Nat) :
    evaluate (budget + 1) (lambdaForm parameters body) environment =
      some ((checkParameters environment
        (parameters.head.symbol? :: parameters.tail.map Expr.bareSymbol?)).map
          fun names => .lambda names body, environment) := by
  have steps : evaluate (budget + 1) (lambdaForm parameters body) environment =
      (if (lambdaForm parameters body).isLambda then return lambdaForm parameters body
        else evaluateLambda [parameters, body]) environment := rfl
  rw [steps, if_neg (Bool.eq_false_iff.mp unready)]
  change (Computation.check (checkParameters environment
    (parameters.head.symbol? :: parameters.tail.map Expr.bareSymbol?)) >>=
      fun names => return Expr.lambda names body) environment = _
  cases checkParameters environment
    (parameters.head.symbol? :: parameters.tail.map Expr.bareSymbol?) <;> rfl

/-- Where procedures stand under their own names and the reserved names are kept, exactly the
declared names are accepted. -/
theorem formedExactly (unready : (lambdaForm parameters body).isLambda = false)
    (own : environment.OwnNames) (keeps : environment.KeepsReserved) :
    FormedExactly parameters body environment where
  made names declares budget := by
    rw [evaluate_lambdaForm unready, declares.symbols,
      checkParameters_ok fun name member => own.ordinary (declares.ordinary name member)]
    rfl
  malformed undeclared := by
    cases checked : checkParameters environment
        (parameters.head.symbol? :: parameters.tail.map Expr.bareSymbol?) with
    | ok names =>
        obtain ⟨symbols, -⟩ := checkParameters_eq_ok checked
        exact absurd ⟨symbols, ordinary_of_checkParameters keeps checked⟩ (undeclared names)
    | error failure =>
        refine ⟨failure, checkParameters_malformed checked, fun budget => ?_⟩
        rw [evaluate_lambdaForm unready, checked]
        rfl

/-- A form that is no ready-made function makes the function of exactly the names that its
parameter list declares, or is malformed if it declares none, and leaves the environment as it
is. This holds in the environment that a session has after any programs, and in all that the
next program comes to in which the reserved names are kept. And these are all of them, as long
as the program calls no function over a reserved name. -/
theorem lambda_formed_exactly {outcomes : List (String × Except ProgramError Expr)}
    {session : Session} (runs : Session.fresh.Runs outcomes session)
    (unready : (lambdaForm parameters body).isLambda = false) :
    FormedExactly parameters body session.environment ∧
      ∀ program reached, Reaches program session.environment reached →
        (reached.KeepsReserved → FormedExactly parameters body reached) ∧
          (CallsOrdinary program session.environment → reached.KeepsReserved) := by
  have keeps := runs_keepsReserved Environment.KeepsReserved.initial runs
  have own : session.environment.OwnNames := by
    refine runs.keeps (fun begins ended => ?_) Environment.OwnNames.initial
    have scope : naming.environments () _ := begins
    exact (Invariant.evaluate_ends naming_laws trivial scope ended).2
  refine ⟨formedExactly unready own keeps, fun program reached reaches => ?_⟩
  exact ⟨formedExactly unready (reaches.ownNames own), reaches.keepsReserved keeps⟩

/-- `(apply (lambda (x) x) (list "first"))` -/
def plainCall : Expr :=
  .form (.symbol "apply") [lambdaForm (.leaf (.symbol "x")) (.leaf (.symbol "x")),
    .form (.symbol "list") [.leaf (.string "first")]]

/-- The scope of that call. -/
def plainScope : Environment :=
  Environment.initial.enter ["x"] [.leaf (.string "first")]

/-- In the scope of a function over an ordinary name, `(lambda (x y) x)` makes a function. -/
theorem function_formed_in_call :
    CallsOrdinary plainCall .initial ∧ Reaches plainCall .initial plainScope ∧
      evaluate 1 (lambdaForm (.form (.symbol "x") [.leaf (.symbol "y")]) (.leaf (.symbol "x")))
        plainScope = some (.ok (.lambda ["x", "y"] (.leaf (.symbol "x"))), plainScope) := by
  have spares : plainCall.SparesReserved := by
    refine .form rfl fun child member => ?_
    rcases List.mem_cons.mp member with rfl | last
    · refine .form rfl fun leaf inside => ?_
      simp only [List.mem_cons, List.not_mem_nil, or_false, or_self] at inside
      rw [inside]
      exact .leaf _
    · rw [List.mem_singleton.mp last]
      refine .form rfl fun leaf inside => ?_
      rw [List.mem_singleton.mp inside]
      exact .leaf _
  have ordinary : CallsOrdinary plainCall .initial := by
    intro parameters body operands current within _
    have start : sparing.KeepsIn () (.evaluation plainCall .initial) := ⟨spares, initial_sparing⟩
    obtain ⟨⟨⟩, callee, -, -⟩ := Invariant.within_keeps sparing_laws within start
    exact callee.1
  have called : Starts (.evaluation plainCall .initial)
      (.call (.lambda ["x"] (.leaf (.symbol "x"))) [.leaf (.string "first")] .initial) :=
    .call 2 fun failure => rfl
  have reaches : Reaches plainCall .initial plainScope :=
    ⟨_, .tail (.single called) (.body rfl), .inl rfl⟩
  have declares : Declares (.form (.symbol "x") [.leaf (.symbol "y")]) ["x", "y"] := by
    refine ⟨rfl, fun name member => ?_⟩
    simp only [List.mem_cons, List.not_mem_nil, or_false] at member
    rcases member with rfl | rfl
    · exact Environment.KeepsReserved.initial.ordinary_of_unbound rfl rfl
    · exact Environment.KeepsReserved.initial.ordinary_of_unbound rfl rfl
  have unready : (lambdaForm (.form (.symbol "x") [.leaf (.symbol "y")])
      (.leaf (.symbol "x"))).isLambda = false := rfl
  obtain ⟨-, everywhere⟩ := lambda_formed_exactly (.none .fresh) unready
  obtain ⟨formed, kept⟩ := everywhere plainCall plainScope reaches
  exact ⟨ordinary, reaches, (formed (kept ordinary)).made _ declares 0⟩

/-- Not every form keeps to its parameters: `(lambda (list x) x)` declares no names, since the
first of its parameters is reserved, but it is a function as it stands. -/
theorem ready_made_function_accepted :
    ¬ ∀ outcomes session, Session.fresh.Runs outcomes session →
      ∀ text parameters body, Source.read text = .ok (lambdaForm parameters body) →
        FormedExactly parameters body session.environment := by
  intro claimed
  have read : Source.read "(lambda (list x) x)" =
      .ok (lambdaForm (.form (.symbol "list") [.leaf (.symbol "x")]) (.leaf (.symbol "x"))) := by
    decide +kernel
  have undeclared (names : List String) :
      ¬ Declares (.form (.symbol "list") [.leaf (.symbol "x")]) names := by
    intro declares
    have first : "list" ∈ names := by
      have symbols := congrArg (some "list" ∈ ·) declares.symbols
      simpa [Expr.head, Expr.form, Atom.symbol?] using symbols
    exact declares.ordinary "list" first (.inl ⟨.list, rfl⟩)
  obtain ⟨failure, -, failed⟩ :=
    (claimed [] .fresh (.none .fresh) _ _ _ read).malformed undeclared
  have ready : evaluate 1
      (lambdaForm (.form (.symbol "list") [.leaf (.symbol "x")]) (.leaf (.symbol "x")))
      Session.fresh.environment =
        some (.ok (.lambda ["x"] (.leaf (.symbol "x"))), Session.fresh.environment) := rfl
  rw [failed 0] at ready
  cases ready

end Evaluation

end FormLang
