import FormLang.Proofs.Evaluation.Correspondence

/-!
Contract: the rules of evaluation respect every lawful correspondence.

Owns: one theorem for each rule of evaluation, over an arbitrary comparison: matching
evaluators of the subexpressions and matching ways of calling make matching evaluations.
Does not own: the recursion, and any particular correspondence or comparison.
-/

set_option autoImplicit false

namespace FormLang.Evaluation

open Correspondence

variable {World : Type}
variable {relation : Correspondence World} {world : World}

/-- The failures that name nothing of the program belong to themselves. -/
theorem Correspondence.Laws.plainFailure (laws : relation.Laws) {failure : Failure}
    (plain : failure.atom? = none) : relation.failures failure failure :=
  laws.failure (fun atom named => by rw [plain] at named; cases named)

/-- A failure that names the head of an expression belongs to itself. -/
theorem Correspondence.Laws.headFailure (laws : relation.Laws) {failure : Failure} {head : Atom}
    (named : failure.atom? = some head) (known : relation.atoms head) :
    relation.failures failure failure :=
  laws.failure (fun atom other => by
    rw [named] at other
    exact Option.some.inj other ▸ known)

/-- Two expressions that belong together are the same bare symbol or none at all. -/
theorem Correspondence.Shows.bareSymbol {expression expression' : Expr}
    (shows : relation.Shows world expression expression') :
    expression'.bareSymbol? = expression.bareSymbol? := by
  unfold Expr.bareSymbol?
  rw [shows.isLeaf, shows.head]

/-- The name of a bare symbol is its head. -/
theorem head_of_bareSymbol? {expression : Expr} {name : String}
    (bare : expression.bareSymbol? = some name) : expression.head = .symbol name := by
  unfold Expr.bareSymbol? at bare
  split at bare
  · cases shape : expression.head <;> rw [shape] at bare <;> simp_all [Atom.symbol?]
  · cases bare

/-- The head of a special form is its name. -/
theorem head_of_specialForm? {expression : Expr} {form : SpecialForm}
    (special : specialForm? expression = some form) : expression.head = .symbol form.name := by
  unfold specialForm? at special
  cases shape : expression.head <;> rw [shape] at special <;>
    simp only [Atom.symbol?, Option.bind_none, Option.bind_some, reduceCtorEq] at special
  have found := List.find?_some special
  simp only [beq_iff_eq] at found
  rw [found]

/-- Parameters that are accepted are the names that were checked, and none of them names a
special form or a procedure. -/
theorem checkParameters_eq_ok {environment : Environment} {names : List (Option String)}
    {accepted : List String} (checked : checkParameters environment names = .ok accepted) :
    names = accepted.map some ∧ ∀ name ∈ accepted,
      SpecialForm.named? name = none ∧ environment.procedure? name = none := by
  induction names generalizing accepted with
  | nil =>
      cases checked
      exact ⟨rfl, fun name member => absurd member List.not_mem_nil⟩
  | cons first rest inductionHypothesis =>
      cases first with
      | none => cases checked
      | some name =>
          rw [checkParameters] at checked
          split at checked
          · cases checked
          · rename_i ordinary
            cases checkedRest : checkParameters environment rest with
            | error failure =>
                rw [checkedRest] at checked
                cases checked
            | ok others =>
                rw [checkedRest] at checked
                cases checked
                obtain ⟨rfl, rests⟩ := inductionHypothesis checkedRest
                refine ⟨rfl, fun other member => ?_⟩
                rcases List.mem_cons.mp member with rfl | later
                · simpa using ordinary
                · exact rests other later

/-! ## One rule after another -/

section Rules

variable (laws : relation.Laws) (comparison : Comparison relation)
variable {evaluate evaluate' : Evaluator}
variable (evaluates : ∀ {expression expression'},
  relation.expressions world expression expression' →
  comparison.Matches world relation.values (evaluate expression) (evaluate' expression'))
variable {call call' : Caller}
variable (calls : ∀ {callee callee' operands operands'}, relation.Callees callee callee' →
  List.Forall₂ relation.values operands operands' →
  comparison.Matches world relation.values (call callee operands) (call' callee' operands'))

include laws

theorem evaluateLeaf_matches {expression expression' : Expr}
    (shows : relation.Shows world expression expression') :
    comparison.Matches world relation.values (evaluateLeaf expression.head)
      (evaluateLeaf expression'.head) := by
  rw [shows.head]
  cases shape : expression.head with
  | none => exact comparison.fail (laws.plainFailure rfl)
  | symbol name =>
      have known : relation.atoms (.symbol name) := shape ▸ shows.atom
      apply comparison.reading
      intro environment environment' environments
      rcases (shows.lookup name environment environment' shape environments).kinds with
        ⟨left, right⟩ | ⟨builtIn, left, right⟩ | ⟨value, value', left, right, values⟩
      · rw [left, right]
        exact comparison.fail (laws.headFailure rfl known)
      · rw [left, right]
        exact comparison.fail (laws.headFailure rfl known)
      · rw [left, right]
        exact comparison.succeed values
  | number value => exact comparison.succeed (laws.literal (shape ▸ shows.atom) rfl)
  | complex value => exact comparison.succeed (laws.literal (shape ▸ shows.atom) rfl)
  | string content => exact comparison.succeed (laws.literal (shape ▸ shows.atom) rfl)

include evaluates in
omit laws in
theorem evaluateEach_matches {expressions expressions' : List Expr}
    (belong : List.Forall₂ (relation.expressions world) expressions expressions') :
    comparison.Matches world (List.Forall₂ relation.values) (evaluateEach evaluate expressions)
      (evaluateEach evaluate' expressions') := by
  induction belong with
  | nil => exact comparison.succeed .nil
  | cons first rest inductionHypothesis =>
      refine comparison.andThen (evaluates first) fun value value' values => ?_
      refine comparison.andThen inductionHypothesis fun others others' rests => ?_
      exact comparison.succeed (.cons values rests)

include evaluates in
theorem evaluateSequence_matches {expressions expressions' : List Expr}
    (belong : List.Forall₂ (relation.expressions world) expressions expressions') :
    comparison.Matches world relation.values (evaluateSequence evaluate expressions)
      (evaluateSequence evaluate' expressions') := by
  induction belong with
  | nil => exact comparison.fail (laws.plainFailure rfl)
  | cons first rest inductionHypothesis =>
      cases rest with
      | nil => exact evaluates first
      | cons second rest =>
          exact comparison.andThen (evaluates first) fun _ _ _ => inductionHypothesis

theorem refuseCount_matches {results : Expr → Expr → Prop} (form : SpecialForm)
    (expected : Nat) {operands operands' : List Expr}
    (lengths : operands.length = operands'.length) :
    comparison.Matches world results (refuseCount form expected operands)
      (refuseCount form expected operands') := by
  unfold refuseCount
  rw [lengths]
  exact comparison.fail (laws.plainFailure rfl)

/-- Whether a name may be defined is the same in environments that belong together. -/
theorem checkDefinable_checks {name : String} {environment environment' : Environment}
    (known : relation.atoms (.symbol name))
    (bindings : relation.Bindings (environment.lookup name) (environment'.lookup name)) :
    relation.Checks (fun _ _ => SpecialForm.named? name = none)
      (checkDefinable name environment) (checkDefinable name environment') := by
  unfold checkDefinable
  cases special : SpecialForm.named? name with
  | some form => exact .error (laws.headFailure rfl known)
  | none =>
      rcases bindings.kinds with
        ⟨left, right⟩ | ⟨builtIn, left, right⟩ | ⟨value, value', left, right, values⟩
      · rw [left, right]
        exact .ok rfl
      · rw [left, right]
        exact .error (laws.headFailure rfl known)
      · rw [left, right]
        exact .error (laws.headFailure rfl known)

include evaluates in
theorem evaluateDefine_matches {operands operands' : List Expr}
    (belong : List.Forall₂ (relation.expressions world) operands operands')
    (defines : ∀ {target value name}, operands = [target, value] →
      target.bareSymbol? = some name → relation.writable world name) :
    comparison.Matches world relation.values (evaluateDefine evaluate operands)
      (evaluateDefine evaluate' operands') := by
  match belong with
  | .nil => exact refuseCount_matches laws comparison .define 2 rfl
  | .cons _ .nil => exact refuseCount_matches laws comparison .define 2 rfl
  | .cons _ (.cons _ (.cons _ rest)) =>
      exact refuseCount_matches laws comparison .define 2 (by simp [rest.length_eq])
  | .cons (a := target) (b := target') targets (.cons (a := value) (b := value') bodies .nil) =>
      have shows := laws.shows targets
      simp only [evaluateDefine]
      rw [shows.bareSymbol]
      cases bare : target.bareSymbol? with
      | none => exact comparison.fail (laws.plainFailure rfl)
      | some name =>
          have head := head_of_bareSymbol? bare
          have known : relation.atoms (.symbol name) := head ▸ shows.atom
          have writable := defines rfl bare
          refine comparison.reading fun before before' befores => ?_
          refine comparison.andThen (comparison.check (checkDefinable_checks laws known
            (shows.lookup name _ _ head befores))) fun _ _ ordinary => ?_
          refine comparison.andThen (evaluates bodies) fun result result' results => ?_
          exact comparison.bindNew known writable ordinary
            (fun _ _ environments => shows.lookup name _ _ head environments) results

include evaluates in
theorem evaluateList_matches {operands operands' : List Expr}
    (belong : List.Forall₂ (relation.expressions world) operands operands') :
    comparison.Matches world relation.values (evaluateList evaluate operands)
      (evaluateList evaluate' operands') := by
  unfold evaluateList
  refine comparison.andThen (evaluateEach_matches comparison evaluates belong)
    fun items items' values => ?_
  exact comparison.succeed (laws.list values)

include calls in
omit laws in
theorem callEach_matches {callee callee' : Callee} (callees : relation.Callees callee callee')
    {operands operands' : List Expr}
    (belong : List.Forall₂ relation.values operands operands') :
    comparison.Matches world (List.Forall₂ relation.values) (callEach call callee operands)
      (callEach call' callee' operands') := by
  induction belong with
  | nil => exact comparison.succeed .nil
  | cons first rest inductionHypothesis =>
      refine comparison.andThen (calls callees (.cons first .nil)) fun result result' results => ?_
      refine comparison.andThen inductionHypothesis fun others others' rests => ?_
      exact comparison.succeed (.cons results rests)

include evaluates in
theorem resolveCallee_matches (form : SpecialForm) {expression expression' : Expr}
    (belong : relation.expressions world expression expression') :
    comparison.Matches world relation.Callees (resolveCallee evaluate form expression)
      (resolveCallee evaluate' form expression') := by
  have shows := laws.shows belong
  unfold resolveCallee
  refine comparison.reading fun environment environment' environments => ?_
  rw [shows.bareSymbol]
  -- Either both name the same procedure, or the values decide in both.
  have named : (∃ builtIn,
        expression.bareSymbol?.bind environment.procedure? = some builtIn ∧
        expression.bareSymbol?.bind environment'.procedure? = some builtIn) ∨
      (expression.bareSymbol?.bind environment.procedure? = none ∧
        expression.bareSymbol?.bind environment'.procedure? = none) := by
    cases bare : expression.bareSymbol? with
    | none => exact Or.inr ⟨rfl, rfl⟩
    | some name =>
        simp only [Option.bind_some, Environment.procedure?]
        rcases (shows.lookup name _ _ (head_of_bareSymbol? bare) environments).kinds with
          ⟨left, right⟩ | ⟨builtIn, left, right⟩ | ⟨value, value', left, right, -⟩
        · rw [left, right]
          exact Or.inr ⟨rfl, rfl⟩
        · rw [left, right]
          exact Or.inl ⟨builtIn, rfl, rfl⟩
        · rw [left, right]
          exact Or.inr ⟨rfl, rfl⟩
  rcases named with ⟨builtIn, left, right⟩ | ⟨left, right⟩
  · rw [left, right]
    exact comparison.succeed (.procedure builtIn)
  · rw [left, right]
    refine comparison.andThen (evaluates belong) fun value value' values => ?_
    rcases (laws.lambdaParts values).kinds with
      ⟨left, right⟩ | ⟨parameters, body, body', left, right, functions⟩
    · rw [left, right]
      exact comparison.fail (laws.plainFailure rfl)
    · rw [left, right]
      exact comparison.succeed (.lambda parameters functions)

include evaluates in
theorem evaluateItems_matches (form : SpecialForm) {expression expression' : Expr}
    (belong : relation.expressions world expression expression') :
    comparison.Matches world (List.Forall₂ relation.values)
      (evaluateItems evaluate form expression) (evaluateItems evaluate' form expression') := by
  refine comparison.andThen (evaluates belong) fun value value' values => ?_
  rw [laws.isList values]
  cases tagged : value.isList with
  | true => exact comparison.succeed (laws.items values tagged)
  | false => exact comparison.fail (laws.plainFailure rfl)

theorem evaluateLambda_matches {operands operands' : List Expr}
    (lengths : operands.length = operands'.length)
    (parameters : relation.Parameters world operands operands') :
    comparison.Matches world relation.values (evaluateLambda operands)
      (evaluateLambda operands') := by
  match operands, operands', lengths with
  | [], [], _ => exact refuseCount_matches laws comparison .lambda 2 rfl
  | [_], [_], _ => exact refuseCount_matches laws comparison .lambda 2 rfl
  | [names, body], [names', body'], _ =>
      refine comparison.reading fun environment environment' environments => ?_
      have checks := parameters names body names' body' rfl rfl _ _ environments
      exact comparison.andThen (comparison.check checks) fun _ _ values => comparison.succeed values
  | _ :: _ :: _ :: _, _ :: _ :: _ :: _, lengths =>
      exact refuseCount_matches laws comparison .lambda 2 lengths

include evaluates calls in
theorem evaluateApply_matches {operands operands' : List Expr}
    (belong : List.Forall₂ (relation.expressions world) operands operands') :
    comparison.Matches world relation.values (evaluateApply evaluate call operands)
      (evaluateApply evaluate' call' operands') := by
  match belong with
  | .nil => exact refuseCount_matches laws comparison .apply 2 rfl
  | .cons _ .nil => exact refuseCount_matches laws comparison .apply 2 rfl
  | .cons _ (.cons _ (.cons _ rest)) =>
      exact refuseCount_matches laws comparison .apply 2 (by simp [rest.length_eq])
  | .cons callee (.cons items .nil) =>
      refine comparison.andThen (resolveCallee_matches laws comparison evaluates .apply callee)
        fun _ _ callees => ?_
      refine comparison.andThen (evaluateItems_matches laws comparison evaluates .apply items)
        fun _ _ values => ?_
      exact calls callees values

include evaluates calls in
theorem evaluateMap_matches {operands operands' : List Expr}
    (belong : List.Forall₂ (relation.expressions world) operands operands') :
    comparison.Matches world relation.values (evaluateMap evaluate call operands)
      (evaluateMap evaluate' call' operands') := by
  match belong with
  | .nil => exact refuseCount_matches laws comparison .map 2 rfl
  | .cons _ .nil => exact refuseCount_matches laws comparison .map 2 rfl
  | .cons _ (.cons _ (.cons _ rest)) =>
      exact refuseCount_matches laws comparison .map 2 (by simp [rest.length_eq])
  | .cons callee (.cons items .nil) =>
      refine comparison.andThen (resolveCallee_matches laws comparison evaluates .map callee)
        fun _ _ callees => ?_
      refine comparison.andThen (evaluateItems_matches laws comparison evaluates .map items)
        fun _ _ values => ?_
      refine comparison.andThen (callEach_matches comparison calls callees values)
        fun _ _ results => ?_
      exact comparison.succeed (laws.list results)

include evaluates in
theorem evaluateKey_matches (form : SpecialForm) {expression expression' : Expr}
    (belong : relation.expressions world expression expression') :
    comparison.Matches world Eq (evaluateKey evaluate form expression)
      (evaluateKey evaluate' form expression') := by
  refine comparison.andThen (evaluates belong) fun value value' values => ?_
  rw [laws.string values]
  cases value.head.string? with
  | none => exact comparison.fail (laws.plainFailure rfl)
  | some key => exact comparison.succeed rfl

include evaluates in
theorem evaluateSetProperty_matches {operands operands' : List Expr}
    (belong : List.Forall₂ (relation.expressions world) operands operands')
    (annotates : ∀ {key value target name}, operands = [key, value, target] →
      target.bareSymbol? = some name → relation.writable world name) :
    comparison.Matches world relation.values (evaluateSetProperty evaluate operands)
      (evaluateSetProperty evaluate' operands') := by
  match belong with
  | .nil => exact refuseCount_matches laws comparison .setProperty 3 rfl
  | .cons _ .nil => exact refuseCount_matches laws comparison .setProperty 3 rfl
  | .cons _ (.cons _ .nil) => exact refuseCount_matches laws comparison .setProperty 3 rfl
  | .cons _ (.cons _ (.cons _ (.cons _ rest))) =>
      exact refuseCount_matches laws comparison .setProperty 3 (by simp [rest.length_eq])
  | .cons keys (.cons entries (.cons (a := target) (b := target') targets .nil)) =>
      refine comparison.andThen (evaluateKey_matches laws comparison evaluates .setProperty keys)
        fun key key' sameKey => ?_
      subst sameKey
      refine comparison.andThen (evaluates entries) fun entry entry' values => ?_
      have shows := laws.shows targets
      have target? : ∀ name, target.bareSymbol? = some name → relation.writable world name ∧
          ∀ environment environment', relation.environments world environment environment' →
            relation.Bindings (environment.lookup name) (environment'.lookup name) :=
        fun name bare => ⟨annotates rfl bare, fun _ _ environments =>
          shows.lookup name _ _ (head_of_bareSymbol? bare) environments⟩
      rw [shows.bareSymbol]
      exact comparison.annotateOr target? values (comparison.andThen (evaluates targets)
        fun _ _ results => comparison.succeed (laws.setProperty key results values))

include evaluates in
theorem evaluateGetProperty_matches {operands operands' : List Expr}
    (belong : List.Forall₂ (relation.expressions world) operands operands')
    (reads : ∀ {value value'} (key : String), relation.values value value' →
      relation.values (value.property key) (value'.property key)) :
    comparison.Matches world relation.values (evaluateGetProperty evaluate operands)
      (evaluateGetProperty evaluate' operands') := by
  match belong with
  | .nil => exact refuseCount_matches laws comparison .getProperty 2 rfl
  | .cons _ .nil => exact refuseCount_matches laws comparison .getProperty 2 rfl
  | .cons _ (.cons _ (.cons _ rest)) =>
      exact refuseCount_matches laws comparison .getProperty 2 (by simp [rest.length_eq])
  | .cons keys (.cons targets .nil) =>
      refine comparison.andThen (evaluateKey_matches laws comparison evaluates .getProperty keys)
        fun key key' sameKey => ?_
      subst sameKey
      exact comparison.andThen (evaluates targets)
        fun _ _ values => comparison.succeed (reads key values)

/-- What the head of an application names is the same in both, or fails in both. -/
theorem headCallee_checks {expression expression' : Expr} {environment environment' : Environment}
    (shows : relation.Shows world expression expression')
    (environments : relation.environments world environment environment') :
    relation.Checks relation.Callees (headCallee environment expression.head)
      (headCallee environment' expression'.head) := by
  rw [shows.head]
  unfold headCallee
  have known := shows.atom
  cases shape : expression.head with
  | symbol name =>
      rw [shape] at known
      simp only [Atom.symbol?]
      rcases (shows.lookup name _ _ shape environments).kinds with
        ⟨left, right⟩ | ⟨builtIn, left, right⟩ | ⟨value, value', left, right, values⟩
      · rw [left, right]
        exact .error (laws.headFailure rfl known)
      · rw [left, right]
        exact .ok (.procedure builtIn)
      · rw [left, right]
        simp only
        rcases (laws.lambdaParts values).kinds with
          ⟨left, right⟩ | ⟨parameters, body, body', left, right, functions⟩
        · rw [left, right]
          exact .error (laws.headFailure rfl known)
        · rw [left, right]
          exact .ok (.lambda parameters functions)
  | none => exact .error (laws.headFailure rfl (shape ▸ known))
  | number value => exact .error (laws.headFailure rfl (shape ▸ known))
  | complex value => exact .error (laws.headFailure rfl (shape ▸ known))
  | string content => exact .error (laws.headFailure rfl (shape ▸ known))

include evaluates calls in
theorem evaluateApplication_matches {expression expression' : Expr}
    (shows : relation.Shows world expression expression')
    (belong : List.Forall₂ (relation.expressions world) expression.tail expression'.tail) :
    comparison.Matches world relation.values
      (evaluateApplication evaluate call expression.head expression.tail)
      (evaluateApplication evaluate' call' expression'.head expression'.tail) := by
  refine comparison.andThen (evaluateEach_matches comparison evaluates belong) fun _ _ values => ?_
  refine comparison.reading fun _ _ environments => ?_
  refine comparison.andThen (comparison.check (headCallee_checks laws shows environments))
    fun _ _ callees => ?_
  exact calls callees values

include evaluates calls in
/-- One level of evaluation, for an expression that the correspondence admits. -/
theorem step_matches {expression expression' : Expr}
    (admits : relation.Admits world expression expression') :
    comparison.Matches world relation.values (step evaluate call expression)
      (step evaluate' call' expression') := by
  have shows := admits.shows
  have sameForm : specialForm? expression' = specialForm? expression := by
    unfold specialForm?
    rw [shows.head]
  unfold step
  simp only [sameForm]
  cases special : specialForm? expression with
  | none =>
      -- Neither a special form nor, in particular, tagged as a function.
      have ordinary : expression.head ≠ .symbol Expr.lambdaTag := by
        intro tagged
        unfold specialForm? at special
        rw [tagged] at special
        exact absurd special (by decide)
      rw [shows.isLeaf]
      cases expression.isLeaf with
      | true => exact evaluateLeaf_matches laws comparison shows
      | false =>
          exact evaluateApplication_matches laws comparison evaluates calls shows
            (admits.operands ordinary)
  | some form =>
      have head := head_of_specialForm? special
      have operands (untagged : form ≠ .lambda) :
          List.Forall₂ (relation.expressions world) expression.tail expression'.tail := by
        apply admits.operands
        rw [head]
        cases form with
        | lambda => exact absurd rfl untagged
        | _ => decide
      cases form with
      | sequence => exact evaluateSequence_matches laws comparison evaluates (operands (by decide))
      | define =>
          exact evaluateDefine_matches laws comparison evaluates (operands (by decide))
            (admits.defines head)
      | list => exact evaluateList_matches laws comparison evaluates (operands (by decide))
      | lambda =>
          rw [admits.isLambda head]
          cases isFunction : expression.isLambda with
          | true => exact comparison.succeed (admits.function isFunction)
          | false =>
              obtain ⟨lengths, parameters⟩ := admits.makes head isFunction
              exact evaluateLambda_matches laws comparison lengths parameters
      | apply => exact evaluateApply_matches laws comparison evaluates calls (operands (by decide))
      | map => exact evaluateMap_matches laws comparison evaluates calls (operands (by decide))
      | setProperty =>
          exact evaluateSetProperty_matches laws comparison evaluates (operands (by decide))
            (admits.annotates head)
      | getProperty =>
          exact evaluateGetProperty_matches laws comparison evaluates (operands (by decide))
            (fun key values => admits.reads key head values)

end Rules

end FormLang.Evaluation
