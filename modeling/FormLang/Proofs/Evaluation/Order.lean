import FormLang.Proofs.Evaluation.Activity
import FormLang.Proofs.Evaluation.Agreement
import FormLang.Proofs.Growth

/-!
Contract: environments grow in the order in which an evaluation passes through them.

Owns: the growth of the environment over an evaluation, the order of the moments of one
scope, and the theorem that environments grow along that order.
Does not own: the order of the activities in the scopes of calls, which are dropped.
-/

set_option autoImplicit false

namespace FormLang.Evaluation

open Correspondence

variable {α β γ δ : Type}

/-! ## Over one evaluation -/

/-- Every environment of a scope has grown out of the one that the scope started in. -/
def growth : Invariant Environment where
  environments := Environment.Grows
  expressions _ _ := True
  values _ := True
  functions _ _ := True
  failures _ := True
  writable _ _ := True
  atoms _ := True

theorem growth_laws : growth.Laws :=
  Invariant.ofEnvironments_laws
    (fun value grows _ unbound => grows.trans (.bind_new value unbound))
    (fun key entry grows found => grows.trans (.bind_annotated key entry found))
    (fun _ _ _ => ⟨_, .refl _⟩)

/-- What an evaluation leaves has grown out of what it started in, whatever it ends with. -/
theorem evaluate_grows {budget : Nat} {expression : Expr} {environment left : Environment}
    {outcome : Except Failure Expr}
    (ended : evaluate budget expression environment = some (outcome, left)) :
    environment.Grows left :=
  (Invariant.evaluate_ends growth_laws trivial (.refl environment) ended).2

/-- A call leaves the environment exactly as it was. -/
theorem call_keeps {budget : Nat} {callee : Callee} {operands : List Expr}
    {environment left : Environment} {outcome : Except Failure Expr}
    (ended : callLinked budget callee operands environment = some (outcome, left)) :
    left = environment := by
  cases callee with
  | procedure builtIn =>
      cases ended
      rfl
  | lambda parameters body =>
      unfold callLinked at ended
      simp only [call] at ended
      by_cases fits : parameters.length = operands.length
      · rw [if_pos fits] at ended
        change (evaluate budget body (environment.enter parameters operands)).map
          (fun ending => (ending.1, environment)) = _ at ended
        obtain ⟨ending, -, same⟩ := Option.map_eq_some_iff.mp ended
        cases same
        rfl
      · rw [if_neg fits] at ended
        cases ended
        rfl

/-! ## Behind an activity of the same scope -/

/-- Annotating a name passes on to the other computation, or ends with the annotated value. -/
theorem annotateOr_cases (environment : Environment) (target : Option String) (key : String)
    (entry : Expr) :
    (∀ otherwise, annotateOr target key entry otherwise environment = otherwise environment) ∨
    ∃ name bound, environment.lookup name = some (.value bound) ∧
      ∀ otherwise, annotateOr target key entry otherwise environment =
        some (.ok (bound.setProperty key entry),
          environment.bind name (bound.setProperty key entry)) := by
  cases target with
  | none => exact Or.inl fun _ => rfl
  | some name =>
      simp only [annotateOr, Computation.bind_apply, Computation.environment, Option.bind_some,
        Environment.annotate?_eq]
      cases found : environment.lookup name with
      | none => exact Or.inl fun _ => rfl
      | some binding =>
          cases binding with
          | procedure builtIn => exact Or.inl fun _ => rfl
          | value bound => exact Or.inr ⟨name, bound, found, fun _ => rfl⟩

/-- The computation leaves what has grown out of its environment, and its results are right
ones of pairs that belong together. -/
def Extends (results : α → β → Prop) (computation : Computation β) : Prop :=
  ∀ environment outcome final, computation environment = some (outcome, final) →
    environment.Grows final ∧ ∀ value', outcome = .ok value' → ∃ value, results value value'

theorem Extends.andThen {results : α → β → Prop} {results' : γ → δ → Prop}
    {first : Computation β} {next : β → Computation δ} (firsts : Extends results first)
    (nexts : ∀ value value', results value value' → Extends results' (next value')) :
    Extends results' (first >>= next) := by
  intro environment outcome final ended
  rw [Computation.bind_apply] at ended
  cases reached : first environment with
  | none =>
      rw [reached] at ended
      cases ended
  | some ending =>
      obtain ⟨result, left⟩ := ending
      obtain ⟨grown, paired⟩ := firsts environment result left reached
      rw [reached] at ended
      cases result with
      | error failure =>
          cases ended
          exact ⟨grown, fun value' impossible => by cases impossible⟩
      | ok value' =>
          obtain ⟨value, values⟩ := paired value' rfl
          obtain ⟨grown', paired'⟩ := nexts value value' values left outcome final ended
          exact ⟨grown.trans grown', paired'⟩

/-- The left computation ends like the right one, unless it was struck by the failure: then
what the right one leaves has grown out of `mark`. -/
structure Overtakes (failure : Failure) (mark : Environment) (results : α → β → Prop)
    (computation : Computation α) (computation' : Computation β) : Prop where
  grows : Extends results computation'
  outcomes : ∀ environment,
    (agreement SameEnvironment).Outcomes False () results (computation environment)
        (computation' environment) ∨
      (∃ left, computation environment = some (.error failure, left)) ∧
        ∀ outcome final, computation' environment = some (outcome, final) → mark.Grows final

namespace Overtakes

variable {failure : Failure} {mark : Environment} {results : α → β → Prop}
  {results' : γ → δ → Prop}

/-- Computations that are never struck, and that only let the environment grow. -/
theorem ofMatches {computation : Computation α} {computation' : Computation β}
    (alike : (agreement SameEnvironment).Matches False () results computation computation')
    (grows : ∀ environment outcome final, computation' environment = some (outcome, final) →
      environment.Grows final) : Overtakes failure mark results computation computation' where
  grows := by
    intro environment outcome final ended
    refine ⟨grows environment outcome final ended, ?_⟩
    intro value' result
    have outcomes := alike environment environment rfl
    rw [ended, result] at outcomes
    revert outcomes
    generalize computation environment = ending
    intro outcomes
    cases outcomes with
    | ended checks _ =>
        cases checks with
        | ok values => exact ⟨_, values⟩
    | lagging allowed => exact allowed.elim
  outcomes environment := .inl (alike environment environment rfl)

theorem andThen {first : Computation α} {first' : Computation β} {next : α → Computation γ}
    {next' : β → Computation δ} (firsts : Overtakes failure mark results first first')
    (nexts : ∀ value value', results value value' →
      Overtakes failure mark results' (next value) (next' value')) :
    Overtakes failure mark results' (first >>= next) (first' >>= next') where
  grows := firsts.grows.andThen fun value value' values => (nexts value value' values).grows
  outcomes environment := by
    have paired := firsts.grows environment
    have outcomes := firsts.outcomes environment
    rw [Computation.bind_apply, Computation.bind_apply]
    revert paired outcomes
    generalize first environment = ending
    generalize first' environment = ending'
    intro paired outcomes
    rcases outcomes with outcomes | ⟨⟨left, rfl⟩, passed⟩
    · cases outcomes with
      | stalled => exact .inl .stalled
      | lagging allowed => exact allowed.elim
      | @ended outcome outcome' left left' checks lefts =>
          obtain rfl : left = left' := lefts
          cases checks with
          | error failures => exact .inl (.ended (.error failures) rfl)
          | ok values => exact (nexts _ _ values).outcomes left
    · -- Struck before: whatever the right one does next, it stays behind the mark.
      refine .inr ⟨⟨left, rfl⟩, ?_⟩
      intro outcome final ended
      cases ending' with
      | none => cases ended
      | some ending' =>
          obtain ⟨outcome', left'⟩ := ending'
          have behind := passed outcome' left' rfl
          cases outcome' with
          | error failure' =>
              cases ended
              exact behind
          | ok value' =>
              obtain ⟨value, values⟩ := (paired _ _ rfl).2 value' rfl
              have grown := ((nexts value value' values).grows left' outcome final ended).1
              exact behind.trans grown

theorem check {outcome : Except Failure α} {outcome' : Except Failure β}
    (checks : (agreement SameEnvironment).Checks results outcome outcome') :
    Overtakes failure mark results (.check outcome) (.check outcome') := by
  refine ofMatches (.check checks) fun environment _ _ ended => ?_
  cases ended
  exact .refl environment

theorem bindNew {name : String} (value : Expr) (ordinary : SpecialForm.named? name = none) :
    Overtakes failure mark Eq (bindNew name value) (Evaluation.bindNew name value) := by
  refine ofMatches (Matches.bindNew same_laws trivial trivial ordinary
    (fun _ _ same => agreement_bindings (same.lookup name)) rfl) ?_
  intro environment outcome final ended
  change (Computation.check (environment.define name value) >>= fun extended => do
    Computation.replace extended
    return value) environment = _ at ended
  rw [Environment.define_eq] at ended
  cases unbound : environment.lookup name with
  | none =>
      rw [unbound] at ended
      cases ended
      exact .bind_new value unbound
  | some binding =>
      rw [unbound] at ended
      cases ended
      exact .refl environment

theorem annotateOr {target : Option String} {key : String} {entry : Expr}
    {otherwise otherwise' : Computation Expr}
    (others : Overtakes failure mark Eq otherwise otherwise') :
    Overtakes failure mark Eq (annotateOr target key entry otherwise)
      (Evaluation.annotateOr target key entry otherwise') := by
  constructor
  · intro environment outcome final ended
    rcases annotateOr_cases environment target key entry with passes | ⟨name, bound, found, ends⟩
    · rw [passes otherwise'] at ended
      exact others.grows environment outcome final ended
    · rw [ends otherwise'] at ended
      cases ended
      exact ⟨.bind_annotated key entry found, fun value' _ => ⟨value', rfl⟩⟩
  · intro environment
    rcases annotateOr_cases environment target key entry with passes | ⟨name, bound, found, ends⟩
    · rw [passes otherwise, passes otherwise']
      exact others.outcomes environment
    · rw [ends otherwise, ends otherwise']
      exact .inl (.ended (.ok rfl) rfl)

end Overtakes

/-- Overtaking is a comparison. -/
def overtaking (failure : Failure) (mark : Environment) :
    Comparison (agreement SameEnvironment) where
  Matches _ := Overtakes failure mark
  succeed values := .check (.ok values)
  fail failures := .check (.error failures)
  check := .check
  andThen := .andThen
  reading := by
    intro α β _ results next next' nexts
    constructor
    · intro environment
      exact (nexts environment environment rfl).grows environment
    · intro environment
      exact (nexts environment environment rfl).outcomes environment
  bindNew := by
    intro _ name value value' _ _ ordinary _ same
    subst same
    exact .bindNew value ordinary
  annotateOr := by
    intro _ target key entry entry' otherwise otherwise' _ same others
    subst same
    exact .annotateOr others

section Behind

variable {evaluate : Evaluator} {call : Caller} {inner outer : Expr}
variable {environment current mark : Environment}

/-- An evaluation that would be struck at an activity within it leaves what has grown out of
everything that this activity leaves. -/
theorem step_grows_behind
    (evaluates : ∀ expression environment outcome final,
      evaluate expression environment = some (outcome, final) → environment.Grows final)
    (calls : ∀ callee operands environment outcome final,
      call callee operands environment = some (outcome, final) → environment.Grows final)
    (passes : ∀ outcome final, evaluate inner current = some (outcome, final) → mark.Grows final)
    (surfaces : Surfaces current fun failure =>
      step (evaluateFailing evaluate inner current failure) call outer environment)
    {outcome : Except Failure Expr} {final : Environment}
    (ended : step evaluate call outer environment = some (outcome, final)) :
    mark.Grows final := by
  have overtakes (failure : Failure) : Overtakes failure mark Eq
      (step (evaluateFailing evaluate inner current failure) call outer)
      (step evaluate call outer) := by
    have admitted : (agreement SameEnvironment).Admits () outer outer := same_admits rfl
    refine step_matches same_laws (overtaking failure mark) ?_ ?_ admitted
    · intro expression expression' same
      subst same
      refine ⟨fun scope outcome final ended =>
        ⟨evaluates expression scope outcome final ended, fun value' _ => ⟨value', rfl⟩⟩, ?_⟩
      intro scope
      unfold evaluateFailing
      by_cases struck : expression = inner ∧ scope = current
      · rw [if_pos struck]
        obtain ⟨rfl, rfl⟩ := struck
        exact .inr ⟨⟨_, rfl⟩, passes⟩
      · rw [if_neg struck]
        exact .inl (same_outcomes _)
    · intro callee callee' operands operands' callees same
      obtain rfl : operands = operands' := List.forall₂_eq_eq_eq ▸ same
      obtain rfl : callee = callee' := agreement_callees callees
      refine .ofMatches ?_ (calls callee operands)
      intro scope scope' sameScope
      obtain rfl : scope = scope' := sameScope
      exact same_outcomes _
  -- Two failures cannot both be the one that the evaluation ends with by itself.
  have own (failure : Failure) : outcome = .error failure ∨ mark.Grows final := by
    have outcomes := (overtakes failure).outcomes environment
    have struck : step (evaluateFailing evaluate inner current failure) call outer environment =
        some (.error failure, current) := surfaces failure
    rw [struck, ended] at outcomes
    rcases outcomes with outcomes | ⟨-, behind⟩
    · cases outcomes with
      | ended checks _ =>
          cases checks with
          | error failures => exact .inl (congrArg Except.error failures.symm)
    · exact .inr (behind outcome final rfl)
  rcases own .noProgram with first | behind
  · rcases own .emptySequence with second | behind
    · rw [first] at second
      cases second
    · exact behind
  · exact behind

end Behind

/-! ## The moments of a scope -/

/-- A moment of a scope and a later one. -/
inductive Follows : Environment → Environment → Prop where
  /-- An evaluation has ended. -/
  | ended {expression : Expr} {environment left : Environment} {outcome : Except Failure Expr}
      (budget : Nat) (ended : evaluate budget expression environment = some (outcome, left)) :
      Follows environment left
  /-- An evaluation has come to an evaluation within it. -/
  | begun {outer inner : Expr} {environment current : Environment}
      (starts : Starts (.evaluation outer environment) (.evaluation inner current)) :
      Follows environment current
  /-- An evaluation has come from one evaluation within it to another one. -/
  | passed {outer inner next : Expr} {environment current left following : Environment}
      {outcome : Except Failure Expr} (budget enough : Nat)
      (ended : evaluate budget inner current = some (outcome, left))
      (different : (inner, current) ≠ (next, following))
      (starts : Surfaces following fun failure =>
        step (evaluateFailing (evaluate enough) next following failure) (callLinked enough)
          outer environment)
      (before : ∀ other, Surfaces current fun failure =>
        step (evaluateFailing (evaluateFailing (evaluate enough) next following other)
          inner current failure) (callLinked enough) outer environment) :
      Follows left following
  /-- An evaluation has ended after an evaluation within it. -/
  | finished {outer inner : Expr} {environment current left final : Environment}
      {outcome outcome' : Except Failure Expr} (budget enough : Nat)
      (starts : Starts (.evaluation outer environment) (.evaluation inner current))
      (inside : evaluate budget inner current = some (outcome, left))
      (ended : evaluate enough outer environment = some (outcome', final)) :
      Follows left final

/-- One moment of a scope is later than another one, or the same. -/
def Later : Environment → Environment → Prop :=
  Relation.ReflTransGen Follows

theorem evaluateFailing_grows {budget : Nat} {inner : Expr} {current : Environment}
    {failure : Failure} (expression : Expr) (environment : Environment)
    (outcome : Except Failure Expr) (final : Environment)
    (ended : evaluateFailing (evaluate budget) inner current failure expression environment =
      some (outcome, final)) : environment.Grows final := by
  unfold evaluateFailing at ended
  by_cases struck : expression = inner ∧ environment = current
  · rw [if_pos struck] at ended
    cases ended
    exact .refl environment
  · rw [if_neg struck] at ended
    exact evaluate_grows ended

theorem callLinked_grows {budget : Nat} (callee : Callee) (operands : List Expr)
    (environment : Environment) (outcome : Except Failure Expr) (final : Environment)
    (ended : callLinked budget callee operands environment = some (outcome, final)) :
    environment.Grows final :=
  call_keeps ended ▸ .refl environment

/-- What surfaces within a budget surfaces within any greater one. -/
theorem surfaces_mono {budget budget' : Nat} (covered : budget ≤ budget') {outer inner : Expr}
    {environment current : Environment}
    (surfaces : Surfaces current fun failure =>
      step (evaluateFailing (evaluate budget) inner current failure) (callLinked budget)
        outer environment) :
    Surfaces current fun failure =>
      step (evaluateFailing (evaluate budget') inner current failure) (callLinked budget')
        outer environment := by
  intro failure
  have evaluates : ∀ {expression expression' : Expr}, expression = expression' →
      (agreement SameEnvironment).Matches True () Eq
        (evaluateFailing (evaluate budget) inner current failure expression)
        (evaluateFailing (evaluate budget') inner current failure expression') := by
    intro expression expression' same scope scope' sameScope
    subst same
    obtain rfl : scope = scope' := sameScope
    unfold evaluateFailing
    by_cases struck : expression = inner ∧ scope = current
    · rw [if_pos struck, if_pos struck]
      exact same_outcomes _
    · rw [if_neg struck, if_neg struck]
      exact evaluateBy_covered covered rfl scope scope rfl
  have calls : ∀ {callee callee' : Callee} {operands operands' : List Expr},
      (agreement SameEnvironment).Callees callee callee' → List.Forall₂ Eq operands operands' →
      (agreement SameEnvironment).Matches True () Eq (callLinked budget callee operands)
        (callLinked budget' callee' operands') :=
    call_matches same_laws (same_calls Environment.enter) (evaluateBy_covered covered)
  have steps : (agreement SameEnvironment).Matches True () Eq
      (step (evaluateFailing (evaluate budget) inner current failure) (callLinked budget) outer)
      (step (evaluateFailing (evaluate budget') inner current failure) (callLinked budget')
        outer) :=
    step_matches same_laws (matching same_laws True) evaluates calls (same_admits rfl)
  have surfaced : step (evaluateFailing (evaluate budget) inner current failure)
      (callLinked budget) outer environment = some (.error failure, current) := surfaces failure
  have outcomes := steps environment environment rfl
  rw [surfaced] at outcomes
  exact same_of_outcomes outcomes

/-- However an evaluation ends, it leaves what has grown out of everything that an
evaluation within it leaves. -/
theorem starts_grows {outer inner : Expr} {environment current mark : Environment}
    (starts : Starts (.evaluation outer environment) (.evaluation inner current))
    (passes : ∀ {budget outcome left}, evaluate budget inner current = some (outcome, left) →
      mark.Grows left)
    {budget : Nat} {outcome : Except Failure Expr} {final : Environment}
    (ended : evaluate budget outer environment = some (outcome, final)) : mark.Grows final := by
  cases starts with
  | evaluation met surfaces =>
      -- A budget at which the inner evaluation is met and the outer one ends.
      have common := surfaces_mono (Nat.le_max_left met budget) surfaces
      have whole : step (evaluate (max met budget)) (callLinked (max met budget)) outer
          environment = some (outcome, final) :=
        evaluate_mono (show budget ≤ max met budget + 1 by omega) ended
      refine step_grows_behind (fun _ _ _ _ => evaluate_grows) callLinked_grows ?_ common whole
      intro outcome' left inside
      exact passes inside

/-- Environments grow from any moment of a scope to the later ones. -/
theorem Follows.grows {earlier later : Environment} (follows : Follows earlier later) :
    earlier.Grows later := by
  cases follows with
  | ended budget ended => exact evaluate_grows ended
  | begun starts =>
      exact (Invariant.starts_evaluation growth_laws starts ⟨trivial, .refl earlier⟩).2
  | passed budget enough ended different starts before =>
      refine step_grows_behind (fun _ _ _ _ => evaluateFailing_grows _ _ _ _) callLinked_grows
        ?_ (before .noProgram) (starts .noProgram)
      intro outcome' left' ended'
      unfold evaluateFailing at ended'
      rw [if_neg (fun same => different (by rw [same.1, same.2]))] at ended'
      cases evaluate_unique ended ended'
      exact .refl earlier
  | finished budget enough starts inside ended =>
      refine starts_grows starts (fun inside' => ?_) ended
      cases evaluate_unique inside inside'
      exact .refl earlier

theorem Later.grows {earlier later : Environment} (order : Later earlier later) :
    earlier.Grows later := by
  induction order with
  | refl => exact .refl earlier
  | tail _ follows inductionHypothesis => exact inductionHypothesis.trans follows.grows

end FormLang.Evaluation
