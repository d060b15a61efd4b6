import FormLang.Evaluation.Evaluate
import FormLang.Proofs.Procedures

/-!
Contract: failures that do not come out of a computation.

That no program was read is for a session to say, not for an evaluation: no rule ends in this way,
nor does any procedure. So a caller who finds this failure knows that nothing was evaluated.

Owns: computations that avoid a failure, why parameters are refused, and one theorem for each rule
of evaluation, then for the recursion, about the failure of a missing program.
-/

set_option autoImplicit false

namespace FormLang

/-! ## Computations -/

/-- The computation never ends with the failure. -/
def Computation.Avoids {α : Type} (failure : Failure) (computation : Computation α) : Prop :=
  ∀ environment left, computation environment ≠ some (.error failure, left)

namespace Computation.Avoids

variable {α β : Type} {failure : Failure}

theorem pure (value : α) : Avoids failure (Pure.pure value : Computation α) := by
  rintro environment left ⟨⟩

theorem fail {other : Failure} (differs : other ≠ failure) :
    Avoids failure (.fail other : Computation α) := by
  rintro environment left ⟨⟩
  exact differs rfl

theorem check {outcome : Except Failure α} (differs : outcome ≠ .error failure) :
    Avoids failure (.check outcome) := by
  rintro environment left ⟨⟩
  exact differs rfl

theorem environment : Avoids failure .environment := by
  rintro environment left ⟨⟩

theorem replace (next : Environment) : Avoids failure (.replace next) := by
  rintro environment left ⟨⟩

theorem bind {computation : Computation α} {next : α → Computation β}
    (first : computation.Avoids failure) (rest : ∀ value, (next value).Avoids failure) :
    (computation >>= next).Avoids failure := by
  intro environment left ended
  rw [bind_apply] at ended
  cases reached : computation environment with
  | none =>
      rw [reached] at ended
      cases ended
  | some ending =>
      obtain ⟨outcome, middle⟩ := ending
      rw [reached] at ended
      cases outcome with
      | error other =>
          cases ended
          exact first environment left reached
      | ok value => exact rest value middle left ended

theorem inside {computation : Computation α} (inner : Environment)
    (avoids : computation.Avoids failure) : (computation.inside inner).Avoids failure := by
  intro environment left ended
  obtain ⟨⟨outcome, innerLeft⟩, reached, same⟩ := Option.map_eq_some_iff.mp ended
  cases same
  exact avoids inner innerLeft reached

end Computation.Avoids

/-- A refusal of a procedure does not say that there is no program. -/
theorem Procedure.Refuses.ne_noProgram {α : Type} {procedure : Procedure}
    {outcome : Except Failure α} (refuses : procedure.Refuses outcome) :
    outcome ≠ .error .noProgram := by
  rintro rfl
  cases refuses .noProgram rfl

namespace Evaluation

open FormLang.Computation

/-- Parameters are refused because one of them is no symbol, or has a name that is taken. -/
theorem checkParameters_eq_error {environment : Environment} {names : List (Option String)}
    {failure : Failure} (refused : checkParameters environment names = .error failure) :
    failure = .parameterNotSymbol ∨
      ∃ name, some name ∈ names ∧ failure = .parameterReserved name := by
  induction names with
  | nil => cases refused
  | cons first rest inductionHypothesis =>
      cases first with
      | none =>
          cases refused
          exact .inl rfl
      | some name =>
          rw [checkParameters] at refused
          split at refused
          · cases refused
            exact .inr ⟨name, List.mem_cons_self, rfl⟩
          · cases others : checkParameters environment rest with
            | ok accepted =>
                rw [others] at refused
                cases refused
            | error other =>
                rw [others] at refused
                cases refused
                rcases inductionHypothesis others with plain | ⟨reserved, member, same⟩
                · exact .inl plain
                · exact .inr ⟨reserved, List.mem_cons_of_mem _ member, same⟩

/-! ## One rule after another -/

section Rules

variable {evaluate : Evaluator} (evaluates : ∀ expression, (evaluate expression).Avoids .noProgram)
variable {call : Caller} (calls : ∀ callee operands, (call callee operands).Avoids .noProgram)
variable (expressions operands : List Expr) (form : SpecialForm) (expression : Expr)

theorem refuseCount_avoids {α : Type} (expected : Nat) :
    (refuseCount form expected operands : Computation α).Avoids .noProgram :=
  .fail nofun

theorem evaluateLeaf_avoids (head : Atom) : (evaluateLeaf head).Avoids .noProgram := by
  cases head with
  | none => exact .fail nofun
  | symbol name =>
      refine .bind .environment fun environment => ?_
      cases environment.lookup name with
      | none => exact .fail nofun
      | some binding =>
          cases binding with
          | value value => exact .pure value
          | procedure builtIn => exact .fail nofun
  | number value => exact .pure _
  | complex value => exact .pure _
  | string content => exact .pure _

include evaluates in
theorem evaluateEach_avoids : (evaluateEach evaluate expressions).Avoids .noProgram := by
  induction expressions with
  | nil => exact .pure []
  | cons first rest inductionHypothesis =>
      exact .bind (evaluates first) fun _ => .bind inductionHypothesis fun _ => .pure _

include evaluates in
theorem evaluateSequence_avoids : (evaluateSequence evaluate expressions).Avoids .noProgram := by
  induction expressions with
  | nil => exact .fail nofun
  | cons first rest inductionHypothesis =>
      cases rest with
      | nil => exact evaluates first
      | cons second rest => exact .bind (evaluates first) fun _ => inductionHypothesis

theorem checkDefinable_ne_noProgram (name : String) (environment : Environment) :
    checkDefinable name environment ≠ .error .noProgram := by
  unfold checkDefinable
  split
  · nofun
  · split <;> nofun

theorem define_ne_noProgram (environment : Environment) (name : String) (value : Expr) :
    environment.define name value ≠ .error .noProgram := by
  unfold Environment.define
  split <;> nofun

include evaluates in
theorem evaluateDefine_avoids : (evaluateDefine evaluate operands).Avoids .noProgram := by
  unfold evaluateDefine
  split
  · split
    · exact .fail nofun
    · refine .bind .environment fun environment => ?_
      refine .bind (.check (checkDefinable_ne_noProgram _ environment)) fun _ => ?_
      refine .bind (evaluates _) fun value => ?_
      refine .bind .environment fun environment => ?_
      refine .bind (.check (define_ne_noProgram environment _ value)) fun extended => ?_
      exact .bind (.replace extended) fun _ => .pure value
  · exact refuseCount_avoids _ _ _

include evaluates in
theorem evaluateList_avoids : (evaluateList evaluate operands).Avoids .noProgram :=
  .bind (evaluateEach_avoids evaluates operands) fun _ => .pure _

theorem checkParameters_ne_noProgram (environment : Environment) (names : List (Option String)) :
    checkParameters environment names ≠ .error .noProgram := by
  intro refused
  rcases checkParameters_eq_error refused with same | ⟨_, -, same⟩ <;> cases same

theorem evaluateLambda_avoids : (evaluateLambda operands).Avoids .noProgram := by
  unfold evaluateLambda
  split
  · refine .bind .environment fun environment => ?_
    exact .bind (.check (checkParameters_ne_noProgram environment _)) fun _ => .pure _
  · exact refuseCount_avoids _ _ _

include evaluates in
theorem call_avoids (enter : Entry) (callee : Callee) :
    (Evaluation.call enter evaluate callee operands).Avoids .noProgram := by
  cases callee with
  | procedure builtIn => exact .check builtIn.apply_refuses.ne_noProgram
  | lambda parameters body =>
      rw [Evaluation.call]
      split
      · exact .bind .environment fun _ => .inside _ (evaluates body)
      · exact .fail nofun

include calls in
theorem callEach_avoids (callee : Callee) : (callEach call callee operands).Avoids .noProgram := by
  induction operands with
  | nil => exact .pure []
  | cons first rest inductionHypothesis =>
      exact .bind (calls callee [first]) fun _ => .bind inductionHypothesis fun _ => .pure _

include evaluates in
theorem resolveCallee_avoids : (resolveCallee evaluate form expression).Avoids .noProgram := by
  refine .bind .environment fun environment => ?_
  split
  · exact .pure _
  · refine .bind (evaluates expression) fun value => ?_
    split
    · exact .pure _
    · exact .fail nofun

include evaluates in
theorem evaluateItems_avoids : (evaluateItems evaluate form expression).Avoids .noProgram := by
  refine .bind (evaluates expression) fun value => ?_
  split
  · exact .pure _
  · exact .fail nofun

include evaluates calls in
theorem evaluateApply_avoids : (evaluateApply evaluate call operands).Avoids .noProgram := by
  unfold evaluateApply
  split
  · refine .bind (resolveCallee_avoids evaluates _ _) fun callee => ?_
    exact .bind (evaluateItems_avoids evaluates _ _) fun items => calls callee items
  · exact refuseCount_avoids _ _ _

include evaluates calls in
theorem evaluateMap_avoids : (evaluateMap evaluate call operands).Avoids .noProgram := by
  unfold evaluateMap
  split
  · refine .bind (resolveCallee_avoids evaluates _ _) fun callee => ?_
    refine .bind (evaluateItems_avoids evaluates _ _) fun items => ?_
    exact .bind (callEach_avoids calls items callee) fun _ => .pure _
  · exact refuseCount_avoids _ _ _

include evaluates in
theorem evaluateKey_avoids : (evaluateKey evaluate form expression).Avoids .noProgram := by
  refine .bind (evaluates expression) fun value => ?_
  split
  · exact .pure _
  · exact .fail nofun

include evaluates in
theorem evaluateSetProperty_avoids : (evaluateSetProperty evaluate operands).Avoids .noProgram := by
  unfold evaluateSetProperty
  split
  · refine .bind (evaluateKey_avoids evaluates _ _) fun key => ?_
    refine .bind (evaluates _) fun value => ?_
    refine .bind .environment fun environment => ?_
    split
    · exact .bind (.replace _) fun _ => .pure _
    · exact .bind (evaluates _) fun _ => .pure _
  · exact refuseCount_avoids _ _ _

include evaluates in
theorem evaluateGetProperty_avoids : (evaluateGetProperty evaluate operands).Avoids .noProgram := by
  unfold evaluateGetProperty
  split
  · refine .bind (evaluateKey_avoids evaluates _ _) fun key => ?_
    exact .bind (evaluates _) fun _ => .pure _
  · exact refuseCount_avoids _ _ _

theorem headCallee_ne_noProgram (environment : Environment) (head : Atom) :
    headCallee environment head ≠ .error .noProgram := by
  unfold headCallee
  split
  · nofun
  · split
    · nofun
    · split <;> nofun
    · nofun

include evaluates calls in
theorem evaluateApplication_avoids (head : Atom) :
    (evaluateApplication evaluate call head operands).Avoids .noProgram := by
  refine .bind (evaluateEach_avoids evaluates operands) fun values => ?_
  refine .bind .environment fun environment => ?_
  exact .bind (.check (headCallee_ne_noProgram environment head)) fun callee => calls callee values

include evaluates calls in
theorem step_avoids : (step evaluate call expression).Avoids .noProgram := by
  unfold step
  split
  · exact evaluateSequence_avoids evaluates _
  · exact evaluateDefine_avoids evaluates _
  · exact evaluateList_avoids evaluates _
  · split
    · exact .pure expression
    · exact evaluateLambda_avoids _
  · exact evaluateApply_avoids evaluates calls _
  · exact evaluateMap_avoids evaluates calls _
  · exact evaluateSetProperty_avoids evaluates _
  · exact evaluateGetProperty_avoids evaluates _
  · split
    · exact evaluateLeaf_avoids _
    · exact evaluateApplication_avoids evaluates calls _ _

end Rules

/-! ## Evaluations -/

theorem evaluateBy_avoids (enter : Entry) (budget : Nat) (expression : Expr) :
    (evaluateBy enter budget expression).Avoids .noProgram := by
  induction budget generalizing expression with
  | zero => nofun
  | succ budget inductionHypothesis =>
      exact step_avoids inductionHypothesis
        (fun callee operands => call_avoids inductionHypothesis operands enter callee) expression

/-- The failures of an evaluation are of other classes than that of a missing program. -/
theorem failureClass_ne_noProgram {expression : Expr} {environment left : Environment}
    {budget : Nat} {failure : Failure}
    (ended : evaluate budget expression environment = some (.error failure, left)) :
    failure.failureClass ≠ .noProgram := by
  intro missing
  cases failure <;> cases missing
  exact evaluateBy_avoids Environment.enter budget expression environment left ended

end Evaluation

end FormLang
