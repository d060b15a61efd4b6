import FormLang.Proofs.Evaluation.Order

/-!
Contract: how evaluations end, whatever their budget.

A budget limits an evaluation without taking part in it: what ends within one ends in the same
way within every greater one. So the ending of a computation follows from the endings of its
parts, in their order, and nothing has to be said about the budgets.

Owns: computations that a greater budget does not change, their endings, sequences of them, and
the endings of evaluations and calls.
Does not own: what expressions evaluate to.
-/

set_option autoImplicit false

namespace FormLang.Evaluation

variable {α β γ : Type}

/-- A computation for every budget. -/
abbrev Budgeted (α : Type) := Nat → Computation α

namespace Budgeted

/-- What ends within a budget ends in the same way within every greater one. -/
def Stable (computation : Budgeted α) : Prop :=
  ∀ budget budget', budget ≤ budget' → ∀ environment ending,
    computation budget environment = some ending → computation budget' environment = some ending

/-- The ending of the computation, with a budget that suffices. -/
def Ends (computation : Budgeted α) (environment : Environment) (outcome : Except Failure α)
    (left : Environment) : Prop :=
  ∃ budget, computation budget environment = some (outcome, left)

/-- One computation behind another, within the same budget. -/
def andThen (first : Budgeted α) (next : α → Budgeted β) : Budgeted β :=
  fun budget => first budget >>= fun value => next value budget

theorem andThen_assoc (first : Budgeted α) (next : α → Budgeted β) (last : β → Budgeted γ) :
    (first.andThen next).andThen last = first.andThen fun value => (next value).andThen last := by
  funext budget environment
  simp only [andThen, Computation.bind_apply]
  cases first budget environment with
  | none => rfl
  | some ending =>
      obtain ⟨outcome, middle⟩ := ending
      cases outcome <;> rfl

theorem stable_const (computation : Computation α) : Stable fun _ => computation :=
  fun _ _ _ _ _ ended => ended

theorem ends_const_iff {computation : Computation α} {environment left : Environment}
    {outcome : Except Failure α} :
    Ends (fun _ => computation) environment outcome left ↔
      computation environment = some (outcome, left) :=
  ⟨fun ⟨_, ended⟩ => ended, fun ended => ⟨0, ended⟩⟩

section Sequences

variable {first : Budgeted α} {next : α → Budgeted β}
variable {environment middle left left' : Environment}

theorem Stable.andThen (stable : first.Stable) (stables : ∀ value, (next value).Stable) :
    (first.andThen next).Stable := by
  intro budget budget' covered environment ending ended
  unfold Budgeted.andThen at ended ⊢
  rw [Computation.bind_apply] at ended ⊢
  cases reached : first budget environment with
  | none =>
      rw [reached] at ended
      cases ended
  | some reachedEnding =>
      rw [stable budget budget' covered environment _ reached]
      rw [reached] at ended
      obtain ⟨outcome, middle⟩ := reachedEnding
      cases outcome with
      | error failure => exact ended
      | ok value => exact stables value budget budget' covered middle ending ended

/-- A computation ends in at most one way. -/
theorem Ends.unique {outcome outcome' : Except Failure α} (stable : first.Stable)
    (ends : first.Ends environment outcome left) (ends' : first.Ends environment outcome' left') :
    outcome = outcome' ∧ left = left' := by
  obtain ⟨budget, ended⟩ := ends
  obtain ⟨budget', ended'⟩ := ends'
  have most := stable budget _ (Nat.le_max_left budget budget') environment _ ended
  have most' := stable budget' _ (Nat.le_max_right budget budget') environment _ ended'
  rw [most] at most'
  exact Prod.mk.inj (Option.some.inj most')

/-- Where a sequence ends, its first part does. -/
theorem Ends.begins {outcome : Except Failure β}
    (ends : (first.andThen next).Ends environment outcome left) :
    ∃ reached middle, first.Ends environment reached middle := by
  obtain ⟨budget, ended⟩ := ends
  unfold Budgeted.andThen at ended
  rw [Computation.bind_apply] at ended
  cases reached : first budget environment with
  | none =>
      rw [reached] at ended
      cases ended
  | some ending => exact ⟨ending.1, ending.2, budget, reached⟩

/-- Behind a value, a sequence ends like its second part. -/
theorem ends_andThen_of_ok {value : α} {outcome : Except Failure β} (stable : first.Stable)
    (stables : ∀ value, (next value).Stable) (ends : first.Ends environment (.ok value) middle) :
    (first.andThen next).Ends environment outcome left ↔ (next value).Ends middle outcome left := by
  obtain ⟨budget, ended⟩ := ends
  have behind (enough : Nat) (covered : budget ≤ enough) :
      first.andThen next enough environment = next value enough middle := by
    unfold Budgeted.andThen
    rw [Computation.bind_apply, stable budget enough covered environment _ ended]
  constructor
  · rintro ⟨budget', whole⟩
    have most := stable.andThen stables budget' _ (Nat.le_max_right budget budget') _ _ whole
    rw [behind _ (Nat.le_max_left budget budget')] at most
    exact ⟨_, most⟩
  · rintro ⟨budget', part⟩
    have most := stables value budget' _ (Nat.le_max_right budget budget') _ _ part
    rw [← behind _ (Nat.le_max_left budget budget')] at most
    exact ⟨_, most⟩

/-- A failure of its first part ends a sequence. -/
theorem ends_andThen_of_error {failure : Failure} {outcome : Except Failure β}
    (stable : first.Stable) (stables : ∀ value, (next value).Stable)
    (ends : first.Ends environment (.error failure) middle) :
    (first.andThen next).Ends environment outcome left ↔
      outcome = .error failure ∧ left = middle := by
  have failed : (first.andThen next).Ends environment (.error failure) middle := by
    obtain ⟨budget, ended⟩ := ends
    refine ⟨budget, ?_⟩
    unfold Budgeted.andThen
    rw [Computation.bind_apply, ended]
  constructor
  · exact fun whole => whole.unique (stable.andThen stables) failed
  · rintro ⟨rfl, rfl⟩
    exact failed

/-- A sequence ends with a value if both of its parts do. -/
theorem ends_andThen_ok_iff {result : β} (stable : first.Stable)
    (stables : ∀ value, (next value).Stable) :
    (first.andThen next).Ends environment (.ok result) left ↔
      ∃ value middle, first.Ends environment (.ok value) middle ∧
        (next value).Ends middle (.ok result) left := by
  constructor
  · intro ends
    obtain ⟨reached, middle, begins⟩ := ends.begins
    cases reached with
    | error failure => cases ((ends_andThen_of_error stable stables begins).mp ends).1
    | ok value => exact ⟨value, middle, begins, (ends_andThen_of_ok stable stables begins).mp ends⟩
  · rintro ⟨value, middle, begins, ends⟩
    exact (ends_andThen_of_ok stable stables begins).mpr ends

/-- A sequence fails if one of its parts does, the second one behind a value of the first. -/
theorem ends_andThen_error_iff {failure : Failure} (stable : first.Stable)
    (stables : ∀ value, (next value).Stable) :
    (first.andThen next).Ends environment (.error failure) left ↔
      first.Ends environment (.error failure) left ∨
        ∃ value middle, first.Ends environment (.ok value) middle ∧
          (next value).Ends middle (.error failure) left := by
  constructor
  · intro ends
    obtain ⟨reached, middle, begins⟩ := ends.begins
    cases reached with
    | error other =>
        obtain ⟨same, rfl⟩ := (ends_andThen_of_error stable stables begins).mp ends
        cases same
        exact .inl begins
    | ok value =>
        exact .inr ⟨value, middle, begins, (ends_andThen_of_ok stable stables begins).mp ends⟩
  · rintro (begins | ⟨value, middle, begins, ends⟩)
    · exact (ends_andThen_of_error stable stables begins).mpr ⟨rfl, rfl⟩
    · exact (ends_andThen_of_ok stable stables begins).mpr ends

end Sequences

end Budgeted

/-! ## Evaluations and calls -/

/-- The evaluation of the expression ends with this outcome, leaving this environment. -/
def Ends (expression : Expr) : Environment → Except Failure Expr → Environment → Prop :=
  Budgeted.Ends fun budget => evaluate budget expression

/-- The call ends with this outcome, leaving some environment. -/
def Calls (callee : Callee) (operands : List Expr) (environment : Environment)
    (outcome : Except Failure Expr) : Prop :=
  ∃ left, Budgeted.Ends (fun budget => callLinked budget callee operands) environment outcome left

theorem stable_evaluate (expression : Expr) :
    Budgeted.Stable fun budget => evaluate budget expression :=
  fun _ _ covered _ _ ended => evaluate_mono covered ended

theorem stable_callLinked (callee : Callee) (operands : List Expr) :
    Budgeted.Stable fun budget => callLinked budget callee operands := by
  cases callee with
  | procedure builtIn => exact Budgeted.stable_const _
  | lambda parameters body =>
      by_cases fits : parameters.length = operands.length
      · intro budget budget' covered environment ending ended
        simp only [callLinked, call, if_pos fits] at ended ⊢
        change (evaluate budget body (environment.enter parameters operands)).map
          (fun ending => (ending.1, environment)) = _ at ended
        change (evaluate budget' body (environment.enter parameters operands)).map
          (fun ending => (ending.1, environment)) = _
        obtain ⟨inner, reached, same⟩ := Option.map_eq_some_iff.mp ended
        rw [evaluate_mono covered reached, ← same]
        rfl
      · simp only [callLinked, call, if_neg fits]
        exact Budgeted.stable_const _

section Endings

variable {expression : Expr} {environment left : Environment}
variable {outcome : Except Failure Expr} {callee : Callee} {operands : List Expr}

/-- An evaluation ends like one step of it. -/
theorem ends_iff_step {steps : Budgeted Expr}
    (step_eq : ∀ budget, step (evaluate budget) (callLinked budget) expression = steps budget) :
    Ends expression environment outcome left ↔ steps.Ends environment outcome left := by
  constructor
  · rintro ⟨budget, ended⟩
    obtain _ | budget := budget
    · cases ended
    · exact ⟨budget, by rw [← step_eq]; exact ended⟩
  · rintro ⟨budget, ended⟩
    exact ⟨budget + 1, by rw [← step_eq] at ended; exact ended⟩

/-- A call leaves the environment that it was made in. -/
theorem callLinked_ends_iff :
    Budgeted.Ends (fun budget => callLinked budget callee operands) environment outcome left ↔
      Calls callee operands environment outcome ∧ left = environment := by
  constructor
  · intro ends
    obtain ⟨budget, ended⟩ := ends
    exact ⟨⟨left, budget, ended⟩, call_keeps ended⟩
  · rintro ⟨⟨left', budget, ended⟩, rfl⟩
    exact ⟨budget, by rw [ended, call_keeps ended]⟩

end Endings

end FormLang.Evaluation
