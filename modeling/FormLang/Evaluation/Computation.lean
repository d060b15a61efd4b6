import FormLang.Environment

/-!
Contract: computations of an evaluator.

A computation runs in an environment. It ends with a value or a failure, and leaves
an environment behind in both cases; or it does not end within its budget.

Owns: the type, its sequencing, and the basic computations.
Does not own: what expressions evaluate to.
-/

set_option autoImplicit false

namespace FormLang

/-- A computation in an environment: `none` if the budget ran out, otherwise a value
or a failure together with the environment that is left. -/
def Computation (α : Type) := Environment → Option (Except Failure α × Environment)

namespace Computation

variable {α β : Type}

def succeed (value : α) : Computation α :=
  fun environment => some (.ok value, environment)

def fail (failure : Failure) : Computation α :=
  fun environment => some (.error failure, environment)

def exhausted : Computation α :=
  fun _ => none

/-- Continue with the value of a computation in the environment that it left. A
failure ends the whole. -/
def andThen (computation : Computation α) (next : α → Computation β) : Computation β :=
  fun environment =>
    match computation environment with
    | none => none
    | some (.error failure, left) => some (.error failure, left)
    | some (.ok value, left) => next value left

instance : Monad Computation where
  pure := succeed
  bind := andThen

def environment : Computation Environment :=
  fun current => some (.ok current, current)

def replace (next : Environment) : Computation Unit :=
  fun _ => some (.ok (), next)

/-- The outcome of a check that touches no environment. -/
def check (outcome : Except Failure α) : Computation α :=
  fun current => some (outcome, current)

/-- Run a computation in another environment, which is dropped at the end: the
current one is left as it was. -/
def inside (inner : Environment) (computation : Computation α) : Computation α :=
  fun current => (computation inner).map fun (outcome, _) => (outcome, current)

theorem pure_apply (value : α) (current : Environment) :
    (pure value : Computation α) current = some (.ok value, current) := rfl

theorem bind_apply (computation : Computation α) (next : α → Computation β)
    (current : Environment) :
    (computation >>= next) current =
      match computation current with
      | none => none
      | some (.error failure, left) => some (.error failure, left)
      | some (.ok value, left) => next value left := rfl

/-- A sequence that ends with a value got past its first part with a value. -/
theorem bind_eq_ok {computation : Computation α} {next : α → Computation β}
    {current final : Environment} {result : β}
    (ended : (computation >>= next) current = some (.ok result, final)) :
    ∃ value left, computation current = some (.ok value, left) ∧
      next value left = some (.ok result, final) := by
  rw [bind_apply] at ended
  revert ended
  cases computation current with
  | none => exact fun ended => by cases ended
  | some ending =>
      obtain ⟨outcome, left⟩ := ending
      cases outcome with
      | error failure => exact fun ended => by cases ended
      | ok value => exact fun ended => ⟨value, left, rfl, ended⟩

end Computation

end FormLang
