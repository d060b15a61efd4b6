/-!
Contract: the count of a user's interrupts.

The first interrupt is only recorded, the second one in a row asks for the end. The
count is a machine word that whoever delivers interrupts shares with whoever asks.

Owns: the counter and its operations.
-/

set_option autoImplicit false

namespace FormLang.Console

/-- The interrupts since the count was last cleared. -/
structure Interrupts where
  count : UInt64
deriving DecidableEq, Repr

namespace Interrupts

def cleared : Interrupts := ⟨0⟩

/-- Deliver one interrupt, and tell whether another one had come before it. -/
def deliver (interrupts : Interrupts) : Bool × Interrupts :=
  (1 ≤ interrupts.count, ⟨interrupts.count + 1⟩)

def deliverMany (interrupts : Interrupts) (number : Nat) : Interrupts :=
  ⟨interrupts.count + UInt64.ofNat number⟩

/-- Two interrupts or more have come in a row. -/
def exitRequested (interrupts : Interrupts) : Bool :=
  2 ≤ interrupts.count

end Interrupts

end FormLang.Console
