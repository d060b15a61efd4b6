import FormLang.Kernel.Mailbox

/-!
Contract: the ways of taking a message out of a mailbox that threads share.

A thread has the mailbox to itself for one turn at a time. A consumer that finds a message takes
it. One that finds none gives up or goes to sleep, as its patience is. It has another turn when
it is woken, which may be for a message that another consumer has taken by then, or for none at
all, and a last one when its deadline has passed.

Owns: what a consumer does in one turn.
Does not own: whose turn it is.
-/

set_option autoImplicit false

namespace FormLang

/-- How long a consumer waits for a message. -/
inductive Patience where
  | impatient
  /-- Until a deadline. -/
  | limited
  | unlimited
deriving DecidableEq, Repr

/-- Why a consumer has a turn. -/
inductive Occasion where
  | called
  | woken
  /-- Its deadline has passed while it slept. -/
  | expired
deriving DecidableEq, Repr

/-- How a turn ends for the consumer. -/
inductive Turn (α : Type) where
  | returns (message : Option α)
  | sleeps
deriving DecidableEq, Repr

/-- One turn of a consumer, and the mailbox behind it. -/
def Mailbox.turn {α : Type} (mailbox : Mailbox α) (patience : Patience) (occasion : Occasion) :
    Turn α × Mailbox α :=
  match mailbox.take? with
  | some (message, rest) => (.returns (some message), rest)
  | none =>
      match patience, occasion with
      | .impatient, _ => (.returns none, mailbox)
      | .limited, .expired => (.returns none, mailbox)
      | _, _ => (.sleeps, mailbox)

end FormLang
