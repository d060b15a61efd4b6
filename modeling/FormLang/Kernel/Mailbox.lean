/-!
Contract: first-in first-out mailboxes.

Owns: the type, posting, taking, and the count of the messages that wait.
-/

set_option autoImplicit false

namespace FormLang

/-- Messages that wait, in the order in which they are taken. -/
structure Mailbox (α : Type) where
  waiting : List α
deriving DecidableEq, Repr

namespace Mailbox

variable {α : Type}

def empty : Mailbox α := ⟨[]⟩

/-- Put a message behind all that wait. -/
def post (mailbox : Mailbox α) (message : α) : Mailbox α :=
  ⟨mailbox.waiting ++ [message]⟩

/-- Take the message that has waited longest. -/
def take? (mailbox : Mailbox α) : Option (α × Mailbox α) :=
  match mailbox.waiting with
  | [] => none
  | message :: rest => some (message, ⟨rest⟩)

def count (mailbox : Mailbox α) : Nat :=
  mailbox.waiting.length

def isEmpty (mailbox : Mailbox α) : Bool :=
  mailbox.waiting.isEmpty

end Mailbox

end FormLang
