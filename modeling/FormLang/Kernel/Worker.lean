import FormLang.Kernel.Answer
import FormLang.Kernel.Mailbox

/-!
Contract: the kernel, a worker with a session of its own between two mailboxes.

The worker takes programs from the input mailbox and posts one answer for each to
the output mailbox. It looks at the stop flag before it takes a program, so a
program that it has taken is always answered. The mailboxes belong to the kernel and
outlive its workers; every worker has a session of its own, prepared by the startup
program.

Owns: the state of a kernel, the single steps of its worker, and the operations of
its client. The worker's steps and the client's operations may follow each other in
any order.
-/

set_option autoImplicit false

namespace FormLang

/-- Where a worker stands in its loop. -/
inductive Stage where
  /-- It is about to run the startup program. -/
  | preparing
  /-- It is about to look at the stop flag. -/
  | checking
  /-- It is about to take a program, if one waits. -/
  | fetching
  | holding (program : String)
  | publishing (answer : Answer)
deriving DecidableEq

structure Worker where
  session : Session
  stage : Stage
deriving DecidableEq

/-- A kernel: the startup program, the two mailboxes, the flag that lets the worker
go on, and the worker if there is one. -/
structure Kernel where
  startup : Option String
  input : Mailbox String
  output : Mailbox Answer
  active : Bool
  worker : Option Worker
deriving DecidableEq

namespace Kernel

def create (startup : Option String) : Kernel where
  startup := startup
  input := .empty
  output := .empty
  active := false
  worker := none

def isActive (kernel : Kernel) : Bool :=
  kernel.worker.isSome

def withWorker (kernel : Kernel) (session : Session) (stage : Stage) : Kernel :=
  { kernel with worker := some ⟨session, stage⟩ }

/-- One step of the worker. A worker that finds the flag taken back leaves. -/
def advance (budget : Nat) (kernel : Kernel) : Option Kernel :=
  match kernel.worker with
  | none => some kernel
  | some ⟨_, .preparing⟩ =>
      (Session.prepared budget kernel.startup).map fun session =>
        kernel.withWorker session .checking
  | some ⟨session, .checking⟩ =>
      if kernel.active then some (kernel.withWorker session .fetching)
      else some { kernel with worker := none }
  | some ⟨session, .fetching⟩ =>
      match kernel.input.take? with
      | none => some (kernel.withWorker session .checking)
      | some (program, input) =>
          some ({ kernel with input }.withWorker session (.holding program))
  | some ⟨session, .holding program⟩ =>
      (session.respond budget program).map fun (answer, left) =>
        kernel.withWorker left (.publishing answer)
  | some ⟨session, .publishing answer⟩ =>
      some ({ kernel with output := kernel.output.post answer }.withWorker session .checking)

def advanceBy (budget : Nat) : Nat → Kernel → Option Kernel
  | 0, kernel => some kernel
  | count + 1, kernel => (kernel.advance budget).bind (advanceBy budget count)

/-- Let the worker go on until no program waits and none is unanswered. It takes four
steps for each program that waits and at most two for what it is doing now. -/
def settle (budget : Nat) (kernel : Kernel) : Option Kernel :=
  kernel.advanceBy budget (4 * kernel.input.count + 2)

/-- Start a worker with a fresh session, unless there is one. -/
def start (kernel : Kernel) : Kernel :=
  if kernel.isActive then kernel
  else { kernel with active := true, worker := some ⟨.fresh, .preparing⟩ }

/-- Take the flag back, so that the worker leaves when it looks at it. -/
def requestStop (kernel : Kernel) : Kernel :=
  { kernel with active := false }

/-- Stop the worker and wait until it has left. After the request it takes at most
four more steps: it may still take one program, and it answers what it has taken. -/
def stop (budget : Nat) (kernel : Kernel) : Option Kernel :=
  kernel.requestStop.advanceBy budget 4

/-- Replace the worker by one with a fresh session. -/
def reset (budget : Nat) (kernel : Kernel) : Option Kernel :=
  (kernel.stop budget).map start

def submit (kernel : Kernel) (program : String) : Kernel :=
  { kernel with input := kernel.input.post program }

/-- Take the next answer out of the output mailbox, if one waits. -/
def receive? (kernel : Kernel) : Option (Answer × Kernel) :=
  kernel.output.take?.map fun (answer, output) => (answer, { kernel with output })

end Kernel

end FormLang
