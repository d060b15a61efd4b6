import FormLang.Proofs.Kernel.Progress

/-!
Contract: a worker that is left alone until it has nothing more to do.

A worker rests where it looks at the flag or for a program. From there it takes four steps for
each program that waits, and rests in the same place again.

Owns: what settling, stopping and resetting make of a kernel that rests, as equations that
also say when they have no result, and that settling ends at rest wherever the worker was.
-/

set_option autoImplicit false

namespace FormLang

/-- The answers to programs, one after the other. -/
def Session.respondEach (budget : Nat) (session : Session) :
    List String → Option (List Answer × Session)
  | [] => some ([], session)
  | program :: rest =>
      (session.respond budget program).bind fun (answer, left) =>
        (left.respondEach budget rest).map fun (answers, last) => (answer :: answers, last)

/-- A worker in this stage does nothing as long as no program waits. -/
inductive Stage.Rests : Stage → Prop where
  | checking : Rests .checking
  | fetching : Rests .fetching

namespace Kernel

variable {budget : Nat} {startup : Option String} {waiting : List String} {posted : List Answer}
variable {session : Session} {stage : Stage}

/-- A kernel whose worker may go on. -/
def working (startup : Option String) (waiting : List String) (posted : List Answer)
    (session : Session) (stage : Stage) : Kernel :=
  ⟨startup, ⟨waiting⟩, ⟨posted⟩, true, some ⟨session, stage⟩⟩

/-- A kernel without a worker. -/
def resting (startup : Option String) (waiting : List String) (posted : List Answer)
    (active : Bool) : Kernel :=
  ⟨startup, ⟨waiting⟩, ⟨posted⟩, active, none⟩

/-! ## Settling -/

theorem advanceBy_add (budget first second : Nat) (kernel : Kernel) :
    kernel.advanceBy budget (first + second) =
      (kernel.advanceBy budget first).bind (advanceBy budget second) := by
  induction first generalizing kernel with
  | zero => rw [Nat.zero_add, advanceBy, Option.bind_some]
  | succ first inductionHypothesis =>
      rw [Nat.succ_add, advanceBy, advanceBy, Option.bind_assoc]
      congr 1
      funext next
      exact inductionHypothesis next

/-- Four steps answer one program. -/
theorem advanceBy_one (rests : stage.Rests) (program : String) :
    (working startup (program :: waiting) posted session stage).advanceBy budget 4 =
      (session.respond budget program).map fun (answer, left) =>
        working startup waiting (posted ++ [answer]) left stage := by
  cases responded : session.respond budget program with
  | none =>
      cases rests <;> simp [advanceBy, advance, working, withWorker, Mailbox.take?, responded]
  | some ending =>
      cases rests <;>
        simp [advanceBy, advance, working, withWorker, Mailbox.take?, Mailbox.post, responded]

/-- Four steps for each program that waits answer all of them. -/
theorem advanceBy_each (rests : stage.Rests) :
    (working startup waiting posted session stage).advanceBy budget (4 * waiting.length) =
      (session.respondEach budget waiting).map fun (answers, left) =>
        working startup [] (posted ++ answers) left stage := by
  induction waiting generalizing session posted with
  | nil => simp [advanceBy, Session.respondEach]
  | cons program rest inductionHypothesis =>
      rw [List.length_cons, Nat.mul_succ, Nat.add_comm, advanceBy_add, advanceBy_one rests,
        Session.respondEach]
      cases responded : session.respond budget program with
      | none => rfl
      | some ending =>
          obtain ⟨answer, left⟩ := ending
          rw [Option.map_some, Option.bind_some, inductionHypothesis, Option.bind_some]
          dsimp only
          cases left.respondEach budget rest with
          | none => rfl
          | some following => simp

/-- A worker that has nothing to do comes back to where it rests. -/
theorem advanceBy_idle (rests : stage.Rests) :
    (working startup [] posted session stage).advanceBy budget 2 =
      some (working startup [] posted session stage) := by
  cases rests <;> rfl

theorem settle_working (rests : stage.Rests) :
    (working startup waiting posted session stage).settle budget =
      (session.respondEach budget waiting).map fun (answers, left) =>
        working startup [] (posted ++ answers) left stage := by
  have count : (working startup waiting posted session stage).input.count = waiting.length := rfl
  rw [settle, count, advanceBy_add, advanceBy_each rests]
  cases session.respondEach budget waiting with
  | none => rfl
  | some ending => exact advanceBy_idle rests

/-- A new worker runs the startup program first. -/
theorem settle_preparing :
    (working startup waiting posted session .preparing).settle budget =
      (Session.prepared budget startup).bind fun ready =>
        (ready.respondEach budget waiting).map fun (answers, left) =>
          working startup [] (posted ++ answers) left .fetching := by
  have count : (working startup waiting posted session .preparing).input.count =
      waiting.length := rfl
  rw [settle, count, Nat.add_comm, Nat.add_assoc 1 1, advanceBy_add]
  have first : (working startup waiting posted session .preparing).advanceBy budget 1 =
      (Session.prepared budget startup).map fun ready =>
        working startup waiting posted ready .checking := by
    simp only [advanceBy, advance, working, withWorker]
    cases Session.prepared budget startup <;> rfl
  rw [first]
  cases Session.prepared budget startup with
  | none => rfl
  | some ready =>
      rw [Option.map_some, Option.bind_some, Option.bind_some, Nat.add_comm, advanceBy_add,
        advanceBy_each .checking]
      cases ready.respondEach budget waiting with
      | none => rfl
      | some ending => rfl

/-- Without a worker nothing happens. -/
theorem advanceBy_resting (count : Nat) (active : Bool) :
    (resting startup waiting posted active).advanceBy budget count =
      some (resting startup waiting posted active) := by
  induction count with
  | zero => rfl
  | succ count inductionHypothesis => exact inductionHypothesis

/-! ## Stopping and starting -/

theorem stop_resting (active : Bool) :
    (resting startup waiting posted active).stop budget =
      some (resting startup waiting posted false) :=
  advanceBy_resting 4 false

/-- A worker that rests leaves without an answer. -/
theorem stop_working (rests : stage.Rests) :
    (working startup [] posted session stage).stop budget =
      some (resting startup [] posted false) := by
  cases rests <;> rfl

theorem start_resting (active : Bool) :
    (resting startup waiting posted active).start =
      working startup waiting posted .fresh .preparing := rfl

theorem start_working :
    (working startup waiting posted session stage).start =
      working startup waiting posted session stage := rfl

/-! ## Settling in the middle of the work -/

section Within

variable {kernel next : Kernel} {steps : Nat}

/-- The steps until a worker rests, with nothing that waits, if it may go on. -/
def stepsLeft (waiting : Nat) : Stage → Nat
  | .checking => 4 * waiting
  | .preparing => 4 * waiting + 1
  | .publishing _ => 4 * waiting + 1
  | .holding _ => 4 * waiting + 2
  | .fetching => 4 * waiting - 1

/-- A worker is there that may go on, and has answered everything within some steps. -/
def AnswersWithin (steps : Nat) (kernel : Kernel) : Prop :=
  kernel.active = true ∧ ∃ session stage, kernel.worker = some ⟨session, stage⟩ ∧
    stepsLeft kernel.input.count stage ≤ steps

/-- Every step brings the worker closer to its rest. -/
theorem advance_answersWithin (within : kernel.AnswersWithin steps)
    (advanced : kernel.advance budget = some next) : next.AnswersWithin (steps - 1) := by
  obtain ⟨active, session, stage, worker, few⟩ := within
  cases advance_cases advanced with
  | absent gone => cases gone.symm.trans worker
  | leaves _ inactive => cases inactive.symm.trans active
  | prepares now _ =>
      cases now.symm.trans worker
      exact ⟨active, _, _, rfl, Nat.le_sub_one_of_lt few⟩
  | goesOn now _ =>
      cases now.symm.trans worker
      exact ⟨active, _, _, rfl, Nat.sub_le_sub_right few 1⟩
  | findsNothing now empty =>
      cases now.symm.trans worker
      refine ⟨active, _, _, rfl, ?_⟩
      have none : kernel.input.count = 0 := congrArg List.length empty
      show 4 * kernel.input.count ≤ _
      omega
  | @takes _ _ rest now first =>
      cases now.symm.trans worker
      refine ⟨active, _, _, rfl, ?_⟩
      have some : kernel.input.count = rest.length + 1 := congrArg List.length first
      change 4 * kernel.input.count - 1 ≤ steps at few
      show 4 * rest.length + 2 ≤ steps - 1
      omega
  | answers now _ =>
      cases now.symm.trans worker
      exact ⟨active, _, _, rfl, Nat.le_sub_one_of_lt few⟩
  | posts now =>
      cases now.symm.trans worker
      exact ⟨active, _, _, rfl, Nat.le_sub_one_of_lt few⟩

theorem advanceBy_answersWithin {count : Nat} (within : kernel.AnswersWithin steps)
    (advanced : kernel.advanceBy budget count = some next) : next.AnswersWithin (steps - count) := by
  induction count generalizing kernel steps with
  | zero =>
      cases advanced
      exact within
  | succ count inductionHypothesis =>
      obtain ⟨middle, first, rest⟩ := Option.bind_eq_some_iff.mp advanced
      rw [Nat.add_comm, ← Nat.sub_sub]
      exact inductionHypothesis (advance_answersWithin within first) rest

/-- Settling ends with a worker that rests and nothing that waits, wherever the worker was. -/
theorem settle_rests (active : kernel.active = true) (running : kernel.isActive = true)
    (settled : kernel.settle budget = some next) :
    next.input.waiting = [] ∧
      ∃ session stage, next.worker = some ⟨session, stage⟩ ∧ stage.Rests := by
  obtain ⟨⟨session, stage⟩, worker⟩ := Option.isSome_iff_exists.mp running
  have within : kernel.AnswersWithin (4 * kernel.input.count + 2) := by
    refine ⟨active, session, stage, worker, ?_⟩
    unfold stepsLeft
    split <;> omega
  obtain ⟨-, session, stage, there, few⟩ := advanceBy_answersWithin within settled
  rw [Nat.sub_self] at few
  have none : next.input.count = 0 := by
    unfold stepsLeft at few
    split at few <;> omega
  refine ⟨List.eq_nil_of_length_eq_zero none, session, stage, there, ?_⟩
  cases stage with
  | checking => exact .checking
  | fetching => exact .fetching
  | _ => cases few

end Within

end Kernel

end FormLang
