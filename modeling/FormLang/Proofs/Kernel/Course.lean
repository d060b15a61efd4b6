import FormLang.Proofs.Kernel.Progress
import Mathlib.Logic.Relation

/-!
Contract: the course of a kernel under all orders of steps.

A course is a kernel with its history. The client's operations and the single steps of
the worker follow each other in any order. A stop or a reset is a request first and
returns when the worker has left; what shares the mailboxes goes on meanwhile.

Owns: the history, the steps, and the invariant that they keep.
-/

set_option autoImplicit false

namespace FormLang.Kernel

/-- A session answers programs one after the other, from a fresh session in which the
startup program has run. -/
inductive Serves (startup : Option String) : List (String × Answer) → Session → Prop where
  | prepared {session : Session} (budget : Nat)
      (ready : Session.prepared budget startup = some session) : Serves startup [] session
  | answered {service : List (String × Answer)} {session left : Session} {program : String}
      {answer : Answer} (budget : Nat) (serves : Serves startup service session)
      (responded : session.respond budget program = some (answer, left)) :
      Serves startup (service ++ [(program, answer)]) left

/-- What a client waits for. -/
inductive Request where
  | stop
  | reset
deriving DecidableEq, Repr

/-- A kernel with its history. -/
structure Course where
  kernel : Kernel
  /-- The request that has not returned yet. -/
  request : Option Request
  /-- A stop has returned and no worker was started since. -/
  halted : Bool
  /-- The number of workers that were ever started. -/
  started : Nat
  /-- The programs that were ever submitted, in order. -/
  submitted : List String
  /-- The program that was taken and not answered yet. -/
  held : Option String
  /-- The programs with their answers of every worker that has left, in order. -/
  past : List (List (String × Answer))
  /-- The programs with their answers of the worker that is there. -/
  present : List (String × Answer)
  /-- The answers that were ever taken out of the output mailbox, in order. -/
  received : List Answer

namespace Course

/-- The course of a new kernel. -/
def create (startup : Option String) : Course :=
  ⟨.create startup, none, true, 0, [], none, [], [], []⟩

/-- The programs that were ever answered, in order. -/
def answered (course : Course) : List (String × Answer) :=
  course.past.flatten ++ course.present

/-- The number of workers that are there. -/
def workers (course : Course) : Nat :=
  course.kernel.worker.toList.length

/-- A worker is started, unless there is one. -/
def start (course : Course) : Course :=
  if course.kernel.isActive then course
  else { course with
    kernel := course.kernel.start, halted := false, started := course.started + 1 }

/-- What is seen of a step of the worker: it takes a program, answers what it has taken,
leaves, or does none of these. -/
def observe (course : Course) (next : Kernel) : Course :=
  match course.kernel.worker, next.worker with
  | some ⟨_, .fetching⟩, some ⟨_, .holding program⟩ =>
      { course with kernel := next, held := some program }
  | some ⟨_, .publishing answer⟩, _ =>
      { course with
        kernel := next, held := none
        present := course.present ++ course.held.toList.map fun program => (program, answer) }
  | some _, none =>
      { course with kernel := next, past := course.past ++ [course.present], present := [] }
  | _, _ => { course with kernel := next }

/-- One step of a course. -/
inductive Step : Course → Course → Prop where
  /-- A program is submitted to the kernel or put into its input mailbox. -/
  | submit (course : Course) (program : String) :
      Step course { course with
        kernel := course.kernel.submit program, submitted := course.submitted ++ [program] }
  | receive {course : Course} {answer : Answer} {kernel : Kernel}
      (taken : course.kernel.receive? = some (answer, kernel)) :
      Step course { course with kernel, received := course.received ++ [answer] }
  | start {course : Course} (free : course.request = none) : Step course course.start
  | request {course : Course} (wanted : Request) (free : course.request = none) :
      Step course { course with kernel := course.kernel.requestStop, request := some wanted }
  | stopped {course : Course} (wanted : course.request = some .stop)
      (left : course.kernel.worker = none) :
      Step course { course with request := none, halted := true }
  | restarted {course : Course} (wanted : course.request = some .reset)
      (left : course.kernel.worker = none) : Step course { course.start with request := none }
  | work {course : Course} {next : Kernel} (budget : Nat)
      (advanced : course.kernel.advance budget = some next) : Step course (course.observe next)

/-- A course later on. -/
def Leads : Course → Course → Prop :=
  Relation.ReflTransGen Step

/-! ## The invariant -/

/-- What a worker has taken and answered, where it stands. -/
def ServingAt (course : Course) : Option Worker → Prop
  | none => course.held = none ∧ course.present = []
  | some ⟨session, .preparing⟩ =>
      session = .fresh ∧ course.held = none ∧ course.present = []
  | some ⟨session, .checking⟩ =>
      course.held = none ∧ Serves course.kernel.startup course.present session
  | some ⟨session, .fetching⟩ =>
      course.held = none ∧ Serves course.kernel.startup course.present session
  | some ⟨session, .holding program⟩ =>
      course.held = some program ∧ Serves course.kernel.startup course.present session
  | some ⟨session, .publishing answer⟩ =>
      ∃ program, course.held = some program ∧
        Serves course.kernel.startup (course.present ++ [(program, answer)]) session

/-- What the worker of the kernel has taken and answered. -/
def Serving (course : Course) : Prop :=
  course.ServingAt course.kernel.worker

/-- Every program is waiting, held or answered, once and in order, and so is every answer. -/
structure Lawful (course : Course) : Prop where
  submitted : course.submitted =
    course.answered.map Prod.fst ++ course.held.toList ++ course.kernel.input.waiting
  posted : course.received ++ course.kernel.output.waiting = course.answered.map Prod.snd
  started : course.started = course.past.length + course.workers
  halted : course.halted = true → course.kernel.worker = none
  past : ∀ service ∈ course.past, ∃ session, Serves course.kernel.startup service session
  serving : course.Serving

namespace Lawful

variable {course : Course}

theorem servingAt {worker : Option Worker} (lawful : course.Lawful)
    (present : course.kernel.worker = worker) : course.ServingAt worker :=
  present ▸ lawful.serving

theorem started_present {worker : Worker} (lawful : course.Lawful)
    (present : course.kernel.worker = some worker) :
    course.started = course.past.length + 1 := by
  have started := lawful.started
  rw [workers, present] at started
  exact started

theorem not_halted {worker : Worker} (lawful : course.Lawful)
    (present : course.kernel.worker = some worker) : ¬ course.halted = true := by
  intro halted
  rw [lawful.halted halted] at present
  cases present

theorem create (startup : Option String) : (Course.create startup).Lawful where
  submitted := rfl
  posted := rfl
  started := rfl
  halted _ := rfl
  past _ member := absurd member List.not_mem_nil
  serving := ⟨rfl, rfl⟩

theorem submit (lawful : course.Lawful) (program : String) :
    Lawful { course with
      kernel := course.kernel.submit program, submitted := course.submitted ++ [program] } where
  submitted := by
    change course.submitted ++ [program] = _ ++ _ ++ (course.kernel.input.waiting ++ [program])
    rw [lawful.submitted, List.append_assoc]
    rfl
  posted := lawful.posted
  started := lawful.started
  halted := lawful.halted
  past := lawful.past
  serving := lawful.serving

theorem receive {answer : Answer} {kernel : Kernel} (lawful : course.Lawful)
    (taken : course.kernel.receive? = some (answer, kernel)) :
    Lawful { course with kernel, received := course.received ++ [answer] } := by
  obtain ⟨⟨first, output⟩, took, same⟩ := Option.map_eq_some_iff.mp taken
  cases same
  cases waiting : course.kernel.output.waiting with
  | nil =>
      rw [Mailbox.take?, waiting] at took
      cases took
  | cons message rest =>
      rw [Mailbox.take?, waiting] at took
      cases took
      exact {
        submitted := lawful.submitted
        posted := by
          have posted := lawful.posted
          rw [waiting] at posted
          change (course.received ++ [answer]) ++ rest = _
          rw [List.append_assoc]
          exact posted
        started := lawful.started
        halted := lawful.halted
        past := lawful.past
        serving := lawful.serving }

theorem start (lawful : course.Lawful) : course.start.Lawful := by
  unfold Course.start
  by_cases running : course.kernel.isActive = true
  · rw [if_pos running]
    exact lawful
  · rw [if_neg running]
    have absent := worker_of_not_isActive running
    have fresh : course.kernel.start =
        { course.kernel with active := true, worker := some ⟨.fresh, .preparing⟩ } :=
      if_neg running
    have serving := lawful.servingAt absent
    rw [fresh]
    exact {
      submitted := lawful.submitted
      posted := lawful.posted
      started := by
        have started := lawful.started
        rw [workers, absent] at started
        exact congrArg (· + 1) started
      halted := fun impossible => by cases impossible
      past := lawful.past
      serving := ⟨rfl, serving.1, serving.2⟩ }

/-- The client's waiting is no matter of the mailboxes and the worker. -/
theorem request (lawful : course.Lawful) (wanted : Option Request) :
    Lawful { course with request := wanted } where
  submitted := lawful.submitted
  posted := lawful.posted
  started := lawful.started
  halted := lawful.halted
  past := lawful.past
  serving := lawful.serving

theorem requestStop (lawful : course.Lawful) :
    Lawful { course with kernel := course.kernel.requestStop } where
  submitted := lawful.submitted
  posted := lawful.posted
  started := lawful.started
  halted := lawful.halted
  past := lawful.past
  serving := lawful.serving

theorem stopped (lawful : course.Lawful) (left : course.kernel.worker = none) :
    Lawful { course with request := none, halted := true } where
  submitted := lawful.submitted
  posted := lawful.posted
  started := lawful.started
  halted _ := left
  past := lawful.past
  serving := lawful.serving

/-! ### The worker -/

/-- A step within the loop of the worker, which touches nothing but its own state. -/
theorem withWorker {session next : Session} {stage stage' : Stage} (lawful : course.Lawful)
    (worker : course.kernel.worker = some ⟨session, stage⟩)
    (serving : Serving { course with kernel := course.kernel.withWorker next stage' }) :
    Lawful { course with kernel := course.kernel.withWorker next stage' } where
  submitted := lawful.submitted
  posted := lawful.posted
  started := lawful.started_present worker
  halted halted := absurd halted (lawful.not_halted worker)
  past := lawful.past
  serving := serving

theorem leaves {session : Session} (lawful : course.Lawful)
    (worker : course.kernel.worker = some ⟨session, .checking⟩) :
    Lawful { course with
      kernel := { course.kernel with worker := none }
      past := course.past ++ [course.present], present := [] } := by
  have serving := lawful.servingAt worker
  have answered : (course.past ++ [course.present]).flatten ++ [] = course.answered := by
    rw [List.append_nil, List.flatten_append, List.flatten_singleton]
    rfl
  exact {
    submitted := by
      change course.submitted = ((course.past ++ [course.present]).flatten ++ []).map Prod.fst ++
        course.held.toList ++ course.kernel.input.waiting
      rw [answered]
      exact lawful.submitted
    posted := by
      change _ = ((course.past ++ [course.present]).flatten ++ []).map Prod.snd
      rw [answered]
      exact lawful.posted
    started := by
      change course.started = (course.past ++ [course.present]).length + 0
      rw [lawful.started_present worker, List.length_append]
      rfl
    halted := fun _ => rfl
    past := by
      intro service member
      rcases List.mem_append.mp member with earlier | last
      · exact lawful.past service earlier
      · rw [List.mem_singleton.mp last]
        exact ⟨session, serving.2⟩
    serving := ⟨serving.1, rfl⟩ }

theorem takes {session : Session} {program : String} {rest : List String}
    (lawful : course.Lawful) (worker : course.kernel.worker = some ⟨session, .fetching⟩)
    (next : course.kernel.input.waiting = program :: rest) :
    Lawful { course with
      kernel := { course.kernel with input := ⟨rest⟩ }.withWorker session (.holding program)
      held := some program } := by
  have serving := lawful.servingAt worker
  exact {
    submitted := by
      have submitted := lawful.submitted
      rw [serving.1, next] at submitted
      change course.submitted = course.answered.map Prod.fst ++ [program] ++ rest
      rw [submitted]
      simp only [Option.toList_none, List.append_nil, List.append_assoc, List.singleton_append]
    posted := lawful.posted
    started := lawful.started_present worker
    halted := fun halted => absurd halted (lawful.not_halted worker)
    past := lawful.past
    serving := ⟨rfl, serving.2⟩ }

theorem posts {session : Session} {answer : Answer} (lawful : course.Lawful)
    (worker : course.kernel.worker = some ⟨session, .publishing answer⟩) :
    Lawful { course with
      kernel :=
        { course.kernel with output := course.kernel.output.post answer }.withWorker session
          .checking
      held := none
      present := course.present ++ course.held.toList.map fun program => (program, answer) } := by
  have serving := lawful.servingAt worker
  obtain ⟨program, held, serves⟩ := serving
  have answered : course.past.flatten ++ (course.present ++ [(program, answer)]) =
      course.answered ++ [(program, answer)] :=
    (List.append_assoc _ _ _).symm
  rw [held]
  exact {
    submitted := by
      have submitted := lawful.submitted
      rw [held] at submitted
      change course.submitted = (course.past.flatten ++
        (course.present ++ [(program, answer)])).map Prod.fst ++ [] ++ course.kernel.input.waiting
      rw [answered, List.map_append, List.append_nil]
      exact submitted
    posted := by
      change course.received ++ (course.kernel.output.waiting ++ [answer]) =
        (course.past.flatten ++ (course.present ++ [(program, answer)])).map Prod.snd
      rw [answered, List.map_append, ← List.append_assoc, lawful.posted]
      rfl
    started := lawful.started_present worker
    halted := fun halted => absurd halted (lawful.not_halted worker)
    past := lawful.past
    serving := ⟨rfl, serves⟩ }

theorem work {budget : Nat} {next : Kernel} (lawful : course.Lawful)
    (advanced : course.kernel.advance budget = some next) : (course.observe next).Lawful := by
  unfold observe
  cases advance_cases advanced with
  | absent worker =>
      rw [worker]
      exact lawful
  | prepares worker ready =>
      have serving := lawful.servingAt worker
      simp only [worker]
      exact lawful.withWorker worker ⟨serving.2.1, serving.2.2 ▸ .prepared budget ready⟩
  | goesOn worker _ =>
      have serving := lawful.servingAt worker
      simp only [worker]
      exact lawful.withWorker worker serving
  | leaves worker _ =>
      simp only [worker]
      exact lawful.leaves worker
  | findsNothing worker _ =>
      have serving := lawful.servingAt worker
      simp only [worker]
      exact lawful.withWorker worker serving
  | takes worker first =>
      simp only [worker]
      exact lawful.takes worker first
  | answers worker responded =>
      have serving := lawful.servingAt worker
      simp only [worker]
      exact lawful.withWorker worker ⟨_, serving.1, .answered budget serving.2 responded⟩
  | posts worker =>
      simp only [worker]
      exact lawful.posts worker

/-- Every step keeps the invariant. -/
theorem step {next : Course} (lawful : course.Lawful) (step : Step course next) :
    next.Lawful := by
  cases step with
  | submit program => exact lawful.submit program
  | receive taken => exact lawful.receive taken
  | start free => exact lawful.start
  | request wanted free => exact lawful.requestStop.request (some wanted)
  | stopped wanted left => exact lawful.stopped left
  | restarted wanted left => exact lawful.start.request none
  | work budget advanced => exact lawful.work advanced

/-- The invariant holds over the whole course of a new kernel. -/
theorem leads {startup : Option String} {course : Course}
    (leads : Leads (.create startup) course) : course.Lawful := by
  induction leads with
  | refl => exact .create startup
  | tail _ next inductionHypothesis => exact inductionHypothesis.step next

end Lawful

end Course

end FormLang.Kernel
