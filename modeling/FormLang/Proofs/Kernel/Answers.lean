import FormLang.Proofs.Kernel.Course
import Mathlib.Control.Monad.Basic

/-!
Contract: exactly one answer for each program, in order, from the right session.

Owns: the theorem about every course of a kernel, and the stop and the reset of a kernel as
courses.
-/

set_option autoImplicit false

namespace FormLang.Kernel

variable {course next : Course} {budget count : Nat} {kernel : Kernel}

/-- Starting a kernel that has a worker changes nothing. -/
theorem start_of_isActive (running : kernel.isActive = true) : kernel.start = kernel :=
  if_pos running

namespace Course

theorem start_kernel (course : Course) : course.start.kernel = course.kernel.start := by
  unfold Course.start
  by_cases running : course.kernel.isActive = true
  · rw [if_pos running, start_of_isActive running]
  · rw [if_neg running]

theorem observe_kernel (course : Course) (next : Kernel) : (course.observe next).kernel = next := by
  unfold observe
  split <;> rfl

theorem observe_request (course : Course) (next : Kernel) :
    (course.observe next).request = course.request := by
  unfold observe
  split <;> rfl

theorem observe_started (course : Course) (next : Kernel) :
    (course.observe next).started = course.started := by
  unfold observe
  split <;> rfl

/-- A worker is new only where there was none, and then its session is fresh. -/
theorem start_started (course : Course) :
    course.start.started = course.started ∨
      course.kernel.worker = none ∧ course.start.started = course.started + 1 ∧
        course.start.kernel.worker = some ⟨.fresh, .preparing⟩ := by
  unfold Course.start
  by_cases running : course.kernel.isActive = true
  · rw [if_pos running]
    exact .inl rfl
  · rw [if_neg running]
    have fresh : course.kernel.start.worker = some ⟨.fresh, .preparing⟩ := by
      unfold Kernel.start
      rw [if_neg running]
    exact .inr ⟨worker_of_not_isActive running, rfl, fresh⟩

theorem step_started (step : Step course next) :
    next.started = course.started ∨
      course.kernel.worker = none ∧ next.started = course.started + 1 ∧
        next.kernel.worker = some ⟨.fresh, .preparing⟩ := by
  cases step with
  | submit program => exact .inl rfl
  | receive taken => exact .inl rfl
  | start free => exact course.start_started
  | request wanted free => exact .inl rfl
  | stopped wanted left => exact .inl rfl
  | restarted wanted left => exact course.start_started
  | work budget advanced => exact .inl (course.observe_started _)

/-- The startup program stays the same. -/
theorem step_startup (step : Step course next) :
    next.kernel.startup = course.kernel.startup := by
  have started : course.start.kernel.startup = course.kernel.startup := by
    rw [start_kernel]
    unfold Kernel.start
    split <;> rfl
  cases step with
  | submit program => rfl
  | receive taken =>
      obtain ⟨_, -, same⟩ := Option.map_eq_some_iff.mp taken
      cases same
      rfl
  | start free => exact started
  | request wanted free => rfl
  | stopped wanted left => rfl
  | restarted wanted left => exact started
  | work budget advanced =>
      rw [observe_kernel]
      cases advance_cases advanced <;> rfl

theorem leads_startup (leads : Leads course next) :
    next.kernel.startup = course.kernel.startup := by
  induction leads with
  | refl => rfl
  | tail _ step inductionHypothesis => exact (step_startup step).trans inductionHypothesis

/-- A course goes on with a step of the worker. -/
theorem Leads.work {first later : Course} (leads : Leads first course)
    (advanced : course.kernel.advance budget = some kernel)
    (seen : course.observe kernel = later) : Leads first later :=
  seen ▸ Relation.ReflTransGen.tail leads (.work budget advanced)

/-! ## Stop and reset -/

/-- Steps of the worker are a course. -/
theorem advanceBy_leads (advanced : course.kernel.advanceBy budget count = some kernel) :
    ∃ later, Leads course later ∧ later.kernel = kernel ∧ later.request = course.request := by
  induction count generalizing course with
  | zero =>
      cases advanced
      exact ⟨course, .refl, rfl, rfl⟩
  | succ count inductionHypothesis =>
      obtain ⟨middle, first, rest⟩ := Option.bind_eq_some_iff.mp advanced
      rw [← course.observe_kernel middle] at rest
      obtain ⟨later, leads, reached, request⟩ := inductionHypothesis rest
      refine ⟨later, .head (.work budget first) leads, reached, ?_⟩
      rw [request, observe_request]

/-- A request of the client comes to the moment where the worker has left. -/
theorem request_leads (free : course.request = none) (wanted : Request)
    (stopped : course.kernel.stop budget = some kernel) :
    ∃ later, Leads course later ∧ later.kernel = kernel ∧ later.request = some wanted ∧
      later.kernel.worker = none := by
  have advanced : Kernel.advanceBy budget 4 (Course.kernel { course with
      kernel := course.kernel.requestStop, request := some wanted }) = some kernel := stopped
  obtain ⟨later, leads, reached, request⟩ := advanceBy_leads advanced
  refine ⟨later, .head (.request wanted free) leads, reached, request, ?_⟩
  rw [reached]
  exact worker_stop stopped

/-- A stop is a course that ends where it returns. -/
theorem stop_leads (free : course.request = none)
    (stopped : course.kernel.stop budget = some kernel) :
    ∃ later, Leads course later ∧ later.kernel = kernel ∧ later.request = none ∧
      later.halted = true := by
  obtain ⟨later, leads, reached, request, left⟩ := request_leads free .stop stopped
  exact ⟨_, .tail leads (.stopped request left), reached, rfl, rfl⟩

/-- A reset is a course that ends with a worker whose session is fresh. -/
theorem reset_leads (free : course.request = none)
    (restarted : course.kernel.reset budget = some kernel) :
    ∃ later, Leads course later ∧ later.kernel = kernel ∧ later.request = none ∧
      kernel.worker = some ⟨.fresh, .preparing⟩ := by
  obtain ⟨halted, stopped, rfl⟩ := Option.map_eq_some_iff.mp restarted
  obtain ⟨later, leads, rfl, request, left⟩ := request_leads free .reset stopped
  refine ⟨_, .tail leads (.restarted request left), start_kernel later, rfl, ?_⟩
  unfold Kernel.start
  rw [if_neg]
  rw [isActive, left]
  decide

/-! ## Answers -/

/-- Every program has exactly one answer, in the order of submission and from the right
session. In every state that any order of steps leads to, the submitted programs are those
answered, then at most one that is held, then those that wait; and the answers ever posted
are those of the answered programs, in order. There is at most one worker, and none and
nothing held once a stop has returned. The programs of each worker were answered by a
session of its own, from a fresh one in which the startup program has run. A new worker
comes only from a start without a worker or from a reset. -/
theorem one_answer_each {startup : Option String} {course : Course}
    (leads : Leads (.create startup) course) :
    course.submitted =
        course.answered.map Prod.fst ++ course.held.toList ++ course.kernel.input.waiting ∧
      course.received ++ course.kernel.output.waiting = course.answered.map Prod.snd ∧
      course.started = course.past.length + course.workers ∧ course.workers ≤ 1 ∧
      (course.halted = true → course.kernel.worker = none ∧ course.held = none) ∧
      (∀ service ∈ course.past, ∃ session, Serves startup service session) ∧
      course.kernel.startup = startup ∧ course.Serving ∧
      (course.kernel.isActive = true → course.kernel.start = course.kernel) ∧
      (∀ next, Step course next → next.started = course.started ∨
        course.kernel.worker = none ∧ next.started = course.started + 1 ∧
          next.kernel.worker = some ⟨.fresh, .preparing⟩) ∧
      ∀ budget kernel, course.request = none →
        (course.kernel.stop budget = some kernel →
          ∃ later, Leads course later ∧ later.kernel = kernel ∧ later.request = none ∧
            later.halted = true) ∧
        (course.kernel.reset budget = some kernel →
          ∃ later, Leads course later ∧ later.kernel = kernel ∧ later.request = none ∧
            kernel.worker = some ⟨.fresh, .preparing⟩) := by
  have lawful := Lawful.leads leads
  have sameStartup : course.kernel.startup = startup := leads_startup leads
  have single : course.workers ≤ 1 := by
    unfold workers
    cases course.kernel.worker with
    | none => exact Nat.zero_le 1
    | some worker => exact Nat.le_refl 1
  have halted (halted : course.halted = true) :
      course.kernel.worker = none ∧ course.held = none :=
    ⟨lawful.halted halted, (lawful.servingAt (lawful.halted halted)).1⟩
  exact ⟨lawful.submitted, lawful.posted, lawful.started, single, halted,
    sameStartup ▸ lawful.past, sameStartup, lawful.serving, start_of_isActive,
    fun next step => step_started step,
    fun budget kernel free => ⟨stop_leads free, reset_leads free⟩⟩

/-- The session that has run `(list)`. -/
def listSession : Session :=
  ⟨.initial, some (.form (.symbol "list") [])⟩

/-- The course of a kernel that was started and has answered `(list)`. -/
def listCourse : Course where
  kernel := ⟨none, .empty, ⟨[.value (.list [])]⟩, true, some ⟨listSession, .checking⟩⟩
  request := none
  halted := false
  started := 1
  submitted := ["(list)"]
  held := none
  past := []
  present := [("(list)", .value (.list []))]
  received := []

/-- The kernel while it has posted no answer yet. -/
def listKernelAt (waiting : List String) (session : Session) (stage : Stage) : Kernel :=
  ⟨none, ⟨waiting⟩, .empty, true, some ⟨session, stage⟩⟩

/-- The course while nothing is answered yet. -/
def listCourseAt (waiting : List String) (held : Option String) (session : Session)
    (stage : Stage) : Course :=
  { listCourse with kernel := listKernelAt waiting session stage, held, present := [] }

/-- The program was answered by a session that was fresh before, and a stop from there on
comes to a kernel without a worker and without a held program. -/
theorem list_answered_once :
    Serves none [("(list)", .value (.list []))] listSession ∧
      ∃ later, Leads listCourse later ∧ later.halted = true ∧ later.held = none ∧
        later.kernel = { listCourse.kernel with active := false, worker := none } := by
  have responded : Session.fresh.respond 1 "(list)" = some (.value (.list []), listSession) := by
    have read : Source.read "(list)" = .ok (.form (.symbol "list") []) := by decide +kernel
    unfold Session.respond Session.run Session.load
    rw [read]
    rfl
  have submitted : Leads (.create none) (listCourseAt ["(list)"] none .fresh .preparing) :=
    (Relation.ReflTransGen.single (.submit _ "(list)")).tail (.start rfl)
  have prepares : (listKernelAt ["(list)"] .fresh .preparing).advance 1 =
      some (listKernelAt ["(list)"] .fresh .checking) := rfl
  have goesOn : (listKernelAt ["(list)"] .fresh .checking).advance 1 =
      some (listKernelAt ["(list)"] .fresh .fetching) := rfl
  have takes : (listKernelAt ["(list)"] .fresh .fetching).advance 1 =
      some (listKernelAt [] .fresh (.holding "(list)")) := rfl
  have answers : (listKernelAt [] .fresh (.holding "(list)")).advance 1 =
      some (listKernelAt [] listSession (.publishing (.value (.list [])))) := by
    unfold advance listKernelAt
    simp only [responded, Option.map_some]
    rfl
  have posts : (listKernelAt [] listSession (.publishing (.value (.list [])))).advance 1 =
      some listCourse.kernel := rfl
  have checking : Leads (.create none) (listCourseAt ["(list)"] none .fresh .checking) :=
    submitted.work prepares rfl
  have fetching : Leads (.create none) (listCourseAt ["(list)"] none .fresh .fetching) :=
    checking.work goesOn rfl
  have holding : Leads (.create none)
      (listCourseAt [] (some "(list)") .fresh (.holding "(list)")) :=
    fetching.work takes rfl
  have answered : Leads (.create none)
      (listCourseAt [] (some "(list)") listSession (.publishing (.value (.list [])))) :=
    holding.work answers rfl
  have posted : Leads (.create none) listCourse := answered.work posts rfl
  obtain ⟨-, -, -, -, -, -, -, serving, -, -, returns⟩ := one_answer_each posted
  obtain ⟨later, leads, reached, -, halted⟩ := (returns 1 _ rfl).1 rfl
  obtain ⟨-, -, -, -, stopped, -⟩ := one_answer_each (posted.trans leads)
  exact ⟨serving.2, later, leads, halted, (stopped halted).2, reached⟩

end Course

end FormLang.Kernel
