import FormLang.Proofs.Evaluation.Agreement
import FormLang.Proofs.Kernel.Course
import FormLang.Proofs.Sessions

/-!
Contract: the answers of a session do not depend on the budget.

A session that answers within one budget answers in the same way within any greater one. So the
programs that a worker was given determine their answers and the session that it goes on with.

Owns: monotonicity of runs, answers and preparation in the budget, that two workers that were
given the same programs agree, and what the history of a kernel says about its workers' services.
-/

set_option autoImplicit false

namespace FormLang

namespace Session

variable {budget budget' : Nat} {session left : Session} {text : String}

theorem run_mono (covered : budget ≤ budget') {outcome : Except ProgramError Expr}
    (ran : session.run budget text = some (outcome, left)) :
    session.run budget' text = some (outcome, left) := by
  rcases run_cases ran with ⟨error, refused, rfl, rfl⟩ | ⟨program, ending, read, ended, rfl, rfl⟩
  · unfold run load
    rw [refused]
  · unfold run load evaluate
    rw [read]
    dsimp only
    rw [Evaluation.evaluate_mono covered ended]
    rfl

theorem respond_mono (covered : budget ≤ budget') {answer : Answer}
    (responded : session.respond budget text = some (answer, left)) :
    session.respond budget' text = some (answer, left) := by
  obtain ⟨⟨outcome, last⟩, ran, same⟩ := Option.map_eq_some_iff.mp responded
  rw [respond, run_mono covered ran]
  exact congrArg some same

theorem prepared_mono (covered : budget ≤ budget') {startup : Option String}
    (ready : prepared budget startup = some session) : prepared budget' startup = some session := by
  cases startup with
  | none => exact ready
  | some program =>
      obtain ⟨⟨outcome, last⟩, ran, same⟩ := Option.map_eq_some_iff.mp ready
      rw [prepared, run_mono covered ran]
      exact congrArg some same

theorem respond_unique {ending ending' : Answer × Session}
    (responded : session.respond budget text = some ending)
    (responded' : session.respond budget' text = some ending') : ending = ending' := by
  have first := respond_mono (Nat.le_max_left budget budget') responded
  have second := respond_mono (Nat.le_max_right budget budget') responded'
  exact Option.some.inj (first.symm.trans second)

theorem prepared_unique {startup : Option String} {ready ready' : Session}
    (isReady : prepared budget startup = some ready)
    (isReady' : prepared budget' startup = some ready') : ready = ready' := by
  have first := prepared_mono (Nat.le_max_left budget budget') isReady
  have second := prepared_mono (Nat.le_max_right budget budget') isReady'
  exact Option.some.inj (first.symm.trans second)

end Session

namespace Kernel

variable {startup : Option String} {service : List (String × Answer)} {session left : Session}
variable {program : String} {answer : Answer}

/-- Before its first program a session has just run the startup program. -/
theorem Serves.start (serves : Serves startup [] session) :
    ∃ budget, Session.prepared budget startup = some session := by
  generalize nothing : ([] : List (String × Answer)) = service at serves
  cases serves with
  | prepared budget isReady => exact ⟨budget, isReady⟩
  | answered _ _ _ => simp at nothing

/-- A service that goes on with a program was served before by a session that answers it. -/
theorem Serves.last (serves : Serves startup (service ++ [(program, answer)]) left) :
    ∃ session budget, Serves startup service session ∧
      session.respond budget program = some (answer, left) := by
  generalize whole : service ++ [(program, answer)] = all at serves
  cases serves with
  | prepared _ _ => simp at whole
  | answered budget earlier responded =>
      obtain ⟨rfl, last⟩ := List.append_inj' whole rfl
      cases last
      exact ⟨_, budget, earlier, responded⟩

/-- The session that has given these answers is the only one. -/
theorem Serves.unique {session' : Session} (serves : Serves startup service session)
    (serves' : Serves startup service session') : session = session' := by
  induction serves generalizing session' with
  | prepared budget isReady =>
      obtain ⟨budget', isReady'⟩ := serves'.start
      exact Session.prepared_unique isReady isReady'
  | answered budget _ responded inductionHypothesis =>
      obtain ⟨middle, budget', earlier, responded'⟩ := serves'.last
      cases inductionHypothesis earlier
      cases Session.respond_unique responded responded'
      rfl

/-- A session that has answered all but the last program answers it next. -/
theorem Serves.respond (serves : Serves startup service session)
    (goesOn : Serves startup (service ++ [(program, answer)]) left) :
    ∃ budget, session.respond budget program = some (answer, left) := by
  obtain ⟨middle, budget, earlier, responded⟩ := goesOn.last
  cases serves.unique earlier
  exact ⟨budget, responded⟩

/-- The answers are the first ones that workers, one after the other, give to the programs in
their order. -/
def AnsweredInOrder (startup : Option String) (programs : List String)
    (answers : List Answer) : Prop :=
  ∃ services : List (List (String × Answer)),
    (∀ service ∈ services, ∃ session, Serves startup service session) ∧
      services.flatten.map Prod.fst <+: programs ∧ answers <+: services.flatten.map Prod.snd

theorem AnsweredInOrder.front {programs : List String} {answers more : List Answer}
    (inOrder : AnsweredInOrder startup programs (answers ++ more)) :
    AnsweredInOrder startup programs answers := by
  obtain ⟨services, serve, given, answered⟩ := inOrder
  exact ⟨services, serve, given, (List.prefix_append answers more).trans answered⟩

/-- The answer to a single program is that of a session for this program only. -/
theorem AnsweredInOrder.answerOnce (inOrder : AnsweredInOrder startup [program] [answer]) :
    ∃ budget, Session.answerOnce budget startup program = some answer := by
  obtain ⟨services, serve, programs, answers⟩ := inOrder
  have length : services.flatten.length = 1 := by
    have most := programs.length_le
    have least := answers.length_le
    rw [List.length_map] at most least
    exact Nat.le_antisymm most least
  obtain ⟨⟨given, result⟩, whole⟩ := List.length_eq_one_iff.mp length
  rw [whole] at programs answers
  have same : given = program := (List.cons_prefix_cons.mp programs).1
  have sameAnswer : answer = result := (List.cons_prefix_cons.mp answers).1
  subst same sameAnswer
  obtain ⟨service, isService, member⟩ := List.mem_flatten.mp (whole ▸ List.mem_cons_self)
  have only : service = [] ++ [(given, answer)] := by
    rcases List.sublist_singleton.mp (whole ▸ List.sublist_flatten_of_mem isService) with
      nothing | only
    · rw [nothing] at member
      cases member
    · exact only
  obtain ⟨last, serves⟩ := serve service isService
  obtain ⟨session, budget, first, responded⟩ := (only ▸ serves).last
  obtain ⟨budget', isReady⟩ := first.start
  refine ⟨max budget budget', ?_⟩
  rw [Session.answerOnce, Session.prepared_mono (Nat.le_max_right budget budget') isReady,
    Option.bind_eq_bind, Option.bind_some,
    Session.respond_mono (Nat.le_max_left budget budget') responded]
  rfl

namespace Course.Lawful

variable {course later : Course}

/-- The worker that is there has answered its programs one after the other. -/
theorem serves_present (lawful : course.Lawful) :
    course.present = [] ∨ ∃ session, Serves course.kernel.startup course.present session := by
  cases worker : course.kernel.worker with
  | none => exact .inl (lawful.servingAt worker).2
  | some present =>
      obtain ⟨session, stage⟩ := present
      have serving := lawful.servingAt worker
      cases stage with
      | preparing => exact .inl serving.2.2
      | checking => exact .inr ⟨session, serving.2⟩
      | fetching => exact .inr ⟨session, serving.2⟩
      | holding program => exact .inr ⟨session, serving.2⟩
      | publishing answer =>
          obtain ⟨program, -, serves⟩ := serving
          obtain ⟨before, -, earlier, -⟩ := serves.last
          exact .inr ⟨before, earlier⟩

/-- All answers that were posted answer what was submitted. -/
theorem answeredInOrder (lawful : course.Lawful) :
    AnsweredInOrder course.kernel.startup course.submitted
      (course.received ++ course.kernel.output.waiting) := by
  have programs : course.answered.map Prod.fst <+: course.submitted := by
    rw [lawful.submitted, List.append_assoc]
    exact List.prefix_append _ _
  have answers : course.received ++ course.kernel.output.waiting <+:
      course.answered.map Prod.snd :=
    ⟨[], (List.append_nil _).trans lawful.posted⟩
  rcases lawful.serves_present with nothing | serves
  · rw [answered, nothing, List.append_nil] at programs answers
    exact ⟨course.past, lawful.past, programs, answers⟩
  · rw [answered, ← List.flatten_singleton (l := course.present), ← List.flatten_append]
      at programs answers
    refine ⟨course.past ++ [course.present], fun service member => ?_, programs, answers⟩
    rcases List.mem_append.mp member with earlier | last
    · exact lawful.past service earlier
    · rwa [List.mem_singleton.mp last]

/-- What was submitted and not received yet waits as a program, waits as an answer or is held. -/
theorem outstanding (lawful : course.Lawful) :
    course.submitted.length = course.received.length + course.kernel.output.count +
      course.held.toList.length + course.kernel.input.count := by
  have posted := congrArg List.length lawful.posted
  rw [List.length_append, List.length_map] at posted
  rw [lawful.submitted, List.length_append, List.length_append, List.length_map, ← posted]
  rfl

/-- Where as many answers were received as programs submitted, all of them are answered. -/
theorem nothing_outstanding (lawful : course.Lawful)
    (even : course.submitted.length = course.received.length) :
    course.held = none ∧ course.submitted = course.answered.map Prod.fst ∧
      course.received = course.answered.map Prod.snd := by
  have outstanding := lawful.outstanding
  have noInput : course.kernel.input.waiting = [] :=
    List.eq_nil_of_length_eq_zero (show course.kernel.input.count = 0 by omega)
  have noOutput : course.kernel.output.waiting = [] :=
    List.eq_nil_of_length_eq_zero (show course.kernel.output.count = 0 by omega)
  have nothingHeld : course.held.toList = [] := List.eq_nil_of_length_eq_zero (by omega)
  refine ⟨Option.toList_eq_nil_iff.mp nothingHeld, ?_, ?_⟩
  · rw [lawful.submitted, noInput, nothingHeld, List.append_nil, List.append_nil]
  · rw [← lawful.posted, noOutput, List.append_nil]

/-- While no worker leaves, what is submitted and received is added to the present service. -/
theorem present_append (lawful : course.Lawful) (lawfulLater : later.Lawful)
    (even : course.submitted.length = course.received.length)
    (past : later.past = course.past) {more : List (String × Answer)}
    (submitted : later.submitted = course.submitted ++ more.map Prod.fst)
    (received : later.received = course.received ++ more.map Prod.snd) :
    later.present = course.present ++ more := by
  have evenLater : later.submitted.length = later.received.length := by
    rw [submitted, received, List.length_append, List.length_append, even, List.length_map,
      List.length_map]
  obtain ⟨-, programs, answers⟩ := lawful.nothing_outstanding even
  obtain ⟨-, programsLater, answersLater⟩ := lawfulLater.nothing_outstanding evenLater
  -- Both sides have the same programs and the same answers, and so the same pairs.
  have whole : later.answered = course.answered ++ more := by
    rw [List.zip_of_prod programsLater.symm answersLater.symm, submitted, received, programs,
      answers, ← List.map_append, ← List.map_append]
    exact (List.zip_of_prod rfl rfl).symm
  rw [answered, answered, past, List.append_assoc] at whole
  exact List.append_cancel_left whole

/-- A worker that has answered all that it was given is, or will be, a session that served it. -/
theorem serves_of_prepared {ready : Session} {budget : Nat} (lawful : course.Lawful)
    (isReady : Session.prepared budget course.kernel.startup = some ready) :
    ∃ session, Serves course.kernel.startup course.present session := by
  rcases lawful.serves_present with nothing | serves
  · exact ⟨ready, nothing ▸ .prepared budget isReady⟩
  · exact serves

end Course.Lawful

end Kernel

end FormLang
