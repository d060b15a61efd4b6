import FormLang.Proofs.Console.Loop
import FormLang.Proofs.Console.PrintedLines

/-!
Contract: the dialogue writes for every line what is due.

Whatever the worker does between the lines, the answer that is written for a program is the
next one in the order in which programs were submitted. If none was submitted before, all is as
in a loop that runs the programs itself.

Owns: what is due, that every conversation writes it, and the theorem about conversations and
the dialogue.
-/

set_option autoImplicit false

namespace FormLang.Console

open Kernel (AnsweredInOrder Course Serves resting working)
open Kernel.Course (Leads)

/-- Whether there is a worker behind a command. -/
def Request.runs (running : Bool) : Request → Bool
  | .start => true
  | .reset => true
  | .stop => false
  | _ => running

/-- What is due for lines: the programs among them that are submitted, and what is written if
these are the next answers. -/
inductive Due : Bool → List String → List String → List Answer → List Written → Exit → Prop where
  | ended (running : Bool) : Due running [] [] [] [] .endOfInput
  | exited {line : String} (running : Bool) (request : Request.ofLine line = .exit)
      (rest : List String) : Due running (line :: rest) [] [] [.silent] .exitCommand
  | command {line : String} {running : Bool} {rest accepted : List String}
      {answers : List Answer} {others : List Written} {exit : Exit}
      (noExit : Request.ofLine line ≠ .exit) (noProgram : Request.ofLine line ≠ .program)
      (following : Due ((Request.ofLine line).runs running) rest accepted answers others exit) :
      Due running (line :: rest) accepted answers (.silent :: others) exit
  | refused {line : String} {rest accepted : List String} {answers : List Answer}
      {others : List Written} {exit : Exit} (request : Request.ofLine line = .program)
      (following : Due false rest accepted answers others exit) :
      Due false (line :: rest) accepted answers (.refused :: others) exit
  | answered {line : String} {rest accepted : List String} {answers : List Answer}
      {others : List Written} {exit : Exit} (request : Request.ofLine line = .program)
      (answer : Answer) (following : Due true rest accepted answers others exit) :
      Due true (line :: rest) (line :: accepted) (answer :: answers)
        (.ofAnswer answer :: others) exit

variable {startup : Option String} {course : Course} {line : String} {lines : List String}
variable {courses : List Course} {written : List Written} {exit : Exit}

/-! ## What is due -/

/-- An exchange writes what is due for its line, in front of what is due for the others. -/
theorem Accounts.due {next : Course} {first : Written} {rest accepted : List String}
    {answers : List Answer} (accounts : Accounts line course first next)
    (following : Due next.kernel.isActive rest accepted answers written exit) :
    ∃ accepted' answers', Due course.kernel.isActive (line :: rest) (accepted' ++ accepted)
        (answers' ++ answers) (first :: written) exit ∧
      next.submitted = course.submitted ++ accepted' ∧
      next.received = course.received ++ answers' := by
  have quiet : ∀ {request}, Request.ofLine line = request → request ≠ .exit →
      request ≠ .program → request.runs course.kernel.isActive = next.kernel.isActive →
      Due course.kernel.isActive (line :: rest) accepted answers (.silent :: written) exit := by
    intro request same noExit noProgram running
    subst same
    exact .command noExit noProgram (running ▸ following)
  have nothing {α : Type} {items items' : List α} (same : items' = items) :
      items' = items ++ [] := same.trans (List.append_nil items).symm
  cases accounts with
  | unchanged request =>
      refine ⟨[], [], ?_, nothing rfl, nothing rfl⟩
      rcases request with request | ⟨request, running⟩
      · exact quiet request (by decide) (by decide) rfl
      · exact quiet request (by decide) (by decide) running.symm
  | halted request left mail =>
      have stopped := Bool.eq_false_iff.mpr (Kernel.not_isActive_of_worker left)
      exact ⟨[], [], quiet request (by decide) (by decide) stopped.symm, nothing mail.1,
        nothing mail.2⟩
  | renewed request fresh mail =>
      have running := Kernel.isActive_of_worker fresh
      refine ⟨[], [], ?_, nothing mail.1, nothing mail.2⟩
      rcases request with request | ⟨request, -⟩
      · exact quiet request (by decide) (by decide) running.symm
      · exact quiet request (by decide) (by decide) running.symm
  | refused request stopped =>
      refine ⟨[], [], ?_, nothing rfl, nothing rfl⟩
      rw [stopped] at following ⊢
      exact .refused request following
  | @answered _ answer request running stillRunning submitted received _ =>
      rw [stillRunning] at following
      rw [running]
      exact ⟨[line], [answer], .answered request answer following, submitted, received⟩

/-- Every conversation writes what is due. -/
theorem Recounts.due (leads : Leads (.create startup) course) (free : course.request = none)
    (recounts : Recounts course lines courses written exit) :
    ∃ last accepted answers, Leads course last ∧ courses.getLast? = some last ∧
      Due course.kernel.isActive lines accepted answers written exit ∧
      last.submitted = course.submitted ++ accepted ∧
      last.received = course.received ++ answers := by
  induction recounts with
  | @ended course prompted before =>
      exact ⟨prompted, [], [], before.leads, rfl, .ended _,
        before.submitted.trans (List.append_nil _).symm,
        before.received.trans (List.append_nil _).symm⟩
  | @exited course prompted line before request rest =>
      exact ⟨prompted, [], [], before.leads, rfl, .exited _ request rest,
        before.submitted.trans (List.append_nil _).symm,
        before.received.trans (List.append_nil _).symm⟩
  | @exchanged course prompted ready next line rest first prompts others exit before after goesOn
      nextFree accounts _ inductionHypothesis =>
      have worked := before.trans after
      have running := worked.isActive_eq (Course.flagged_of_free leads free)
      have nextLeads := (leads.trans worked.leads).trans goesOn
      obtain ⟨last, accepted, answers, lastLeads, isLast, following, submitted, received⟩ :=
        inductionHypothesis nextLeads nextFree
      obtain ⟨accepted', answers', due, taken, given⟩ := accounts.due following
      refine ⟨last, accepted' ++ accepted, answers' ++ answers,
        (worked.leads.trans goesOn).trans lastLeads, ?_, running ▸ due, ?_, ?_⟩
      · rw [List.getLast?_cons, isLast]
        rfl
      · rw [submitted, taken, worked.submitted, List.append_assoc]
      · rw [received, given, worked.received, List.append_assoc]

/-- An exchange leaves as many programs outstanding as there were before. -/
theorem Accounts.outstanding {next : Course} {first : Written}
    (accounts : Accounts line course first next) :
    next.submitted.length + course.received.length =
      next.received.length + course.submitted.length := by
  cases accounts with
  | unchanged _ => exact Nat.add_comm _ _
  | halted _ _ mail => rw [mail.1, mail.2, Nat.add_comm]
  | renewed _ _ mail => rw [mail.1, mail.2, Nat.add_comm]
  | refused _ _ => exact Nat.add_comm _ _
  | answered _ _ _ submitted received _ =>
      rw [submitted, received, List.length_append, List.length_append, List.length_singleton,
        List.length_singleton]
      omega

/-- At every prompt as many programs are outstanding as there were before the conversation. -/
theorem Recounts.outstanding (recounts : Recounts course lines courses written exit) :
    ∀ prompted ∈ courses, Leads course prompted ∧
      prompted.submitted.length + course.received.length =
        prompted.received.length + course.submitted.length := by
  have here {course prompted : Course} (before : course.WorkedTo prompted) :
      Leads course prompted ∧ prompted.submitted.length + course.received.length =
        prompted.received.length + course.submitted.length :=
    ⟨before.leads, by rw [before.submitted, before.received, Nat.add_comm]⟩
  induction recounts with
  | ended before => exact List.forall_mem_singleton.mpr (here before)
  | exited before _ _ => exact List.forall_mem_singleton.mpr (here before)
  | @exchanged course prompted ready next line rest first prompts others exit before after goesOn
      nextFree accounts _ inductionHypothesis =>
      refine List.forall_mem_cons.mpr ⟨here before, fun later member => ?_⟩
      obtain ⟨leads, same⟩ := inductionHypothesis later member
      have worked := before.trans after
      have exchanged := accounts.outstanding
      rw [worked.submitted, worked.received] at exchanged
      exact ⟨(worked.leads.trans goesOn).trans leads, by omega⟩

/-- There is a prompt for every line that is read, and one more at the end of the input. -/
theorem Recounts.length_prompts (recounts : Recounts course lines courses written exit) :
    courses.length = written.length + (if exit = .endOfInput then 1 else 0) := by
  induction recounts with
  | ended _ => rfl
  | exited _ _ _ => rfl
  | exchanged _ _ _ _ _ _ inductionHypothesis =>
      rw [List.length_cons, List.length_cons, inductionHypothesis, Nat.add_right_comm]

/-! ## The loop without a kernel -/

/-- The session with which the loop goes on, where the worker has answered all programs. -/
def Keeps (startup : Option String) (course : Course) : Option Session → Prop
  | none => course.kernel.isActive = false
  | some session => course.kernel.isActive = true ∧ Serves startup course.present session

theorem directly_mono {budget budget' : Nat} (covered : budget ≤ budget') {ready : Session}
    {serving : Option Session} {ending : List Written × Exit}
    (ended : directly budget ready serving lines = some ending) :
    directly budget' ready serving lines = some ending := by
  induction lines generalizing serving ending with
  | nil => exact ended
  | cons line rest inductionHypothesis =>
      have goesOn {first : Written} {serving : Option Session} {ending : List Written × Exit}
          (ended : andThen first (directly budget ready serving rest) = some ending) :
          andThen first (directly budget' ready serving rest) = some ending := by
        obtain ⟨following, rests, same⟩ := Option.map_eq_some_iff.mp ended
        rw [inductionHypothesis rests]
        exact congrArg some same
      by_cases exits : Request.ofLine line = .exit
      · rw [directly_exit rest exits] at ended ⊢
        exact ended
      · by_cases request : Request.ofLine line = .program
        · cases serving with
          | none =>
              rw [directly_refused rest request] at ended ⊢
              exact goesOn ended
          | some session =>
              rw [directly_program rest request] at ended ⊢
              obtain ⟨answered, ran, following⟩ := Option.bind_eq_some_iff.mp ended
              rw [Session.run_mono covered ran]
              exact goesOn following
        · rw [directly_command rest exits request] at ended ⊢
          exact goesOn ended

section Directly

variable {budget : Nat} {ready : Session} {serving : Option Session}

/-- The worker changes nothing about the session while it has nothing to do. -/
theorem Keeps.worked {later : Course} (keeps : Keeps startup course serving)
    (leads : Leads (.create startup) course) (free : course.request = none)
    (even : course.submitted.length = course.received.length)
    (worked : course.WorkedTo later) : Keeps startup later serving := by
  have flagged := Course.flagged_of_free leads free
  have running := worked.isActive_eq flagged
  cases serving with
  | none => exact running.trans keeps
  | some session =>
      obtain ⟨there, serves⟩ := keeps
      have lawful := Course.Lawful.leads leads
      have lawfulLater := Course.Lawful.leads (leads.trans worked.leads)
      have same : later.present = course.present ++ [] :=
        lawful.present_append lawfulLater even (worked.past (flagged there))
          (worked.submitted.trans (List.append_nil _).symm)
          (worked.received.trans (List.append_nil _).symm)
      rw [List.append_nil] at same
      exact ⟨running.trans there, same ▸ serves⟩

/-- What an exchange writes is what the loop writes for the line, and both go on with the same
session. -/
theorem Accounts.directly {next : Course} {first : Written}
    (isReady : Session.prepared budget startup = some ready)
    (leads : Leads (.create startup) course) (nextLeads : Leads (.create startup) next)
    (even : course.submitted.length = course.received.length)
    (keeps : Keeps startup course serving) (accounts : Accounts line course first next) :
    ∃ next', Keeps startup next next' ∧ ∀ rest others exit,
      (∃ budget, directly budget ready next' rest = some (others, exit)) →
        ∃ budget, directly budget ready serving (line :: rest) = some (first :: others, exit) := by
  have command : ∀ {request}, Request.ofLine line = request → request ≠ .exit →
      request ≠ .program → ∀ rest others exit,
      (∃ budget, Console.directly budget ready (request.serving ready serving) rest =
        some (others, exit)) →
        ∃ budget, Console.directly budget ready serving (line :: rest) =
          some (.silent :: others, exit) := by
    rintro request rfl noExit noProgram rest others exit ⟨budget, ended⟩
    exact ⟨budget, by rw [directly_command rest noExit noProgram, ended]; rfl⟩
  cases accounts with
  | unchanged request =>
      refine ⟨serving, keeps, ?_⟩
      rcases request with request | ⟨request, running⟩
      · exact command request (by decide) (by decide)
      · cases serving with
        | none =>
            rw [Keeps, running] at keeps
            cases keeps
        | some session => exact command request (by decide) (by decide)
  | halted request left mail =>
      exact ⟨none, Bool.eq_false_iff.mpr (Kernel.not_isActive_of_worker left),
        command request (by decide) (by decide)⟩
  | renewed request fresh mail =>
      have running := Kernel.isActive_of_worker fresh
      have nothing : next.present = [] :=
        ((Course.Lawful.leads nextLeads).servingAt fresh).2.2
      refine ⟨some ready, ⟨running, nothing ▸ .prepared budget isReady⟩, ?_⟩
      rcases request with request | ⟨request, stopped⟩
      · exact command request (by decide) (by decide)
      · cases serving with
        | none => exact command request (by decide) (by decide)
        | some session =>
            rw [keeps.1] at stopped
            cases stopped
  | refused request stopped =>
      cases serving with
      | none =>
          refine ⟨none, keeps, ?_⟩
          rintro rest others exit ⟨budget, ended⟩
          exact ⟨budget, by rw [directly_refused rest request, ended]; rfl⟩
      | some session =>
          rw [keeps.1] at stopped
          cases stopped
  | @answered _ answer request running stillRunning submitted received past =>
      cases serving with
      | none =>
          rw [Keeps, running] at keeps
          cases keeps
      | some session =>
          have lawful := Course.Lawful.leads leads
          have lawfulNext := Course.Lawful.leads nextLeads
          have present : next.present = course.present ++ [(line, answer)] :=
            lawful.present_append lawfulNext even past submitted received
          have sameStartup : next.kernel.startup = startup := Course.leads_startup nextLeads
          obtain ⟨left, serves⟩ := lawfulNext.serves_of_prepared (sameStartup ▸ isReady)
          rw [sameStartup] at serves
          obtain ⟨budget, responded⟩ := keeps.2.respond (present ▸ serves)
          -- The worker and the loop may have needed different budgets; the greater one serves both.
          refine ⟨some left, ⟨stillRunning, serves⟩, ?_⟩
          rintro rest others exit ⟨budget', ended⟩
          refine ⟨max budget budget', ?_⟩
          obtain ⟨⟨outcome, last⟩, ran, same⟩ := Option.map_eq_some_iff.mp responded
          cases same
          rw [directly_program rest request,
            Session.run_mono (Nat.le_max_left budget budget') ran, Option.bind_some]
          dsimp only
          rw [directly_mono (Nat.le_max_right budget budget') ended]
          rfl

/-- A conversation where all earlier programs are answered writes what the loop writes. -/
theorem Recounts.directly (isReady : Session.prepared budget startup = some ready)
    (leads : Leads (.create startup) course) (free : course.request = none)
    (even : course.submitted.length = course.received.length)
    (keeps : Keeps startup course serving)
    (recounts : Recounts course lines courses written exit) :
    ∃ budget, directly budget ready serving lines = some (written, exit) := by
  induction recounts generalizing serving with
  | ended _ => exact ⟨0, rfl⟩
  | exited _ request rest => exact ⟨0, directly_exit rest request⟩
  | exchanged before after goesOn nextFree accounts _ inductionHypothesis =>
      have worked := before.trans after
      have readyLeads := leads.trans worked.leads
      have nextLeads := readyLeads.trans goesOn
      have readyEven := (congrArg List.length worked.submitted).trans
        (even.trans (congrArg List.length worked.received).symm)
      -- The exchange leaves as many answers outstanding as before it, so none again.
      obtain ⟨next, nextKeeps, goesOnWith⟩ := accounts.directly isReady readyLeads nextLeads
        readyEven (keeps.worked leads free even worked)
      have outstanding := accounts.outstanding
      exact goesOnWith _ _ _ (inductionHypothesis nextLeads nextFree (by omega) nextKeeps)

end Directly

/-! ## Where a dialogue starts -/

/-- A kernel to which programs were submitted, and from which nothing was received yet. -/
def Awaits (startup : Option String) (early : List String) (kernel : Kernel) : Prop :=
  ∃ course, Leads (.create startup) course ∧ course.kernel = kernel ∧ course.request = none ∧
    course.submitted = early ∧ course.received = []

/-- A new kernel to which programs were submitted before its first start. -/
def handed (startup : Option String) (early : List String) (started : Bool) : Kernel :=
  let kernel := early.foldl Kernel.submit (.create startup)
  if started then kernel.start else kernel

theorem foldl_submit (kernel : Kernel) (early : List String) :
    early.foldl Kernel.submit kernel =
      { kernel with input := ⟨kernel.input.waiting ++ early⟩ } := by
  induction early generalizing kernel with
  | nil => rw [List.append_nil]; rfl
  | cons program rest inductionHypothesis =>
      rw [List.foldl_cons, inductionHypothesis]
      simp only [Kernel.submit, Mailbox.post, List.append_assoc, List.singleton_append]

theorem handed_eq (startup : Option String) (early : List String) (started : Bool) :
    handed startup early started =
      if started then working startup early [] .fresh .preparing
      else resting startup early [] false := by
  rw [handed, foldl_submit]
  cases started <;> rfl

theorem submit_leads (course : Course) (early : List String) :
    Leads course { course with
      kernel := early.foldl Kernel.submit course.kernel
      submitted := course.submitted ++ early } := by
  induction early generalizing course with
  | nil =>
      rw [List.append_nil]
      exact .refl
  | cons program rest inductionHypothesis =>
      have leads := inductionHypothesis { course with
        kernel := course.kernel.submit program, submitted := course.submitted ++ [program] }
      simp only [List.append_assoc, List.singleton_append] at leads
      exact .head (.submit course program) leads

theorem handed_awaits (startup : Option String) (early : List String) (started : Bool) :
    Awaits startup early (handed startup early started) := by
  have leads := submit_leads (.create startup) early
  cases started with
  | false => exact ⟨_, leads, rfl, rfl, rfl, rfl⟩
  | true =>
      obtain ⟨submitted, received⟩ := start_mail { Course.create startup with
        kernel := early.foldl Kernel.submit (Kernel.create startup), submitted := early }
      exact ⟨_, leads.tail (.start rfl), Course.start_kernel _, start_request _, submitted,
        received⟩

theorem settle_handed {budget : Nat} {ready : Session}
    (isReady : Session.prepared budget startup = some ready) (early : List String)
    (started : Bool) :
    Option.Rel (fun kernel standing => Settled startup standing kernel)
      ((handed startup early started).settle budget)
      (Standing.catchUp budget ⟨if started then some ready else none, early, []⟩) := by
  rw [handed_eq]
  cases started with
  | false =>
      have stays : (resting startup early [] false).settle budget = some _ :=
        Kernel.advanceBy_resting _ false
      rw [if_neg Bool.false_ne_true, if_neg Bool.false_ne_true, stays]
      exact .some (.stopped early [] false)
  | true => exact settle_new isReady early [] .fresh

/-- All that the dialogue with a new kernel writes, if its worker works only while the client
waits. -/
def dialogueShown (budget : Nat) (startup : Option String) (early : List String) (started : Bool)
    (lines : List String) : Option (String × String × Exit) :=
  (((handed startup early started).settle budget).bind fun settled =>
    dialogue budget settled (lines.map .quiet)).map Transcript.shown

theorem dialogueShown_eq_lagging {budget : Nat} {ready : Session}
    (isReady : Session.prepared budget startup = some ready) (early : List String)
    (started : Bool) (lines : List String) :
    dialogueShown budget startup early started lines =
      ((Standing.catchUp budget ⟨if started then some ready else none, early, []⟩).bind
        fun standing => lagging budget ready standing lines).map
          fun (written, exit) => shown written exit := by
  have settles := settle_handed isReady early started
  unfold dialogueShown
  generalize (handed startup early started).settle budget = kernel at settles ⊢
  generalize Standing.catchUp budget
    ⟨if started then some ready else none, early, []⟩ = standing at settles ⊢
  cases settles with
  | none => rfl
  | some settled => exact dialogue_eq_lagging isReady lines settled

theorem dialogueShown_eq_directly {budget : Nat} {ready : Session}
    (isReady : Session.prepared budget startup = some ready) (started : Bool)
    (lines : List String) :
    dialogueShown budget startup [] started lines =
      (directly budget ready (if started then some ready else none) lines).map
        fun (written, exit) => shown written exit := by
  rw [dialogueShown_eq_lagging isReady, catchUp_nothing, Option.bind_some, lagging_eq_directly]

/-- Where nothing was submitted, the worker that is there has just run the startup program, or
will run it first. -/
theorem keeps_first {budget : Nat} {ready : Session}
    (isReady : Session.prepared budget startup = some ready)
    (leads : Leads (.create startup) course) (submitted : course.submitted = [])
    (received : course.received = []) :
    Keeps startup course (if course.kernel.isActive then some ready else none) := by
  have lawful := Course.Lawful.leads leads
  have even : course.submitted.length = course.received.length := by
    rw [submitted, received]
    rfl
  obtain ⟨-, programs, -⟩ := lawful.nothing_outstanding even
  rw [submitted] at programs
  have nothing := (List.append_eq_nil_iff.mp (List.map_eq_nil_iff.mp programs.symm)).2
  by_cases running : course.kernel.isActive = true
  · rw [if_pos running]
    exact ⟨running, nothing ▸ .prepared budget isReady⟩
  · rw [if_neg running]
    exact Bool.eq_false_iff.mpr running

/-! ## All lines -/

/-- The dialogue writes for every line what is due, in every conversation with a kernel from
which nothing was received yet, be it running or stopped, and whatever its worker does between
the lines. There is a prompt for each line that is read, and one more at the end of the input.
All that is submitted are the accepted lines, behind the programs that were submitted before.
The answers that are written are the first ones that the workers give, in the order of the
programs, each as one line. At each prompt no more messages wait than programs were submitted
before. If there were none, the conversation writes what the loop without a kernel writes, where
each worker is a session in which the startup program has just run. The dialogue is such a
conversation. With a new kernel it ends wherever the loop ends that writes the held answers
first, which is the loop without a kernel if there are none. -/
theorem answers_due (startup : Option String) (early lines : List String) :
    (∀ kernel prompts written exit, Awaits startup early kernel →
      Converses kernel lines prompts written exit →
      prompts.length = written.length + (if exit = .endOfInput then 1 else 0) ∧
      (∀ prompted ∈ prompts, prompted.input.count + prompted.output.count ≤ early.length) ∧
      (∃ last accepted, Leads (.create startup) last ∧ prompts.getLast? = some last.kernel ∧
        last.submitted = early ++ accepted ∧
        Due kernel.isActive lines accepted last.received written exit ∧
        AnsweredInOrder startup (early ++ accepted) last.received ∧
        ∀ each ∈ written, each.InLines) ∧
      ∀ budget ready, early = [] → Session.prepared budget startup = some ready →
        ∃ enough, directly enough ready (if kernel.isActive then some ready else none) lines =
          some (written, exit)) ∧
    (∀ kernel budget transcript, Awaits startup early kernel →
      dialogue budget kernel (lines.map .quiet) = some transcript →
      ∃ prompts written, Converses kernel lines prompts written transcript.exit ∧
        transcript.shown = shown written transcript.exit) ∧
    ∀ started, Awaits startup early (handed startup early started) ∧
      ∀ budget ready, Session.prepared budget startup = some ready →
        dialogueShown budget startup early started lines =
          ((Standing.catchUp budget ⟨if started then some ready else none, early, []⟩).bind
            fun standing => lagging budget ready standing lines).map
              (fun (written, exit) => shown written exit) ∧
        (early = [] → dialogueShown budget startup early started lines =
          (directly budget ready (if started then some ready else none) lines).map
            fun (written, exit) => shown written exit) := by
  refine ⟨?_, ?_, fun started => ⟨handed_awaits startup early started,
    fun budget ready isReady => ⟨dialogueShown_eq_lagging isReady early started lines, ?_⟩⟩⟩
  · rintro kernel prompts written exit ⟨course, leads, rfl, free, submitted, received⟩ converses
    obtain ⟨courses, recounts, rfl⟩ := converses_recounts leads free converses
    refine ⟨?_, ?_, ?_, ?_⟩
    · rw [List.length_map, recounts.length_prompts]
    · intro prompted member
      obtain ⟨there, isThere, rfl⟩ := List.mem_map.mp member
      obtain ⟨leadsThere, same⟩ := recounts.outstanding there isThere
      have outstanding := (Course.Lawful.leads (leads.trans leadsThere)).outstanding
      rw [submitted, received, List.length_nil] at same
      omega
    · obtain ⟨last, accepted, answers, leadsLast, isLast, due, all, given⟩ :=
        recounts.due leads free
      rw [submitted] at all
      rw [received, List.nil_append] at given
      have whole := leads.trans leadsLast
      have inOrder := (Course.Lawful.leads whole).answeredInOrder.front
      rw [Course.leads_startup whole, all] at inOrder
      refine ⟨last, accepted, whole, ?_, all, given ▸ due, inOrder, recounts.inLines leads⟩
      rw [List.getLast?_map, isLast]
      rfl
    · intro budget ready noneEarly isReady
      rw [noneEarly] at submitted
      have even : course.submitted.length = course.received.length := by
        rw [submitted, received]
        rfl
      exact recounts.directly isReady leads free even
        (keeps_first isReady leads submitted received)
  · rintro kernel budget transcript ⟨course, leads, rfl, free, -, -⟩ held
    exact dialogue_converses (Course.flagged_of_free leads free) held
  · rintro rfl
    exact dialogueShown_eq_directly isReady started lines

/-- A program before the start is refused, and one behind it is answered. -/
def refusedLines : List String := ["(list 1)", " %start", "(list)"]

/-- The dialogue over these lines is a conversation, and writes what the loop writes that runs
the last program in a fresh session. -/
theorem refused_then_answered : Awaits none [] (handed none [] false) ∧
    Session.prepared 1 none = some .fresh ∧
    ∃ prompts written enough,
      Converses (handed none [] false) refusedLines prompts written .endOfInput ∧
      prompts.length = written.length + 1 ∧
      (∀ prompted ∈ prompts, prompted.input.count + prompted.output.count = 0) ∧
      shown written .endOfInput =
        ("plotscript> plotscript> plotscript> ()\nplotscript> ",
          "Error: interpreter kernel not running\n", .endOfInput) ∧
      directly enough .fresh none refusedLines = some (written, .endOfInput) := by
  obtain ⟨conversation, held, starts⟩ := answers_due none [] refusedLines
  obtain ⟨awaits, -⟩ := starts false
  have wrote : (dialogue 1 (handed none [] false) (refusedLines.map .quiet)).map Transcript.shown =
      some ("plotscript> plotscript> plotscript> ()\nplotscript> ",
        "Error: interpreter kernel not running\n", .endOfInput) := by decide +kernel
  obtain ⟨transcript, ended, same⟩ := Option.map_eq_some_iff.mp wrote
  obtain ⟨prompts, written, converses, whole⟩ := held _ 1 transcript awaits ended
  have exit : transcript.exit = .endOfInput := congrArg (fun all => all.2.2) same
  rw [exit] at converses whole
  obtain ⟨number, empty, -, direct⟩ := conversation _ prompts written _ awaits converses
  obtain ⟨enough, directly⟩ := direct 1 .fresh rfl rfl
  exact ⟨awaits, rfl, prompts, written, enough, converses, number,
    fun prompted member => Nat.le_zero.mp (empty prompted member), whole.symm.trans same, directly⟩

/-- What was submitted before is answered first. -/
example : (dialogue 2 (handed none ["(list (list))"] false) (refusedLines.map .quiet)).map
    Transcript.shown = some ("plotscript> plotscript> plotscript> (())\nplotscript> ",
      "Error: interpreter kernel not running\n", .endOfInput) := by
  decide +kernel

end FormLang.Console
