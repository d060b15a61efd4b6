import FormLang.Proofs.Console.Conversation
import FormLang.Proofs.Kernel.Serving

/-!
Contract: conversations and the history of the kernel that they are held with.

Every exchange of a conversation is a part of the kernel's course. It takes nothing out of the
mailboxes but the answer that it writes, and it puts nothing in but the line.

Owns: what an exchange does to the history, and conversations as courses.
-/

set_option autoImplicit false

namespace FormLang.Console

open Kernel (Course)
open Kernel.Course (Leads)

/-- Nothing was submitted and nothing received since. -/
def SameMail (course later : Course) : Prop :=
  later.submitted = course.submitted ∧ later.received = course.received

/-- What an exchange does to the history of a kernel. -/
inductive Accounts (line : String) (course : Course) : Written → Course → Prop where
  | unchanged (request : Request.ofLine line = .nothing ∨
      Request.ofLine line = .start ∧ course.kernel.isActive = true) :
      Accounts line course .silent course
  | halted {later : Course} (request : Request.ofLine line = .stop)
      (left : later.kernel.worker = none) (mail : SameMail course later) :
      Accounts line course .silent later
  | renewed {later : Course} (request : Request.ofLine line = .reset ∨
      Request.ofLine line = .start ∧ course.kernel.isActive = false)
      (fresh : later.kernel.worker = some ⟨.fresh, .preparing⟩) (mail : SameMail course later) :
      Accounts line course .silent later
  | refused (request : Request.ofLine line = .program)
      (stopped : course.kernel.isActive = false) : Accounts line course .refused course
  | answered {later : Course} {answer : Answer} (request : Request.ofLine line = .program)
      (running : course.kernel.isActive = true) (stillRunning : later.kernel.isActive = true)
      (submitted : later.submitted = course.submitted ++ [line])
      (received : later.received = course.received ++ [answer])
      (past : later.past = course.past) : Accounts line course (.ofAnswer answer) later

/-- A conversation in terms of the courses of its kernel, with the courses at the prompts. -/
inductive Recounts : Course → List String → List Course → List Written → Exit → Prop where
  | ended {course prompted : Course} (before : course.WorkedTo prompted) :
      Recounts course [] [prompted] [] .endOfInput
  | exited {course prompted : Course} {line : String} (before : course.WorkedTo prompted)
      (request : Request.ofLine line = .exit) (rest : List String) :
      Recounts course (line :: rest) [prompted] [.silent] .exitCommand
  | exchanged {course prompted ready next : Course} {line : String} {rest : List String}
      {written : Written} {prompts : List Course} {others : List Written} {exit : Exit}
      (before : course.WorkedTo prompted) (after : prompted.WorkedTo ready)
      (leads : Leads ready next) (free : next.request = none)
      (accounts : Accounts line ready written next)
      (following : Recounts next rest prompts others exit) :
      Recounts course (line :: rest) (prompted :: prompts) (written :: others) exit

variable {startup : Option String} {course : Course} {line : String} {written : Written}

/-! ## Exchanges -/

theorem start_mail (course : Course) : SameMail course course.start := by
  unfold Course.start
  split <;> exact ⟨rfl, rfl⟩

theorem start_request (course : Course) : course.start.request = course.request := by
  unfold Course.start
  split <;> rfl

/-- A start where there is no worker makes a fresh one. -/
theorem start_fresh (stopped : ¬ course.kernel.isActive = true) :
    course.start.kernel.worker = some ⟨.fresh, .preparing⟩ := by
  rw [course.start_kernel, Kernel.start, if_neg stopped]

/-- A request to stop comes to a course in which the worker has left. -/
theorem stop_recounts {stopped : Kernel} (free : course.request = none) (wanted : Kernel.Request)
    (works : course.kernel.requestStop.WorksOn stopped) :
    ∃ later, Leads course later ∧ later.kernel = stopped ∧ later.request = some wanted ∧
      SameMail course later := by
  have works : (Course.kernel { course with
      kernel := course.kernel.requestStop, request := some wanted }).WorksOn stopped := works
  obtain ⟨later, worked, reached⟩ := Course.worksOn_leads works
  exact ⟨later, .head (.request wanted free) worked.leads, reached, worked.request,
    worked.submitted, worked.received⟩

/-- A program that is submitted and answered. -/
theorem answered_recounts {waited left : Kernel} {answer : Answer}
    (flagged : course.kernel.Flagged) (request : Request.ofLine line = .program)
    (running : course.kernel.isActive = true) (works : (course.kernel.submit line).WorksOn waited)
    (taken : waited.receive? = some (answer, left)) :
    ∃ later, Leads course later ∧ later.kernel = left ∧ later.request = course.request ∧
      Accounts line course (.ofAnswer answer) later := by
  have works : (Course.kernel { course with
      kernel := course.kernel.submit line
      submitted := course.submitted ++ [line] }).WorksOn waited := works
  obtain ⟨later, worked, rfl⟩ := Course.worksOn_leads works
  have stillRunning := (worked.running flagged).2.trans running
  have sameWorker : left.isActive = later.kernel.isActive := by
    obtain ⟨_, -, same⟩ := Option.map_eq_some_iff.mp taken
    cases same
    rfl
  refine ⟨{ later with kernel := left, received := later.received ++ [answer] },
    .head (.submit course line) (worked.leads.tail (.receive taken)), rfl, worked.request, ?_⟩
  exact .answered request running (sameWorker.trans stillRunning) worked.submitted
    (congrArg (· ++ [answer]) worked.received) (worked.past (flagged running))

/-- Every exchange is a course. The worker cannot have left without an answer. -/
theorem exchange_recounts {next : Kernel} (leads : Leads (.create startup) course)
    (free : course.request = none) (exchange : Exchange line course.kernel written next) :
    ∃ later, Leads course later ∧ later.kernel = next ∧ later.request = none ∧
      Accounts line course written later := by
  have flagged := Course.flagged_of_free leads free
  cases exchange with
  | nothing request => exact ⟨course, .refl, rfl, free, .unchanged (.inl request)⟩
  | start request =>
      by_cases running : course.kernel.isActive = true
      · rw [Kernel.start_of_isActive running]
        exact ⟨course, .refl, rfl, free, .unchanged (.inr ⟨request, running⟩)⟩
      · exact ⟨course.start, .single (.start free), course.start_kernel,
          (start_request course).trans free,
          .renewed (.inr ⟨request, Bool.eq_false_iff.mpr running⟩) (start_fresh running)
            (start_mail course)⟩
  | stop request works left =>
      obtain ⟨later, goesOn, rfl, wanted, mail⟩ := stop_recounts free .stop works
      exact ⟨_, goesOn.tail (.stopped wanted left), rfl, rfl, .halted request left mail⟩
  | reset request works left =>
      obtain ⟨later, goesOn, rfl, wanted, mail⟩ := stop_recounts free .reset works
      have fresh := start_fresh (Kernel.not_isActive_of_worker left)
      obtain ⟨submitted, received⟩ := start_mail later
      exact ⟨_, goesOn.tail (.restarted wanted left), later.start_kernel, rfl,
        .renewed (.inl request) fresh ⟨submitted.trans mail.1, received.trans mail.2⟩⟩
  | refused request stopped => exact ⟨course, .refl, rfl, free, .refused request stopped⟩
  | answered request running works taken =>
      obtain ⟨later, goesOn, reached, same, accounts⟩ :=
        answered_recounts flagged request running works taken
      exact ⟨later, goesOn, reached, same.trans free, accounts⟩
  -- Nobody takes the flag back between the submission and the answer, so the worker stays.
  | abandoned request running works _ leaves left =>
      obtain ⟨waitedFlagged, waiting⟩ := works.flagged flagged
      have there := (leaves.flagged waitedFlagged).2.trans (waiting.trans running)
      rw [left] at there
      cases there

/-! ## Conversations -/

/-- Every conversation is a course. -/
theorem converses_recounts {lines : List String} {prompts : List Kernel} {others : List Written}
    {exit : Exit} (leads : Leads (.create startup) course) (free : course.request = none)
    (converses : Converses course.kernel lines prompts others exit) :
    ∃ courses, Recounts course lines courses others exit ∧
      courses.map Course.kernel = prompts := by
  generalize here : course.kernel = kernel at converses
  induction converses generalizing course with
  | ended before =>
      subst here
      obtain ⟨prompted, worked, rfl⟩ := Course.worksOn_leads before
      exact ⟨[prompted], .ended worked, rfl⟩
  | exited before request rest =>
      subst here
      obtain ⟨prompted, worked, rfl⟩ := Course.worksOn_leads before
      exact ⟨[prompted], .exited worked request rest, rfl⟩
  | exchanged before after exchange _ inductionHypothesis =>
      subst here
      obtain ⟨prompted, worked, rfl⟩ := Course.worksOn_leads before
      obtain ⟨ready, prepared, rfl⟩ := Course.worksOn_leads after
      have readyLeads := (leads.trans worked.leads).trans prepared.leads
      have readyFree := prepared.request.trans (worked.request.trans free)
      obtain ⟨next, goesOn, rfl, nextFree, accounts⟩ :=
        exchange_recounts readyLeads readyFree exchange
      obtain ⟨courses, recounts, same⟩ :=
        inductionHypothesis (readyLeads.trans goesOn) nextFree rfl
      exact ⟨prompted :: courses, .exchanged worked prepared goesOn nextFree accounts recounts,
        congrArg (prompted.kernel :: ·) same⟩

end FormLang.Console
