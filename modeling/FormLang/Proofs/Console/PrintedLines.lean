import FormLang.CommandLine.Report
import FormLang.Proofs.Console.Accounts
import FormLang.Proofs.Sessions.OneLine

/-!
Contract: every answer that is published or written is one line.

A worker is a session, so what it answers is one line, and so is what it has posted. The dialogue
writes an answer or a fixed text for each line, whatever interrupts come, and the command line
writes one answer.

Owns: the answers in the mailboxes, what a turn of the dialogue writes, and the theorem about
all answers.
-/

set_option autoImplicit false

namespace FormLang

namespace Kernel

variable {startup : Option String} {service : List (String × Answer)} {session : Session}

/-- Every answer of a worker is one line. -/
theorem Serves.oneLine (serves : Serves startup service session) :
    session.MadeOf Atom.InLine ∧ ∀ answer ∈ service.map Prod.snd, OneLine answer.text := by
  induction serves with
  | prepared budget ready => exact ⟨Session.prepared_inLine ready, fun _ member => by cases member⟩
  | answered budget _ responded inductionHypothesis =>
      obtain ⟨madeOf, earlier⟩ := inductionHypothesis
      obtain ⟨next, last⟩ := Session.respond_oneLine madeOf responded
      rw [List.map_append, List.forall_mem_append]
      exact ⟨next, earlier, List.forall_mem_singleton.mpr last⟩

theorem AnsweredInOrder.oneLine {programs : List String} {answers : List Answer}
    (inOrder : AnsweredInOrder startup programs answers) :
    ∀ answer ∈ answers, OneLine answer.text := by
  obtain ⟨services, serve, -, given⟩ := inOrder
  intro answer member
  obtain ⟨⟨program, answer⟩, inAll, rfl⟩ := List.mem_map.mp (given.subset member)
  obtain ⟨service, isService, entry⟩ := List.mem_flatten.mp inAll
  obtain ⟨session, serves⟩ := serve service isService
  exact serves.oneLine.2 _ (List.mem_map_of_mem entry)

/-- Every answer that was ever posted is one line. -/
theorem Course.Lawful.oneLine {course : Course} (lawful : course.Lawful) :
    ∀ answer ∈ course.received ++ course.kernel.output.waiting, OneLine answer.text :=
  lawful.answeredInOrder.oneLine

end Kernel

/-- The text is empty or one line with its line feed. -/
def AtMostLine (text : String) : Prop :=
  text = "" ∨ ∃ line, OneLine line ∧ text = line ++ "\n"

theorem AtMostLine.ended {line : String} (oneLine : OneLine line) : AtMostLine (line ++ "\n") :=
  .inr ⟨line, oneLine, rfl⟩

namespace Console

open Kernel (Course)
open Kernel.Course (Leads)

theorem atMostLine_errorLine {message : String} (oneLine : OneLine message) :
    AtMostLine (errorLine message) :=
  .ended ((OneLine.fixed rfl).append oneLine)

/-- What is written for a line is at most one line on each side. -/
def Written.InLines (written : Written) : Prop :=
  AtMostLine written.output ∧ AtMostLine written.errors

theorem Written.silent_inLines : Written.silent.InLines := ⟨.inl rfl, .inl rfl⟩

theorem Written.refused_inLines : Written.refused.InLines :=
  ⟨.inl rfl, atMostLine_errorLine (.fixed rfl)⟩

theorem Written.ofAnswer_inLines {answer : Answer} (oneLine : OneLine answer.text) :
    (Written.ofAnswer answer).InLines := by
  cases answer with
  | value expression => exact ⟨.ended oneLine, .inl rfl⟩
  | failure message => exact ⟨.inl rfl, atMostLine_errorLine oneLine⟩

variable {startup : Option String} {course : Course} {budget : Nat}

/-! ## Conversations -/

theorem Accounts.inLines {line : String} {written : Written} {next : Course}
    (lawful : next.Lawful) (accounts : Accounts line course written next) : written.InLines := by
  cases accounts with
  | unchanged _ => exact Written.silent_inLines
  | halted _ _ _ => exact Written.silent_inLines
  | renewed _ _ _ => exact Written.silent_inLines
  | refused _ _ => exact Written.refused_inLines
  | answered _ _ _ _ received _ =>
      refine Written.ofAnswer_inLines (lawful.oneLine _ ?_)
      rw [received]
      exact List.mem_append_left _ (List.mem_append_right _ (List.mem_singleton.mpr rfl))

theorem Recounts.inLines {lines : List String} {courses : List Course} {written : List Written}
    {exit : Exit} (leads : Leads (.create startup) course)
    (recounts : Recounts course lines courses written exit) :
    ∀ each ∈ written, each.InLines := by
  induction recounts with
  | ended _ => exact fun _ member => by cases member
  | exited _ _ _ => exact List.forall_mem_singleton.mpr Written.silent_inLines
  | exchanged before after goesOn _ accounts _ inductionHypothesis =>
      have nextLeads := ((leads.trans before.leads).trans after.leads).trans goesOn
      exact List.forall_mem_cons.mpr
        ⟨accounts.inLines (Course.Lawful.leads nextLeads), inductionHypothesis nextLeads⟩

/-! ## The dialogue, with interrupts -/

theorem settle_leads {settled : Kernel}
    (settles : course.kernel.settle budget = some settled) (free : course.request = none) :
    ∃ later, Leads course later ∧ later.kernel = settled ∧ later.request = none := by
  obtain ⟨later, leads, reached, same⟩ := Course.advanceBy_leads settles
  exact ⟨later, leads, reached, same.trans free⟩

/-- A turn goes on with the course of the kernel, and writes at most one line on each side. -/
structure Turn.Follows (course : Course) (turn : Turn) : Prop where
  inLines : Written.InLines ⟨turn.output, turn.errors⟩
  goesOn : ∃ later, Leads course later ∧ later.kernel = turn.kernel ∧ later.request = none
  ending : turn.exit ≠ some .endOfInput

theorem Turn.Follows.silent {later : Course} (leads : Leads course later)
    (free : later.request = none) (interrupts : Interrupts) {exit : Option Exit}
    (ending : exit ≠ some .endOfInput) :
    Turn.Follows course (.silent later.kernel interrupts exit) :=
  ⟨Written.silent_inLines, ⟨later, leads, rfl, free⟩, ending⟩

theorem writeAnswer_follows (leads : Leads (.create startup) course) (free : course.request = none)
    (interrupts : Interrupts) : (writeAnswer course.kernel interrupts).Follows course := by
  cases taken : course.kernel.receive? with
  | none =>
      rw [writeAnswer, taken]
      exact ⟨Written.refused_inLines, ⟨course, .refl, rfl, free⟩, (Option.some_ne_none _).symm⟩
  | some ending =>
      obtain ⟨answer, left⟩ := ending
      have received : Leads course { course with
          kernel := left, received := course.received ++ [answer] } :=
        .single (.receive taken)
      have oneLine := (Course.Lawful.leads (leads.trans received)).oneLine answer
        (List.mem_append_left _ (List.mem_append_right _ (List.mem_singleton.mpr rfl)))
      have inLines := Written.ofAnswer_inLines oneLine
      rw [writeAnswer, taken]
      cases answer <;> exact ⟨inLines, ⟨_, received, rfl, free⟩, (Option.some_ne_none _).symm⟩

theorem submitProgram_follows {program : String} {interrupts : Interrupts} {turn : Turn}
    (leads : Leads (.create startup) course) (free : course.request = none)
    (taken : submitProgram budget course.kernel interrupts program = some turn) :
    turn.Follows course := by
  unfold submitProgram at taken
  split at taken
  · obtain ⟨settled, settles, same⟩ := Option.map_eq_some_iff.mp taken
    have submitted := Course.Step.submit course program
    have asked : (Course.kernel { course with
        kernel := course.kernel.submit program
        submitted := course.submitted ++ [program] }).settle budget = some settled := settles
    obtain ⟨later, goesOn, rfl, laterFree⟩ := settle_leads asked free
    have whole := Relation.ReflTransGen.head submitted goesOn
    split at same
    · cases same
      exact .silent whole laterFree _ (by decide)
    · cases same
      obtain ⟨inLines, ⟨last, rest, reached, lastFree⟩, ending⟩ :=
        writeAnswer_follows (leads.trans whole) laterFree interrupts
      exact ⟨inLines, ⟨last, whole.trans rest, reached, lastFree⟩, ending⟩
  · cases taken
    exact ⟨Written.refused_inLines, ⟨course, .refl, rfl, free⟩, (Option.some_ne_none _).symm⟩

theorem takeTurn_follows {line : Line} {turn : Turn} (leads : Leads (.create startup) course)
    (free : course.request = none) (taken : takeTurn budget course.kernel line = some turn) :
    turn.Follows course := by
  unfold takeTurn at taken
  dsimp only at taken
  split at taken
  · cases taken
    exact .silent .refl free _ (by decide)
  · split at taken
    · cases taken
      exact .silent .refl free _ (by decide)
    · obtain ⟨settled, settles, rfl⟩ := Option.map_eq_some_iff.mp taken
      rw [← course.start_kernel] at settles
      obtain ⟨later, goesOn, rfl, laterFree⟩ :=
        settle_leads settles ((start_request course).trans free)
      exact .silent (.head (.start free) goesOn) laterFree _ (by decide)
    · obtain ⟨stopped, stops, rfl⟩ := Option.map_eq_some_iff.mp taken
      obtain ⟨later, goesOn, rfl, laterFree, -⟩ := Course.stop_leads free stops
      exact .silent goesOn laterFree _ (by decide)
    · obtain ⟨fresh, restarts, following⟩ := Option.bind_eq_some_iff.mp taken
      obtain ⟨settled, settles, same⟩ := Option.bind_eq_some_iff.mp following
      cases same
      obtain ⟨again, restarted, rfl, againFree, -⟩ := Course.reset_leads free restarts
      obtain ⟨later, goesOn, rfl, laterFree⟩ := settle_leads settles againFree
      exact .silent (restarted.trans goesOn) laterFree _ (by decide)
    · cases taken
      exact .silent .refl free _ (by decide)
    · exact submitProgram_follows leads free taken

/-- All that a dialogue writes, whatever its lines are and whatever interrupts come. -/
theorem dialogue_inLines {lines : List Line} {transcript : Transcript}
    (leads : Leads (.create startup) course) (free : course.request = none)
    (held : dialogue budget course.kernel lines = some transcript) :
    ∃ written : List Written, (∀ each ∈ written, each.InLines) ∧
      transcript.shown = shown written transcript.exit := by
  induction lines generalizing course transcript with
  | nil =>
      cases held
      exact ⟨[], fun _ member => (List.not_mem_nil member).elim, rfl⟩
  | cons line rest inductionHypothesis =>
      obtain ⟨turn, taken, following⟩ := Option.bind_eq_some_iff.mp held
      obtain ⟨inLines, ⟨later, goesOn, reached, laterFree⟩, ending⟩ :=
        takeTurn_follows leads free taken
      cases exit : turn.exit with
      | some reason =>
          rw [exit] at following
          cases following
          refine ⟨[⟨turn.output, turn.errors⟩], List.forall_mem_singleton.mpr inLines, ?_⟩
          have early : reason ≠ .endOfInput := fun same => ending (same ▸ exit)
          simp [Transcript.shown, shown, early]
      | none =>
          rw [exit] at following
          obtain ⟨last, rests, whole⟩ := Option.bind_eq_some_iff.mp following
          cases whole
          rw [← reached] at rests
          obtain ⟨others, othersInLines, same⟩ :=
            inductionHypothesis (leads.trans goesOn) laterFree rests
          refine ⟨⟨turn.output, turn.errors⟩ :: others,
            List.forall_mem_cons.mpr ⟨inLines, othersInLines⟩, ?_⟩
          rw [shown_cons, ← same]
          rfl

end Console

open Console in
/-- Every answer is exactly one line. In a session in which a startup program has run, this holds
of the answers to any sequence of texts. It holds of all that a kernel ever publishes, under all
orders of its steps. So what is written for a line in a conversation is one line at most, and
so is what a dialogue writes for it, whatever interrupts come; and so is what the command line
writes for a program, given as an argument or in a file. -/
theorem answers_oneLine (startup : Option String) :
    (∀ budget session outcomes left, Session.prepared budget startup = some session →
      session.Runs outcomes left → ∀ text outcome, (text, outcome) ∈ outcomes →
        OneLine (Answer.ofOutcome outcome).text) ∧
    (∀ budget program answer, Session.answerOnce budget startup program = some answer →
      OneLine answer.text) ∧
    (∀ course, Kernel.Course.Leads (.create startup) course →
      (∀ answer ∈ course.received ++ course.kernel.output.waiting, OneLine answer.text) ∧
      (course.request = none →
        (∀ lines prompts written exit, Converses course.kernel lines prompts written exit →
          ∀ each ∈ written, each.InLines) ∧
        ∀ budget lines transcript, dialogue budget course.kernel lines = some transcript →
          ∃ written : List Written, (∀ each ∈ written, each.InLines) ∧
            transcript.shown = shown written transcript.exit)) ∧
    ∀ budget program report, CommandLine.answerProgram budget program = some report ∨
      (∃ path bytes, SourceText.ofBytes bytes = .text program ∧
        CommandLine.answerFile budget path (.ok bytes) = some report) →
      AtMostLine report.output ∧ AtMostLine report.errors := by
  refine ⟨fun budget session outcomes left ready runs => ?_,
    fun budget program answer answered => Session.answerOnce_oneLine answered,
    fun course leads => ⟨(Kernel.Course.Lawful.leads leads).oneLine, fun free => ⟨?_, ?_⟩⟩,
    fun budget program report reported => ?_⟩
  · exact Session.runs_oneLine (Session.prepared_inLine ready) runs
  · intro lines prompts written exit converses
    obtain ⟨courses, recounts, -⟩ := converses_recounts leads free converses
    exact recounts.inLines leads
  · exact fun budget lines transcript held => dialogue_inLines leads free held
  · have reported : CommandLine.answerProgram budget program = some report := by
      rcases reported with reported | ⟨path, bytes, isText, reported⟩
      · exact reported
      · rwa [CommandLine.answerFile, isText] at reported
    obtain ⟨answer, answered, rfl⟩ := Option.map_eq_some_iff.mp reported
    have inLines := Written.ofAnswer_inLines (Session.answerOnce_oneLine answered)
    cases answer <;> exact inLines

/-- A startup program over several lines. -/
def noteDefinition : String := "(define note\n\t\"one\") ; two\r\n"

def brokenText : String := "(list note\r\n \"three\nfour\")"

theorem brokenText_answered_in_one_line :
    Session.answerOnce 5 (some noteDefinition) brokenText =
      some (.failure "Error during evaluation: unknown symbol `\"three`") ∧
    OneLine "Error during evaluation: unknown symbol `\"three`" := by
  have answered : Session.answerOnce 5 (some noteDefinition) brokenText =
      some (.failure "Error during evaluation: unknown symbol `\"three`") := by
    decide +kernel
  exact ⟨answered, (answers_oneLine (some noteDefinition)).2.1 _ _ _ answered⟩

end FormLang
