import FormLang.Proofs.Console.Interruptions

/-!
Contract: where interrupts end a conversation, and what is left there.

The end comes at the first line that is a program for a running kernel and was read with two
interrupts or more. Interrupts with any other line, and a single one, change nothing. The
program of the line stays with the kernel, and nobody takes its answer.

Owns: which line that is, conversations up to it as conversations without interrupts, and the
theorem about conversations with interrupts and the dialogue.
-/

set_option autoImplicit false

namespace FormLang.Console

open Kernel (Course)
open Kernel.Course (Leads)

/-! ## The line -/

/-- Whether there is a worker behind lines. -/
def runningAfter (running : Bool) (lines : List TimedLine) : Bool :=
  lines.foldl (fun running line => (Request.ofLine line.1).runs running) running

/-- The line stands behind these earlier ones, none of which is the command to exit. It is a
program for a running kernel, and two interrupts or more come with it. -/
structure BreaksAt (running : Bool) (lines earlier : List TimedLine) (line : TimedLine) : Prop where
  split : ∃ later, lines = earlier ++ line :: later
  noExit : ∀ each ∈ earlier, Request.ofLine each.1 ≠ .exit
  program : Request.ofLine line.1 = .program
  running : runningAfter running earlier = true
  interrupts : 2 ≤ line.2

/-- The first such line. -/
def FirstBreak (running : Bool) (lines earlier : List TimedLine) (line : TimedLine) : Prop :=
  BreaksAt running lines earlier line ∧ ∀ earlier' line',
    BreaksAt running lines earlier' line' → earlier.length ≤ earlier'.length

section Lines

variable {running : Bool} {lines rest earlier : List TimedLine} {head line : TimedLine}

theorem not_breaksAt_nil : ¬ BreaksAt running [] earlier line := by
  rintro ⟨⟨later, split⟩, -⟩
  exact absurd split.symm (List.append_ne_nil_of_right_ne_nil _ (List.cons_ne_nil _ _))

/-- Such a line is the first of the lines, or comes behind one that is not the command to exit. -/
theorem breaksAt_cons_iff :
    BreaksAt running (head :: rest) earlier line ↔
      earlier = [] ∧ line = head ∧
        (Request.ofLine head.1 = .program ∧ running = true ∧ 2 ≤ head.2) ∨
      ∃ others, earlier = head :: others ∧ Request.ofLine head.1 ≠ .exit ∧
        BreaksAt ((Request.ofLine head.1).runs running) rest others line := by
  constructor
  · rintro ⟨⟨later, split⟩, noExit, program, runs, interrupts⟩
    cases earlier with
    | nil =>
        cases split
        exact .inl ⟨rfl, rfl, program, runs, interrupts⟩
    | cons first others =>
        cases split
        obtain ⟨firstNoExit, othersNoExit⟩ := List.forall_mem_cons.mp noExit
        exact .inr ⟨others, rfl, firstNoExit, ⟨later, rfl⟩, othersNoExit, program, runs, interrupts⟩
  · rintro (⟨rfl, rfl, program, runs, interrupts⟩ | ⟨others, rfl, noExit, breaks⟩)
    · exact ⟨⟨rest, rfl⟩, fun _ member => absurd member List.not_mem_nil, program, runs, interrupts⟩
    · obtain ⟨⟨later, rfl⟩, othersNoExit, program, runs, interrupts⟩ := breaks
      exact ⟨⟨later, rfl⟩, List.forall_mem_cons.mpr ⟨noExit, othersNoExit⟩, program, runs, interrupts⟩

/-- Behind a line that goes on, the first such line is the first of the others. -/
theorem firstBreak_cons (noExit : Request.ofLine head.1 ≠ .exit)
    (goesOn : ¬ (Request.ofLine head.1 = .program ∧ running = true ∧ 2 ≤ head.2)) :
    FirstBreak running (head :: rest) (head :: earlier) line ↔
      FirstBreak ((Request.ofLine head.1).runs running) rest earlier line := by
  constructor
  · rintro ⟨breaks, first⟩
    rcases breaksAt_cons_iff.mp breaks with ⟨impossible, -⟩ | ⟨others, same, -, breaks⟩
    · cases impossible
    · cases same
      refine ⟨breaks, fun earlier' line' breaks' => ?_⟩
      have atLeast := first (head :: earlier') line'
        (breaksAt_cons_iff.mpr (.inr ⟨earlier', rfl, noExit, breaks'⟩))
      exact Nat.le_of_succ_le_succ atLeast
  · rintro ⟨breaks, first⟩
    refine ⟨breaksAt_cons_iff.mpr (.inr ⟨earlier, rfl, noExit, breaks⟩), ?_⟩
    intro earlier' line' breaks'
    rcases breaksAt_cons_iff.mp breaks' with ⟨-, -, here⟩ | ⟨others, rfl, -, breaks'⟩
    · exact absurd here goesOn
    · exact Nat.succ_le_succ (first others line' breaks')

end Lines

/-! ## Conversations up to the line -/

variable {kernel next last : Kernel} {interrupts final : Interrupts} {line : String}
variable {lines earlier : List TimedLine} {written : List Written} {exit : Exit}

/-- Commands decide whether there is a worker, and nothing else does. -/
theorem Exchange.runs {first : Written} (exchange : Exchange line kernel first next)
    (flagged : kernel.Flagged) :
    next.isActive = (Request.ofLine line).runs kernel.isActive := by
  cases exchange with
  | nothing request => rw [request]; rfl
  | start request =>
      rw [request]
      exact (Kernel.start_active flagged).1
  | stop request _ left =>
      rw [request]
      exact Bool.eq_false_iff.mpr (Kernel.not_isActive_of_worker left)
  | reset request _ left =>
      rw [request]
      exact (Kernel.start_active fun there => absurd there (Kernel.not_isActive_of_worker left)).1
  | refused request _ => rw [request]; rfl
  | answered request _ works taken =>
      rw [request]
      obtain ⟨_, -, same⟩ := Option.map_eq_some_iff.mp taken
      cases same
      exact (works.flagged flagged).2
  | abandoned request _ works _ leaves _ =>
      rw [request]
      exact (Kernel.WorksOn.flagged (works.trans leaves) flagged).2

theorem Exchange.not_exit {first : Written} (exchange : Exchange line kernel first next) :
    Request.ofLine line ≠ .exit := by
  intro exits
  cases exchange with
  | nothing request | start request | stop request _ _ | reset request _ _ | refused request _
  | answered request _ _ _ | abandoned request _ _ _ _ _ => cases exits.symm.trans request

/-- As long as the count does not overflow, a line ends the conversation at a kernel if it is a
program for a running one and two interrupts or more come with it. -/
theorem breaks_iff {line : TimedLine} (few : line.2 < 2 ^ 64) :
    Breaks line.1 (.deliverEach .cleared line.2) kernel ↔
      Request.ofLine line.1 = .program ∧ kernel.isActive = true ∧ 2 ≤ line.2 := by
  rw [Breaks, Interrupts.exitRequested_iff few]

/-- The conversation over the earlier lines is one without interrupts. Then the line is submitted,
and nothing else happens. -/
def StopsAt (kernel : Kernel) (earlier : List TimedLine) (line : TimedLine)
    (written : List Written) (last : Kernel) (final : Interrupts) : Prop :=
  ∃ prompts others ready,
    Converses kernel (earlier.map Prod.fst) prompts others .endOfInput ∧
    prompts.getLast? = some ready ∧ ready.isActive = true ∧ ready.active = true ∧
    written = others ++ [.silent] ∧ last = ready.submit line.1 ∧ final = .deliverEach .cleared line.2

theorem StopsAt.behind {ready : Kernel} {head line : TimedLine} {first : Written}
    (works : kernel.WorksOn ready) (exchange : Exchange head.1 ready first next)
    (stops : StopsAt next earlier line written last final) :
    StopsAt kernel (head :: earlier) line (first :: written) last final := by
  obtain ⟨prompts, others, prompted, converses, isLast, running, active, rfl, same, count⟩ := stops
  refine ⟨ready :: prompts, first :: others, prompted,
    .exchanged works (.refl ready) exchange converses, ?_, running, active, rfl, same, count⟩
  rw [List.getLast?_cons, isLast]
  rfl

/-- A conversation ends at the first line that breaks it, and without such a line it is one
without interrupts. -/
theorem Interruptible.quiet_or_broken (flagged : kernel.Flagged)
    (few : ∀ line ∈ lines, line.2 < 2 ^ 64)
    (converses : Interruptible kernel interrupts lines written exit last final) :
    (exit ≠ .interrupted ∧ (∀ earlier line, ¬ BreaksAt kernel.isActive lines earlier line) ∧
      ∃ prompts, Converses kernel (lines.map Prod.fst) prompts written exit) ∨
    exit = .interrupted ∧ ∃ earlier line,
      FirstBreak kernel.isActive lines earlier line ∧
      StopsAt kernel earlier line written last final := by
  induction converses with
  | ended works =>
      exact .inl ⟨by decide, fun _ _ => not_breaksAt_nil, _, .ended works⟩
  | @left kernel ready last interrupts line written exit works reads rest =>
      obtain ⟨readyFlagged, running⟩ := works.flagged flagged
      have count := few line List.mem_cons_self
      obtain ⟨rfl, ⟨exits, rfl, rfl⟩ | ⟨breaks, rfl, rfl⟩⟩ := reads_some_iff.mp reads
      · refine .inl ⟨by decide, fun earlier other breaks => ?_, _, .exited works exits _⟩
        rcases breaksAt_cons_iff.mp breaks with ⟨-, -, program, -⟩ | ⟨-, -, noExit, -⟩
        · cases exits.symm.trans program
        · exact noExit exits
      · have there := breaks.2.1
        rw [breaks_iff count, running] at breaks
        refine .inr ⟨rfl, [], line, ⟨breaksAt_cons_iff.mpr (.inl ⟨rfl, rfl, breaks⟩),
          fun _ _ _ => Nat.zero_le _⟩, ?_⟩
        exact ⟨_, [], ready, .ended works, rfl, there, readyFlagged there, rfl, rfl, rfl⟩
  | @continued kernel ready next last interrupts final line rest written others exit works reads _
      inductionHypothesis =>
      obtain ⟨exchange, goesOn⟩ := reads_none_iff.mp reads
      obtain ⟨readyFlagged, running⟩ := works.flagged flagged
      obtain ⟨count, fewRest⟩ := List.forall_mem_cons.mp few
      rw [breaks_iff count, running] at goesOn
      have following := inductionHypothesis (exchange.flagged readyFlagged) fewRest
      rw [exchange.runs readyFlagged, running] at following
      rcases following with
        ⟨noBreak, quiet, prompts, converses⟩ | ⟨broken, earlier, stop, first, stops⟩
      · refine .inl ⟨noBreak, fun earlier other breaks => ?_, _,
          .exchanged works (.refl ready) exchange converses⟩
        rcases breaksAt_cons_iff.mp breaks with ⟨-, -, here⟩ | ⟨others, -, -, later⟩
        · exact goesOn here
        · exact quiet others other later
      · exact .inr ⟨broken, line :: earlier, stop,
          (firstBreak_cons exchange.not_exit goesOn).mpr first, stops.behind works exchange⟩

/-- A conversation without interrupts is one with the interrupts of its lines, if no line breaks
it. -/
theorem Converses.interruptible {prompts : List Kernel} (flagged : kernel.Flagged)
    (few : ∀ line ∈ lines, line.2 < 2 ^ 64)
    (quiet : ∀ earlier line, ¬ BreaksAt kernel.isActive lines earlier line)
    (interrupts : Interrupts)
    (converses : Converses kernel (lines.map Prod.fst) prompts written exit) :
    ∃ last final, Interruptible kernel interrupts lines written exit last final := by
  induction lines generalizing kernel prompts written interrupts with
  | nil =>
      cases converses with
      | ended before => exact ⟨_, _, .ended before⟩
  | cons line rest inductionHypothesis =>
      obtain ⟨count, fewRest⟩ := List.forall_mem_cons.mp few
      cases converses with
      | exited before request _ => exact ⟨_, _, .left before (.exited request) rest⟩
      | exchanged before after exchange following =>
          have works := before.trans after
          obtain ⟨readyFlagged, running⟩ := Kernel.WorksOn.flagged works flagged
          have nextFlagged := exchange.flagged readyFlagged
          have runs := exchange.runs readyFlagged
          rw [running] at runs
          obtain ⟨last, final, goesOn⟩ := inductionHypothesis nextFlagged fewRest
            (fun earlier other later => quiet (line :: earlier) other
              (breaksAt_cons_iff.mpr (.inr ⟨earlier, rfl, exchange.not_exit, runs ▸ later⟩)))
            (.deliverEach .cleared line.2) following
          refine ⟨last, final, .continued works (reads_none_iff.mpr ⟨exchange, ?_⟩) goesOn⟩
          rw [breaks_iff count, running]
          exact fun here => quiet [] line (breaksAt_cons_iff.mpr (.inl ⟨rfl, rfl, here⟩))

/-- A conversation without interrupts over the lines in front of the first that breaks it comes
to an end there, whatever the worker does. -/
theorem Converses.broken {prompts : List Kernel} {line : TimedLine} (flagged : kernel.Flagged)
    (few : ∀ line ∈ lines, line.2 < 2 ^ 64)
    (first : FirstBreak kernel.isActive lines earlier line) (interrupts : Interrupts)
    (converses : Converses kernel (earlier.map Prod.fst) prompts written .endOfInput) :
    ∃ last final,
      Interruptible kernel interrupts lines (written ++ [.silent]) .interrupted last final := by
  induction earlier generalizing kernel lines prompts written interrupts with
  | nil =>
      cases converses with
      | @ended _ prompted before =>
          obtain ⟨⟨later, rfl⟩, -, program, running, two⟩ := first.1
          have still := (before.flagged flagged).2
          have count := few line (List.mem_append_right _ List.mem_cons_self)
          refine ⟨prompted.submit line.1, _, .left before (reads_some_iff.mpr
            ⟨rfl, .inr ⟨(breaks_iff count).mpr ⟨program, still.trans running, two⟩, rfl, rfl⟩⟩) _⟩
  | cons head others inductionHypothesis =>
      obtain ⟨⟨later, rfl⟩, -⟩ := first.1
      obtain ⟨count, fewRest⟩ := List.forall_mem_cons.mp few
      cases converses with
      | exchanged before after exchange following =>
          have works := before.trans after
          obtain ⟨readyFlagged, running⟩ := Kernel.WorksOn.flagged works flagged
          have runs := exchange.runs readyFlagged
          rw [running] at runs
          have goesOn : ¬ (Request.ofLine head.1 = .program ∧ kernel.isActive = true ∧ 2 ≤ head.2) :=
            fun here => absurd
              (first.2 [] head (breaksAt_cons_iff.mpr (.inl ⟨rfl, rfl, here⟩))) (by simp)
          have rest := (firstBreak_cons exchange.not_exit goesOn).mp first
          obtain ⟨last, final, ends⟩ := inductionHypothesis (exchange.flagged readyFlagged) fewRest
            (runs ▸ rest) (.deliverEach .cleared head.2) following
          refine ⟨last, final, .continued works (reads_none_iff.mpr ⟨exchange, ?_⟩) ends⟩
          rwa [breaks_iff count, running]

/-! ## The program of the line -/

section Left

variable {startup : Option String} {course left later : Course} {line : TimedLine}

/-- When all programs are answered and not all answers were taken, the answer to the last program
is the last one that waits. -/
theorem answer_waits {front : List String} {program : String} (lawful : later.Lawful)
    (submitted : later.submitted = front ++ [program])
    (few : later.received.length ≤ front.length)
    (all : later.answered.map Prod.fst = later.submitted) :
    ∃ answer, later.answered.getLast? = some (program, answer) ∧
      later.kernel.output.waiting.getLast? = some answer := by
  rw [submitted] at all
  obtain ⟨services, lasts, split, programs, single⟩ := List.map_eq_append_iff.mp all
  obtain ⟨⟨_, answer⟩, rfl, rfl⟩ := List.map_eq_singleton_iff.mp single
  have posted := lawful.posted
  rw [split, List.map_append, List.map_singleton] at posted
  have some : later.kernel.output.waiting ≠ [] := by
    intro nothing
    have count := congrArg List.length posted
    have answered := congrArg List.length programs
    rw [nothing, List.append_nil, List.length_append, List.length_map,
      List.length_singleton] at count
    rw [List.length_map] at answered
    omega
  refine ⟨answer, by rw [split, List.getLast?_concat], ?_⟩
  rw [← List.getLast?_append_of_ne_nil later.received some, posted, List.getLast?_concat]

/-- A worker that rests with nothing that waits has answered all programs. -/
theorem all_answered {session : Session} {stage : Stage} (lawful : later.Lawful)
    (worker : later.kernel.worker = some ⟨session, stage⟩) (rests : stage.Rests)
    (nothing : later.kernel.input.waiting = []) :
    later.answered.map Prod.fst = later.submitted := by
  have held : later.held = none := by
    have serving := lawful.servingAt worker
    cases rests with
    | checking => exact serving.1
    | fetching => exact serving.1
  rw [lawful.submitted, held, nothing, Option.toList_none, List.append_nil, List.append_nil]

/-- What is left of a conversation where it was interrupted. Behind the earlier programs the line
was submitted, once, and nothing is written for it. As many answers were taken as earlier
programs were accepted, so that whatever the worker does from here, its answer to the line is
the last one in the output mailbox when it has answered all programs. Settling comes to that. The
end is still asked for. -/
def LeftUnanswered (course : Course) (earlier : List TimedLine) (line : TimedLine)
    (written : List Written) (last : Kernel) (final : Interrupts) : Prop :=
  final.exitRequested = true ∧ ∃ others accepted answers left,
    written = others ++ [.silent] ∧
    Due course.kernel.isActive (earlier.map Prod.fst) accepted answers others .endOfInput ∧
    Leads course left ∧ left.kernel = last ∧
    left.submitted = course.submitted ++ accepted ++ [line.1] ∧
    left.received = course.received ++ answers ∧
    (∀ later, left.WorkedTo later → later.answered.map Prod.fst = later.submitted →
      ∃ answer, later.answered.getLast? = some (line.1, answer) ∧
        later.kernel.output.waiting.getLast? = some answer) ∧
    ∀ budget settled, last.settle budget = some settled →
      ∃ later, left.WorkedTo later ∧ later.kernel = settled ∧
        later.answered.map Prod.fst = later.submitted

theorem StopsAt.leftUnanswered (leads : Leads (.create startup) course)
    (free : course.request = none) (few : line.2 < 2 ^ 64) (two : 2 ≤ line.2)
    (stops : StopsAt course.kernel earlier line written last final) :
    LeftUnanswered course earlier line written last final := by
  obtain ⟨prompts, others, ready, converses, isLast, running, active, rfl, rfl, rfl⟩ := stops
  obtain ⟨courses, recounts, rfl⟩ := converses_recounts leads free converses
  obtain ⟨prompted, accepted, answers, promptedLeads, isPrompted, due, submitted, received⟩ :=
    recounts.due leads free
  rw [List.getLast?_map, isPrompted] at isLast
  cases isLast
  have submits : Leads course { prompted with
      kernel := prompted.kernel.submit line.1, submitted := prompted.submitted ++ [line.1] } :=
    promptedLeads.tail (.submit prompted line.1)
  refine ⟨(Interrupts.exitRequested_iff few).mpr two, others, accepted, answers, _, rfl, due,
    submits, rfl, congrArg (· ++ [line.1]) submitted, received, ?_, ?_⟩
  · intro later worked all
    have outstanding := (Course.Lawful.leads (leads.trans promptedLeads)).outstanding
    refine answer_waits (.leads ((leads.trans submits).trans worked.leads)) worked.submitted ?_ all
    rw [worked.received]
    show prompted.received.length ≤ _
    omega
  · intro budget settled settles
    have works : (Course.kernel { prompted with
        kernel := prompted.kernel.submit line.1
        submitted := prompted.submitted ++ [line.1] }).WorksOn settled :=
      Kernel.advanceBy_worksOn settles
    obtain ⟨later, worked, rfl⟩ := Course.worksOn_leads works
    obtain ⟨nothing, session, stage, worker, rests⟩ :=
      Kernel.settle_rests (by exact active) (by exact running) settles
    exact ⟨later, worked, rfl,
      all_answered (.leads ((leads.trans submits).trans worked.leads)) worker rests nothing⟩

end Left

/-! ## All conversations -/

/-- Interrupts end a conversation at the first program for a running kernel that two of them or
more come with, and change nothing otherwise, as they are forgotten at the next prompt. So a
conversation with interrupts is one without, over all lines or over those in front of that one,
and each of these is one with interrupts. At that end the program was submitted once, nothing is
written for it, its answer is left in the output mailbox, and the end is still asked for. The
dialogue is such a conversation, and goes on at its end until that answer is there. -/
theorem interrupted_conversations {startup : Option String} {course : Course}
    (leads : Leads (.create startup) course) (free : course.request = none)
    {lines : List TimedLine} (few : ∀ line ∈ lines, line.2 < 2 ^ 64) (interrupts : Interrupts) :
    (∀ written exit last final,
      Interruptible course.kernel interrupts lines written exit last final →
      (exit = .interrupted ↔
        ∃ earlier line, BreaksAt course.kernel.isActive lines earlier line) ∧
      (exit ≠ .interrupted →
        ∃ prompts, Converses course.kernel (lines.map Prod.fst) prompts written exit) ∧
      (exit = .interrupted → ∃ earlier line,
        FirstBreak course.kernel.isActive lines earlier line ∧
        (∃ prompts others, Converses course.kernel (earlier.map Prod.fst) prompts others .endOfInput ∧
          written = others ++ [.silent]) ∧
        LeftUnanswered course earlier line written last final)) ∧
    (∀ prompts written exit,
      (∀ earlier line, ¬ BreaksAt course.kernel.isActive lines earlier line) →
      Converses course.kernel (lines.map Prod.fst) prompts written exit →
      ∃ last final, Interruptible course.kernel interrupts lines written exit last final) ∧
    (∀ earlier line prompts written,
      FirstBreak course.kernel.isActive lines earlier line →
      Converses course.kernel (earlier.map Prod.fst) prompts written .endOfInput →
      ∃ last final, Interruptible course.kernel interrupts lines (written ++ [.silent])
        .interrupted last final) ∧
    ∀ budget transcript,
      dialogue budget course.kernel (lines.map .timed) = some transcript →
      ∃ written last,
        Interruptible course.kernel interrupts lines written transcript.exit last
          transcript.interrupts ∧
        transcript.shown = shown written transcript.exit ∧ last.WorksOn transcript.kernel ∧
        (transcript.exit = .interrupted → last.settle budget = some transcript.kernel) := by
  have flagged := Course.flagged_of_free leads free
  refine ⟨?_, fun _ _ _ quiet converses => converses.interruptible flagged few quiet interrupts,
    fun _ _ _ _ first converses => converses.broken flagged few first interrupts,
    fun _ _ held => dialogue_interruptible flagged interrupts held⟩
  intro written exit last final converses
  rcases converses.quiet_or_broken flagged few with
    ⟨goesOn, quiet, without⟩ | ⟨broken, earlier, line, first, stops⟩
  · refine ⟨iff_of_false goesOn fun ⟨earlier, line, breaks⟩ => quiet earlier line breaks,
      fun _ => without, fun broken => absurd broken goesOn⟩
  · refine ⟨iff_of_true broken ⟨earlier, line, first.1⟩, fun goesOn => absurd broken goesOn,
      fun _ => ⟨earlier, line, first, ?_, ?_⟩⟩
    · obtain ⟨prompts, others, -, whole, -, -, -, same, -⟩ := stops
      exact ⟨prompts, others, whole, same⟩
    · obtain ⟨⟨later, rfl⟩, -, -, -, two⟩ := first.1
      exact stops.leftUnanswered leads free (few line (by simp)) two

/-- One interrupt with a program, two with commands and with a program that is refused, and then
two with a program for a running kernel. -/
def interruptedLines : List TimedLine :=
  [("(list)", 1), ("%stop", 2), ("(list)", 2), ("%start", 2), ("(list)", 2), ("%exit", 0)]

theorem interrupted_behind_commands :
    ∃ transcript written last earlier line,
      dialogue 1 (Course.create none).start.kernel (interruptedLines.map .timed) =
        some transcript ∧
      transcript.shown = ("plotscript> ()\nplotscript> plotscript> plotscript> plotscript> ",
        "Error: interpreter kernel not running\n", .interrupted) ∧
      FirstBreak true interruptedLines earlier line ∧
      LeftUnanswered (Course.create none).start earlier line written last
        transcript.interrupts := by
  have leads : Leads (.create none) (Course.create none).start := .single (.start rfl)
  have few : ∀ line ∈ interruptedLines, line.2 < 2 ^ 64 := by decide
  obtain ⟨ends, -, -, held⟩ := interrupted_conversations leads rfl few .cleared
  have wrote : (dialogue 1 (Course.create none).start.kernel
      (interruptedLines.map .timed)).map Transcript.shown =
        some ("plotscript> ()\nplotscript> plotscript> plotscript> plotscript> ",
          "Error: interpreter kernel not running\n", .interrupted) := by
    decide +kernel
  obtain ⟨transcript, ended, shown⟩ := Option.map_eq_some_iff.mp wrote
  have exit : transcript.exit = .interrupted := congrArg (fun all => all.2.2) shown
  obtain ⟨written, last, converses, -⟩ := held 1 transcript ended
  obtain ⟨-, -, broken⟩ := ends _ _ _ _ converses
  obtain ⟨earlier, line, first, -, left⟩ := broken exit
  exact ⟨transcript, written, last, earlier, line, ended, shown, first, left⟩

end FormLang.Console
