import FormLang.Proofs.Console.Conversation
import FormLang.Proofs.Evaluation.Agreement
import FormLang.Proofs.Kernel.Settling

/-!
Contract: the loop that the dialogue comes to.

A loop over the lines that runs every program in the session it holds writes what the dialogue
writes. Where programs were submitted before, their answers are written first, so that the loop
writes each answer later by as many lines.

Owns: the two loops, and that the dialogue is one of them, also in that it has no end.
-/

set_option autoImplicit false

namespace FormLang.Console

open Kernel (working resting)

/-- The session that goes on behind a command, where a new one is `ready`. -/
def Request.serving (ready : Session) (serving : Option Session) : Request → Option Session
  | .start => serving.or (some ready)
  | .stop => none
  | .reset => some ready
  | _ => serving

/-- What is written for a line, in front of what is written for the others. -/
def andThen (written : Written) (following : Option (List Written × Exit)) :
    Option (List Written × Exit) :=
  following.map fun (others, exit) => (written :: others, exit)

/-- The loop that runs every program directly in the session that serves. -/
def directly (budget : Nat) (ready : Session) (serving : Option Session) :
    List String → Option (List Written × Exit)
  | [] => some ([], .endOfInput)
  | line :: rest =>
      match Request.ofLine line with
      | .exit => some ([.silent], .exitCommand)
      | .program =>
          match serving with
          | none => andThen .refused (directly budget ready none rest)
          | some session =>
              (session.run budget line).bind fun (outcome, left) =>
                andThen (.ofAnswer (.ofOutcome outcome)) (directly budget ready (some left) rest)
      | request => andThen .silent (directly budget ready (request.serving ready serving) rest)

/-- What the loop holds if programs were submitted before it: the session that serves, the
programs that a new session is to run first, and the answers that are to be written first. -/
structure Standing where
  serving : Option Session
  unread : List String
  held : List Answer

/-- The session that serves runs what is to be run first. -/
def Standing.catchUp (budget : Nat) (standing : Standing) : Option Standing :=
  match standing.serving with
  | none => some standing
  | some session =>
      (session.respondEach budget standing.unread).map fun (answers, left) =>
        ⟨some left, [], standing.held ++ answers⟩

/-- What a line other than `%exit` does in the loop. -/
def Standing.next (budget : Nat) (ready : Session) (standing : Standing) (line : String) :
    Option (Written × Standing) :=
  match Request.ofLine line, standing.serving with
  | .program, none => some (.refused, standing)
  | .program, some session =>
      (session.respond budget line).map fun (answer, left) =>
        (.ofAnswer (standing.held.headD answer),
          { standing with serving := some left, held := (standing.held ++ [answer]).tail })
  | request, serving =>
      ({ standing with serving := request.serving ready serving }.catchUp budget).map fun standing =>
        (.silent, standing)

/-- The loop that writes the answers that it holds first. -/
def lagging (budget : Nat) (ready : Session) (standing : Standing) :
    List String → Option (List Written × Exit)
  | [] => some ([], .endOfInput)
  | line :: rest =>
      if Request.ofLine line = .exit then some ([.silent], .exitCommand)
      else (standing.next budget ready line).bind fun (written, standing) =>
        andThen written (lagging budget ready standing rest)

variable {budget : Nat} {startup : Option String} {ready : Session} {serving : Option Session}
variable {line : String} {unread : List String} {held : List Answer}

/-- What is written for a line comes in front of all that is written for the others. -/
theorem shown_andThen (written : Written) (following : Option (List Written × Exit)) :
    ((andThen written following).map fun (others, exit) => shown others exit) =
      (following.map fun (others, exit) => shown others exit).map
        fun (output, errors, exit) =>
          (prompt ++ written.output ++ output, written.errors ++ errors, exit) := by
  cases following with
  | none => rfl
  | some ending => exact congrArg some (shown_cons written ending.1 ending.2)

/-! ## Line by line -/

section Lines

variable (rest : List String)

theorem directly_exit (request : Request.ofLine line = .exit) :
    directly budget ready serving (line :: rest) = some ([.silent], .exitCommand) := by
  unfold directly
  rw [request]

theorem directly_refused (request : Request.ofLine line = .program) :
    directly budget ready none (line :: rest) =
      andThen .refused (directly budget ready none rest) := by
  rw [directly, request]

theorem directly_program (request : Request.ofLine line = .program) (session : Session) :
    directly budget ready (some session) (line :: rest) =
      (session.run budget line).bind fun (outcome, left) =>
        andThen (.ofAnswer (.ofOutcome outcome)) (directly budget ready (some left) rest) := by
  rw [directly, request]

theorem directly_command (noExit : Request.ofLine line ≠ .exit)
    (noProgram : Request.ofLine line ≠ .program) :
    directly budget ready serving (line :: rest) =
      andThen .silent
        (directly budget ready ((Request.ofLine line).serving ready serving) rest) := by
  rw [directly.eq_def]
  dsimp only
  cases request : Request.ofLine line with
  | exit => exact absurd request noExit
  | program => exact absurd request noProgram
  | _ => rfl

theorem next_refused (request : Request.ofLine line = .program) :
    Standing.next budget ready ⟨none, unread, held⟩ line =
      some (.refused, ⟨none, unread, held⟩) := by
  rw [Standing.next, request]

theorem next_program (request : Request.ofLine line = .program) (session : Session) :
    Standing.next budget ready ⟨some session, unread, held⟩ line =
      (session.respond budget line).map fun (answer, left) =>
        (.ofAnswer (held.headD answer), ⟨some left, unread, (held ++ [answer]).tail⟩) := by
  rw [Standing.next, request]

theorem next_command (noProgram : Request.ofLine line ≠ .program) (standing : Standing) :
    standing.next budget ready line =
      (Standing.catchUp budget { standing with
        serving := (Request.ofLine line).serving ready standing.serving }).map
          fun standing => (.silent, standing) := by
  rw [Standing.next]
  cases request : Request.ofLine line with
  | program => exact absurd request noProgram
  | _ => rfl

end Lines

/-- With nothing to run first there is nothing to catch up with. -/
theorem catchUp_nothing (serving : Option Session) (held : List Answer) :
    Standing.catchUp budget ⟨serving, [], held⟩ = some ⟨serving, [], held⟩ := by
  cases serving with
  | none => rfl
  | some session =>
      exact congrArg (fun answers => some (Standing.mk (some session) [] answers))
        (List.append_nil held)

/-- With nothing to run and no answers to write first, there is no lag. -/
theorem lagging_eq_directly (lines : List String) :
    lagging budget ready ⟨serving, [], []⟩ lines = directly budget ready serving lines := by
  induction lines generalizing serving with
  | nil => rfl
  | cons line rest inductionHypothesis =>
      rw [lagging]
      by_cases exits : Request.ofLine line = .exit
      · rw [if_pos exits, directly_exit rest exits]
      · rw [if_neg exits]
        by_cases request : Request.ofLine line = .program
        · cases serving with
          | none =>
              rw [next_refused request, directly_refused rest request, Option.bind_some]
              exact congrArg (andThen _) inductionHypothesis
          | some session =>
              rw [next_program request, directly_program rest request, Session.respond]
              cases session.run budget line with
              | none => rfl
              | some ending => exact congrArg (andThen _) inductionHypothesis
        · rw [next_command request, directly_command rest exits request]
          dsimp only
          rw [catchUp_nothing, Option.map_some, Option.bind_some]
          exact congrArg (andThen _) inductionHypothesis

/-! ## The dialogue -/

/-- A kernel between two lines of the dialogue, where the worker has nothing to do. -/
inductive Settled (startup : Option String) : Standing → Kernel → Prop where
  | stopped (unread : List String) (held : List Answer) (active : Bool) :
      Settled startup ⟨none, unread, held⟩ (resting startup unread held active)
  | running {stage : Stage} (rests : stage.Rests) (session : Session) (held : List Answer) :
      Settled startup ⟨some session, [], held⟩ (working startup [] held session stage)

/-- Settling a kernel with a new worker, where the startup program ends. -/
theorem settle_new (isReady : Session.prepared budget startup = some ready)
    (unread : List String) (held : List Answer) (unused : Session) :
    Option.Rel (fun kernel standing => Settled startup standing kernel)
      ((working startup unread held unused .preparing).settle budget)
      (Standing.catchUp budget ⟨some ready, unread, held⟩) := by
  rw [Kernel.settle_preparing, isReady, Option.bind_some, Standing.catchUp]
  dsimp only
  cases ready.respondEach budget unread with
  | none => exact .none
  | some ending => exact .some (.running .fetching _ _)

/-- The answer that is written is the first one that waits. -/
theorem writeAnswer_first (waiting : List String) (answer : Answer) (session : Session)
    (stage : Stage) (interrupts : Interrupts) :
    ∃ kernel, kernel = working startup waiting (held ++ [answer]).tail session stage ∧
      writeAnswer (working startup waiting (held ++ [answer]) session stage) interrupts =
        ⟨kernel, interrupts, (Written.ofAnswer (held.headD answer)).output,
          (Written.ofAnswer (held.headD answer)).errors, none⟩ := by
  refine ⟨_, rfl, ?_⟩
  cases held with
  | nil => cases answer <;> rfl
  | cons first others => cases first <;> rfl

/-- A turn and a step of the loop write the same and leave the same. -/
def SameStep (startup : Option String) (turn : Turn) (step : Written × Standing) : Prop :=
  turn.exit = none ∧ ⟨turn.output, turn.errors⟩ = step.1 ∧ Settled startup step.2 turn.kernel

/-- A command after which a new worker runs the startup program and what waits. -/
theorem renewed_sameStep (isReady : Session.prepared budget startup = some ready)
    (unread : List String) (held : List Answer) :
    Option.Rel (SameStep startup)
      (((working startup unread held .fresh .preparing).settle budget).map fun settled =>
        Turn.silent settled .cleared none)
      ((Standing.catchUp budget ⟨some ready, unread, held⟩).map fun standing =>
        (.silent, standing)) := by
  have settles := settle_new isReady unread held .fresh
  generalize (working startup unread held .fresh .preparing).settle budget = kernel at settles ⊢
  generalize Standing.catchUp budget ⟨some ready, unread, held⟩ = standing at settles ⊢
  cases settles with
  | none => exact .none
  | some settled => exact .some ⟨rfl, rfl, settled⟩

/-- A program that is answered by the worker. -/
theorem answered_sameStep {stage : Stage} (rests : stage.Rests) (session : Session)
    (held : List Answer) (line : String) :
    Option.Rel (SameStep startup)
      (submitProgram budget (working startup [] held session stage) .cleared line)
      ((session.respond budget line).map fun (answer, left) =>
        (.ofAnswer (held.headD answer), ⟨some left, [], (held ++ [answer]).tail⟩)) := by
  have submitted : (working startup [] held session stage).submit line =
      working startup [line] held session stage := rfl
  have running : (working startup [] held session stage).isActive = true := rfl
  rw [submitProgram, if_pos running, submitted, Kernel.settle_working rests,
    cleared_exitRequested, Session.respondEach]
  cases session.respond budget line with
  | none => exact .none
  | some ending =>
      obtain ⟨answer, left⟩ := ending
      obtain ⟨kernel, rfl, wrote⟩ := writeAnswer_first [] answer left stage .cleared
      refine .some ?_
      change SameStep startup (writeAnswer _ .cleared) _
      rw [wrote]
      exact ⟨rfl, rfl, .running rests _ _⟩

/-- A command after which the worker has nothing to do. -/
theorem quiet_sameStep {standing : Standing} {kernel : Kernel}
    (settled : Settled startup standing kernel) :
    Option.Rel (SameStep startup) (some (.silent kernel .cleared none))
      ((standing.catchUp budget).map fun standing => (.silent, standing)) := by
  have nothing : standing.catchUp budget = some standing := by
    cases settled with
    | stopped unread held active => rfl
    | running rests session held => exact catchUp_nothing _ held
  rw [nothing]
  exact .some ⟨rfl, rfl, settled⟩

/-- A turn is a step of the loop. -/
theorem takeTurn_next (isReady : Session.prepared budget startup = some ready)
    {standing : Standing} {kernel : Kernel} (settled : Settled startup standing kernel)
    (noExit : Request.ofLine line ≠ .exit) :
    Option.Rel (SameStep startup) (takeTurn budget kernel (.quiet line))
      (standing.next budget ready line) := by
  simp only [takeTurn, Line.quiet, cleared_deliverMany]
  cases request : Request.ofLine line with
  | exit => exact absurd request noExit
  | program =>
      cases settled with
      | stopped unread held active =>
          rw [next_refused request]
          exact .some ⟨rfl, rfl, .stopped unread held active⟩
      | running rests session held =>
          rw [next_program request]
          exact answered_sameStep rests session held line
  | nothing =>
      rw [next_command (by rw [request]; decide), request]
      exact quiet_sameStep settled
  | start =>
      rw [next_command (by rw [request]; decide), request]
      cases settled with
      | stopped unread held active => exact renewed_sameStep isReady unread held
      | running rests session held =>
          have idle : (working startup [] held session _).settle budget = some _ :=
            Kernel.advanceBy_idle rests
          rw [Kernel.start_working, idle]
          exact quiet_sameStep (.running rests session held)
  | stop =>
      have stops : kernel.stop budget = some (resting startup standing.unread standing.held false) := by
        cases settled with
        | stopped unread held active => exact Kernel.stop_resting active
        | running rests session held => exact Kernel.stop_working rests
      rw [next_command (by rw [request]; decide), request, stops]
      exact quiet_sameStep (.stopped _ _ false)
  | reset =>
      have again : kernel.reset budget =
          some (working startup standing.unread standing.held .fresh .preparing) := by
        cases settled with
        | stopped unread held active =>
            rw [Kernel.reset, Kernel.stop_resting, Option.map_some, Kernel.start_resting]
        | running rests session held =>
            rw [Kernel.reset, Kernel.stop_working rests, Option.map_some, Kernel.start_resting]
      rw [next_command (by rw [request]; decide), request, again]
      have renewed := renewed_sameStep isReady standing.unread standing.held
      rw [Option.map_eq_bind] at renewed
      exact renewed

/-- The dialogue writes what the lagging loop writes, and has no end where the loop has none. -/
theorem dialogue_eq_lagging (isReady : Session.prepared budget startup = some ready)
    {standing : Standing} {kernel : Kernel} (lines : List String)
    (settled : Settled startup standing kernel) :
    (dialogue budget kernel (lines.map .quiet)).map Transcript.shown =
      (lagging budget ready standing lines).map fun (others, exit) => shown others exit := by
  -- A turn and a step of the loop are related as options, so both end or neither does.
  induction lines generalizing standing kernel with
  | nil => rfl
  | cons line rest inductionHypothesis =>
      rw [List.map_cons, dialogue, lagging]
      by_cases exits : Request.ofLine line = .exit
      · rw [if_pos exits, takeTurn, Line.quiet]
        simp only [exits]
        rfl
      · rw [if_neg exits]
        have turns := takeTurn_next isReady settled exits
        generalize takeTurn budget kernel (.quiet line) = taken at turns ⊢
        generalize standing.next budget ready line = next at turns ⊢
        cases turns with
        | none => rfl
        | @some turn step related =>
            obtain ⟨goesOn, same, settledNext⟩ := related
            obtain ⟨written, standing⟩ := step
            dsimp only at same
            rw [Option.bind_some, shown_andThen, ← inductionHypothesis settledNext, ← same]
            simp only [Option.bind_eq_bind, Option.bind_some, goesOn]
            cases dialogue budget turn.kernel (rest.map .quiet) <;> rfl

end FormLang.Console
