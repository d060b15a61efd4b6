import FormLang.Console.Dialogue
import FormLang.Proofs.Console.InputLines
import FormLang.Proofs.Kernel.Working

/-!
Contract: conversations, dialogues in which the worker takes its steps at any time.

A user's line is one exchange with the kernel: what the client does for the line, the steps
that the worker makes while the client waits, and what is written. Between the exchanges the
worker goes on as it likes, before and after each prompt.

Owns: what is written for a line, the exchanges and the conversations, and that the dialogue
without interrupts, whose worker only works while the client waits, is one of them.
-/

set_option autoImplicit false

namespace FormLang.Console

/-- What is written for a line behind its prompt. -/
structure Written where
  output : String
  errors : String
deriving DecidableEq, Repr

namespace Written

def silent : Written := ⟨"", ""⟩

/-- The kernel has no worker that could answer. -/
def refused : Written := ⟨"", errorLine notRunning⟩

def ofAnswer : Answer → Written
  | .value expression => ⟨expression.text ++ "\n", ""⟩
  | .failure message => ⟨"", errorLine message⟩

end Written

/-- All that is written, with a prompt for every line and one more at the end of the input. -/
def shown (written : List Written) (exit : Exit) : String × String × Exit :=
  (String.join (written.map fun each => prompt ++ each.output) ++
      (if exit = .endOfInput then prompt else ""),
    String.join (written.map Written.errors), exit)

theorem shown_cons (written : Written) (others : List Written) (exit : Exit) :
    shown (written :: others) exit =
      (prompt ++ written.output ++ (shown others exit).1,
        written.errors ++ (shown others exit).2.1, exit) := by
  simp only [shown, List.map_cons, String.join_cons, String.append_assoc]

def Transcript.shown (transcript : Transcript) : String × String × Exit :=
  (transcript.output, transcript.errors, transcript.exit)

theorem cleared_deliverMany : Interrupts.cleared.deliverMany 0 = .cleared := rfl

theorem cleared_exitRequested : Interrupts.cleared.exitRequested = false := by
  decide

/-! ## Exchanges and conversations -/

/-- What a line other than `%exit` leads to, if the worker works as it likes. -/
inductive Exchange (line : String) : Kernel → Written → Kernel → Prop where
  | nothing {kernel : Kernel} (request : Request.ofLine line = .nothing) :
      Exchange line kernel .silent kernel
  | start {kernel : Kernel} (request : Request.ofLine line = .start) :
      Exchange line kernel .silent kernel.start
  | stop {kernel stopped : Kernel} (request : Request.ofLine line = .stop)
      (works : kernel.requestStop.WorksOn stopped) (left : stopped.worker = none) :
      Exchange line kernel .silent stopped
  | reset {kernel stopped : Kernel} (request : Request.ofLine line = .reset)
      (works : kernel.requestStop.WorksOn stopped) (left : stopped.worker = none) :
      Exchange line kernel .silent stopped.start
  | refused {kernel : Kernel} (request : Request.ofLine line = .program)
      (stopped : kernel.isActive = false) : Exchange line kernel .refused kernel
  | answered {kernel waited left : Kernel} {answer : Answer}
      (request : Request.ofLine line = .program) (running : kernel.isActive = true)
      (works : (kernel.submit line).WorksOn waited)
      (taken : waited.receive? = some (answer, left)) : Exchange line kernel (.ofAnswer answer) left
  /-- The worker has left, and there was no answer before. -/
  | abandoned {kernel waited gone : Kernel} (request : Request.ofLine line = .program)
      (running : kernel.isActive = true) (works : (kernel.submit line).WorksOn waited)
      (nothing : waited.receive? = none) (leaves : waited.WorksOn gone)
      (left : gone.isActive = false) : Exchange line kernel .refused gone

/-- A conversation over lines, with the kernels at its prompts. -/
inductive Converses : Kernel → List String → List Kernel → List Written → Exit → Prop where
  | ended {kernel prompted : Kernel} (before : kernel.WorksOn prompted) :
      Converses kernel [] [prompted] [] .endOfInput
  | exited {kernel prompted : Kernel} {line : String} (before : kernel.WorksOn prompted)
      (request : Request.ofLine line = .exit) (rest : List String) :
      Converses kernel (line :: rest) [prompted] [.silent] .exitCommand
  | exchanged {kernel prompted ready next : Kernel} {line : String} {rest : List String}
      {written : Written} {prompts : List Kernel} {others : List Written} {exit : Exit}
      (before : kernel.WorksOn prompted) (after : prompted.WorksOn ready)
      (exchange : Exchange line ready written next)
      (following : Converses next rest prompts others exit) :
      Converses kernel (line :: rest) (prompted :: prompts) (written :: others) exit

variable {kernel next : Kernel} {line : String} {lines : List String} {written : Written}

/-- The worker may have worked before a conversation. -/
theorem Converses.behind {prompts : List Kernel} {others : List Written} {exit : Exit}
    (works : kernel.WorksOn next) (converses : Converses next lines prompts others exit) :
    Converses kernel lines prompts others exit := by
  cases converses with
  | ended before => exact .ended (works.trans before)
  | exited before request rest => exact .exited (works.trans before) request rest
  | exchanged before after exchange following =>
      exact .exchanged (works.trans before) after exchange following

/-- An exchange leaves a worker only where it may go on. -/
theorem Exchange.flagged (exchange : Exchange line kernel written next)
    (flagged : kernel.Flagged) : next.Flagged := by
  cases exchange with
  | nothing _ => exact flagged
  | start _ => exact fun _ => (Kernel.start_active flagged).2
  | stop _ _ left => exact fun there => absurd there (Kernel.not_isActive_of_worker left)
  | reset _ _ left =>
      exact fun _ =>
        (Kernel.start_active fun there => absurd there (Kernel.not_isActive_of_worker left)).2
  | refused _ _ => exact flagged
  | answered _ _ works taken =>
      obtain ⟨_, -, same⟩ := Option.map_eq_some_iff.mp taken
      cases same
      exact (works.flagged flagged).1
  | abandoned _ _ _ _ _ left => exact fun there => by rw [left] at there; cases there

/-! ## The dialogue -/

section Dialogue

variable {budget : Nat} {turn : Turn} {transcript : Transcript}

/-- Writing an answer that waits is the end of an exchange. -/
theorem writeAnswer_exchange {waited : Kernel} (request : Request.ofLine line = .program)
    (running : kernel.isActive = true) (works : (kernel.submit line).WorksOn waited)
    (posted : waited.output.waiting ≠ []) (interrupts : Interrupts) :
    (writeAnswer waited interrupts).exit = none ∧
      Exchange line kernel
        ⟨(writeAnswer waited interrupts).output, (writeAnswer waited interrupts).errors⟩
        (writeAnswer waited interrupts).kernel := by
  obtain ⟨answer, others, waits⟩ := List.exists_cons_of_ne_nil posted
  have taken : waited.receive? = some (answer, { waited with output := ⟨others⟩ }) := by
    rw [Kernel.receive?, Mailbox.take?, waits]
    rfl
  have exchange := Exchange.answered request running works taken
  rw [writeAnswer, taken]
  cases answer <;> exact ⟨rfl, exchange⟩

/-- A turn ends the dialogue at the command, and is an exchange otherwise. -/
theorem takeTurn_exchange (flagged : kernel.Flagged)
    (taken : takeTurn budget kernel (.quiet line) = some turn) :
    (Request.ofLine line = .exit ∧ turn = .silent kernel .cleared (some .exitCommand)) ∨
      turn.exit = none ∧ ∃ middle, Exchange line kernel ⟨turn.output, turn.errors⟩ middle ∧
        middle.WorksOn turn.kernel := by
  simp only [takeTurn, Line.quiet, cleared_deliverMany] at taken
  cases request : Request.ofLine line with
  | nothing =>
      rw [request] at taken
      cases taken
      exact .inr ⟨rfl, kernel, .nothing request, .refl kernel⟩
  | start =>
      rw [request] at taken
      obtain ⟨settled, works, rfl⟩ := Option.map_eq_some_iff.mp taken
      exact .inr ⟨rfl, kernel.start, .start request, Kernel.advanceBy_worksOn works⟩
  | stop =>
      rw [request] at taken
      obtain ⟨stopped, works, rfl⟩ := Option.map_eq_some_iff.mp taken
      exact .inr ⟨rfl, stopped,
        .stop request (Kernel.advanceBy_worksOn works) (Kernel.worker_stop works), .refl stopped⟩
  | reset =>
      rw [request] at taken
      obtain ⟨fresh, restarted, settles⟩ := Option.bind_eq_some_iff.mp taken
      obtain ⟨settled, works, same⟩ := Option.bind_eq_some_iff.mp settles
      cases same
      obtain ⟨stopped, stops, rfl⟩ := Option.map_eq_some_iff.mp restarted
      exact .inr ⟨rfl, stopped.start,
        .reset request (Kernel.advanceBy_worksOn stops) (Kernel.worker_stop stops),
        Kernel.advanceBy_worksOn works⟩
  | exit =>
      rw [request] at taken
      cases taken
      exact .inl ⟨rfl, rfl⟩
  | program =>
      rw [request] at taken
      simp only [submitProgram] at taken
      split at taken
      · next running =>
          obtain ⟨settled, works, rfl⟩ := Option.map_eq_some_iff.mp taken
          have posted := Kernel.settle_posts flagged running works
          rw [cleared_exitRequested]
          obtain ⟨goesOn, exchange⟩ := writeAnswer_exchange request running
            (Kernel.advanceBy_worksOn works) posted .cleared
          exact .inr ⟨goesOn, _, exchange, .refl _⟩
      · next stopped =>
          cases taken
          exact .inr ⟨rfl, kernel, .refused request (Bool.eq_false_iff.mpr stopped), .refl kernel⟩

/-- The dialogue is a conversation. -/
theorem dialogue_converses (flagged : kernel.Flagged)
    (held : dialogue budget kernel (lines.map .quiet) = some transcript) :
    ∃ prompts others, Converses kernel lines prompts others transcript.exit ∧
      transcript.shown = shown others transcript.exit := by
  induction lines generalizing kernel transcript with
  | nil =>
      cases held
      exact ⟨[kernel], [], .ended (.refl kernel), rfl⟩
  | cons line rest inductionHypothesis =>
      obtain ⟨turn, taken, following⟩ := Option.bind_eq_some_iff.mp held
      rcases takeTurn_exchange flagged taken with
        ⟨request, rfl⟩ | ⟨goesOn, middle, exchange, works⟩
      · cases following
        exact ⟨[kernel], [.silent], .exited (.refl kernel) request rest, rfl⟩
      · rw [goesOn] at following
        obtain ⟨later, rests, whole⟩ := Option.bind_eq_some_iff.mp following
        cases whole
        have flaggedNext := (works.flagged (exchange.flagged flagged)).1
        obtain ⟨prompts, others, converses, same⟩ := inductionHypothesis flaggedNext rests
        refine ⟨kernel :: prompts, ⟨turn.output, turn.errors⟩ :: others,
          .exchanged (.refl kernel) (.refl kernel) exchange (converses.behind works), ?_⟩
        rw [shown_cons, ← same]
        rfl

end Dialogue

end FormLang.Console
