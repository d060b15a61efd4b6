import FormLang.Proofs.Console.DueAnswers

/-!
Contract: conversations that a user may interrupt.

The count of the interrupts is cleared at each prompt, and whatever comes while the line is read
is added to it. Only the wait for an answer looks at the count, each time before it looks into
the output mailbox. The worker goes on as it likes all the while.

Owns: the count of interrupts that come one by one, the wait, what reading a line leads to, the
conversations with interrupts, and that the dialogue is one of them.
-/

set_option autoImplicit false

namespace FormLang.Console

/-! ## The count -/

namespace Interrupts

/-- Interrupts that come one after the other. -/
def deliverEach (interrupts : Interrupts) : Nat → Interrupts
  | 0 => interrupts
  | number + 1 => interrupts.deliver.2.deliverEach number

/-- They come to what they come to together. -/
theorem deliverEach_eq (interrupts : Interrupts) (number : Nat) :
    interrupts.deliverEach number = interrupts.deliverMany number := by
  induction number generalizing interrupts with
  | zero => exact congrArg Interrupts.mk (UInt64.add_zero _).symm
  | succ number inductionHypothesis =>
      rw [deliverEach, inductionHypothesis]
      refine congrArg Interrupts.mk (UInt64.toNat_inj.mp ?_)
      simp only [deliver, UInt64.toNat_add, UInt64.toNat_ofNat', UInt64.toNat_one]
      omega

/-- As long as the count does not overflow, two interrupts or more ask for the end. -/
theorem exitRequested_iff {number : Nat} (few : number < 2 ^ 64) :
    (cleared.deliverEach number).exitRequested = true ↔ 2 ≤ number := by
  rw [deliverEach_eq, exitRequested, decide_eq_true_iff, deliverMany, UInt64.le_iff_toNat_le]
  simp only [cleared, UInt64.toNat_add, UInt64.toNat_ofNat', UInt64.toNat_zero]
  show 2 ≤ _ ↔ _
  omega

end Interrupts

/-! ## Conversations with interrupts -/

/-- A wait for an answer, and what is written for it: nothing if the end is asked for. That is
looked at first, each time before the client looks into the output mailbox, and then whether the
worker is still there. -/
inductive Waits (interrupts : Interrupts) : Kernel → Option Written → Kernel → Prop where
  | interrupted {kernel : Kernel} (requested : interrupts.exitRequested = true) :
      Waits interrupts kernel none kernel
  | received {kernel waited left : Kernel} {answer : Answer}
      (goesOn : interrupts.exitRequested = false) (works : kernel.WorksOn waited)
      (taken : waited.receive? = some (answer, left)) :
      Waits interrupts kernel (some (.ofAnswer answer)) left
  | abandoned {kernel waited gone : Kernel} (goesOn : interrupts.exitRequested = false)
      (works : kernel.WorksOn waited) (nothing : waited.receive? = none)
      (leaves : waited.WorksOn gone) (left : gone.isActive = false) :
      Waits interrupts kernel (some .refused) gone
  | again {kernel waited there left : Kernel} {written : Option Written}
      (goesOn : interrupts.exitRequested = false) (works : kernel.WorksOn waited)
      (nothing : waited.receive? = none) (stays : waited.WorksOn there)
      (running : there.isActive = true) (following : Waits interrupts there written left) :
      Waits interrupts kernel written left

/-- What reading a line leads to, where these interrupts have come: what is written, and the end
if it is the end. -/
inductive Reads (line : String) (interrupts : Interrupts) :
    Kernel → Written → Option Exit → Kernel → Prop where
  | exited {kernel : Kernel} (request : Request.ofLine line = .exit) :
      Reads line interrupts kernel .silent (some .exitCommand) kernel
  | command {kernel next : Kernel} {written : Written} (noProgram : Request.ofLine line ≠ .program)
      (exchange : Exchange line kernel written next) : Reads line interrupts kernel written none next
  | refused {kernel : Kernel} (request : Request.ofLine line = .program)
      (stopped : kernel.isActive = false) : Reads line interrupts kernel .refused none kernel
  | answered {kernel left : Kernel} {written : Written} (request : Request.ofLine line = .program)
      (running : kernel.isActive = true)
      (waits : Waits interrupts (kernel.submit line) (some written) left) :
      Reads line interrupts kernel written none left
  | interrupted {kernel left : Kernel} (request : Request.ofLine line = .program)
      (running : kernel.isActive = true) (waits : Waits interrupts (kernel.submit line) none left) :
      Reads line interrupts kernel .silent (some .interrupted) left

/-- A line of text with the number of interrupts that come while it is read. -/
abbrev TimedLine := String × Nat

/-- A conversation over lines, from a kernel and the interrupts that have come so far to those
that are left. -/
inductive Interruptible : Kernel → Interrupts → List TimedLine → List Written → Exit →
    Kernel → Interrupts → Prop where
  | ended {kernel prompted : Kernel} {interrupts : Interrupts} (works : kernel.WorksOn prompted) :
      Interruptible kernel interrupts [] [] .endOfInput prompted .cleared
  | left {kernel ready last : Kernel} {interrupts : Interrupts} {line : TimedLine}
      {written : Written} {exit : Exit} (works : kernel.WorksOn ready)
      (reads : Reads line.1 (.deliverEach .cleared line.2) ready written (some exit) last)
      (rest : List TimedLine) :
      Interruptible kernel interrupts (line :: rest) [written] exit last
        (.deliverEach .cleared line.2)
  | continued {kernel ready next last : Kernel} {interrupts final : Interrupts} {line : TimedLine}
      {rest : List TimedLine} {written : Written} {others : List Written} {exit : Exit}
      (works : kernel.WorksOn ready)
      (reads : Reads line.1 (.deliverEach .cleared line.2) ready written none next)
      (following : Interruptible next (.deliverEach .cleared line.2) rest others exit last final) :
      Interruptible kernel interrupts (line :: rest) (written :: others) exit last final

variable {kernel next left : Kernel} {interrupts final : Interrupts} {line : String}
variable {written : Written} {exit : Exit}

/-! ## Waiting and reading -/

/-- A wait is given up where the end is asked for, before the worker does anything, and nowhere
else. -/
theorem Waits.none_iff :
    Waits interrupts kernel none left ↔ interrupts.exitRequested = true ∧ left = kernel := by
  constructor
  · intro waits
    generalize outcome : (none : Option Written) = written at waits
    induction waits with
    | interrupted requested => exact ⟨requested, rfl⟩
    | received _ _ _ => cases outcome
    | abandoned _ _ _ _ _ => cases outcome
    | again goesOn _ _ _ _ _ inductionHypothesis =>
        rw [(inductionHypothesis outcome).1] at goesOn
        cases goesOn
  · rintro ⟨requested, rfl⟩
    exact .interrupted requested

/-- However often the client looks, it is as if it had looked once, late enough. -/
theorem Waits.exchange {submitted : Kernel} (request : Request.ofLine line = .program)
    (running : kernel.isActive = true) (works : (kernel.submit line).WorksOn submitted)
    (waits : Waits interrupts submitted (some written) left) :
    interrupts.exitRequested = false ∧ Exchange line kernel written left := by
  generalize outcome : some written = answer at waits
  induction waits with
  | interrupted _ => cases outcome
  | received goesOn waited taken =>
      cases outcome
      exact ⟨goesOn, .answered request running (works.trans waited) taken⟩
  | abandoned goesOn waited nothing leaves left =>
      cases outcome
      exact ⟨goesOn, .abandoned request running (works.trans waited) nothing leaves left⟩
  | again goesOn waited nothing stays there _ inductionHypothesis =>
      exact inductionHypothesis ((works.trans waited).trans stays) outcome

/-- The line is a program for a worker, and the end is asked for. -/
def Breaks (line : String) (interrupts : Interrupts) (kernel : Kernel) : Prop :=
  Request.ofLine line = .program ∧ kernel.isActive = true ∧ interrupts.exitRequested = true

/-- Where a line does not end the conversation, it is exchanged as without interrupts. -/
theorem reads_none_iff :
    Reads line interrupts kernel written none next ↔
      Exchange line kernel written next ∧ ¬ Breaks line interrupts kernel := by
  constructor
  · intro reads
    cases reads with
    | command noProgram exchange => exact ⟨exchange, fun breaks => noProgram breaks.1⟩
    | refused request stopped =>
        refine ⟨.refused request stopped, fun breaks => ?_⟩
        rw [breaks.2.1] at stopped
        cases stopped
    | answered request running waits =>
        obtain ⟨goesOn, exchange⟩ := waits.exchange request running (.refl _)
        refine ⟨exchange, fun breaks => ?_⟩
        rw [breaks.2.2] at goesOn
        cases goesOn
  · rintro ⟨exchange, goesOn⟩
    by_cases request : Request.ofLine line = .program
    · have quiet (running : kernel.isActive = true) : interrupts.exitRequested = false :=
        Bool.eq_false_iff.mpr fun requested => goesOn ⟨request, running, requested⟩
      cases exchange with
      | refused _ stopped => exact .refused request stopped
      | answered _ running works taken =>
          exact .answered request running (.received (quiet running) works taken)
      | abandoned _ running works nothing leaves left =>
          exact .answered request running (.abandoned (quiet running) works nothing leaves left)
      | nothing other => cases request.symm.trans other
      | start other => cases request.symm.trans other
      | stop other _ _ => cases request.symm.trans other
      | reset other _ _ => cases request.symm.trans other
    · exact .command request exchange

/-- A line ends the conversation if it is the command to exit, or if it is submitted and the end
is asked for. The worker need do nothing for that. -/
theorem reads_some_iff :
    Reads line interrupts kernel written (some exit) next ↔ written = .silent ∧
      (Request.ofLine line = .exit ∧ exit = .exitCommand ∧ next = kernel ∨
        Breaks line interrupts kernel ∧ exit = .interrupted ∧ next = kernel.submit line) := by
  constructor
  · intro reads
    cases reads with
    | exited request => exact ⟨rfl, .inl ⟨request, rfl, rfl⟩⟩
    | interrupted request running waits =>
        obtain ⟨requested, same⟩ := Waits.none_iff.mp waits
        exact ⟨rfl, .inr ⟨⟨request, running, requested⟩, rfl, same⟩⟩
  · rintro ⟨rfl, ⟨request, rfl, rfl⟩ | ⟨⟨request, running, requested⟩, rfl, rfl⟩⟩
    · exact .exited request
    · exact .interrupted request running (.interrupted requested)

/-- The worker may have worked before a conversation. -/
theorem Interruptible.behind {middle last : Kernel} {lines : List TimedLine}
    {others : List Written} (works : kernel.WorksOn middle)
    (converses : Interruptible middle interrupts lines others exit last final) :
    Interruptible kernel interrupts lines others exit last final := by
  cases converses with
  | ended before => exact .ended (works.trans before)
  | left before reads rest => exact .left (works.trans before) reads rest
  | continued before reads following => exact .continued (works.trans before) reads following

/-! ## The dialogue -/

/-- A line of the dialogue. -/
def Line.timed (line : TimedLine) : Line :=
  ⟨some line.1, line.2⟩

section Dialogue

variable {budget number : Nat} {turn : Turn} {transcript : Transcript}

/-- What is written for the last line, if the input does not end behind it. -/
theorem shown_last (written : Written) (early : exit ≠ .endOfInput) :
    shown [written] exit = (prompt ++ written.output, written.errors, exit) := by
  have nothing : shown [] exit = ("", "", exit) := by
    rw [shown, if_neg early]
    rfl
  rw [shown_cons, nothing, String.append_empty, String.append_empty]

theorem writeAnswer_timed (kernel : Kernel) (interrupts : Interrupts) :
    writeAnswer kernel interrupts = { writeAnswer kernel .cleared with interrupts } := by
  unfold writeAnswer
  cases kernel.receive? with
  | none => rfl
  | some taken =>
      obtain ⟨answer, left⟩ := taken
      cases answer <;> rfl

/-- A turn that interrupts do not end is as without them, but for their count. -/
theorem takeTurn_timed (goesOn : ¬ Breaks line (.deliverEach .cleared number) kernel) :
    takeTurn budget kernel (.timed (line, number)) =
      (takeTurn budget kernel (.quiet line)).map fun turn =>
        { turn with interrupts := .deliverEach .cleared number } := by
  simp only [takeTurn, Line.timed, Line.quiet, ← Interrupts.deliverEach_eq, Interrupts.deliverEach]
  cases request : Request.ofLine line with
  | nothing => rfl
  | exit => rfl
  | start => cases kernel.start.settle budget <;> rfl
  | stop => cases kernel.stop budget <;> rfl
  | reset =>
      cases kernel.reset budget with
      | none => rfl
      | some fresh =>
          show (fresh.settle budget).bind _ = ((fresh.settle budget).bind _).map _
          cases fresh.settle budget <;> rfl
  | program =>
      simp only [submitProgram]
      by_cases running : kernel.isActive = true
      · have quiet : (Interrupts.cleared.deliverEach number).exitRequested = false :=
          Bool.eq_false_iff.mpr fun requested => goesOn ⟨request, running, requested⟩
        rw [if_pos running, if_pos running, quiet, cleared_exitRequested]
        cases (kernel.submit line).settle budget with
        | none => rfl
        | some settled => exact congrArg some (writeAnswer_timed settled _)
      · rw [if_neg running, if_neg running]
        rfl

/-- A turn that interrupts end leaves the program to the worker. -/
theorem takeTurn_breaks (breaks : Breaks line (.deliverEach .cleared number) kernel) :
    takeTurn budget kernel (.timed (line, number)) =
      ((kernel.submit line).settle budget).map fun settled =>
        .silent settled (.deliverEach .cleared number) (some .interrupted) := by
  obtain ⟨request, running, requested⟩ := breaks
  simp only [takeTurn, Line.timed, request, submitProgram, ← Interrupts.deliverEach_eq]
  rw [if_pos running, requested]
  rfl

/-- A turn is what reading the line leads to. Where interrupts end it, the worker goes on until
all is answered. -/
theorem takeTurn_reads (flagged : kernel.Flagged)
    (taken : takeTurn budget kernel (.timed (line, number)) = some turn) :
    turn.interrupts = .deliverEach .cleared number ∧ ∃ middle,
      Reads line (.deliverEach .cleared number) kernel ⟨turn.output, turn.errors⟩ turn.exit middle ∧
      middle.WorksOn turn.kernel ∧
      (turn.exit = some .interrupted → middle.settle budget = some turn.kernel) := by
  by_cases breaks : Breaks line (.deliverEach .cleared number) kernel
  · rw [takeTurn_breaks breaks] at taken
    obtain ⟨settled, settles, rfl⟩ := Option.map_eq_some_iff.mp taken
    exact ⟨rfl, kernel.submit line, reads_some_iff.mpr ⟨rfl, .inr ⟨breaks, rfl, rfl⟩⟩,
      Kernel.advanceBy_worksOn settles, fun _ => settles⟩
  · rw [takeTurn_timed breaks] at taken
    obtain ⟨quiet, quietly, rfl⟩ := Option.map_eq_some_iff.mp taken
    refine ⟨rfl, ?_⟩
    rcases takeTurn_exchange flagged quietly with ⟨request, rfl⟩ | ⟨goesOn, middle, exchange, works⟩
    · exact ⟨kernel, .exited request, .refl kernel, fun exits => by cases exits⟩
    · refine ⟨middle, ?_, works, fun exits => ?_⟩
      · rw [show _ = none from goesOn]
        exact reads_none_iff.mpr ⟨exchange, breaks⟩
      · cases goesOn.symm.trans exits

/-- The dialogue is a conversation, and where it is interrupted, the worker goes on until all is
answered. -/
theorem dialogue_interruptible {lines : List TimedLine} (flagged : kernel.Flagged)
    (interrupts : Interrupts) (held : dialogue budget kernel (lines.map .timed) = some transcript) :
    ∃ written last,
      Interruptible kernel interrupts lines written transcript.exit last transcript.interrupts ∧
      transcript.shown = shown written transcript.exit ∧ last.WorksOn transcript.kernel ∧
      (transcript.exit = .interrupted → last.settle budget = some transcript.kernel) := by
  induction lines generalizing kernel interrupts transcript with
  | nil =>
      cases held
      exact ⟨[], kernel, .ended (.refl kernel), rfl, .refl kernel, fun exits => by cases exits⟩
  | cons line rest inductionHypothesis =>
      obtain ⟨turn, taken, following⟩ := Option.bind_eq_some_iff.mp held
      obtain ⟨count, middle, reads, works, settles⟩ := takeTurn_reads flagged taken
      cases exits : turn.exit with
      | some exit =>
          rw [exits] at following reads settles
          cases following
          refine ⟨[⟨turn.output, turn.errors⟩], middle, ?_, ?_, works, ?_⟩
          · rw [count]
            exact .left (.refl kernel) reads rest
          · have early : exit ≠ .endOfInput := by
              rcases (reads_some_iff.mp reads).2 with ⟨-, rfl, -⟩ | ⟨-, rfl, -⟩ <;> decide
            exact (shown_last ⟨turn.output, turn.errors⟩ early).symm
          · rintro rfl
            exact settles rfl
      | none =>
          rw [exits] at following reads
          obtain ⟨later, rests, whole⟩ := Option.bind_eq_some_iff.mp following
          cases whole
          have flaggedNext := (works.flagged ((reads_none_iff.mp reads).1.flagged flagged)).1
          obtain ⟨others, last, converses, same, lastWorks, lastSettles⟩ :=
            inductionHypothesis flaggedNext (.deliverEach .cleared line.2) rests
          refine ⟨⟨turn.output, turn.errors⟩ :: others, last,
            .continued (.refl kernel) reads (converses.behind works), ?_, lastWorks, lastSettles⟩
          rw [shown_cons, ← same]
          rfl

end Dialogue

end FormLang.Console
