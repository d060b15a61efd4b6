import FormLang.Proofs.Evaluation.Endings
import FormLang.Proofs.Evaluation.Failures
import FormLang.Proofs.Sessions

/-!
Contract: the program that a session has at any time.

A session is asked to read a program from a text or from a stream, to evaluate what it has read,
to do both, or to start over. Whatever it was asked before, the program that it has is that of the
last attempt to read one since it started over, and it has none where that attempt failed.

Owns: the requests of a session, its histories, the last reading of a history, and the theorem
that every history leaves the program of its last reading.
-/

set_option autoImplicit false

namespace FormLang

/-! ## Requests and responses -/

/-- A stream of bytes. It is read as a whole, unless it breaks. -/
inductive ProgramStream where
  | ending (bytes : ByteArray)
  | breaking (reason : String)

def ProgramStream.source : ProgramStream → SourceText
  | .ending bytes => .ofBytes bytes
  | .breaking reason => .unreadable reason

/-- The program in a source of text, or why there is none. -/
def SourceText.read : SourceText → Except SyntaxError Expr
  | .text content => Source.read content
  | .unreadable reason => .error (.unreadable reason)

/-- What a session is asked to do. -/
inductive Request where
  | load (text : String)
  | loadStream (stream : ProgramStream)
  | evaluate
  | run (text : String)
  | reset

/-- What a session gives back. -/
inductive Response where
  | loaded (outcome : Except SyntaxError Unit)
  | evaluated (outcome : Except Failure Expr)
  | ran (outcome : Except ProgramError Expr)
  | done

/-- What an attempt to read a program finds. Only such attempts have a reading. -/
def Request.reading? : Request → Option (Except SyntaxError Expr)
  | .load text => some (Source.read text)
  | .loadStream stream => some stream.source.read
  | .evaluate => none
  | .run text => some (Source.read text)
  | .reset => none

/-! ## The last reading -/

/-- The reading of the last attempt to read a program since the last reset. -/
def LastReading (requests : List Request) (reading : Except SyntaxError Expr) : Prop :=
  ∃ before attempt behind, requests = before ++ attempt :: behind ∧
    attempt.reading? = some reading ∧
    ∀ request ∈ behind, request.reading? = none ∧ request ≠ .reset

theorem not_lastReading_nil {reading : Except SyntaxError Expr} : ¬ LastReading [] reading := by
  rintro ⟨before, attempt, behind, split, -⟩
  simp at split

/-- A request is the last reading itself, or leaves the last reading as it was. -/
theorem lastReading_concat_iff {requests : List Request} {request : Request}
    {reading : Except SyntaxError Expr} :
    LastReading (requests ++ [request]) reading ↔ request.reading? = some reading ∨
      (request.reading? = none ∧ request ≠ .reset) ∧ LastReading requests reading := by
  constructor
  · rintro ⟨before, attempt, behind, split, reads, others⟩
    rcases behind.eq_nil_or_concat with rfl | ⟨earlier, last, rfl⟩
    · obtain ⟨-, rfl⟩ := List.append_singleton_inj.mp split
      exact .inl reads
    · rw [List.concat_eq_append, ← List.cons_append, ← List.append_assoc] at split
      obtain ⟨rfl, rfl⟩ := List.append_singleton_inj.mp split
      exact .inr ⟨others _ (by simp), before, attempt, earlier, rfl, reads,
        fun other member => others other (by simp [member])⟩
  · rintro (reads | ⟨plain, before, attempt, behind, rfl, reads, others⟩)
    · exact ⟨requests, request, [], rfl, reads, by simp⟩
    · refine ⟨before, attempt, behind ++ [request], by simp, reads, ?_⟩
      intro other member
      rcases List.mem_append.mp member with earlier | last
      · exact others other earlier
      · exact List.mem_singleton.mp last ▸ plain

namespace Session

/-! ## Histories -/

/-- The response to a request and the session that it leaves, if that can be found within the
budget. -/
def handle (budget : Nat) (session : Session) : Request → Option (Response × Session)
  | .load text => some (.loaded (session.load text).1, (session.load text).2)
  | .loadStream stream =>
      some (.loaded (session.loadFrom stream.source).1, (session.loadFrom stream.source).2)
  | .evaluate => (session.evaluate budget).map fun (outcome, left) => (.evaluated outcome, left)
  | .run text => (session.run budget text).map fun (outcome, left) => (.ran outcome, left)
  | .reset => some (.done, session.reset)

/-- The request ends with the response, leaving the other session. -/
def Answers (session : Session) (request : Request) (response : Response) (left : Session) : Prop :=
  ∃ budget, session.handle budget request = some (response, left)

/-- Requests one after another with their responses, from one session to another. -/
inductive History : Session → List (Request × Response) → Session → Prop where
  | nothing (session : Session) : History session [] session
  | exchange {session left last : Session} {request : Request} {response : Response}
      {later : List (Request × Response)} (answers : session.Answers request response left)
      (rest : History left later last) : History session ((request, response) :: later) last

/-! ## Single requests -/

/-- The session takes what was read, a program or none. Its environment stays as it is. -/
def Loads (session : Session) (reading : Except SyntaxError Expr) (response : Response)
    (left : Session) : Prop :=
  response = .loaded (reading.map fun _ => ()) ∧ left = ⟨session.environment, reading.toOption⟩

/-- The program ends with this outcome in the environment of the session, and stays its program
whatever the outcome is. -/
def Evaluates (session : Session) (program : Expr) (outcome : Except Failure Expr)
    (left : Session) : Prop :=
  Evaluation.Ends program session.environment outcome left.environment ∧
    left.program = some program

section Requests

variable {session left : Session} {response : Response}

theorem loadFrom_eq (session : Session) (source : SourceText) :
    session.loadFrom source = (source.read.map fun _ => (),
      ⟨session.environment, source.read.toOption⟩) := by
  cases source with
  | text content => exact session.load_eq content
  | unreadable reason => rfl

theorem answers_load_iff {text : String} :
    session.Answers (.load text) response left ↔
      session.Loads (Source.read text) response left := by
  simp [Answers, handle, Loads, load_eq, eq_comm]

theorem answers_loadStream_iff {stream : ProgramStream} :
    session.Answers (.loadStream stream) response left ↔
      session.Loads stream.source.read response left := by
  simp [Answers, handle, Loads, loadFrom_eq, eq_comm]

theorem answers_reset_iff :
    session.Answers .reset response left ↔ response = .done ∧ left = fresh := by
  simp [Answers, handle, reset, eq_comm]

theorem answers_evaluate_iff_of_none (missing : session.program = none) :
    session.Answers .evaluate response left ↔
      response = .evaluated (.error .noProgram) ∧ left = session := by
  simp [Answers, handle, Session.evaluate, missing, eq_comm]

/-- A response that is made of the outcome of an evaluation. -/
theorem exists_evaluates_iff {program : Expr} (respond : Except Failure Expr → Response) :
    (∃ budget, (FormLang.evaluate budget program session.environment).map (fun ending =>
        (respond ending.1, (⟨ending.2, some program⟩ : Session))) = some (response, left)) ↔
      ∃ outcome, response = respond outcome ∧ session.Evaluates program outcome left := by
  constructor
  · rintro ⟨budget, answered⟩
    obtain ⟨ending, ended, same⟩ := Option.map_eq_some_iff.mp answered
    cases same
    exact ⟨ending.1, rfl, ⟨budget, ended⟩, rfl⟩
  · rintro ⟨outcome, rfl, ⟨budget, ended⟩, kept⟩
    exact ⟨budget, Option.map_eq_some_iff.mpr ⟨_, ended, by rw [← kept]⟩⟩

theorem answers_evaluate_iff_of_some {program : Expr} (stored : session.program = some program) :
    session.Answers .evaluate response left ↔
      ∃ outcome, response = .evaluated outcome ∧ session.Evaluates program outcome left := by
  have handled (budget : Nat) : session.handle budget .evaluate =
      (FormLang.evaluate budget program session.environment).map fun ending =>
        (.evaluated ending.1, ⟨ending.2, some program⟩) := by
    simp only [handle, Session.evaluate, stored, Option.map_map]
    rfl
  simp only [Answers, handled]
  exact exists_evaluates_iff .evaluated

theorem answers_run_iff {text : String} :
    session.Answers (.run text) response left ↔
      (∃ error, Source.read text = .error error ∧ response = .ran (.error (.syntactic error)) ∧
        left = ⟨session.environment, none⟩) ∨
      (∃ program outcome, Source.read text = .ok program ∧
        response = .ran (outcome.mapError .semantic) ∧ session.Evaluates program outcome left) := by
  cases read : Source.read text with
  | error error =>
      simp [Answers, handle, run, load_eq, read, Except.map, Except.toOption, eq_comm]
  | ok program =>
      have handled (budget : Nat) : session.handle budget (.run text) =
          (FormLang.evaluate budget program session.environment).map fun ending =>
            (.ran (ending.1.mapError .semantic), ⟨ending.2, some program⟩) := by
        rw [handle, run_of_read read, Option.map_map]
        rfl
      simp only [Answers, handled]
      refine (exists_evaluates_iff fun outcome => .ran (outcome.mapError .semantic)).trans ?_
      simp

/-! ## What requests leave -/

/-- An attempt to read a program leaves what it found. -/
theorem program_of_reading {request : Request} {reading : Except SyntaxError Expr}
    (reads : request.reading? = some reading) (answers : session.Answers request response left) :
    left.program = reading.toOption := by
  cases request with
  | load text =>
      cases reads
      rw [(answers_load_iff.mp answers).2]
  | loadStream stream =>
      cases reads
      rw [(answers_loadStream_iff.mp answers).2]
  | evaluate => cases reads
  | run text =>
      cases reads
      rcases answers_run_iff.mp answers with ⟨error, read, -, rfl⟩ | ⟨program, _, read, -, -, kept⟩
      · rw [read]
        rfl
      · rw [read, kept]
        rfl
  | reset => cases reads

/-- An evaluation, successful or not, leaves the program. -/
theorem program_of_evaluate (answers : session.Answers .evaluate response left) :
    left.program = session.program := by
  cases stored : session.program with
  | none => rw [((answers_evaluate_iff_of_none stored).mp answers).2, stored]
  | some program =>
      obtain ⟨_, -, -, kept⟩ := (answers_evaluate_iff_of_some stored).mp answers
      exact kept

end Requests

/-! ## Whole histories -/

/-- The session has the program of the last reading, if that found one. -/
def StoresLast (requests : List Request) (session : Session) : Prop :=
  ∀ program, session.program = some program ↔ LastReading requests (.ok program)

theorem fresh_storesLast : fresh.StoresLast [] := by
  intro program
  simp [fresh, not_lastReading_nil]

theorem StoresLast.answers {session left : Session} {requests : List Request} {request : Request}
    {response : Response} (stores : session.StoresLast requests)
    (answers : session.Answers request response left) :
    left.StoresLast (requests ++ [request]) := by
  intro program
  rw [lastReading_concat_iff]
  cases reads : request.reading? with
  | some reading =>
      rw [program_of_reading reads answers]
      cases reading <;> simp [Except.toOption]
  | none =>
      cases request with
      | load text => cases reads
      | loadStream stream => cases reads
      | evaluate =>
          rw [program_of_evaluate answers, stores program]
          simp
      | run text => cases reads
      | reset =>
          rw [(answers_reset_iff.mp answers).2]
          simp [fresh]

theorem StoresLast.history {session last : Session} {requests : List Request}
    {exchanges : List (Request × Response)} (stores : session.StoresLast requests)
    (history : session.History exchanges last) :
    last.StoresLast (requests ++ exchanges.map Prod.fst) := by
  induction history generalizing requests with
  | nothing session => simpa using stores
  | exchange answers _ inductionHypothesis =>
      simpa using inductionHypothesis (stores.answers answers)

/-- An evaluation says that there is no program if and only if there is none. -/
theorem noProgram_iff {session left : Session} {failure : Failure}
    (answers : session.Answers .evaluate (.evaluated (.error failure)) left) :
    failure.failureClass = .noProgram ↔ session.program = none := by
  cases stored : session.program with
  | none =>
      obtain ⟨same, -⟩ := (answers_evaluate_iff_of_none stored).mp answers
      cases same
      simp [Failure.failureClass]
  | some program =>
      obtain ⟨_, same, ⟨_, ended⟩, -⟩ := (answers_evaluate_iff_of_some stored).mp answers
      cases same
      simp [Evaluation.failureClass_ne_noProgram ended]

/-- Behind a reset, a session has the histories of a fresh one. -/
theorem history_reset_iff {session last : Session} {later : List (Request × Response)} :
    session.History ((.reset, .done) :: later) last ↔ fresh.History later last := by
  constructor
  · intro history
    cases history with
    | exchange answers rest =>
        obtain ⟨-, rfl⟩ := answers_reset_iff.mp answers
        exact rest
  · intro history
    exact .exchange (answers_reset_iff.mpr ⟨rfl, rfl⟩) history

/-- What a session has of the requests that it was asked, and what it does with the next one. -/
structure KeepsLastReading (requests : List Request) (session : Session) : Prop where
  /-- The program is the one that the last reading found. -/
  stored : session.StoresLast requests
  /-- Loading a text replaces the program, and nothing else. -/
  loads : ∀ text response left,
    session.Answers (.load text) response left ↔ session.Loads (Source.read text) response left
  /-- So does loading a stream, also one that is no text or breaks. -/
  loadsStream : ∀ stream response left,
    session.Answers (.loadStream stream) response left ↔
      session.Loads stream.source.read response left
  /-- Without a program, an evaluation says so and does nothing. -/
  missing : session.program = none → ∀ response left,
    session.Answers .evaluate response left ↔
      response = .evaluated (.error .noProgram) ∧ left = session
  /-- With a program, an evaluation is that of the program, which stays. -/
  evaluates : ∀ program, session.program = some program → ∀ response left,
    session.Answers .evaluate response left ↔
      ∃ outcome, response = .evaluated outcome ∧ session.Evaluates program outcome left
  /-- No evaluation of a program says that there is none. -/
  reports : ∀ failure left, session.Answers .evaluate (.evaluated (.error failure)) left →
    (failure.failureClass = .noProgram ↔ session.program = none)
  /-- Running a text reads it in the environment as it is, and evaluates what was found there. -/
  runs : ∀ text response left, session.Answers (.run text) response left ↔
    (∃ error, Source.read text = .error error ∧ response = .ran (.error (.syntactic error)) ∧
      left = ⟨session.environment, none⟩) ∨
    (∃ program outcome, Source.read text = .ok program ∧
      response = .ran (outcome.mapError .semantic) ∧ session.Evaluates program outcome left)
  /-- Behind a reset, everything is answered as if it was the beginning. -/
  restarts : ∀ later last,
    session.History ((.reset, .done) :: later) last ↔ fresh.History later last

/-- Whatever a session is asked, in whatever order, its program is at every time that of the last
attempt to read one since the last reset, and is evaluated in the environment that only the
evaluations before have changed. -/
theorem last_reading_kept {exchanges : List (Request × Response)} {session : Session}
    (history : fresh.History exchanges session) :
    session.KeepsLastReading (exchanges.map Prod.fst) where
  stored := fresh_storesLast.history history
  loads _ _ _ := answers_load_iff
  loadsStream _ _ _ := answers_loadStream_iff
  missing none _ _ := answers_evaluate_iff_of_none none
  evaluates _ stored _ _ := answers_evaluate_iff_of_some stored
  reports _ _ answers := noProgram_iff answers
  runs _ _ _ := answers_run_iff
  restarts _ _ := history_reset_iff

/-- A definition is run, then a stream that is no text is loaded and evaluated. -/
def garbledExchanges : List (Request × Response) :=
  [(.run "(define a \"one\")", .ran (.ok (.leaf (.string "one")))),
    (.loadStream (.ending ⟨#[0x28, 0xff]⟩), .loaded (.error (.unreadable notText))),
    (.evaluate, .evaluated (.error .noProgram))]

/-- The session with what was defined and without a program. -/
def garbledSession : Session :=
  ⟨Environment.initial.bind "a" (.leaf (.string "one")), none⟩

/-- The stream takes away the program that was run, but not what it defined. -/
theorem garbled_stream_discards_program :
    fresh.History garbledExchanges garbledSession ∧
      garbledSession.KeepsLastReading (garbledExchanges.map Prod.fst) ∧
      LastReading (garbledExchanges.map Prod.fst) (.error (.unreadable notText)) := by
  have read : Source.read "(define a \"one\")" = .ok (.form (.symbol "define")
      [.leaf (.symbol "a"), .leaf (.string "one")]) := by
    decide +kernel
  have garbled : (ProgramStream.ending ⟨#[0x28, 0xff]⟩).source = .unreadable notText := by
    decide +kernel
  have ran : fresh.Answers (.run "(define a \"one\")") (.ran (.ok (.leaf (.string "one"))))
      ⟨garbledSession.environment, some (.form (.symbol "define")
        [.leaf (.symbol "a"), .leaf (.string "one")])⟩ :=
    answers_run_iff.mpr (.inr ⟨_, .ok _, read, rfl, ⟨2, rfl⟩, rfl⟩)
  have discarded (program : Option Expr) : Answers ⟨garbledSession.environment, program⟩
      (.loadStream (.ending ⟨#[0x28, 0xff]⟩)) (.loaded (.error (.unreadable notText)))
      garbledSession := by
    rw [answers_loadStream_iff, garbled]
    exact ⟨rfl, rfl⟩
  have refused : garbledSession.Answers .evaluate (.evaluated (.error .noProgram)) garbledSession :=
    ⟨0, rfl⟩
  have history : fresh.History garbledExchanges garbledSession :=
    .exchange ran (.exchange (discarded _) (.exchange refused (.nothing garbledSession)))
  refine ⟨history, last_reading_kept history, [_], _, [_], rfl, ?_, by simp [Request.reading?]⟩
  rw [Request.reading?, garbled]
  rfl

end Session

end FormLang
