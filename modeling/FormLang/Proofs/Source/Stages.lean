import FormLang.Proofs.Source.Errors
import FormLang.Proofs.Source.Grammar

/-!
Contract: the reader, one token at a time.

What has been read of a text is all that matters for what may follow. It leaves the reader at a
stage: in front of everything, behind an opening parenthesis, within a form, or behind a
complete one. A token leads from one stage to the next or is refused, and the end of the tokens
is accepted behind a complete form only.

Owns: the stages and what tokens and the end of the tokens do there, reading as a run through
stages, how a run fails, and which tokens lead to which stage.
Does not own: what the errors say about a text.
-/

set_option autoImplicit false

namespace FormLang.Source

/-- Where the reader is: what is open, or the program that is complete. -/
inductive Stage where
  | start
  | head (outer : List OpenForm)
  | tail (form : OpenForm) (outer : List OpenForm)
  | done (program : Expr)

namespace Stage

/-- Read one token. -/
def step : Stage → Token → Except SyntaxError Stage
  | .start, .opening => .ok (.head [])
  | .start, .closing => .error .unbalanced
  | .start, .lexeme text => .error (.bareAtom text)
  | .head _, .opening => .error .formHead
  | .head _, .closing => .error .emptyForm
  | .head outer, .lexeme text => (classify text).map fun atom => .tail ⟨atom, []⟩ outer
  | .tail form outer, .opening => .ok (.head (form :: outer))
  | .tail form [], .closing => .ok (.done form.close)
  | .tail form (parent :: outer), .closing => .ok (.tail (parent.add form.close) outer)
  | .tail form outer, .lexeme text =>
      (classify text).map fun atom => .tail (form.add (.leaf atom)) outer
  | .done _, _ => .error .trailingInput

/-- What the tokens stand for if there are no more of them. -/
def finish : Stage → Except SyntaxError Expr
  | .start => .error .emptyInput
  | .head _ => .error .unbalanced
  | .tail _ _ => .error .unbalanced
  | .done program => .ok program

/-- Read tokens, one after the other. -/
def run (stage : Stage) (tokens : List Token) : Except SyntaxError Stage :=
  tokens.foldlM step stage

theorem run_cons (stage : Stage) (token : Token) (rest : List Token) :
    stage.run (token :: rest) = stage.step token >>= fun next => next.run rest :=
  List.foldlM_cons

theorem run_append (stage : Stage) (tokens rest : List Token) :
    stage.run (tokens ++ rest) = stage.run tokens >>= fun next => next.run rest :=
  List.foldlM_append

/-- Behind a complete form, nothing but the end is accepted. -/
theorem run_done (program : Expr) (tokens : List Token) :
    (Stage.done program).run tokens >>= finish =
      if tokens.isEmpty then .ok program else .error .trailingInput := by
  cases tokens <;> rfl

end Stage

/-! ## Reading as a run -/

/-- From within the tokens, reading goes on through the stages. -/
theorem readHead_readTail_eq_run (tokens : List Token) :
    (∀ outer, readHead outer tokens = (Stage.head outer).run tokens >>= Stage.finish) ∧
      ∀ form outer, readTail form outer tokens =
        (Stage.tail form outer).run tokens >>= Stage.finish := by
  induction tokens with
  | nil => exact ⟨fun _ => rfl, fun _ _ => rfl⟩
  | cons token rest inductionHypothesis =>
      obtain ⟨headOfRest, tailOfRest⟩ := inductionHypothesis
      constructor
      · intro outer
        rw [Stage.run_cons]
        cases token with
        | opening => rfl
        | closing => rfl
        | lexeme text =>
            rw [readHead, Stage.step]
            cases classify text with
            | error error => rfl
            | ok atom => exact tailOfRest _ outer
      · intro form outer
        rw [Stage.run_cons]
        cases token with
        | opening => exact headOfRest (form :: outer)
        | closing =>
            cases outer with
            | nil => exact (Stage.run_done form.close rest).symm
            | cons parent outer => exact tailOfRest _ outer
        | lexeme text =>
            rw [readTail, Stage.step]
            cases classify text with
            | error error => rfl
            | ok atom => exact tailOfRest _ outer

theorem readTokens_eq_run (tokens : List Token) :
    readTokens tokens = Stage.start.run tokens >>= Stage.finish := by
  cases tokens with
  | nil => rfl
  | cons token rest =>
      cases token with
      | opening => exact (readHead_readTail_eq_run rest).1 []
      | closing => rfl
      | lexeme text => rfl

/-! ## How a run fails -/

namespace Stage

variable {stage : Stage} {token : Token} {tokens : List Token} {error : SyntaxError}

/-- A run fails at one token, behind tokens that lead to a stage. -/
theorem run_eq_error_iff :
    stage.run tokens = .error error ↔ ∃ before token behind reached,
      tokens = before ++ token :: behind ∧ stage.run before = .ok reached ∧
        reached.step token = .error error := by
  constructor
  · intro failed
    induction tokens generalizing stage with
    | nil => cases failed
    | cons first rest inductionHypothesis =>
        rw [run_cons] at failed
        cases stepped : stage.step first with
        | error other =>
            rw [stepped] at failed
            cases failed
            exact ⟨[], first, rest, stage, rfl, rfl, stepped⟩
        | ok next =>
            rw [stepped] at failed
            obtain ⟨before, token, behind, reached, rfl, ran, refused⟩ :=
              inductionHypothesis failed
            refine ⟨first :: before, token, behind, reached, rfl, ?_, refused⟩
            rw [run_cons, stepped]
            exact ran
  · rintro ⟨before, token, behind, reached, rfl, ran, refused⟩
    rw [run_append, ran]
    change reached.run (token :: behind) = _
    rw [run_cons, refused]
    rfl

/-- Tokens that are read lead to a stage after every part of them. -/
theorem run_front {rest : List Token} {reached : Stage}
    (ran : stage.run (tokens ++ rest) = .ok reached) :
    ∃ middle, stage.run tokens = .ok middle ∧ middle.run rest = .ok reached := by
  rw [run_append] at ran
  cases front : stage.run tokens with
  | error error =>
      rw [front] at ran
      cases ran
  | ok middle =>
      rw [front] at ran
      exact ⟨middle, rfl, ran⟩

/-- Within a program: something is open. -/
inductive Inside : Stage → Prop where
  | head (outer : List OpenForm) : Inside (.head outer)
  | tail (form : OpenForm) (outer : List OpenForm) : Inside (.tail form outer)

/-- How a token is refused. -/
inductive Refuses : Stage → Token → SyntaxError → Prop where
  | outside : Refuses .start .closing .unbalanced
  | bare (text : String) : Refuses .start (.lexeme text) (.bareAtom text)
  | nested (outer : List OpenForm) : Refuses (.head outer) .opening .formHead
  | empty (outer : List OpenForm) : Refuses (.head outer) .closing .emptyForm
  | malformed {stage : Stage} {text : String} (inside : stage.Inside)
      (refused : classify text = .error (.malformedNumber text)) :
      Refuses stage (.lexeme text) (.malformedNumber text)
  | trailing (program : Expr) (token : Token) : Refuses (.done program) token .trailingInput

/-- Within a program, a lexeme becomes a part of a form, or is refused if it stands for no
atom. -/
theorem Inside.step_lexeme (inside : stage.Inside) (text : String) :
    (∃ atom form outer, classify text = .ok atom ∧
        stage.step (.lexeme text) = .ok (.tail form outer)) ∨
      classify text = .error (.malformedNumber text) ∧
        stage.step (.lexeme text) = .error (.malformedNumber text) := by
  cases classified : classify text with
  | ok atom =>
      refine .inl ⟨atom, ?_⟩
      cases inside <;> exact ⟨_, _, rfl, by rw [step, classified]; rfl⟩
  | error error =>
      obtain rfl := classify_eq_error classified
      refine .inr ⟨rfl, ?_⟩
      cases inside <;> rw [step, classified] <;> rfl

theorem step_eq_error_iff : stage.step token = .error error ↔ Refuses stage token error := by
  have lexemes {stage : Stage} (inside : stage.Inside) (text : String)
      (refused : stage.step (.lexeme text) = .error error) :
      Refuses stage (.lexeme text) error := by
    rcases inside.step_lexeme text with ⟨_, _, _, -, stepped⟩ | ⟨classified, stepped⟩
    · rw [stepped] at refused
      cases refused
    · rw [stepped] at refused
      cases refused
      exact .malformed inside classified
  constructor
  · intro refused
    match stage, token with
    | .start, .opening => cases refused
    | .start, .closing => cases refused; exact .outside
    | .start, .lexeme text => cases refused; exact .bare text
    | .head outer, .opening => cases refused; exact .nested outer
    | .head outer, .closing => cases refused; exact .empty outer
    | .head outer, .lexeme text => exact lexemes (.head outer) text refused
    | .tail form outer, .opening => cases refused
    | .tail form [], .closing => cases refused
    | .tail form (parent :: outer), .closing => cases refused
    | .tail form outer, .lexeme text => exact lexemes (.tail form outer) text refused
    | .done program, token => cases refused; exact .trailing program token
  · intro refuses
    cases refuses with
    | @malformed stage text inside refused =>
        rcases inside.step_lexeme text with ⟨_, _, _, classified, -⟩ | ⟨-, stepped⟩
        · rw [refused] at classified
          cases classified
        · exact stepped
    | _ => rfl

/-! ## The tokens that lead to a stage -/

/-- Every stage can be led to a complete form. -/
theorem exists_completion (stage : Stage) :
    ∃ rest program, stage.run rest = .ok (.done program) := by
  have ofTail (form : OpenForm) (outer : List OpenForm) :
      ∃ rest program, (Stage.tail form outer).run rest = .ok (.done program) := by
    induction outer generalizing form with
    | nil => exact ⟨[.closing], form.close, rfl⟩
    | cons parent outer inductionHypothesis =>
        obtain ⟨rest, program, ran⟩ := inductionHypothesis (parent.add form.close)
        exact ⟨.closing :: rest, program, by rw [run_cons]; exact ran⟩
  have ofHead (outer : List OpenForm) :
      ∃ rest program, (Stage.head outer).run rest = .ok (.done program) := by
    have classified : classify "x" = .ok (.symbol "x") := by rfl
    obtain ⟨rest, program, ran⟩ := ofTail ⟨.symbol "x", []⟩ outer
    refine ⟨.lexeme "x" :: rest, program, ?_⟩
    rw [run_cons, step, classified]
    exact ran
  cases stage with
  | start =>
      obtain ⟨rest, program, ran⟩ := ofHead []
      exact ⟨.opening :: rest, program, by rw [run_cons]; exact ran⟩
  | head outer => exact ofHead outer
  | tail form outer => exact ofTail form outer
  | done program => exact ⟨[], program, rfl⟩

theorem run_snoc (stage : Stage) (front : List Token) (token : Token) :
    stage.run (front ++ [token]) = stage.run front >>= fun middle => middle.step token := by
  rw [run_append]
  cases stage.run front with
  | error error => rfl
  | ok middle =>
      change middle.run [token] = middle.step token
      rw [run_cons]
      cases middle.step token <;> rfl

/-- Every stage but the start is reached with a last token. -/
theorem run_cases {reached : Stage} (ran : stage.run tokens = .ok reached) :
    (tokens = [] ∧ reached = stage) ∨ ∃ front token middle, tokens = front ++ [token] ∧
      stage.run front = .ok middle ∧ middle.step token = .ok reached := by
  rcases List.eq_nil_or_concat tokens with rfl | ⟨front, token, rfl⟩
  · cases ran
    exact .inl ⟨rfl, rfl⟩
  · rw [List.concat_eq_append, run_snoc] at ran
    cases before : stage.run front with
    | error error =>
        rw [before] at ran
        cases ran
    | ok middle =>
        rw [before] at ran
        exact .inr ⟨front, token, middle, List.concat_eq_append, before, ran⟩

/-- What a token leads to. An opening parenthesis, and nothing else, leads behind one. -/
theorem step_ok_cases {next : Stage} (stepped : stage.step token = .ok next) :
    (token = .opening ∧ ∃ outer, next = .head outer) ∨
      token ≠ .opening ∧ ((∃ form outer, next = .tail form outer) ∨
        ∃ program, next = .done program) := by
  have lexemes {stage : Stage} (inside : stage.Inside) (text : String)
      (stepped : stage.step (.lexeme text) = .ok next) :
      ∃ form outer, next = .tail form outer := by
    rcases inside.step_lexeme text with ⟨_, form, outer, -, taken⟩ | ⟨-, refused⟩
    · rw [stepped] at taken
      cases taken
      exact ⟨form, outer, rfl⟩
    · rw [stepped] at refused
      cases refused
  match stage, token with
  | .start, .opening => cases stepped; exact .inl ⟨rfl, [], rfl⟩
  | .head outer, .lexeme text => exact .inr ⟨nofun, .inl (lexemes (.head outer) text stepped)⟩
  | .tail form outer, .opening => cases stepped; exact .inl ⟨rfl, form :: outer, rfl⟩
  | .tail form [], .closing => cases stepped; exact .inr ⟨nofun, .inr ⟨_, rfl⟩⟩
  | .tail form (parent :: outer), .closing =>
      cases stepped
      exact .inr ⟨nofun, .inl ⟨_, _, rfl⟩⟩
  | .tail form outer, .lexeme text =>
      exact .inr ⟨nofun, .inl (lexemes (.tail form outer) text stepped)⟩

/-- The tokens that lead behind an opening parenthesis are those that end with one. -/
theorem head_iff_opening {reached : Stage} (ran : Stage.start.run tokens = .ok reached) :
    (∃ outer, reached = .head outer) ↔ ∃ front, tokens = front ++ [.opening] := by
  rcases run_cases ran with ⟨rfl, rfl⟩ | ⟨front, token, middle, rfl, -, stepped⟩
  · simp
  · rcases step_ok_cases stepped with ⟨rfl, outer, rfl⟩ | ⟨other, tails | programs⟩
    · exact ⟨fun _ => ⟨front, rfl⟩, fun _ => ⟨outer, rfl⟩⟩
    · obtain ⟨form, outer, rfl⟩ := tails
      simpa using other
    · obtain ⟨program, rfl⟩ := programs
      simpa using other

/-- The start is left with the first token, which is an opening parenthesis. -/
theorem start_or_opened {reached : Stage} (ran : Stage.start.run tokens = .ok reached) :
    (tokens = [] ∧ reached = .start) ∨
      (∃ rest, tokens = .opening :: rest) ∧ reached ≠ .start := by
  rcases run_cases ran with ⟨rfl, rfl⟩ | ⟨front, token, middle, rfl, -, stepped⟩
  · exact .inl ⟨rfl, rfl⟩
  · refine .inr ⟨?_, ?_⟩
    · cases whole : front ++ [token] with
      | nil => simp at whole
      | cons first rest =>
          rw [whole, run_cons] at ran
          cases first with
          | opening => exact ⟨rest, rfl⟩
          | closing => cases ran
          | lexeme text => cases ran
    · rcases step_ok_cases stepped with ⟨-, _, rfl⟩ | ⟨-, ⟨_, _, rfl⟩ | ⟨_, rfl⟩⟩ <;> exact nofun

end Stage

end FormLang.Source
