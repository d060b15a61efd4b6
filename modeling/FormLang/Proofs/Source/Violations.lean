import FormLang.Proofs.Source.Stages
import Mathlib.Logic.ExistsUnique

/-!
Contract: the error that a text is refused with.

A text that is no program violates the grammar in many places at once. The reader reports the
first of them: where the tokens cease to be the beginning of a complete form, if they do, and
otherwise what is wrong with them as a whole.

Owns: complete forms and their beginnings, the first token that goes wrong, and the theorem that
tells for every error which texts are refused with it.
-/

set_option autoImplicit false

namespace FormLang.Source

/-- The tokens have a derivation as a form, and all lexemes in it stand for atoms. -/
def Complete (tokens : List Token) : Prop :=
  ∃ head items program, (Phrase.form head items).tokens = tokens ∧
    (Phrase.form head items).tree = .ok program

/-- The tokens are a complete form or the beginning of one. -/
def Viable (tokens : List Token) : Prop :=
  ∃ rest, Complete (tokens ++ rest)

/-- The tokens are the beginning of a complete form, and not all of it. -/
def Incomplete (tokens : List Token) : Prop :=
  ∃ rest, rest ≠ [] ∧ Complete (tokens ++ rest)

/-- Of all tokens, this is the first one that no complete form goes on with. -/
structure StopsAt (tokens before : List Token) (token : Token) : Prop where
  inside : ∃ behind, tokens = before ++ token :: behind
  viable : Viable before
  stops : ¬ Viable (before ++ [token])

/-- The tokens begin like a form, and neither lack its end nor go on behind it. -/
structure Broken (tokens : List Token) : Prop where
  opens : ∃ rest, tokens = .opening :: rest
  notViable : ¬ Viable tokens
  notTrailing : ∀ form extra, tokens = form ++ extra → ¬ Complete form

section Beginnings

variable {tokens before behind : List Token} {token : Token} {stage : Stage} {error : SyntaxError}

/-- A complete form is what the reader reads as a program. -/
theorem complete_iff_read : Complete tokens ↔ ∃ program, readTokens tokens = .ok program := by
  constructor
  · rintro ⟨head, items, program, derives, tree⟩
    exact ⟨program, readTokens_eq_ok_iff.mpr ⟨head, items, derives, tree⟩⟩
  · rintro ⟨program, read⟩
    obtain ⟨head, items, derives, tree⟩ := readTokens_eq_ok_iff.mp read
    exact ⟨head, items, program, derives, tree⟩

/-- A complete form leads the reader behind it. -/
theorem complete_iff_run :
    Complete tokens ↔ ∃ program, Stage.start.run tokens = .ok (.done program) := by
  rw [complete_iff_read]
  simp only [readTokens_eq_run]
  cases Stage.start.run tokens with
  | error error => exact ⟨nofun, nofun⟩
  | ok stage =>
      cases stage with
      | done program => exact ⟨fun _ => ⟨program, rfl⟩, fun _ => ⟨program, rfl⟩⟩
      | _ => exact ⟨nofun, nofun⟩

/-- The beginnings of complete forms are the tokens that lead to a stage. -/
theorem viable_iff_run : Viable tokens ↔ ∃ stage, Stage.start.run tokens = .ok stage := by
  constructor
  · rintro ⟨rest, complete⟩
    obtain ⟨program, ran⟩ := complete_iff_run.mp complete
    obtain ⟨stage, front, -⟩ := Stage.run_front ran
    exact ⟨stage, front⟩
  · rintro ⟨stage, ran⟩
    obtain ⟨rest, program, completes⟩ := stage.exists_completion
    refine ⟨rest, complete_iff_run.mpr ⟨program, ?_⟩⟩
    rw [Stage.run_append, ran]
    exact completes

/-- Nothing is read behind a complete form. -/
theorem read_behind_complete (complete : Complete before) (behind : List Token) :
    ∃ program, readTokens (before ++ behind) =
      if behind.isEmpty then .ok program else .error .trailingInput := by
  obtain ⟨program, ran⟩ := complete_iff_run.mp complete
  refine ⟨program, ?_⟩
  rw [readTokens_eq_run, Stage.run_append, ran]
  exact Stage.run_done program behind

/-- A refused token refuses all. -/
theorem read_refused (ran : Stage.start.run before = .ok stage)
    (refused : stage.step token = .error error) (behind : List Token) :
    readTokens (before ++ token :: behind) = .error error := by
  have failed : Stage.start.run (before ++ token :: behind) = .error error :=
    Stage.run_eq_error_iff.mpr ⟨before, token, behind, stage, rfl, ran, refused⟩
  rw [readTokens_eq_run, failed]
  rfl

/-- Where the tokens go wrong within a form, they are broken, and that is the first place. -/
theorem broken_of_refused (ran : Stage.start.run before = .ok stage) (inside : stage.Inside)
    (refused : stage.step token = .error error) (notTrailing : error ≠ .trailingInput) :
    Broken (before ++ token :: behind) ∧ StopsAt (before ++ token :: behind) before token := by
  have stops (behind : List Token) : ¬ Viable (before ++ token :: behind) := by
    intro viable
    obtain ⟨reached, whole⟩ := viable_iff_run.mp viable
    have failed : Stage.start.run (before ++ token :: behind) = .error error :=
      Stage.run_eq_error_iff.mpr ⟨before, token, behind, stage, rfl, ran, refused⟩
    rw [failed] at whole
    cases whole
  refine ⟨⟨?_, stops behind, ?_⟩, ⟨behind, rfl⟩, viable_iff_run.mpr ⟨stage, ran⟩, stops []⟩
  · rcases Stage.start_or_opened ran with ⟨-, rfl⟩ | ⟨⟨rest, rfl⟩, -⟩
    · cases inside
    · exact ⟨rest ++ token :: behind, rfl⟩
  · intro form extra shape complete
    have read := read_refused ran refused behind
    obtain ⟨program, whole⟩ := read_behind_complete complete extra
    rw [shape, whole] at read
    split at read
    · cases read
    · exact notTrailing (Except.error.inj read).symm

/-- Broken tokens are refused where they stop being the beginning of a form. -/
theorem Broken.refused (broken : Broken tokens) (stops : StopsAt tokens before token) :
    ∃ stage error, Stage.start.run before = .ok stage ∧ stage.Inside ∧
      stage.Refuses token error ∧ readTokens tokens = .error error := by
  obtain ⟨behind, rfl⟩ := stops.inside
  obtain ⟨stage, ran⟩ := viable_iff_run.mp stops.viable
  cases stepped : stage.step token with
  | ok next =>
      refine absurd (viable_iff_run.mpr ⟨next, ?_⟩) stops.stops
      rw [Stage.run_snoc, ran]
      exact stepped
  | error error =>
      refine ⟨stage, error, ran, ?_, Stage.step_eq_error_iff.mp stepped,
        read_refused ran stepped behind⟩
      cases stage with
      | head outer => exact .head outer
      | tail form outer => exact .tail form outer
      | done program =>
          exact absurd (complete_iff_run.mpr ⟨program, ran⟩)
            (broken.notTrailing before (token :: behind) rfl)
      | start =>
          rcases Stage.start_or_opened ran with ⟨rfl, -⟩ | ⟨-, left⟩
          · obtain ⟨rest, opens⟩ := broken.opens
            obtain ⟨rfl, -⟩ := List.cons.inj opens
            cases stepped
          · exact absurd rfl left

/-- Behind an opening parenthesis, broken tokens are refused for what the next one is. -/
theorem Broken.refused_head (broken : Broken tokens)
    (stops : StopsAt tokens (before ++ [.opening]) token) :
    ∃ outer error, (Stage.head outer).Refuses token error ∧ readTokens tokens = .error error := by
  obtain ⟨stage, error, ran, -, refuses, read⟩ := broken.refused stops
  obtain ⟨outer, rfl⟩ := (Stage.head_iff_opening ran).mpr ⟨before, rfl⟩
  exact ⟨outer, error, refuses, read⟩

/-- A beginning of a complete form begins with such beginnings only. -/
theorem Viable.front (viable : Viable (before ++ behind)) : Viable before := by
  obtain ⟨rest, complete⟩ := viable
  exact ⟨behind ++ rest, by rwa [← List.append_assoc]⟩

/-- There is one first place where tokens go wrong. -/
theorem StopsAt.unique {before' : List Token} {token' : Token}
    (stops : StopsAt tokens before token) (stops' : StopsAt tokens before' token') :
    before = before' ∧ token = token' := by
  -- The earlier one of two places would lie within the part that is viable.
  have notEarlier {before before' : List Token} {token token' : Token}
      (stops : StopsAt tokens before token) (stops' : StopsAt tokens before' token') :
      ¬ before.length < before'.length := by
    intro earlier
    obtain ⟨behind, shape⟩ := stops.inside
    obtain ⟨behind', shape'⟩ := stops'.inside
    have within : before ++ [token] <+: before' :=
      List.prefix_of_prefix_length_le ⟨behind, by simp [shape]⟩ ⟨token' :: behind', shape'.symm⟩
        (by rw [List.length_append]; exact earlier)
    obtain ⟨others, rfl⟩ := within
    exact stops.stops stops'.viable.front
  have sameLength : before.length = before'.length :=
    Nat.le_antisymm (Nat.le_of_not_lt (notEarlier stops' stops))
      (Nat.le_of_not_lt (notEarlier stops stops'))
  obtain ⟨behind, rfl⟩ := stops.inside
  obtain ⟨behind', shape'⟩ := stops'.inside
  obtain ⟨rfl, rests⟩ := List.append_inj shape' sameLength
  exact ⟨rfl, (List.cons.inj rests).1⟩

end Beginnings

/-! ## One violation for each refused text -/

/-- What is wrong with tokens, by the first of all places where they go wrong. -/
inductive Violation (tokens : List Token) : SyntaxError → Prop where
  | empty (nothing : tokens = []) : Violation tokens .emptyInput
  | bare {lexeme : String} {rest : List Token} (starts : tokens = .lexeme lexeme :: rest) :
      Violation tokens (.bareAtom lexeme)
  | outside {rest : List Token} (starts : tokens = .closing :: rest) :
      Violation tokens .unbalanced
  | unclosed {rest : List Token} (starts : tokens = .opening :: rest)
      (incomplete : Incomplete tokens) : Violation tokens .unbalanced
  | trailing {form extra : List Token} (shape : tokens = form ++ extra) (more : extra ≠ [])
      (complete : Complete form) : Violation tokens .trailingInput
  | emptyForm {before : List Token} (broken : Broken tokens)
      (stops : StopsAt tokens (before ++ [.opening]) .closing) : Violation tokens .emptyForm
  | formHead {before : List Token} (broken : Broken tokens)
      (stops : StopsAt tokens (before ++ [.opening]) .opening) : Violation tokens .formHead
  | malformed {before : List Token} {lexeme : String} (broken : Broken tokens)
      (stops : StopsAt tokens before (.lexeme lexeme))
      (refused : ∀ atom, classify lexeme ≠ .ok atom) :
      Violation tokens (.malformedNumber lexeme)

section Violations

variable {tokens before : List Token} {token : Token} {stage : Stage} {error : SyntaxError}

/-- What ends where something is left to be read is unclosed, or is nothing at all. -/
theorem violation_of_finish (ran : Stage.start.run tokens = .ok stage)
    (unfinished : stage.finish = .error error) : Violation tokens error := by
  rcases Stage.start_or_opened ran with ⟨nothing, rfl⟩ | ⟨⟨rest, starts⟩, left⟩
  · cases unfinished
    exact .empty nothing
  · obtain ⟨missing, program, completes⟩ := stage.exists_completion
    have complete : Complete (tokens ++ missing) := by
      refine complete_iff_run.mpr ⟨program, ?_⟩
      rw [Stage.run_append, ran]
      exact completes
    have unclosed (notDone : ∀ other, stage ≠ .done other) : Incomplete tokens := by
      refine ⟨missing, ?_, complete⟩
      rintro rfl
      cases completes
      exact notDone program rfl
    cases stage with
    | start => exact absurd rfl left
    | head outer => cases unfinished; exact .unclosed starts (unclosed nofun)
    | tail form outer => cases unfinished; exact .unclosed starts (unclosed nofun)
    | done other => cases unfinished

/-- A token that is refused is a violation by itself. -/
theorem violation_of_refuses {behind : List Token} (ran : Stage.start.run before = .ok stage)
    (refuses : stage.Refuses token error) : Violation (before ++ token :: behind) error := by
  have refused := Stage.step_eq_error_iff.mpr refuses
  have nothingBefore (atStart : stage = .start) : before = [] := by
    rcases Stage.start_or_opened ran with ⟨nothing, -⟩ | ⟨-, left⟩
    · exact nothing
    · exact absurd atStart left
  cases refuses with
  | outside =>
      rw [nothingBefore rfl]
      exact .outside rfl
  | bare text =>
      rw [nothingBefore rfl]
      exact .bare rfl
  | trailing program token =>
      exact .trailing rfl nofun (complete_iff_run.mpr ⟨program, ran⟩)
  | nested outer =>
      obtain ⟨front, rfl⟩ := (Stage.head_iff_opening ran).mp ⟨outer, rfl⟩
      obtain ⟨broken, stops⟩ := broken_of_refused ran (.head outer) refused nofun
      exact .formHead broken stops
  | empty outer =>
      obtain ⟨front, rfl⟩ := (Stage.head_iff_opening ran).mp ⟨outer, rfl⟩
      obtain ⟨broken, stops⟩ := broken_of_refused ran (.head outer) refused nofun
      exact .emptyForm broken stops
  | malformed inside malformed =>
      obtain ⟨broken, stops⟩ := broken_of_refused ran inside refused nofun
      refine .malformed broken stops ?_
      intro atom accepted
      rw [malformed] at accepted
      cases accepted

/-- The beginning of a form is read up to its end, where something is open. -/
theorem read_incomplete {rest : List Token} (incomplete : Incomplete (.opening :: rest)) :
    readTokens (.opening :: rest) = .error .unbalanced := by
  obtain ⟨missing, some, complete⟩ := incomplete
  obtain ⟨stage, ran⟩ := viable_iff_run.mp ⟨missing, complete⟩
  have read : readTokens (.opening :: rest) = stage.finish := by
    rw [readTokens_eq_run, ran]
    rfl
  rw [read]
  cases stage with
  | head outer => rfl
  | tail form outer => rfl
  | start =>
      rcases Stage.start_or_opened ran with ⟨nothing, -⟩ | ⟨-, left⟩
      · cases nothing
      · exact absurd rfl left
  | done program =>
      -- Behind a complete form nothing can be missing.
      obtain ⟨whole, completed⟩ := complete_iff_read.mp complete
      obtain ⟨other, behind⟩ :=
        read_behind_complete (complete_iff_run.mpr ⟨program, ran⟩) missing
      rw [completed, if_neg (by simpa using some)] at behind
      cases behind

/-- The reader refuses tokens with the violation that they have. -/
theorem readTokens_eq_error_iff : readTokens tokens = .error error ↔ Violation tokens error := by
  constructor
  · intro refused
    rw [readTokens_eq_run] at refused
    cases ran : Stage.start.run tokens with
    | ok stage =>
        rw [ran] at refused
        exact violation_of_finish ran refused
    | error other =>
        rw [ran] at refused
        cases refused
        obtain ⟨before, token, behind, stage, rfl, ran, stepped⟩ := Stage.run_eq_error_iff.mp ran
        exact violation_of_refuses ran (Stage.step_eq_error_iff.mp stepped)
  · intro violation
    cases violation with
    | empty nothing => rw [nothing]; rfl
    | bare starts => rw [starts]; rfl
    | outside starts => rw [starts]; rfl
    | unclosed starts incomplete =>
        rw [starts] at incomplete ⊢
        exact read_incomplete incomplete
    | @trailing form extra shape more complete =>
        obtain ⟨program, read⟩ := read_behind_complete complete extra
        rw [shape, read, if_neg (by simpa using more)]
    | emptyForm broken stops =>
        obtain ⟨outer, error, refuses, read⟩ := broken.refused_head stops
        cases refuses
        exact read
    | formHead broken stops =>
        obtain ⟨outer, error, refuses, read⟩ := broken.refused_head stops
        cases refuses
        exact read
    | malformed broken stops refused =>
        obtain ⟨stage, error, -, inside, refuses, read⟩ := broken.refused stops
        cases refuses with
        | bare text => cases inside
        | malformed _ _ => exact read
        | trailing program token => cases inside

/-- Broken tokens go wrong at some token. -/
theorem Broken.exists_stopsAt (broken : Broken tokens) :
    ∃ before token, StopsAt tokens before token := by
  cases read : readTokens tokens with
  | ok program =>
      have complete := complete_iff_read.mpr ⟨program, read⟩
      exact absurd ⟨[], by rwa [List.append_nil]⟩ broken.notViable
  | error error =>
      obtain ⟨rest, opens⟩ := broken.opens
      cases readTokens_eq_error_iff.mp read with
      | empty nothing => rw [nothing] at opens; cases opens
      | bare starts => rw [starts] at opens; cases opens
      | outside starts => rw [starts] at opens; cases opens
      | unclosed _ incomplete =>
          obtain ⟨missing, -, complete⟩ := incomplete
          exact absurd ⟨missing, complete⟩ broken.notViable
      | trailing shape _ complete => exact absurd complete (broken.notTrailing _ _ shape)
      | emptyForm _ stops => exact ⟨_, _, stops⟩
      | formHead _ stops => exact ⟨_, _, stops⟩
      | malformed _ stops _ => exact ⟨_, _, stops⟩

end Violations

/-- The error that a text is refused with names the first violation in reading order. Texts
without tokens, texts that start with a lexeme or a closing parenthesis, beginnings of forms and
texts that go on behind a form have errors of their own, whatever else is wrong with them. In
any other text that is no form, one token is the first that no form goes on with, and the error
says what it is. -/
theorem first_violation_named (text : String) :
    ((∃ program, read text = .ok program) ↔ Complete (tokenize text)) ∧
    (read text = .error .emptyInput ↔ tokenize text = []) ∧
    (∀ lexeme, read text = .error (.bareAtom lexeme) ↔
      ∃ rest, tokenize text = .lexeme lexeme :: rest) ∧
    (read text = .error .unbalanced ↔
      (∃ rest, tokenize text = .closing :: rest) ∨
        (∃ rest, tokenize text = .opening :: rest) ∧ Incomplete (tokenize text)) ∧
    (read text = .error .trailingInput ↔
      ∃ form extra, tokenize text = form ++ extra ∧ extra ≠ [] ∧ Complete form) ∧
    (read text = .error .emptyForm ↔
      Broken (tokenize text) ∧
        ∃ before, StopsAt (tokenize text) (before ++ [.opening]) .closing) ∧
    (read text = .error .formHead ↔
      Broken (tokenize text) ∧
        ∃ before, StopsAt (tokenize text) (before ++ [.opening]) .opening) ∧
    (∀ lexeme, read text = .error (.malformedNumber lexeme) ↔
      Broken (tokenize text) ∧ (∃ before, StopsAt (tokenize text) before (.lexeme lexeme)) ∧
        ∀ atom, classify lexeme ≠ .ok atom) ∧
    (Broken (tokenize text) →
      ∃! place : List Token × Token, StopsAt (tokenize text) place.1 place.2) ∧
    ∀ piece, read text ≠ .error (.invalidToken piece) ∧ read text ≠ .error (.unreadable piece) := by
  have violation (error : SyntaxError) :
      read text = .error error ↔ Violation (tokenize text) error := readTokens_eq_error_iff
  simp only [ne_eq, violation]
  refine ⟨complete_iff_read.symm, ?empty, ?bare, ?unbalanced, ?trailing, ?emptyForm, ?formHead,
    ?malformed, ?place, ?never⟩
  case empty =>
    refine ⟨?_, .empty⟩
    rintro ⟨nothing⟩
    exact nothing
  case bare =>
    refine fun lexeme => ⟨?_, fun ⟨rest, starts⟩ => .bare starts⟩
    intro violates
    cases violates with
    | bare starts => exact ⟨_, starts⟩
  case unbalanced =>
    constructor
    · intro violates
      cases violates with
      | outside starts => exact .inl ⟨_, starts⟩
      | unclosed starts incomplete => exact .inr ⟨⟨_, starts⟩, incomplete⟩
    · rintro (⟨rest, starts⟩ | ⟨⟨rest, starts⟩, incomplete⟩)
      · exact .outside starts
      · exact .unclosed starts incomplete
  case trailing =>
    refine ⟨?_, fun ⟨form, extra, shape, more, complete⟩ => .trailing shape more complete⟩
    intro violates
    cases violates with
    | trailing shape more complete => exact ⟨_, _, shape, more, complete⟩
  case emptyForm =>
    refine ⟨?_, fun ⟨broken, before, stops⟩ => .emptyForm broken stops⟩
    intro violates
    cases violates with
    | emptyForm broken stops => exact ⟨broken, _, stops⟩
  case formHead =>
    refine ⟨?_, fun ⟨broken, before, stops⟩ => .formHead broken stops⟩
    intro violates
    cases violates with
    | formHead broken stops => exact ⟨broken, _, stops⟩
  case malformed =>
    refine fun lexeme =>
      ⟨?_, fun ⟨broken, ⟨before, stops⟩, refused⟩ => .malformed broken stops refused⟩
    intro violates
    cases violates with
    | malformed broken stops refused => exact ⟨broken, ⟨_, stops⟩, refused⟩
  case place =>
    intro broken
    obtain ⟨before, token, stops⟩ := broken.exists_stopsAt
    refine ⟨(before, token), stops, ?_⟩
    rintro ⟨before', token'⟩ stops'
    obtain ⟨rfl, rfl⟩ := stops'.unique stops
    rfl
  case never => exact fun piece => ⟨nofun, nofun⟩

/-- Neither the malformed number nor the missing ends count, because both come later. -/
example : read "(say () 9x (" = .error .emptyForm := by cbv

end FormLang.Source
