import FormLang.Source.Reader

/-!
Contract: what an error of the reader quotes from the text.

Owns: the piece of text that an error quotes, and that it is a lexeme of the text.
-/

set_option autoImplicit false

namespace FormLang

/-- The piece of text that the message of an error quotes, if it quotes one. -/
def SyntaxError.quoted? : SyntaxError → Option String
  | .bareAtom lexeme => some lexeme
  | .malformedNumber lexeme => some lexeme
  | .invalidToken piece => some piece
  | .unreadable reason => some reason
  | _ => none

namespace Source

variable {error : SyntaxError} {quoted : String}

theorem classify_eq_error {text : String} (refused : classify text = .error error) :
    error = .malformedNumber text := by
  unfold classify at refused
  split at refused
  · cases refused
  · split at refused
    · cases refused
      rfl
    · split at refused <;> cases refused

/-- Wherever reading goes on, an error quotes a lexeme that was still to be read. -/
theorem readHead_readTail_quotes (names : error.quoted? = some quoted) (tokens : List Token) :
    (∀ {outer}, readHead outer tokens = .error error → .lexeme quoted ∈ tokens) ∧
      (∀ {form outer}, readTail form outer tokens = .error error → .lexeme quoted ∈ tokens) := by
  induction tokens with
  | nil =>
      constructor
      · intro outer refused
        cases refused
        cases names
      · intro form outer refused
        cases refused
        cases names
  | cons token rest inductionHypothesis =>
      obtain ⟨headOfRest, tailOfRest⟩ := inductionHypothesis
      constructor
      · intro outer refused
        cases token with
        | opening =>
            cases refused
            cases names
        | closing =>
            cases refused
            cases names
        | lexeme text =>
            rw [readHead] at refused
            cases classified : classify text with
            | error other =>
                rw [classified] at refused
                cases refused
                cases classify_eq_error classified
                cases names
                exact List.mem_cons_self
            | ok head =>
                rw [classified] at refused
                exact List.mem_cons_of_mem _ (tailOfRest refused)
      · intro form outer refused
        cases token with
        | opening => exact List.mem_cons_of_mem _ (headOfRest refused)
        | lexeme text =>
            rw [readTail] at refused
            cases classified : classify text with
            | error other =>
                rw [classified] at refused
                cases refused
                cases classify_eq_error classified
                cases names
                exact List.mem_cons_self
            | ok atom =>
                rw [classified] at refused
                exact List.mem_cons_of_mem _ (tailOfRest refused)
        | closing =>
            cases outer with
            | nil =>
                rw [readTail] at refused
                split at refused
                · cases refused
                · cases refused
                  cases names
            | cons parent outer => exact List.mem_cons_of_mem _ (tailOfRest refused)

/-- What an error quotes is a lexeme of the text. -/
theorem read_quotes {text : String} (names : error.quoted? = some quoted)
    (refused : Source.read text = .error error) : .lexeme quoted ∈ tokenize text := by
  unfold Source.read at refused
  revert refused
  cases tokenize text with
  | nil =>
      intro refused
      cases refused
      cases names
  | cons token rest =>
      intro refused
      cases token with
      | opening =>
          exact List.mem_cons_of_mem _ ((readHead_readTail_quotes names rest).1 refused)
      | closing =>
          cases refused
          cases names
      | lexeme text =>
          cases refused
          cases names
          exact List.mem_cons_self

end Source

end FormLang
