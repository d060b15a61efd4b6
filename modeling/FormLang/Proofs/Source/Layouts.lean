import FormLang.Proofs.Source.LineBreaks
import FormLang.Proofs.Source.Lines
import Mathlib.Data.List.Basic

/-!
Contract: tokens that are written out again.

A lexeme that the scanner has found may go on behind a space, and may be joined with what follows
it directly. But it never goes on behind a line feed. So tokens that stand on lines of their own
are found as they are, whatever blanks and comments stand between the lines.

Owns: the gaps that keep any two tokens apart, layouts of tokens with such gaps, and the theorem
that the tokens of a text, in any of these layouts, are found again.
-/

set_option autoImplicit false

namespace FormLang.Source

/-! ## Gaps that keep tokens apart -/

/-- Blanks and comments. Every comment is ended by a line feed. -/
inductive IsSpacing : List Char → Prop where
  | none : IsSpacing []
  | blank {character : Char} {others : List Char} (blank : isBlank character = true)
      (spacing : IsSpacing others) : IsSpacing (character :: others)
  | comment {content others : List Char} (inside : ∀ character ∈ content, character ≠ '\n')
      (spacing : IsSpacing others) : IsSpacing (';' :: (content ++ '\n' :: others))

/-- A line feed, and any spacing behind it. -/
def IsLineGap (gap : List Char) : Prop :=
  ∃ spacing, gap = '\n' :: spacing ∧ IsSpacing spacing

section Gaps

variable {gap : List Char}

/-- Spacing is a gap in front of anything. -/
theorem IsSpacing.isGap (spacing : IsSpacing gap) (rest : List Char) : IsGap gap rest := by
  induction spacing with
  | none => exact .none rest
  | blank blank _ inductionHypothesis => exact .blank blank inductionHypothesis
  | @comment content others inside _ inductionHypothesis =>
      have feed : IsGap ('\n' :: others) rest := .blank rfl inductionHypothesis
      exact .comment inside (.inr ⟨others ++ rest, rfl⟩) feed

theorem IsLineGap.isSpacing (lineGap : IsLineGap gap) : IsSpacing gap := by
  obtain ⟨spacing, rfl, isSpacing⟩ := lineGap
  exact .blank rfl isSpacing

theorem IsLineGap.atLineEnd (lineGap : IsLineGap gap) (rest : List Char) :
    AtLineEnd (gap ++ rest) := by
  obtain ⟨spacing, rfl, -⟩ := lineGap
  exact .inr ⟨spacing ++ rest, rfl⟩

end Gaps

/-! ## Tokens at the end of a line -/

section Tokens

variable {lexeme rest : List Char} {token : Token} {source : String}

/-- At the end of a line, every lexeme is the longest one. -/
theorem IsLexeme.isMunch (isLexeme : IsLexeme lexeme) (ended : AtLineEnd rest) :
    IsMunch lexeme rest where
  isLexeme := isLexeme
  longest longer longerIsLexeme begins := by
    have within : longer <+: lexeme := by
      obtain rfl | ⟨others, rfl⟩ := ended
      · simpa using begins
      · exact prefix_front longerIsLexeme.no_newline begins
    exact within.length_le

/-- Every token of a text is a token at the end of a line. -/
theorem Token.fits_of_mem (member : token ∈ tokenize source) (ended : AtLineEnd rest) :
    token.Fits rest := by
  cases token with
  | opening => trivial
  | closing => trivial
  | lexeme text => exact (tokenize_lexemes member).isMunch ended

/-- Every token of a text is found again where it stands alone. -/
theorem tokenize_text_of_mem (member : token ∈ tokenize source) : tokenize token.text = [token] := by
  have alone := scan_token (Token.fits_of_mem member (.inl rfl))
  rw [List.append_nil] at alone
  exact alone

end Tokens

/-! ## Layouts -/

namespace Cut

/-- In front of every token, and of the end if it stands apart from the last one, there is a gap
that begins with a line feed. -/
def LineByLine : Cut → Prop
  | .last gap => gap = [] ∨ IsLineGap gap
  | .next gap _ others => IsLineGap gap ∧ others.LineByLine

/-- The first token stands behind spacing, and all others on lines of their own. -/
def IsLayout : Cut → Prop
  | .last gap => IsSpacing gap
  | .next gap _ others => IsSpacing gap ∧ others.LineByLine

variable {cut : Cut} {source : String}

theorem LineByLine.isLayout (lines : cut.LineByLine) : cut.IsLayout := by
  cases cut with
  | last gap =>
      obtain rfl | lineGap := lines
      · exact .none
      · exact lineGap.isSpacing
  | next gap token others => exact ⟨lines.1.isSpacing, lines.2⟩

/-- What stands in front of further lines ends with its line. -/
theorem LineByLine.atLineEnd (lines : cut.LineByLine) : AtLineEnd cut.text := by
  cases cut with
  | last gap =>
      obtain rfl | lineGap := lines
      · exact .inl rfl
      · exact List.append_nil gap ▸ lineGap.atLineEnd []
  | next gap token others => exact lines.1.atLineEnd _

/-- In a layout of tokens of a text, the spacing makes up the gaps, and the tokens are as long as
they can be. -/
theorem IsLayout.proper (layout : cut.IsLayout)
    (known : ∀ token ∈ cut.tokens, token ∈ tokenize source) : cut.Proper := by
  induction cut with
  | last gap => exact IsSpacing.isGap layout []
  | next gap token others inductionHypothesis =>
      obtain ⟨spacing, lines⟩ := layout
      have first : token ∈ tokenize source := known token List.mem_cons_self
      have further : others.Proper :=
        inductionHypothesis lines.isLayout fun other member =>
          known other (List.mem_cons_of_mem token member)
      exact ⟨spacing.isGap _, Token.fits_of_mem first lines.atLineEnd, further⟩

end Cut

/-- Tokens that are written out are found again. The tokens of a text, joined by single line feeds,
make a text with just these tokens. So does any layout of them in which each gap between two tokens
begins with a line feed, whatever blanks and comments follow in it, if every comment is ended by a
line feed. The tokens and gaps of the layout are its cut into gaps and longest lexemes. -/
theorem tokenize_written (source : String) :
    tokenize (String.intercalate "\n" ((tokenize source).map Token.text)) = tokenize source ∧
    ∀ cut : Cut, cut.tokens = tokenize source → cut.IsLayout →
      tokenize (String.ofList cut.text) = tokenize source ∧ cut.Proper := by
  constructor
  · rw [tokenize_lines, List.flatMap_map]
    calc
      (tokenize source).flatMap (fun token => tokenize token.text)
          = (tokenize source).flatMap fun token => [token] :=
        List.flatMap_congr fun _ member => tokenize_text_of_mem member
      _ = tokenize source := List.flatMap_singleton' _
  · intro cut tokens layout
    have proper : cut.Proper := layout.proper fun token member => tokens ▸ member
    refine ⟨?_, proper⟩
    rw [tokenize, String.toList_ofList, ← proper.tokens_eq, tokens]

/-- The tokens of `"a (b"c"d`, with a comment behind the open span, and nothing but a line feed
behind the closed one. -/
def spansApart : Cut :=
  .next [] (.lexeme "\"a ") (.next ('\n' :: ';' :: (['('] ++ '\n' :: [])) .opening
    (.next ['\n', '\t'] (.lexeme "b\"c\"") (.next ['\n'] (.lexeme "d") (.last []))))

theorem spansApart_found_again :
    spansApart.tokens = tokenize "\"a (b\"c\"d" ∧ spansApart.IsLayout ∧
      tokenize (String.ofList spansApart.text) = tokenize "\"a (b\"c\"d" := by
  have tokens : spansApart.tokens = tokenize "\"a (b\"c\"d" := by decide +kernel
  have layout : spansApart.IsLayout := by
    have comment : IsSpacing (';' :: (['('] ++ '\n' :: [])) := .comment (by simp) .none
    exact ⟨.none, ⟨_, rfl, comment⟩, ⟨_, rfl, .blank rfl .none⟩, ⟨_, rfl, .none⟩, .inl rfl⟩
  exact ⟨tokens, layout, ((tokenize_written "\"a (b\"c\"d").2 spansApart tokens layout).1⟩

/-- A space does not keep tokens apart: an open span takes it in. -/
example : tokenize "\"a(" = [.lexeme "\"a", .opening] ∧
    tokenize "\"a (" = [.lexeme "\"a ", .opening] := by
  decide +kernel

end FormLang.Source
