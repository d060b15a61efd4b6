import FormLang.Proofs.Source.Cuts

/-!
Contract: texts on either side of a line feed.

No lexeme holds a line feed, and a comment ends in front of one as it does at the end of a text.
So a line feed between two texts belongs to the gap between them, and everything else in the
texts stays as it was: every longest lexeme and every gap.

Owns: how a gap, a longest lexeme and a cut of a text carry over to the text with a line feed
and more behind it, and that the tokens of the texts on both sides do not depend on each other.
-/

set_option autoImplicit false

namespace FormLang.Source

section Carrying

variable {gap gap' lexeme rest : List Char} {token : Token}

/-! ## Gaps -/

/-- Where a line ends, it also ends with a line feed and more behind the text. -/
theorem AtLineEnd.newline (ended : AtLineEnd rest) (more : List Char) :
    AtLineEnd (rest ++ '\n' :: more) := by
  obtain rfl | ⟨others, rfl⟩ := ended
  · exact .inr ⟨more, rfl⟩
  · exact .inr ⟨others ++ '\n' :: more, rfl⟩

theorem IsGap.newline (isGap : IsGap gap rest) (more : List Char) :
    IsGap gap (rest ++ '\n' :: more) := by
  induction isGap with
  | none rest => exact .none _
  | blank blank _ inductionHypothesis => exact .blank blank inductionHypothesis
  | comment inside ended _ inductionHypothesis =>
      refine .comment inside ?_ inductionHypothesis
      rw [← List.append_assoc]
      exact ended.newline more

/-- Two gaps in a row are a gap. -/
theorem IsGap.append (isGap : IsGap gap (gap' ++ rest)) (isGap' : IsGap gap' rest) :
    IsGap (gap ++ gap') rest := by
  generalize behind : gap' ++ rest = whole at isGap
  induction isGap with
  | none _ => exact isGap'
  | blank blank _ inductionHypothesis => exact .blank blank (inductionHypothesis behind)
  | comment inside ended _ inductionHypothesis =>
      subst behind
      rw [List.cons_append, List.append_assoc]
      refine .comment inside ?_ (inductionHypothesis rfl)
      rwa [List.append_assoc]

/-! ## Longest lexemes -/

theorem IsLexeme.no_newline (isLexeme : IsLexeme lexeme) : '\n' ∉ lexeme := by
  have noneInWord {word : List Char}
      (plain : ∀ character ∈ word, isWordCharacter character = true) : '\n' ∉ word :=
    fun member => absurd (plain _ member) (by decide)
  have noneInSpan {span : List Char}
      (inside : ∀ character ∈ span, isSpanCharacter character = true) : '\n' ∉ span :=
    fun member => absurd (inside _ member) (by decide)
  cases isLexeme with
  | word _ plain => exact noneInWord plain
  | unclosed plain inside => simp [noneInWord plain, noneInSpan inside]
  | closed plain inside => simp [noneInWord plain, noneInSpan inside]

/-- What a text begins with does not reach beyond a character that it does not hold. -/
theorem prefix_front {front more longer : List Char} {character : Char}
    (absent : character ∉ longer) (begins : longer <+: front ++ character :: more) :
    longer <+: front := by
  rcases List.prefix_or_prefix_of_prefix begins (List.prefix_append front _) with
    within | ⟨behind, rfl⟩
  · exact within
  · rw [List.prefix_append_right_inj] at begins
    cases behind with
    | nil => exact ⟨[], by simp⟩
    | cons first others =>
        obtain ⟨rfl, -⟩ := List.cons_prefix_cons.mp begins
        simp at absent

/-- No longer lexeme goes over a line feed. -/
theorem IsMunch.newline (munch : IsMunch lexeme rest) (more : List Char) :
    IsMunch lexeme (rest ++ '\n' :: more) where
  isLexeme := munch.isLexeme
  longest longer isLexeme begins := by
    rw [← List.append_assoc] at begins
    exact munch.longest longer isLexeme (prefix_front isLexeme.no_newline begins)

theorem Token.Fits.newline (fits : token.Fits rest) (more : List Char) :
    token.Fits (rest ++ '\n' :: more) := by
  cases token with
  | opening => trivial
  | closing => trivial
  | lexeme text => exact IsMunch.newline fits more

end Carrying

/-! ## Cuts -/

namespace Cut

/-- The cut with more of a gap in front. -/
def behind (gap : List Char) : Cut → Cut
  | .last gap' => .last (gap ++ gap')
  | .next gap' token others => .next (gap ++ gap') token others

/-- The parts of two texts with a line feed between them. It belongs to the gap behind the last
token of the first one. -/
def joinLines : Cut → Cut → Cut
  | .last gap, second => second.behind (gap ++ ['\n'])
  | .next gap token others, second => .next gap token (others.joinLines second)

theorem text_behind (gap : List Char) (cut : Cut) : (cut.behind gap).text = gap ++ cut.text := by
  cases cut <;> simp [behind, text]

theorem tokens_behind (gap : List Char) (cut : Cut) : (cut.behind gap).tokens = cut.tokens := by
  cases cut <;> rfl

theorem text_joinLines (first second : Cut) :
    (first.joinLines second).text = first.text ++ '\n' :: second.text := by
  induction first with
  | last gap => simp [joinLines, text_behind, text]
  | next gap token others inductionHypothesis =>
      simp [joinLines, text, inductionHypothesis]

theorem tokens_joinLines (first second : Cut) :
    (first.joinLines second).tokens = first.tokens ++ second.tokens := by
  induction first with
  | last gap => exact tokens_behind _ second
  | next gap token others inductionHypothesis =>
      exact congrArg (token :: ·) inductionHypothesis

theorem Proper.behind {gap : List Char} {cut : Cut} (proper : cut.Proper)
    (isGap : IsGap gap cut.text) : (cut.behind gap).Proper := by
  cases cut with
  | last gap' =>
      rw [text, ← List.append_nil gap'] at isGap
      exact isGap.append proper
  | next gap' token others =>
      obtain ⟨isGap', fits, othersProper⟩ := proper
      exact ⟨isGap.append isGap', fits, othersProper⟩

/-- Behind a line feed, and in front of one, tokens and gaps are those of the text alone. -/
theorem Proper.joinLines {first second : Cut} (proper : first.Proper)
    (secondProper : second.Proper) : (first.joinLines second).Proper := by
  induction first with
  | last gap =>
      have ends : IsGap gap ('\n' :: second.text) := IsGap.newline proper second.text
      have feed : IsGap ['\n'] second.text := .blank rfl (.none _)
      exact secondProper.behind (ends.append feed)
  | next gap token others inductionHypothesis =>
      obtain ⟨isGap, fits, othersProper⟩ := proper
      refine ⟨?_, ?_, inductionHypothesis othersProper⟩
      · rw [text_joinLines, ← List.append_assoc]
        exact isGap.newline second.text
      · rw [text_joinLines]
        exact fits.newline second.text

end Cut

/-- A line feed keeps the tokens of the texts on both sides apart. Whatever the text in front of
it ends in, be it an open span, a comment, a word or blanks, and whatever the text behind it
starts with, the tokens are those of the one and then those of the other. The cut of the whole
into gaps and longest lexemes is that of the one joined with that of the other. -/
theorem tokenize_newline (front behind : String) :
    tokenize (front ++ "\n" ++ behind) = tokenize front ++ tokenize behind ∧
    ∃ first second : Cut, (first.text = front.toList ∧ first.Proper) ∧
      (second.text = behind.toList ∧ second.Proper) ∧
      (first.joinLines second).text = (front ++ "\n" ++ behind).toList ∧
      (first.joinLines second).Proper := by
  obtain ⟨first, frontText, proper⟩ := exists_cut front.toList
  obtain ⟨second, behindText, secondProper⟩ := exists_cut behind.toList
  have joined := proper.joinLines secondProper
  have joinedText : (first.joinLines second).text = (front ++ "\n" ++ behind).toList := by
    rw [Cut.text_joinLines, frontText, behindText]
    simp
  refine ⟨?_, first, second, ⟨frontText, proper⟩, ⟨behindText, secondProper⟩, joinedText, joined⟩
  calc
    tokenize (front ++ "\n" ++ behind) = (first.joinLines second).tokens := by
      rw [tokenize, ← joinedText, joined.tokens_eq]
    _ = first.tokens ++ second.tokens := Cut.tokens_joinLines first second
    _ = tokenize front ++ tokenize behind := by
      rw [proper.tokens_eq, secondProper.tokens_eq, frontText, behindText, tokenize, tokenize]

end FormLang.Source
