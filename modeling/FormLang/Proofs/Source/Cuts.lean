import FormLang.Proofs.Source.Lexemes
import Mathlib.Data.List.TakeWhile
import Mathlib.Data.Nat.Find

/-!
Contract: the cut of a text into gaps and tokens.

A gap is made of blanks and comments. A token is a parenthesis, or the longest lexeme that
the remaining text begins with. A cut takes a gap and a token off the text again and again,
until nothing but a gap is left.

Owns: gaps, longest lexemes and cuts, and the theorem that every text has exactly one cut and
that the scanner, which reads character by character, finds the tokens of that cut.
-/

set_option autoImplicit false

namespace FormLang.Source

/-! ## Gaps -/

/-- What is left of a text begins with the end of a line, or nothing is left. -/
def AtLineEnd (rest : List Char) : Prop :=
  rest = [] ∨ ∃ others, rest = '\n' :: others

/-- The characters in front of the rest of a text are blanks and comments. A comment runs
from a semicolon up to the end of its line. -/
inductive IsGap : List Char → List Char → Prop where
  | none (rest : List Char) : IsGap [] rest
  | blank {character : Char} {others rest : List Char} (blank : isBlank character = true)
      (gap : IsGap others rest) : IsGap (character :: others) rest
  | comment {content others rest : List Char} (inside : ∀ character ∈ content, character ≠ '\n')
      (ended : AtLineEnd (others ++ rest)) (gap : IsGap others rest) :
      IsGap (';' :: (content ++ others)) rest

/-- What is left of a text begins with a token, or nothing is left. -/
def BeginsToken (rest : List Char) : Prop :=
  ∀ character others, rest = character :: others → isBlank character = false ∧ character ≠ ';'

theorem beginsToken_cons {character : Char} (plain : endsWord character = false)
    (rest : List Char) : BeginsToken (character :: rest) := by
  rintro _ _ ⟨⟩
  simp only [endsWord, Bool.or_eq_false_iff, beq_eq_false_iff_ne] at plain
  exact plain.1.1

theorem scan_blank {character : Char} (blank : isBlank character = true) (rest : List Char) :
    scan .gap (character :: rest) = scan .gap rest := by
  have step : Mode.gap.step character = ([], .gap) := by simp [Mode.step, Mode.start, blank]
  rw [scan, step]
  rfl

theorem scan_comment {content : List Char} (inside : ∀ character ∈ content, character ≠ '\n')
    {rest : List Char} (ended : AtLineEnd rest) :
    scan .comment (content ++ rest) = scan .gap rest := by
  induction content with
  | nil =>
      obtain rfl | ⟨others, rfl⟩ := ended
      · rfl
      · rw [scan_blank rfl]
        rfl
  | cons first others inductionHypothesis =>
      obtain ⟨firstInside, othersInside⟩ := List.forall_mem_cons.mp inside
      have step : Mode.comment.step first = ([], .comment) := by simp [Mode.step, firstInside]
      rw [List.cons_append, scan, step]
      exact inductionHypothesis othersInside

/-- The scanner finds no token in a gap. -/
theorem scan_gap {gap rest : List Char} (isGap : IsGap gap rest) :
    scan .gap (gap ++ rest) = scan .gap rest := by
  induction isGap with
  | none rest => rfl
  | blank blank _ inductionHypothesis =>
      rw [List.cons_append, scan_blank blank, inductionHypothesis]
  | @comment content others rest inside ended _ inductionHypothesis =>
      have begins : scan .gap (';' :: (content ++ (others ++ rest))) =
          scan .comment (content ++ (others ++ rest)) := rfl
      rw [List.cons_append, List.append_assoc, begins, scan_comment inside ended,
        inductionHypothesis]

theorem takeWhile_line {content rest : List Char}
    (inside : ∀ character ∈ content, character ≠ '\n') (ended : AtLineEnd rest) :
    (content ++ rest).takeWhile (· != '\n') = content := by
  have insideLine : ∀ character ∈ content, (character != '\n') = true := by simpa using inside
  rw [List.takeWhile_append_of_pos insideLine]
  obtain rfl | ⟨others, rfl⟩ := ended <;> simp

/-- A gap reaches up to the next token, so the text determines it. -/
theorem IsGap.unique {gap gap' rest rest' : List Char} (isGap : IsGap gap rest)
    (isGap' : IsGap gap' rest') (begins : BeginsToken rest) (begins' : BeginsToken rest')
    (same : gap ++ rest = gap' ++ rest') : gap = gap' := by
  induction isGap generalizing gap' with
  | none rest =>
      cases isGap' with
      | none _ => rfl
      | blank blank _ =>
          have plain := (begins _ _ same).1
          rw [blank] at plain
          cases plain
      | comment _ _ _ => exact absurd rfl (begins _ _ same).2
  | blank blank _ inductionHypothesis =>
      cases isGap' with
      | none _ =>
          have plain := (begins' _ _ same.symm).1
          rw [blank] at plain
          cases plain
      | blank _ others' =>
          obtain ⟨rfl, behind⟩ := List.cons.inj same
          rw [inductionHypothesis others' begins behind]
      | comment _ _ _ =>
          obtain ⟨rfl, -⟩ := List.cons.inj same
          exact absurd blank (by decide)
  | @comment content others rest inside ended _ inductionHypothesis =>
      cases isGap' with
      | none _ => exact absurd rfl (begins' _ _ same.symm).2
      | blank blank _ =>
          obtain ⟨rfl, -⟩ := List.cons.inj same
          exact absurd blank (by decide)
      | @comment content' others' _ inside' ended' gap' =>
          have behind : content ++ (others ++ rest) = content' ++ (others' ++ rest') := by
            simpa using same
          have contents : content = content' := by
            rw [← takeWhile_line inside ended, behind, takeWhile_line inside' ended']
          rw [contents, List.append_cancel_left_eq] at behind
          rw [contents, inductionHypothesis gap' begins behind]

/-- Every text begins with a gap, up to a token or the end. -/
theorem exists_gap (characters : List Char) :
    ∃ gap rest, characters = gap ++ rest ∧ IsGap gap rest ∧ BeginsToken rest := by
  induction size : characters.length using Nat.strongRecOn generalizing characters with
  | ind size inductionHypothesis =>
      cases characters with
      | nil => exact ⟨[], [], rfl, .none [], by rintro _ _ ⟨⟩⟩
      | cons first others =>
          subst size
          by_cases blank : isBlank first = true
          · obtain ⟨gap, rest, rfl, isGap, begins⟩ :=
              inductionHypothesis others.length (Nat.lt_succ_self _) others rfl
            exact ⟨first :: gap, rest, rfl, .blank blank isGap, begins⟩
          · by_cases semicolon : first = ';'
            · -- The comment ends at a line feed, and the gap goes on behind it.
              have line : others = others.takeWhile (· != '\n') ++ others.dropWhile (· != '\n') :=
                List.takeWhile_append_dropWhile.symm
              have shorter : (others.dropWhile (· != '\n')).length < (first :: others).length :=
                Nat.lt_succ_of_le (List.length_dropWhile_le _ _)
              obtain ⟨gap, rest, behind, isGap, begins⟩ :=
                inductionHypothesis _ shorter (others.dropWhile (· != '\n')) rfl
              have inside : ∀ character ∈ others.takeWhile (· != '\n'), character ≠ '\n' := by
                intro character member
                simpa using List.mem_takeWhile_imp member
              have ended : AtLineEnd (others.dropWhile (· != '\n')) := by
                cases shape : others.dropWhile (· != '\n') with
                | nil => exact .inl rfl
                | cons next later =>
                    have stops := List.head?_dropWhile_not (· != '\n') others
                    rw [shape] at stops
                    have newline : next = '\n' := by simpa using stops
                    exact .inr ⟨later, by rw [newline]⟩
              rw [behind] at ended
              refine ⟨';' :: (others.takeWhile (· != '\n') ++ gap), rest, ?_,
                .comment inside ended isGap, begins⟩
              rw [List.cons_append, List.append_assoc, ← behind, ← line, semicolon]
            · refine ⟨[], first :: others, rfl, .none _, ?_⟩
              rintro _ _ ⟨⟩
              exact ⟨by simpa using blank, semicolon⟩

/-! ## Longest lexemes -/

/-- The lexeme is the longest one that the text begins with. -/
structure IsMunch (lexeme rest : List Char) : Prop where
  isLexeme : IsLexeme lexeme
  longest : ∀ longer, IsLexeme longer → longer <+: lexeme ++ rest →
    longer.length ≤ lexeme.length

/-- A lexeme with a quoted span that is closed. -/
def IsClosed (lexeme : List Char) : Prop :=
  ∃ word span, (∀ character ∈ word, isWordCharacter character = true) ∧
    (∀ character ∈ span, isSpanCharacter character = true) ∧
    lexeme = word ++ '"' :: (span ++ ['"'])

section Munches

variable {lexeme lexeme' rest rest' : List Char} {character : Char}

/-- A lexeme starts like no gap and no parenthesis. -/
theorem IsLexeme.exists_cons (isLexeme : IsLexeme lexeme) :
    ∃ first others, lexeme = first :: others ∧ endsWord first = false := by
  have front {word others : List Char}
      (plain : ∀ character ∈ word, isWordCharacter character = true) :
      ∃ first behind, word ++ '"' :: others = first :: behind ∧ endsWord first = false := by
    cases word with
    | nil => exact ⟨'"', others, rfl, rfl⟩
    | cons first behind =>
        exact ⟨first, _, rfl, (isWordCharacter_iff.mp (plain first List.mem_cons_self)).1⟩
  cases isLexeme with
  | word nonempty plain =>
      obtain ⟨first, others, rfl⟩ := List.exists_cons_of_ne_nil nonempty
      exact ⟨first, others, rfl, (isWordCharacter_iff.mp (plain first List.mem_cons_self)).1⟩
  | unclosed plain _ => exact front plain
  | closed plain _ => exact front plain

/-- The next character does not make a longer lexeme. -/
theorem IsMunch.not_isLexeme (munch : IsMunch lexeme (character :: rest)) :
    ¬ IsLexeme (lexeme ++ [character]) := by
  intro longer
  have begins : lexeme ++ [character] <+: lexeme ++ character :: rest :=
    ⟨rest, by simp⟩
  have bounded := munch.longest _ longer begins
  rw [List.length_append, List.length_singleton] at bounded
  omega

/-- A word goes on up to what ends it. -/
theorem endsWord_of_not_isLexeme {word : List Char}
    (plain : ∀ character ∈ word, isWordCharacter character = true)
    (stops : ¬ IsLexeme (word ++ [character])) : endsWord character = true := by
  by_contra goesOn
  apply stops
  by_cases quote : character = '"'
  · subst quote
    exact .unclosed plain fun _ member => absurd member List.not_mem_nil
  · have characterPlain : isWordCharacter character = true :=
      isWordCharacter_iff.mpr ⟨Bool.not_eq_true _ ▸ goesOn, quote⟩
    refine .word (by simp) fun other member => ?_
    rcases List.mem_append.mp member with old | new
    · exact plain other old
    · exact List.mem_singleton.mp new ▸ characterPlain

/-- An open span goes on up to what ends it. -/
theorem endsSpan_of_not_isLexeme {word span : List Char}
    (plain : ∀ character ∈ word, isWordCharacter character = true)
    (inside : ∀ character ∈ span, isSpanCharacter character = true)
    (stops : ¬ IsLexeme (word ++ '"' :: span ++ [character])) : endsSpan character = true := by
  by_contra goesOn
  apply stops
  rw [List.append_assoc, List.cons_append]
  by_cases quote : character = '"'
  · subst quote
    exact .closed plain inside
  · have characterInside : isSpanCharacter character = true :=
      isSpanCharacter_iff.mpr ⟨Bool.not_eq_true _ ▸ goesOn, quote⟩
    refine .unclosed plain fun other member => ?_
    rcases List.mem_append.mp member with old | new
    · exact inside other old
    · exact List.mem_singleton.mp new ▸ characterInside

/-- The scanner finds the longest lexeme. -/
theorem scan_munch (munch : IsMunch lexeme rest) :
    scan .gap (lexeme ++ rest) = .lexeme (String.ofList lexeme) :: scan .gap rest := by
  have isLexeme := munch.isLexeme
  cases isLexeme with
  | word nonempty plain =>
      rw [scan_gap_word nonempty plain, ← lexemeOf_reverse]
      cases rest with
      | nil => rfl
      | cons next others =>
          exact scan_word_end (endsWord_of_not_isLexeme plain munch.not_isLexeme) _ _
  | @unclosed word span plain inside =>
      rw [List.append_assoc, List.cons_append, scan_gap_quote plain, scan_span inside,
        ← lexemeOf_reverse, List.reverse_append, List.reverse_cons, List.append_assoc,
        List.singleton_append]
      cases rest with
      | nil => rfl
      | cons next others =>
          exact scan_span_end (endsSpan_of_not_isLexeme plain inside munch.not_isLexeme) _ _
  | @closed word span plain inside =>
      rw [List.append_assoc, List.cons_append, List.append_assoc, scan_gap_quote plain,
        scan_span inside, List.singleton_append, scan_span_close, ← lexemeOf_reverse]
      simp

/-- What follows the longest lexeme directly starts another one only behind a closing
quote. -/
theorem IsMunch.isClosed (munch : IsMunch lexeme (character :: rest))
    (plain : endsWord character = false) : IsClosed lexeme := by
  have stops := munch.not_isLexeme
  have isLexeme := munch.isLexeme
  cases isLexeme with
  | word _ inWord =>
      rw [endsWord_of_not_isLexeme inWord stops] at plain
      cases plain
  | unclosed inWord inside =>
      rw [endsWord_of_endsSpan (endsSpan_of_not_isLexeme inWord inside stops)] at plain
      cases plain
  | @closed word span inWord inside => exact ⟨word, span, inWord, inside, rfl⟩

open Classical in
/-- A text that begins like a lexeme begins with a longest one. -/
theorem exists_munch (plain : endsWord character = false) (others : List Char) :
    ∃ lexeme rest, character :: others = lexeme ++ rest ∧ IsMunch lexeme rest := by
  -- Among the lengths of the lexemes at the beginning, take the greatest.
  let begins (count : Nat) : Prop := IsLexeme ((character :: others).take count)
  let length := Nat.findGreatest begins (character :: others).length
  have one : begins 1 := by
    by_cases quote : character = '"'
    · subst quote
      have none : ∀ inClass : Char → Bool, ∀ character ∈ ([] : List Char),
          inClass character = true := fun _ _ member => absurd member List.not_mem_nil
      exact .unclosed (none isWordCharacter) (none isSpanCharacter)
    · refine .word (List.cons_ne_nil _ _) fun other member => ?_
      rw [List.mem_singleton.mp member]
      exact isWordCharacter_iff.mpr ⟨plain, quote⟩
  have isLexeme : begins length := Nat.findGreatest_spec (by simp) one
  have fits : length ≤ (character :: others).length := Nat.findGreatest_le _
  refine ⟨(character :: others).take length, (character :: others).drop length,
    (List.take_append_drop _ _).symm, isLexeme, fun longer longerIsLexeme inFront => ?_⟩
  rw [List.take_append_drop] at inFront
  have found : begins longer.length := by
    change IsLexeme _
    rw [← List.prefix_iff_eq_take.mp inFront]
    exact longerIsLexeme
  rw [List.length_take, Nat.min_eq_left fits]
  exact Nat.le_findGreatest inFront.length_le found

end Munches

/-! ## Cuts -/

/-- The text of the token, in front of the rest, is a token there: a parenthesis, or the
longest lexeme. -/
def Token.Fits : Token → List Char → Prop
  | .opening, _ => True
  | .closing, _ => True
  | .lexeme text, rest => IsMunch text.toList rest

/-- A text in parts: tokens, each one with what stands in front of it, and what stands
behind them. -/
inductive Cut where
  | last (gap : List Char)
  | next (gap : List Char) (token : Token) (others : Cut)

namespace Cut

def text : Cut → List Char
  | .last gap => gap
  | .next gap token others => gap ++ (token.text.toList ++ others.text)

/-- The tokens, each one with what stands in front of it. -/
def pieces : Cut → List (List Char × Token)
  | .last _ => []
  | .next gap token others => (gap, token) :: others.pieces

def tokens (cut : Cut) : List Token :=
  cut.pieces.map Prod.snd

/-- There are gaps between the tokens, and all tokens are as long as they can be. -/
def Proper : Cut → Prop
  | .last gap => IsGap gap []
  | .next gap token others =>
      IsGap gap (token.text.toList ++ others.text) ∧ token.Fits others.text ∧ others.Proper

end Cut

section Cuts

variable {token token' : Token} {rest rest' : List Char}

theorem Token.Fits.beginsToken (fits : token.Fits rest) :
    BeginsToken (token.text.toList ++ rest) := by
  cases token with
  | opening =>
      rintro _ _ ⟨⟩
      decide
  | closing =>
      rintro _ _ ⟨⟩
      decide
  | lexeme text =>
      obtain ⟨first, others, shape, plain⟩ := fits.isLexeme.exists_cons
      rw [Token.text, shape]
      exact beginsToken_cons plain _

theorem Token.Fits.length_pos (fits : token.Fits rest) : 0 < token.text.toList.length := by
  cases token with
  | opening => decide
  | closing => decide
  | lexeme text =>
      obtain ⟨first, others, shape, -⟩ := fits.isLexeme.exists_cons
      rw [Token.text, shape]
      exact Nat.succ_pos _

theorem scan_token (fits : token.Fits rest) :
    scan .gap (token.text.toList ++ rest) = token :: scan .gap rest := by
  cases token with
  | opening => rfl
  | closing => rfl
  | lexeme text =>
      rw [Token.text, scan_munch fits, String.ofList_toList]

theorem Token.Fits.unique (fits : token.Fits rest) (fits' : token'.Fits rest')
    (same : token.text.toList ++ rest = token'.text.toList ++ rest') :
    token = token' ∧ rest = rest' := by
  -- The scanner tells the tokens apart, and equal tokens leave the same behind.
  have tokens := congrArg (scan .gap) same
  rw [scan_token fits, scan_token fits'] at tokens
  obtain ⟨rfl, -⟩ := List.cons.inj tokens
  exact ⟨rfl, List.append_cancel_left same⟩

/-- The tokens of a cut are those that the scanner finds. -/
theorem Cut.Proper.tokens_eq {cut : Cut} (proper : cut.Proper) :
    cut.tokens = scan .gap cut.text := by
  induction cut with
  | last gap =>
      have found := scan_gap proper
      rw [List.append_nil] at found
      exact found.symm
  | next gap token others inductionHypothesis =>
      obtain ⟨isGap, fits, othersProper⟩ := proper
      rw [Cut.text, scan_gap isGap, scan_token fits, ← inductionHypothesis othersProper]
      rfl

/-- No text has two cuts. -/
theorem Cut.Proper.unique {cut cut' : Cut} (proper : cut.Proper) (proper' : cut'.Proper)
    (same : cut.text = cut'.text) : cut = cut' := by
  have ends : BeginsToken [] := by rintro _ _ ⟨⟩
  induction cut generalizing cut' with
  | last gap =>
      cases cut' with
      | last gap' => exact congrArg Cut.last same
      | next gap' token' others' =>
          have none := proper'.tokens_eq
          rw [← same, ← Cut.Proper.tokens_eq proper] at none
          cases none
  | next gap token others inductionHypothesis =>
      cases cut' with
      | last gap' =>
          have none := proper.tokens_eq
          rw [same, ← Cut.Proper.tokens_eq proper'] at none
          cases none
      | next gap' token' others' =>
          obtain ⟨isGap, fits, othersProper⟩ := proper
          obtain ⟨isGap', fits', othersProper'⟩ := proper'
          obtain rfl := isGap.unique isGap' fits.beginsToken fits'.beginsToken same
          obtain ⟨rfl, behind⟩ := fits.unique fits' (List.append_cancel_left same)
          rw [inductionHypothesis othersProper othersProper' behind]

/-- Every text has a cut. -/
theorem exists_cut (characters : List Char) : ∃ cut : Cut, cut.text = characters ∧ cut.Proper := by
  induction size : characters.length using Nat.strongRecOn generalizing characters with
  | ind count inductionHypothesis =>
      obtain ⟨gap, rest, rfl, isGap, begins⟩ := exists_gap characters
      -- A token in front of the rest leaves less of the text to be cut.
      have goOn (token : Token) (others : List Char) (front : rest = token.text.toList ++ others)
          (fits : token.Fits others) : ∃ cut : Cut, cut.text = gap ++ rest ∧ cut.Proper := by
        have shorter : others.length < count := by
          have nonempty := fits.length_pos
          rw [← size, front, List.length_append, List.length_append]
          omega
        obtain ⟨cut, rfl, proper⟩ := inductionHypothesis _ shorter others rfl
        rw [front] at isGap
        exact ⟨.next gap token cut, by rw [Cut.text, front], isGap, fits, proper⟩
      cases rest with
      | nil => exact ⟨.last gap, (List.append_nil gap).symm, isGap⟩
      | cons first others =>
          obtain ⟨notBlank, noComment⟩ := begins first others rfl
          by_cases opening : first = '('
          · exact goOn .opening others (by rw [opening]; rfl) trivial
          · by_cases closing : first = ')'
            · exact goOn .closing others (by rw [closing]; rfl) trivial
            · have plain : endsWord first = false := by
                simp [endsWord, notBlank, noComment, opening, closing]
              obtain ⟨lexeme, behind, front, munch⟩ := exists_munch plain others
              refine goOn (.lexeme (String.ofList lexeme)) behind ?_ ?_
              · rw [Token.text, String.toList_ofList, front]
              · rw [Token.Fits, String.toList_ofList]
                exact munch

/-- Lexemes without a gap between them touch at a closing quote. -/
theorem Cut.Proper.touching {cut : Cut} (proper : cut.Proper)
    {before behind : List (List Char × Token)} {gap : List Char} {first second : String}
    (touch : cut.pieces = before ++ (gap, .lexeme first) :: ([], .lexeme second) :: behind) :
    IsClosed first.toList := by
  induction cut generalizing before with
  | last _ => simp [Cut.pieces] at touch
  | next front token others inductionHypothesis =>
      obtain ⟨-, fits, othersProper⟩ := proper
      cases before with
      | cons earlier before =>
          exact inductionHypothesis othersProper (List.cons.inj touch).2
      | nil =>
          obtain ⟨here, next⟩ := List.cons.inj touch
          cases here
          cases others with
          | last _ => cases next
          | next gap' token' others' =>
              obtain ⟨here', -⟩ := List.cons.inj next
              cases here'
              obtain ⟨-, fits', -⟩ := othersProper
              obtain ⟨start, tail, shape, plain⟩ := IsLexeme.exists_cons fits'.isLexeme
              have munch : IsMunch first.toList (start :: (tail ++ others'.text)) := by
                have whole := fits
                rw [Token.Fits, Cut.text, Token.text, shape] at whole
                exact whole
              exact munch.isClosed plain

end Cuts

/-- The scanner loses nothing and finds the longest lexemes. Every text is cut into tokens
with gaps of blanks and comments around them, where each token is a parenthesis or the longest
lexeme that is left in front. There is one such cut, and its tokens are those that reading
character by character finds. Only behind a closing quote can a lexeme follow another one
without a gap. -/
theorem tokenize_cut (source : String) :
    ∃ cut : Cut, (cut.text = source.toList ∧ cut.Proper) ∧ cut.tokens = tokenize source ∧
      (∀ before behind gap first second,
        cut.pieces = before ++ (gap, .lexeme first) :: ([], .lexeme second) :: behind →
        IsClosed first.toList) ∧
      ∀ other : Cut, other.text = source.toList → other.Proper → other = cut := by
  obtain ⟨cut, text, proper⟩ := exists_cut source.toList
  refine ⟨cut, ⟨text, proper⟩, ?_, ?_, ?_⟩
  · rw [proper.tokens_eq, text]
    rfl
  · intro before behind gap first second touch
    exact proper.touching touch
  · intro other otherText otherProper
    exact otherProper.unique proper (otherText.trans text.symm)

end FormLang.Source
