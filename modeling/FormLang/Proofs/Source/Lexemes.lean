import FormLang.Source.Scan
import Mathlib.Tactic.ByContra
import Mathlib.Tactic.SplitIfs

/-!
Contract: the lexemes of a text.

A lexeme is a word, or an optional word and a quoted span, which a second quote closes or
which is left unclosed. So it has no quote, two or one. Only an unclosed span takes in a
space that stands behind it.

Owns: the characters of words and spans, the shapes of lexemes, that the scanner finds no
other lexemes, and that it finds a lexeme that is followed by a parenthesis or by a space
and a parenthesis.
-/

set_option autoImplicit false

namespace FormLang.Source

/-- A character of a word. -/
def isWordCharacter (character : Char) : Bool :=
  !endsWord character && character != '"'

/-- A character between the quotes of a span. -/
def isSpanCharacter (character : Char) : Bool :=
  !endsSpan character && character != '"'

/-- The characters are those of a lexeme. -/
inductive IsLexeme : List Char → Prop where
  | word {word : List Char} (nonempty : word ≠ [])
      (plain : ∀ character ∈ word, isWordCharacter character = true) : IsLexeme word
  | unclosed {word span : List Char}
      (plain : ∀ character ∈ word, isWordCharacter character = true)
      (inside : ∀ character ∈ span, isSpanCharacter character = true) :
      IsLexeme (word ++ '"' :: span)
  | closed {word span : List Char}
      (plain : ∀ character ∈ word, isWordCharacter character = true)
      (inside : ∀ character ∈ span, isSpanCharacter character = true) :
      IsLexeme (word ++ '"' :: (span ++ ['"']))

section Characters

variable {character : Char} {characters : List Char}

theorem isWordCharacter_iff :
    isWordCharacter character = true ↔ endsWord character = false ∧ character ≠ '"' := by
  simp [isWordCharacter]

theorem isSpanCharacter_iff :
    isSpanCharacter character = true ↔ endsSpan character = false ∧ character ≠ '"' := by
  simp [isSpanCharacter]

/-- What ends a span ends a word. -/
theorem endsWord_of_endsSpan (ends : endsSpan character = true) : endsWord character = true := by
  simp only [endsSpan, endsWord, isBlank, Bool.or_eq_true] at ends ⊢
  obtain ((breaks | comment) | opening) | closing := ends
  · exact .inl (.inl (.inl (.inr breaks)))
  · exact .inl (.inl (.inr comment))
  · exact .inl (.inr opening)
  · exact .inr closing

theorem start_eq_word (plain : isWordCharacter character = true) :
    Mode.start character = ([], .word [character]) := by
  obtain ⟨inside, noQuote⟩ := isWordCharacter_iff.mp plain
  simp only [endsWord, Bool.or_eq_false_iff, beq_eq_false_iff_ne] at inside
  obtain ⟨⟨⟨blank, comment⟩, opening⟩, closing⟩ := inside
  simp [Mode.start, blank, comment, opening, closing, noQuote]

theorem count_quote_word (plain : ∀ character ∈ characters, isWordCharacter character = true) :
    characters.count '"' = 0 :=
  List.count_eq_zero.mpr fun member => (isWordCharacter_iff.mp (plain _ member)).2 rfl

theorem count_quote_span (inside : ∀ character ∈ characters, isSpanCharacter character = true) :
    characters.count '"' = 0 :=
  List.count_eq_zero.mpr fun member => (isSpanCharacter_iff.mp (inside _ member)).2 rfl

end Characters

/-! ## Scanning a lexeme -/

variable {word span reversed characters : List Char} {character : Char}

theorem scan_word (plain : ∀ character ∈ word, isWordCharacter character = true)
    (reversed rest : List Char) :
    scan (.word reversed) (word ++ rest) = scan (.word (word.reverse ++ reversed)) rest := by
  induction word generalizing reversed with
  | nil => rfl
  | cons first others inductionHypothesis =>
      obtain ⟨firstPlain, othersPlain⟩ := List.forall_mem_cons.mp plain
      obtain ⟨inside, noQuote⟩ := isWordCharacter_iff.mp firstPlain
      have step : (Mode.word reversed).step first = ([], .word (first :: reversed)) := by
        simp [Mode.step, inside, noQuote]
      rw [List.cons_append, scan, step]
      simpa using inductionHypothesis othersPlain (first :: reversed)

theorem scan_span (inside : ∀ character ∈ span, isSpanCharacter character = true)
    (reversed rest : List Char) :
    scan (.span reversed) (span ++ rest) = scan (.span (span.reverse ++ reversed)) rest := by
  induction span generalizing reversed with
  | nil => rfl
  | cons first others inductionHypothesis =>
      obtain ⟨firstInside, othersInside⟩ := List.forall_mem_cons.mp inside
      obtain ⟨within, noQuote⟩ := isSpanCharacter_iff.mp firstInside
      have step : (Mode.span reversed).step first = ([], .span (first :: reversed)) := by
        simp [Mode.step, within, noQuote]
      rw [List.cons_append, scan, step]
      simpa using inductionHypothesis othersInside (first :: reversed)

theorem scan_gap_word (nonempty : word ≠ [])
    (plain : ∀ character ∈ word, isWordCharacter character = true) (rest : List Char) :
    scan .gap (word ++ rest) = scan (.word word.reverse) rest := by
  cases word with
  | nil => exact absurd rfl nonempty
  | cons first others =>
      obtain ⟨firstPlain, othersPlain⟩ := List.forall_mem_cons.mp plain
      have step : Mode.gap.step first = ([], .word [first]) := start_eq_word firstPlain
      rw [List.cons_append, scan, step, List.reverse_cons]
      exact scan_word othersPlain [first] rest

theorem scan_gap_quote (plain : ∀ character ∈ word, isWordCharacter character = true)
    (rest : List Char) :
    scan .gap (word ++ '"' :: rest) = scan (.span ('"' :: word.reverse)) rest := by
  by_cases empty : word = []
  · subst empty
    rfl
  · rw [scan_gap_word empty plain]
    rfl

theorem scan_word_end (ends : endsWord character = true) (reversed rest : List Char) :
    scan (.word reversed) (character :: rest) =
      lexemeOf reversed :: scan .gap (character :: rest) := by
  have step : (Mode.word reversed).step character =
      (lexemeOf reversed :: (Mode.start character).1, (Mode.start character).2) := by
    simp [Mode.step, ends]
  rw [scan, step]
  rfl

theorem scan_span_end (ends : endsSpan character = true) (reversed rest : List Char) :
    scan (.span reversed) (character :: rest) =
      lexemeOf reversed :: scan .gap (character :: rest) := by
  have step : (Mode.span reversed).step character =
      (lexemeOf reversed :: (Mode.start character).1, (Mode.start character).2) := by
    simp [Mode.step, ends]
  rw [scan, step]
  rfl

theorem scan_span_close (reversed rest : List Char) :
    scan (.span reversed) ('"' :: rest) = lexemeOf ('"' :: reversed) :: scan .gap rest := rfl

theorem lexemeOf_reverse (characters : List Char) :
    lexemeOf characters.reverse = .lexeme (String.ofList characters) := by
  rw [lexemeOf, List.reverse_reverse]

/-- A lexeme ends in front of a parenthesis. -/
theorem scan_lexeme (isLexeme : IsLexeme characters) (ends : endsSpan character = true)
    (rest : List Char) :
    scan .gap (characters ++ character :: rest) =
      .lexeme (String.ofList characters) :: scan .gap (character :: rest) := by
  cases isLexeme with
  | word nonempty plain =>
      rw [scan_gap_word nonempty plain, scan_word_end (endsWord_of_endsSpan ends),
        lexemeOf_reverse]
  | @unclosed word span plain inside =>
      rw [List.append_assoc, List.cons_append, scan_gap_quote plain, scan_span inside,
        scan_span_end ends, ← lexemeOf_reverse]
      simp
  | @closed word span plain inside =>
      rw [List.append_assoc, List.cons_append, List.append_assoc, scan_gap_quote plain,
        scan_span inside, List.singleton_append, scan_span_close, ← lexemeOf_reverse]
      simp

/-- A lexeme as it is found in front of a space: an unclosed span takes the space in. -/
def withSpace (characters : List Char) : List Char :=
  if characters.count '"' = 1 then characters ++ [' '] else characters

/-- A lexeme ends behind a space or in front of it. -/
theorem scan_lexeme_space (isLexeme : IsLexeme characters) (ends : endsSpan character = true)
    (rest : List Char) :
    scan .gap (characters ++ ' ' :: character :: rest) =
      .lexeme (String.ofList (withSpace characters)) :: scan .gap (character :: rest) := by
  cases isLexeme with
  | word nonempty plain =>
      have blank : endsWord ' ' = true := rfl
      rw [scan_gap_word nonempty plain, scan_word_end blank, lexemeOf_reverse, withSpace,
        count_quote_word plain]
      rfl
  | @unclosed word span plain inside =>
      have longer : IsLexeme (word ++ '"' :: (span ++ [' '])) := by
        refine .unclosed plain fun other member => ?_
        rcases List.mem_append.mp member with old | new
        · exact inside other old
        · rw [List.mem_singleton.mp new]
          rfl
      have one : (word ++ '"' :: span).count '"' = 1 := by
        simp [List.count_append, count_quote_word plain, count_quote_span inside]
      have found := scan_lexeme longer ends rest
      rw [withSpace, if_pos one]
      simpa using found
  | @closed word span plain inside =>
      have two : (word ++ '"' :: (span ++ ['"'])).count '"' = 2 := by
        simp [List.count_append, count_quote_word plain, count_quote_span inside]
      rw [List.append_assoc, List.cons_append, List.append_assoc, scan_gap_quote plain,
        scan_span inside, List.singleton_append, scan_span_close, withSpace, two,
        ← lexemeOf_reverse]
      simp
      rfl

/-! ## The lexemes that are found -/

/-- What has been read of a lexeme can begin one. -/
def Mode.Sound : Mode → Prop
  | .gap => True
  | .comment => True
  | .word reversed => reversed ≠ [] ∧ ∀ character ∈ reversed, isWordCharacter character = true
  | .span reversed => ∃ word span, reversed.reverse = word ++ '"' :: span ∧
      (∀ character ∈ word, isWordCharacter character = true) ∧
      ∀ character ∈ span, isSpanCharacter character = true

theorem Mode.Sound.pending {mode : Mode} (sound : mode.Sound) {text : String}
    (member : .lexeme text ∈ mode.pending) : IsLexeme text.toList := by
  cases mode with
  | gap => cases member
  | comment => cases member
  | word reversed =>
      obtain ⟨nonempty, plain⟩ := sound
      cases List.mem_singleton.mp member
      rw [String.toList_ofList]
      exact .word (by simpa using nonempty) fun other inside =>
        plain other (List.mem_reverse.mp inside)
  | span reversed =>
      obtain ⟨word, span, shape, plain, inside⟩ := sound
      cases List.mem_singleton.mp member
      rw [String.toList_ofList, shape]
      exact .unclosed plain inside

/-- No lexeme ends where none is under way. -/
theorem Mode.start_tokens (text : String) (character : Char) :
    .lexeme text ∉ (Mode.start character).1 := by
  unfold Mode.start
  split_ifs <;> simp

theorem Mode.start_sound (character : Char) : (Mode.start character).2.Sound := by
  by_cases plain : isWordCharacter character = true
  · rw [start_eq_word plain]
    exact ⟨List.cons_ne_nil _ _, fun other member => List.mem_singleton.mp member ▸ plain⟩
  · by_cases quote : character = '"'
    · subst quote
      exact ⟨[], [], rfl, fun _ member => absurd member List.not_mem_nil,
        fun _ member => absurd member List.not_mem_nil⟩
    · have ends : endsWord character = true := by
        by_contra inside
        exact plain (isWordCharacter_iff.mpr ⟨Bool.not_eq_true _ ▸ inside, quote⟩)
      simp only [endsWord, Bool.or_eq_true, beq_iff_eq] at ends
      unfold Mode.start
      split_ifs with blank comment opening closing
      · trivial
      · trivial
      · trivial
      · trivial
      · exact absurd ends (by simp [blank, comment, opening, closing])

/-- A step completes nothing but lexemes, and leaves what can begin one. -/
theorem Mode.Sound.step {mode : Mode} (sound : mode.Sound) (character : Char) :
    (mode.step character).2.Sound ∧
      ∀ text, .lexeme text ∈ (mode.step character).1 → IsLexeme text.toList := by
  -- Where a lexeme ends it is the pending one, and the rest is as between lexemes.
  have ended : ∀ text, .lexeme text ∈ mode.pending ++ (Mode.start character).1 →
      IsLexeme text.toList := by
    intro text member
    rcases List.mem_append.mp member with pending | started
    · exact sound.pending pending
    · exact absurd started (Mode.start_tokens text character)
  have nothing : ∀ text : String, .lexeme text ∈ ([] : List Token) → IsLexeme text.toList :=
    fun _ member => absurd member List.not_mem_nil
  cases mode with
  | gap => exact ⟨Mode.start_sound character, ended⟩
  | comment =>
      rw [Mode.step]
      split_ifs
      · exact ⟨trivial, nothing⟩
      · exact ⟨trivial, nothing⟩
  | word reversed =>
      obtain ⟨nonempty, plain⟩ := sound
      rw [Mode.step]
      split_ifs with ends quote
      · exact ⟨Mode.start_sound character, ended⟩
      · subst quote
        exact ⟨⟨reversed.reverse, [], by simp, fun other member => plain other
          (List.mem_reverse.mp member), fun _ member => absurd member List.not_mem_nil⟩, nothing⟩
      · have characterPlain : isWordCharacter character = true :=
          isWordCharacter_iff.mpr ⟨Bool.not_eq_true _ ▸ ends, quote⟩
        exact ⟨⟨List.cons_ne_nil _ _, List.forall_mem_cons.mpr ⟨characterPlain, plain⟩⟩, nothing⟩
  | span reversed =>
      obtain ⟨word, span, shape, plain, inside⟩ := sound
      rw [Mode.step]
      split_ifs with ends quote
      · exact ⟨Mode.start_sound character, ended⟩
      · subst quote
        refine ⟨trivial, fun text member => ?_⟩
        cases List.mem_singleton.mp member
        rw [String.toList_ofList, List.reverse_cons, shape, List.append_assoc, List.cons_append]
        exact .closed plain inside
      · have characterInside : isSpanCharacter character = true :=
          isSpanCharacter_iff.mpr ⟨Bool.not_eq_true _ ▸ ends, quote⟩
        refine ⟨⟨word, span ++ [character], by simp [shape], plain, fun other member => ?_⟩,
          nothing⟩
        rcases List.mem_append.mp member with old | new
        · exact inside other old
        · exact List.mem_singleton.mp new ▸ characterInside

theorem scan_lexemes {mode : Mode} (sound : mode.Sound) {text : String}
    (member : .lexeme text ∈ scan mode characters) : IsLexeme text.toList := by
  induction characters generalizing mode with
  | nil => exact sound.pending member
  | cons first others inductionHypothesis =>
      obtain ⟨next, completed⟩ := sound.step first
      rcases List.mem_append.mp member with now | later
      · exact completed text now
      · exact inductionHypothesis next later

/-- The scanner finds nothing but lexemes between the parentheses. -/
theorem tokenize_lexemes {source text : String} (member : .lexeme text ∈ tokenize source) :
    IsLexeme text.toList := by
  have start : Mode.gap.Sound := trivial
  exact scan_lexemes start member

end FormLang.Source
