import FormLang.Proofs.Numeric.Literal
import FormLang.Proofs.Numeric.ReadBack
import FormLang.Proofs.Numeric.Residue
import FormLang.Proofs.Source.Lexemes
import FormLang.Source.Lexeme

/-!
Contract: the atoms that lexemes stand for, and their texts.

The text of an atom that a lexeme stands for is that lexeme, unless the atom is a number.
The text of a finite number is another lexeme for that number. The text of an infinite one is
a lexeme, too, but stands for a symbol.

Owns: which atoms have a lexeme as their text, and what classification makes of the text of an
atom, also with a space behind it.
-/

set_option autoImplicit false

namespace FormLang.Source

open Numeric

variable {characters content : List Char} {text : String} {atom : Atom}

/-! ## The texts of atoms that are no numbers -/

theorem unquote?_eq_some (unquoted : unquote? characters = some content) :
    characters = '"' :: (content ++ ['"']) ∧ '"' ∉ content := by
  unfold unquote? at unquoted
  split at unquoted
  · next rest =>
      split at unquoted
      · next reversed shape =>
          split at unquoted
          · cases unquoted
          · next outside =>
              cases unquoted
              have rests : rest = reversed.reverse ++ ['"'] := by
                rw [← List.reverse_reverse rest, shape, List.reverse_cons]
              exact ⟨by rw [rests], fun member => outside (List.mem_reverse.mp member)⟩
      · cases unquoted
  · cases unquoted

/-- A lexeme stands for a number, or its text is that of the atom it stands for. -/
theorem classify_eq_ok (classified : classify text = .ok atom) :
    (∃ number, readNumber? text = some number ∧ atom = .ofNumber number) ∨
      (atom.number? = none ∧ atom.render .quoted = text) := by
  unfold classify at classified
  split at classified
  · next number read => exact .inl ⟨number, read, (Except.ok.inj classified).symm⟩
  · refine .inr ?_
    split at classified
    · cases classified
    · split at classified
      · next content unquoted =>
          cases classified
          refine ⟨rfl, String.toList_injective ?_⟩
          rw [(unquote?_eq_some unquoted).1]
          simp [Atom.render]
      · cases classified
        exact ⟨rfl, rfl⟩

/-- A lexeme with a quote that is not between two quotes is no number and no string. -/
theorem classify_unclosed (quote : '"' ∈ text.toList) (unclosed : unquote? text.toList = none) :
    classify text =
      if startsLikeNumber text.toList then .error (.malformedNumber text)
      else .ok (.symbol text) := by
  have noNumber : readNumber? text = none := by
    cases read : readNumber? text with
    | none => rfl
    | some number => exact absurd (readNumber?_characters read quote) (by decide)
  rw [classify, noNumber, unclosed]

/-! ## A space behind an unclosed span -/

theorem dropLeading_append (inClass : Char → Bool) (outside : inClass '"' = false)
    (quote : '"' ∈ characters) (rest : List Char) :
    dropLeading inClass (characters ++ rest) = dropLeading inClass characters ++ rest ∧
      '"' ∈ dropLeading inClass characters := by
  cases characters with
  | nil => cases quote
  | cons first others =>
      cases member : inClass first with
      | false =>
          have kept : ∀ behind, dropLeading inClass (first :: behind) = first :: behind := by
            simp [dropLeading, member]
          rw [List.cons_append, kept, kept]
          exact ⟨rfl, quote⟩
      | true =>
          have dropped : ∀ behind, dropLeading inClass (first :: behind) = behind := by
            simp [dropLeading, member]
          rw [List.cons_append, dropped, dropped]
          rcases List.mem_cons.mp quote with rfl | later
          · exact absurd (outside.symm.trans member) (by decide)
          · exact ⟨rfl, later⟩

/-- What stands behind a quote does not matter for whether a lexeme starts like a number. -/
theorem startsLikeNumber_append (quote : '"' ∈ characters) (rest : List Char) :
    startsLikeNumber (characters ++ rest) = startsLikeNumber characters := by
  unfold startsLikeNumber
  obtain ⟨unsigned, quote⟩ :=
    dropLeading_append (fun character => character == '+' || character == '-') rfl quote rest
  obtain ⟨undotted, quote⟩ := dropLeading_append (· == '.') rfl quote rest
  simp only [unsigned, undotted]
  revert quote
  generalize dropLeading (· == '.') _ = remaining
  cases remaining with
  | nil => exact fun quote => absurd quote List.not_mem_nil
  | cons first others => exact fun _ => rfl

/-- An unclosed span with a space behind it stands for another symbol. -/
theorem classify_space (one : characters.count '"' = 1)
    (classified : classify (String.ofList characters) = .ok atom) :
    atom = .symbol (String.ofList characters) ∧
      classify (String.ofList (characters ++ [' '])) =
        .ok (.symbol (String.ofList (characters ++ [' ']))) := by
  have quote : '"' ∈ characters := List.count_pos_iff.mp (one ▸ Nat.one_pos)
  have unclosed : unquote? characters = none := by
    cases unquoted : unquote? characters with
    | none => rfl
    | some content =>
        rw [(unquote?_eq_some unquoted).1] at one
        simp at one
  have spaced : unquote? (characters ++ [' ']) = none := by
    cases unquoted : unquote? (characters ++ [' ']) with
    | none => rfl
    | some content =>
        have last := congrArg List.getLast? (unquote?_eq_some unquoted).1
        rw [← List.cons_append, List.getLast?_concat, List.getLast?_concat] at last
        exact absurd (Option.some.inj last) (by decide)
  have start := startsLikeNumber_append quote [' ']
  have texts : ∀ others : List Char, (String.ofList others).toList = others :=
    fun _ => String.toList_ofList
  rw [classify_unclosed (by rwa [texts]) (by rwa [texts]), texts] at classified
  rw [classify_unclosed (by rw [texts]; exact List.mem_append_left _ quote) (by rwa [texts]), texts,
    start]
  cases starts : startsLikeNumber characters with
  | true =>
      rw [starts] at classified
      cases classified
  | false =>
      rw [starts] at classified
      exact ⟨(Except.ok.inj classified).symm, rfl⟩

/-! ## Texts of numbers -/

theorem isWordCharacter_of_isAlphanum {character : Char}
    (alphanumeric : character.isAlphanum = true) : isWordCharacter character = true := by
  by_contra other
  simp only [isWordCharacter, endsWord, isBlank, isBreak, Bool.and_eq_true, Bool.not_eq_true',
    Bool.or_eq_false_iff, beq_eq_false_iff_ne, bne_iff_ne] at other
  have excluded : ∀ separator : Char, separator.isAlphanum = false → character ≠ separator :=
    fun separator apart same => by
      rw [same, apart] at alphanumeric
      cases alphanumeric
  exact other ⟨⟨⟨⟨⟨excluded ' ' rfl, ⟨⟨excluded '\t' rfl, excluded '\r' rfl⟩, excluded '\n' rfl⟩,
    excluded '\x0c' rfl⟩, excluded ';' rfl⟩, excluded '(' rfl⟩, excluded ')' rfl⟩, excluded '"' rfl⟩

theorem isWordCharacter_plainText (number : Float) :
    ∀ character ∈ (plainText number).toList, isWordCharacter character = true := by
  intro character member
  rcases plainText_characters member with alphanumeric | rfl | rfl
  · exact isWordCharacter_of_isAlphanum alphanumeric
  · rfl
  · rfl

theorem isLexeme_plainText (number : Float) : IsLexeme (plainText number).toList :=
  .word (plainText_ne_nil number) (isWordCharacter_plainText number)

/-- The text of the atom is a lexeme. -/
def Legible (atom : Atom) : Prop :=
  IsLexeme (atom.render .quoted).toList

theorem legible_none : Legible .none :=
  .word (by decide) (List.all_eq_true.mp (by decide))

theorem legible_number (number : Float) : Legible (.number number) :=
  isLexeme_plainText number

/-- The comma between the parts of a complex number is a character of a word. -/
theorem isWordCharacter_complex (value : Complex) :
    ∀ character ∈ ((Atom.complex value).render .quoted).toList,
      isWordCharacter character = true := by
  rw [Atom.render, String.toList_append, String.toList_append, List.forall_mem_append,
    List.forall_mem_append]
  exact ⟨⟨isWordCharacter_plainText value.re, List.all_eq_true.mp (by decide)⟩, isWordCharacter_plainText value.im⟩

theorem legible_complex (value : Complex) : Legible (.complex value) := by
  refine .word ?_ (isWordCharacter_complex value)
  rw [Atom.render, String.toList_append]
  exact List.append_ne_nil_of_right_ne_nil _ (plainText_ne_nil value.im)

theorem classify_plainText {number : Float} (finite : number.isFinite = true)
    (cleared : clearResidue number = number) :
    classify (plainText number) = .ok (.number number) := by
  rw [classify, readNumber?_plainText finite]
  exact congrArg (fun content => Except.ok (Atom.number content)) cleared

theorem classify_plainText_of_isInf {number : Float} (infinite : number.isInf = true) :
    classify (plainText number) = .ok (.symbol (plainText number)) := by
  rcases plainText_of_isInf infinite with shape | shape
  · rw [shape]
    rfl
  · rw [shape]
    rfl

/-! ## Atoms that lexemes stand for -/

/-- The atom is what a lexeme stands for. -/
def FromLexeme (atom : Atom) : Prop :=
  ∃ text : String, IsLexeme text.toList ∧ classify text = .ok atom

/-- What an atom is written as at the head of a form, as it is found by the scanner: in front
of a tail stands a space. -/
def writtenLexeme (hasTail : Bool) (atom : Atom) : String :=
  if hasTail then String.ofList (withSpace (atom.render .quoted).toList)
  else atom.render .quoted

/-- What the text of an atom stands for at the head of a form: an infinite number and, in
front of a tail, an unclosed span are written as other symbols. -/
def rereadAtom (hasTail : Bool) : Atom → Atom
  | .number number => if number.isInf then .symbol (plainText number) else .number number
  | .symbol name =>
      if hasTail && name.toList.count '"' == 1 then .symbol (name ++ " ") else .symbol name
  | atom => atom

section

variable (fromLexeme : FromLexeme atom)
include fromLexeme

/-- A number that a lexeme stands for is without residue, and it is infinite or finite. -/
theorem FromLexeme.number {number : Float} (same : atom = .number number) :
    Cleared number ∧ (number.isInf = false → number.isFinite = true) := by
  obtain ⟨text, -, classified⟩ := fromLexeme
  rcases classify_eq_ok classified with ⟨literal, read, cleared⟩ | ⟨noNumber, -⟩
  · have content : clearResidue literal = number := by
      rw [same] at cleared
      exact (Atom.number.inj cleared).symm
    subst content
    have someNumber : (clearResidue literal).isNaN = false := by
      unfold clearResidue
      split
      · rfl
      · exact readNumber?_isNaN read
    exact ⟨cleared_clearResidue literal,
      fun bounded => isFinite_of_not_isInf bounded someNumber⟩
  · rw [same] at noNumber
    cases noNumber

theorem FromLexeme.legible : Legible atom := by
  obtain ⟨text, isLexeme, classified⟩ := fromLexeme
  rcases classify_eq_ok classified with ⟨number, -, rfl⟩ | ⟨-, rendered⟩
  · exact legible_number _
  · rwa [Legible, rendered]

/-- The text of an atom that is no number stands for that atom, and so does that of a finite
number. -/
theorem FromLexeme.classify_render :
    classify (atom.render .quoted) = .ok (rereadAtom false atom) := by
  have numbers := fun number => @FromLexeme.number atom fromLexeme number
  obtain ⟨text, isLexeme, classified⟩ := fromLexeme
  rcases classify_eq_ok classified with ⟨literal, -, rfl⟩ | ⟨noNumber, rendered⟩
  · obtain ⟨cleared, finite⟩ := numbers (clearResidue literal) rfl
    change classify (plainText (clearResidue literal)) = .ok (rereadAtom false (.number _))
    cases infinite : (clearResidue literal).isInf with
    | true =>
        rw [classify_plainText_of_isInf infinite, rereadAtom, infinite]
        rfl
    | false =>
        rw [classify_plainText (finite infinite) cleared, rereadAtom, infinite]
        rfl
  · rw [rendered, classified]
    cases atom with
    | number number => cases noNumber
    | none => rfl
    | complex value => rfl
    | symbol name => rfl
    | string content => rfl

theorem FromLexeme.classify_writtenLexeme (hasTail : Bool) :
    classify (writtenLexeme hasTail atom) = .ok (rereadAtom hasTail atom) := by
  have classified := fromLexeme.classify_render
  cases hasTail with
  | false => exact classified
  | true =>
      rw [writtenLexeme, if_pos rfl, withSpace]
      split
      · next one =>
          rw [← String.ofList_toList (s := atom.render .quoted)] at classified
          obtain ⟨unclosed, spaced⟩ := classify_space one classified
          rw [spaced]
          cases atom with
          | none => cases unclosed
          | complex value => cases unclosed
          | string content => cases unclosed
          | number number =>
              have none := count_quote_word (isWordCharacter_plainText number)
              exact absurd (none.symm.trans one) Nat.zero_ne_one
          | symbol name =>
              have longer : String.ofList (name.toList ++ [' ']) = name ++ " " :=
                String.toList_injective (by simp)
              have counted : name.toList.count '"' = 1 := one
              simp [rereadAtom, counted, Atom.render, longer]
      · next several =>
          rw [String.ofList_toList, classified]
          cases atom with
          | none => rfl
          | complex value => rfl
          | string content => rfl
          | number number => rfl
          | symbol name =>
              have counted : name.toList.count '"' ≠ 1 := several
              simp [rereadAtom, counted]

end

/-- The text of the head of a form stands for that head unless it is an infinite number or
an unclosed span in front of a tail. -/
theorem rereadAtom_eq_self_iff (hasTail : Bool) :
    rereadAtom hasTail atom = atom ↔
      (∀ number, atom = .number number → number.isInf = false) ∧
        (hasTail = true → ∀ name, atom = .symbol name → name.toList.count '"' ≠ 1) := by
  cases atom with
  | none => simp [rereadAtom]
  | complex value => simp [rereadAtom]
  | string content => simp [rereadAtom]
  | number number => cases infinite : number.isInf <;> simp [rereadAtom, infinite]
  | symbol name => simp [rereadAtom]

end FormLang.Source
