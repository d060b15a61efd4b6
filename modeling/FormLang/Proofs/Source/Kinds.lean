import FormLang.Proofs.Source.Classification

/-!
Contract: the kinds of lexemes.

A lexeme is a decimal literal, or it begins like one and is malformed, or it is a string between
two quotes, or it is a symbol. Every literal begins like one, and nothing that stands between
quotes does, so no lexeme is of two kinds.

Owns: the kinds, stated by the characters of a lexeme alone, that they are apart, and the theorem
that classification tells them apart.
-/

set_option autoImplicit false

namespace FormLang.Source

open Numeric

/-- The characters are a decimal literal. -/
def IsLiteral (characters : List Char) : Prop :=
  ∃ literal : Literal, literal.Spelled characters

/-- The characters begin with an optional sign, an optional point and a digit. -/
inductive BeginsLikeNumber : List Char → Prop where
  | parts {sign point others : List Char} {negative : Bool} {digit : Char}
      (signed : SpellsSign sign negative) (pointed : point = [] ∨ point = ['.'])
      (isDigit : digit.isDigit = true) : BeginsLikeNumber (sign ++ (point ++ digit :: others))

/-- The text is this content between two quotes, and holds no other quote. -/
def IsQuoted (text content : String) : Prop :=
  text = "\"" ++ content ++ "\"" ∧ '"' ∉ content.toList

section Beginnings

variable {characters decimals integral fraction others content : List Char} {first : Char}
variable {inClass : Char → Bool}

/-! ## Beginnings -/

theorem dropLeading_of_pos (inside : inClass first = true) :
    dropLeading inClass (first :: others) = others := by
  simp [dropLeading, inside]

theorem dropLeading_of_neg (outside : inClass first = false) :
    dropLeading inClass (first :: others) = first :: others := by
  simp [dropLeading, outside]

/-- What is left behind an optional character of a class. -/
theorem exists_leading (inClass : Char → Bool) (characters : List Char) :
    ∃ leading, characters = leading ++ dropLeading inClass characters ∧
      (leading = [] ∨ ∃ first, leading = [first] ∧ inClass first = true) := by
  cases characters with
  | nil => exact ⟨[], rfl, .inl rfl⟩
  | cons first others =>
      cases inside : inClass first with
      | true =>
          rw [dropLeading_of_pos inside]
          exact ⟨[first], rfl, .inr ⟨first, rfl, inside⟩⟩
      | false =>
          rw [dropLeading_of_neg inside]
          exact ⟨[], rfl, .inl rfl⟩

theorem startsLikeNumber_of_begins (begins : BeginsLikeNumber characters) :
    startsLikeNumber characters = true := by
  cases begins with
  | @parts sign point others negative digit signed pointed isDigit =>
      have noSign : (digit == '+' || digit == '-') = false := isSign_of_isDigit isDigit
      have noPoint : (digit == '.') = false := by
        simpa using ne_of_isDigit '.' isDigit rfl
      have unsigned : dropLeading (fun character => character == '+' || character == '-')
          (sign ++ (point ++ digit :: others)) = point ++ digit :: others := by
        cases signed with
        | none =>
            obtain rfl | rfl := pointed
            · exact dropLeading_of_neg noSign
            · rfl
        | plus => rfl
        | minus => rfl
      have undotted : dropLeading (· == '.') (point ++ digit :: others) = digit :: others := by
        obtain rfl | rfl := pointed
        · exact dropLeading_of_neg noPoint
        · rfl
      simp only [startsLikeNumber, unsigned, undotted, isDigit]

theorem begins_of_startsLikeNumber (starts : startsLikeNumber characters = true) :
    BeginsLikeNumber characters := by
  obtain ⟨sign, signShape, signCases⟩ :=
    exists_leading (fun character => character == '+' || character == '-') characters
  obtain ⟨point, pointShape, pointCases⟩ := exists_leading (· == '.')
    (dropLeading (fun character => character == '+' || character == '-') characters)
  have signed : ∃ negative, SpellsSign sign negative := by
    obtain rfl | ⟨first, rfl, inside⟩ := signCases
    · exact ⟨false, .none⟩
    · obtain rfl | rfl : first = '+' ∨ first = '-' := by simpa using inside
      · exact ⟨false, .plus⟩
      · exact ⟨true, .minus⟩
  have pointed : point = [] ∨ point = ['.'] := by
    obtain rfl | ⟨first, rfl, inside⟩ := pointCases
    · exact .inl rfl
    · exact .inr (by rw [eq_of_beq inside])
  obtain ⟨negative, signed⟩ := signed
  simp only [startsLikeNumber] at starts
  split at starts
  · cases starts
  · next digit others remaining =>
      rw [signShape, pointShape, remaining]
      exact .parts signed pointed starts

/-- The check of the beginning finds exactly an optional sign, an optional point and a digit. -/
theorem startsLikeNumber_iff : startsLikeNumber characters = true ↔ BeginsLikeNumber characters :=
  ⟨begins_of_startsLikeNumber, startsLikeNumber_of_begins⟩

/-- Every literal begins like a number. -/
theorem IsLiteral.begins (isLiteral : IsLiteral characters) : BeginsLikeNumber characters := by
  obtain ⟨literal, spelled⟩ := isLiteral
  cases spelled with
  | parts signed decimal nonempty scaled =>
      obtain ⟨point, digit, others, rfl, pointed, isDigit⟩ := decimal.exists_digit nonempty
      rw [List.append_assoc, List.cons_append]
      exact .parts signed pointed isDigit

/-! ## Quotes -/

theorem unquote?_quoted (noQuote : '"' ∉ content) :
    unquote? ('"' :: (content ++ ['"'])) = some content := by
  simp [unquote?, noQuote]

/-- What begins with a quote does not begin like a number. -/
theorem not_begins_quote : ¬ BeginsLikeNumber ('"' :: others) := by
  rw [← startsLikeNumber_iff]
  exact Bool.false_ne_true

end Beginnings

section Texts

variable {text content : String}

theorem IsQuoted.toList (quoted : IsQuoted text content) :
    text.toList = '"' :: (content.toList ++ ['"']) := by
  rw [quoted.1]
  simp

theorem isQuoted_iff : IsQuoted text content ↔ unquote? text.toList = some content.toList := by
  constructor
  · intro quoted
    rw [quoted.toList, unquote?_quoted quoted.2]
  · intro unquoted
    obtain ⟨shape, noQuote⟩ := unquote?_eq_some unquoted
    exact ⟨String.toList_injective (by rw [shape]; simp), noQuote⟩

/-- A quoted text is no literal and does not begin like one. -/
theorem IsQuoted.not_begins (quoted : IsQuoted text content) : ¬ BeginsLikeNumber text.toList := by
  rw [quoted.toList]
  exact not_begins_quote

end Texts

/-! ## Classification -/

/-- The kinds of lexemes, with what the lexemes stand for. -/
inductive Denotes (text : String) : Except SyntaxError Atom → Prop where
  | number {literal : Literal} (spelled : literal.Spelled text.toList) :
      Denotes text (.ok (.ofNumber literal.value))
  | malformed (noLiteral : ¬ IsLiteral text.toList) (begins : BeginsLikeNumber text.toList) :
      Denotes text (.error (.malformedNumber text))
  | string {content : String} (quoted : IsQuoted text content) :
      Denotes text (.ok (.string content))
  | symbol (noLiteral : ¬ IsLiteral text.toList) (plain : ¬ BeginsLikeNumber text.toList)
      (unquoted : ∀ content, ¬ IsQuoted text content) : Denotes text (.ok (.symbol text))

theorem readNumber?_eq_none_iff {text : String} :
    readNumber? text = none ↔ ¬ IsLiteral text.toList := by
  rw [readNumber?, Option.map_eq_none_iff, Option.eq_none_iff_forall_ne_some, IsLiteral, not_exists]
  simp only [ne_eq, Literal.read?_eq_some_iff]

/-- Every lexeme is of some kind. -/
theorem classify_denotes (text : String) : Denotes text (classify text) := by
  unfold classify
  split
  · next number read =>
      obtain ⟨literal, literalRead, rfl⟩ := Option.map_eq_some_iff.mp read
      exact .number (Literal.read?_eq_some_iff.mp literalRead)
  · next unread =>
      have noLiteral := readNumber?_eq_none_iff.mp unread
      split
      · next starts => exact .malformed noLiteral (startsLikeNumber_iff.mp starts)
      · next starts =>
          split
          · next content unquoted =>
              apply Denotes.string
              rw [isQuoted_iff, String.toList_ofList, unquoted]
          · next unquoted =>
              refine .symbol noLiteral (fun begins => starts (startsLikeNumber_iff.mpr begins)) ?_
              intro content quoted
              rw [isQuoted_iff.mp quoted] at unquoted
              cases unquoted

/-- No lexeme is of two kinds, or of one kind in two ways. -/
theorem Denotes.unique {text : String} {outcome outcome' : Except SyntaxError Atom}
    (denotes : Denotes text outcome) (denotes' : Denotes text outcome') : outcome = outcome' := by
  cases denotes with
  | number spelled =>
      cases denotes' with
      | number spelled' =>
          have read := Literal.read?_eq_some_iff.mpr spelled
          rw [Literal.read?_eq_some_iff.mpr spelled'] at read
          rw [Option.some.inj read]
      | malformed noLiteral _ => exact absurd ⟨_, spelled⟩ noLiteral
      | string quoted => exact absurd (IsLiteral.begins ⟨_, spelled⟩) quoted.not_begins
      | symbol noLiteral _ _ => exact absurd ⟨_, spelled⟩ noLiteral
  | malformed noLiteral begins =>
      cases denotes' with
      | number spelled' => exact absurd ⟨_, spelled'⟩ noLiteral
      | malformed _ _ => rfl
      | string quoted => exact absurd begins quoted.not_begins
      | symbol _ plain _ => exact absurd begins plain
  | string quoted =>
      cases denotes' with
      | number spelled' => exact absurd (IsLiteral.begins ⟨_, spelled'⟩) quoted.not_begins
      | malformed _ begins => exact absurd begins quoted.not_begins
      | string quoted' =>
          have content := isQuoted_iff.mp quoted
          rw [isQuoted_iff.mp quoted'] at content
          rw [String.toList_injective (Option.some.inj content)]
      | symbol _ _ unquoted => exact absurd quoted (unquoted _)
  | symbol noLiteral plain unquoted =>
      cases denotes' with
      | number spelled' => exact absurd ⟨_, spelled'⟩ noLiteral
      | malformed _ begins => exact absurd begins plain
      | string quoted => exact absurd quoted (unquoted _)
      | symbol _ _ _ => rfl

theorem classify_eq_iff {text : String} {outcome : Except SyntaxError Atom} :
    classify text = outcome ↔ Denotes text outcome := by
  constructor
  · rintro rfl
    exact classify_denotes text
  · exact (classify_denotes text).unique

/-- Classification is exact. A lexeme stands for a number if it is a decimal literal, and then for
the number of that literal, without residue. It is refused as a malformed number if it is none, but
begins with an optional sign, an optional point and a digit. It stands for a string if it stands
between two quotes and holds no other one. In every other case it stands for the symbol of its own
text. Among these cases are a quote in front with no other one behind it, words such as `inf` and
`nan`, and an exponent mark, a sign or a point alone. -/
theorem classified_exactly (text : String) :
    ((∃ number, classify text = .ok (.number number)) ↔ IsLiteral text.toList) ∧
    (∀ literal : Literal, literal.Spelled text.toList →
      classify text = .ok (.number (clearResidue literal.value))) ∧
    (∀ error, classify text = .error error ↔ error = .malformedNumber text ∧
      ¬ IsLiteral text.toList ∧ BeginsLikeNumber text.toList) ∧
    (∀ content, classify text = .ok (.string content) ↔ IsQuoted text content) ∧
    (∀ name, classify text = .ok (.symbol name) ↔ name = text ∧ ¬ IsLiteral text.toList ∧
      ¬ BeginsLikeNumber text.toList ∧ ∀ content, ¬ IsQuoted text content) ∧
    (∀ content, text = "\"" ++ content → '"' ∉ content.toList →
      classify text = .ok (.symbol text)) ∧
    (text ∈ ["inf", "nan", "e", "-", "."] → classify text = .ok (.symbol text)) := by
  simp only [classify_eq_iff]
  refine ⟨⟨?_, ?_⟩, fun literal spelled => .number spelled, fun error => ⟨?_, ?_⟩,
    fun content => ⟨?_, .string⟩, fun name => ⟨?_, ?_⟩, ?_, ?_⟩
  · rintro ⟨number, denotes⟩
    cases denotes with
    | number spelled => exact ⟨_, spelled⟩
  · rintro ⟨literal, spelled⟩
    exact ⟨_, .number spelled⟩
  · intro denotes
    cases denotes with
    | malformed noLiteral begins => exact ⟨rfl, noLiteral, begins⟩
  · rintro ⟨rfl, noLiteral, begins⟩
    exact .malformed noLiteral begins
  · intro denotes
    cases denotes with
    | string quoted => exact quoted
  · intro denotes
    cases denotes with
    | symbol noLiteral plain unquoted => exact ⟨rfl, noLiteral, plain, unquoted⟩
  · rintro ⟨rfl, noLiteral, plain, unquoted⟩
    exact .symbol noLiteral plain unquoted
  · rintro content rfl noQuote
    have front : ("\"" ++ content).toList = '"' :: content.toList := by simp
    have plain : ¬ BeginsLikeNumber ("\"" ++ content).toList := front ▸ not_begins_quote
    refine .symbol (fun isLiteral => plain isLiteral.begins) plain fun other quoted => ?_
    -- The quote at the end would be one of the content.
    have behind := quoted.toList
    rw [front, List.cons.injEq] at behind
    exact noQuote (behind.2 ▸ List.mem_append_right _ List.mem_cons_self)
  · intro member
    have words : ∀ word ∈ ["inf", "nan", "e", "-", "."], classify word = .ok (.symbol word) := by
      decide +kernel
    exact classify_eq_iff.mp (words text member)

/-- A sign, a point without a digit in front of it, and an exponent. -/
theorem fraction_classified :
    Literal.Spelled "-.5E2".toList ⟨true, [], ['5'], 2⟩ ∧
      classify "-.5E2" = .ok (.number (clearResidue (Literal.value ⟨true, [], ['5'], 2⟩))) := by
  have spelled : Literal.Spelled "-.5E2".toList ⟨true, [], ['5'], 2⟩ :=
    Literal.read?_eq_some_iff.mp (by decide +kernel)
  obtain ⟨-, valued, -⟩ := classified_exactly "-.5E2"
  exact ⟨spelled, valued _ spelled⟩

end FormLang.Source
