import FormLang.Proofs.Numeric.Spelling

/-!
Contract: the characters of decimal literals.

Owns: that a literal is made of digits, signs, points and exponent marks.
-/

set_option autoImplicit false

namespace FormLang.Numeric

/-- A character that a decimal literal can contain. -/
def isLiteralCharacter (character : Char) : Bool :=
  character.isDigit || character == '+' || character == '-' || character == '.' ||
    character == 'e' || character == 'E'

variable {characters digits sign decimals power integral fraction : List Char} {character : Char}

theorem isLiteralCharacter_of_isDigit (digit : character.isDigit = true) :
    isLiteralCharacter character = true := by
  simp [isLiteralCharacter, digit]

theorem AreDigits.legal (all : AreDigits digits) :
    ∀ character ∈ digits, isLiteralCharacter character = true :=
  fun character member => isLiteralCharacter_of_isDigit (all character member)

theorem SpellsSign.legal {negative : Bool} (signed : SpellsSign sign negative) :
    ∀ character ∈ sign, isLiteralCharacter character = true := by
  cases signed <;> simp [isLiteralCharacter]

theorem SpellsDecimals.legal (spelled : SpellsDecimals decimals integral fraction) :
    ∀ character ∈ decimals, isLiteralCharacter character = true := by
  cases spelled with
  | whole digits => exact digits.legal
  | pointed digits behind =>
      exact List.forall_mem_append.mpr
        ⟨digits.legal, List.forall_mem_cons.mpr ⟨rfl, behind.legal⟩⟩

theorem SpellsExponent.legal {exponent : Int} (spelled : SpellsExponent power exponent) :
    ∀ character ∈ power, isLiteralCharacter character = true := by
  cases spelled with
  | absent => exact fun _ member => absurd member List.not_mem_nil
  | given marked signed nonempty all =>
      have behind := List.forall_mem_append.mpr ⟨signed.legal, all.legal⟩
      obtain rfl | rfl := marked <;> exact List.forall_mem_cons.mpr ⟨rfl, behind⟩

/-- A literal has no other characters than digits, signs, points and exponent marks. -/
theorem Literal.Spelled.legal {literal : Literal} (spelled : literal.Spelled characters) :
    ∀ character ∈ characters, isLiteralCharacter character = true := by
  cases spelled with
  | parts signed decimal nonempty scaled =>
      exact List.forall_mem_append.mpr
        ⟨signed.legal, List.forall_mem_append.mpr ⟨decimal.legal, scaled.legal⟩⟩

theorem readNumber?_characters {text : String} {number : Float}
    (read : readNumber? text = some number) (member : character ∈ text.toList) :
    isLiteralCharacter character = true := by
  obtain ⟨literal, literalRead, -⟩ := Option.map_eq_some_iff.mp read
  exact (Literal.read?_eq_some_iff.mp literalRead).legal character member

end FormLang.Numeric
