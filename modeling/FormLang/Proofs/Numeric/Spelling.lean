import FormLang.Numeric.Literal
import Mathlib.Data.List.TakeWhile

/-!
Contract: the grammar of decimal literals.

A literal is spelled as an optional sign, digits with at most one point, and an optional exponent.
Each part ends where the next one begins, since no digit is a sign, a point or an exponent mark.
So the grammar can be read from left to right without looking ahead.

Owns: the spellings of the parts and of whole literals, and the theorem that a literal is read
from its spellings and from nothing else.
-/

set_option autoImplicit false

namespace FormLang.Numeric

/-- An optional sign. The flag tells whether it is a minus sign. -/
inductive SpellsSign : List Char → Bool → Prop where
  | none : SpellsSign [] false
  | plus : SpellsSign ['+'] false
  | minus : SpellsSign ['-'] true

/-- All of the characters are digits. -/
def AreDigits (characters : List Char) : Prop :=
  ∀ character ∈ characters, character.isDigit = true

/-- Digits with an optional point, the digits in front of it, and those behind it. -/
inductive SpellsDecimals : List Char → List Char → List Char → Prop where
  | whole {integral : List Char} (digits : AreDigits integral) :
      SpellsDecimals integral integral []
  | pointed {integral fraction : List Char} (digits : AreDigits integral)
      (behind : AreDigits fraction) : SpellsDecimals (integral ++ '.' :: fraction) integral fraction

/-- The integer that the digits of an exponent stand for. -/
def signedValue (negative : Bool) (digits : List Char) : Int :=
  if negative then -(digitsValue digits : Int) else digitsValue digits

/-- An optional exponent and its value. -/
inductive SpellsExponent : List Char → Int → Prop where
  | absent : SpellsExponent [] 0
  | given {mark : Char} {sign digits : List Char} {negative : Bool}
      (marked : mark = 'e' ∨ mark = 'E') (signed : SpellsSign sign negative)
      (nonempty : digits ≠ []) (all : AreDigits digits) :
      SpellsExponent (mark :: (sign ++ digits)) (signedValue negative digits)

/-- The characters spell the literal. There is a digit in front of the point or behind it. -/
inductive Literal.Spelled : List Char → Literal → Prop where
  | parts {sign decimals power integral fraction : List Char} {negative : Bool} {exponent : Int}
      (signed : SpellsSign sign negative) (decimal : SpellsDecimals decimals integral fraction)
      (nonempty : integral ≠ [] ∨ fraction ≠ []) (scaled : SpellsExponent power exponent) :
      Spelled (sign ++ (decimals ++ power)) ⟨negative, integral, fraction, exponent⟩

/-! ## Where the parts end -/

/-- No character of the class comes first. -/
def BeginsOutside (inClass : Char → Bool) (characters : List Char) : Prop :=
  ∀ first others, characters = first :: others → inClass first = false

def isSign (character : Char) : Bool :=
  character == '+' || character == '-'

section Parts

variable {characters sign decimals power digits integral fraction rest : List Char}
variable {character : Char} {negative : Bool} {exponent : Int}

/-- A digit is none of the other characters of a literal. -/
theorem ne_of_isDigit (other : Char) (digit : character.isDigit = true)
    (noDigit : other.isDigit = false) : character ≠ other := by
  rintro rfl
  rw [noDigit] at digit
  cases digit

theorem isSign_of_isDigit (digit : character.isDigit = true) : isSign character = false := by
  simp [isSign, ne_of_isDigit '+' digit rfl, ne_of_isDigit '-' digit rfl]

/-- Digits do not begin with a sign. -/
theorem AreDigits.beginsOutside (all : AreDigits digits) (nonempty : digits ≠ []) :
    BeginsOutside isSign digits := by
  obtain ⟨first, others, rfl⟩ := List.exists_cons_of_ne_nil nonempty
  rintro _ _ ⟨⟩
  exact isSign_of_isDigit (all first List.mem_cons_self)

/-- Digits with a point begin with a digit, or with the point and a digit. -/
theorem SpellsDecimals.exists_digit (spelled : SpellsDecimals decimals integral fraction)
    (nonempty : integral ≠ [] ∨ fraction ≠ []) :
    ∃ point digit others, decimals = point ++ digit :: others ∧ (point = [] ∨ point = ['.']) ∧
      digit.isDigit = true := by
  cases spelled with
  | whole digits =>
      obtain ⟨digit, others, rfl⟩ := List.exists_cons_of_ne_nil (by simpa using nonempty)
      exact ⟨[], digit, others, rfl, .inl rfl, digits digit List.mem_cons_self⟩
  | pointed digits behind =>
      cases integral with
      | nil =>
          obtain ⟨digit, others, rfl⟩ := List.exists_cons_of_ne_nil (by simpa using nonempty)
          exact ⟨['.'], digit, others, rfl, .inr rfl, behind digit List.mem_cons_self⟩
      | cons digit others =>
          exact ⟨[], digit, others ++ '.' :: fraction, rfl, .inl rfl, digits digit List.mem_cons_self⟩

theorem SpellsDecimals.beginsOutside (spelled : SpellsDecimals decimals integral fraction)
    (nonempty : integral ≠ [] ∨ fraction ≠ []) (rest : List Char) :
    BeginsOutside isSign (decimals ++ rest) := by
  obtain ⟨point, digit, others, rfl, rfl | rfl, isDigit⟩ := spelled.exists_digit nonempty
  · rintro _ _ ⟨⟩
    exact isSign_of_isDigit isDigit
  · rintro _ _ ⟨⟩
    rfl

/-- An exponent is set apart from the digits in front of it. -/
theorem SpellsExponent.beginsOutside (spelled : SpellsExponent power exponent) :
    BeginsOutside (fun character => character.isDigit || character == '.') power := by
  cases spelled with
  | absent => rintro _ _ ⟨⟩
  | given marked _ _ _ =>
      rintro _ _ ⟨⟩
      obtain rfl | rfl := marked <;> rfl

/-! ## Signs -/

theorem takeSign_spelled (signed : SpellsSign sign negative) (ends : BeginsOutside isSign rest) :
    takeSign (sign ++ rest) = (negative, rest) := by
  cases signed with
  | plus => rfl
  | minus => rfl
  | none =>
      cases rest with
      | nil => rfl
      | cons first others =>
          have plain : first ≠ '+' ∧ first ≠ '-' := by
            simpa [isSign] using ends first others rfl
          simp [takeSign, plain]

theorem exists_sign (characters : List Char) :
    ∃ sign, SpellsSign sign (takeSign characters).1 ∧
      characters = sign ++ (takeSign characters).2 := by
  unfold takeSign
  split
  · exact ⟨['-'], .minus, rfl⟩
  · exact ⟨['+'], .plus, rfl⟩
  · exact ⟨[], .none, rfl⟩

/-! ## Exponents -/

theorem readExponent_eq_some_iff :
    readExponent characters = some exponent ↔ SpellsExponent characters exponent := by
  constructor
  · intro read
    cases characters with
    | nil =>
        cases read
        exact .absent
    | cons mark others =>
        obtain ⟨sign, signed, shape⟩ := exists_sign others
        simp only [readExponent] at read
        split at read
        · next wellFormed =>
            obtain ⟨marked, nonempty, all⟩ := wellFormed
            cases read
            have given := SpellsExponent.given marked signed nonempty (List.all_eq_true.mp all)
            rw [← shape] at given
            exact given
        · cases read
  · intro spelled
    cases spelled with
    | absent => rfl
    | given marked signed nonempty all =>
        have taken := takeSign_spelled signed (all.beginsOutside nonempty)
        simp only [readExponent, taken]
        rw [if_pos ⟨marked, nonempty, List.all_eq_true.mpr all⟩]
        rfl

/-! ## Digits with a point -/

theorem takeWhile_digits (all : AreDigits digits) (ends : BeginsOutside Char.isDigit rest) :
    (digits ++ rest).takeWhile Char.isDigit = digits := by
  rw [List.takeWhile_append_of_pos all]
  cases rest with
  | nil => simp
  | cons first others => simp [ends first others rfl]

theorem dropWhile_digits (all : AreDigits digits) (ends : BeginsOutside Char.isDigit rest) :
    (digits ++ rest).dropWhile Char.isDigit = rest := by
  rw [List.dropWhile_append_of_pos all]
  cases rest with
  | nil => rfl
  | cons first others => simp [ends first others rfl]

theorem takeDecimals_spelled (spelled : SpellsDecimals decimals integral fraction)
    (ends : BeginsOutside (fun character => character.isDigit || character == '.') rest) :
    takeDecimals (decimals ++ rest) = (integral, fraction, rest) := by
  have endsDigits : BeginsOutside Char.isDigit rest := fun first others shape =>
    (Bool.or_eq_false_iff.mp (ends first others shape)).1
  unfold takeDecimals
  cases spelled with
  | whole digits =>
      rw [takeWhile_digits digits endsDigits, dropWhile_digits digits endsDigits]
      split
      · next others =>
          have point := ends '.' others rfl
          cases point
      · rfl
  | pointed digits behind =>
      have endsPoint : BeginsOutside Char.isDigit ('.' :: (fraction ++ rest)) := by
        rintro _ _ ⟨⟩
        rfl
      rw [List.append_assoc, List.cons_append, takeWhile_digits digits endsPoint,
        dropWhile_digits digits endsPoint]
      simp only [takeWhile_digits behind endsDigits, dropWhile_digits behind endsDigits]

theorem areDigits_takeWhile (characters : List Char) :
    AreDigits (characters.takeWhile Char.isDigit) :=
  fun _ member => List.mem_takeWhile_imp member

theorem exists_decimals (characters : List Char) :
    ∃ decimals, SpellsDecimals decimals (takeDecimals characters).1 (takeDecimals characters).2.1 ∧
      characters = decimals ++ (takeDecimals characters).2.2 := by
  have digits := areDigits_takeWhile characters
  have whole := List.takeWhile_append_dropWhile (p := Char.isDigit) (l := characters)
  unfold takeDecimals
  split
  · next rest shape =>
      refine ⟨_, .pointed digits (areDigits_takeWhile rest), ?_⟩
      rw [shape] at whole
      rw [List.append_assoc, List.cons_append, List.takeWhile_append_dropWhile, whole]
  · exact ⟨_, .whole digits, whole.symm⟩

end Parts

/-- A literal is read from its spellings, and from nothing else. -/
theorem Literal.read?_eq_some_iff {characters : List Char} {literal : Literal} :
    Literal.read? characters = some literal ↔ literal.Spelled characters := by
  constructor
  · intro read
    obtain ⟨sign, signed, signShape⟩ := exists_sign characters
    obtain ⟨decimals, decimal, shape⟩ := exists_decimals (takeSign characters).2
    simp only [Literal.read?] at read
    split at read
    · cases read
    · next someDigit =>
        obtain ⟨exponent, exponentRead, same⟩ := Option.map_eq_some_iff.mp read
        rw [signShape, shape, ← same]
        exact .parts signed decimal (not_and_or.mp someDigit)
          (readExponent_eq_some_iff.mp exponentRead)
  · intro spelled
    cases spelled with
    | @parts sign decimals power integral fraction negative exponent signed decimal nonempty scaled =>
        have taken := takeSign_spelled signed (decimal.beginsOutside nonempty power)
        have decimalsTaken := takeDecimals_spelled decimal scaled.beginsOutside
        simp only [Literal.read?, taken, decimalsTaken]
        rw [if_neg (not_and_or.mpr nonempty), readExponent_eq_some_iff.mpr scaled]
        rfl

end FormLang.Numeric
