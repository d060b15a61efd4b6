/-!
Contract: the white space around a line.

Owns: the white space characters, by the property `White_Space` of the character
standard, and the removal of white space at both ends of a text.
-/

set_option autoImplicit false

namespace FormLang.Console

/-- The ranges of the white space characters, each with its first and its last code
point. -/
def whiteSpaceRanges : List (Nat × Nat) :=
  [(0x9, 0xD), (0x20, 0x20), (0x85, 0x85), (0xA0, 0xA0), (0x1680, 0x1680),
    (0x2000, 0x200A), (0x2028, 0x2029), (0x202F, 0x202F), (0x205F, 0x205F),
    (0x3000, 0x3000)]

def isWhiteSpace (character : Char) : Bool :=
  whiteSpaceRanges.any fun (first, last) =>
    first ≤ character.toNat && character.toNat ≤ last

/-- The text without the white space at its ends. -/
def trim (text : String) : String :=
  let fromFirst := text.toList.dropWhile isWhiteSpace
  String.ofList (fromFirst.reverse.dropWhile isWhiteSpace).reverse

end FormLang.Console
