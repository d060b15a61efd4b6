import FormLang.Console.Lines
import FormLang.Session

/-!
Contract: a text without a line feed as the only line of an input.

Within the encoding of a text, a byte below 128 stands for the character of that number, and for
nothing else. So the line feed that ends a line is the only one if the text has none, and the
carriage return that is dropped in front of it is the last character of the text.

Owns: the encoding of such characters, and the lines of an input that is one text.
-/

set_option autoImplicit false

namespace FormLang

variable {text : String}

/-! ## Bytes -/

/-- The bytes that encode a text. -/
def bytesOf (text : String) : List UInt8 :=
  text.toUTF8.data.toList

theorem bytesOf_ofList (characters : List Char) :
    bytesOf (String.ofList characters) = characters.flatMap String.utf8EncodeChar := by
  rw [bytesOf, String.toUTF8, String.toByteArray_ofList, List.utf8Encode,
    List.toList_data_toByteArray]

theorem bytesOf_append (left right : String) :
    bytesOf (left ++ right) = bytesOf left ++ bytesOf right := by
  rw [bytesOf, String.toUTF8, String.toByteArray_append, ByteArray.data_append,
    Array.toList_append]
  rfl

/-- Decoding undoes encoding. -/
theorem fromUTF8?_bytesOf (text : String) : String.fromUTF8? ⟨(bytesOf text).toArray⟩ = some text := by
  have same : (⟨(bytesOf text).toArray⟩ : ByteArray) = text.toByteArray := by
    rw [bytesOf, Array.toArray_toList]
    rfl
  rw [same, String.fromUTF8?, dif_pos text.isValidUTF8]
  rfl

theorem bytesOf_eq_nil_iff : bytesOf text = [] ↔ text = "" := by
  refine ⟨fun nothing => ?_, fun same => same ▸ rfl⟩
  have decoded := fromUTF8?_bytesOf text
  rw [nothing] at decoded
  exact Option.some.inj (decoded.symm.trans (fromUTF8?_bytesOf ""))

theorem SourceText.ofBytes_toUTF8 (text : String) : SourceText.ofBytes text.toUTF8 = .text text := by
  have decoded : String.fromUTF8? text.toUTF8 = some text := dif_pos text.isValidUTF8
  rw [SourceText.ofBytes, decoded]

/-- A byte below 128 encodes the character of its number. -/
theorem toNat_eq_of_mem_utf8EncodeChar {character : Char} {byte : UInt8}
    (small : byte.toNat < 128) (member : byte ∈ String.utf8EncodeChar character) :
    character.toNat = byte.toNat := by
  have large : ∀ {low high : Nat}, low + high < 256 → 128 ≤ high →
      byte ≠ UInt8.ofNat (low + high) := by
    intro low high bounded atLeast same
    rw [same, UInt8.toNat_ofNat', Nat.mod_eq_of_lt bounded] at small
    omega
  unfold String.utf8EncodeChar at member
  dsimp only at member
  split at member
  · next ascii =>
      rw [List.mem_singleton.mp member, UInt8.toNat_ofNat', Nat.mod_eq_of_lt (by omega)]
      rfl
  -- The first byte of a longer encoding is at least 192, and every other one at least 128.
  · split at member
    · simp only [List.mem_cons, List.not_mem_nil, or_false] at member
      rcases member with same | same <;> exact absurd same (large (by omega) (by omega))
    · split at member
      · simp only [List.mem_cons, List.not_mem_nil, or_false] at member
        rcases member with same | same | same <;>
          exact absurd same (large (by omega) (by omega))
      · simp only [List.mem_cons, List.not_mem_nil, or_false] at member
        rcases member with same | same | same | same <;>
          exact absurd same (large (by omega) (by omega))

/-- A character stands in the text if a byte below 128 of its number does. -/
theorem mem_of_mem_bytesOf {character : Char} {byte : UInt8} (small : byte.toNat < 128)
    (same : character.toNat = byte.toNat) (member : byte ∈ bytesOf text) :
    character ∈ text.toList := by
  rw [← String.ofList_toList (s := text), bytesOf_ofList] at member
  obtain ⟨other, inText, encoded⟩ := List.mem_flatMap.mp member
  have equal : other = character :=
    Char.toNat_inj.mp ((toNat_eq_of_mem_utf8EncodeChar small encoded).trans same.symm)
  exact equal ▸ inText

namespace Console

/-! ## Lines -/

/-- A line of the input in which no interrupts come. -/
def Line.quiet (text : String) : Line := ⟨some text, 0⟩

theorem timed_quiet (text : String) :
    Chunk.timed ⟨text.toUTF8, 0⟩ = (bytesOf text).map fun byte => (byte, 0) := by
  rw [Chunk.timed, bytesOf]
  dsimp only
  cases text.toUTF8.data.toList <;> rfl

/-- Bytes without a line feed belong to the line that has been read in part. -/
theorem splitLines_append {bytes : List UInt8} (noFeed : lineFeed ∉ bytes)
    (reversed : List UInt8) (rest : List TimedByte) :
    splitLines reversed 0 ((bytes.map fun byte => (byte, 0)) ++ rest) =
      splitLines (bytes.reverse ++ reversed) 0 rest := by
  induction bytes generalizing reversed with
  | nil => rfl
  | cons byte others inductionHypothesis =>
      obtain ⟨plain, othersPlain⟩ := not_or.mp (mt List.mem_cons.mpr noFeed)
      rw [List.map_cons, List.cons_append, splitLines, if_neg (Ne.symm plain),
        inductionHypothesis othersPlain, List.reverse_cons, List.append_assoc]
      rfl

theorem lineFeed_not_mem (noFeed : '\n' ∉ text.toList) : lineFeed ∉ bytesOf text :=
  fun member => noFeed (mem_of_mem_bytesOf (by decide) (by decide) member)

theorem lineOf_bytesOf (text : String) : lineOf (bytesOf text).reverse 0 = .quiet text := by
  rw [lineOf, List.reverse_reverse, fromUTF8?_bytesOf]
  rfl

/-- A text that the input ends behind is a line as it stands. -/
theorem linesOf_text (noFeed : '\n' ∉ text.toList) (nonempty : text ≠ "") :
    linesOf [⟨text.toUTF8, 0⟩] = [.quiet text] := by
  have someByte : ¬ (bytesOf text).reverse.isEmpty = true := by
    rw [List.isEmpty_reverse, List.isEmpty_iff, bytesOf_eq_nil_iff]
    exact nonempty
  rw [linesOf, List.flatMap_singleton, timed_quiet, ← List.append_nil (List.map _ _),
    splitLines_append (lineFeed_not_mem noFeed), List.append_nil, splitLines, if_neg someByte,
    lineOf_bytesOf]

/-- What is dropped in front of a line feed is a carriage return at the end of the text. -/
theorem dropReturn_bytesOf (text : String) :
    ∃ line, dropReturn (bytesOf text).reverse = (bytesOf line).reverse ∧
      (text = line ∨ text = line ++ "\r") := by
  rcases text.toList.eq_nil_or_concat with nothing | ⟨front, last, whole⟩
  · rw [String.toList_eq_nil_iff.mp nothing]
    exact ⟨"", rfl, .inl rfl⟩
  · rw [List.concat_eq_append] at whole
    have split : text = String.ofList front ++ String.ofList [last] := by
      rw [← String.ofList_append, ← whole, String.ofList_toList]
    have encoded : bytesOf (String.ofList [last]) = String.utf8EncodeChar last := by
      rw [bytesOf_ofList, List.flatMap_singleton]
    by_cases isReturn : last = '\r'
    · subst isReturn
      have single : bytesOf "\r" = [carriageReturn] := rfl
      refine ⟨String.ofList front, ?_, .inr split⟩
      rw [split, bytesOf_append, show String.ofList ['\r'] = "\r" from rfl, single,
        List.reverse_append]
      rfl
    · obtain ⟨final, others, ends⟩ := List.exists_cons_of_ne_nil
        (mt List.reverse_eq_nil_iff.mp (String.utf8EncodeChar_ne_nil (c := last)))
      have inCharacter : final ∈ String.utf8EncodeChar last := by
        rw [← List.mem_reverse, ends]
        exact List.mem_cons_self
      have kept : final ≠ carriageReturn := fun same => isReturn (Char.toNat_inj.mp
        (toNat_eq_of_mem_utf8EncodeChar (by decide) (same ▸ inCharacter)))
      refine ⟨text, ?_, .inl rfl⟩
      rw [split, bytesOf_append, encoded, List.reverse_append, ends]
      exact if_neg kept

/-- A text that a line feed ends is a line, without a carriage return at its end. -/
theorem linesOf_ended (noFeed : '\n' ∉ text.toList) :
    ∃ line, linesOf [⟨(text ++ "\n").toUTF8, 0⟩] = [.quiet line] ∧
      (text = line ∨ text = line ++ "\r") := by
  obtain ⟨line, dropped, same⟩ := dropReturn_bytesOf text
  refine ⟨line, ?_, same⟩
  have feed : (bytesOf "\n").map (fun byte => ((byte, 0) : TimedByte)) = [(lineFeed, 0)] := rfl
  rw [linesOf, List.flatMap_singleton, timed_quiet, bytesOf_append, List.map_append, feed,
    splitLines_append (lineFeed_not_mem noFeed), List.append_nil, splitLines, if_pos rfl, dropped,
    lineOf_bytesOf]
  rfl

end Console

end FormLang
