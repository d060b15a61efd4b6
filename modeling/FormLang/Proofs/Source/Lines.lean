import FormLang.Source.Scan

/-!
Contract: line feeds between texts.

A line feed completes whatever the scanner has under way, be it a word, an open span or a
comment, and leaves nothing open. So it keeps the texts on either side apart.

Owns: scanning over a line feed, the tokens of texts that are joined by line feeds, and those of
a text with a carriage return at its end.
-/

set_option autoImplicit false

namespace FormLang.Source

theorem Mode.step_newline (mode : Mode) : mode.step '\n' = (mode.pending, .gap) := by
  cases mode <;> rfl

/-- The tokens in front of a line feed and those behind it do not depend on each other. -/
theorem scan_newline (mode : Mode) (characters rest : List Char) :
    scan mode (characters ++ '\n' :: rest) = scan mode characters ++ scan .gap rest := by
  induction characters generalizing mode with
  | nil => simp only [List.nil_append, scan, mode.step_newline]
  | cons first others inductionHypothesis =>
      simp only [List.cons_append, scan, inductionHypothesis, List.append_assoc]

/-- Texts that are joined by line feeds have the tokens of each, one text after the other. -/
theorem tokenize_lines (texts : List String) :
    tokenize (String.intercalate "\n" texts) = texts.flatMap tokenize := by
  induction texts with
  | nil => rfl
  | cons first others inductionHypothesis =>
      cases others with
      | nil => simp [tokenize]
      | cons second more =>
          have joined : (String.intercalate "\n" (first :: second :: more)).toList =
              first.toList ++ '\n' :: (String.intercalate "\n" (second :: more)).toList := by
            simp [String.toList_intercalate]
          rw [tokenize, joined, scan_newline, List.flatMap_cons, ← inductionHypothesis]
          rfl

/-- A carriage return at the end of a text completes what the end of the text completes. -/
theorem tokenize_return (text : String) : tokenize (text ++ "\r") = tokenize text := by
  have last (mode : Mode) (characters : List Char) :
      scan mode (characters ++ ['\r']) = scan mode characters := by
    induction characters generalizing mode with
    | nil => cases mode <;> rfl
    | cons first others inductionHypothesis =>
        simp only [List.cons_append, scan, inductionHypothesis]
  have characters : (text ++ "\r").toList = text.toList ++ ['\r'] := String.toList_append
  rw [tokenize, characters, last]
  rfl

end FormLang.Source
