import FormLang.Proofs.Evaluation.Atoms
import FormLang.Proofs.Evaluation.Soundness
import FormLang.Proofs.Stripping

/-!
Contract: the text of data tells which data it is.

The tag of a list is not written, so a text has to be taken apart by its parentheses. Every
other head is written as one lexeme. So a literal starts with a parenthesis and a lexeme, and
a list with two parentheses: its own and that of its first item, or its own two.

Owns: the texts of literals, data, the decoding of the tokens of data, and the theorem that
values without functions have one text exactly if they differ in no more than properties.
-/

set_option autoImplicit false

namespace FormLang

open Numeric Source

/-! ## Literals -/

section Literals

variable {atom other : Atom}

/-- A quote in the text of a literal says that it is a string, a comma in a text without
quotes that it is a complex number, and one text is that of nothing. -/
theorem literal_kind (plain : atom.symbol? = none) :
    ('"' ∈ (atom.render .quoted).toList ↔ ∃ content, atom = .string content) ∧
    ('"' ∉ (atom.render .quoted).toList ∧ ',' ∈ (atom.render .quoted).toList ↔
      ∃ value, atom = .complex value) ∧
    (atom.render .quoted = "NONE" ↔ atom = .none) := by
  have noQuote : ∀ number, '"' ∉ (plainText number).toList := fun number =>
    not_mem_plainText number rfl
  have noComma : ∀ number, ',' ∉ (plainText number).toList := fun number =>
    not_mem_plainText number rfl
  cases atom with
  | none => simp [Atom.render]
  | number number => simp [Atom.render, noQuote, noComma, plainText_ne_nothing]
  | symbol name => cases plain
  | complex value =>
      have comma : ',' ∈ ((Atom.complex value).render .quoted).toList := by simp [Atom.render]
      have noWord : (Atom.complex value).render .quoted ≠ "NONE" := by
        intro same
        rw [same] at comma
        exact absurd comma (by decide)
      simp [comma, noWord]
      simp [Atom.render, noQuote]
  | string content =>
      have quote : '"' ∈ ((Atom.string content).render .quoted).toList := by simp [Atom.render]
      have noWord : (Atom.string content).render .quoted ≠ "NONE" := by
        intro same
        rw [same] at quote
        exact absurd quote (by decide)
      simp [quote, noWord]

theorem complex_eq_of_render_eq {value value' : Complex}
    (same : (Atom.complex value).render .quoted = (Atom.complex value').render .quoted) :
    value = value' := by
  have characters := congrArg String.toList same
  simp only [Atom.render, String.toList_append, List.append_assoc] at characters
  obtain ⟨real, -, imaginary⟩ := (List.append_cons_inj_of_notMem
    (not_mem_plainText value.re rfl) (not_mem_plainText value.im rfl)).mp characters
  cases value
  cases value'
  exact congrArg₂ Complex.mk (plainText_injective (String.toList_injective real))
    (plainText_injective (String.toList_injective imaginary))

/-- The text of a literal tells which literal it is. -/
theorem literal_eq_of_render_eq (plain : atom.symbol? = none) (otherPlain : other.symbol? = none)
    (same : atom.render .quoted = other.render .quoted) : atom = other := by
  obtain ⟨string, complex, nothing⟩ := literal_kind plain
  obtain ⟨otherString, otherComplex, otherNothing⟩ := literal_kind otherPlain
  rw [← same] at otherString otherComplex otherNothing
  cases atom with
  | none => exact (otherNothing.mp (nothing.mpr rfl)).symm
  | symbol name => cases plain
  | string content =>
      obtain ⟨content', rfl⟩ := otherString.mp (string.mpr ⟨content, rfl⟩)
      have contents : content = content' := by simpa [Atom.render] using same
      rw [contents]
  | complex value =>
      obtain ⟨value', rfl⟩ := otherComplex.mp (complex.mpr ⟨value, rfl⟩)
      rw [complex_eq_of_render_eq same]
  | number number =>
      cases other with
      | number number' => exact congrArg Atom.number (plainText_injective same)
      | none => cases nothing.mp (otherNothing.mpr rfl)
      | symbol name => cases otherPlain
      | string content =>
          obtain ⟨content', impossible⟩ := string.mp (otherString.mpr ⟨content, rfl⟩)
          cases impossible
      | complex value =>
          obtain ⟨value', impossible⟩ := complex.mp (otherComplex.mpr ⟨value, rfl⟩)
          cases impossible

end Literals

/-! ## Data -/

/-- A literal, or a list of data, with any properties. -/
inductive Expr.IsData : Expr → Prop where
  | literal {head : Atom} {properties : Table Expr} (plain : head.symbol? = none) :
      IsData (.node head [] properties)
  | list {items : List Expr} {properties : Table Expr} (each : ∀ item ∈ items, item.IsData) :
      IsData (.node (.symbol Expr.listTag) items properties)

/-- A value is data if no node of it is a function. -/
theorem Expr.ValueOver.isData {bodies : Expr → Prop} {value : Expr} (holds : value.ValueOver bodies)
    (noFunction : ∀ node ∈ value.nodes, node.isLambda = false) : value.IsData := by
  induction holds with
  | literal plain _ => exact .literal plain
  | list _ _ items _ =>
      refine .list fun item member => items item member fun node inside => noFunction node ?_
      exact List.mem_cons_of_mem _ (Expr.mem_nodesOfEach_iff.mpr ⟨item, member, inside⟩)
  | @function parameters body properties tagged bare _ _ =>
      have function := Expr.isLambda_of_tagged body properties tagged bare
      exact absurd (function.symm.trans (noFunction _ List.mem_cons_self)) (by decide)

/-! ## Decoding -/

namespace Expr

variable {items items' : List Expr} {value other : Expr} {rest rest' : List Token}

/-- Where the tokens of the tree and those of data are the beginning of the same tokens, the data
is the tree, and what comes behind is the same. -/
def ToldApart (value : Expr) : Prop :=
  ∀ (other : Expr) (rest rest' : List Token), other.IsData →
    value.writtenTokens ++ rest = other.writtenTokens ++ rest' →
      value.strip = other.strip ∧ rest = rest'

theorem writtenTokens_literal {head : Atom} (plain : head.symbol? = none)
    (properties : Table Expr) (rest : List Token) :
    (node head [] properties).writtenTokens ++ rest =
      .opening :: .lexeme (head.render .quoted) :: .closing :: rest := by
  have untagged : isTagged head = false := by simp [isTagged, plain]
  simp [writtenTokens, writtenHead, untagged, writtenLexeme, writtenTokensOfEach]

theorem writtenTokens_list (items : List Expr) (properties : Table Expr) (rest : List Token) :
    (node (.symbol listTag) items properties).writtenTokens ++ rest =
      .opening :: (writtenTokensOfEach items ++ .closing :: rest) := by
  change .opening :: (writtenTokensOfEach items ++ [.closing]) ++ rest = _
  simp

/-- Items start with a parenthesis that opens the first of them. -/
theorem writtenTokensOfEach_cons (first : Expr) (others : List Expr) :
    ∃ behind, writtenTokensOfEach (first :: others) = .opening :: behind := by
  cases first
  exact ⟨_, rfl⟩

/-- What goes on with an item is not at its end. -/
theorem writtenTokensOfEach_cons_ne_closing (first : Expr) (others : List Expr) :
    writtenTokensOfEach (first :: others) ++ rest ≠ .closing :: rest' := by
  obtain ⟨behind, opening⟩ := writtenTokensOfEach_cons first others
  rw [opening]
  exact fun same => by cases same

/-- A list goes on with a parenthesis, so it is no literal. -/
theorem writtenTokensOfEach_ne_lexeme {text : String} (items : List Expr) :
    writtenTokensOfEach items ++ .closing :: rest ≠ .lexeme text :: rest' := by
  cases items with
  | nil => exact fun same => by cases same
  | cons first others =>
      obtain ⟨behind, opening⟩ := writtenTokensOfEach_cons first others
      rw [opening]
      exact fun same => by cases same

/-- Items that are told apart are so one after the other, up to the end of their list. -/
theorem toldApart_each (apart : ∀ item ∈ items, item.ToldApart)
    (data : ∀ item ∈ items', item.IsData)
    (same : writtenTokensOfEach items ++ .closing :: rest =
      writtenTokensOfEach items' ++ .closing :: rest') :
    items.map strip = items'.map strip ∧ rest = rest' := by
  induction items generalizing items' with
  | nil =>
      cases items' with
      | nil => exact ⟨rfl, (List.cons.inj same).2⟩
      | cons first others =>
          exact absurd same.symm (writtenTokensOfEach_cons_ne_closing first others)
  | cons first others inductionHypothesis =>
      obtain ⟨firstApart, othersApart⟩ := List.forall_mem_cons.mp apart
      cases items' with
      | nil => exact absurd same (writtenTokensOfEach_cons_ne_closing first others)
      | cons first' others' =>
          obtain ⟨firstData, othersData⟩ := List.forall_mem_cons.mp data
          rw [writtenTokensOfEach, writtenTokensOfEach, List.append_assoc, List.append_assoc] at same
          obtain ⟨firsts, behind⟩ := firstApart first' _ _ firstData same
          obtain ⟨rests, ends⟩ := inductionHypothesis othersApart othersData behind
          exact ⟨by rw [List.map_cons, List.map_cons, firsts, rests], ends⟩

theorem IsData.toldApart (data : value.IsData) : value.ToldApart := by
  induction data with
  | literal plain =>
      intro other rest rest' otherData same
      rw [writtenTokens_literal plain] at same
      cases otherData with
      | literal otherPlain =>
          rw [writtenTokens_literal otherPlain] at same
          simp only [List.cons.injEq, Token.lexeme.injEq, true_and] at same
          rw [strip_node, strip_node, literal_eq_of_render_eq plain otherPlain same.1]
          exact ⟨rfl, same.2⟩
      | list each =>
          rw [writtenTokens_list] at same
          exact absurd (List.cons.inj same).2.symm (writtenTokensOfEach_ne_lexeme _)
  | list each apart =>
      intro other rest rest' otherData same
      rw [writtenTokens_list] at same
      cases otherData with
      | literal otherPlain =>
          rw [writtenTokens_literal otherPlain] at same
          exact absurd (List.cons.inj same).2 (writtenTokensOfEach_ne_lexeme _)
      | list otherEach =>
          rw [writtenTokens_list] at same
          obtain ⟨items, rests⟩ := toldApart_each apart otherEach (List.cons.inj same).2
          rw [strip_node, strip_node, items]
          exact ⟨rfl, rests⟩

end Expr

/-! ## Values that programs produce -/

/-- The value is the outcome of some program of a session. -/
def Expr.Produced (value : Expr) : Prop :=
  ∃ outcomes session text, Session.fresh.Runs outcomes session ∧ (text, .ok value) ∈ outcomes

variable {value other : Expr}

theorem Expr.Produced.isData (produced : value.Produced)
    (noFunction : ∀ node ∈ value.nodes, node.isLambda = false) : value.IsData := by
  obtain ⟨outcomes, session, text, runs, member⟩ := produced
  have start : Session.fresh.environment.Binds (Expr.ValueOver Expr.Plain) :=
    Environment.initial_binds .leaf
  exact ((Evaluation.runs_sound start runs).2 text value member).isData noFunction

/-- What a first program evaluates to is produced. -/
theorem Expr.Produced.ofProgram (budget : Nat) {text : String} {program : Expr}
    {left : Environment} (read : Source.read text = .ok program)
    (ended : evaluate budget program .initial = some (.ok value, left)) : value.Produced := by
  have ran : Session.fresh.run budget text = some (.ok value, ⟨left, some program⟩) := by
    rw [Session.run_of_read read, Session.fresh, ended]
    rfl
  exact ⟨_, _, text, .program budget ran (.none _), List.mem_cons_self⟩

/-- The text of a value that was produced has the tokens that are written for it. -/
theorem Expr.Produced.tokenize_text (produced : value.Produced) :
    tokenize value.text = value.writtenTokens := by
  obtain ⟨outcomes, session, text, runs, member⟩ := produced
  have closed := Atom.closed_legible
  obtain ⟨-, results⟩ := Evaluation.runs_madeOf closed (Evaluation.fresh_madeOf closed) runs
  exact Source.tokenize_text
    (Evaluation.heads_of_madeOf ((results text _ member).value value rfl))

/-- Properties are not written. -/
theorem Expr.text_strip (expression : Expr) : expression.strip.text = expression.text := by
  induction expression using Expr.induct with
  | node expression children _ =>
      cases expression with
      | node head tail properties =>
          have texts : (tail.map strip).map (render .quoted) = tail.map (render .quoted) := by
            rw [List.map_map]
            exact List.map_congr_left children
          rw [strip_node, text, text, form, render, render, renderEach_eq_map, renderEach_eq_map,
            texts, List.isEmpty_map]

/-- The text of data is unambiguous. Two values without functions that sessions produce have
one text exactly if they are the same tree of the same literals and lists, whatever properties
its nodes have. -/
theorem text_eq_iff_strip_eq (produced : value.Produced) (otherProduced : other.Produced)
    (noFunction : ∀ node ∈ value.nodes, node.isLambda = false)
    (otherNoFunction : ∀ node ∈ other.nodes, node.isLambda = false) :
    value.text = other.text ↔ value.strip = other.strip := by
  constructor
  · intro same
    have tokens : value.writtenTokens = other.writtenTokens := by
      rw [← produced.tokenize_text, same, otherProduced.tokenize_text]
    have otherData := otherProduced.isData otherNoFunction
    exact ((produced.isData noFunction).toldApart other [] [] otherData (by rw [tokens])).1
  · intro same
    rw [← value.text_strip, same, other.text_strip]

/-- The value of `(list "1 2")`. -/
def pairString : Expr := .list [.leaf (.string "1 2")]

/-- The value of `(set-property "unit" "m" (list "1 2"))`. -/
def annotatedPairString : Expr := pairString.setProperty "unit" (.leaf (.string "m"))

/-- The value of `(list 1 2)`. -/
def pairNumbers : Expr := .list [.ofNumber 1, .ofNumber 2]

/-- A property is not seen in the text of a list, but whether it holds one string of two
digits or two numbers is. -/
theorem pairs_told_apart :
    annotatedPairString.text = pairString.text ∧ pairString.text ≠ pairNumbers.text := by
  have one : pairString.Produced := by
    have read : Source.read "(list \"1 2\")" = .ok pairString := by decide +kernel
    exact .ofProgram 3 read rfl
  have annotated : annotatedPairString.Produced := by
    have read : Source.read "(set-property \"unit\" \"m\" (list \"1 2\"))" =
        .ok (.form (.symbol "set-property") [.leaf (.string "unit"), .leaf (.string "m"),
          pairString]) := by
      decide +kernel
    exact .ofProgram 3 read rfl
  have two : pairNumbers.Produced := by
    have read : Source.read "(list 1 2)" = .ok pairNumbers := by decide +kernel
    exact .ofProgram 3 read rfl
  refine ⟨(text_eq_iff_strip_eq annotated one (by decide) (by decide)).mpr (by decide), ?_⟩
  have different : pairString.strip ≠ pairNumbers.strip := by decide +kernel
  exact fun same => different
    ((text_eq_iff_strip_eq one two (by decide) (by decide +kernel)).mp same)

end FormLang
