import FormLang.Data.Rendering
import FormLang.Proofs.Source.Classification
import FormLang.Proofs.Source.Grammar

/-!
Contract: reading the text of a program again.

The text of a program has the lexemes of its heads, and a pair of parentheses for every node.
Three things are lost in it: a tag is not written, an infinite number is written as a word
that is a symbol, and an unclosed span takes in the space in front of a tail.

Owns: the tokens of the text of a tree, what they are read as, and for which programs this is
the program again.
-/

set_option autoImplicit false

namespace FormLang

open Source

/-- The lexeme of the head of a form, if one is written. -/
def Expr.writtenHead (hasTail : Bool) (head : Atom) : List Token :=
  if isTagged head then [] else [.lexeme (writtenLexeme hasTail head)]

mutual

/-- The tokens of the text of a tree. -/
def Expr.writtenTokens : Expr → List Token
  | .node head tail _ =>
      .opening :: (writtenHead (!tail.isEmpty) head ++ writtenTokensOfEach tail ++ [.closing])

def Expr.writtenTokensOfEach : List Expr → List Token
  | [] => []
  | first :: rest => first.writtenTokens ++ writtenTokensOfEach rest

end

mutual

/-- What the text of a tree is read as. -/
def Expr.reread : Expr → Except SyntaxError Expr
  | .node head tail _ =>
      if isTagged head then
        .error (if tail.isEmpty then .emptyForm else .formHead)
      else
        return .form (rereadAtom (!tail.isEmpty) head) (← rereadEach tail)

def Expr.rereadEach : List Expr → Except SyntaxError (List Expr)
  | [] => return []
  | first :: rest => return (← first.reread) :: (← rereadEach rest)

end

namespace Source

/-! ## The tokens of a text -/

variable {expression : Expr} {text : String}

theorem scan_opening (rest : List Char) :
    scan .gap ('(' :: rest) = .opening :: scan .gap rest := rfl

theorem scan_space (rest : List Char) : scan .gap (' ' :: rest) = scan .gap rest := rfl

/-- The text of the head of a form is scanned as its lexeme, up to a parenthesis. -/
theorem scan_headText {head : Atom} (legible : Legible head) (hasTail : Bool)
    {character : Char} (ends : endsSpan character = true) (rest : List Char) :
    scan .gap ((Expr.headText .quoted head hasTail).toList ++ character :: rest) =
      Expr.writtenHead hasTail head ++ scan .gap (character :: rest) := by
  unfold Expr.headText Expr.writtenHead
  cases Expr.isTagged head with
  | true => rfl
  | false =>
      cases hasTail with
      | true =>
          have spaced := scan_lexeme_space legible ends rest
          simpa [writtenLexeme] using spaced
      | false =>
          have plain := scan_lexeme legible ends rest
          simpa [writtenLexeme] using plain

theorem text_toList (head : Atom) (tail : List Expr) (properties : Table Expr)
    (rest : List Char) :
    (Expr.node head tail properties).text.toList ++ rest =
      '(' :: ((Expr.headText .quoted head (!tail.isEmpty)).toList ++
        ((String.intercalate " " (Expr.renderEach .quoted tail)).toList ++ ')' :: rest)) := by
  rw [Expr.text, Expr.render]
  simp

/-- Between two children stands a space, and behind the last one nothing. -/
theorem children_toList (first : Expr) (others : List Expr) (rest : List Char) :
    ∃ between, (between = [] ∨ between = [' ']) ∧
      (String.intercalate " " (Expr.renderEach .quoted (first :: others))).toList ++ rest =
        first.text.toList ++ (between ++
          ((String.intercalate " " (Expr.renderEach .quoted others)).toList ++ rest)) := by
  cases others with
  | nil => exact ⟨[], .inl rfl, rfl⟩
  | cons second more =>
      refine ⟨[' '], .inr rfl, ?_⟩
      simp only [Expr.renderEach, String.toList_intercalate, List.map_cons,
        List.intercalate_cons_cons, List.append_assoc]
      rfl

/-- Behind the head of a form comes a parenthesis. -/
theorem children_start (children : List Expr) (rest : List Char) :
    ∃ character others,
      (String.intercalate " " (Expr.renderEach .quoted children)).toList ++ ')' :: rest =
        character :: others ∧ endsSpan character = true := by
  cases children with
  | nil => exact ⟨')', rest, rfl, rfl⟩
  | cons first others =>
      obtain ⟨between, -, shape⟩ := children_toList first others (')' :: rest)
      cases first with
      | node head tail properties =>
          rw [text_toList] at shape
          exact ⟨'(', _, shape, rfl⟩

mutual

/-- The text of a tree with legible heads is scanned as the tokens of the tree. -/
theorem scan_text (expression : Expr) (heads : ∀ head ∈ expression.heads, Legible head)
    (rest : List Char) :
    scan .gap (expression.text.toList ++ rest) = expression.writtenTokens ++ scan .gap rest := by
  match expression with
  | .node head tail properties =>
      rw [heads_node] at heads
      obtain ⟨headLegible, tailLegible⟩ := List.forall_mem_cons.mp heads
      obtain ⟨character, others, shape, ends⟩ := children_start tail rest
      rw [text_toList, scan_opening, shape, scan_headText headLegible _ ends, ← shape,
        scan_children tail tailLegible, Expr.writtenTokens]
      simp

theorem scan_children (children : List Expr)
    (heads : ∀ head ∈ (Expr.nodesOfEach children).map Expr.head, Legible head)
    (rest : List Char) :
    scan .gap ((String.intercalate " " (Expr.renderEach .quoted children)).toList ++ ')' :: rest) =
      Expr.writtenTokensOfEach children ++ .closing :: scan .gap rest := by
  match children with
  | [] => rfl
  | first :: others =>
      rw [Expr.nodesOfEach, List.map_append] at heads
      obtain ⟨firstLegible, othersLegible⟩ := List.forall_mem_append.mp heads
      obtain ⟨between, blank, shape⟩ := children_toList first others (')' :: rest)
      rw [shape, scan_text first firstLegible, Expr.writtenTokensOfEach, List.append_assoc,
        ← scan_children others othersLegible]
      rcases blank with rfl | rfl
      · rfl
      · rw [List.singleton_append, scan_space]

end

theorem tokenize_text (heads : ∀ head ∈ expression.heads, Legible head) :
    tokenize expression.text = expression.writtenTokens := by
  have scanned := scan_text expression heads []
  rw [List.append_nil] at scanned
  exact scanned.trans (List.append_nil _)

/-! ## Reading the tokens of a text -/

/-- What is read behind the end of a form. -/
def resume (outer : List OpenForm) (form : Expr) (rest : List Token) : Except SyntaxError Expr :=
  match outer with
  | [] => if rest.isEmpty then .ok form else .error .trailingInput
  | parent :: outer => readTail (parent.add form) outer rest

theorem readTail_closing (form : OpenForm) (outer : List OpenForm) (rest : List Token) :
    readTail form outer (.closing :: rest) = resume outer form.close rest := by
  cases outer <;> rfl

/-- A form is read as its tree if its tail is. -/
theorem readHead_written {head : Atom} {tail : List Expr} (headFrom : FromLexeme head)
    (tailRead : ∀ form outer rest, readTail form outer (Expr.writtenTokensOfEach tail ++ rest) =
      Expr.rereadEach tail >>= fun children => readTail (form.addEach children) outer rest)
    (properties : Table Expr) (outer : List OpenForm) (rest : List Token) :
    readHead outer (Expr.writtenHead (!tail.isEmpty) head ++
        (Expr.writtenTokensOfEach tail ++ .closing :: rest)) =
      (Expr.node head tail properties).reread >>= fun form => resume outer form rest := by
  rw [Expr.writtenHead, Expr.reread]
  cases Expr.isTagged head with
  | true =>
      -- The tag is not written, so a parenthesis stands where the head is read.
      cases tail with
      | nil => rfl
      | cons first others =>
          cases first with
          | node head tail properties =>
              rw [Expr.writtenTokensOfEach, Expr.writtenTokens]
              rfl
  | false =>
      change readHead outer (.lexeme (writtenLexeme (!tail.isEmpty) head) ::
        (Expr.writtenTokensOfEach tail ++ .closing :: rest)) = _
      rw [readHead, headFrom.classify_writtenLexeme]
      change readTail ⟨rereadAtom (!tail.isEmpty) head, []⟩ outer _ = _
      rw [tailRead]
      cases Expr.rereadEach tail with
      | error error => rfl
      | ok children =>
          change readTail (OpenForm.addEach ⟨_, []⟩ children) outer (.closing :: rest) = _
          rw [readTail_closing, OpenForm.close_addEach]
          rfl

mutual

/-- The tokens of a tree are read as what the tree is read as. -/
theorem readTail_written (expression : Expr)
    (heads : ∀ head ∈ expression.heads, FromLexeme head) (form : OpenForm)
    (outer : List OpenForm) (rest : List Token) :
    readTail form outer (expression.writtenTokens ++ rest) =
      expression.reread >>= fun child => readTail (form.add child) outer rest := by
  match expression with
  | .node head tail properties =>
      rw [heads_node] at heads
      obtain ⟨headFrom, tailFrom⟩ := List.forall_mem_cons.mp heads
      rw [Expr.writtenTokens, List.cons_append, List.append_assoc, List.append_assoc, readTail]
      exact readHead_written headFrom (readTail_writtenEach tail tailFrom) properties
        (form :: outer) rest

theorem readTail_writtenEach (children : List Expr)
    (heads : ∀ head ∈ (Expr.nodesOfEach children).map Expr.head, FromLexeme head)
    (form : OpenForm) (outer : List OpenForm) (rest : List Token) :
    readTail form outer (Expr.writtenTokensOfEach children ++ rest) =
      Expr.rereadEach children >>= fun others => readTail (form.addEach others) outer rest := by
  match children with
  | [] => rfl
  | first :: others =>
      rw [Expr.nodesOfEach, List.map_append] at heads
      obtain ⟨firstFrom, othersFrom⟩ := List.forall_mem_append.mp heads
      rw [Expr.writtenTokensOfEach, Expr.rereadEach, List.append_assoc,
        readTail_written first firstFrom]
      cases first.reread with
      | error error => rfl
      | ok child =>
          change readTail (form.add child) outer (Expr.writtenTokensOfEach others ++ rest) = _
          rw [readTail_writtenEach others othersFrom]
          cases Expr.rereadEach others with
          | error error => rfl
          | ok children =>
              change readTail ((form.add child).addEach children) outer rest = _
              rw [← OpenForm.addEach_cons]
              rfl

end

/-- The text of a tree with heads that lexemes stand for is read as `Expr.reread` tells. -/
theorem read_text {expression : Expr} (heads : ∀ head ∈ expression.heads, FromLexeme head) :
    read expression.text = expression.reread := by
  have written := tokenize_text fun head member => (heads head member).legible
  cases expression with
  | node head tail properties =>
      rw [heads_node] at heads
      obtain ⟨headFrom, tailFrom⟩ := List.forall_mem_cons.mp heads
      rw [read, written, Expr.writtenTokens, readTokens, List.append_assoc]
      refine (readHead_written headFrom (readTail_writtenEach tail tailFrom) properties
        [] []).trans ?_
      cases (Expr.node head tail properties).reread <;> rfl

/-- The heads of a program are what lexemes stand for. -/
theorem read_fromLexeme {text : String} {program : Expr} (read : Source.read text = .ok program) :
    ∀ head ∈ program.heads, FromLexeme head := by
  intro head member
  obtain ⟨lexeme, found, classified⟩ := mem_of_mapM_classify (read_heads read) member
  obtain ⟨token, inText, isLexeme⟩ := List.mem_filterMap.mp found
  cases token with
  | opening => cases isLexeme
  | closing => cases isLexeme
  | lexeme other =>
      cases isLexeme
      exact ⟨lexeme, tokenize_lexemes inText, classified⟩

/-! ## Programs that are read as themselves -/

mutual

/-- A text of a tree is read at all exactly if there is no tag in the tree. -/
theorem reread_isOk_iff (expression : Expr) :
    (∃ other, expression.reread = .ok other) ↔
      ∀ head ∈ expression.heads, Expr.isTagged head = false := by
  match expression with
  | .node head tail properties =>
      rw [heads_node, List.forall_mem_cons, ← rereadEach_isOk_iff tail, Expr.reread]
      cases Expr.isTagged head with
      | true => simp
      | false => cases Expr.rereadEach tail <;> simp [bind, Except.bind, pure, Except.pure]

theorem rereadEach_isOk_iff (children : List Expr) :
    (∃ others, Expr.rereadEach children = .ok others) ↔
      ∀ head ∈ (Expr.nodesOfEach children).map Expr.head, Expr.isTagged head = false := by
  match children with
  | [] => simp [Expr.rereadEach, Expr.nodesOfEach, pure, Except.pure]
  | first :: others =>
      rw [Expr.nodesOfEach, List.map_append, List.forall_mem_append, ← Expr.heads,
        ← reread_isOk_iff first, ← rereadEach_isOk_iff others, Expr.rereadEach]
      cases first.reread <;> cases Expr.rereadEach others <;>
        simp [bind, Except.bind, pure, Except.pure]

end

/-- The head of the node is written, and read as itself. -/
def Expr.KeepsHead (node : Expr) : Prop :=
  Expr.isTagged node.head = false ∧ rereadAtom (!node.tail.isEmpty) node.head = node.head

mutual

theorem reread_eq_self_iff (expression : Expr) (plain : expression.Plain) :
    expression.reread = .ok expression ↔ ∀ node ∈ expression.nodes, Expr.KeepsHead node := by
  match expression with
  | .node head tail properties =>
      have tailPlain := plain.tail
      obtain rfl : properties = [] := plain.properties
      rw [Expr.nodes, List.forall_mem_cons, ← rereadEach_eq_self_iff tail tailPlain, Expr.reread]
      change _ ↔ (Expr.isTagged head = false ∧ rereadAtom (!tail.isEmpty) head = head) ∧ _
      cases Expr.isTagged head with
      | true => simp
      | false =>
          cases Expr.rereadEach tail <;> simp [bind, Except.bind, pure, Except.pure, Expr.form]

theorem rereadEach_eq_self_iff (children : List Expr) (plain : ∀ child ∈ children, child.Plain) :
    Expr.rereadEach children = .ok children ↔
      ∀ node ∈ Expr.nodesOfEach children, Expr.KeepsHead node := by
  match children with
  | [] => simp [Expr.rereadEach, Expr.nodesOfEach, pure, Except.pure]
  | first :: others =>
      obtain ⟨firstPlain, othersPlain⟩ := List.forall_mem_cons.mp plain
      rw [Expr.nodesOfEach, List.forall_mem_append, ← reread_eq_self_iff first firstPlain,
        ← rereadEach_eq_self_iff others othersPlain, Expr.rereadEach]
      cases first.reread <;> cases Expr.rereadEach others <;>
        simp [bind, Except.bind, pure, Except.pure]

end

theorem isTagged_eq_false_iff (head : Atom) :
    Expr.isTagged head = false ↔
      head ≠ .symbol Expr.listTag ∧ head ≠ .symbol Expr.lambdaTag := by
  cases head <;> simp [Expr.isTagged, Atom.symbol?]

/-- What a program is written as is read as that program again exactly if no head in it is a
tag, none is an infinite number, and none with a tail is an unclosed span. If a head is a tag
it is not read as a program, and otherwise it is. -/
theorem reread_iff {text : String} {program : Expr} (read : Source.read text = .ok program) :
    (Source.read program.text = .ok program ↔
      (∀ node ∈ program.nodes,
        node.head ≠ .symbol Expr.listTag ∧ node.head ≠ .symbol Expr.lambdaTag) ∧
      (∀ node ∈ program.nodes, ∀ number, node.head = .number number → number.isInf = false) ∧
      ∀ node ∈ program.nodes, node.tail ≠ [] →
        ∀ name, node.head = .symbol name → name.toList.count '"' ≠ 1) ∧
    ((∃ node ∈ program.nodes,
        node.head = .symbol Expr.listTag ∨ node.head = .symbol Expr.lambdaTag) →
      ∃ error, Source.read program.text = .error error) ∧
    ((∀ node ∈ program.nodes,
        node.head ≠ .symbol Expr.listTag ∧ node.head ≠ .symbol Expr.lambdaTag) →
      ∃ other, Source.read program.text = .ok other) := by
  rw [read_text (read_fromLexeme read)]
  have succeeds : (∃ other, program.reread = .ok other) ↔
      ∀ node ∈ program.nodes,
        node.head ≠ .symbol Expr.listTag ∧ node.head ≠ .symbol Expr.lambdaTag := by
    rw [reread_isOk_iff, Expr.heads, List.forall_mem_map]
    simp only [isTagged_eq_false_iff]
  refine ⟨?_, ?_, succeeds.mpr⟩
  · have keeps : ∀ node, Expr.KeepsHead node ↔
        (node.head ≠ .symbol Expr.listTag ∧ node.head ≠ .symbol Expr.lambdaTag) ∧
        (∀ number, node.head = .number number → number.isInf = false) ∧
        (node.tail ≠ [] → ∀ name, node.head = .symbol name → name.toList.count '"' ≠ 1) := by
      intro node
      rw [Expr.KeepsHead, isTagged_eq_false_iff, rereadAtom_eq_self_iff]
      simp
    rw [reread_eq_self_iff program (read_plain read)]
    simp only [keeps]
    constructor
    · exact fun each => ⟨fun node member => (each node member).1,
        fun node member => (each node member).2.1, fun node member => (each node member).2.2⟩
    · exact fun ⟨tags, numbers, spans⟩ node member =>
        ⟨tags node member, numbers node member, spans node member⟩
  · rintro ⟨node, member, tag⟩
    cases reread : program.reread with
    | error error => exact ⟨error, rfl⟩
    | ok other =>
        obtain ⟨noList, noLambda⟩ := succeeds.mp ⟨other, reread⟩ node member
        rcases tag with list | lambda
        · exact absurd list noList
        · exact absurd lambda noLambda

/-- `(scale 0.5 (grid "a b"))` -/
def scaledGrid : Expr :=
  .form (.symbol "scale") [.leaf (.ofNumber 0.5), .form (.symbol "grid") [.leaf (.string "a b")]]

/-- The comment is lost, and the leaves get parentheses of their own, but the tree stays. -/
theorem scaledGrid_reread :
    Source.read "(scale 0.5 (grid \"a b\")) ; halves" = .ok scaledGrid ∧
      Source.read scaledGrid.text = .ok scaledGrid := by
  have read : Source.read "(scale 0.5 (grid \"a b\")) ; halves" = .ok scaledGrid := by
    decide +kernel
  have numbers : ∀ node ∈ scaledGrid.nodes, ∀ number ∈ node.head.number?,
      number.isInf = false := by
    decide +kernel
  have spans : ∀ node ∈ scaledGrid.nodes, ∀ name ∈ node.head.symbol?,
      name.toList.count '"' ≠ 1 := by
    decide +kernel
  refine ⟨read, (reread_iff read).1.mpr ⟨by decide +kernel, ?_, ?_⟩⟩
  · exact fun node member number head => numbers node member number (by rw [head]; rfl)
  · exact fun node member _ name head => spans node member name (by rw [head]; rfl)

/-- An unclosed span takes in the space that is written in front of the tail. -/
example : (Source.read "(say\"(x))").bind (fun program => Source.read program.text) =
    .ok (.form (.symbol "say\" ") [.leaf (.symbol "x")]) := by
  decide +kernel

end Source

end FormLang
