import FormLang.Proofs.Source

/-!
Contract: the grammar of programs.

    form ::= opening lexeme item* closing
    item ::= lexeme | form

A derivation is a tree of lexemes and forms. Its tokens are read from left to right, and the
tree that it stands for has the first lexeme of every form as a head and the items behind
it as the tail.

Owns: derivations with their tokens and trees, the nodes of a tree in order, and the theorem
that a text is a program exactly if its tokens have a derivation, which is then the only one.
-/

set_option autoImplicit false

namespace FormLang

mutual

/-- The nodes of a tree, each one in front of those below it. -/
def Expr.nodes : Expr → List Expr
  | .node head tail properties => .node head tail properties :: nodesOfEach tail

def Expr.nodesOfEach : List Expr → List Expr
  | [] => []
  | first :: rest => first.nodes ++ nodesOfEach rest

end

theorem Expr.mem_nodesOfEach_iff {node : Expr} {children : List Expr} :
    node ∈ nodesOfEach children ↔ ∃ child ∈ children, node ∈ child.nodes := by
  induction children with
  | nil => simp [nodesOfEach]
  | cons first rest inductionHypothesis => simp [nodesOfEach, inductionHypothesis]

/-- The heads of the nodes of a tree, in order. -/
def Expr.heads (expression : Expr) : List Atom :=
  expression.nodes.map Expr.head

namespace Source

/-- A derivation of an item. That of a form is a derivation of a program, too. -/
inductive Phrase where
  | lexeme (text : String)
  | form (head : String) (items : List Phrase)

namespace Phrase

mutual

/-- The tokens that a derivation derives. -/
def tokens : Phrase → List Token
  | .lexeme text => [.lexeme text]
  | .form head items => .opening :: .lexeme head :: (tokensOfEach items ++ [.closing])

def tokensOfEach : List Phrase → List Token
  | [] => []
  | first :: rest => first.tokens ++ tokensOfEach rest

end

mutual

/-- The tree of a derivation, if all its lexemes stand for atoms. -/
def tree : Phrase → Except SyntaxError Expr
  | .lexeme text => do return .leaf (← classify text)
  | .form head items => do return .form (← classify head) (← treeOfEach items)

def treeOfEach : List Phrase → Except SyntaxError (List Expr)
  | [] => return []
  | first :: rest => do return (← first.tree) :: (← treeOfEach rest)

end

end Phrase

/-- The texts of the lexemes among tokens, in order. -/
def lexemes (tokens : List Token) : List String :=
  tokens.filterMap fun token =>
    match token with
    | .lexeme text => some text
    | _ => none

/-! ## Reading the tokens of a derivation -/

/-- The form with more children at its end. -/
def OpenForm.addEach (form : OpenForm) (children : List Expr) : OpenForm :=
  { form with reversed := children.reverse ++ form.reversed }

theorem OpenForm.addEach_cons (form : OpenForm) (first : Expr) (rest : List Expr) :
    form.addEach (first :: rest) = (form.add first).addEach rest := by
  simp [OpenForm.addEach, OpenForm.add]

theorem OpenForm.close_addEach (head : Atom) (children : List Expr) :
    (OpenForm.addEach ⟨head, []⟩ children).close = .form head children := by
  simp [OpenForm.addEach, OpenForm.close]

mutual

/-- The tokens of an item are read as its tree. -/
theorem readTail_tokens (phrase : Phrase) (form : OpenForm) (outer : List OpenForm)
    (rest : List Token) :
    readTail form outer (phrase.tokens ++ rest) =
      phrase.tree >>= fun child => readTail (form.add child) outer rest := by
  cases phrase with
  | lexeme text =>
      change readTail form outer (.lexeme text :: rest) = _
      rw [readTail, Phrase.tree]
      cases classify text <;> rfl
  | form head items =>
      rw [Phrase.tokens, Phrase.tree, List.cons_append, List.cons_append, readTail, readHead]
      cases classify head with
      | error error => rfl
      | ok atom =>
          change readTail ⟨atom, []⟩ (form :: outer)
            ((Phrase.tokensOfEach items ++ [.closing]) ++ rest) = _
          rw [List.append_assoc, readTail_tokensOfEach items]
          cases Phrase.treeOfEach items with
          | error error => rfl
          | ok children =>
              change readTail (OpenForm.addEach ⟨atom, []⟩ children) (form :: outer)
                (.closing :: rest) = _
              rw [readTail, OpenForm.close_addEach]
              rfl

theorem readTail_tokensOfEach (items : List Phrase) (form : OpenForm) (outer : List OpenForm)
    (rest : List Token) :
    readTail form outer (Phrase.tokensOfEach items ++ rest) =
      Phrase.treeOfEach items >>= fun children => readTail (form.addEach children) outer rest := by
  cases items with
  | nil => rfl
  | cons first others =>
      rw [Phrase.tokensOfEach, Phrase.treeOfEach, List.append_assoc, readTail_tokens first]
      cases first.tree with
      | error error => rfl
      | ok child =>
          change readTail (form.add child) outer (Phrase.tokensOfEach others ++ rest) = _
          rw [readTail_tokensOfEach others]
          cases Phrase.treeOfEach others with
          | error error => rfl
          | ok children =>
              change readTail ((form.add child).addEach children) outer rest = _
              rw [← OpenForm.addEach_cons]
              rfl

end

/-- The tokens of a form are read as its tree. -/
theorem readTokens_tokens (head : String) (items : List Phrase) :
    readTokens (Phrase.form head items).tokens = (Phrase.form head items).tree := by
  rw [Phrase.tokens, Phrase.tree, readTokens, readHead]
  cases classify head with
  | error error => rfl
  | ok atom =>
      change readTail ⟨atom, []⟩ [] (Phrase.tokensOfEach items ++ [.closing]) = _
      rw [readTail_tokensOfEach]
      cases Phrase.treeOfEach items with
      | error error => rfl
      | ok children =>
          change readTail (OpenForm.addEach ⟨atom, []⟩ children) [] [.closing] = _
          rw [readTail, OpenForm.close_addEach]
          rfl

/-! ## What is read has a derivation -/

/-- Reading goes on to the program behind the end of a form. -/
def Resumes (program : Expr) : List OpenForm → List Token → Prop
  | [], rest => rest = []
  | _ :: outer, rest => ∃ form, readTail form outer rest = .ok program

/-- What reads as a program behind an opening parenthesis starts with the rest of a form,
and what does so within a form starts with items and the end of that form. -/
theorem readHead_readTail_derives {program : Expr} (tokens : List Token) :
    (∀ {outer}, readHead outer tokens = .ok program →
      ∃ head items rest,
        tokens = .lexeme head :: (Phrase.tokensOfEach items ++ .closing :: rest) ∧
        Resumes program outer rest) ∧
    (∀ {form outer}, readTail form outer tokens = .ok program →
      ∃ items rest, tokens = Phrase.tokensOfEach items ++ .closing :: rest ∧
        Resumes program outer rest) := by
  -- A form within the form is left with fewer tokens, but not with the tail of the list.
  induction size : tokens.length using Nat.strongRecOn generalizing tokens with
  | ind size inductionHypothesis =>
      subst size
      cases tokens with
      | nil =>
          constructor
          · intro outer read
            cases read
          · intro form outer read
            cases read
      | cons token rest =>
          have shorter := inductionHypothesis rest.length (Nat.lt_succ_self _) rest rfl
          constructor
          · intro outer read
            cases token with
            | opening => cases read
            | closing => cases read
            | lexeme head =>
                rw [readHead] at read
                cases classified : classify head with
                | error error =>
                    rw [classified] at read
                    cases read
                | ok atom =>
                    rw [classified] at read
                    obtain ⟨items, behind, shape, resumes⟩ := shorter.2 read
                    exact ⟨head, items, behind, by rw [shape], resumes⟩
          · intro form outer read
            cases token with
            | closing =>
                refine ⟨[], rest, rfl, ?_⟩
                cases outer with
                | nil =>
                    rw [readTail] at read
                    cases ended : rest.isEmpty with
                    | true => exact List.isEmpty_iff.mp ended
                    | false =>
                        rw [ended] at read
                        cases read
                | cons parent outer => exact ⟨_, read⟩
            | lexeme text =>
                rw [readTail] at read
                cases classified : classify text with
                | error error =>
                    rw [classified] at read
                    cases read
                | ok atom =>
                    rw [classified] at read
                    obtain ⟨items, behind, shape, resumes⟩ := shorter.2 read
                    exact ⟨.lexeme text :: items, behind, by rw [shape]; rfl, resumes⟩
            | opening =>
                rw [readTail] at read
                obtain ⟨head, inner, middle, shape, form', continues⟩ := shorter.1 read
                have fewer : middle.length < (Token.opening :: rest).length := by
                  rw [shape]
                  simp
                  omega
                obtain ⟨items, behind, shape', resumes⟩ :=
                  (inductionHypothesis middle.length fewer middle rfl).2 continues
                refine ⟨.form head inner :: items, behind, ?_, resumes⟩
                rw [shape, shape']
                simp [Phrase.tokensOfEach, Phrase.tokens]

/-- A program is read from the tokens of a form. -/
theorem readTokens_derives {program : Expr} {tokens : List Token}
    (read : readTokens tokens = .ok program) :
    ∃ head items, (Phrase.form head items).tokens = tokens := by
  cases tokens with
  | nil => cases read
  | cons token rest =>
      cases token with
      | lexeme text => cases read
      | closing => cases read
      | opening =>
          rw [readTokens] at read
          obtain ⟨head, items, behind, shape, ended⟩ := (readHead_readTail_derives rest).1 read
          exact ⟨head, items, by rw [shape, ended]; rfl⟩

theorem readTokens_eq_ok_iff {program : Expr} {tokens : List Token} :
    readTokens tokens = .ok program ↔
      ∃ head items, (Phrase.form head items).tokens = tokens ∧
        (Phrase.form head items).tree = .ok program := by
  constructor
  · intro read
    obtain ⟨head, items, derives⟩ := readTokens_derives read
    refine ⟨head, items, derives, ?_⟩
    rw [← readTokens_tokens, derives, read]
  · rintro ⟨head, items, derives, tree⟩
    rw [← derives, readTokens_tokens, tree]

/-! ## Derivations are unique -/

mutual

/-- No item's tokens are the beginning of another one's. -/
theorem tokens_append_injective (phrase phrase' : Phrase) (rest rest' : List Token)
    (same : phrase.tokens ++ rest = phrase'.tokens ++ rest') : phrase = phrase' ∧ rest = rest' := by
  match phrase, phrase' with
  | .lexeme text, .lexeme text' =>
      simp only [Phrase.tokens, List.cons_append, List.nil_append, List.cons.injEq,
        Token.lexeme.injEq] at same
      exact ⟨by rw [same.1], same.2⟩
  | .lexeme _, .form _ _ => cases same
  | .form _ _, .lexeme _ => cases same
  | .form head items, .form head' items' =>
      simp only [Phrase.tokens, List.cons_append, List.append_assoc, List.nil_append,
        List.cons.injEq, Token.lexeme.injEq, true_and] at same
      obtain ⟨heads, others⟩ := same
      obtain ⟨rfl, rests⟩ := tokensOfEach_append_injective items items' rest rest' others
      exact ⟨by rw [heads], rests⟩

/-- The end of a form tells where its items end. -/
theorem tokensOfEach_append_injective (items items' : List Phrase) (rest rest' : List Token)
    (same : Phrase.tokensOfEach items ++ .closing :: rest =
      Phrase.tokensOfEach items' ++ .closing :: rest') : items = items' ∧ rest = rest' := by
  match items, items' with
  | [], [] => exact ⟨rfl, (List.cons.inj same).2⟩
  | [], .lexeme _ :: _ => cases same
  | [], .form _ _ :: _ => cases same
  | .lexeme _ :: _, [] => cases same
  | .form _ _ :: _, [] => cases same
  | first :: others, first' :: others' =>
      rw [Phrase.tokensOfEach, Phrase.tokensOfEach, List.append_assoc, List.append_assoc] at same
      obtain ⟨firsts, behind⟩ := tokens_append_injective first first' _ _ same
      obtain ⟨rests, ends⟩ := tokensOfEach_append_injective others others' rest rest' behind
      exact ⟨by rw [firsts, rests], ends⟩

end

/-- Tokens have one derivation at most. -/
theorem tokens_injective {phrase phrase' : Phrase} (same : phrase.tokens = phrase'.tokens) :
    phrase = phrase' :=
  (tokens_append_injective phrase phrase' [] [] (by rw [same])).1

/-! ## Heads and lexemes -/

theorem lexemes_append (tokens tokens' : List Token) :
    lexemes (tokens ++ tokens') = lexemes tokens ++ lexemes tokens' :=
  List.filterMap_append

theorem heads_node (head : Atom) (tail : List Expr) (properties : Table Expr) :
    (Expr.node head tail properties).heads = head :: (Expr.nodesOfEach tail).map Expr.head := by
  rw [Expr.heads, Expr.nodes]
  rfl

mutual

/-- The heads of the tree of an item are what its lexemes stand for, in order. -/
theorem tree_map_heads (phrase : Phrase) :
    phrase.tree.map Expr.heads = (lexemes phrase.tokens).mapM classify := by
  cases phrase with
  | lexeme text =>
      change _ = [text].mapM classify
      rw [Phrase.tree, List.mapM_cons, List.mapM_nil]
      cases classify text <;> rfl
  | form head items =>
      have others := treeOfEach_map_heads items
      have shape : lexemes (Phrase.form head items).tokens =
          head :: lexemes (Phrase.tokensOfEach items) := by
        change head :: lexemes (Phrase.tokensOfEach items ++ [.closing]) = _
        rw [lexemes_append]
        simp [lexemes]
      rw [shape, List.mapM_cons, ← others, Phrase.tree]
      cases classify head with
      | error error => rfl
      | ok atom =>
          cases Phrase.treeOfEach items with
          | error error => rfl
          | ok children => exact congrArg Except.ok (heads_node atom children [])

theorem treeOfEach_map_heads (items : List Phrase) :
    (Phrase.treeOfEach items).map (fun children => (Expr.nodesOfEach children).map Expr.head) =
      (lexemes (Phrase.tokensOfEach items)).mapM classify := by
  cases items with
  | nil => rfl
  | cons first rest =>
      rw [Phrase.tokensOfEach, Phrase.treeOfEach, lexemes_append, List.mapM_append,
        ← tree_map_heads first, ← treeOfEach_map_heads rest]
      cases first.tree with
      | error error => rfl
      | ok child =>
          cases Phrase.treeOfEach rest with
          | error error => rfl
          | ok children =>
              refine congrArg Except.ok ?_
              change (Expr.nodes child ++ Expr.nodesOfEach children).map Expr.head = _
              rw [List.map_append]
              rfl

end

/-- All of a list can be read exactly if each of its elements can. -/
theorem mapM_classify_isOk_iff (texts : List String) :
    (∃ atoms, texts.mapM classify = .ok atoms) ↔
      ∀ text ∈ texts, ∃ atom, classify text = .ok atom := by
  induction texts with
  | nil => exact ⟨fun _ _ member => absurd member List.not_mem_nil, fun _ => ⟨[], rfl⟩⟩
  | cons first rest inductionHypothesis =>
      rw [List.forall_mem_cons, ← inductionHypothesis, List.mapM_cons]
      cases classify first with
      | error error => simp [bind, Except.bind]
      | ok atom =>
          cases rest.mapM classify with
          | error error => simp [bind, Except.bind]
          | ok atoms => simp [bind, Except.bind, pure, Except.pure]

/-- What a list of texts is read as is what its texts are read as. -/
theorem mem_of_mapM_classify {texts : List String} {atoms : List Atom}
    (classified : texts.mapM classify = .ok atoms) {atom : Atom} (member : atom ∈ atoms) :
    ∃ text ∈ texts, classify text = .ok atom := by
  induction texts generalizing atoms with
  | nil =>
      cases classified
      cases member
  | cons first rest inductionHypothesis =>
      rw [List.mapM_cons] at classified
      cases firstRead : classify first with
      | error error =>
          rw [firstRead] at classified
          cases classified
      | ok head =>
          cases restRead : rest.mapM classify with
          | error error =>
              rw [firstRead, restRead] at classified
              cases classified
          | ok others =>
              rw [firstRead, restRead] at classified
              cases classified
              rcases List.mem_cons.mp member with rfl | later
              · exact ⟨first, List.mem_cons_self, firstRead⟩
              · obtain ⟨text, found, read⟩ := inductionHypothesis restRead later
                exact ⟨text, List.mem_cons_of_mem first found, read⟩

/-- The heads of a program are what the lexemes of its text stand for, in order. -/
theorem read_heads {text : String} {program : Expr} (read : Source.read text = .ok program) :
    (lexemes (tokenize text)).mapM classify = .ok program.heads := by
  obtain ⟨head, items, tokens, tree⟩ := readTokens_eq_ok_iff.mp read
  rw [← tokens, ← tree_map_heads, tree]
  rfl

/-- A text is a program exactly if its tokens have a derivation as a form and all its lexemes
stand for atoms. The program is the tree of that derivation, there is no other derivation, and
the heads of the program are what the lexemes of the text stand for, each one in its place. -/
theorem read_exactly_forms (text : String) :
    ((∃ program, read text = .ok program) ↔
      (∃ head items, (Phrase.form head items).tokens = tokenize text) ∧
        ∀ lexeme ∈ lexemes (tokenize text), ∃ atom, classify lexeme = .ok atom) ∧
    (∀ program, read text = .ok program ↔
      ∃ head items, (Phrase.form head items).tokens = tokenize text ∧
        (Phrase.form head items).tree = .ok program) ∧
    (∀ phrase phrase' : Phrase, phrase.tokens = tokenize text → phrase'.tokens = tokenize text →
      phrase = phrase') ∧
    (∀ lexeme : String, (Phrase.lexeme lexeme).tree = (Phrase.form lexeme []).tree) ∧
    ∀ program, read text = .ok program →
      program.Plain ∧ (lexemes (tokenize text)).mapM classify = .ok program.heads := by
  have derived : ∀ program, read text = .ok program ↔
      ∃ head items, (Phrase.form head items).tokens = tokenize text ∧
        (Phrase.form head items).tree = .ok program := fun program => readTokens_eq_ok_iff
  refine ⟨⟨?_, ?_⟩, derived, ?_, ?_, ?_⟩
  · rintro ⟨program, read⟩
    obtain ⟨head, items, tokens, -⟩ := (derived program).mp read
    exact ⟨⟨head, items, tokens⟩,
      (mapM_classify_isOk_iff _).mp ⟨program.heads, read_heads read⟩⟩
  · rintro ⟨⟨head, items, tokens⟩, accepted⟩
    obtain ⟨atoms, classified⟩ := (mapM_classify_isOk_iff _).mpr accepted
    rw [← tokens, ← tree_map_heads] at classified
    cases tree : (Phrase.form head items).tree with
    | error error =>
        rw [tree] at classified
        cases classified
    | ok program => exact ⟨program, (derived program).mpr ⟨head, items, tokens, tree⟩⟩
  · intro phrase phrase' tokens tokens'
    exact tokens_injective (tokens.trans tokens'.symm)
  · intro lexeme
    rw [Phrase.tree, Phrase.tree]
    cases classify lexeme <;> rfl
  · exact fun program read => ⟨read_plain read, read_heads read⟩

end Source

end FormLang
