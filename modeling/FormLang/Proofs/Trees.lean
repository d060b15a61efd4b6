import FormLang.Proofs.Values

/-!
Contract: what holds at every node of a tree.

The nodes of a tree here include those of its properties, and of the properties of these, down
to the leaves.

Owns: induction over trees, conditions on the head and the tail of every node with what the
operations on expressions make of them, the symbols of a tree, and the heights of its children.
-/

set_option autoImplicit false

namespace FormLang

/-- What passes from the children and the properties of a node to the node holds of every
tree. -/
theorem Expr.induct {motive : Expr → Prop}
    (node : ∀ expression : Expr, (∀ child ∈ expression.tail, motive child) →
      (∀ entry ∈ expression.properties, motive entry.2) → motive expression)
    (expression : Expr) : motive expression := by
  cases expression with
  | node head tail properties =>
      refine node _ (fun child member => Expr.induct node child)
        (fun entry member => Expr.induct node entry.2)
termination_by sizeOf expression
decreasing_by
  · have smaller := List.sizeOf_lt_of_mem member
    simp only [Expr.tail] at smaller
    simp only [Expr.node.sizeOf_spec]
    omega
  · have smaller := List.sizeOf_lt_of_mem member
    have part : sizeOf entry.2 < sizeOf entry := by
      cases entry
      simp only [Prod.mk.sizeOf_spec]
      omega
    simp only [Expr.properties] at smaller
    simp only [Expr.node.sizeOf_spec]
    omega

/-- Every node of a tree, and of its properties, has a head and a tail that are accepted. -/
inductive Expr.Everywhere (accepted : Atom → List Expr → Prop) : Expr → Prop where
  | node {expression : Expr} (here : accepted expression.head expression.tail)
      (children : ∀ child ∈ expression.tail, child.Everywhere accepted)
      (entries : ∀ entry ∈ expression.properties, entry.2.Everywhere accepted) :
      Everywhere accepted expression

namespace Expr.Everywhere

variable {accepted accepted' : Atom → List Expr → Prop} {expression entry body : Expr}
variable {head : Atom} {tail : List Expr}

theorem here (holds : expression.Everywhere accepted) :
    accepted expression.head expression.tail := by
  cases holds with
  | node here _ _ => exact here

theorem children (holds : expression.Everywhere accepted) :
    ∀ child ∈ expression.tail, child.Everywhere accepted := by
  cases holds with
  | node _ children _ => exact children

theorem entries (holds : expression.Everywhere accepted) :
    ∀ entry ∈ expression.properties, entry.2.Everywhere accepted := by
  cases holds with
  | node _ _ entries => exact entries

/-- A node without properties adds nothing but itself. -/
theorem form (here : accepted head tail) (children : ∀ child ∈ tail, child.Everywhere accepted) :
    (Expr.form head tail).Everywhere accepted :=
  .node here children fun _ member => absurd member List.not_mem_nil

theorem leaf (here : accepted head []) : (Expr.leaf head).Everywhere accepted :=
  form here fun _ member => absurd member List.not_mem_nil

/-- The function that a form makes adds its own node, the list of its parameters, and the
parameters. -/
theorem lambda {names : List String}
    (here : accepted (.symbol Expr.lambdaTag) (Expr.lambda names body).tail)
    (parameters : ∀ tail, accepted (.symbol Expr.listTag) tail)
    (symbols : ∀ name ∈ names, accepted (.symbol name) []) (holds : body.Everywhere accepted) :
    (Expr.lambda names body).Everywhere accepted := by
  refine form here fun child member => ?_
  rcases List.mem_cons.mp member with rfl | last
  · refine form (parameters _) fun parameter named => ?_
    obtain ⟨name, known, rfl⟩ := List.mem_map.mp named
    exact leaf (symbols name known)
  · rw [List.mem_singleton.mp last]
    exact holds

theorem property (holds : expression.Everywhere accepted) (nothing : accepted .none [])
    (key : String) : (expression.property key).Everywhere accepted := by
  rcases expression.property_cases key with none | member
  · rw [none]
    exact leaf nothing
  · exact holds.entries _ member

theorem setProperty (key : String) (holds : expression.Everywhere accepted)
    (entryHolds : entry.Everywhere accepted) :
    (expression.setProperty key entry).Everywhere accepted := by
  refine .node holds.here holds.children ?_
  intro found member
  rcases Expr.mem_properties_setProperty member with same | old
  · exact same ▸ entryHolds
  · exact holds.entries found old

/-- A condition may be replaced by one that follows from it at the node and everywhere below
the node. -/
theorem imp (implies : ∀ head tail, accepted head tail →
      (∀ child ∈ tail, child.Everywhere accepted) → accepted' head tail)
    (holds : expression.Everywhere accepted) : expression.Everywhere accepted' := by
  induction holds with
  | node here children _ childrenHold entriesHold =>
      exact .node (implies _ _ here children) childrenHold entriesHold

end Expr.Everywhere

/-! ## Symbols -/

mutual

/-- The symbols of a tree and of its properties. -/
def Expr.symbols : Expr → List String
  | .node head tail properties =>
      head.symbol?.toList ++ symbolsOfEach tail ++ symbolsOfProperties properties

def Expr.symbolsOfEach : List Expr → List String
  | [] => []
  | first :: rest => first.symbols ++ symbolsOfEach rest

def Expr.symbolsOfProperties : List (String × Expr) → List String
  | [] => []
  | (_, value) :: rest => value.symbols ++ symbolsOfProperties rest

end

namespace Expr

variable {name : String} {expression : Expr}

theorem mem_symbolsOfEach_iff {children : List Expr} :
    name ∈ symbolsOfEach children ↔ ∃ child ∈ children, name ∈ child.symbols := by
  induction children with
  | nil => simp [symbolsOfEach]
  | cons first rest inductionHypothesis => simp [symbolsOfEach, inductionHypothesis]

theorem mem_symbolsOfProperties_iff {entries : List (String × Expr)} :
    name ∈ symbolsOfProperties entries ↔ ∃ entry ∈ entries, name ∈ entry.2.symbols := by
  induction entries with
  | nil => simp [symbolsOfProperties]
  | cons first rest inductionHypothesis =>
      obtain ⟨key, value⟩ := first
      simp [symbolsOfProperties, inductionHypothesis]

/-- A symbol of a tree is its head, or one of a child or of a property. -/
theorem mem_symbols_iff : name ∈ expression.symbols ↔ expression.head = .symbol name ∨
    (∃ child ∈ expression.tail, name ∈ child.symbols) ∨
      ∃ entry ∈ expression.properties, name ∈ entry.2.symbols := by
  cases expression with
  | node head tail properties =>
      rw [symbols, List.mem_append, List.mem_append, mem_symbolsOfEach_iff,
        mem_symbolsOfProperties_iff, or_assoc]
      refine or_congr ?_ Iff.rfl
      cases head <;> simp [Atom.symbol?, Expr.head, eq_comm]

/-- A name is no symbol of a tree if no node has it as its head. -/
theorem not_mem_symbols_iff :
    name ∉ expression.symbols ↔ expression.Everywhere fun head _ => head ≠ .symbol name := by
  induction expression using Expr.induct with
  | node expression children entries =>
      rw [mem_symbols_iff, not_or, not_or]
      constructor
      · rintro ⟨here, noChild, noEntry⟩
        refine .node here (fun child member => (children child member).mp fun inside => ?_)
          (fun entry member => (entries entry member).mp fun inside => ?_)
        · exact noChild ⟨child, member, inside⟩
        · exact noEntry ⟨entry, member, inside⟩
      · intro everywhere
        refine ⟨everywhere.here, ?_, ?_⟩
        · rintro ⟨child, member, inside⟩
          exact (children child member).mpr (everywhere.children child member) inside
        · rintro ⟨entry, member, inside⟩
          exact (entries entry member).mpr (everywhere.entries entry member) inside

/-! ## Heights -/

theorem depthOfTail_le_iff {items : List Expr} {bound : Nat} :
    depthOfTail items ≤ bound ↔ ∀ item ∈ items, item.depth ≤ bound := by
  induction items with
  | nil => simp [depthOfTail]
  | cons first rest inductionHypothesis =>
      rw [depthOfTail, Nat.max_le, inductionHypothesis, List.forall_mem_cons]

/-- A budget for a whole tree has one level for its root, and enough for each of its children
behind that. -/
theorem exists_budget_behind {head : Atom} {items : List Expr} {properties : Table Expr}
    {budget : Nat} (enough : (node head items properties).depth ≤ budget) :
    ∃ behind, budget = behind + 1 ∧ ∀ item ∈ items, item.depth ≤ behind := by
  rw [depth] at enough
  exact ⟨budget - 1, by omega, depthOfTail_le_iff.mp (by omega)⟩

end Expr

end FormLang
