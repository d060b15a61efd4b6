import FormLang.Proofs.Procedures
import FormLang.Proofs.Scopes
import FormLang.Proofs.Source

/-!
Contract: the values of the language.

Owns: what a value is, what the operations on expressions make of values, and the
environments that bind nothing but values.
-/

set_option autoImplicit false

namespace FormLang

/-- What is read as a property is one, or the leaf of nothing. -/
theorem Expr.property_cases (expression : Expr) (key : String) :
    expression.property key = .leaf .none ∨ (key, expression.property key) ∈ expression.properties := by
  unfold Expr.property Expr.property?
  cases found : List.lookup key expression.properties with
  | none => exact Or.inl rfl
  | some entry => exact Or.inr (Table.mem_of_lookup found)

/-- A property behind the setting of one is the one that was set, or was there before. -/
theorem Expr.mem_properties_setProperty {expression entry : Expr} {key : String}
    {found : String × Expr} (member : found ∈ (expression.setProperty key entry).properties) :
    found.2 = entry ∨ found ∈ expression.properties :=
  Table.mem_set member

/-- A value whose functions have bodies of a kind: a literal, a list of values, or a
function, each with properties that are values. -/
inductive Expr.ValueOver (bodies : Expr → Prop) : Expr → Prop where
  | literal {head : Atom} {properties : Table Expr} (plain : head.symbol? = none)
      (entries : ∀ entry ∈ properties, entry.2.ValueOver bodies) :
      ValueOver bodies (.node head [] properties)
  | list {items : List Expr} {properties : Table Expr}
      (values : ∀ item ∈ items, item.ValueOver bodies)
      (entries : ∀ entry ∈ properties, entry.2.ValueOver bodies) :
      ValueOver bodies (.node (.symbol Expr.listTag) items properties)
  | function {parameters body : Expr} {properties : Table Expr}
      (tagged : parameters.isList = true)
      (names : ∀ parameter ∈ parameters.tail, parameter.bareSymbol?.isSome = true)
      (known : bodies body)
      (entries : ∀ entry ∈ properties, entry.2.ValueOver bodies) :
      ValueOver bodies (.node (.symbol Expr.lambdaTag) [parameters, body] properties)

/-- A value, with any expressions as the bodies of its functions. -/
def Expr.IsValue : Expr → Prop :=
  Expr.ValueOver fun _ => True

namespace Expr.ValueOver

variable {bodies : Expr → Prop} {value entry : Expr}

theorem isValue (holds : value.ValueOver bodies) : value.IsValue := by
  induction holds with
  | literal plain _ entries => exact .literal plain entries
  | list _ _ values entries => exact .list values entries
  | function tagged names _ _ entries => exact .function tagged names trivial entries

theorem entries (holds : value.ValueOver bodies) :
    ∀ entry ∈ value.properties, entry.2.ValueOver bodies := by
  cases holds with
  | literal _ entries => exact entries
  | list _ entries => exact entries
  | function _ _ _ entries => exact entries

theorem leaf {head : Atom} (plain : head.symbol? = none) :
    (Expr.leaf head).ValueOver bodies :=
  .literal plain fun _ member => absurd member List.not_mem_nil

theorem ofItems {items : List Expr} (values : ∀ item ∈ items, item.ValueOver bodies) :
    (Expr.list items).ValueOver bodies :=
  .list values fun _ member => absurd member List.not_mem_nil

theorem items (holds : value.ValueOver bodies) (tagged : value.isList = true) :
    ∀ item ∈ value.tail, item.ValueOver bodies := by
  cases holds with
  | literal plain _ =>
      intro item member
      exact absurd member List.not_mem_nil
  | list values _ => exact values
  | function _ _ _ _ =>
      have other : (some Expr.lambdaTag == some Expr.listTag) = true := tagged
      exact absurd other (by decide)

/-- A property of a value is a value, also where there is none. -/
theorem property (holds : value.ValueOver bodies) (key : String) :
    (value.property key).ValueOver bodies := by
  rcases value.property_cases key with nothing | member
  · rw [nothing]
    exact leaf rfl
  · exact holds.entries _ member

theorem setProperty (key : String) (holds : value.ValueOver bodies)
    (entryHolds : entry.ValueOver bodies) : (value.setProperty key entry).ValueOver bodies := by
  have entries : ∀ found ∈ (value.setProperty key entry).properties,
      found.2.ValueOver bodies := by
    intro found member
    rcases Expr.mem_properties_setProperty member with same | old
    · exact same ▸ entryHolds
    · exact holds.entries found old
  cases holds with
  | literal plain _ => exact .literal plain entries
  | list values _ => exact .list values entries
  | function tagged names known _ => exact .function tagged names known entries

end Expr.ValueOver

/-- Where every one of the items has a name, each of them is a bare symbol. -/
theorem Expr.bareSymbols_of_mapM {items : List Expr} {names : List String}
    (read : items.mapM Expr.bareSymbol? = some names) :
    ∀ item ∈ items, item.bareSymbol?.isSome = true := by
  induction items generalizing names with
  | nil =>
      intro item member
      exact absurd member List.not_mem_nil
  | cons first rest inductionHypothesis =>
      rw [List.mapM_cons] at read
      obtain ⟨name, named, others⟩ := Option.bind_eq_some_iff.mp read
      obtain ⟨names, rests, -⟩ := Option.bind_eq_some_iff.mp others
      intro item member
      rcases List.mem_cons.mp member with rfl | later
      · rw [named]
        rfl
      · exact inductionHypothesis rests item later

/-- Where each of the items is a bare symbol, every one of them has a name. -/
theorem Expr.mapM_of_bareSymbols {items : List Expr}
    (bare : ∀ item ∈ items, item.bareSymbol?.isSome = true) :
    ∃ names, items.mapM Expr.bareSymbol? = some names := by
  induction items with
  | nil => exact ⟨[], rfl⟩
  | cons first rest inductionHypothesis =>
      obtain ⟨firstBare, restBare⟩ := List.forall_mem_cons.mp bare
      obtain ⟨name, named⟩ := Option.isSome_iff_exists.mp firstBare
      obtain ⟨names, others⟩ := inductionHypothesis restBare
      exact ⟨name :: names, by rw [List.mapM_cons, named, others]; rfl⟩

/-- What the parts of a function say about its node. -/
theorem Expr.lambdaParts?_eq_some {expression body : Expr} {names : List String}
    (parts : expression.lambdaParts? = some (names, body)) :
    ∃ parameters, expression.head = .symbol Expr.lambdaTag ∧
      expression.tail = [parameters, body] ∧ parameters.isList = true ∧
      parameters.tail.mapM Expr.bareSymbol? = some names := by
  unfold Expr.lambdaParts? at parts
  split at parts
  · rename_i tagged
    split at parts
    · rename_i parameters body' shape
      split at parts
      · rename_i isList
        obtain ⟨found, read, same⟩ := Option.map_eq_some_iff.mp parts
        cases same
        refine ⟨parameters, ?_, shape, isList, read⟩
        cases head : expression.head <;> rw [head] at tagged <;> cases tagged
        rfl
      · cases parts
    · cases parts
  · cases parts

/-- A node that is tagged as a function above a list of bare symbols and a body is one. -/
theorem Expr.isLambda_of_tagged {parameters : Expr} (body : Expr) (properties : Table Expr)
    (tagged : parameters.isList = true)
    (bare : ∀ parameter ∈ parameters.tail, parameter.bareSymbol?.isSome = true) :
    (Expr.node (.symbol lambdaTag) [parameters, body] properties).isLambda = true := by
  obtain ⟨names, named⟩ := Expr.mapM_of_bareSymbols bare
  have parts : (Expr.node (.symbol lambdaTag) [parameters, body] properties).lambdaParts? =
      some (names, body) := by
    change (if parameters.isList then
      (parameters.tail.mapM bareSymbol?).map fun names => (names, body) else none) = _
    rw [if_pos tagged, named]
    rfl
  rw [isLambda, parts, Option.isSome_some]

/-- The body of a function is one of its children. -/
theorem Expr.body_mem_tail {expression body : Expr} {names : List String}
    (parts : expression.lambdaParts? = some (names, body)) : body ∈ expression.tail := by
  obtain ⟨parameters, -, tail, -, -⟩ := Expr.lambdaParts?_eq_some parts
  rw [tail]
  exact List.mem_cons_of_mem _ List.mem_cons_self

/-- A leaf is no function. -/
theorem Expr.lambdaParts?_leaf (head : Atom) : (Expr.leaf head).lambdaParts? = none := by
  unfold Expr.lambdaParts?
  split <;> rfl

/-- The parts of the function that a form makes are those it is made of. -/
theorem Expr.lambdaParts?_lambda (names : List String) (body : Expr) :
    (Expr.lambda names body).lambdaParts? = some (names, body) := by
  have named : (names.map fun name => Expr.leaf (.symbol name)).mapM Expr.bareSymbol? =
      some names := by
    induction names with
    | nil => rfl
    | cons first rest inductionHypothesis =>
        rw [List.map_cons, List.mapM_cons, inductionHypothesis]
        rfl
  change ((names.map fun name => Expr.leaf (.symbol name)).mapM Expr.bareSymbol?).map
    (fun names => (names, body)) = _
  rw [named]
  rfl

namespace Expr.ValueOver

variable {bodies : Expr → Prop} {value body : Expr} {names : List String}

theorem lambdaBody (holds : value.ValueOver bodies)
    (parts : value.lambdaParts? = some (names, body)) :
    bodies body := by
  obtain ⟨parameters, head, tail, -, -⟩ := Expr.lambdaParts?_eq_some parts
  cases holds with
  | literal plain _ => cases tail
  | list _ _ =>
      have same : Expr.listTag = Expr.lambdaTag := Atom.symbol.inj head
      exact absurd same (by decide)
  | function _ _ known _ =>
      cases tail
      exact known

/-- The function that a form makes is a value. -/
theorem ofBody (names : List String) (known : bodies body) :
    (Expr.lambda names body).ValueOver bodies := by
  refine .function rfl (fun parameter member => ?_) known
    (fun _ member => absurd member List.not_mem_nil)
  obtain ⟨name, -, rfl⟩ := List.mem_map.mp member
  rfl

end Expr.ValueOver

/-! ## Environments -/

namespace Environment

variable {accepted : Expr → Prop} {environment : Environment}

/-- Every value that is bound in a scope of the chain is accepted. -/
def Binds (accepted : Expr → Prop) (environment : Environment) : Prop :=
  ∀ scope ∈ environment.scopes, ∀ name value, (name, .value value) ∈ scope → accepted value

theorem Binds.mono {accepted' : Expr → Prop} (implies : ∀ value, accepted value → accepted' value)
    (binds : environment.Binds accepted) : environment.Binds accepted' :=
  fun scope member name value bound => implies value (binds scope member name value bound)

theorem Binds.lookup {name : String} {value : Expr} (binds : environment.Binds accepted)
    (found : environment.lookup name = some (.value value)) : accepted value := by
  obtain ⟨scope, member, bound⟩ := List.exists_of_findSome?_eq_some found
  exact binds scope member name value (Table.mem_of_lookup bound)

theorem Binds.bind (name : String) {value : Expr} (binds : environment.Binds accepted)
    (holds : accepted value) : (environment.bind name value).Binds accepted := by
  intro scope member other found bound
  rcases List.mem_cons.mp member with rfl | caller
  · rcases Table.mem_set bound with same | old
    · cases same
      exact holds
    · exact binds environment.current List.mem_cons_self other found old
  · exact binds scope (List.mem_cons_of_mem _ caller) other found bound

theorem Binds.bindAll {bindings : List (String × Expr)} (binds : environment.Binds accepted)
    (hold : ∀ binding ∈ bindings, accepted binding.2) :
    (environment.bindAll bindings).Binds accepted := by
  induction bindings generalizing environment with
  | nil => exact binds
  | cons first rest inductionHypothesis =>
      exact inductionHypothesis (binds.bind first.1 (hold first List.mem_cons_self))
        (fun binding member => hold binding (List.mem_cons_of_mem first member))

theorem Binds.enter (parameters : List String) {operands : List Expr}
    (binds : environment.Binds accepted) (hold : ∀ operand ∈ operands, accepted operand) :
    (environment.enter parameters operands).Binds accepted := by
  have empty : environment.frame.Binds accepted := by
    intro scope member name value bound
    rcases List.mem_cons.mp member with rfl | caller
    · cases bound
    · exact binds scope caller name value bound
  rw [enter_eq_bindAll]
  exact empty.bindAll fun binding member => hold binding.2 (List.of_mem_zip member).2

/-- The constants are numbers without residue. -/
theorem initial_binds_computed
    (computed : ∀ {head : Atom}, head.Computed → accepted (.leaf head)) :
    Environment.initial.Binds accepted := by
  intro scope member name value bound
  rw [List.mem_singleton.mp member] at bound
  rcases mem_rootScope bound with ⟨constant, named, same⟩ | ⟨builtIn, -, same⟩
  · cases same
    simp only [constants, List.mem_cons, Prod.mk.injEq, List.not_mem_nil, or_false] at named
    rcases named with ⟨-, rfl⟩ | ⟨-, rfl⟩ | ⟨-, rfl⟩
    · exact computed (.number _)
    · exact computed (.number _)
    · exact computed (.complex _)
  · cases same

/-- The constants are literals. -/
theorem initial_binds (literal : ∀ {head : Atom}, head.symbol? = none → accepted (.leaf head)) :
    Environment.initial.Binds accepted :=
  initial_binds_computed fun computed => literal computed.symbol?

end Environment

end FormLang
