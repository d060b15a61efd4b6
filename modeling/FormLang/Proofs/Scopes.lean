import FormLang.Environment

/-!
Contract: what a name stands for after a write.

Owns: the laws of looking up behind a binding, an annotation and the entry into a
frame, for environments of any depth, and conditions on the values that can be looked up.
-/

set_option autoImplicit false

namespace FormLang.Environment

variable {environment : Environment} {name other key : String} {value bound : Expr}

/-- The root scope binds constants to their names, and procedures to theirs. -/
theorem mem_rootScope {binding : Binding} (bound : (name, binding) ∈ rootScope) :
    (∃ value, (name, value) ∈ constants ∧ binding = .value value) ∨
      ∃ builtIn : Procedure, builtIn.name = name ∧ binding = .procedure builtIn := by
  rcases List.mem_append.mp bound with constant | procedure
  · obtain ⟨⟨other, value⟩, known, same⟩ := List.mem_map.mp constant
    cases same
    exact .inl ⟨value, known, rfl⟩
  · obtain ⟨builtIn, -, same⟩ := List.mem_map.mp procedure
    cases same
    exact .inr ⟨builtIn, rfl, rfl⟩

/-- A name is looked up in the current scope first, then in the callers'. -/
theorem lookup_eq_or (environment : Environment) (name : String) :
    environment.lookup name =
      (List.lookup name environment.current).or
        (environment.callers.findSome? (List.lookup name)) := by
  unfold lookup scopes
  rw [List.findSome?_cons]
  cases List.lookup name environment.current <;> rfl

@[simp] theorem lookup_bind_same (environment : Environment) (name : String) (value : Expr) :
    (environment.bind name value).lookup name = some (.value value) := by
  simp [lookup_eq_or, bind]

theorem lookup_bind_other (environment : Environment) (value : Expr)
    (different : other ≠ name) :
    (environment.bind name value).lookup other = environment.lookup other := by
  simp [lookup_eq_or, bind, Table.lookup_set_other _ _ different]

/-- Both laws of a binding in one. -/
theorem lookup_bind (environment : Environment) (name other : String) (value : Expr) :
    (environment.bind name value).lookup other =
      if other = name then some (.value value) else environment.lookup other := by
  by_cases same : other = name
  · rw [if_pos same, same, lookup_bind_same]
  · rw [if_neg same, lookup_bind_other environment value same]

@[simp] theorem callers_bind (environment : Environment) (name : String) (value : Expr) :
    (environment.bind name value).callers = environment.callers := rfl

/-- A frame sees what its caller sees. -/
@[simp] theorem lookup_frame (environment : Environment) (name : String) :
    environment.frame.lookup name = environment.lookup name := by
  rw [lookup_eq_or]
  rfl

theorem procedure?_congr {left right : Environment}
    (same : left.lookup name = right.lookup name) :
    left.procedure? name = right.procedure? name := by
  unfold procedure?
  rw [same]

/-- A definition is refused exactly if the name stands for something. -/
theorem define_eq (environment : Environment) (name : String) (value : Expr) :
    environment.define name value =
      match environment.lookup name with
      | some _ => .error (.redefinedSymbol name)
      | none => .ok (environment.bind name value) := by
  unfold define contains
  cases environment.lookup name <;> rfl

/-- An annotation needs a value, and binds the annotated one in the current scope. -/
theorem annotate?_eq (environment : Environment) (name key : String) (value : Expr) :
    environment.annotate? name key value =
      match environment.lookup name with
      | some (.value bound) =>
          some (bound.setProperty key value, environment.bind name (bound.setProperty key value))
      | _ => none := by
  unfold annotate? value?
  cases environment.lookup name with
  | none => rfl
  | some binding => cases binding <;> rfl

/-! ## Binding parameters -/

/-- Bind names to values, one after the other. -/
def bindAll (environment : Environment) (bindings : List (String × Expr)) : Environment :=
  bindings.foldl (fun inner (name, value) => inner.bind name value) environment

@[simp] theorem bindAll_nil (environment : Environment) : environment.bindAll [] = environment :=
  rfl

@[simp] theorem bindAll_cons (environment : Environment) (first : String × Expr)
    (rest : List (String × Expr)) :
    environment.bindAll (first :: rest) = (environment.bind first.1 first.2).bindAll rest := rfl

/-- A frame is entered by binding the parameters in it. -/
theorem enter_eq_bindAll (environment : Environment) (parameters : List String)
    (operands : List Expr) :
    environment.enter parameters operands =
      environment.frame.bindAll (parameters.zip operands) := rfl

/-- What a name stands for behind a run of bindings depends only on what it stood for
before. -/
theorem lookup_bindAll_congr {left right : Environment}
    (same : left.lookup name = right.lookup name) (bindings : List (String × Expr)) :
    (left.bindAll bindings).lookup name = (right.bindAll bindings).lookup name := by
  induction bindings generalizing left right with
  | nil => exact same
  | cons first rest inductionHypothesis =>
      apply inductionHypothesis
      rw [lookup_bind, lookup_bind, same]

/-- A name behind a run of bindings stands for one of the values, or for what it stood
for before. -/
theorem lookup_bindAll_cases (environment : Environment) (bindings : List (String × Expr))
    (name : String) :
    (∃ value, (name, value) ∈ bindings ∧
        (environment.bindAll bindings).lookup name = some (.value value)) ∨
      (environment.bindAll bindings).lookup name = environment.lookup name := by
  induction bindings generalizing environment with
  | nil => exact Or.inr rfl
  | cons first rest inductionHypothesis =>
      rw [bindAll_cons]
      rcases inductionHypothesis (environment.bind first.1 first.2) with
        ⟨value, member, found⟩ | unchanged
      · exact Or.inl ⟨value, List.mem_cons_of_mem first member, found⟩
      · rw [unchanged, lookup_bind]
        by_cases same : name = first.1
        · left
          refine ⟨first.2, ?_, if_pos same⟩
          rw [same]
          exact List.mem_cons_self
        · exact Or.inr (if_neg same)

/-! ## What is in sight -/

/-- Every value that a name stands for is accepted for this name. What nearer bindings cover
is out of sight. -/
def Sees (accepted : String → Expr → Prop) (environment : Environment) : Prop :=
  ∀ name value, environment.lookup name = some (.value value) → accepted name value

variable {accepted : String → Expr → Prop}

theorem Sees.bind (sees : environment.Sees accepted) (holds : accepted name value) :
    (environment.bind name value).Sees accepted := by
  intro other found bound
  rw [lookup_bind] at bound
  by_cases same : other = name
  · rw [if_pos same] at bound
    cases bound
    exact same ▸ holds
  · rw [if_neg same] at bound
    exact sees other found bound

/-- A function sees its operands, and what its caller sees. -/
theorem Sees.enter (parameters : List String) {operands : List Expr}
    (sees : environment.Sees accepted)
    (hold : ∀ name, ∀ operand ∈ operands, accepted name operand) :
    (environment.enter parameters operands).Sees accepted := by
  intro name value bound
  rw [enter_eq_bindAll] at bound
  rcases environment.frame.lookup_bindAll_cases (parameters.zip operands) name with
    ⟨operand, member, found⟩ | unchanged
  · rw [found] at bound
    cases bound
    exact hold name value (List.of_mem_zip member).2
  · rw [unchanged, lookup_frame] at bound
    exact sees name value bound

end FormLang.Environment
