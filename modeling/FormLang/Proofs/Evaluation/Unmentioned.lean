import FormLang.Proofs.Evaluation.Agreement
import FormLang.Proofs.Evaluation.Invariant
import FormLang.Proofs.Procedures
import FormLang.Proofs.Trees

/-!
Contract: names that nobody mentions.

A function sees the names of its caller, so what a call can see is not to be read off the
program. But no evaluation makes up a symbol other than the tags of lists and functions, and
tags are never looked up. So a name that occurs neither in an expression nor in what the other
names stand for is never looked up, whatever it stands for.

Owns: environments that agree on all names but one, functions that spare a name, and the
theorem that evaluations in such environments cannot be told apart.
-/

set_option autoImplicit false

namespace FormLang

/-- The bodies of all functions in a tree, and in its properties, are free of a name. -/
def Expr.BodiesSpare (name : String) : Expr → Prop :=
  Expr.Everywhere fun head tail => ∀ parameters body,
    (Expr.form head tail).lambdaParts? = some (parameters, body) → name ∉ body.symbols

namespace Expr.BodiesSpare

variable {name : String} {expression body : Expr}

/-- The functions of an expression have bodies that are parts of it. -/
theorem of_not_mem (absent : name ∉ expression.symbols) : expression.BodiesSpare name := by
  refine (Expr.not_mem_symbols_iff.mp absent).imp fun head tail _ children => ?_
  intro parameters body parts
  exact Expr.not_mem_symbols_iff.mpr (children body (Expr.body_mem_tail parts))

theorem leaf (head : Atom) : (Expr.leaf head).BodiesSpare name := by
  refine Expr.Everywhere.leaf fun parameters body parts => ?_
  change (Expr.leaf head).lambdaParts? = _ at parts
  rw [Expr.lambdaParts?_leaf] at parts
  cases parts

theorem list {items : List Expr} (spare : ∀ item ∈ items, item.BodiesSpare name) :
    (Expr.list items).BodiesSpare name := by
  refine Expr.Everywhere.form (fun parameters body parts => ?_) spare
  cases parts

theorem lambda {parameters : List String} (absent : name ∉ body.symbols) :
    (Expr.lambda parameters body).BodiesSpare name := by
  refine Expr.Everywhere.lambda (fun names other parts => ?_) (fun tail names other parts => ?_)
    (fun parameter _ => (leaf (.symbol parameter)).here) (of_not_mem absent)
  · change (Expr.lambda parameters body).lambdaParts? = _ at parts
    rw [Expr.lambdaParts?_lambda] at parts
    cases parts
    exact absent
  · cases parts

theorem functionBody {value : Expr} {parameters : List String} (spares : value.BodiesSpare name)
    (parts : value.lambdaParts? = some (parameters, body)) : name ∉ body.symbols :=
  spares.here parameters body parts

end Expr.BodiesSpare

namespace Evaluation

open Correspondence

variable {name : String}

/-- Two environments in which all names but one stand for the same, and for values whose
functions spare that name. What it stands for in each of them is part of the world. -/
structure AgreeExcept (name : String) (world : Option Binding × Option Binding)
    (environment environment' : Environment) : Prop where
  others : ∀ other, other ≠ name → environment.lookup other = environment'.lookup other
  values : environment.Sees fun other value => other ≠ name → value.BodiesSpare name
  left : environment.lookup name = world.1
  right : environment'.lookup name = world.2

namespace AgreeExcept

variable {world : Option Binding × Option Binding} {environment environment' : Environment}

/-- All other names may be bound to the same. -/
theorem bind {other : String} {value : Expr} (agree : AgreeExcept name world environment environment')
    (different : other ≠ name) (spares : value.BodiesSpare name) :
    AgreeExcept name world (environment.bind other value) (environment'.bind other value) where
  others third apart := by
    rw [Environment.lookup_bind, Environment.lookup_bind, agree.others third apart]
  values := agree.values.bind fun _ => spares
  left := by rw [Environment.lookup_bind_other environment value different.symm, agree.left]
  right := by rw [Environment.lookup_bind_other environment' value different.symm, agree.right]

/-- The scopes of a call agree, too. The name may be a parameter there. -/
theorem enter (agree : AgreeExcept name world environment environment') (parameters : List String)
    {operands : List Expr} (spare : ∀ operand ∈ operands, operand.BodiesSpare name) :
    ∃ inner, AgreeExcept name inner (environment.enter parameters operands)
      (environment'.enter parameters operands) := by
  have values := agree.values.enter parameters fun _ operand member _ => spare operand member
  refine ⟨(_, _), ?_, values, rfl, rfl⟩
  intro other apart
  rw [Environment.enter_eq_bindAll, Environment.enter_eq_bindAll]
  apply Environment.lookup_bindAll_congr
  rw [Environment.lookup_frame, Environment.lookup_frame, agree.others other apart]

theorem procedure? {other : String} (agree : AgreeExcept name world environment environment')
    (apart : other ≠ name) : environment.procedure? other = environment'.procedure? other :=
  Environment.procedure?_congr (agree.others other apart)

end AgreeExcept

/-- Everything is the same on both sides except for what a name stands for, which occurs in no
expression and in no body of a function. -/
def except (name : String) : Correspondence (Option Binding × Option Binding) where
  environments := AgreeExcept name
  expressions _ expression expression' := expression = expression' ∧ name ∉ expression.symbols
  values value value' := value = value' ∧ value.BodiesSpare name
  functions _ body body' := body = body' ∧ name ∉ body.symbols
  failures := Eq
  writable _ other := other ≠ name
  atoms _ := True

section Laws

variable {world : Option Binding × Option Binding} {expression : Expr}

theorem head_ne_of_absent (absent : name ∉ expression.symbols) : expression.head ≠ .symbol name :=
  (Expr.not_mem_symbols_iff.mp absent).here

theorem absent_of_child {child : Expr} (absent : name ∉ expression.symbols)
    (member : child ∈ expression.tail) : name ∉ child.symbols :=
  Expr.not_mem_symbols_iff.mpr ((Expr.not_mem_symbols_iff.mp absent).children child member)

/-- A symbol other than the name stands for the same in both environments. -/
theorem except_shows (absent : name ∉ expression.symbols) :
    (except name).Shows world expression expression where
  head := rfl
  isLeaf := rfl
  atom := trivial
  lookup := by
    intro other environment environment' head agree
    have apart : other ≠ name := by
      rintro rfl
      exact head_ne_of_absent absent head
    rw [← agree.others other apart]
    cases found : environment.lookup other with
    | none => exact .unbound
    | some binding =>
        cases binding with
        | procedure builtIn => exact .procedure builtIn
        | value value => exact .value ⟨rfl, agree.values other value found apart⟩

theorem except_laws : (except name).Laws where
  shows := by
    intro world expression expression' belong
    obtain ⟨rfl, absent⟩ := belong
    exact except_shows absent
  literal _ _ := ⟨rfl, .leaf _⟩
  list belong := by
    obtain ⟨rfl, spare⟩ := Invariant.diagonal_forall₂.mp belong
    exact ⟨rfl, .list spare⟩
  isList belong := by rw [belong.1]
  items := by
    intro value value' belong _
    obtain ⟨rfl, spares⟩ := belong
    exact Invariant.diagonal_forall₂.mpr ⟨rfl, spares.children⟩
  lambdaParts := by
    intro value value' belong
    obtain ⟨rfl, spares⟩ := belong
    cases parts : value.lambdaParts? with
    | none => exact .none
    | some pair => exact .some pair.1 ⟨rfl, spares.functionBody parts⟩
  string belong := by rw [belong.1]
  setProperty := by
    intro value value' entry entry' key belong entries
    obtain ⟨rfl, spares⟩ := belong
    obtain ⟨rfl, entrySpares⟩ := entries
    exact ⟨rfl, spares.setProperty key entrySpares⟩
  failure _ := rfl
  define := by
    intro world environment environment' other value value' apart agree belong _ _ _
    obtain ⟨rfl, spares⟩ := belong
    exact agree.bind apart spares
  annotate := by
    intro world environment environment' other bound bound' entry entry' key apart agree belong
      entries _ _
    obtain ⟨rfl, spares⟩ := belong
    obtain ⟨rfl, entrySpares⟩ := entries
    exact agree.bind apart (spares.setProperty key entrySpares)

/-- Parameters are checked by looking up their own names. -/
theorem except_parameters (absent : name ∉ expression.symbols) :
    (except name).Parameters world expression.tail expression.tail := by
  intro names body names' body' shape shape' environment environment' agree
  obtain ⟨rfl, rfl⟩ : names = names' ∧ body = body' := by
    rw [shape] at shape'
    simpa using shape'
  have namesAbsent : name ∉ names.symbols :=
    absent_of_child absent (by rw [shape]; exact List.mem_cons_self)
  have bodyAbsent : name ∉ body.symbols :=
    absent_of_child absent (by rw [shape]; exact List.mem_cons_of_mem _ List.mem_cons_self)
  have same : ∀ other,
      some other ∈ names.head.symbol? :: names.tail.map Expr.bareSymbol? →
      environment.procedure? other = environment'.procedure? other := by
    intro other member
    refine agree.procedure? ?_
    rintro rfl
    rcases List.mem_cons.mp member with head | later
    · apply head_ne_of_absent namesAbsent
      cases shape : names.head <;> rw [shape] at head <;> simp_all [Atom.symbol?]
    · obtain ⟨parameter, inside, bare⟩ := List.mem_map.mp later
      exact head_ne_of_absent (absent_of_child namesAbsent inside) (head_of_bareSymbol? bare)
  rw [checkParameters_congr same]
  cases checkParameters environment' (names.head.symbol? :: names.tail.map Expr.bareSymbol?) with
  | ok accepted => exact .ok ⟨rfl, .lambda bodyAbsent⟩
  | error failure => exact .error rfl

theorem except_admits (absent : name ∉ expression.symbols) :
    (except name).Admits world expression expression where
  shows := except_shows absent
  operands _ := List.forall₂_same.mpr fun _ member => ⟨rfl, absent_of_child absent member⟩
  isLambda _ := rfl
  function _ := ⟨rfl, .of_not_mem absent⟩
  makes _ _ := ⟨rfl, except_parameters absent⟩
  defines := by
    rintro target value _ _ shape bare rfl
    exact head_ne_of_absent (absent_of_child absent (by rw [shape]; exact List.mem_cons_self))
      (head_of_bareSymbol? bare)
  annotates := by
    rintro key value target _ _ shape bare rfl
    exact head_ne_of_absent (absent_of_child absent (by rw [shape]; simp))
      (head_of_bareSymbol? bare)
  reads := by
    intro value value' key _ belong
    obtain ⟨rfl, spares⟩ := belong
    refine ⟨rfl, spares.property ?_ key⟩
    exact (Expr.BodiesSpare.leaf .none).here

theorem except_calls : (except name).Calls Environment.enter Environment.enter where
  procedure builtIn operands operands' belong := by
    obtain ⟨rfl, spare⟩ := Invariant.diagonal_forall₂.mp belong
    have items : ∀ {value : Expr}, value.BodiesSpare name → value.isList = true →
        ∀ item ∈ value.tail, item.BodiesSpare name := fun spares _ => spares.children
    have computed : ∀ {head : Atom}, head.Computed → (Expr.leaf head).BodiesSpare name :=
      fun _ => .leaf _
    have yields := Procedure.apply_yields items computed Expr.BodiesSpare.list spare builtIn
    cases outcome : builtIn.apply operands with
    | ok value => exact .ok ⟨rfl, yields value outcome⟩
    | error failure => exact .error rfl
  enter := by
    intro world environment environment' parameters body body' operands operands' bodies agree
      belong _
    obtain ⟨rfl, absent⟩ := bodies
    obtain ⟨rfl, spare⟩ := Invariant.diagonal_forall₂.mp belong
    obtain ⟨inner, scopes⟩ := agree.enter parameters spare
    exact ⟨inner, scopes, rfl, absent⟩

end Laws

/-- Evaluations in environments that agree except for a name match. -/
theorem evaluate_matches_except {world : Option Binding × Option Binding} {expression : Expr}
    (absent : name ∉ expression.symbols) (budget : Nat) :
    (except name).Matches False world (except name).values (evaluate budget expression)
      (evaluate budget expression) :=
  evaluateBy_matches_evenly except_laws except_calls
    (by rintro world expression _ ⟨rfl, absent⟩; exact except_admits absent) budget ⟨rfl, absent⟩

/-- A name that nobody mentions cannot influence anything. Let all names but one stand for the
same in two environments, and let the one occur neither in an expression nor in the values that
the others stand for. Then the expression evaluates to the same value or fails for the same
reason in both, or runs out of the budget in both. The environments that are left agree on all
other names again, and the name itself stands for what it stood for in each of them. -/
theorem unmentioned_irrelevant {expression : Expr} {environment environment' : Environment}
    (absent : name ∉ expression.symbols)
    (agree : ∀ other, other ≠ name → environment.lookup other = environment'.lookup other)
    (boundAbsent : ∀ other value, other ≠ name →
      environment.lookup other = some (.value value) → name ∉ value.symbols)
    (budget : Nat) :
    Option.Rel (fun (outcome, left) (outcome', left') => outcome = outcome' ∧
        (∀ other, other ≠ name → left.lookup other = left'.lookup other) ∧
        left.lookup name = environment.lookup name ∧
        left'.lookup name = environment'.lookup name)
      (evaluate budget expression environment) (evaluate budget expression environment') := by
  have scopes : AgreeExcept name (environment.lookup name, environment'.lookup name) environment
      environment' := by
    refine ⟨agree, fun other value found apart => ?_, rfl, rfl⟩
    exact .of_not_mem (boundAbsent other value apart found)
  have ends := (evaluate_matches_except absent budget environment environment' scopes).rel
  revert ends
  generalize evaluate budget expression environment = ending
  generalize evaluate budget expression environment' = ending'
  intro ends
  cases ends with
  | none => exact .none
  | @some ending ending' both =>
      obtain ⟨outcome, left⟩ := ending
      obtain ⟨outcome', left'⟩ := ending'
      obtain ⟨checks, agreeing⟩ := both
      refine .some ⟨?_, agreeing.others, agreeing.left, agreeing.right⟩
      cases checks with
      | ok values => exact congrArg Except.ok values.1
      | error failures => exact congrArg Except.error failures

/-- `(begin (define f (lambda (x) (list (a x)))) (map f (list "one")))` -/
def callingProgram : Expr :=
  .form (.symbol "begin")
    [.form (.symbol "define") [.leaf (.symbol "f"),
      .form (.symbol "lambda") [.leaf (.symbol "x"),
        .form (.symbol "list") [.form (.symbol "a") [.leaf (.symbol "x")]]]],
      .form (.symbol "map") [.leaf (.symbol "f"),
        .form (.symbol "list") [.leaf (.string "one")]]]

/-- An environment in which `a` is the function that gives back its operand. -/
def withIdentity : Environment :=
  Environment.initial.bind "a" (.lambda ["x"] (.leaf (.symbol "x")))

/-- The name of a procedure can stand for anything as long as no program and no function
mentions it. -/
theorem shadowed_procedure_unnoticed :
    "first" ∉ callingProgram.symbols ∧
      ∃ left, evaluate 5 callingProgram (withIdentity.bind "first" (.leaf (.string "other"))) =
          some (.ok (.list [.list [.leaf (.string "one")]]), left) ∧
        left.lookup "first" = some (.value (.leaf (.string "other"))) := by
  have absent : "first" ∉ callingProgram.symbols := by decide
  refine ⟨absent, ?_⟩
  have literal : ∀ {head : Atom}, head.symbol? = none → "first" ∉ (Expr.leaf head).symbols := by
    intro head plain
    refine Expr.not_mem_symbols_iff.mpr (.leaf ?_)
    rintro rfl
    cases plain
  have binds : withIdentity.Binds fun value => "first" ∉ value.symbols :=
    (Environment.initial_binds literal).bind "a" (by decide)
  obtain ⟨left, ended⟩ : ∃ left, evaluate 5 callingProgram withIdentity =
      some (.ok (.list [.list [.leaf (.string "one")]]), left) := ⟨_, rfl⟩
  have alike := unmentioned_irrelevant absent
    (fun other apart => (withIdentity.lookup_bind_other (.leaf (.string "other")) apart).symm)
    (fun other value _ found => binds.lookup found) 5
  rw [ended] at alike
  revert alike
  generalize evaluate 5 callingProgram _ = ending
  intro alike
  cases alike with
  | @some _ ending both =>
      obtain ⟨outcome, left'⟩ := ending
      obtain ⟨rfl, -, -, kept⟩ := both
      exact ⟨left', rfl, kept.trans (Environment.lookup_bind_same _ _ _)⟩

end Evaluation

end FormLang
