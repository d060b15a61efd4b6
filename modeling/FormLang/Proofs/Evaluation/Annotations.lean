import FormLang.Proofs.Evaluation.Endings

/-!
Contract: the property that `set-property` sets.

The key is evaluated, then the value, and then the property is set in one of two ways. A target
that is a bare symbol bound to a value is annotated where it stands for something: the annotated
value is bound to the name in the current scope, so that an inherited value is copied and the
caller keeps its own. Any other target is evaluated, and the annotated value is bound to nothing.

Owns: how `set-property` ends, case by case, and that it changes one property of one expression
and, at most, what one name stands for in one scope.
-/

set_option autoImplicit false

namespace FormLang

namespace Evaluation

/-! ## Keys and properties that are read -/

/-- `(set-property key value target)` -/
def setting (key value target : Expr) : Expr :=
  .form (.symbol SpecialForm.setProperty.name) [key, value, target]

/-- `(get-property key target)` -/
def getting (key target : Expr) : Expr :=
  .form (.symbol SpecialForm.getProperty.name) [key, target]

/-- The key of a property, for every budget. -/
def keyed (form : SpecialForm) (key : Expr) : Budgeted String :=
  fun budget => evaluateKey (evaluate budget) form key

section Keys

variable {form : SpecialForm} {key value : Expr} {text : String} {failure : Failure}
variable {environment middle left : Environment}

theorem keyed_eq (form : SpecialForm) (key : Expr) :
    keyed form key = Budgeted.andThen (fun budget => evaluate budget key) fun value _ =>
      match value.head.string? with
      | some text => return text
      | none => .fail (.wrongKind (.form form) .stringKey) :=
  rfl

theorem stable_keyed (form : SpecialForm) (key : Expr) : (keyed form key).Stable := by
  rw [keyed_eq]
  exact (stable_evaluate key).andThen fun _ => Budgeted.stable_const _

/-- A key whose value is a string gives its content. -/
theorem keyed_of_string (evaluated : Ends key environment (.ok value) left)
    (string : value.head.string? = some text) :
    (keyed form key).Ends environment (.ok text) left := by
  rw [keyed_eq, Budgeted.ends_andThen_of_ok (stable_evaluate key)
    (fun _ => Budgeted.stable_const _) evaluated, Budgeted.ends_const_iff, string]
  rfl

/-- A key whose value is no string is refused. -/
theorem keyed_of_other (evaluated : Ends key environment (.ok value) left)
    (other : value.head.string? = none) :
    (keyed form key).Ends environment (.error (.wrongKind (.form form) .stringKey)) left := by
  rw [keyed_eq, Budgeted.ends_andThen_of_ok (stable_evaluate key)
    (fun _ => Budgeted.stable_const _) evaluated, Budgeted.ends_const_iff, other]
  rfl

theorem keyed_of_error (failed : Ends key environment (.error failure) left) :
    (keyed form key).Ends environment (.error failure) left := by
  rw [keyed_eq, Budgeted.ends_andThen_of_error (stable_evaluate key)
    (fun _ => Budgeted.stable_const _) failed]
  exact ⟨rfl, rfl⟩

end Keys

/-- Wherever `get-property` has this key and a target with this value, it gives what was found. -/
def Reads (owner : Expr) (text : String) (found : Expr) : Prop :=
  ∀ key value target environment middle left, Ends key environment (.ok value) middle →
    value.head.string? = some text → Ends target middle (.ok owner) left →
    Ends (getting key target) environment (.ok found) left

theorem reads_property (owner : Expr) (text : String) : Reads owner text (owner.property text) := by
  intro key value target environment middle left keyThere string targetThere
  have steps (budget : Nat) :
      step (evaluate budget) (callLinked budget) (getting key target) =
        (keyed .getProperty key).andThen (fun text =>
          Budgeted.andThen (fun budget => evaluate budget target) fun owner _ =>
            return owner.property text) budget := rfl
  have reading (text : String) : Budgeted.Stable
      (Budgeted.andThen (fun budget => evaluate budget target) fun owner _ =>
        (return owner.property text)) :=
    (stable_evaluate target).andThen fun _ => Budgeted.stable_const _
  rw [ends_iff_step steps, Budgeted.ends_andThen_of_ok (stable_keyed .getProperty key) reading
    (keyed_of_string keyThere string), Budgeted.ends_andThen_of_ok (stable_evaluate target)
    (fun _ => Budgeted.stable_const _) targetThere, Budgeted.ends_const_iff]
  rfl

theorem reads_of_property? {owner entry : Expr} {text : String}
    (found : owner.property? text = some entry) : Reads owner text entry := by
  have read := reads_property owner text
  rw [Expr.property, found] at read
  exact read

theorem reads_of_absent {owner : Expr} {text : String} (absent : owner.property? text = none) :
    Reads owner text (.leaf .none) := by
  have read := reads_property owner text
  rw [Expr.property, absent] at read
  exact read

/-! ## What is set, and where -/

/-- The later expression is the earlier one with the property, and with nothing else changed. -/
structure Annotates (text : String) (entry earlier later : Expr) : Prop where
  head : later.head = earlier.head
  tail : later.tail = earlier.tail
  given : later.property? text = some entry
  others : ∀ other, other ≠ text → later.property? other = earlier.property? other
  reads : Reads later text entry
  readsOthers : ∀ other, other ≠ text →
    Reads earlier other (earlier.property other) ∧ Reads later other (earlier.property other)
  readsNothing : ∀ other, other ≠ text → earlier.property? other = none →
    Reads later other (.leaf .none)

theorem setProperty_annotates (text : String) (entry owner : Expr) :
    Annotates text entry owner (owner.setProperty text entry) := by
  have given : (owner.setProperty text entry).property? text = some entry :=
    Table.lookup_set_same text entry owner.properties
  have others : ∀ other, other ≠ text →
      (owner.setProperty text entry).property? other = owner.property? other :=
    fun _ different => Table.lookup_set_other entry owner.properties different
  refine ⟨rfl, rfl, given, others, reads_of_property? given, fun other different => ?_,
    fun other different absent => reads_of_absent ((others other different).trans absent)⟩
  have same : (owner.setProperty text entry).property other = owner.property other := by
    unfold Expr.property
    rw [others other different]
  have later := reads_property (owner.setProperty text entry) other
  rw [same] at later
  exact ⟨reads_property owner other, later⟩

/-- The later environment is the earlier one with the name bound in the current scope, and with
nothing else changed. -/
structure Rebinds (name : String) (value : Expr) (earlier later : Environment) : Prop where
  callers : later.callers = earlier.callers
  bound : List.lookup name later.current = some (.value value)
  others : ∀ other, other ≠ name →
    List.lookup other later.current = List.lookup other earlier.current

theorem bind_rebinds (name : String) (value : Expr) (environment : Environment) :
    Rebinds name value environment (environment.bind name value) where
  callers := rfl
  bound := Table.lookup_set_same name _ environment.current
  others _ different := Table.lookup_set_other _ environment.current different

/-! ## The key and the value -/

/-- What the key and the value of a property give, evaluated in this order. -/
inductive Readies (key value : Expr) (environment : Environment) :
    Except Failure (String × Expr) → Environment → Prop where
  | keyFails {failure : Failure} {left : Environment}
      (failed : Ends key environment (.error failure) left) :
      Readies key value environment (.error failure) left
  | notString {keyValue : Expr} {left : Environment}
      (keyThere : Ends key environment (.ok keyValue) left)
      (other : keyValue.head.string? = none) :
      Readies key value environment (.error (.wrongKind (.form .setProperty) .stringKey)) left
  | valueFails {keyValue : Expr} {text : String} {failure : Failure} {middle left : Environment}
      (keyThere : Ends key environment (.ok keyValue) middle)
      (string : keyValue.head.string? = some text)
      (failed : Ends value middle (.error failure) left) :
      Readies key value environment (.error failure) left
  | ready {keyValue entry : Expr} {text : String} {middle left : Environment}
      (keyThere : Ends key environment (.ok keyValue) middle)
      (string : keyValue.head.string? = some text)
      (valueThere : Ends value middle (.ok entry) left) :
      Readies key value environment (.ok (text, entry)) left

/-- The key and the value of a property, for every budget. -/
def readying (key value : Expr) : Budgeted (String × Expr) :=
  (keyed .setProperty key).andThen fun text =>
    Budgeted.andThen (fun budget => evaluate budget value) fun entry _ => return (text, entry)

section Readying

variable {key value : Expr} {environment left : Environment}

theorem stable_readying (key value : Expr) : (readying key value).Stable :=
  (stable_keyed .setProperty key).andThen fun _ =>
    (stable_evaluate value).andThen fun _ => Budgeted.stable_const _

theorem Readies.ends {readied : Except Failure (String × Expr)}
    (readies : Readies key value environment readied left) :
    (readying key value).Ends environment readied left := by
  have valueStable (text : String) : Budgeted.Stable
      (Budgeted.andThen (fun budget => evaluate budget value) fun entry _ =>
        (return (text, entry))) :=
    (stable_evaluate value).andThen fun _ => Budgeted.stable_const _
  unfold readying
  cases readies with
  | keyFails failed =>
      rw [Budgeted.ends_andThen_of_error (stable_keyed .setProperty key) valueStable
        (keyed_of_error failed)]
      exact ⟨rfl, rfl⟩
  | notString keyThere other =>
      rw [Budgeted.ends_andThen_of_error (stable_keyed .setProperty key) valueStable
        (keyed_of_other keyThere other)]
      exact ⟨rfl, rfl⟩
  | valueFails keyThere string failed =>
      rw [Budgeted.ends_andThen_of_ok (stable_keyed .setProperty key) valueStable
        (keyed_of_string keyThere string), Budgeted.ends_andThen_of_error (stable_evaluate value)
        (fun _ => Budgeted.stable_const _) failed]
      exact ⟨rfl, rfl⟩
  | ready keyThere string valueThere =>
      rw [Budgeted.ends_andThen_of_ok (stable_keyed .setProperty key) valueStable
        (keyed_of_string keyThere string), Budgeted.ends_andThen_of_ok (stable_evaluate value)
        (fun _ => Budgeted.stable_const _) valueThere, Budgeted.ends_const_iff]
      rfl

/-- The key and the value end in no other way. -/
theorem readying_ends_iff {readied : Except Failure (String × Expr)} :
    (readying key value).Ends environment readied left ↔
      Readies key value environment readied left := by
  refine ⟨fun ends => ?_, Readies.ends⟩
  obtain ⟨readied', left', readies⟩ : ∃ readied' left',
      Readies key value environment readied' left' := by
    obtain ⟨_, _, keyEnds⟩ := ends.begins
    rw [keyed_eq] at keyEnds
    obtain ⟨keyOutcome, middle, keyThere⟩ := keyEnds.begins
    cases keyOutcome with
    | error failure => exact ⟨_, _, .keyFails keyThere⟩
    | ok keyValue =>
        cases string : keyValue.head.string? with
        | none => exact ⟨_, _, .notString keyThere string⟩
        | some text =>
            unfold readying at ends
            rw [Budgeted.ends_andThen_of_ok (stable_keyed .setProperty key)
              (fun _ => (stable_evaluate value).andThen fun _ => Budgeted.stable_const _)
              (keyed_of_string keyThere string)] at ends
            obtain ⟨valueOutcome, left', valueThere⟩ := ends.begins
            cases valueOutcome with
            | error failure => exact ⟨_, _, .valueFails keyThere string valueThere⟩
            | ok entry => exact ⟨_, _, .ready keyThere string valueThere⟩
  obtain ⟨rfl, rfl⟩ := readies.ends.unique (stable_readying key value) ends
  exact readies

end Readying

/-! ## The target -/

/-- The target is no name of a value. -/
def Unnamed (target : Expr) (environment : Environment) : Prop :=
  ∀ name owner, target.bareSymbol? = some name → environment.lookup name ≠ some (.value owner)

/-- How `set-property` ends. -/
inductive Sets (key value target : Expr) (environment : Environment) :
    Except Failure Expr → Environment → Prop where
  /-- Key or value are not there, and nothing is set. -/
  | unready {failure : Failure} {left : Environment}
      (readies : Readies key value environment (.error failure) left) :
      Sets key value target environment (.error failure) left
  /-- The value that the target names is annotated, and bound in the current scope. -/
  | named {text name : String} {entry owner : Expr} {middle : Environment}
      (readies : Readies key value environment (.ok (text, entry)) middle)
      (bare : target.bareSymbol? = some name) (found : middle.lookup name = some (.value owner)) :
      Sets key value target environment (.ok (owner.setProperty text entry))
        (middle.bind name (owner.setProperty text entry))
  /-- The value of the target is annotated, if it has one, and nothing is bound. -/
  | evaluated {text : String} {entry : Expr} {middle left : Environment}
      {outcome : Except Failure Expr}
      (readies : Readies key value environment (.ok (text, entry)) middle)
      (unnamed : Unnamed target middle) (ends : Ends target middle outcome left) :
      Sets key value target environment (outcome.map fun owner => owner.setProperty text entry) left

/-- The target, annotated, for every budget. -/
def annotating (target : Expr) (text : String) (entry : Expr) : Budgeted Expr :=
  fun budget => annotateOr target.bareSymbol? text entry do
    return (← evaluate budget target).setProperty text entry

section Targets

variable {target entry owner : Expr} {text name : String} {middle left : Environment}
variable {outcome : Except Failure Expr}

theorem annotating_named (bare : target.bareSymbol? = some name)
    (found : middle.lookup name = some (.value owner)) (budget : Nat) :
    annotating target text entry budget middle =
      some (.ok (owner.setProperty text entry),
        middle.bind name (owner.setProperty text entry)) := by
  unfold annotating annotateOr
  simp only [Computation.bind_apply, Computation.environment, bare, Option.bind_some,
    Environment.annotate?_eq, found]
  rfl

theorem annotating_unnamed (unnamed : Unnamed target middle) (budget : Nat) :
    annotating target text entry budget middle =
      Budgeted.andThen (fun budget => evaluate budget target)
        (fun owner _ => return owner.setProperty text entry) budget middle := by
  have passes : (target.bareSymbol?.bind fun name => middle.annotate? name text entry) = none := by
    cases bare : target.bareSymbol? with
    | none => rfl
    | some name =>
        rw [Option.bind_some, Environment.annotate?_eq]
        split
        · rename_i owner found
          exact absurd found (unnamed name owner bare)
        · rfl
  unfold annotating annotateOr
  simp only [Computation.bind_apply, Computation.environment, passes]
  rfl

theorem named_or_unnamed (target : Expr) (environment : Environment) :
    (∃ name owner, target.bareSymbol? = some name ∧
      environment.lookup name = some (.value owner)) ∨ Unnamed target environment := by
  by_contra neither
  push Not at neither
  exact neither.2 fun name owner bare => neither.1 name owner bare

theorem stable_annotating (target : Expr) (text : String) (entry : Expr) :
    (annotating target text entry).Stable := by
  intro budget budget' covered environment ending ended
  rcases named_or_unnamed target environment with ⟨name, owner, bare, found⟩ | unnamed
  · rw [annotating_named bare found] at ended ⊢
    exact ended
  · have evaluating : Budgeted.Stable
        (Budgeted.andThen (fun budget => evaluate budget target) fun owner _ =>
          return owner.setProperty text entry) :=
      (stable_evaluate target).andThen fun _ => Budgeted.stable_const _
    rw [annotating_unnamed unnamed] at ended ⊢
    exact evaluating budget budget' covered environment ending ended

/-- A target that is no name of a value is evaluated, and a value of it is annotated. -/
theorem annotating_ends_iff (unnamed : Unnamed target middle) :
    (annotating target text entry).Ends middle outcome left ↔
      ∃ reached, Ends target middle reached left ∧
        outcome = reached.map fun owner => owner.setProperty text entry := by
  have evaluates : (annotating target text entry).Ends middle outcome left ↔
      (Budgeted.andThen (fun budget => evaluate budget target) fun owner _ =>
        return owner.setProperty text entry).Ends middle outcome left := by
    simp only [Budgeted.Ends, annotating_unnamed unnamed]
  have targetStable := stable_evaluate target
  rw [evaluates]
  constructor
  · intro ends
    obtain ⟨reached, middle', targetEnds⟩ := ends.begins
    cases reached with
    | error failure =>
        obtain ⟨rfl, rfl⟩ := (Budgeted.ends_andThen_of_error targetStable
          (fun _ => Budgeted.stable_const _) targetEnds).mp ends
        exact ⟨.error failure, targetEnds, rfl⟩
    | ok owner =>
        have last := (Budgeted.ends_andThen_of_ok targetStable
          (fun _ => Budgeted.stable_const _) targetEnds).mp ends
        cases Budgeted.ends_const_iff.mp last
        exact ⟨.ok owner, targetEnds, rfl⟩
  · rintro ⟨reached, targetEnds, rfl⟩
    cases reached with
    | error failure =>
        exact (Budgeted.ends_andThen_of_error targetStable
          (fun _ => Budgeted.stable_const _) targetEnds).mpr ⟨rfl, rfl⟩
    | ok owner =>
        exact (Budgeted.ends_andThen_of_ok targetStable
          (fun _ => Budgeted.stable_const _) targetEnds).mpr (Budgeted.ends_const_iff.mpr rfl)

end Targets

section Setting

variable {key value target : Expr} {environment left : Environment}
variable {outcome : Except Failure Expr}

theorem step_setting (key value target : Expr) (budget : Nat) :
    step (evaluate budget) (callLinked budget) (setting key value target) =
      (readying key value).andThen (fun readied => annotating target readied.1 readied.2)
        budget := by
  unfold readying
  simp only [Budgeted.andThen_assoc]
  rfl

/-- `set-property` ends in these ways and in no other. -/
theorem ends_setting_iff :
    Ends (setting key value target) environment outcome left ↔
      Sets key value target environment outcome left := by
  have readyingStable := stable_readying key value
  have annotatingStable (readied : String × Expr) :
      (annotating target readied.1 readied.2).Stable := stable_annotating target _ _
  rw [ends_iff_step (step_setting key value target)]
  constructor
  · intro ends
    obtain ⟨readied, middle, readyEnds⟩ := ends.begins
    have readies := readying_ends_iff.mp readyEnds
    cases readied with
    | error failure =>
        obtain ⟨rfl, rfl⟩ := (Budgeted.ends_andThen_of_error readyingStable annotatingStable
          readyEnds).mp ends
        exact .unready readies
    | ok readied =>
        have last := (Budgeted.ends_andThen_of_ok readyingStable annotatingStable
          readyEnds).mp ends
        rcases named_or_unnamed target middle with ⟨name, owner, bare, found⟩ | unnamed
        · obtain ⟨budget, ended⟩ := last
          rw [annotating_named bare found] at ended
          cases ended
          exact .named readies bare found
        · obtain ⟨reached, targetEnds, rfl⟩ := (annotating_ends_iff unnamed).mp last
          exact .evaluated readies unnamed targetEnds
  · intro sets
    cases sets with
    | unready readies =>
        exact (Budgeted.ends_andThen_of_error readyingStable annotatingStable
          readies.ends).mpr ⟨rfl, rfl⟩
    | named readies bare found =>
        exact (Budgeted.ends_andThen_of_ok readyingStable annotatingStable readies.ends).mpr
          ⟨0, annotating_named bare found 0⟩
    | evaluated readies unnamed targetEnds =>
        exact (Budgeted.ends_andThen_of_ok readyingStable annotatingStable readies.ends).mpr
          ((annotating_ends_iff unnamed).mpr ⟨_, targetEnds, rfl⟩)

end Setting

/-- `set-property` sets one property in one place. Its key is evaluated and then its value, and
where one of them fails or the key is no string, nothing is set and the environment is the one
that they have left. Otherwise a target that is a name of a value in that environment gives
this value with the property, which the name is then bound to in the current scope; every other
target gives its own value with the property, or its own failure, and leaves what its evaluation
has left. The value with the property has the head and the tail that it had, `get-property` finds
the entry under the key, and under every other key what it found there before, or nothing if
there was nothing. Binding the name changes no other name of the current scope, and no scope of
a caller. -/
theorem set_property_one_place (key value target : Expr) (environment : Environment) :
    (∀ outcome left, Ends (setting key value target) environment outcome left ↔
      Sets key value target environment outcome left) ∧
    (∀ text entry owner, Annotates text entry owner (owner.setProperty text entry)) ∧
    ∀ name result middle, Rebinds name result middle (middle.bind name result) :=
  ⟨fun _ _ => ends_setting_iff, setProperty_annotates, bind_rebinds⟩

/-- `(set-property "k" "second" a)`, where `a` is bound by the caller: the current scope gets a
binding of its own, and the caller's stays as it is. -/
example (callers : List Scope) :
    evaluate 2 (setting (.leaf (.string "k")) (.leaf (.string "second")) (.leaf (.symbol "a")))
        ⟨[], [("a", .value (.leaf (.string "first")))] :: callers⟩ =
      some (.ok (.node (.string "first") [] [("k", .leaf (.string "second"))]),
        ⟨[("a", .value (.node (.string "first") [] [("k", .leaf (.string "second"))]))],
          [("a", .value (.leaf (.string "first")))] :: callers⟩) :=
  rfl

end Evaluation

end FormLang
